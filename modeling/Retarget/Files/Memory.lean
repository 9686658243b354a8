import Retarget.Path.Join
import Retarget.Path.Table
import Retarget.Files.View
import Retarget.Text.Quoted

/-
  This file defines files that are kept in memory.  They
  imply their directories, and one path may be a file and a
  directory at once.

  Key definitions include:
    * `MemoryFiles`
    * `MemoryFiles.add`
    * `MemoryFiles.remove`
    * `MemoryFiles.view`

  Key statements include:
    * `MemoryFiles.read_isFinite`
-/

namespace Retarget

structure MemoryFiles where
  /- The directory that relative paths start from. -/
  root : Path
  files : PathTable String
  deriving Repr, Inhabited

namespace MemoryFiles

variable (m : MemoryFiles)

def empty (root : Path) : MemoryFiles :=
  ⟨root, .empty⟩

def place (path : Path) : Path :=
  if path.isAbsolute then path else m.root.join path

def add (path : Path) (text : String) : MemoryFiles :=
  { m with files := m.files.insert (m.place path) text }

def remove (path : Path) : MemoryFiles :=
  { m with files := m.files.erase (m.place path) }

def ofList (root : Path) (files : List (Path × String)) : MemoryFiles :=
  files.foldl (fun m (path, text) => m.add path text) (empty root)

def isFile (path : Path) : Bool :=
  m.files.contains (m.place path)

/- Some file lies below the path. -/
def isDirectory (path : Path) : Bool :=
  let path := m.place path
  m.files.keys.any fun p => !p.same path && path.isStartOf p

def read (path : Path) : Except FileError String :=
  let path := m.place path
  match m.files.find? path with
  | some text => .ok text
  | none => .error ⟨"File not found: " ++ Text.quoted path.text, none⟩

/- What lies directly below a directory, because of some file. -/
def entryOf? (directory file : Path) : Option FileEntry :=
  if directory.isStartOf file then
    match file.components.drop directory.components.length with
    | [] => none
    | first :: rest =>
      let path := directory.child first.text
      some ⟨path.fileName, path, rest.isEmpty⟩
  else none

/- What is both a file and a directory counts as a directory. -/
def entries (path : Path) : Except FileError (List FileEntry) :=
  let directory := m.place path
  if m.isDirectory directory then
    let found := m.files.keys.filterMap (entryOf? directory)
    let table := found.foldl (fun t e => t.insert e.path e) PathTable.empty
    .ok table.values
  else
    .error ⟨"Directory not found: " ++ Text.quoted directory.text, none⟩

------------------------------------------------------------
-- Finitely many paths
------------------------------------------------------------

theorem exists_key_of_read
    {m : MemoryFiles}
    {path : Path}
    {text : String}
    (h : m.read path = .ok text) :
    ∃ k ∈ m.files.keys, k.components = (m.place path).components := by
  refine PathTable.contains_iff.mp ?_
  rw [PathTable.contains]
  unfold read at h
  dsimp only at h
  split at h
  · next hFound => rw [hFound, Option.isSome_some]
  · cases h

/-
  A path leads to a file by the file's own components, or by
  those behind the root, perhaps with a dot before them.
-/
theorem read_isFinite :
    ∃ places : List (List Path.Component),
      ∀ path text, m.read path = .ok text → path.components ∈ places := by
  let below := fun k : Path => k.components.drop m.root.components.length
  refine ⟨m.files.keys.flatMap fun k =>
    [k.components, below k, .current :: below k], fun path text h => ?_⟩
  rcases exists_key_of_read h with ⟨k, hKey, hPlace⟩
  refine List.mem_flatMap.mpr ⟨k, hKey, ?_⟩
  by_cases hAbsolute : path.isAbsolute = true
  · rw [place, if_pos hAbsolute] at hPlace
    simp [hPlace]
  · rw [Bool.not_eq_true] at hAbsolute
    rw [place, hAbsolute, if_neg Bool.false_ne_true] at hPlace
    by_cases hRoot : m.root.text = ""
    · rw [Path.join, hAbsolute, hRoot] at hPlace
      simp at hPlace
      simp [hPlace]
    · rw [Path.components_join hRoot hAbsolute] at hPlace
      have hBelow : below k = Path.innerComponents path.segments.2 := by
        simp only [below, hPlace, List.drop_left]
      rcases Path.components_of_relative hAbsolute with hPath | hPath <;>
        simp [hPath, hBelow]

def view : FileView where
  isFile := m.isFile
  isDirectory := m.isDirectory
  read := m.read
  entries := m.entries
  isFinite := m.read_isFinite

end MemoryFiles

end Retarget
