import Retarget.Path
import Retarget.Files.View
import Retarget.Text.Offset
import Retarget.Text.Quoted

/-
  This file defines a picture of the files on a disk, seen
  from a working directory.  Every step of a path leads
  through a directory that is there, and going up from a
  directory needs that directory.

  Key definitions include:
    * `Disk`
    * `Disk.Fault`
    * `Disk.longest`
    * `Disk.locate`
    * `Disk.write`
    * `Disk.writeBelow`
    * `Disk.changesFrom`
    * `Disk.view`

  Key statements include:
    * `Disk.readText_isFinite`
-/

namespace Retarget

/- The names that lead from the root of a disk to a file. -/
abbrev Route := List String

/-
  Files have their text, unless it is not readable as text;
  directories are listed with all their parents.
-/
structure Disk where
  working : Route
  directories : List Route
  files : List (Route × Option String)
  deriving Repr, Inhabited

namespace Disk

/- Why the disk refuses something. -/
inductive Fault where
  | notFound
  | exists
  | notDirectory
  | isDirectory
  | nameTooLong
  | notText
  deriving Repr, DecidableEq

def Fault.message : Fault → String
  | .notFound => "No such file or directory (os error 2)"
  | .exists => "File exists (os error 17)"
  | .notDirectory => "Not a directory (os error 20)"
  | .isDirectory => "Is a directory (os error 21)"
  | .nameTooLong => "File name too long (os error 36)"
  | .notText => "stream did not contain valid UTF-8"

variable (d : Disk)

------------------------------------------------------------
-- Locating
------------------------------------------------------------

def hasDirectory (l : Route) : Bool :=
  l.isEmpty || d.directories.contains l

def hasFile (l : Route) : Bool :=
  d.files.any fun f => f.1 == l

/- One step from a location, which must be a directory. -/
def walk (l : Route) (c : Path.Component) : Except Fault Route :=
  if d.hasDirectory l then
    match c with
    | .root => .ok []
    | .current => .ok l
    | .parent => .ok l.dropLast
    | .normal name => .ok (l ++ [name])
  else if d.hasFile l then .error .notDirectory
  else .error .notFound

/- A path that ends like this can only name a directory. -/
def endsAsDirectory (path : Path) : Bool :=
  Text.hasEnd "/" path.text || Text.hasEnd "/." path.text

/- How many bytes of a path the system takes. -/
def longest : Nat :=
  4095

/- Where a path leads; nothing needs to be at its end. -/
def locate (path : Path) : Except Fault Route := do
  if path.text.isEmpty then throw .notFound
  if longest < Text.byteLength path.text.toList then throw .nameTooLong
  let l ← path.components.foldlM d.walk d.working
  if endsAsDirectory path && d.hasFile l then throw .notDirectory
  return l

def isFile (path : Path) : Bool :=
  match d.locate path with
  | .ok l => d.hasFile l
  | .error _ => false

def isDirectory (path : Path) : Bool :=
  match d.locate path with
  | .ok l => d.hasDirectory l
  | .error _ => false

/- Where a path leads if all of it is there. -/
def follow (path : Path) : Route :=
  path.components.foldl
    (fun l c =>
      match c with
      | .root => []
      | .current => l
      | .parent => l.dropLast
      | .normal name => l ++ [name])
    d.working

------------------------------------------------------------
-- Reading
------------------------------------------------------------

def readText (path : Path) : Except Fault String := do
  let l ← d.locate path
  match d.files.find? fun f => f.1 == l with
  | some (_, some text) => return text
  | some (_, none) => throw .notText
  | none =>
    if d.hasDirectory l then throw .isDirectory else throw .notFound

/- The names directly below a directory. -/
def names (l : Route) : List String :=
  let below := (d.directories ++ d.files.map Prod.fst).filter fun x =>
    !x.isEmpty && x.dropLast == l
  (below.filterMap List.getLast?).mergeSort fun a b =>
    Text.order a b != .gt

def list (path : Path) : Except Fault (List FileEntry) := do
  let l ← d.locate path
  if d.hasDirectory l then
    return (d.names l).map fun name =>
      ⟨name, path.child name, d.hasFile (l ++ [name])⟩
  else if d.hasFile l then throw .notDirectory
  else throw .notFound

/- Add what was attempted to the fault that ended it. -/
def explain
    {α : Type}
    (attempt : String)
    (path : Path)
    (result : Except Fault α) : Except FileError α :=
  result.mapError fun fault =>
    ⟨"Failed to " ++ attempt ++ " " ++ Text.quoted path.text,
      some fault.message⟩

/- There are finitely many characters. -/
theorem chars_isFinite :
    ∃ chars : List Char, ∀ c : Char, c ∈ chars := by
  refine ⟨(List.range 0x110000).map Char.ofNat, fun c => ?_⟩
  refine List.mem_map.mpr ⟨c.toNat, List.mem_range.mpr ?_, ?_⟩
  · rcases c.valid with h | ⟨_, h⟩ <;> simp only [Char.toNat] <;> omega
  · exact Char.ofNat_toNat c

theorem texts_isFinite
    (n : Nat) :
    ∃ texts : List (List Char),
      ∀ text : List Char, text.length ≤ n → text ∈ texts := by
  rcases chars_isFinite with ⟨chars, hChars⟩
  induction n with
  | zero =>
      refine ⟨[[]], fun text h => ?_⟩
      rw [List.eq_nil_of_length_eq_zero (Nat.le_zero.mp h)]
      exact List.mem_singleton_self []
  | succ n ih =>
      rcases ih with ⟨texts, hTexts⟩
      refine ⟨[] :: chars.flatMap fun c => texts.map (List.cons c),
        fun text h => ?_⟩
      cases text with
      | nil => exact List.mem_cons_self
      | cons c r =>
          refine List.mem_cons_of_mem _ (List.mem_flatMap.mpr
            ⟨c, hChars c, List.mem_map.mpr ⟨r, hTexts r ?_, rfl⟩⟩)
          exact Nat.le_of_succ_le_succ h

/- A path can go up any number of steps, but not forever. -/
theorem readText_isFinite :
    ∃ places : List (List Path.Component),
      ∀ path text, d.readText path = .ok text → path.components ∈ places := by
  rcases texts_isFinite longest with ⟨texts, hTexts⟩
  refine ⟨texts.map fun text => (Path.mk (.ofList text)).components,
    fun path text h => ?_⟩
  have hShort : Text.byteLength path.text.toList ≤ longest := by
    by_cases hLong : longest < Text.byteLength path.text.toList
    · by_cases hEmpty : path.text.isEmpty <;>
        simp [readText, locate, hEmpty, hLong, bind, Except.bind, throw,
          throwThe, MonadExceptOf.throw] at h
    · exact Nat.le_of_not_lt hLong
  refine List.mem_map.mpr ⟨path.text.toList, hTexts _ ?_, ?_⟩
  · exact Nat.le_trans (Text.length_le_byteLength _) hShort
  · rw [String.ofList_toList]

def view : FileView where
  isFile := d.isFile
  isDirectory := d.isDirectory
  read := fun path => explain "read file" path (d.readText path)
  entries := fun path => explain "read directory" path (d.list path)
  isFinite := by
    rcases d.readText_isFinite with ⟨places, hPlaces⟩
    refine ⟨places, fun path text h => hPlaces path text ?_⟩
    rw [explain] at h
    cases hRead : d.readText path with
    | error fault =>
      rw [hRead] at h
      cases h
    | ok found =>
      rw [hRead] at h
      cases h
      rfl

------------------------------------------------------------
-- Writing
------------------------------------------------------------

def setFile (l : Route) (text : String) : Disk :=
  { d with
    files := (d.files.filter fun f => f.1 != l) ++ [(l, some text)] }

/- Write a file into a directory that is there. -/
def write (path : Path) (text : String) : Except Fault Disk := do
  let l ← d.locate path
  if d.hasDirectory l || endsAsDirectory path then throw .isDirectory
  else if d.hasDirectory l.dropLast then return d.setFile l text
  else if d.hasFile l.dropLast then throw .notDirectory
  else throw .notFound

/- Make one directory, which may be there already. -/
def makeDirectory (path : Path) : Except Fault Disk := do
  let l ← d.locate path
  if d.hasDirectory l then return d
  else if d.hasFile l then throw .exists
  else return { d with directories := d.directories ++ [l] }

/-
  Make a directory and those above it that are missing.  The
  paths that lead to a directory are given from the longest
  to the shortest.
-/
def makeDirectories (d : Disk) : List Path → Except Fault Disk
  | [] => .ok d
  | path :: above =>
    if path.text.isEmpty then .ok d
    else
      match d.makeDirectory path with
      | .ok d => .ok d
      | .error .notFound => do
        let d ← makeDirectories d above
        d.makeDirectory path
      | .error fault => .error fault

/- A path and the paths above it; the number bounds how many. -/
def withParents : Nat → Path → List Path
  | 0, _ => []
  | n + 1, path =>
    match path.parent? with
    | none => [path]
    | some parent => path :: withParents n parent

/- Write a file and make the directories that it lies in. -/
def writeBelow (path : Path) (text : String) : Except FileError Disk := do
  let ready ←
    match path.parent? with
    | none => pure d
    | some parent =>
      explain "create directory" parent <|
        d.makeDirectories (withParents (parent.text.length + 1) parent)
  explain "write file" path (ready.write path text)

/- The new text of each file that is not as it was before. -/
def changesFrom (before : Disk) : List (Route × String) :=
  d.files.filterMap fun f =>
    if before.files.contains f then none else f.2.map fun text => (f.1, text)

------------------------------------------------------------
-- Building
------------------------------------------------------------

/- Add a directory and those above it. -/
def addDirectory (l : Route) : Disk :=
  let above := (List.range l.length).map fun n => l.take (n + 1)
  { d with
    directories := d.directories ++ above.filter fun x => !d.hasDirectory x }

/- Add a file to a directory that is there. -/
def addFile (l : Route) (text : Option String) : Disk :=
  { d with files := (l, text) :: d.files }

/- A disk that holds nothing but its working directory. -/
def empty (working : Route) : Disk :=
  addDirectory ⟨working, [], []⟩ working

/-
  A disk with files below its working directory and with the
  directories that they imply.
-/
def ofList (working : Route) (files : List (Path × String)) : Disk :=
  files.foldl
    (fun d (path, text) =>
      match d.writeBelow path text with
      | .ok d => d
      | .error _ => d)
    (empty working)

end Disk

end Retarget
