import Retarget.Rule.Builtin
import Retarget.Proofs.Dictionary
import Retarget.Proofs.Rule.NameSuffix
import Retarget.Proofs.Text.Search

/-
  This file shows that every renaming has a name to rename
  to or none at all: in the tables that always apply and
  among the words of a line, no name is empty or runs over
  the end of a line.

  Key definitions include:
    * `TypeMapping.IsProper`

  Key statements include:
    * `TypeMapping.parseTable_isProper`
    * `TypeMap.load_isProper`
-/

namespace Retarget

------------------------------------------------------------
-- Tables
------------------------------------------------------------

namespace TypeMapping

/- The new name is a word: it is not empty and on one line. -/
def IsProper (m : TypeMapping) : Prop :=
  ∀ name ∈ m.newName, name ≠ "" ∧ '\n' ∉ name.toList

/- The words of a line are not empty, and blanks are none of them. -/
theorem isWord_of_mem_columns
    {line word : String}
    (h : word ∈ columns line) :
    word ≠ "" ∧ '\n' ∉ word.toList := by
  rcases List.mem_filter.mp h with ⟨hPiece, hSome⟩
  refine ⟨by simpa using hSome, fun hNewline => ?_⟩
  have hBlank := Text.forall_mem_splitWhere hPiece '\n' hNewline
  exact absurd hBlank (by decide)

theorem parseLine_isProper
    {number : Nat}
    {line : String}
    {m : TypeMapping}
    (h : parseLine number line = .ok (some m)) :
    m.IsProper := by
  unfold parseLine at h
  dsimp only at h
  split at h
  · cases h
  · split at h
    · cases h
      simp [IsProper]
    · rename_i old new hColumns
      cases h
      have hWord : new ∈ columns (Text.trim line) := by simp [hColumns]
      simpa [IsProper] using isWord_of_mem_columns hWord
    · cases h

theorem parseLines_isProper
    {number : Nat}
    {lines : List String}
    {ms : List TypeMapping}
    (h : parseLines number lines = .ok ms) :
    ∀ m ∈ ms, m.IsProper := by
  induction lines generalizing number ms with
  | nil =>
      cases h
      simp
  | cons line rest ih =>
      simp only [parseLines, bind, Except.bind] at h
      split at h
      · cases h
      · rename_i mapping hLine
        split at h
        · cases h
        · rename_i others hRest
          cases h
          intro m hm
          rcases List.mem_append.mp hm with hFirst | hLater
          · obtain rfl := Option.mem_toList.mp hFirst
            exact parseLine_isProper hLine
          · exact ih hRest m hLater

theorem parseTable_isProper
    {path : Path}
    {text : String}
    {ms : List TypeMapping}
    (h : parseTable path text = .ok ms) :
    ∀ m ∈ ms, m.IsProper := by
  unfold parseTable at h
  split at h
  · rename_i mappings hLines
    cases h
    exact parseLines_isProper hLines
  · cases h

end TypeMapping

------------------------------------------------------------
-- Maps
------------------------------------------------------------

namespace TypeMap

variable {map : TypeMap}
variable {ms : List TypeMapping}

/- The last renaming of a name counts. -/
theorem find?_extend
    (map : TypeMap)
    (ms : List TypeMapping)
    (name : String) :
    (extend map ms).find? name =
      (ms.reverse.find? fun m => m.oldName == name).or (map.find? name) := by
  simpa [extend] using
    Dictionary.find?_foldl_insert TypeMapping.oldName id ms map name

theorem mem_of_find?
    {name : String}
    {m : TypeMapping}
    (h : map.find? name = some m) :
    m ∈ mappings map :=
  Dictionary.mem_values_of_find? h

/- A renaming of an extended map was there or has been added. -/
theorem mem_extend
    {m : TypeMapping}
    (h : m ∈ mappings (extend map ms)) :
    m ∈ mappings map ∨ m ∈ ms := by
  simpa [mappings, extend] using
    Dictionary.mem_values_foldl_insert TypeMapping.oldName id ms h

theorem mem_extend_singleton
    (map : TypeMap)
    (m : TypeMapping) :
    m ∈ mappings (extend map [m]) :=
  mem_of_find? (Dictionary.find?_insert_self map m.oldName m)

theorem mem_builtin
    {m : TypeMapping}
    (h : m ∈ mappings builtin) :
    m ∈ web ∨ m ∈ windows := by
  rcases mem_extend h with hWeb | hWindows
  · rcases mem_extend hWeb with hEmpty | hWeb
    · exact absurd hEmpty List.not_mem_nil
    · exact Or.inl hWeb
  · exact Or.inr hWindows

/- One table of renamings goes on top of the built-in ones. -/
theorem load_singleton
    {file : AdditionalText}
    (hExtension : hasExtension file.path fileExtension = true)
    (hTable : TypeMapping.parseTable file.path file.text = .ok ms) :
    load [file] = extend builtin ms := by
  simp [load, hExtension, hTable, Except.toOption]

theorem extend_isProper
    (hMap : ∀ m ∈ mappings map, m.IsProper)
    (hMore : ∀ m ∈ ms, m.IsProper) :
    ∀ m ∈ mappings (extend map ms), m.IsProper :=
  fun m hm => (mem_extend hm).elim (hMap m) (hMore m)

theorem tables_isProper :
    (∀ m ∈ web, m.IsProper) ∧ ∀ m ∈ windows, m.IsProper := by
  have hBytes : ∀ m ∈ web ++ windows, ∀ name ∈ m.newName,
      name ≠ "" ∧ name.toByteArray.data.toList.all (· != 10) = true := by
    decide
  have hProper : ∀ m ∈ web ++ windows, m.IsProper := fun m hm name hName =>
    (hBytes m hm name hName).imp_right Text.newline_not_mem_of_bytes
  exact List.forall_mem_append.mp hProper

theorem builtin_isProper :
    ∀ m ∈ mappings builtin, m.IsProper :=
  fun m hm => (mem_builtin hm).elim (tables_isProper.1 m) (tables_isProper.2 m)

theorem load_isProper
    (files : List AdditionalText) :
    ∀ m ∈ mappings (load files), m.IsProper := by
  refine List.foldlRecOn (motive := fun map => ∀ m ∈ mappings map, m.IsProper)
    files _ builtin_isProper fun map hMap f _ => ?_
  split
  · refine extend_isProper hMap ?_
    cases hTable : TypeMapping.parseTable f.path f.text with
    | ok ms => exact TypeMapping.parseTable_isProper hTable
    | error e => simp [Except.toOption]
  · exact hMap

end TypeMap

end Retarget
