import Mathlib.Data.List.Infix
import Retarget.Proofs.Symbol.Consistency

/-
  This file describes how a table of symbols grows.  Every
  entry stands in a container that is known too, and what a
  namespace or a type adds is the names that its own name
  starts with.

  Key definitions include:
    * `SymbolTable.IsSound`
    * `SymbolTable.Extends`
    * `SymbolTable.typeParts`

  Key statements include:
    * `SymbolTable.ofReferenceList_isSound`
    * `SymbolTable.addNamespace_entered`
    * `SymbolTable.addType_entered`
    * `SymbolTable.addMember_entered`
-/

namespace Retarget

------------------------------------------------------------
-- Names with dots
------------------------------------------------------------

/- A dotted name that a list of segments starts with. -/
def IsStart (parts : List String) (name : String) : Prop :=
  ∃ front, front ≠ [] ∧ front <+: parts ∧ name = Text.join "." front

namespace Symbol

variable {s t : Symbol}

/- The full name tells the names that a symbol's path consists of. -/
def IsNamed (s : Symbol) : Prop :=
  ∀ n ∈ s.path, '.' ∉ n.toList

theorem splitAt_fullName
    (hNamed : s.IsNamed)
    (hSome : s ≠ .global) :
    Text.splitAt '.' s.fullName = s.path.reverse := by
  refine Text.splitAt_join ?_ ?_
  · intro n hn
    exact hNamed n (List.mem_reverse.mp hn)
  · cases s with
    | global => exact absurd rfl hSome
    | declared name kind container => simp [path]

theorem childName_eq_join
    (owner : Symbol)
    (name : String) :
    SymbolTable.childName owner name =
      Text.join "." (owner.path.reverse ++ [name]) := by
  rw [← fullName_declared name .type owner, fullName, path,
    List.reverse_cons]

theorem path_eq_of_fullName_eq
    (hs : s.IsNamed)
    (ht : t.IsNamed)
    (hsSome : s ≠ .global)
    (htSome : t ≠ .global)
    (h : s.fullName = t.fullName) :
    s.path = t.path := by
  have hParts := splitAt_fullName hs hsSome
  rw [h, splitAt_fullName ht htSome] at hParts
  exact (List.reverse_inj.mp hParts).symm

end Symbol

namespace SymbolTable

variable {table base : SymbolTable}
variable {s owner : Symbol}
variable {name fullName : String}
variable {kind : SymbolKind}

------------------------------------------------------------
-- Sound tables
------------------------------------------------------------

/- A consistent table whose symbols have names without dots. -/
structure IsSound (table : SymbolTable) : Prop extends table.IsConsistent where
  isDotFree : ∀ e ∈ table.entries, '.' ∉ e.2.name.toList

theorem IsSound.empty_isSound :
    SymbolTable.empty.IsSound :=
  ⟨IsConsistent.empty_isConsistent, by simp [SymbolTable.empty]⟩

theorem IsSound.isNamed
    (hSound : table.IsSound)
    (h : table.Knows s) :
    s.IsNamed := by
  induction s with
  | global => intro n hn; cases hn
  | declared name kind container ih =>
      have hOuter := hSound.knows_containers h container List.mem_cons_self
      rcases h with hGlobal | hEntry
      · cases hGlobal
      · exact List.forall_mem_cons.mpr ⟨hSound.isDotFree _ hEntry, ih hOuter⟩

/- A symbol that is found has the segments of its name on its path. -/
theorem IsSound.path_of_find?
    (hSound : table.IsSound)
    (h : table.find? fullName = some s) :
    s.path.reverse = Text.splitAt '.' fullName := by
  have hMem := mem_entries_of_find? h
  rw [← Symbol.splitAt_fullName (hSound.isNamed (hSound.knows_of_mem hMem))
    (hSound.ne_global hMem), hSound.fullName_eq hMem]

/- What a known symbol's name starts with is known. -/
theorem IsConsistent.mem_names_of_isStart
    (hTable : table.IsConsistent)
    (h : table.Knows s)
    (hStart : IsStart s.path.reverse fullName) :
    fullName ∈ table.names := by
  induction s with
  | global =>
      rcases hStart with ⟨front, hSome, hFront, -⟩
      exact absurd (List.prefix_nil.mp hFront) hSome
  | declared name kind container ih =>
      have hOuter := hTable.knows_containers h container List.mem_cons_self
      rcases h with hGlobal | hEntry
      · cases hGlobal
      · rcases hStart with ⟨front, hSome, hFront, rfl⟩
        rw [Symbol.path, List.reverse_cons,
          List.prefix_concat_iff] at hFront
        rcases hFront with rfl | hInner
        · have hMem : (Symbol.declared name kind container).fullName ∈
              table.names := List.mem_map_of_mem hEntry
          rwa [Symbol.fullName, Symbol.path, List.reverse_cons] at hMem
        · exact ih hOuter ⟨front, hSome, hInner, rfl⟩

------------------------------------------------------------
-- What is entered
------------------------------------------------------------

/-
  A symbol is entered under the segments of its name: they
  and what they start with are the only new names.
-/
structure Entered
    (table : SymbolTable)
    (parts : List String)
    (r : SymbolTable × Symbol) : Prop where
  isSound : r.1.IsSound
  knows : r.1.Knows r.2
  path_eq : r.2.path.reverse = parts
  mem_names :
    ∀ n, n ∈ r.1.names ↔ n ∈ table.names ∨ IsStart parts n

namespace Entered

variable {parts more : List String}
variable {r last : SymbolTable × Symbol}

theorem fullName_eq
    (h : table.Entered parts r) :
    r.2.fullName = Text.join "." parts := by
  rw [Symbol.fullName, h.path_eq]

/- A symbol that is there already. -/
theorem of_knows
    (hSound : table.IsSound)
    (h : table.Knows s) :
    table.Entered s.path.reverse (table, s) where
  isSound := hSound
  knows := h
  path_eq := rfl
  mem_names _ :=
    ⟨Or.inl, fun hMem => hMem.elim id (hSound.mem_names_of_isStart h)⟩

theorem trans
    (hFirst : table.Entered parts r)
    (hLast : r.1.Entered (parts ++ more) last) :
    table.Entered (parts ++ more) last where
  isSound := hLast.isSound
  knows := hLast.knows
  path_eq := hLast.path_eq
  mem_names n := by
    rw [hLast.mem_names, hFirst.mem_names, or_assoc]
    refine or_congr_right ⟨?_, Or.inr⟩
    rintro (⟨front, hSome, hFront, rfl⟩ | hStart)
    · exact ⟨front, hSome, hFront.trans (List.prefix_append parts more), rfl⟩
    · exact hStart

end Entered

theorem child_entered
    (hSound : table.IsSound)
    (hOwner : table.Knows owner)
    (hDot : '.' ∉ name.toList)
    (kind : SymbolKind) :
    table.Entered (owner.path.reverse ++ [name])
      (table.child owner name kind) := by
  let new := Symbol.declared name kind owner
  have hNew : new.fullName = childName owner name :=
    Symbol.fullName_declared name kind owner
  have hNamed : new.IsNamed :=
    List.forall_mem_cons.mpr ⟨hDot, hSound.isNamed hOwner⟩
  have hKept := child_kept hSound.toIsConsistent hOwner name kind
  rcases child_cases table owner name kind with
    ⟨known, hFind, hChild⟩ | ⟨-, hChild⟩
  · have hMem := mem_entries_of_find? hFind
    have hKnown := hSound.knows_of_mem hMem
    have hPath : known.path = name :: owner.path :=
      Symbol.path_eq_of_fullName_eq (hSound.isNamed hKnown) hNamed
        (hSound.ne_global hMem) Symbol.noConfusion
        ((hSound.fullName_eq hMem).trans hNew.symm)
    have hEntered := Entered.of_knows hSound hKnown
    rwa [hPath, List.reverse_cons, ← hChild] at hEntered
  · refine ⟨⟨hKept.isConsistent, fun e he => ?_⟩, hKept.knows, ?_, fun n => ?_⟩
    · rw [hChild] at he
      rcases List.mem_append.mp he with hOld | hLast
      · exact hSound.isDotFree e hOld
      · obtain rfl := List.mem_singleton.mp hLast
        exact hDot
    · rw [hChild, Symbol.path, List.reverse_cons]
    · have hJoin := Symbol.childName_eq_join owner name
      rw [hChild, names_enter, List.mem_append, List.mem_singleton]
      constructor
      · rintro (hOld | rfl)
        · exact Or.inl hOld
        · exact Or.inr ⟨_, by simp, List.prefix_rfl, hJoin⟩
      · rintro (hOld | ⟨front, hSome, hFront, rfl⟩)
        · exact Or.inl hOld
        · rw [List.prefix_concat_iff] at hFront
          rcases hFront with rfl | hInner
          · exact Or.inr hJoin.symm
          · exact Or.inl (hSound.mem_names_of_isStart hOwner
              ⟨front, hSome, hInner, rfl⟩)

theorem addParts_entered
    {parts : List String}
    (hSound : table.IsSound)
    (hOwner : table.Knows owner)
    (hParts : ∀ p ∈ parts, '.' ∉ p.toList) :
    table.Entered (owner.path.reverse ++ parts)
      (table.addParts owner parts) := by
  induction parts generalizing table owner with
  | nil =>
      rw [List.append_nil]
      exact Entered.of_knows hSound hOwner
  | cons part rest ih =>
      rcases List.forall_mem_cons.mp hParts with ⟨hPart, hRest⟩
      have hFirst := child_entered hSound hOwner hPart .nameSpace
      have hLast := ih hFirst.isSound hFirst.knows hRest
      rw [hFirst.path_eq] at hLast
      have hBoth := hFirst.trans hLast
      rwa [List.append_assoc, List.singleton_append] at hBoth

theorem addNamespace_entered
    (hSound : table.IsSound)
    (fullName : String) :
    table.Entered (nameParts fullName) (table.addNamespace fullName) :=
  addParts_entered hSound (Or.inl rfl) fun _ hp =>
    (isSegment_of_mem_nameParts hp).2

/-
  The segments that a type is entered under.  In a container
  that is known as written, the empty ones count.
-/
def typeParts (table : SymbolTable) (fullName : String) : List String :=
  match Text.splitLast '.' fullName with
  | none => [fullName]
  | some (container, name) =>
    if container ∈ table.names then Text.splitAt '.' container ++ [name]
    else nameParts container ++ [name]

theorem addType_entered
    (hSound : table.IsSound)
    (fullName : String) :
    table.Entered (table.typeParts fullName) (table.addType fullName) := by
  rw [typeParts, addType]
  cases hSplit : Text.splitLast '.' fullName with
  | none =>
      exact child_entered hSound (Or.inl rfl)
        (Text.splitLast_eq_none_iff.mp hSplit) .type
  | some pieces =>
      obtain ⟨container, name⟩ := pieces
      have hDot := (Text.splitLast_eq_some_iff.mp hSplit).2
      dsimp only
      cases hFind : table.find? container with
      | some owner =>
          rw [if_pos (mem_names_of_find? hFind), ← hSound.path_of_find? hFind]
          exact child_entered hSound (hSound.knows_of_find? hFind) hDot .type
      | none =>
          have hFirst := addNamespace_entered hSound container
          have hLast := child_entered hFirst.isSound hFirst.knows hDot .type
          rw [hFirst.path_eq] at hLast
          rw [if_neg (find?_eq_none_iff.mp hFind)]
          exact hFirst.trans hLast

/- A known name is entered as it is written. -/
theorem typeParts_of_find?
    (hSound : table.IsSound)
    (h : table.find? fullName = some s) :
    table.typeParts fullName = Text.splitAt '.' fullName := by
  rw [typeParts]
  cases hSplit : Text.splitLast '.' fullName with
  | none =>
      exact (Text.splitAt_of_dot_not_mem
        (Text.splitLast_eq_none_iff.mp hSplit)).symm
  | some pieces =>
      obtain ⟨container, name⟩ := pieces
      have hParts := Text.splitAt_of_splitLast hSplit
      have hContainer : container ∈ table.names := by
        refine hSound.mem_names_of_isStart (hSound.knows_of_find? h)
          ⟨Text.splitAt '.' container, Text.splitAt_ne_nil '.' container, ?_,
            (Text.join_splitAt container).symm⟩
        rw [hSound.path_of_find? h, hParts]
        exact List.prefix_append _ _
      dsimp only
      rw [if_pos hContainer, hParts]

theorem addMember_entered
    (hSound : table.IsSound)
    (hDot : '.' ∉ name.toList)
    (ownerName : String)
    (kind : SymbolKind) :
    table.Entered (table.typeParts ownerName ++ [name])
      (table.addMember ownerName name kind) := by
  rw [addMember]
  split
  · next owner hOwner =>
      have hFind := (Option.filter_eq_some_iff.mp hOwner).1
      rw [typeParts_of_find? hSound hFind, ← hSound.path_of_find? hFind]
      exact child_entered hSound (hSound.knows_of_find? hFind) hDot kind
  · have hType := addType_entered hSound ownerName
    have hLast := child_entered hType.isSound hType.knows hDot kind
    rw [hType.path_eq] at hLast
    exact hType.trans hLast

------------------------------------------------------------
-- References
------------------------------------------------------------

theorem addSymbol_isSound
    (hSound : table.IsSound)
    (hNamed : s.IsNamed) :
    (table.addSymbol s).IsSound := by
  rw [addSymbol]
  split
  · exact (addNamespace_entered hSound s.fullName).isSound
  · exact (addType_entered hSound s.fullName).isSound
  · cases s with
    | global => exact hSound
    | declared name kind container =>
        exact (addMember_entered hSound (hNamed name List.mem_cons_self)
          container.fullName kind).isSound

/- Only the names of what is merged count, not the order it comes in. -/
theorem merge_isSound_of_isNamed
    {other : SymbolTable}
    (hSound : table.IsSound)
    (hNamed : ∀ s ∈ other.symbols, s.IsNamed) :
    (table.merge other).IsSound := by
  rw [merge]
  exact List.foldlRecOn (motive := IsSound) _ _ hSound fun t ht s hs =>
    addSymbol_isSound ht (hNamed s (List.mem_mergeSort.mp hs))

theorem IsSound.isNamed_of_mem_symbols
    (hSound : table.IsSound)
    (hs : s ∈ table.symbols) :
    s.IsNamed :=
  hSound.isNamed (Or.inr (hSound.mem_symbols_iff.mp hs))

theorem merge_isSound
    {other : SymbolTable}
    (hSound : table.IsSound)
    (hOther : other.IsSound) :
    (table.merge other).IsSound :=
  merge_isSound_of_isNamed hSound fun _ => hOther.isNamed_of_mem_symbols

theorem addReference_isSound
    (hSound : table.IsSound)
    (line : String) :
    (table.addReference line).IsSound := by
  rw [addReference]
  generalize readReference line = reference
  obtain ⟨kind, name⟩ := reference
  dsimp only
  split
  · exact (addNamespace_entered hSound name).isSound
  · exact (addType_entered hSound name).isSound
  · split
    · next owner member hSplit =>
        exact (addMember_entered hSound
          (Text.splitLast_eq_some_iff.mp hSplit).2 owner kind).isSound
    · exact hSound

theorem ofReferenceList_isSound
    (text : String) :
    (ofReferenceList text).IsSound :=
  List.foldlRecOn _ _ IsSound.empty_isSound fun _ ht line _ =>
    addReference_isSound ht line

------------------------------------------------------------
-- Longer tables
------------------------------------------------------------

/- What a table has beyond another are namespaces and types. -/
def Extends (table base : SymbolTable) : Prop :=
  ∃ more, table.entries = base.entries ++ more ∧
    ∀ e ∈ more, e.2.isMember = false

namespace Extends

variable {next : SymbolTable}

theorem refl
    (table : SymbolTable) :
    table.Extends table :=
  ⟨[], by simp⟩

theorem trans
    (hNext : next.Extends table)
    (h : table.Extends base) :
    next.Extends base := by
  rcases hNext with ⟨last, hLast, hLastKinds⟩
  rcases h with ⟨first, hFirst, hFirstKinds⟩
  refine ⟨first ++ last, by rw [hLast, hFirst, List.append_assoc], ?_⟩
  exact List.forall_mem_append.mpr ⟨hFirstKinds, hLastKinds⟩

theorem names_subset
    (h : table.Extends base) :
    base.names ⊆ table.names := by
  rcases h with ⟨more, hEntries, -⟩
  rw [names, names, hEntries, List.map_append]
  exact List.subset_append_left _ _

end Extends

theorem child_extends
    (table : SymbolTable)
    (owner : Symbol)
    (name : String)
    (hKind : kind.isMember = false) :
    (table.child owner name kind).1.Extends table := by
  rw [child]
  split
  · exact Extends.refl table
  · refine ⟨_, rfl, ?_⟩
    simpa [Symbol.isMember, Symbol.kind] using hKind

theorem addParts_extends
    (table : SymbolTable)
    (owner : Symbol)
    (parts : List String) :
    (table.addParts owner parts).1.Extends table := by
  induction parts generalizing table owner with
  | nil => exact Extends.refl table
  | cons part rest ih => exact (ih _ _).trans (child_extends table owner part rfl)

theorem addNamespace_extends
    (table : SymbolTable)
    (fullName : String) :
    (table.addNamespace fullName).1.Extends table :=
  addParts_extends table .global _

theorem addType_extends
    (table : SymbolTable)
    (fullName : String) :
    (table.addType fullName).1.Extends table := by
  rw [addType]
  split
  · exact child_extends table .global fullName rfl
  · next container name _ =>
      split
      · exact child_extends table _ name rfl
      · exact (child_extends _ _ name rfl).trans
          (addNamespace_extends table container)

end SymbolTable

end Retarget
