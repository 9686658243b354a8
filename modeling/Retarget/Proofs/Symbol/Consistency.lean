import Mathlib.Data.List.Nodup
import Retarget.Proofs.Dictionary
import Retarget.Proofs.Symbol.Name

/-
  This file shows that a table of symbols stays consistent,
  whatever texts are added to it.  Each symbol is entered
  once, under its full name and in a container that is
  entered too, and the index that ignores letter case lists
  exactly the names that are entered.

  Key definitions include:
    * `Symbol.containers`
    * `SymbolTable.Knows`
    * `SymbolTable.IsConsistent`
    * `SymbolTable.Kept`
    * `SymbolTable.Reachable`

  Key statements include:
    * `SymbolTable.IsConsistent.lookup_visualBasic`
    * `SymbolTable.child_kept`
    * `SymbolTable.Reachable.isConsistent`
    * `SymbolTable.Reachable.containers_and_lookup`
-/

namespace Retarget

------------------------------------------------------------
-- Containers
------------------------------------------------------------

namespace Symbol

/- The containers of a symbol, from the innermost outwards. -/
def containers : Symbol → List Symbol
  | .global => []
  | .declared _ _ container => container :: container.containers

theorem isChain_containers
    (s : Symbol) :
    (s :: s.containers).IsChain fun s c => s.container? = some c := by
  induction s with
  | global => exact .singleton _
  | declared name kind container ih => exact List.isChain_cons_cons.mpr ⟨rfl, ih⟩

theorem getLast?_containers
    {s : Symbol}
    (h : s ≠ .global) :
    s.containers.getLast? = some .global := by
  induction s with
  | global => exact absurd rfl h
  | declared name kind container ih =>
      rw [containers]
      cases container with
      | global => rfl
      | declared outer outerKind outermost =>
          rw [← ih Symbol.noConfusion]
          exact List.getLast?_cons_of_ne_nil (List.cons_ne_nil _ _)

end Symbol

namespace SymbolTable

variable {table other : SymbolTable}
variable {s owner : Symbol}
variable {name fullName : String}
variable {kind : SymbolKind}

------------------------------------------------------------
-- What is entered
------------------------------------------------------------

def names (table : SymbolTable) : List String :=
  table.entries.map Prod.fst

theorem find?_eq_none_iff :
    table.find? fullName = none ↔ fullName ∉ table.names := by
  rw [find?, Option.map_eq_none_iff, List.find?_eq_none, names, List.mem_map]
  constructor
  · rintro h ⟨e, he, rfl⟩
    exact h e he (beq_self_eq_true e.1)
  · intro h e he hKey
    exact h ⟨e, he, beq_iff_eq.mp hKey⟩

theorem mem_entries_of_find?
    (h : table.find? fullName = some s) :
    (fullName, s) ∈ table.entries := by
  rcases Option.map_eq_some_iff.mp h with ⟨e, hFirst, rfl⟩
  have hKey := List.find?_some hFirst
  obtain rfl := beq_iff_eq.mp hKey
  exact List.mem_of_find?_eq_some hFirst

theorem mem_names_of_find?
    (h : table.find? fullName = some s) :
    fullName ∈ table.names :=
  List.mem_map_of_mem (mem_entries_of_find? h)

@[simp] theorem entries_enter
    (table : SymbolTable)
    (fullName : String)
    (s : Symbol) :
    (table.enter fullName s).entries = table.entries ++ [(fullName, s)] := rfl

@[simp] theorem names_enter
    (table : SymbolTable)
    (fullName : String)
    (s : Symbol) :
    (table.enter fullName s).names = table.names ++ [fullName] := by
  simp [names]

theorem foldedNames_enter
    (table : SymbolTable)
    (fullName : String)
    (s : Symbol)
    (key : String) :
    (table.enter fullName s).foldedNames key =
      table.foldedNames key ++ [fullName].filter fun n => Text.lower n == key := by
  rw [foldedNames, enter]
  dsimp only
  rw [Dictionary.find?_insert]
  by_cases hKey : Text.lower fullName = key
  · simp [hKey]
  · simp [hKey, foldedNames]

/- What a table gives for a name in a container, known or new. -/
theorem child_cases
    (table : SymbolTable)
    (owner : Symbol)
    (name : String)
    (kind : SymbolKind) :
    (∃ known, table.find? (childName owner name) = some known ∧
      table.child owner name kind = (table, known)) ∨
    (childName owner name ∉ table.names ∧
      let new := Symbol.declared name kind owner
      table.child owner name kind =
        (table.enter (childName owner name) new, new)) := by
  rw [← find?_eq_none_iff, child]
  cases table.find? (childName owner name) with
  | some known => exact Or.inl ⟨known, rfl, rfl⟩
  | none => exact Or.inr ⟨rfl, rfl⟩

------------------------------------------------------------
-- Consistent tables
------------------------------------------------------------

/- A symbol that a table can give as the container of others. -/
def Knows (table : SymbolTable) (s : Symbol) : Prop :=
  s = .global ∨ (s.fullName, s) ∈ table.entries

theorem Knows.of_subset
    (h : table.Knows s)
    (hEntries : table.entries ⊆ other.entries) :
    other.Knows s :=
  h.imp id (@hEntries _)

/-
  No name is entered twice, the index lists the names by their
  lower-case forms, and each entry is in a known container.
-/
structure IsConsistent (table : SymbolTable) : Prop where
  nodup : table.names.Nodup
  isFolded :
    ∀ key, table.foldedNames key =
      table.names.filter fun n => Text.lower n == key
  isChild :
    ∀ e ∈ table.entries, ∃ name kind container,
      e = (childName container name, .declared name kind container) ∧
        table.Knows container

namespace IsConsistent

theorem empty_isConsistent :
    SymbolTable.empty.IsConsistent :=
  ⟨List.nodup_nil, fun _ => rfl, by simp [SymbolTable.empty]⟩

theorem fullName_eq
    (hTable : table.IsConsistent)
    (h : (fullName, s) ∈ table.entries) :
    s.fullName = fullName := by
  rcases hTable.isChild _ h with ⟨name, kind, container, hEntry, -⟩
  cases hEntry
  exact Symbol.fullName_declared name kind container

theorem knows_of_mem
    (hTable : table.IsConsistent)
    (h : (fullName, s) ∈ table.entries) :
    table.Knows s := by
  have hName := hTable.fullName_eq h
  subst hName
  exact Or.inr h

theorem knows_of_find?
    (hTable : table.IsConsistent)
    (h : table.find? fullName = some s) :
    table.Knows s :=
  hTable.knows_of_mem (mem_entries_of_find? h)

theorem ne_global
    (hTable : table.IsConsistent)
    (h : (fullName, s) ∈ table.entries) :
    s ≠ .global := by
  rcases hTable.isChild _ h with ⟨name, kind, container, hEntry, -⟩
  cases hEntry
  exact Symbol.noConfusion

theorem eq_of_mem
    {t : Symbol}
    (hTable : table.IsConsistent)
    (hs : (fullName, s) ∈ table.entries)
    (ht : (fullName, t) ∈ table.entries) :
    s = t := by
  have hEntry := List.inj_on_of_nodup_map hTable.nodup hs ht rfl
  exact (Prod.mk.inj hEntry).2

theorem find?_eq_some_iff
    (hTable : table.IsConsistent) :
    table.find? fullName = some s ↔ (fullName, s) ∈ table.entries := by
  refine ⟨mem_entries_of_find?, fun h => ?_⟩
  cases hFind : table.find? fullName with
  | none => exact absurd (List.mem_map_of_mem h) (find?_eq_none_iff.mp hFind)
  | some t => rw [hTable.eq_of_mem h (mem_entries_of_find? hFind)]

theorem mem_symbols_iff
    (hTable : table.IsConsistent) :
    s ∈ table.symbols ↔ (s.fullName, s) ∈ table.entries := by
  refine ⟨fun hs => ?_, List.mem_map_of_mem⟩
  rcases List.mem_map.mp hs with ⟨e, he, rfl⟩
  rwa [hTable.fullName_eq he]

/- The containers of a known symbol are known. -/
theorem knows_containers
    (hTable : table.IsConsistent)
    (h : table.Knows s) :
    ∀ c ∈ s.containers, table.Knows c := by
  induction s with
  | global => intro c hc; cases hc
  | declared name kind container ih =>
      rcases h with hGlobal | hEntry
      · cases hGlobal
      · rcases hTable.isChild _ hEntry with ⟨_, _, _, hChild, hOuter⟩
        cases (Prod.mk.inj hChild).2
        exact List.forall_mem_cons.mpr ⟨hOuter, ih hOuter⟩

/- The index finds what a search through all entries would find. -/
theorem lookup_visualBasic
    (hTable : table.IsConsistent)
    (n : String) :
    table.lookup n .visualBasic =
      (table.entries.filter fun e =>
        Text.equalsIgnoringCase e.1 n).map Prod.snd := by
  rw [lookup, hTable.isFolded, names, List.filter_map, List.filterMap_map,
    ← List.filterMap_eq_map]
  refine List.filterMap_congr fun e he => ?_
  exact hTable.find?_eq_some_iff.mpr (List.mem_filter.mp he).1

/- A new symbol in a known container. -/
theorem enter
    (hTable : table.IsConsistent)
    (hOwner : table.Knows owner)
    (hNew : childName owner name ∉ table.names)
    (kind : SymbolKind) :
    (table.enter (childName owner name)
      (.declared name kind owner)).IsConsistent where
  nodup := by
    rw [names_enter]
    exact List.nodup_append_comm.mp (List.nodup_cons.mpr ⟨hNew, hTable.nodup⟩)
  isFolded key := by
    rw [foldedNames_enter, hTable.isFolded, names_enter, List.filter_append]
  isChild := by
    have hSub := List.subset_append_left table.entries
      [(childName owner name, .declared name kind owner)]
    intro e he
    rcases List.mem_append.mp he with hOld | hLast
    · rcases hTable.isChild e hOld with ⟨n, k, c, hChild, hc⟩
      exact ⟨n, k, c, hChild, hc.of_subset hSub⟩
    · exact ⟨name, kind, owner, List.mem_singleton.mp hLast,
        hOwner.of_subset hSub⟩

end IsConsistent

------------------------------------------------------------
-- Additions
------------------------------------------------------------

/-
  What an addition to a table makes of it: the new table is
  consistent, knows the symbol that was asked for and has all
  old entries.
-/
structure Kept (table : SymbolTable) (r : SymbolTable × Symbol) : Prop where
  isConsistent : r.1.IsConsistent
  knows : r.1.Knows r.2
  isPrefix : table.entries <+: r.1.entries

theorem Kept.trans
    {r last : SymbolTable × Symbol}
    (h : table.Kept r)
    (hLast : r.1.Kept last) :
    table.Kept last :=
  ⟨hLast.isConsistent, hLast.knows, h.isPrefix.trans hLast.isPrefix⟩

theorem child_kept
    (hTable : table.IsConsistent)
    (hOwner : table.Knows owner)
    (name : String)
    (kind : SymbolKind) :
    table.Kept (table.child owner name kind) := by
  rcases child_cases table owner name kind with
    ⟨known, hFind, hChild⟩ | ⟨hNew, hChild⟩
  · rw [hChild]
    exact ⟨hTable, hTable.knows_of_find? hFind, List.prefix_rfl⟩
  · rw [hChild]
    refine ⟨hTable.enter hOwner hNew kind, Or.inr ?_, List.prefix_append _ _⟩
    rw [Symbol.fullName_declared]
    exact List.mem_append_right _ (List.mem_singleton_self _)

theorem addParts_kept
    (hTable : table.IsConsistent)
    (hOwner : table.Knows owner)
    (parts : List String) :
    table.Kept (table.addParts owner parts) := by
  induction parts generalizing table owner with
  | nil => exact ⟨hTable, hOwner, List.prefix_rfl⟩
  | cons part rest ih =>
      have hFirst := child_kept hTable hOwner part .nameSpace
      exact hFirst.trans (ih hFirst.isConsistent hFirst.knows)

theorem addNamespace_kept
    (hTable : table.IsConsistent)
    (fullName : String) :
    table.Kept (table.addNamespace fullName) :=
  addParts_kept hTable (Or.inl rfl) (nameParts fullName)

theorem addType_kept
    (hTable : table.IsConsistent)
    (fullName : String) :
    table.Kept (table.addType fullName) := by
  rw [addType]
  split
  · exact child_kept hTable (Or.inl rfl) fullName .type
  · next container name _ =>
      split
      · next hFind =>
          exact child_kept hTable (hTable.knows_of_find? hFind) name .type
      · have hFirst := addNamespace_kept hTable container
        exact hFirst.trans
          (child_kept hFirst.isConsistent hFirst.knows name .type)

theorem addMember_kept
    (hTable : table.IsConsistent)
    (ownerName name : String)
    (kind : SymbolKind) :
    table.Kept (table.addMember ownerName name kind) := by
  rw [addMember]
  split
  · next owner hOwner =>
      have hFind := (Option.filter_eq_some_iff.mp hOwner).1
      exact child_kept hTable (hTable.knows_of_find? hFind) name kind
  · have hFirst := addType_kept hTable ownerName
    exact hFirst.trans
      (child_kept hFirst.isConsistent hFirst.knows name kind)

theorem addSymbol_isConsistent
    (hTable : table.IsConsistent)
    (s : Symbol) :
    (table.addSymbol s).IsConsistent := by
  rw [addSymbol]
  split
  · exact (addNamespace_kept hTable s.fullName).isConsistent
  · exact (addType_kept hTable s.fullName).isConsistent
  · split
    · exact (addMember_kept hTable _ s.name _).isConsistent
    · exact hTable

theorem merge_isConsistent
    (hTable : table.IsConsistent)
    (other : SymbolTable) :
    (table.merge other).IsConsistent :=
  List.foldlRecOn _ _ hTable fun _ ht s _ => addSymbol_isConsistent ht s

theorem addReference_isConsistent
    (hTable : table.IsConsistent)
    (line : String) :
    (table.addReference line).IsConsistent := by
  rw [addReference]
  generalize readReference line = reference
  obtain ⟨kind, name⟩ := reference
  dsimp only
  split
  · exact (addNamespace_kept hTable name).isConsistent
  · exact (addType_kept hTable name).isConsistent
  · split
    · next owner member _ =>
        exact (addMember_kept hTable owner member kind).isConsistent
    · exact hTable

theorem ofReferenceList_isConsistent
    (text : String) :
    (ofReferenceList text).IsConsistent :=
  List.foldlRecOn _ _ IsConsistent.empty_isConsistent fun _ ht line _ =>
    addReference_isConsistent ht line

------------------------------------------------------------
-- Reachable tables
------------------------------------------------------------

/-
  The tables that additions lead to.  A table that is merged
  into another may give its entries in any order.
-/
inductive Reachable : SymbolTable → Prop where
  | empty : Reachable .empty
  | addNamespace {base : SymbolTable}
      (h : Reachable base)
      (fullName : String) :
      Reachable (base.addNamespace fullName).1
  | addType {base : SymbolTable}
      (h : Reachable base)
      (fullName : String) :
      Reachable (base.addType fullName).1
  | addMember {base : SymbolTable}
      (h : Reachable base)
      (ownerName name : String)
      (kind : SymbolKind) :
      Reachable (base.addMember ownerName name kind).1
  | ofReferenceList
      (text : String) :
      Reachable (.ofReferenceList text)
  | merge {base added arranged : SymbolTable}
      (h : Reachable base)
      (hAdded : Reachable added)
      (hOrder : arranged.entries.Perm added.entries) :
      Reachable (base.merge arranged)

theorem Reachable.isConsistent
    (h : table.Reachable) :
    table.IsConsistent := by
  induction h with
  | empty => exact IsConsistent.empty_isConsistent
  | addNamespace _ fullName ih => exact (addNamespace_kept ih fullName).isConsistent
  | addType _ fullName ih => exact (addType_kept ih fullName).isConsistent
  | addMember _ ownerName name kind ih =>
      exact (addMember_kept ih ownerName name kind).isConsistent
  | ofReferenceList text => exact ofReferenceList_isConsistent text
  | merge _ _ _ ih _ => exact merge_isConsistent ih _

/-
  The entries of a reachable table are keyed by full names,
  stand in containers that are entered too, up to the global
  namespace, and are found under their names, in one spelling
  or without regard to letter case.
-/
theorem Reachable.containers_and_lookup
    (h : table.Reachable) :
    table.names.Nodup ∧
    (∀ e ∈ table.entries, e.1 = e.2.fullName) ∧
    (∀ s ∈ table.symbols,
      (s :: s.containers).IsChain (fun s c => s.container? = some c) ∧
      s.containers.getLast? = some .global ∧
      ∀ c ∈ s.containers, c = .global ∨ table.find? c.fullName = some c) ∧
    (∀ n,
      ((table.lookup n .visualBasic).map Symbol.fullName).Nodup ∧
      ∀ s, s ∈ table.lookup n .visualBasic ↔
        s ∈ table.symbols ∧ Text.lower s.fullName = Text.lower n) ∧
    ∀ n,
      (∀ s ∈ table.symbols, s.fullName = n → table.lookup n .cSharp = [s]) ∧
      ((∀ s ∈ table.symbols, s.fullName ≠ n) → table.lookup n .cSharp = []) := by
  have hTable := h.isConsistent
  have hKey : ∀ e ∈ table.entries, e.1 = e.2.fullName := fun e he =>
    (hTable.fullName_eq he).symm
  refine ⟨hTable.nodup, hKey, fun s hs => ?_, fun n => ⟨?_, fun s => ?_⟩,
    fun n => ⟨?_, ?_⟩⟩
  · have hEntry := hTable.mem_symbols_iff.mp hs
    refine ⟨s.isChain_containers,
      Symbol.getLast?_containers (hTable.ne_global hEntry), fun c hc => ?_⟩
    exact (hTable.knows_containers (Or.inr hEntry) c hc).imp id
      hTable.find?_eq_some_iff.mpr
  · have hNames : (table.lookup n .visualBasic).map Symbol.fullName =
        (table.entries.filter fun e =>
          Text.equalsIgnoringCase e.1 n).map Prod.fst := by
      rw [hTable.lookup_visualBasic, List.map_map]
      exact List.map_congr_left fun e he =>
        (hKey e (List.mem_filter.mp he).1).symm
    rw [hNames]
    exact hTable.nodup.sublist (List.filter_sublist.map Prod.fst)
  · rw [hTable.lookup_visualBasic, hTable.mem_symbols_iff, List.mem_map]
    constructor
    · rintro ⟨e, he, rfl⟩
      rcases List.mem_filter.mp he with ⟨hEntry, hSame⟩
      have hName := hKey e hEntry
      exact ⟨hName ▸ hEntry, hName ▸ beq_iff_eq.mp hSame⟩
    · rintro ⟨hEntry, hSame⟩
      exact ⟨_, List.mem_filter.mpr ⟨hEntry, beq_iff_eq.mpr hSame⟩, rfl⟩
  · rintro s hs rfl
    rw [lookup, hTable.find?_eq_some_iff.mpr (hTable.mem_symbols_iff.mp hs)]
    rfl
  · intro hOther
    rw [lookup, find?_eq_none_iff.mpr]
    · rfl
    · intro hName
      rcases List.mem_map.mp hName with ⟨e, he, rfl⟩
      exact hOther e.2 (List.mem_map_of_mem he) (hKey e he).symm

/- Two types that differ in letter case, and a member with a dot. -/
def homonyms : SymbolTable :=
  (((SymbolTable.ofReferenceList "T:A.b\n").addType "a.B").1.addMember
    "A.b" "x.y" .field).1

theorem reachable_homonyms :
    homonyms.Reachable :=
  ((Reachable.ofReferenceList "T:A.b\n").addType "a.B").addMember
    "A.b" "x.y" .field

theorem containers_and_lookup_of_homonyms :
    homonyms.Reachable ∧
    (∀ s, s ∈ homonyms.lookup "A.B" .visualBasic ↔
      s ∈ homonyms.symbols ∧ Text.lower s.fullName = Text.lower "A.B") ∧
    (homonyms.lookup "A.B" .visualBasic).map Symbol.fullName = ["A.b", "a.B"] := by
  rcases reachable_homonyms.containers_and_lookup with ⟨_, _, _, hFolded, _⟩
  exact ⟨reachable_homonyms, (hFolded "A.B").2, by decide⟩

end SymbolTable

end Retarget
