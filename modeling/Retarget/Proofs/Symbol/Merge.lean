import Mathlib.Data.List.Sort
import Retarget.Proofs.Symbol.Table

/-
  This file shows what it means to merge the symbols of a
  list of references into a table.  Containers have fewer
  dots in their names than what they contain, so they come
  first, and every symbol finds its container under its name.

  Key definitions include:
    * `SymbolTable.IsRegular`
    * `SymbolTable.Holds`
    * `SymbolTable.Ordered`

  Key statements include:
    * `SymbolTable.ofReferenceList_isRegular`
    * `SymbolTable.addSymbol_eq_child`
    * `SymbolTable.ordered_mergeSort`
    * `SymbolTable.merge_ofReferenceList`
-/

namespace Retarget

/-
  What holds of the symbols on a list of references: the names
  around a namespace are not empty, and a member is not in the
  global namespace.
-/
structure Symbol.IsRegular (s : Symbol) : Prop where
  isNamed : s.IsNamed
  path_ne : s.kind = .nameSpace → "" ∉ s.path
  container_ne : s.isMember = true → s.container? ≠ some .global

namespace SymbolTable

variable {table base references : SymbolTable}
variable {s owner container : Symbol}
variable {name fullName : String}
variable {kind : SymbolKind}

------------------------------------------------------------
-- Lists of references
------------------------------------------------------------

/- A sound table of regular symbols. -/
structure IsRegular (table : SymbolTable) : Prop extends table.IsSound where
  isRegular : ∀ s ∈ table.symbols, s.IsRegular

theorem mem_symbols_child
    (h : s ∈ (table.child owner name kind).1.symbols) :
    s ∈ table.symbols ∨ s = .declared name kind owner := by
  rcases child_cases table owner name kind with
    ⟨known, -, hChild⟩ | ⟨-, hChild⟩
  · rw [hChild] at h
    exact Or.inl h
  · rw [hChild] at h
    simpa [symbols] using h

theorem child_isRegular
    (hTable : table.IsRegular)
    (hOwner : table.Knows owner)
    (hNew : (Symbol.declared name kind owner).IsRegular) :
    (table.child owner name kind).1.IsRegular := by
  have hDot := hNew.isNamed name List.mem_cons_self
  refine ⟨(child_entered hTable.toIsSound hOwner hDot kind).isSound,
    fun s hs => ?_⟩
  rcases mem_symbols_child hs with hOld | rfl
  · exact hTable.isRegular s hOld
  · exact hNew

theorem addParts_isRegular
    {parts : List String}
    (hTable : table.IsRegular)
    (hOwner : table.Knows owner)
    (hPath : "" ∉ owner.path)
    (hParts : ∀ p ∈ parts, IsSegment p) :
    (table.addParts owner parts).1.IsRegular := by
  induction parts generalizing table owner with
  | nil => exact hTable
  | cons part rest ih =>
      rcases List.forall_mem_cons.mp hParts with ⟨hPart, hRest⟩
      have hEntered := child_entered hTable.toIsSound hOwner hPart.2 .nameSpace
      have hPathEq : (table.child owner part .nameSpace).2.path =
          part :: owner.path := by
        rw [← List.reverse_inj, hEntered.path_eq, List.reverse_cons]
      have hInner : "" ∉ part :: owner.path :=
        List.not_mem_cons_of_ne_of_not_mem (Ne.symm hPart.1) hPath
      refine ih (child_isRegular hTable hOwner ⟨?_, fun _ => hInner, ?_⟩)
        hEntered.knows (hPathEq ▸ hInner) hRest
      · exact List.forall_mem_cons.mpr ⟨hPart.2, hTable.isNamed hOwner⟩
      · exact fun hMember => Bool.noConfusion hMember

theorem addNamespace_isRegular
    (hTable : table.IsRegular)
    (fullName : String) :
    (table.addNamespace fullName).1.IsRegular :=
  addParts_isRegular hTable (Or.inl rfl) List.not_mem_nil fun _ =>
    isSegment_of_mem_nameParts

theorem child_type_isRegular
    (hTable : table.IsRegular)
    (hOwner : table.Knows owner)
    (hDot : '.' ∉ name.toList) :
    (table.child owner name .type).1.IsRegular :=
  child_isRegular hTable hOwner
    ⟨List.forall_mem_cons.mpr ⟨hDot, hTable.isNamed hOwner⟩,
      fun hKind => SymbolKind.noConfusion hKind,
      fun hMember => Bool.noConfusion hMember⟩

theorem addType_isRegular
    (hTable : table.IsRegular)
    (fullName : String) :
    (table.addType fullName).1.IsRegular := by
  rw [addType]
  split
  · next hSplit =>
      exact child_type_isRegular hTable (Or.inl rfl)
        (Text.splitLast_eq_none_iff.mp hSplit)
  · next container name hSplit =>
      have hDot := (Text.splitLast_eq_some_iff.mp hSplit).2
      split
      · next hFind =>
          exact child_type_isRegular hTable (hTable.knows_of_find? hFind) hDot
      · exact child_type_isRegular (addNamespace_isRegular hTable container)
          (addNamespace_kept hTable.toIsConsistent container).knows hDot

theorem child_ne_global
    (hTable : table.IsConsistent)
    (owner : Symbol)
    (name : String)
    (kind : SymbolKind) :
    (table.child owner name kind).2 ≠ .global := by
  rcases child_cases table owner name kind with
    ⟨known, hFind, hChild⟩ | ⟨-, hChild⟩
  · rw [hChild]
    exact hTable.ne_global (mem_entries_of_find? hFind)
  · rw [hChild]
    exact Symbol.noConfusion

theorem addType_ne_global
    (hTable : table.IsConsistent)
    (fullName : String) :
    (table.addType fullName).2 ≠ .global := by
  rw [addType]
  split
  · exact child_ne_global hTable .global fullName .type
  · next container name _ =>
      split
      · exact child_ne_global hTable _ name .type
      · exact child_ne_global (addNamespace_kept hTable container).isConsistent
          _ name .type

theorem child_member_isRegular
    (hTable : table.IsRegular)
    (hOwner : table.Knows owner)
    (hSome : owner ≠ .global)
    (hDot : '.' ∉ name.toList)
    (hKind : kind.isMember = true) :
    (table.child owner name kind).1.IsRegular := by
  refine child_isRegular hTable hOwner ⟨?_, ?_, fun _ h => ?_⟩
  · exact List.forall_mem_cons.mpr ⟨hDot, hTable.isNamed hOwner⟩
  · rintro rfl
    exact Bool.noConfusion hKind
  · exact hSome (Option.some.inj h)

theorem addMember_isRegular
    (hTable : table.IsRegular)
    (ownerName : String)
    (hDot : '.' ∉ name.toList)
    (hKind : kind.isMember = true) :
    (table.addMember ownerName name kind).1.IsRegular := by
  rw [addMember]
  split
  · next owner hOwner =>
      have hFind := (Option.filter_eq_some_iff.mp hOwner).1
      exact child_member_isRegular hTable (hTable.knows_of_find? hFind)
        (hTable.ne_global (mem_entries_of_find? hFind)) hDot hKind
  · exact child_member_isRegular (addType_isRegular hTable ownerName)
      (addType_kept hTable.toIsConsistent ownerName).knows
      (addType_ne_global hTable.toIsConsistent ownerName) hDot hKind

theorem addReference_isRegular
    (hTable : table.IsRegular)
    (line : String) :
    (table.addReference line).IsRegular := by
  rw [addReference]
  generalize readReference line = reference
  obtain ⟨kind, name⟩ := reference
  dsimp only
  split
  · exact addNamespace_isRegular hTable name
  · exact addType_isRegular hTable name
  · next hNamespace hType =>
      split
      · next owner member hSplit =>
          refine addMember_isRegular hTable owner
            (Text.splitLast_eq_some_iff.mp hSplit).2 ?_
          cases kind with
          | nameSpace => exact absurd rfl hNamespace
          | type => exact absurd rfl hType
          | method | property | field | event => rfl
      · exact hTable

theorem ofReferenceList_isRegular
    (text : String) :
    (ofReferenceList text).IsRegular :=
  List.foldlRecOn _ _ ⟨IsSound.empty_isSound, by simp [empty, symbols]⟩
    fun _ ht line _ => addReference_isRegular ht line

------------------------------------------------------------
-- Symbols under the names of others
------------------------------------------------------------

/-
  A table's own symbol of a full name, which may be of another
  kind than the symbol whose name it is.
-/
inductive Holds (table : SymbolTable) : Symbol → Symbol → Prop where
  | global : Holds table .global .global
  | known {s owner : Symbol}
      (hSome : s ≠ .global)
      (hFind : table.find? s.fullName = some owner) :
      Holds table s owner

namespace Holds

theorem of_mem_names
    (hSome : s ≠ .global)
    (h : s.fullName ∈ table.names) :
    ∃ owner, table.Holds s owner := by
  cases hFind : table.find? s.fullName with
  | none => exact absurd h (find?_eq_none_iff.mp hFind)
  | some owner => exact ⟨owner, .known hSome hFind⟩

/- Such a symbol gives the same full names to what is in it. -/
theorem childName_eq
    (hTable : table.IsConsistent)
    (h : table.Holds container owner)
    (name : String) :
    childName owner name = childName container name := by
  cases h with
  | global => rfl
  | known hSome hFind =>
      have hMem := mem_entries_of_find? hFind
      rw [Symbol.childName_of_ne_global (hTable.ne_global hMem),
        Symbol.childName_of_ne_global hSome, hTable.fullName_eq hMem]

/- A known name in a container is found and not entered again. -/
theorem child_eq
    (hTable : table.IsConsistent)
    (h : table.Holds container owner)
    (hKnown : table.Holds (.declared name kind container) s)
    (asked : SymbolKind) :
    table.child owner name asked = (table, s) := by
  cases hKnown with
  | known _ hFind =>
      rw [Symbol.fullName_declared, ← h.childName_eq hTable] at hFind
      rw [child]
      simp only [hFind]

end Holds

/- Each container of a symbol has a namesake in the table. -/
def Hosts (table : SymbolTable) (s : Symbol) : Prop :=
  ∀ c ∈ s.containers, ∃ owner, table.Holds c owner

theorem addParts_append
    (table : SymbolTable)
    (owner : Symbol)
    (parts : List String)
    (name : String) :
    table.addParts owner (parts ++ [name]) =
      let r := table.addParts owner parts
      r.1.child r.2 name .nameSpace := by
  induction parts generalizing table owner with
  | nil => rfl
  | cons part rest ih => exact ih _ _

/- The way along a symbol's path finds what the table has there. -/
theorem addParts_path
    (hTable : table.IsConsistent)
    (hHosts : table.Hosts container)
    (h : table.Holds container owner) :
    table.addParts .global container.path.reverse = (table, owner) := by
  induction container generalizing owner with
  | global =>
      cases h with
      | global => rfl
      | known hSome _ => exact absurd rfl hSome
  | declared name kind outer ih =>
      rcases List.forall_mem_cons.mp hHosts with ⟨⟨next, hNext⟩, hOuter⟩
      rw [Symbol.path, List.reverse_cons, addParts_append, ih hOuter hNext]
      exact hNext.child_eq hTable h .nameSpace

theorem nameParts_fullName
    (hNamed : s.IsNamed)
    (hSome : s ≠ .global)
    (hPath : "" ∉ s.path) :
    nameParts s.fullName = s.path.reverse := by
  rw [nameParts, Symbol.splitAt_fullName hNamed hSome, List.filter_eq_self]
  intro p hp
  rw [Bool.not_eq_true', Bool.eq_false_iff, ne_eq, String.isEmpty_iff]
  rintro rfl
  exact hPath (List.mem_reverse.mp hp)

/- A type is looked for in what has the name of its container. -/
theorem addType_fullName
    (hNamed : (Symbol.declared name kind container).IsNamed)
    (h : table.Holds container owner) :
    table.addType (Symbol.declared name kind container).fullName =
      table.child owner name .type := by
  have hDot := hNamed name List.mem_cons_self
  rw [Symbol.fullName_declared, addType]
  cases h with
  | global =>
      have hSplit : Text.splitLast '.' (childName .global name) = none :=
        Text.splitLast_eq_none_iff.mpr hDot
      simp only [hSplit]
      rfl
  | known hSome hFind =>
      have hName := Symbol.childName_of_ne_global hSome name
      simp only [Text.splitLast_eq_some_iff.mpr ⟨hName, hDot⟩, hFind]

/- A member is looked for in what has the name of its container. -/
theorem addMember_fullName
    (hTable : table.IsConsistent)
    (hNamed : container.IsNamed)
    (hHosts : table.Hosts container)
    (hSome : container ≠ .global)
    (h : table.Holds container owner)
    (name : String)
    (kind : SymbolKind) :
    table.addMember container.fullName name kind =
      table.child owner name kind := by
  have hFind : table.find? container.fullName = some owner := by
    cases h with
    | global => exact absurd rfl hSome
    | known _ hFind => exact hFind
  rw [addMember, hFind, Option.filter_some]
  by_cases hType : (owner.kind == .type) = true
  · rw [if_pos hType]
  · -- What is no type is asked for as a type, and found as it is.
    cases container with
    | global => exact absurd rfl hSome
    | declared last lastKind outer =>
        rcases hHosts outer List.mem_cons_self with ⟨next, hNext⟩
        rw [if_neg hType, addType_fullName hNamed hNext,
          hNext.child_eq hTable h]

/-
  A symbol is added as a child of what its container's name
  stands for in the table.
-/
theorem addSymbol_eq_child
    (hTable : table.IsConsistent)
    (hNew : (Symbol.declared name kind container).IsRegular)
    (hHosts : table.Hosts (.declared name kind container))
    (h : table.Holds container owner) :
    table.addSymbol (.declared name kind container) =
      (table.child owner name kind).1 := by
  have hOuter := (List.forall_mem_cons.mp hHosts).2
  have hNamed := (List.forall_mem_cons.mp hNew.isNamed).2
  have hMember : kind.isMember = true →
      (table.addMember container.fullName name kind).1 =
        (table.child owner name kind).1 := fun hKind =>
    congrArg Prod.fst (addMember_fullName hTable hNamed hOuter
      (fun hGlobal => hNew.container_ne hKind (congrArg some hGlobal)) h
      name kind)
  cases kind with
  | nameSpace =>
      rw [addSymbol, addNamespace]
      simp only [Symbol.kind]
      rw [nameParts_fullName hNew.isNamed Symbol.noConfusion (hNew.path_ne rfl),
        Symbol.path, List.reverse_cons, addParts_append,
        addParts_path hTable hOuter h]
  | type => exact congrArg Prod.fst (addType_fullName hNew.isNamed h)
  | method => exact hMember rfl
  | property => exact hMember rfl
  | field => exact hMember rfl
  | event => exact hMember rfl

/-
  Adding a symbol whose containers have namesakes enters its
  full name unless that is known already.
-/
theorem addSymbol_cases
    (hTable : table.IsConsistent)
    (hNew : s.IsRegular)
    (hSome : s ≠ .global)
    (hHosts : table.Hosts s) :
    (s.fullName ∈ table.names ∧ table.addSymbol s = table) ∨
    (s.fullName ∉ table.names ∧ ∃ name kind container owner,
      s = .declared name kind container ∧ table.Holds container owner ∧
      table.addSymbol s =
        table.enter s.fullName (.declared name kind owner)) := by
  cases s with
  | global => exact absurd rfl hSome
  | declared name kind container =>
      rcases hHosts container List.mem_cons_self with ⟨owner, hOwner⟩
      have hAdd := addSymbol_eq_child hTable hNew hHosts hOwner
      have hName : childName owner name =
          (Symbol.declared name kind container).fullName := by
        rw [Symbol.fullName_declared, hOwner.childName_eq hTable]
      rw [hAdd, ← hName]
      rcases child_cases table owner name kind with
        ⟨known, hFind, hChild⟩ | ⟨hFresh, hChild⟩
      · exact Or.inl ⟨mem_names_of_find? hFind, congrArg Prod.fst hChild⟩
      · exact Or.inr ⟨hFresh, name, kind, container, owner, rfl, hOwner,
          congrArg Prod.fst hChild⟩

------------------------------------------------------------
-- Containers first
------------------------------------------------------------

/- Each symbol of a list comes after the containers it is in. -/
def Ordered (ordered : List Symbol) : Prop :=
  ∀ front s rest, ordered = front ++ s :: rest →
    ∀ c ∈ s.containers, c = .global ∨ c ∈ front

theorem dotCount_append
    (a b : String) :
    dotCount (a ++ "." ++ b) = dotCount a + 1 + dotCount b := by
  have hDot : ".".toList = ['.'] := by decide
  rw [dotCount, String.toList_append, String.toList_append, hDot,
    List.count_append, List.count_append]
  rfl

theorem dotCount_container_lt
    (hContainer : container ∈ s.containers)
    (hSome : container ≠ .global) :
    dotCount container.fullName < dotCount s.fullName := by
  induction s with
  | global => cases hContainer
  | declared name kind outer ih =>
      have hOuter : outer ≠ .global →
          dotCount outer.fullName <
            dotCount (Symbol.declared name kind outer).fullName := by
        intro hOuterSome
        rw [Symbol.fullName_declared, Symbol.childName_of_ne_global hOuterSome,
          dotCount_append]
        omega
      rcases List.mem_cons.mp hContainer with rfl | hInner
      · exact hOuter hSome
      · refine (ih hInner).trans (hOuter ?_)
        rintro rfl
        cases hInner

/- The order in which symbols are merged puts containers first. -/
theorem ordered_mergeSort
    {symbols : List Symbol}
    (hClosed :
      ∀ s ∈ symbols, ∀ c ∈ s.containers, c = .global ∨ c ∈ symbols) :
    Ordered (symbols.mergeSort fun a b =>
      dotCount a.fullName ≤ dotCount b.fullName) := by
  have hSorted : (symbols.mergeSort fun a b =>
      dotCount a.fullName ≤ dotCount b.fullName).Pairwise fun a b =>
        decide (dotCount a.fullName ≤ dotCount b.fullName) = true := by
    refine List.pairwise_mergeSort (fun a b c hab hbc => ?_) (fun a b => ?_) _
    · rw [decide_eq_true_eq] at hab hbc ⊢
      exact hab.trans hbc
    · rw [Bool.or_eq_true, decide_eq_true_eq, decide_eq_true_eq]
      exact Nat.le_total _ _
  intro front s rest hList c hc
  rw [hList] at hSorted
  have hMem : s ∈ symbols := by
    rw [← List.mem_mergeSort, hList]
    exact List.mem_append_right _ List.mem_cons_self
  refine or_iff_not_imp_left.mpr fun hSome => ?_
  have hContainer := (hClosed s hMem c hc).resolve_left hSome
  rw [← List.mem_mergeSort, hList] at hContainer
  refine (List.mem_append.mp hContainer).resolve_right fun hLater => ?_
  -- A container that came later would have as many dots.
  have hLess := dotCount_container_lt hc hSome
  have hAfter := (List.pairwise_cons.mp (List.pairwise_append.mp hSorted).2.1).1
  rcases List.mem_cons.mp hLater with rfl | hRest
  · exact Nat.lt_irrefl _ hLess
  · exact absurd (decide_eq_true_eq.mp (hAfter c hRest)) (Nat.not_le.mpr hLess)

/- A fold that may use what it has read so far. -/
theorem foldl_invariant
    {ordered : List Symbol}
    {P : List Symbol → SymbolTable → Prop}
    (hStart : P [] table)
    (hStep :
      ∀ front s rest t, ordered = front ++ s :: rest → P front t →
        P (front ++ [s]) (t.addSymbol s)) :
    P ordered (ordered.foldl addSymbol table) := by
  suffices hRest : ∀ rest front t, ordered = front ++ rest → P front t →
      P ordered (rest.foldl addSymbol t) from
    hRest ordered [] table rfl hStart
  intro rest
  induction rest with
  | nil =>
      intro front t hList hInv
      rwa [hList, List.append_nil]
  | cons s rest ih =>
      intro front t hList hInv
      exact ih (front ++ [s]) (t.addSymbol s) (by simp [hList])
        (hStep front s rest t hList hInv)

------------------------------------------------------------
-- Merging a list of references
------------------------------------------------------------

/- The order in which the symbols of a table are merged. -/
def mergeOrder (table : SymbolTable) : List Symbol :=
  table.symbols.mergeSort fun a b => dotCount a.fullName ≤ dotCount b.fullName

section References

variable {arranged : SymbolTable}
variable (hTable : references.IsRegular)
variable (hOrder : arranged.entries.Perm references.entries)

include hOrder in
theorem mergeOrder_perm :
    arranged.mergeOrder.Perm references.symbols :=
  (List.mergeSort_perm _ _).trans (hOrder.map Prod.snd)

include hTable hOrder in
theorem fullNames_mergeOrder :
    (arranged.mergeOrder.map Symbol.fullName).Perm references.names := by
  refine ((mergeOrder_perm hOrder).map Symbol.fullName).trans ?_
  rw [symbols, names, List.map_map]
  exact .of_eq (List.map_congr_left fun e he => hTable.fullName_eq he)

include hTable hOrder in
theorem ordered_mergeOrder :
    Ordered arranged.mergeOrder := by
  refine ordered_mergeSort fun s hs c hc => ?_
  have hMem : ∀ x, x ∈ arranged.symbols ↔ x ∈ references.symbols := fun x =>
    (hOrder.map Prod.snd).mem_iff
  rw [hMem] at hs ⊢
  exact (hTable.knows_containers (Or.inr (hTable.mem_symbols_iff.mp hs)) c
    hc).imp id hTable.mem_symbols_iff.mpr

include hTable hOrder in
theorem isRegular_of_mem_mergeOrder
    (hs : s ∈ arranged.mergeOrder) :
    s.IsRegular ∧ s ≠ .global := by
  have hMem := (mergeOrder_perm hOrder).mem_iff.mp hs
  exact ⟨hTable.isRegular s hMem,
    hTable.ne_global (hTable.mem_symbols_iff.mp hMem)⟩

include hTable hOrder in
/- A table hosts a symbol when it knows all that was read before. -/
theorem hosts_of_front
    {front rest : List Symbol}
    (hList : arranged.mergeOrder = front ++ s :: rest)
    (hFront : ∀ x ∈ front, x.fullName ∈ table.names) :
    s.IsRegular ∧ s ≠ .global ∧ table.Hosts s := by
  have hMem : s ∈ arranged.mergeOrder := by
    rw [hList]
    exact List.mem_append_right _ List.mem_cons_self
  have hs := isRegular_of_mem_mergeOrder hTable hOrder hMem
  refine ⟨hs.1, hs.2, fun c hc => ?_⟩
  rcases ordered_mergeOrder hTable hOrder front s rest hList c hc with
    rfl | hBefore
  · exact ⟨.global, .global⟩
  · have hContainer : c ∈ arranged.mergeOrder := by
      rw [hList]
      exact List.mem_append_left _ hBefore
    exact Holds.of_mem_names
      (isRegular_of_mem_mergeOrder hTable hOrder hContainer).2 (hFront c hBefore)

include hTable hOrder in
theorem not_mem_front
    {front rest : List Symbol}
    (hList : arranged.mergeOrder = front ++ s :: rest) :
    s.fullName ∉ front.map Symbol.fullName := by
  have hNodup := (fullNames_mergeOrder hTable hOrder).nodup_iff.mpr hTable.nodup
  rw [hList, List.map_append, List.map_cons] at hNodup
  intro hMem
  exact (List.nodup_append.mp hNodup).2.2 _ hMem _ List.mem_cons_self rfl

include hTable hOrder in
/- An empty table takes the symbols over as they are. -/
theorem empty_merge_entries :
    (empty.merge arranged).entries =
      arranged.mergeOrder.map fun s => (s.fullName, s) := by
  refine (foldl_invariant
    (P := fun front t => t.IsConsistent ∧
      t.entries = front.map fun s => (s.fullName, s))
    ⟨IsConsistent.empty_isConsistent, rfl⟩ ?_).2
  rintro front s rest t hList ⟨hConsistent, hEntries⟩
  have hNames : t.names = front.map Symbol.fullName := by
    rw [names, hEntries, List.map_map]
    rfl
  have hFront : ∀ x ∈ front, x.fullName ∈ t.names := fun x hx =>
    hNames ▸ List.mem_map_of_mem hx
  rcases hosts_of_front hTable hOrder hList hFront with ⟨hs, hSome, hHosts⟩
  refine ⟨addSymbol_isConsistent hConsistent s, ?_⟩
  rcases addSymbol_cases hConsistent hs hSome hHosts with
    ⟨hKnown, -⟩ | ⟨-, name, kind, container, owner, rfl, hOwner, hAdd⟩
  · rw [hNames] at hKnown
    exact absurd hKnown (not_mem_front hTable hOrder hList)
  · have hSame : owner = container := by
      cases hOwner with
      | global => rfl
      | known hOuter hFind =>
          have hBefore := (ordered_mergeOrder hTable hOrder front _ rest hList
            container List.mem_cons_self).resolve_left hOuter
          refine hConsistent.eq_of_mem (mem_entries_of_find? hFind) ?_
          rw [hEntries]
          exact List.mem_map_of_mem hBefore
    rw [hAdd, entries_enter, hEntries, hSame, List.map_append]
    rfl

include hTable hOrder in
/- A table keeps what it has and gets the names that it lacks. -/
theorem merge_names
    (hBase : base.IsConsistent) :
    base.entries <+: (base.merge arranged).entries ∧
    (base.merge arranged).names =
      base.names ++
        (arranged.mergeOrder.map Symbol.fullName).filter (· ∉ base.names) := by
  refine (foldl_invariant
    (P := fun front t => t.IsConsistent ∧ base.entries <+: t.entries ∧
      t.names =
        base.names ++ (front.map Symbol.fullName).filter (· ∉ base.names))
    ⟨hBase, List.prefix_rfl, by simp⟩ ?_).2
  rintro front s rest t hList ⟨hConsistent, hPrefix, hNames⟩
  have hFront : ∀ x ∈ front, x.fullName ∈ t.names := by
    intro x hx
    by_cases hOld : x.fullName ∈ base.names
    · rw [hNames]
      exact List.mem_append_left _ hOld
    · rw [hNames]
      exact List.mem_append_right _
        (List.mem_filter.mpr ⟨List.mem_map_of_mem hx, decide_eq_true hOld⟩)
  rcases hosts_of_front hTable hOrder hList hFront with ⟨hs, hSome, hHosts⟩
  refine ⟨addSymbol_isConsistent hConsistent s, ?_⟩
  rw [List.map_append, List.filter_append, ← List.append_assoc, ← hNames,
    List.map_singleton]
  rcases addSymbol_cases hConsistent hs hSome hHosts with
    ⟨hKnown, hAdd⟩ | ⟨hFresh, name, kind, container, owner, -, -, hAdd⟩
  · have hOld : s.fullName ∈ base.names := by
      rw [hNames] at hKnown
      refine (List.mem_append.mp hKnown).resolve_right fun hLate => ?_
      exact not_mem_front hTable hOrder hList (List.mem_filter.mp hLate).1
    rw [hAdd]
    exact ⟨hPrefix, by simp [hOld]⟩
  · have hNew : s.fullName ∉ base.names := fun hOld =>
      hFresh (hNames ▸ List.mem_append_left _ hOld)
    rw [hAdd, names_enter]
    exact ⟨hPrefix.trans (List.prefix_append _ _), by simp [hNew]⟩

include hTable hOrder in
/- A table that knows all names is not changed. -/
theorem merge_eq_self
    (hBase : base.IsConsistent)
    (hNames : references.names ⊆ base.names) :
    base.merge arranged = base := by
  refine foldl_invariant (P := fun _ t => t = base) rfl ?_
  rintro front s rest t hList rfl
  have hKnown : ∀ x ∈ arranged.mergeOrder, x.fullName ∈ t.names := fun x hx =>
    hNames ((fullNames_mergeOrder hTable hOrder).subset (List.mem_map_of_mem hx))
  rw [show arranged.mergeOrder = front ++ s :: rest from hList] at hKnown
  rcases List.forall_mem_append.mp hKnown with ⟨hFront, hRest⟩
  rcases hosts_of_front hTable hOrder hList hFront with ⟨hs, hSome, hHosts⟩
  refine (addSymbol_cases hBase hs hSome hHosts).elim And.right fun hFresh => ?_
  exact absurd (hRest s List.mem_cons_self) hFresh.1

end References

/-
  The symbols of a list of references, given in any order,
  are merged into an empty table as they are.  Another table
  keeps its own symbols and gets exactly the names that it
  lacks, and a second merge changes nothing.
-/
theorem merge_ofReferenceList
    (text : String)
    {arranged again : SymbolTable}
    (hOrder : arranged.entries.Perm (ofReferenceList text).entries)
    (hAgain : again.entries.Perm (ofReferenceList text).entries) :
    (empty.merge arranged).entries.Perm (ofReferenceList text).entries ∧
    ∀ base : SymbolTable, base.Reachable →
      (∀ n s, base.find? n = some s → (base.merge arranged).find? n = some s) ∧
      (base.merge arranged).names.Perm
        (base.names ++
          (ofReferenceList text).names.filter (· ∉ base.names)) ∧
      (base.merge arranged).merge again = base.merge arranged := by
  have hTable := ofReferenceList_isRegular text
  refine ⟨?_, fun base hReachable => ?_⟩
  · rw [empty_merge_entries hTable hOrder]
    refine ((mergeOrder_perm hOrder).map _).trans (.of_eq ?_)
    rw [symbols, List.map_map]
    refine (List.map_congr_left fun e he => ?_).trans (List.map_id _)
    exact Prod.ext (hTable.fullName_eq he) rfl
  · have hBase := hReachable.isConsistent
    have hMerged := merge_isConsistent hBase arranged
    rcases merge_names hTable hOrder hBase with ⟨hPrefix, hNames⟩
    have hPerm := (fullNames_mergeOrder hTable hOrder).filter (· ∉ base.names)
    refine ⟨fun n s hFind => ?_, ?_, ?_⟩
    · exact hMerged.find?_eq_some_iff.mpr
        (hPrefix.subset (mem_entries_of_find? hFind))
    · rw [hNames]
      exact hPerm.append_left base.names
    · refine merge_eq_self hTable hAgain hMerged fun n hn => ?_
      rw [hNames]
      by_cases hOld : n ∈ base.names
      · exact List.mem_append_left _ hOld
      · refine List.mem_append_right _ (hPerm.mem_iff.mpr ?_)
        exact List.mem_filter.mpr ⟨hn, decide_eq_true hOld⟩

/- A constructor and a member of a namespace, given in reverse. -/
namespace Reversed

def text : String :=
  "M:A..ctor\nN:B\nM:B.x\n"

/- The same symbols, the last one first. -/
def reversed (table : SymbolTable) : SymbolTable :=
  ⟨table.entries.reverse, table.folded⟩

theorem entries_reversed_perm
    (table : SymbolTable) :
    (reversed table).entries.Perm table.entries :=
  List.reverse_perm table.entries

def arranged : SymbolTable :=
  reversed (ofReferenceList text)

/- The name of the type with the constructor is that of an event. -/
def events : SymbolTable :=
  (empty.addMember "A" "" .event).1

theorem names_text :
    (ofReferenceList text).names = ["A", "A.", "A..ctor", "B", "B.x"] := by
  decide +kernel

theorem merge_ofReferenceList_of_reversed :
    arranged.entries.Perm (ofReferenceList text).entries ∧
    events.Reachable ∧
    (empty.merge arranged).entries.Perm (ofReferenceList text).entries ∧
    (events.merge arranged).find? "A." = events.find? "A." ∧
    (events.merge arranged).names.Perm ["A", "A.", "A..ctor", "B", "B.x"] ∧
    (events.merge arranged).merge (ofReferenceList text) =
      events.merge arranged := by
  have hOrder : arranged.entries.Perm (ofReferenceList text).entries :=
    entries_reversed_perm (ofReferenceList text)
  have hBase : events.Reachable := Reachable.empty.addMember "A" "" .event
  rcases merge_ofReferenceList text hOrder (.refl _) with ⟨hEmpty, hMerged⟩
  rcases hMerged events hBase with ⟨hKept, hNames, hAgain⟩
  refine ⟨hOrder, hBase, hEmpty, ?_, ?_, hAgain⟩
  · exact hKept "A." (.declared "" .event (.declared "A" .type .global)) (by decide)
  · rw [names_text] at hNames
    exact hNames.trans (.of_eq (by decide))

end Reversed

end SymbolTable

end Retarget
