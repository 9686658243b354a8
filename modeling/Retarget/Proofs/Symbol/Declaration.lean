import Retarget.Analysis.Compilation
import Retarget.Proofs.Symbol.Table

/-
  This file shows that source files declare the same names in
  every order.  Only a container with an empty segment in its
  name is looked up under a name that it is not entered
  under, so a type must not come to have such a name.

  Key definitions include:
    * `HasGap`
    * `SymbolTable.Settles`
    * `SymbolTable.Grows`
    * `SymbolTable.Declares`

  Key statements include:
    * `SymbolTable.Grows.addType`
    * `SymbolTable.Grows.declare`
    * `SymbolTable.grows_foldl_declare`
-/

namespace Retarget

/- One of the segments of the name is empty. -/
def HasGap (name : String) : Prop :=
  "" ∈ Text.splitAt '.' name

instance (name : String) : Decidable (HasGap name) := by
  unfold HasGap
  infer_instance

theorem HasGap.of_splitLast
    {name outer last : String}
    (h : HasGap outer)
    (hSplit : Text.splitLast '.' name = some (outer, last)) :
    HasGap name := by
  rw [HasGap, Text.splitAt_of_splitLast hSplit]
  exact List.mem_append_left _ h

namespace SymbolTable

variable {base table : SymbolTable}
variable {declared : List String}

theorem not_hasGap_of_isStart
    {outer name : String}
    (h : IsStart (nameParts outer) name) :
    ¬ HasGap name := by
  rcases h with ⟨front, hSome, hFront, rfl⟩
  have hParts : ∀ p ∈ front, IsSegment p := fun p hp =>
    isSegment_of_mem_nameParts (hFront.subset hp)
  rw [HasGap, Text.splitAt_join (fun p hp => (hParts p hp).2) hSome]
  exact fun hEmpty => (hParts "" hEmpty).1 rfl

theorem nameParts_of_not_hasGap
    {name : String}
    (h : ¬ HasGap name) :
    nameParts name = Text.splitAt '.' name := by
  rw [nameParts, List.filter_eq_self]
  intro p hp
  rw [Bool.not_eq_true', Bool.eq_false_iff, ne_eq, String.isEmpty_iff]
  rintro rfl
  exact h hp

------------------------------------------------------------
-- Names that settle
------------------------------------------------------------

/-
  No type is entered under the name that a declared type
  gives its container, where the name has an empty segment
  and the table does not know it.
-/
def Settles (base : SymbolTable) (declared : List String) : Prop :=
  ∀ n ∈ declared, ∀ container,
    namespaceOf? n = some container → HasGap container →
    base.find? container = none →
    ∀ other ∈ declared, (base.addType other).2.fullName ≠ container

/-
  A table to which declarations have been added: the base
  still decides about the containers with an empty segment.
-/
structure Grows
    (base : SymbolTable)
    (declared : List String)
    (table : SymbolTable) : Prop where
  isSound : table.IsSound
  isLonger : table.Extends base
  isSettled :
    ∀ n ∈ declared, ∀ container,
      namespaceOf? n = some container → HasGap container →
      container ∈ table.names → container ∈ base.names

namespace Grows

theorem refl
    (hBase : base.IsSound) :
    base.Grows declared base :=
  ⟨hBase, Extends.refl base, fun _ _ _ _ _ h => h⟩

theorem typeParts_eq
    {name : String}
    (h : base.Grows declared table)
    (hName : name ∈ declared) :
    table.typeParts name = base.typeParts name := by
  rw [typeParts, typeParts]
  cases hSplit : Text.splitLast '.' name with
  | none => rfl
  | some pieces =>
      obtain ⟨container, last⟩ := pieces
      dsimp only
      by_cases hGap : HasGap container
      · have hContainer : namespaceOf? name = some container := by
          rw [namespaceOf?, hSplit]
          rfl
        have hIff : container ∈ table.names ↔ container ∈ base.names :=
          ⟨h.isSettled name hName container hContainer hGap, fun hKnown =>
            Extends.names_subset h.isLonger hKnown⟩
        simp only [hIff]
      · rw [nameParts_of_not_hasGap hGap, ite_self, ite_self]

/-
  A name with an empty segment that a declared type is
  entered under, or in, is no container of another.
-/
theorem mem_names_of_isStart_typeParts
    {name container : String}
    (hBase : base.IsSound)
    (hGap : HasGap container)
    (hOther : (base.addType name).2.fullName ≠ container)
    (hStart : IsStart (base.typeParts name) container) :
    container ∈ base.names := by
  rcases hStart with ⟨front, hSome, hFront, rfl⟩
  have hPart : front ≠ base.typeParts name := by
    rintro rfl
    exact hOther (addType_entered hBase name).fullName_eq
  rw [typeParts] at hFront hPart
  cases hSplit : Text.splitLast '.' name with
  | none =>
      rw [hSplit] at hFront hPart
      have hInner : front <+: [] ++ [name] := hFront
      rcases List.prefix_concat_iff.mp hInner with hAll | hNil
      · exact absurd hAll hPart
      · exact absurd (List.prefix_nil.mp hNil) hSome
  | some pieces =>
      obtain ⟨outer, last⟩ := pieces
      rw [hSplit] at hFront hPart
      dsimp only at hFront hPart
      split at hFront
      · next hKnown =>
          rw [if_pos hKnown] at hPart
          have hInner := (List.prefix_concat_iff.mp hFront).resolve_left hPart
          rcases List.mem_map.mp hKnown with ⟨⟨outer, s⟩, hEntry, rfl⟩
          have hs := hBase.knows_of_mem hEntry
          refine hBase.mem_names_of_isStart hs ⟨front, hSome, ?_, rfl⟩
          rwa [← Symbol.splitAt_fullName (hBase.isNamed hs)
            (hBase.ne_global hEntry), hBase.fullName_eq hEntry]
      · next hNew =>
          rw [if_neg hNew] at hPart
          have hInner := (List.prefix_concat_iff.mp hFront).resolve_left hPart
          exact absurd hGap
            (not_hasGap_of_isStart ⟨front, hSome, hInner, rfl⟩)

theorem addType
    {name : String}
    (hBase : base.IsSound)
    (hSettles : base.Settles declared)
    (h : base.Grows declared table)
    (hName : name ∈ declared) :
    base.Grows declared (table.addType name).1 ∧
    ∀ n, n ∈ (table.addType name).1.names ↔
      n ∈ table.names ∨ IsStart (base.typeParts name) n := by
  have hEntered := addType_entered h.isSound name
  rw [h.typeParts_eq hName] at hEntered
  refine ⟨⟨hEntered.isSound, (addType_extends table name).trans h.isLonger,
    fun n hn container hContainer hGap hMem => ?_⟩, hEntered.mem_names⟩
  rcases (hEntered.mem_names container).mp hMem with hOld | hStart
  · exact h.isSettled n hn container hContainer hGap hOld
  · by_contra hUnknown
    exact hUnknown (mem_names_of_isStart_typeParts hBase hGap
      (hSettles n hn container hContainer hGap
        (find?_eq_none_iff.mpr hUnknown) name hName) hStart)

theorem addNamespace
    (h : base.Grows declared table)
    (name : String) :
    base.Grows declared (table.addNamespace name).1 ∧
    ∀ n, n ∈ (table.addNamespace name).1.names ↔
      n ∈ table.names ∨ IsStart (nameParts name) n := by
  have hEntered := addNamespace_entered h.isSound name
  refine ⟨⟨hEntered.isSound, (addNamespace_extends table name).trans h.isLonger,
    fun n hn container hContainer hGap hMem => ?_⟩, hEntered.mem_names⟩
  rcases (hEntered.mem_names container).mp hMem with hOld | hStart
  · exact h.isSettled n hn container hContainer hGap hOld
  · exact absurd hGap (not_hasGap_of_isStart hStart)

/- A fold grows a table by what its steps add to the names. -/
theorem foldl
    {α : Type}
    {f : SymbolTable → α → SymbolTable}
    {xs : List α}
    {Adds : α → String → Prop}
    (hStep : ∀ t, base.Grows declared t → ∀ x ∈ xs,
      base.Grows declared (f t x) ∧
      ∀ n, n ∈ (f t x).names ↔ n ∈ t.names ∨ Adds x n)
    (h : base.Grows declared table) :
    base.Grows declared (xs.foldl f table) ∧
    ∀ n, n ∈ (xs.foldl f table).names ↔
      n ∈ table.names ∨ ∃ x ∈ xs, Adds x n := by
  induction xs generalizing table with
  | nil => exact ⟨h, by simp⟩
  | cons x rest ih =>
      rcases hStep table h x List.mem_cons_self with ⟨hGrows, hNames⟩
      rcases ih (fun t ht y hy => hStep t ht y (List.mem_cons_of_mem x hy))
        hGrows with ⟨hAll, hRest⟩
      refine ⟨hAll, fun n => (hRest n).trans ?_⟩
      simp only [hNames, or_assoc, List.mem_cons, exists_eq_or_imp]

end Grows

------------------------------------------------------------
-- Source files
------------------------------------------------------------

/- A name that comes from the declarations of a source file. -/
def Declares (base : SymbolTable) (tree : SourceTree) (n : String) : Prop :=
  (∃ d ∈ tree.declarations, IsStart (base.typeParts d.fullName) n) ∨
    ∃ s ∈ tree.namespaces, IsStart (nameParts s.name) n

def declaredNames (trees : List SourceTree) : List String :=
  trees.flatMap fun t => t.declarations.map TypeDeclaration.fullName

theorem Grows.declare
    {tree : SourceTree}
    (hBase : base.IsSound)
    (hSettles : base.Settles declared)
    (hTree : ∀ d ∈ tree.declarations, d.fullName ∈ declared)
    (h : base.Grows declared table) :
    base.Grows declared (Compilation.declare table tree) ∧
    ∀ n, n ∈ (Compilation.declare table tree).names ↔
      n ∈ table.names ∨ base.Declares tree n := by
  have hType := fun t (ht : base.Grows declared t) (d : TypeDeclaration)
    (hd : d ∈ tree.declarations) =>
      Grows.addType hBase hSettles ht (hTree d hd)
  have hNamespace := fun t (ht : base.Grows declared t) (s : NamespaceScope)
    (_ : s ∈ tree.namespaces) => Grows.addNamespace ht s.name
  rcases Grows.foldl hType h with ⟨hTyped, hTypes⟩
  rcases Grows.foldl hNamespace hTyped with ⟨hAll, hNamespaces⟩
  refine ⟨hAll, fun n => (hNamespaces n).trans ?_⟩
  rw [hTypes, or_assoc, Declares]

theorem grows_foldl_declare
    {trees : List SourceTree}
    (hBase : base.IsSound)
    (hSettles : base.Settles (declaredNames trees)) :
    base.Grows (declaredNames trees) (trees.foldl Compilation.declare base) ∧
    ∀ n, n ∈ (trees.foldl Compilation.declare base).names ↔
      n ∈ base.names ∨ ∃ t ∈ trees, base.Declares t n := by
  refine Grows.foldl (fun t ht tree hTree => ?_) (Grows.refl hBase)
  refine Grows.declare hBase hSettles (fun d hd => ?_) ht
  exact List.mem_flatMap_of_mem hTree (List.mem_map_of_mem hd)

end SymbolTable

end Retarget
