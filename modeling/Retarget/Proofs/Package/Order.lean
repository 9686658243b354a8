import Retarget.Package.Version
import Retarget.Path.Order
import Retarget.Proofs.Sorting

/-
  This file shows that versions of packages are ordered: any
  two compare, the other way round the answer turns round,
  and both being before and being the same carry on.  So a
  sorted list without repeats is determined by the versions
  that are in it, and a search tree finds the same versions
  as a search from the first element to the last.

  Key definitions include:
    * `PackageVersion.otherIdentifier`

  Key statements include:
    * `PackageVersion.same_iff_le`
    * `PackageVersion.sort_sorted`
    * `PackageVersion.dropRepeated_ascends`
    * `PackageVersion.represents_dropRepeated_iff`
    * `PackageVersion.order_isLawful`
-/

namespace Retarget.PackageVersion

variable {v w x : PackageVersion}
variable {vs ws : List PackageVersion}

------------------------------------------------------------
-- Labels
------------------------------------------------------------

/- What an identifier that is no number is compared by. -/
def otherIdentifier (s : String) : String :=
  if (Numeral.read64? s).isSome then "" else Text.lower s

theorem identifierOrder_eq
    (a b : String) :
    identifierOrder a b =
      (absentLast compare (Numeral.read64? a) (Numeral.read64? b)).then
        (Text.order (otherIdentifier a) (otherIdentifier b)) := by
  unfold identifierOrder otherIdentifier
  cases Numeral.read64? a with
  | none => cases Numeral.read64? b <;> rfl
  | some m =>
      cases Numeral.read64? b with
      | none => rfl
      | some n =>
          have hEmpty : Text.order "" "" = .eq := Std.ReflCmp.compare_self
          simp [absentLast, hEmpty]

instance : Std.TransCmp identifierOrder := by
  have hNumber := transCmp_on Numeral.read64?
    (absentLast (compare : Nat → Nat → Ordering))
  have hOther := transCmp_on otherIdentifier Text.order
  have hOrder : identifierOrder =
      compareLex
        (fun a b => absentLast compare (Numeral.read64? a) (Numeral.read64? b))
        (fun a b => Text.order (otherIdentifier a) (otherIdentifier b)) := by
    funext a b
    exact identifierOrder_eq a b
  rw [hOrder]
  exact @Std.instTransCmpCompareLex _ _ _ hNumber hOther

instance : Std.TransCmp labelOrder :=
  transCmp_on (Text.splitAt '.') (List.compareLex identifierOrder)

theorem labelsOrder_eq :
    labelsOrder = absentLast labelOrder := by
  funext a b
  cases a <;> cases b <;> rfl

------------------------------------------------------------
-- Versions
------------------------------------------------------------

instance : Std.TransCmp order := by
  have hNumbers := transCmp_on numbers
    (List.compareLex (compare : Nat → Nat → Ordering))
  have hLabels := transCmp_on label (absentLast labelOrder)
  have hOrder : order =
      compareLex (fun v w => List.compareLex compare v.numbers w.numbers)
        (fun v w => absentLast labelOrder v.label w.label) := by
    funext v w
    rw [← labelsOrder_eq]
    rfl
  rw [hOrder]
  exact @Std.instTransCmpCompareLex _ _ _ hNumbers hLabels

theorem same_iff :
    v.same w = true ↔ v.order w = .eq :=
  beq_iff_eq

/- Versions that are the same compare alike with every version. -/
theorem order_congr
    (h : v.order w = .eq)
    (x : PackageVersion) :
    v.order x = w.order x ∧ x.order v = x.order w :=
  ⟨Std.TransCmp.congr_left h, Std.TransCmp.congr_right h⟩

------------------------------------------------------------
-- Before and after
------------------------------------------------------------

theorem le_iff_isLE :
    v.le w = true ↔ (v.order w).isLE = true := by
  rw [← notAfter_eq_isLE]
  rfl

theorem lt_iff :
    v.lt w = true ↔ v.order w = .lt :=
  beq_iff_eq

theorem le_refl
    (v : PackageVersion) :
    v.le v = true := by
  have hSelf : v.order v = .eq := Std.ReflCmp.compare_self
  rw [le_iff_isLE, hSelf]
  rfl

theorem le_trans
    (hvw : v.le w = true)
    (hwx : w.le x = true) :
    v.le x = true := by
  rw [le_iff_isLE] at hvw hwx ⊢
  exact Std.TransCmp.isLE_trans hvw hwx

theorem lt_of_le_of_lt
    (hvw : v.le w = true)
    (hwx : w.lt x = true) :
    v.lt x = true := by
  rw [le_iff_isLE] at hvw
  rw [lt_iff] at hwx ⊢
  exact Std.TransCmp.lt_of_isLE_of_lt hvw hwx

theorem lt_of_lt_of_le
    (hvw : v.lt w = true)
    (hwx : w.le x = true) :
    v.lt x = true := by
  rw [le_iff_isLE] at hwx
  rw [lt_iff] at hvw ⊢
  exact Std.TransCmp.lt_of_lt_of_isLE hvw hwx

theorem same_comm
    (v w : PackageVersion) :
    v.same w = w.same v := by
  have hSwap : w.order v = (v.order w).swap := Std.OrientedCmp.eq_swap
  rw [same, same, hSwap]
  cases v.order w <;> rfl

/- Versions are the same when neither comes before the other. -/
theorem same_iff_le :
    v.same w = true ↔ v.le w = true ∧ w.le v = true := by
  have hSwap : w.order v = (v.order w).swap := Std.OrientedCmp.eq_swap
  rw [same, le, le, hSwap]
  cases v.order w <;> decide

theorem lt_iff_le_and_same :
    v.lt w = true ↔ v.le w = true ∧ v.same w = false := by
  rw [lt, le, same]
  cases v.order w <;> decide

------------------------------------------------------------
-- Sorted lists
------------------------------------------------------------

theorem sort_sorted
    (vs : List PackageVersion) :
    (sort vs).Pairwise fun v w => v.le w = true :=
  sorted_mergeSort order vs

theorem sort_perm
    (vs : List PackageVersion) :
    (sort vs).Perm vs :=
  List.mergeSort_perm vs le

/- Versions that are the same keep their order. -/
theorem sort_filter_same
    (vs : List PackageVersion)
    (v : PackageVersion) :
    (sort vs).filter v.same = vs.filter v.same :=
  filter_mergeSort order v vs

theorem dropRepeatedAfter_sublist
    (v : PackageVersion)
    (vs : List PackageVersion) :
    (dropRepeatedAfter v vs).Sublist vs := by
  induction vs generalizing v with
  | nil => exact List.Sublist.slnil
  | cons w r ih =>
      rw [dropRepeatedAfter]
      split
      · exact (ih v).cons w
      · exact (ih w).cons_cons w

theorem dropRepeatedAfter_ascends
    (h : (v :: vs).Pairwise fun v w => v.le w = true) :
    (v :: dropRepeatedAfter v vs).Pairwise fun v w => v.order w = .lt := by
  induction vs generalizing v with
  | nil => exact List.pairwise_singleton _ v
  | cons w r ih =>
      rw [dropRepeatedAfter]
      rcases List.pairwise_cons.mp h with ⟨hFirst, hRest⟩
      split
      · exact ih (h.sublist ((List.sublist_cons_self w r).cons_cons v))
      · next hOther =>
          have hBefore : v.order w = .lt :=
            lt_iff.mp (lt_iff_le_and_same.mpr
              ⟨hFirst w List.mem_cons_self, by simpa using hOther⟩)
          have hAscends := ih hRest
          refine List.pairwise_cons.mpr ⟨fun x hx => ?_, hAscends⟩
          rcases List.mem_cons.mp hx with rfl | hLater
          · exact hBefore
          · exact Std.TransCmp.lt_trans hBefore
              ((List.pairwise_cons.mp hAscends).1 x hLater)

theorem dropRepeated_sublist
    (vs : List PackageVersion) :
    (dropRepeated vs).Sublist vs := by
  cases vs with
  | nil => exact List.Sublist.slnil
  | cons v r => exact (dropRepeatedAfter_sublist v r).cons_cons v

/- Without its repeats a sorted list ascends strictly. -/
theorem dropRepeated_ascends
    (h : vs.Pairwise fun v w => v.le w = true) :
    (dropRepeated vs).Pairwise fun v w => v.order w = .lt := by
  cases vs with
  | nil => exact List.Pairwise.nil
  | cons v r => exact dropRepeatedAfter_ascends h

theorem represents_dropRepeatedAfter_iff :
    Represents order (v :: dropRepeatedAfter v vs) x ↔
      Represents order (v :: vs) x := by
  induction vs generalizing v with
  | nil => rfl
  | cons w r ih =>
      rw [dropRepeatedAfter]
      split
      · next hSame =>
          have hEq := (order_congr (same_iff.mp hSame) x).2
          rw [ih, represents_cons, represents_cons, represents_cons, hEq]
          tauto
      · rw [represents_cons, ih, ← represents_cons]

/- Only versions go whose like stays. -/
theorem represents_dropRepeated_iff :
    Represents order (dropRepeated vs) x ↔ Represents order vs x := by
  cases vs with
  | nil => rfl
  | cons v r => exact represents_dropRepeatedAfter_iff

theorem represents_iff_any :
    Represents order vs x ↔ vs.any x.same = true := by
  simp [Represents, same_iff]

theorem any_same_arranged
    (vs : List PackageVersion)
    (v : PackageVersion) :
    (dropRepeated (sort vs)).any v.same = vs.any v.same := by
  rw [Bool.eq_iff_iff, ← represents_iff_any, ← represents_iff_any,
    represents_dropRepeated_iff]
  simp only [Represents, (sort_perm vs).mem_iff]

/- A search tree holds what a search through the list finds. -/
theorem contains_treeSet
    (vs : List PackageVersion)
    (v : PackageVersion) :
    (Std.TreeSet.ofList vs order).contains v = vs.any v.same := by
  let _ : BEq PackageVersion := ⟨same⟩
  have : Std.LawfulBEqCmp order := ⟨same_iff.symm⟩
  rw [Std.TreeSet.contains_ofList, List.contains_eq_any_beq]
  rfl

/-
  The order of versions is a total order, up to versions
  that are the same.  Sorting is stable, dropping the repeats
  of a sorted list leaves one version for all that are the
  same, and what is left depends only on which versions there
  were.
-/
theorem order_isLawful
    (v w x : PackageVersion)
    (vs ws : List PackageVersion) :
    v.order v = .eq ∧
      w.order v = (v.order w).swap ∧
      (v.order w = .lt → w.order x = .lt → v.order x = .lt) ∧
      (v.order w = .eq → w.order x = .eq → v.order x = .eq) ∧
      (v.order w = .eq → v.order x = w.order x ∧ x.order v = x.order w) ∧
      (v.same w = true ↔ v.order w = .eq) ∧
      (sort vs).Perm vs ∧
      (sort vs).Pairwise (fun a b => a.le b = true) ∧
      (sort vs).filter v.same = vs.filter v.same ∧
      (dropRepeated (sort vs)).Sublist (sort vs) ∧
      (dropRepeated (sort vs)).Pairwise (fun a b => a.order b = .lt) ∧
      (dropRepeated (sort vs)).any v.same = vs.any v.same ∧
      ((∀ a : PackageVersion, vs.any a.same = ws.any a.same) →
        List.Forall₂ (fun a b => a.same b = true)
          (dropRepeated (sort vs)) (dropRepeated (sort ws))) ∧
      (Std.TreeSet.ofList vs order).contains v = vs.any v.same := by
  have hAscends := fun vs => dropRepeated_ascends (sort_sorted vs)
  refine ⟨Std.ReflCmp.compare_self, Std.OrientedCmp.eq_swap,
    Std.TransCmp.lt_trans, Std.TransCmp.eq_trans, fun h => order_congr h x,
    same_iff, sort_perm vs, sort_sorted vs, sort_filter_same vs v,
    dropRepeated_sublist _, hAscends vs, any_same_arranged vs v, fun hAny => ?_,
    contains_treeSet vs v⟩
  have hSame := forall₂_of_represents (hAscends vs) (hAscends ws) fun a => by
    rw [represents_iff_any, represents_iff_any, any_same_arranged,
      any_same_arranged, hAny a]
  exact hSame.imp fun _ _ => same_iff.mpr

end Retarget.PackageVersion
