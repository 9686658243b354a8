import Mathlib.Data.List.Sort

/-
  This file describes comparisons that need not tell all
  elements apart.  A stable sort puts a list in order and
  keeps the order of those that compare equal, and what
  ascends strictly is determined by what it stands for.

  Key definitions include:
    * `notAfter`
    * `absentLast`
    * `Represents`

  Key statements include:
    * `sorted_mergeSort`
    * `filter_mergeSort`
    * `forall₂_of_represents`
-/

namespace Retarget

variable {α : Type}
variable {cmp : α → α → Ordering}
variable {a b c : α}
variable {as bs : List α}

------------------------------------------------------------
-- Options
------------------------------------------------------------

/- What is there is compared, and what is absent comes last. -/
def absentLast (cmp : α → α → Ordering) : Option α → Option α → Ordering
  | none, none => .eq
  | none, some _ => .gt
  | some _, none => .lt
  | some a, some b => cmp a b

instance
    [Std.TransCmp cmp] :
    Std.TransCmp (absentLast cmp) where
  eq_swap := by
    intro a b
    cases a with
    | none => cases b <;> rfl
    | some a =>
        cases b with
        | none => rfl
        | some b =>
            change cmp a b = (cmp b a).swap
            exact Std.OrientedCmp.eq_swap
  isLE_trans := by
    intro a b c hab hbc
    cases c with
    | none => cases a <;> rfl
    | some c =>
        cases b with
        | none => cases hbc
        | some b =>
            cases a with
            | none => cases hab
            | some a =>
                change (cmp a b).isLE = true at hab
                change (cmp b c).isLE = true at hbc
                change (cmp a c).isLE = true
                exact Std.TransCmp.isLE_trans hab hbc

------------------------------------------------------------
-- Sorting
------------------------------------------------------------

/- The first element does not come after the second. -/
def notAfter (cmp : α → α → Ordering) (a b : α) : Bool :=
  cmp a b != .gt

theorem notAfter_eq_isLE
    (cmp : α → α → Ordering)
    (a b : α) :
    notAfter cmp a b = (cmp a b).isLE := by
  unfold notAfter
  cases cmp a b <;> rfl

variable [Std.TransCmp cmp]

theorem notAfter_trans
    (hab : notAfter cmp a b = true)
    (hbc : notAfter cmp b c = true) :
    notAfter cmp a c = true := by
  rw [notAfter_eq_isLE] at *
  exact Std.TransCmp.isLE_trans hab hbc

theorem notAfter_total
    (a b : α) :
    (notAfter cmp a b || notAfter cmp b a) = true := by
  have hSwap : cmp b a = (cmp a b).swap := Std.OrientedCmp.eq_swap
  rw [notAfter_eq_isLE, notAfter_eq_isLE, hSwap]
  cases cmp a b <;> rfl

theorem sorted_mergeSort
    (cmp : α → α → Ordering)
    [Std.TransCmp cmp]
    (as : List α) :
    (as.mergeSort (notAfter cmp)).Pairwise
      fun a b => notAfter cmp a b = true :=
  List.pairwise_mergeSort (fun _ _ _ => notAfter_trans) notAfter_total as

/- A sort keeps the order of those that compare equal. -/
theorem filter_mergeSort
    (cmp : α → α → Ordering)
    [Std.TransCmp cmp]
    (a : α)
    (as : List α) :
    ((as.mergeSort (notAfter cmp)).filter fun b => cmp a b == .eq) =
      as.filter fun b => cmp a b == .eq := by
  let like := fun (l : List α) => l.filter fun b => cmp a b == .eq
  have hSorted : (like as).Pairwise fun b c => notAfter cmp b c = true := by
    refine List.pairwise_of_forall_mem_list fun b hb c hc => ?_
    have hab : cmp a b = .eq := by simpa using (List.mem_filter.mp hb).2
    have hac : cmp a c = .eq := by simpa using (List.mem_filter.mp hc).2
    have hbc : cmp b c = .eq :=
      Std.TransCmp.eq_trans (Std.OrientedCmp.eq_symm hab) hac
    simp [notAfter, hbc]
  have hSub : (like as).Sublist (as.mergeSort (notAfter cmp)) :=
    List.sublist_mergeSort (fun _ _ _ => notAfter_trans) notAfter_total
      hSorted List.filter_sublist
  have hKept : like (like as) = like as := by
    simp [like]
  have hLike : (like as).Sublist (like (as.mergeSort (notAfter cmp))) := by
    rw [← hKept]
    exact hSub.filter _
  refine (hLike.eq_of_length ?_).symm
  exact ((List.mergeSort_perm as (notAfter cmp)).filter _).length_eq.symm

------------------------------------------------------------
-- Strictly ascending lists
------------------------------------------------------------

/- An element of the list compares equal to the given one. -/
def Represents (cmp : α → α → Ordering) (as : List α) (a : α) : Prop :=
  ∃ b ∈ as, cmp a b = .eq

omit [Std.TransCmp cmp] in
theorem represents_cons :
    Represents cmp (b :: bs) a ↔ cmp a b = .eq ∨ Represents cmp bs a := by
  simp [Represents]

theorem represents_of_mem
    (h : a ∈ as) :
    Represents cmp as a :=
  ⟨a, h, Std.ReflCmp.compare_self⟩

/- What compares equal is represented by the same lists. -/
theorem represents_congr
    (hSame : cmp a b = .eq) :
    Represents cmp as a ↔ Represents cmp as b := by
  constructor
  · rintro ⟨c, hc, hEq⟩
    exact ⟨c, hc, Std.TransCmp.eq_trans (Std.OrientedCmp.eq_symm hSame) hEq⟩
  · rintro ⟨c, hc, hEq⟩
    exact ⟨c, hc, Std.TransCmp.eq_trans hSame hEq⟩

/- What comes before all elements is not represented. -/
omit [Std.TransCmp cmp] in
theorem not_represents_of_before
    (h : ∀ b ∈ as, cmp a b = .lt) :
    ¬ Represents cmp as a := by
  rintro ⟨b, hb, hEq⟩
  rw [h b hb] at hEq
  cases hEq

theorem not_represents_of_head
    (hAscends : (b :: bs).Pairwise fun c d => cmp c d = .lt)
    (hBefore : cmp a b = .lt) :
    ¬ Represents cmp (b :: bs) a := by
  refine not_represents_of_before fun c hc => ?_
  rcases List.mem_cons.mp hc with rfl | hRest
  · exact hBefore
  · exact Std.TransCmp.lt_trans hBefore
      ((List.pairwise_cons.mp hAscends).1 c hRest)

/-
  A strictly ascending list is determined, up to elements
  that compare equal, by what it represents.
-/
theorem forall₂_of_represents
    (has : as.Pairwise fun c d => cmp c d = .lt)
    (hbs : bs.Pairwise fun c d => cmp c d = .lt)
    (h : ∀ c, Represents cmp as c ↔ Represents cmp bs c) :
    List.Forall₂ (fun a b => cmp a b = .eq) as bs := by
  induction as generalizing bs with
  | nil =>
      cases bs with
      | nil => exact .nil
      | cons b bs =>
          have hb := (h b).mpr (represents_of_mem List.mem_cons_self)
          simp [Represents] at hb
  | cons a as ih =>
      cases bs with
      | nil =>
          have ha := (h a).mp (represents_of_mem List.mem_cons_self)
          simp [Represents] at ha
      | cons b bs =>
          have ha := (h a).mp (represents_of_mem List.mem_cons_self)
          have hb := (h b).mpr (represents_of_mem List.mem_cons_self)
          have hSame : cmp a b = .eq := by
            cases hOrder : cmp a b with
            | lt => exact absurd ha (not_represents_of_head hbs hOrder)
            | eq => rfl
            | gt =>
                exact absurd hb (not_represents_of_head has
                  (Std.OrientedCmp.lt_of_gt hOrder))
          rcases List.pairwise_cons.mp has with ⟨hBefore, hRest⟩
          rcases List.pairwise_cons.mp hbs with ⟨hBefore', hRest'⟩
          refine .cons hSame (ih hRest hRest' fun c => ?_)
          -- What compares equal to the heads is in neither tail.
          by_cases hc : cmp c a = .eq
          · have hc' := Std.TransCmp.eq_trans hc hSame
            exact iff_of_false
              (mt (represents_congr hc).mp (not_represents_of_before hBefore))
              (mt (represents_congr hc').mp (not_represents_of_before hBefore'))
          · have hc' : cmp c b ≠ .eq := fun hEq =>
              hc (Std.TransCmp.eq_trans hEq (Std.OrientedCmp.eq_symm hSame))
            simpa [represents_cons, hc, hc'] using h c

end Retarget
