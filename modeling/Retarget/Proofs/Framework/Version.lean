import Retarget.Framework.Version

/-
  This file shows that versions are ordered: any two compare,
  and two of which neither is the later one are the same.

  Key statements include:
    * `FrameworkVersion.le_trans`
    * `FrameworkVersion.le_total`
    * `FrameworkVersion.same_iff_le`
    * `FrameworkVersion.major_le_of_le`
-/

namespace Retarget.FrameworkVersion

variable {v w x : FrameworkVersion}

------------------------------------------------------------
-- Order
------------------------------------------------------------

instance : Std.TransCmp order where
  eq_swap := by
    intro v w
    change
      List.compareLex compare v.numbers w.numbers =
        (List.compareLex compare w.numbers v.numbers).swap
    exact Std.OrientedCmp.eq_swap
  isLE_trans := by
    intro v w x hvw hwx
    change
      (List.compareLex compare v.numbers w.numbers).isLE =
        true at hvw
    change
      (List.compareLex compare w.numbers x.numbers).isLE =
        true at hwx
    change
      (List.compareLex compare v.numbers x.numbers).isLE =
        true
    exact Std.TransCmp.isLE_trans hvw hwx

theorem order_eq_eq_iff :
    v.order w = .eq ↔ v.numbers = w.numbers := by
  change
    List.compareLex compare v.numbers w.numbers = .eq ↔
      v.numbers = w.numbers
  exact Std.LawfulEqCmp.compare_eq_iff_eq

theorem order_swap
    (v w : FrameworkVersion) :
    w.order v = (v.order w).swap :=
  Std.OrientedCmp.eq_swap

theorem le_eq_isLE
    (v w : FrameworkVersion) :
    v.le w = (v.order w).isLE := by
  unfold le
  cases v.order w <;> rfl

theorem le_refl
    (v : FrameworkVersion) :
    v.le v = true := by
  rw [le_eq_isLE, order_self]
  rfl

theorem le_trans
    (hvw : v.le w = true)
    (hwx : w.le x = true) :
    v.le x = true := by
  rw [le_eq_isLE] at *
  exact Std.TransCmp.isLE_trans hvw hwx

theorem le_total
    (v w : FrameworkVersion) :
    v.le w = true ∨ w.le v = true := by
  simp only [le_eq_isLE]
  rw [order_swap v w]
  cases v.order w <;> simp

/- Versions are the same when neither is the later one. -/
theorem same_iff_le :
    v.same w = true ↔ v.le w = true ∧ w.le v = true := by
  unfold same
  rw [beq_iff_eq, ← order_eq_eq_iff, le_eq_isLE,
    le_eq_isLE, order_swap v w]
  cases v.order w <;> simp

theorem le_of_order_ne_gt
    (h : v.order w ≠ .gt) :
    v.le w = true := by
  rw [le_eq_isLE]
  cases hOrder : v.order w <;> simp_all

theorem le_of_order_eq_gt
    (h : v.order w = .gt) :
    w.le v = true := by
  rw [le_eq_isLE, order_swap v w, h]
  rfl

theorem zero_le
    (v : FrameworkVersion) :
    zero.le v = true := by
  have hZero :
      ∀ n : Nat, compare 0 n = .lt ∨ compare 0 n = .eq := by
    intro n
    cases n with
    | zero => exact Or.inr rfl
    | succ n => exact Or.inl (Nat.compare_eq_lt.mpr (by omega))
  rw [le_eq_isLE]
  unfold order
  simp only [zero, ofPair, numbers, List.compareLex_cons_cons,
    List.compareLex_nil_nil]
  rcases hZero v.major with h | h <;>
    rcases hZero v.minor with h' | h' <;>
      rcases hZero v.build with h'' | h'' <;>
        rcases hZero v.revision with h''' | h''' <;>
          simp [h, h', h'', h''']

theorem major_le_of_le
    (h : v.le w = true) :
    v.major ≤ w.major := by
  apply Nat.not_lt.mp
  intro hLt
  have hGt : compare v.major w.major = .gt :=
    Nat.compare_eq_gt.mpr hLt
  rw [le_eq_isLE] at h
  simp [order, numbers, List.compareLex_cons_cons, hGt] at h

/- A version with the higher first number is the later one. -/
theorem le_of_major_lt
    (h : v.major < w.major) :
    v.le w = true := by
  rcases le_total v w with hLe | hLe
  · exact hLe
  · have hMajor := major_le_of_le hLe
    omega

------------------------------------------------------------
-- The later of two versions
------------------------------------------------------------

theorem le_max_left
    (v w : FrameworkVersion) :
    v.le (v.max w) = true := by
  unfold max
  split
  · exact le_refl v
  · exact le_of_order_ne_gt (by simp_all)

theorem le_max_right
    (v w : FrameworkVersion) :
    w.le (v.max w) = true := by
  unfold max
  split
  · exact le_of_order_eq_gt (by simp_all)
  · exact le_refl w

theorem max_le
    (hv : v.le x = true)
    (hw : w.le x = true) :
    (v.max w).le x = true := by
  unfold max
  split
  · exact hv
  · exact hw

theorem max_self
    (v : FrameworkVersion) :
    v.max v = v := by
  unfold max
  split <;> rfl

/- Taking the later version a second time changes nothing. -/
theorem max_max_left
    (v w : FrameworkVersion) :
    v.max (v.max w) = v.max w := by
  by_cases hGt : (v.order w == .gt) = true
  · simp [max, hGt]
  · simp [max, hGt]

end Retarget.FrameworkVersion
