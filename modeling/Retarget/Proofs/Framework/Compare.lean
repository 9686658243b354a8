import Retarget.Proofs.Framework.Same

/-
  This file shows that comparing frameworks is a preorder in
  disguise.  A framework that is not less than another one
  can use it, frameworks are equal when they use each other,
  and a missing framework comes before all the others.

  Key statements include:
    * `Moniker.compare_eq_eq_iff`
    * `Moniker.compare_eq_gt_iff`
    * `Moniker.compareOption_ne_lt_iff`
    * `Moniker.compareOption_trans`
    * `Moniker.compare_preorder`
-/

namespace Retarget.Moniker

variable {x y : Moniker}
variable {a b c : Option Moniker}

------------------------------------------------------------
-- Comparing two frameworks
------------------------------------------------------------

theorem compare_eq_eq_iff :
    x.compare y = .eq ↔
      x.consumes y = true ∧ y.consumes x = true := by
  rw [compare_eq]
  cases x.consumes y <;> cases y.consumes x <;> simp

theorem compare_eq_gt_iff :
    x.compare y = .gt ↔
      x.consumes y = true ∧ y.consumes x = false := by
  rw [compare_eq]
  cases x.consumes y <;> cases y.consumes x <;> simp

/- Only one of the two directions is greater. -/
theorem compare_eq_lt_of_eq_gt
    (h : x.compare y = .gt) :
    y.compare x = .lt := by
  rw [compare_eq_gt_iff] at h
  rw [compare_eq]
  simp [h.2]

------------------------------------------------------------
-- Missing frameworks
------------------------------------------------------------

/-
  Not being less means that what there is on the right can
  be used by what there is on the left.
-/
theorem compareOption_ne_lt_iff :
    compareOption a b ≠ .lt ↔
      ∀ y ∈ b, ∃ x ∈ a, x.consumes y = true := by
  cases a <;> cases b <;>
    simp [compareOption, compare_ne_lt_iff]

theorem compareOption_trans
    (hab : compareOption a b ≠ .lt)
    (hbc : compareOption b c ≠ .lt) :
    compareOption a c ≠ .lt := by
  rw [compareOption_ne_lt_iff] at *
  intro z hz
  rcases hbc z hz with ⟨y, hy, hyz⟩
  rcases hab y hy with ⟨x, hx, hxy⟩
  exact ⟨x, hx, consumes_trans hxy hyz⟩

theorem compareOption_eq_lt_of_eq_gt
    (h : compareOption a b = .gt) :
    compareOption b a = .lt := by
  cases a with
  | none => cases b <;> cases h
  | some x =>
      cases b with
      | none => rfl
      | some y => exact compare_eq_lt_of_eq_gt h

------------------------------------------------------------
-- A preorder
------------------------------------------------------------

/-
  What a framework can use decides how it compares, and a
  missing framework is less than every other one.
-/
theorem compare_preorder
    (hx : x.IsRead)
    (hy : y.IsRead)
    (z : Moniker) :
    (x.compare y ≠ .lt ↔ x.consumes y = true) ∧
      x.consumes x = true ∧
      (x.consumes y = true → y.consumes z = true →
        x.consumes z = true) ∧
      (x.compare y = .eq ↔
        x.family = y.family ∧
          x.version.same y.version = true ∧
          x.platform = y.platform ∧
          x.platformVersionOrZero.same
            y.platformVersionOrZero = true) ∧
      (x.compare y = .gt → y.compare x = .lt) ∧
      compareOption none none = .eq ∧
      compareOption none (some x) = .lt ∧
      compareOption (some x) none = .gt ∧
      compareOption (some x) (some y) = x.compare y ∧
      (∀ a b : Option Moniker,
        compareOption a b = .gt → compareOption b a = .lt) ∧
      ∀ a b c : Option Moniker,
        compareOption a b ≠ .lt → compareOption b c ≠ .lt →
          compareOption a c ≠ .lt := by
  refine
    ⟨compare_ne_lt_iff, consumes_refl x, consumes_trans, ?_,
      compare_eq_lt_of_eq_gt, rfl, rfl, rfl, rfl, ?_, ?_⟩
  · rw [compare_eq_eq_iff]
    exact consumes_and_iff hx.proper hy.proper
  · intro a b
    exact compareOption_eq_lt_of_eq_gt
  · intro a b c
    exact compareOption_trans

/-
  A platform version of zero is equal to none, and both can
  use .NET Standard 2.1.
-/
theorem compare_preorder_of_windows :
    let plain : Moniker :=
      ⟨.netCoreApp, .ofPair 6 0, some "windows", none⟩
    let zero : Moniker :=
      ⟨.netCoreApp, .ofPair 6 0, some "windows", some .zero⟩
    plain.IsRead ∧
      zero.IsRead ∧
      plain.compare zero = .eq ∧
      plain.consumes zero = true ∧
      zero.consumes netStandard21 = true ∧
      plain.consumes netStandard21 = true ∧
      compareOption none (some plain) = .lt := by
  intro plain zero
  have hPlain : plain.IsRead :=
    ⟨"net6.0-windows", Or.inl (by decide)⟩
  have hZero : zero.IsRead :=
    ⟨"net6.0-windows0.0", Or.inl (by decide)⟩
  have hUses : plain.consumes zero = true := by decide
  have hUsed : zero.consumes netStandard21 = true := by decide
  rcases compare_preorder hPlain hZero netStandard21 with
    ⟨_, _, hTrans, hEqual, _, _, hLeast, _⟩
  refine
    ⟨hPlain, hZero, hEqual.mpr ?_, hUses, hUsed,
      hTrans hUses hUsed, hLeast⟩
  decide

end Retarget.Moniker
