import Retarget.Path

/-
  This file shows that the orders of texts and of paths are
  orders, and that a path's order tells it from all paths
  but its other spellings.

  Key statements include:
    * `Path.order_eq_iff`
    * `Path.same_iff`
-/

namespace Retarget

theorem transCmp_on
    {α β : Type}
    (f : α → β)
    (cmp : β → β → Ordering)
    [Std.TransCmp cmp] :
    Std.TransCmp fun a b => cmp (f a) (f b) where
  eq_swap := Std.OrientedCmp.eq_swap
  isLE_trans := Std.TransCmp.isLE_trans

instance : Std.TransCmp Text.order :=
  inferInstanceAs (Std.TransCmp (compare : String → String → Ordering))

instance : Std.LawfulEqCmp Text.order :=
  inferInstanceAs (Std.LawfulEqCmp (compare : String → String → Ordering))

namespace Path

theorem Component.order_eq :
    Component.order =
      compareLex (compareOn Component.rank) (compareOn Component.text) := by
  funext a b
  cases a <;> cases b <;> rfl

instance : Std.TransCmp Component.order := by
  rw [Component.order_eq]
  infer_instance

instance : Std.LawfulEqCmp Component.order where
  eq_of_compare {a b} h := by
    cases a <;> cases b <;> simp_all [Component.order, Component.rank]

instance : Std.TransCmp Path.order :=
  transCmp_on components (List.compareLex Component.order)

/- The order tells paths apart that are not the same. -/
theorem order_eq_iff
    {p q : Path} :
    p.order q = .eq ↔ p.components = q.components := by
  constructor
  · intro hEq
    exact Std.LawfulEqCmp.eq_of_compare
      (show List.compareLex Component.order _ _ = .eq from hEq)
  · intro hSame
    rw [Path.order, hSame]
    exact Std.ReflCmp.compare_self

theorem same_iff
    {p q : Path} :
    p.same q = true ↔ p.components = q.components := by
  simp [Path.same]

end Path

end Retarget
