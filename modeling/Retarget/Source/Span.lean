/-
  This file defines byte ranges of a text.

  Key definitions include:
    * `Span`
    * `Span.length`
    * `Span.Overlaps`
    * `Span.Contains`
    * `Span.order`

  Key statements include:
    * `Span.Overlaps.symm`
    * `Span.order_eq_iff`
-/

namespace Retarget

/-
  The bytes from `start` up to and without `stop`.  A span
  whose end lies before its start holds nothing.
-/
@[ext]
structure Span where
  start : Nat
  stop : Nat
  deriving Repr, DecidableEq, Inhabited

namespace Span

def length (s : Span) : Nat :=
  s.stop - s.start

def isEmpty (s : Span) : Bool :=
  s.length == 0

/- Each of two spans starts before the other ends. -/
def Overlaps (s t : Span) : Prop :=
  s.start < t.stop ∧ t.start < s.stop

instance (s t : Span) : Decidable (s.Overlaps t) := by
  unfold Overlaps
  infer_instance

def Contains (s : Span) (offset : Nat) : Prop :=
  s.start ≤ offset ∧ offset < s.stop

instance (s : Span) (offset : Nat) : Decidable (s.Contains offset) := by
  unfold Contains
  infer_instance

/- Spans are ordered by their starts and then by their ends. -/
def order (s t : Span) : Ordering :=
  (compare s.start t.start).then (compare s.stop t.stop)

theorem Overlaps.symm
    {s t : Span}
    (h : s.Overlaps t) :
    t.Overlaps s :=
  ⟨h.2, h.1⟩

theorem order_eq_iff
    {s t : Span} :
    s.order t = .eq ↔ s = t := by
  cases s
  cases t
  simp [order, Ordering.then_eq_eq]

end Span

end Retarget
