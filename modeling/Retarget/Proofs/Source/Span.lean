import Mathlib.Data.List.Pairwise
import Retarget.Source.Span
import Retarget.Proofs.Text.Offset
import Retarget.Proofs.Text.Search

/-
  This file defines spans that lie in a text and rows of
  them that follow each other.

  Key definitions include:
    * `Span.IsIn`
    * `Span.IsOnLine`
    * `Span.IsWord`
    * `Span.Row`

  Key statements include:
    * `Span.isIn_pieces`
    * `Span.IsOnLine.stop_lt_or_le_start`
    * `Span.IsOnLine.stop_ne`
    * `Span.Row.append`
    * `Span.Row.starts_lt`
    * `Span.Row.eq_of_stop_eq`
-/

namespace Retarget.Span

variable {text : List Char}
variable {s t : Span}
variable {spans others : List Span}
variable {start middle stop : Nat}
variable {a b : List Char}

/- The span lies in a text, its ends between characters. -/
structure IsIn (text : List Char) (s : Span) : Prop where
  start_le_stop : s.start ≤ s.stop
  start_isBoundary : Text.isBoundary s.start text = true
  stop_isBoundary : Text.isBoundary s.stop text = true

theorem isIn_pieces
    (a p b : List Char) :
    IsIn (a ++ p ++ b) ⟨Text.byteLength a, Text.byteLength (a ++ p)⟩ where
  start_le_stop := by
    simp only [Text.byteLength_append]
    omega
  start_isBoundary := by
    rw [List.append_assoc]
    exact Text.isBoundary_byteLength a (p ++ b)
  stop_isBoundary := Text.isBoundary_byteLength (a ++ p) b

/- The span from the start of one to the end of a later one. -/
theorem IsIn.join
    (hs : s.IsIn text)
    (ht : t.IsIn text)
    (hOrder : s.start ≤ t.start) :
    IsIn text ⟨s.start, t.stop⟩ where
  start_le_stop := hOrder.trans ht.start_le_stop
  start_isBoundary := hs.start_isBoundary
  stop_isBoundary := ht.stop_isBoundary

/- The span does not go on behind its line. -/
def IsOnLine (text : List Char) (s : Span) : Prop :=
  ∃ a p b, a ++ p ++ b = text ∧ Text.byteLength a = s.start ∧
    Text.byteLength (a ++ p) = s.stop ∧ '\n' ∉ p

/- The span has text, all of it on one line. -/
structure IsWord (text : List Char) (s : Span) : Prop where
  start_lt_stop : s.start < s.stop
  isOnLine : s.IsOnLine text

theorem isWord_pieces
    (a b : List Char)
    {p : List Char}
    (hSome : p ≠ [])
    (hLine : '\n' ∉ p) :
    IsWord (a ++ p ++ b) ⟨Text.byteLength a, Text.byteLength (a ++ p)⟩ where
  start_lt_stop := by
    have hLong : Text.byteLength p ≠ 0 :=
      fun hZero => hSome (Text.byteLength_eq_zero_iff.mp hZero)
    simp only [Text.byteLength_append]
    omega
  isOnLine := ⟨a, p, b, rfl, rfl, rfl, hLine⟩

theorem IsOnLine.start_le_stop
    (h : s.IsOnLine text) :
    s.start ≤ s.stop := by
  rcases h with ⟨a, p, b, -, hStart, hStop, -⟩
  rw [← hStart, ← hStop, Text.byteLength_append]
  exact Nat.le_add_right _ _

/- What is on one line is in front of the start of a line or behind it. -/
theorem IsOnLine.stop_lt_or_le_start
    (h : s.IsOnLine (a ++ b))
    (hLine : Text.EndsLine a) :
    s.stop < Text.byteLength a ∨ Text.byteLength a ≤ s.start := by
  rcases h with ⟨c, p, d, hText, hStart, hStop, hOther⟩
  by_contra hAcross
  rw [not_or, Nat.not_lt, Nat.not_le, ← hStart, ← hStop] at hAcross
  rw [List.append_assoc] at hText
  rcases Text.exists_append_of_byteLength_le hText hAcross.2.le with
    ⟨q, rfl, hRest⟩
  rcases List.eq_nil_or_concat q with rfl | ⟨init, last, rfl⟩
  · simp at hAcross
  · rw [List.concat_eq_append] at hRest hLine hAcross
    have hNewline : last = '\n' := hLine last (by simp)
    have hLength : Text.byteLength (init ++ [last]) ≤ Text.byteLength p := by
      have hBoth := hAcross.1
      rw [Text.byteLength_append, Text.byteLength_append c] at hBoth
      omega
    rcases Text.exists_append_of_byteLength_le hRest.symm hLength with
      ⟨more, rfl, -⟩
    exact hOther (by simp [hNewline])

/- Only an empty span ends where a line starts. -/
theorem IsOnLine.stop_ne
    (h : s.IsOnLine (a ++ b))
    (hLine : Text.EndsLine a)
    (hSome : s ≠ ⟨Text.byteLength a, Text.byteLength a⟩) :
    s.stop ≠ Text.byteLength a := by
  intro hStop
  have hOrder := h.start_le_stop
  rcases h.stop_lt_or_le_start hLine with hBefore | hBehind
  · omega
  · have hStart : s.start = Text.byteLength a := by omega
    exact hSome (Span.ext hStart hStop)

/-
  Spans of a text one after the other, from some offset up
  to another.
-/
structure Row
    (text : List Char)
    (start stop : Nat)
    (spans : List Span) : Prop where
  isIn : ∀ s ∈ spans, s.IsIn text
  start_le : ∀ s ∈ spans, start ≤ s.start
  le_stop : ∀ s ∈ spans, s.stop ≤ stop
  apart : spans.Pairwise fun s t => s.stop ≤ t.start

theorem Row.nil
    (text : List Char)
    (start stop : Nat) :
    Row text start stop [] where
  isIn := by simp
  start_le := by simp
  le_stop := by simp
  apart := List.Pairwise.nil

theorem Row.singleton
    (hs : s.IsIn text)
    (hStart : start ≤ s.start)
    (hStop : s.stop ≤ stop) :
    Row text start stop [s] where
  isIn := by simpa using hs
  start_le := by simpa using hStart
  le_stop := by simpa using hStop
  apart := List.pairwise_singleton _ _

theorem Row.append
    (h : Row text start middle spans)
    (h' : Row text middle stop others)
    (hStart : start ≤ middle)
    (hStop : middle ≤ stop) :
    Row text start stop (spans ++ others) where
  isIn s hs := (List.mem_append.mp hs).elim (h.isIn s) (h'.isIn s)
  start_le s hs :=
    (List.mem_append.mp hs).elim (h.start_le s)
      fun hs => hStart.trans (h'.start_le s hs)
  le_stop s hs :=
    (List.mem_append.mp hs).elim
      (fun hs => (h.le_stop s hs).trans hStop) (h'.le_stop s)
  apart :=
    List.pairwise_append.mpr ⟨h.apart, h'.apart, fun s hs t ht =>
      (h.le_stop s hs).trans (h'.start_le t ht)⟩

theorem Row.mono_start
    (h : Row text middle stop spans)
    (hStart : start ≤ middle) :
    Row text start stop spans where
  isIn := h.isIn
  start_le s hs := hStart.trans (h.start_le s hs)
  le_stop := h.le_stop
  apart := h.apart

theorem Row.starts_lt
    (h : Row text start stop spans)
    (hNonempty : ∀ s ∈ spans, s.start < s.stop) :
    (spans.map Span.start).Pairwise (· < ·) :=
  List.pairwise_map.mpr <|
    h.apart.imp_of_mem fun hs _ hApart => (hNonempty _ hs).trans_le hApart

/- No two words of a row end at the same place. -/
theorem Row.eq_of_stop_eq
    (h : Row text start stop spans)
    (hNonempty : ∀ s ∈ spans, s.start < s.stop)
    (hs : s ∈ spans)
    (ht : t ∈ spans)
    (hStop : s.stop = t.stop) :
    s = t := by
  by_contra hNe
  have : Std.Symm fun a b : Span => a.stop ≤ b.start ∨ b.stop ≤ a.start :=
    ⟨fun _ _ hOr => hOr.symm⟩
  have hApart : spans.Pairwise fun a b => a.stop ≤ b.start ∨ b.stop ≤ a.start :=
    h.apart.imp Or.inl
  have hs' := hNonempty s hs
  have ht' := hNonempty t ht
  rcases hApart.forall hs ht hNe with hBefore | hBehind
  · omega
  · omega

end Retarget.Span
