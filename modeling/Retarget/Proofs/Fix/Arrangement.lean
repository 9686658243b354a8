import Mathlib.Data.List.Dedup
import Mathlib.Data.List.Sort
import Mathlib.Data.Prod.Lex
import Mathlib.Data.String.Basic
import Retarget.Fix.Edit

/-
  This file shows that edits are arranged strictly by a
  linear order.  The arrangement of edits depends on which
  edits there are, and neither on their order nor on how
  often each of them is given.

  Key definitions include:
    * `TextEdit.key`
    * `TextEdit.IsBefore`

  Key statements include:
    * `TextEdit.isBefore_trichotomy`
    * `TextEdit.arrange_sorted`
    * `TextEdit.mem_arrange`
    * `TextEdit.arrange_perm_dedup`
    * `TextEdit.arrange_eq_of_perm`
-/

namespace Retarget.TextEdit

variable {a b c e : TextEdit}
variable {edits others : List TextEdit}

------------------------------------------------------------
-- The order of edits
------------------------------------------------------------

/- What edits are compared by, from the first to the last. -/
def key (e : TextEdit) : Nat ×ₗ Nat ×ₗ String :=
  toLex (e.span.start, toLex (e.span.stop, e.newText))

def IsBefore (a b : TextEdit) : Prop :=
  a.order b = .lt

instance (a b : TextEdit) : Decidable (a.IsBefore b) := by
  unfold IsBefore
  infer_instance

theorem key_inj :
    a.key = b.key ↔ a = b := by
  obtain ⟨⟨start, stop⟩, newText⟩ := a
  obtain ⟨⟨start', stop'⟩, newText'⟩ := b
  simp [key, and_assoc]

theorem order_eq_compare
    (a b : TextEdit) :
    a.order b = compare a.key b.key := by
  simp only [order, Span.order, key, Prod.Lex.compare_def, compareLex,
    compareOn, ofLex_toLex, Ordering.then_assoc]
  rfl

theorem isBefore_iff :
    a.IsBefore b ↔ a.key < b.key := by
  rw [IsBefore, order_eq_compare, compare_lt_iff_lt]

theorem le_iff :
    le a b = true ↔ a.key ≤ b.key := by
  rw [le, bne_iff_ne, order_eq_compare, compare_le_iff_le]

theorem IsBefore.ne
    (h : a.IsBefore b) :
    a ≠ b := by
  rintro rfl
  exact lt_irrefl _ (isBefore_iff.mp h)

theorem IsBefore.asymm
    (h : a.IsBefore b) :
    ¬ b.IsBefore a :=
  fun h' => lt_asymm (isBefore_iff.mp h) (isBefore_iff.mp h')

theorem isBefore_of_le_of_ne
    (hle : le a b = true)
    (hne : a ≠ b) :
    a.IsBefore b :=
  isBefore_iff.mpr (lt_of_le_of_ne (le_iff.mp hle) fun hKey => hne (key_inj.mp hKey))

theorem isBefore_trichotomy
    (a b : TextEdit) :
    a.IsBefore b ∨ a = b ∨ b.IsBefore a := by
  rw [isBefore_iff, isBefore_iff, ← key_inj]
  exact lt_trichotomy a.key b.key

/- An edit before another one starts no later. -/
theorem IsBefore.start_le
    (h : a.IsBefore b) :
    a.span.start ≤ b.span.start := by
  rcases Prod.Lex.lt_iff.mp (isBefore_iff.mp h) with hLess | ⟨hEq, -⟩
  · exact le_of_lt hLess
  · exact le_of_eq hEq

/- Of two edits that start together the earlier stops no later. -/
theorem IsBefore.stop_le
    (h : a.IsBefore b)
    (hStart : a.span.start = b.span.start) :
    a.span.stop ≤ b.span.stop := by
  rcases Prod.Lex.lt_iff.mp (isBefore_iff.mp h) with hLess | ⟨-, hRest⟩
  · exact absurd hStart (ne_of_lt hLess)
  · rcases Prod.Lex.lt_iff.mp hRest with hLess | ⟨hEq, -⟩
    · exact le_of_lt hLess
    · exact le_of_eq hEq

------------------------------------------------------------
-- Arranged edits
------------------------------------------------------------

theorem mergeSort_sorted
    (edits : List TextEdit) :
    (edits.mergeSort le).Pairwise fun a b => le a b = true := by
  apply List.pairwise_mergeSort
  · intro a b c hab hbc
    exact le_iff.mpr (le_trans (le_iff.mp hab) (le_iff.mp hbc))
  · intro a b
    rw [Bool.or_eq_true, le_iff, le_iff]
    exact le_total a.key b.key

theorem mem_dropRepeats
    (e : TextEdit)
    (edits : List TextEdit) :
    e ∈ dropRepeats edits ↔ e ∈ edits := by
  induction edits using dropRepeats.induct with
  | case1 => exact Iff.rfl
  | case2 e' => exact Iff.rfl
  | case3 a r ih =>
      rw [dropRepeats, if_pos rfl, ih]
      simp
  | case4 a b r hne ih =>
      rw [dropRepeats, if_neg hne, List.mem_cons, ih, List.mem_cons (b := a)]

/- In a sorted list equal edits are neighbours. -/
theorem dropRepeats_sorted
    (hSorted : edits.Pairwise fun a b => le a b = true) :
    (dropRepeats edits).Pairwise IsBefore := by
  induction edits using dropRepeats.induct with
  | case1 => exact List.Pairwise.nil
  | case2 e => exact List.pairwise_singleton _ _
  | case3 a r ih =>
      rw [dropRepeats, if_pos rfl]
      exact ih (List.pairwise_cons.mp hSorted).2
  | case4 a b r hne ih =>
      rcases List.pairwise_cons.mp hSorted with ⟨hFirst, hRest⟩
      rw [dropRepeats, if_neg hne]
      refine List.pairwise_cons.mpr ⟨fun e he => ?_, ih hRest⟩
      have hab := isBefore_of_le_of_ne (hFirst b List.mem_cons_self) hne
      rcases List.mem_cons.mp ((mem_dropRepeats e _).mp he) with rfl | he
      · exact hab
      · have hbe := (List.pairwise_cons.mp hRest).1 e he
        exact isBefore_iff.mpr
          (lt_of_lt_of_le (isBefore_iff.mp hab) (le_iff.mp hbe))

theorem arrange_sorted
    (edits : List TextEdit) :
    (arrange edits).Pairwise IsBefore :=
  dropRepeats_sorted (mergeSort_sorted edits)

theorem mem_arrange :
    e ∈ arrange edits ↔ e ∈ edits := by
  rw [arrange, mem_dropRepeats, List.mem_mergeSort]

theorem arrange_nodup
    (edits : List TextEdit) :
    (arrange edits).Nodup :=
  (arrange_sorted edits).imp IsBefore.ne

theorem arrange_perm_dedup
    (edits : List TextEdit) :
    (arrange edits).Perm edits.dedup := by
  rw [List.perm_ext_iff_of_nodup (arrange_nodup edits) edits.nodup_dedup]
  intro e
  rw [mem_arrange, List.mem_dedup]

theorem arrange_eq_of_perm
    (hPerm : edits.Perm others) :
    arrange edits = arrange others := by
  have hSame : (arrange edits).Perm (arrange others) := by
    rw [List.perm_ext_iff_of_nodup (arrange_nodup edits) (arrange_nodup others)]
    intro e
    rw [mem_arrange, mem_arrange, hPerm.mem_iff]
  exact hSame.eq_of_pairwise (fun a b _ _ hab hba => absurd hba hab.asymm)
    (arrange_sorted edits) (arrange_sorted others)

end Retarget.TextEdit
