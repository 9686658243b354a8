import Mathlib.Data.List.Infix
import Retarget.Source.VisualBasic.Mask
import Retarget.Proofs.Text.Offset

/-
  This file relates a Visual Basic text to its blanked form.
  A cut of the blanked text that does not fall into blanks
  is a cut of the text.

  Key definitions include:
    * `VisualBasic.IsMask`
    * `VisualBasic.IsAmongBlanks`

  Key statements include:
    * `VisualBasic.isMask_mask`
    * `VisualBasic.IsMask.exists_pieces`
    * `VisualBasic.isBoundary_of_mask`
-/

namespace Retarget.VisualBasic

open Text

/- Every character is kept or is blanked. -/
inductive IsMask : List Char → List Char → Prop where
  | nil : IsMask [] []
  | keep
    {text masked : List Char}
    (c : Char)
    (h : IsMask text masked) :
    IsMask (c :: text) (c :: masked)
  | blank
    {text masked : List Char}
    (c : Char)
    (h : IsMask text masked) :
    IsMask (c :: text) (blanks c ++ masked)

theorem isMask_maskFrom
    (mode : MaskMode)
    (fresh : Bool)
    (previous : Option Char)
    (text : List Char) :
    IsMask text (maskFrom mode fresh previous text) := by
  induction text generalizing mode fresh previous with
  | nil => exact IsMask.nil
  | cons c r ih =>
      unfold maskFrom
      split
      · exact (ih _ _ _).keep c
      · cases mode with
        | comment => exact (ih _ _ _).blank c
        | doubled => exact (ih _ _ _).blank c
        | literal =>
            dsimp only
            split
            · split
              · exact (ih _ _ _).blank c
              · exact (ih _ _ _).blank c
            · exact (ih _ _ _).blank c
        | code =>
            dsimp only
            split
            · exact (ih _ _ _).keep c
            · split
              · exact (ih _ _ _).blank c
              · exact (ih _ _ _).blank c
              · exact (ih _ _ _).keep c

theorem isMask_mask
    (text : List Char) :
    IsMask text (mask text) :=
  isMask_maskFrom _ _ _ text

/- A character that is no blank has been kept in its place. -/
theorem IsMask.exists_of_eq
    {text masked a b : List Char}
    {d : Char}
    (h : IsMask text masked)
    (hMasked : masked = a ++ d :: b)
    (hOther : d ≠ ' ') :
    ∃ p q, p ++ d :: q = text ∧ byteLength p = byteLength a ∧
      IsMask q b := by
  induction h generalizing a with
  | nil => simp at hMasked
  | @keep text _ c h ih =>
      cases a with
      | nil =>
          rcases List.cons_eq_cons.mp hMasked with ⟨rfl, rfl⟩
          exact ⟨[], text, rfl, rfl, h⟩
      | cons x rest =>
          rcases List.cons_eq_cons.mp hMasked with ⟨rfl, hRest⟩
          rcases ih hRest with ⟨p, q, rfl, hLength, hBehind⟩
          exact ⟨c :: p, q, rfl, by rw [byteLength, byteLength, hLength],
            hBehind⟩
  | @blank text masked c _ ih =>
      have hPassed : ∃ rest, a = blanks c ++ rest ∧ masked = rest ++ d :: b := by
        rcases List.append_eq_append_iff.mp hMasked with
          ⟨rest, ha, hRest⟩ | ⟨rest, hBlanks, hRest⟩
        · exact ⟨rest, ha, hRest⟩
        · cases rest with
          | nil => exact ⟨[], by simp [hBlanks], by simpa using hRest.symm⟩
          | cons x more =>
              obtain rfl := (List.cons_eq_cons.mp hRest).1
              have hMem : d ∈ blanks c := by simp [hBlanks]
              exact absurd (List.eq_of_mem_replicate hMem) hOther
      rcases hPassed with ⟨rest, rfl, hRest⟩
      rcases ih hRest with ⟨p, q, rfl, hLength, hBehind⟩
      refine ⟨c :: p, q, rfl, ?_, hBehind⟩
      rw [byteLength, byteLength_append, byteLength_blanks, hLength]

/- Characters that are no blanks have been kept from the start on. -/
theorem IsMask.isPrefix_of_eq
    {text masked w b : List Char}
    (h : IsMask text masked)
    (hMasked : masked = w ++ b)
    (hSolid : ' ' ∉ w) :
    w <+: text := by
  induction h generalizing w with
  | nil =>
      rw [(List.append_eq_nil_iff.mp hMasked.symm).1]
  | keep c _ ih =>
      cases w with
      | nil => exact List.nil_prefix
      | cons d more =>
          rcases List.cons_eq_cons.mp hMasked with ⟨rfl, hMore⟩
          exact List.cons_prefix_cons.mpr
            ⟨rfl, ih hMore fun hBlank => hSolid (List.mem_cons_of_mem c hBlank)⟩
  | @blank text masked c _ _ =>
      cases w with
      | nil => exact List.nil_prefix
      | cons d more =>
          obtain ⟨n, hn⟩ := Nat.exists_eq_succ_of_ne_zero c.utf8Size_pos.ne'
          rw [blanks, hn, List.replicate_succ] at hMasked
          have hFirst := (List.cons_eq_cons.mp hMasked).1
          exact absurd (hFirst ▸ List.mem_cons_self) hSolid

/- A run of characters that are no blanks has been kept in its place. -/
theorem IsMask.exists_pieces
    {text masked a w b : List Char}
    (h : IsMask text masked)
    (hMasked : masked = a ++ w ++ b)
    (hSome : w ≠ [])
    (hSolid : ' ' ∉ w) :
    ∃ p q, p ++ w ++ q = text ∧ byteLength p = byteLength a := by
  obtain ⟨d, more, rfl⟩ := List.exists_cons_of_ne_nil hSome
  simp only [List.mem_cons, not_or] at hSolid
  rw [List.append_assoc, List.cons_append] at hMasked
  rcases h.exists_of_eq hMasked (Ne.symm hSolid.1) with
    ⟨p, q, rfl, hLength, hBehind⟩
  rcases hBehind.isPrefix_of_eq rfl hSolid.2 with ⟨q', rfl⟩
  exact ⟨p, q', by simp, hLength⟩

/- A cut has a blank on both sides. -/
def IsAmongBlanks (a b : List Char) : Prop :=
  a.getLast? = some ' ' ∧ b.head? = some ' '

theorem isBoundary_cons
    (c : Char)
    {n : Nat}
    {text : List Char}
    (h : isBoundary n text = true) :
    isBoundary (c.utf8Size + n) (c :: text) = true := by
  rcases isBoundary_iff.mp h with ⟨a, b, rfl, rfl⟩
  exact isBoundary_byteLength (c :: a) b

/- A cut through the blanks of one character is among blanks. -/
theorem isAmongBlanks_of_blanks
    {c : Char}
    {a b masked : List Char}
    (hBlanks : a ++ b = blanks c)
    (ha : a ≠ [])
    (hb : b ≠ []) :
    IsAmongBlanks a (b ++ masked) := by
  have hSpace : ∀ d ∈ a ++ b, d = ' ' := by
    rw [hBlanks]
    exact fun d hd => List.eq_of_mem_replicate hd
  constructor
  · rw [List.getLast?_eq_getLast_of_ne_nil ha,
      hSpace _ (List.mem_append_left b (List.getLast_mem ha))]
  · rw [List.head?_append_of_ne_nil b hb, List.head?_eq_some_head hb,
      hSpace _ (List.mem_append_right a (List.head_mem hb))]

theorem IsAmongBlanks.append_left
    {a b : List Char}
    (h : IsAmongBlanks a b)
    (before : List Char) :
    IsAmongBlanks (before ++ a) b :=
  ⟨by rw [List.getLast?_append, h.1, Option.some_or], h.2⟩

theorem IsMask.isBoundary_of_eq
    {text masked a b : List Char}
    (h : IsMask text masked)
    (hCut : masked = a ++ b)
    (hEdge : ¬IsAmongBlanks a b) :
    isBoundary (byteLength a) text = true := by
  induction h generalizing a with
  | nil =>
      rw [(List.append_eq_nil_iff.mp hCut.symm).1]
      exact isBoundary_zero []
  | keep c _ ih =>
      cases a with
      | nil => exact isBoundary_zero _
      | cons d rest =>
          rcases List.cons_eq_cons.mp hCut with ⟨rfl, hRest⟩
          exact isBoundary_cons c
            (ih hRest fun hBlanks => hEdge (hBlanks.append_left [c]))
  | @blank text masked c _ ih =>
      rcases List.append_eq_append_iff.mp hCut with
        ⟨rest, rfl, hRest⟩ | ⟨rest, hBlanks, rfl⟩
      · rw [byteLength_append, byteLength_blanks]
        exact isBoundary_cons c
          (ih hRest fun h => hEdge (h.append_left (blanks c)))
      · by_cases ha : a = []
        · rw [ha]
          exact isBoundary_zero _
        · by_cases hRest : rest = []
          · rw [hRest, List.append_nil] at hBlanks
            rw [← hBlanks, byteLength_blanks]
            exact isBoundary_cons c (isBoundary_zero text)
          · exact absurd
              (isAmongBlanks_of_blanks hBlanks.symm ha hRest) hEdge

theorem isBoundary_of_mask
    {text a b : List Char}
    (hMask : mask text = a ++ b)
    (hEdge : ¬IsAmongBlanks a b) :
    isBoundary (byteLength a) text = true :=
  (isMask_mask text).isBoundary_of_eq hMask hEdge

end Retarget.VisualBasic
