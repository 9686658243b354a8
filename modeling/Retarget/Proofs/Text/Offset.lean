import Mathlib.Data.List.Infix
import Retarget.Text.Offset

/-
  This file relates byte offsets to ways to take a text
  apart.  What can be cut, read or replaced at an offset is
  said in terms of the pieces.

  Key statements include:
    * `Text.cutAt?_eq_some_iff`
    * `Text.isBoundary_iff`
    * `Text.slice?_eq_some_iff`
    * `Text.exists_pieces`
    * `Text.replaceRange?_pieces`
    * `Text.exists_byteAt?_before`
-/

namespace Retarget.Text

variable {n start stop : Nat}
variable {a b p cs : List Char}

@[simp] theorem byteLength_eq_zero_iff :
    byteLength cs = 0 ↔ cs = [] := by
  cases cs with
  | nil => simp [byteLength]
  | cons c r => simp [byteLength, c.utf8Size_pos.ne']

theorem cutAt?_byteLength
    (a b : List Char) :
    cutAt? (byteLength a) (a ++ b) = some (a, b) := by
  induction a with
  | nil =>
    cases b with
    | nil => rfl
    | cons c r => rfl
  | cons c r ih =>
    obtain ⟨n, hn⟩ : ∃ n, byteLength (c :: r) = n + 1 :=
      Nat.exists_eq_succ_of_ne_zero (by simp)
    have hRest : n + 1 - c.utf8Size = byteLength r := by
      simp only [byteLength] at hn
      omega
    have hFits : c.utf8Size ≤ n + 1 := by
      simp only [byteLength] at hn
      omega
    rw [hn, List.cons_append, cutAt?, if_pos hFits, hRest, ih]
    rfl

/- A text is cut at an offset in one way or in none. -/
theorem cutAt?_eq_some_iff :
    cutAt? n cs = some (a, b) ↔ a ++ b = cs ∧ byteLength a = n := by
  constructor
  · exact cutAt?_eq_some
  · rintro ⟨rfl, rfl⟩
    exact cutAt?_byteLength a b

theorem isBoundary_iff :
    isBoundary n cs = true ↔ ∃ a b, a ++ b = cs ∧ byteLength a = n := by
  simp only [isBoundary, Option.isSome_iff_exists, Prod.exists,
    cutAt?_eq_some_iff]

theorem isBoundary_byteLength
    (a b : List Char) :
    isBoundary (byteLength a) (a ++ b) = true :=
  isBoundary_iff.mpr ⟨a, b, rfl, rfl⟩

@[simp] theorem isBoundary_zero
    (cs : List Char) :
    isBoundary 0 cs = true :=
  isBoundary_byteLength [] cs

/- The earlier of two cuts of a text cuts the first part of the later. -/
theorem exists_append_of_byteLength_le
    {a b c d : List Char}
    (hSame : a ++ b = c ++ d)
    (hLength : byteLength a ≤ byteLength c) :
    ∃ p, c = a ++ p ∧ b = p ++ d := by
  rcases List.append_eq_append_iff.mp hSame with
    ⟨p, hc, hb⟩ | ⟨p, ha, hd⟩
  · exact ⟨p, hc, hb⟩
  · rw [ha, byteLength_append] at hLength
    have hEmpty : p = [] := byteLength_eq_zero_iff.mp (by omega)
    subst hEmpty
    simp only [List.append_nil, List.nil_append] at ha hd
    exact ⟨[], by simp [ha], by simp [hd]⟩

/- A text is taken apart at two of its boundaries. -/
theorem exists_pieces
    (hOrder : start ≤ stop)
    (hStart : isBoundary start cs = true)
    (hStop : isBoundary stop cs = true) :
    ∃ a p b, a ++ p ++ b = cs ∧ byteLength a = start ∧
      byteLength (a ++ p) = stop := by
  rcases isBoundary_iff.mp hStart with ⟨a, rest, hCut, rfl⟩
  rcases isBoundary_iff.mp hStop with ⟨c, b, rfl, rfl⟩
  rcases exists_append_of_byteLength_le hCut hOrder with ⟨p, rfl, -⟩
  exact ⟨a, p, b, rfl, rfl, rfl⟩

theorem slice?_pieces
    (a p b : List Char) :
    slice? (byteLength a) (byteLength (a ++ p)) (a ++ p ++ b) = some p := by
  have hOrder : ¬ byteLength (a ++ p) < byteLength a := by
    rw [byteLength_append]
    omega
  have hLength : byteLength (a ++ p) - byteLength a = byteLength p := by
    rw [byteLength_append]
    omega
  rw [List.append_assoc]
  simp [slice?, hOrder, hLength, cutAt?_byteLength]

theorem slice?_eq_some_iff :
    slice? start stop cs = some p ↔
      ∃ a b, a ++ p ++ b = cs ∧ byteLength a = start ∧
        byteLength (a ++ p) = stop := by
  constructor
  · intro hSlice
    by_cases hOrder : stop < start
    · simp [slice?, hOrder] at hSlice
    · simp only [slice?, if_neg hOrder, Option.bind_eq_bind,
        Option.bind_eq_some_iff, Option.pure_def, Option.some.injEq,
        Prod.exists] at hSlice
      rcases hSlice with ⟨a, rest, hCut, p, b, hPiece, rfl⟩
      rcases cutAt?_eq_some hCut with ⟨rfl, rfl⟩
      rcases cutAt?_eq_some hPiece with ⟨rfl, hLength⟩
      refine ⟨a, b, by simp, rfl, ?_⟩
      rw [byteLength_append, hLength]
      omega
  · rintro ⟨a, b, rfl, rfl, rfl⟩
    exact slice?_pieces a p b

theorem replaceRange?_pieces
    (a p b new : List Char) :
    replaceRange? (byteLength a) (byteLength (a ++ p)) new (a ++ p ++ b) =
      some (a ++ new ++ b) := by
  have hOrder : ¬ byteLength (a ++ p) < byteLength a := by
    rw [byteLength_append]
    omega
  have hLength : byteLength (a ++ p) - byteLength a = byteLength p := by
    rw [byteLength_append]
    omega
  rw [List.append_assoc]
  simp [replaceRange?, hOrder, hLength, cutAt?_byteLength]

------------------------------------------------------------
-- Bytes
------------------------------------------------------------

/- The byte is part of a character beyond ASCII. -/
def IsHigh (b : UInt8) : Prop :=
  128 ≤ b.toNat

theorem encode_append
    (a b : List Char) :
    encode (a ++ b) = encode a ++ encode b :=
  List.flatMap_append

theorem encode_cons
    (c : Char)
    (r : List Char) :
    encode (c :: r) = String.utf8EncodeChar c ++ encode r :=
  List.flatMap_cons

@[simp] theorem length_encode
    (cs : List Char) :
    (encode cs).length = byteLength cs := by
  induction cs with
  | nil => rfl
  | cons c r ih => simp [encode_cons, byteLength, ih]

theorem utf8Size_of_ascii
    {c : Char}
    (h : c.toNat < 128) :
    c.utf8Size = 1 := by
  rw [Char.utf8Size_eq_one_iff, UInt32.le_iff_toNat_le]
  exact Nat.le_of_lt_succ h

theorem encode_high
    {c : Char}
    (h : ¬ c.toNat < 128) :
    String.utf8EncodeChar c ≠ [] ∧
      ∀ b ∈ String.utf8EncodeChar c, IsHigh b := by
  constructor
  · intro hNone
    have hLength := String.length_utf8EncodeChar c
    rw [hNone] at hLength
    exact c.utf8Size_pos.ne hLength
  · have hNumber : ¬ c.val.toNat ≤ 127 :=
      fun hSmall => h (Nat.lt_succ_of_le hSmall)
    simp only [String.utf8EncodeChar, if_neg hNumber, IsHigh]
    split
    · simp
      omega
    · split
      · simp
        omega
      · simp
        omega

/- The last byte of a character tells whether it is one of ASCII. -/
theorem exists_getLast?_utf8EncodeChar
    {d : Char}
    (hd : d.toNat < 128)
    (c : Char) :
    ∃ b, (String.utf8EncodeChar c).getLast? = some b ∧
      (b.toNat = d.toNat ↔ c = d) := by
  by_cases hc : c.toNat < 128
  · rw [String.utf8EncodeChar_eq_singleton (utf8Size_of_ascii hc)]
    refine ⟨c.val.toUInt8, rfl, ?_⟩
    have hNumber : c.val.toUInt8.toNat = c.toNat := by
      rw [UInt32.toNat_toUInt8]
      exact Nat.mod_eq_of_lt (hc.trans (by decide))
    rw [hNumber, Char.toNat_inj]
  · rcases encode_high hc with ⟨hSome, hHigh⟩
    refine ⟨_, List.getLast?_eq_some_getLast hSome, ?_⟩
    have hByte : 128 ≤ ((String.utf8EncodeChar c).getLast hSome).toNat :=
      hHigh _ (List.getLast_mem hSome)
    constructor
    · intro hSame
      omega
    · rintro rfl
      exact absurd hd hc

/-
  In front of a boundary that is not the start there is a
  byte, and a character of ASCII is known by it.
-/
theorem exists_byteAt?_before
    {d : Char}
    (hd : d.toNat < 128)
    (hSome : a ≠ [])
    (b : List Char) :
    ∃ byte, byteAt? (byteLength a - 1) (a ++ b) = some byte ∧
      (byte.toNat = d.toNat ↔ a.getLast? = some d) := by
  rcases List.eq_nil_or_concat' a with hNil | ⟨front, c, rfl⟩
  · exact absurd hNil hSome
  · rcases exists_getLast?_utf8EncodeChar hd c with ⟨byte, hByte, hSame⟩
    refine ⟨byte, ?_, by simpa using hSame⟩
    have hPos := c.utf8Size_pos
    rw [List.getLast?_eq_getElem?, String.length_utf8EncodeChar] at hByte
    have hPlace : byteLength (front ++ [c]) - 1 =
        (encode front).length + (c.utf8Size - 1) := by
      rw [byteLength_append, length_encode]
      simp only [byteLength]
      omega
    rw [byteAt?, hPlace, List.append_assoc, encode_append,
      List.getElem?_append_right (Nat.le_add_right _ _),
      Nat.add_sub_cancel_left, List.singleton_append, encode_cons,
      List.getElem?_append_left, hByte]
    rw [String.length_utf8EncodeChar]
    omega

end Retarget.Text
