import Retarget.Text.Basic

/-
  This file measures and cuts texts in bytes of UTF-8.  A
  cut is allowed between characters only.

  Key definitions include:
    * `Text.byteLength`
    * `Text.encode`
    * `Text.byteAt?`
    * `Text.cutAt?`
    * `Text.slice?`
    * `Text.replaceRange?`
    * `Text.countedFrom`

  Key statements include:
    * `Text.cutAt?_eq_some`
-/

namespace Retarget.Text

/- The number of bytes of a list of characters. -/
def byteLength : List Char → Nat
  | [] => 0
  | c :: r => c.utf8Size + byteLength r

/- The bytes of a list of characters. -/
def encode (cs : List Char) : List UInt8 :=
  cs.flatMap String.utf8EncodeChar

/- The byte at an offset that lies in the text. -/
def byteAt? (n : Nat) (cs : List Char) : Option UInt8 :=
  (encode cs)[n]?

/- The number of bytes from an offset to one that is not in front of it. -/
def distance? (start stop : Nat) : Option Nat :=
  if start ≤ stop then some (stop - start) else none

/- Cut a list after a number of bytes. -/
def cutAt? : Nat → List Char → Option (List Char × List Char)
  | 0, cs => some ([], cs)
  | _ + 1, [] => none
  | n + 1, c :: r =>
    if c.utf8Size ≤ n + 1 then
      (cutAt? (n + 1 - c.utf8Size) r).map fun (a, b) => (c :: a, b)
    else none

/- The characters between two byte offsets. -/
def slice?
    (start stop : Nat)
    (cs : List Char) : Option (List Char) := do
  if stop < start then none
  else
    let (_, rest) ← cutAt? start cs
    let (piece, _) ← cutAt? (stop - start) rest
    return piece

/- Put a text in the place of what lies between two byte offsets. -/
def replaceRange?
    (start stop : Nat)
    (new cs : List Char) : Option (List Char) := do
  if stop < start then none
  else
    let (before, rest) ← cutAt? start cs
    let (_, behind) ← cutAt? (stop - start) rest
    return before ++ new ++ behind

/- A byte offset lies between two characters or at an end. -/
def isBoundary (n : Nat) (cs : List Char) : Bool :=
  (cutAt? n cs).isSome

/- Every character with the offset at which it starts. -/
def countedFrom (n : Nat) : List Char → List (Nat × Char)
  | [] => []
  | c :: r => (n, c) :: countedFrom (n + c.utf8Size) r

theorem byteLength_append
    (a b : List Char) :
    byteLength (a ++ b) = byteLength a + byteLength b := by
  induction a with
  | nil => simp [byteLength]
  | cons c r ih => simp [byteLength, ih, Nat.add_assoc]

/- Each character takes a byte or more. -/
theorem length_le_byteLength
    (cs : List Char) :
    cs.length ≤ byteLength cs := by
  induction cs with
  | nil => exact Nat.le_refl 0
  | cons c r ih =>
    have hc := c.utf8Size_pos
    simp only [List.length_cons, byteLength]
    omega

/-
  A cut loses no character, and its first part has the
  length that was asked for.
-/
theorem cutAt?_eq_some
    {n : Nat}
    {cs a b : List Char}
    (h : cutAt? n cs = some (a, b)) :
    a ++ b = cs ∧ byteLength a = n := by
  induction cs generalizing n a b with
  | nil =>
    cases n with
    | zero =>
      simp only [cutAt?, Option.some.injEq, Prod.mk.injEq] at h
      simp [← h.1, ← h.2, byteLength]
    | succ n => simp [cutAt?] at h
  | cons c r ih =>
    cases n with
    | zero =>
      simp only [cutAt?, Option.some.injEq, Prod.mk.injEq] at h
      simp [← h.1, ← h.2, byteLength]
    | succ n =>
      by_cases hc : c.utf8Size ≤ n + 1
      · rw [cutAt?, if_pos hc] at h
        obtain ⟨⟨x, y⟩, hxy, he⟩ := Option.map_eq_some_iff.1 h
        simp only [Prod.mk.injEq] at he
        obtain ⟨h1, h2⟩ := ih hxy
        constructor
        · simp [← he.1, ← he.2, h1]
        · rw [← he.1, byteLength, h2]
          omega
      · rw [cutAt?, if_neg hc] at h
        cases h

end Retarget.Text
