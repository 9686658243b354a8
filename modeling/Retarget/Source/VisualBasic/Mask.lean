import Retarget.Text.Offset

/-
  This file blanks the comments, string literals and
  directive lines of a Visual Basic text.  Every blanked
  character becomes as many spaces as it has bytes, so the
  offsets of what stays do not move.

  Key definitions include:
    * `VisualBasic.MaskMode`
    * `VisualBasic.maskFrom`
    * `VisualBasic.mask`

  Key statements include:
    * `VisualBasic.byteLength_maskFrom`
    * `VisualBasic.byteLength_mask`
-/

namespace Retarget.VisualBasic

open Text

------------------------------------------------------------
-- Blanking
------------------------------------------------------------

/- What the next character is part of. -/
inductive MaskMode where
  | code
  | literal
  /- The second half of a doubled quote in a literal. -/
  | doubled
  | comment
  deriving Repr, DecidableEq

def blanks (c : Char) : List Char :=
  List.replicate c.utf8Size ' '

/- A remark keyword with a blank behind it. -/
def startsRemark : List Char → Bool
  | r :: e :: m :: c :: _ =>
    [r, e, m].map lowerAsciiChar == ['r', 'e', 'm'] && isAsciiBlank c
  | _ => false

/- What an unblanked character starts. -/
inductive MaskStart where
  | nothing
  | literal
  | comment
  deriving Repr, DecidableEq

/-
  A remark starts at the start of a line, after a blank or
  after a colon; a number sign starts a directive as the
  first character of a line that is no blank.
-/
def maskStart
    (fresh : Bool)
    (previous : Option Char)
    (c : Char)
    (rest : List Char) : MaskStart :=
  if c == '"' then .literal
  else
    let mayRemark :=
      fresh || previous.any fun p => isAsciiBlank p || p == ':'
    if c == '\'' || (fresh && c == '#') ||
        (mayRemark && startsRemark (c :: rest)) then .comment
    else .nothing

/-
  Blank a text.  `fresh` says that only spaces and tabs have
  been passed on the line, `previous` is the last character.
-/
def maskFrom
    (mode : MaskMode)
    (fresh : Bool)
    (previous : Option Char) : List Char → List Char
  | [] => []
  | c :: r =>
    if c == '\n' then
      c :: maskFrom .code true (some c) r
    else
      match mode with
      | .comment => blanks c ++ maskFrom .comment false (some c) r
      | .doubled => blanks c ++ maskFrom .literal false (some c) r
      | .literal =>
        if c == '"' then
          if r.head? == some '"' then
            blanks c ++ maskFrom .doubled false (some c) r
          else blanks c ++ maskFrom .code false (some c) r
        else blanks c ++ maskFrom .literal false (some c) r
      | .code =>
        if fresh && (c == ' ' || c == '\t') then
          c :: maskFrom .code true (some c) r
        else
          match maskStart fresh previous c r with
          | .literal => blanks c ++ maskFrom .literal false (some c) r
          | .comment => blanks c ++ maskFrom .comment false (some c) r
          | .nothing => c :: maskFrom .code false (some c) r

def mask (text : List Char) : List Char :=
  maskFrom .code true none text

------------------------------------------------------------
-- Lengths
------------------------------------------------------------

theorem byteLength_replicate_space
    (n : Nat) :
    byteLength (List.replicate n ' ') = n := by
  induction n with
  | zero => rfl
  | succ n ih =>
    have h : Char.utf8Size ' ' = 1 := by decide
    rw [List.replicate_succ, byteLength, ih, h]
    omega

theorem byteLength_blanks
    (c : Char) :
    byteLength (blanks c) = c.utf8Size :=
  byteLength_replicate_space _

/- Blanking keeps the number of bytes. -/
theorem byteLength_maskFrom
    (mode : MaskMode)
    (fresh : Bool)
    (previous : Option Char)
    (text : List Char) :
    byteLength (maskFrom mode fresh previous text) =
      byteLength text := by
  induction text generalizing mode fresh previous with
  | nil => simp [maskFrom]
  | cons c r ih =>
    unfold maskFrom
    split
    · simp [byteLength, ih]
    · split
      · simp [byteLength_append, byteLength_blanks, byteLength, ih]
      · simp [byteLength_append, byteLength_blanks, byteLength, ih]
      · split
        · split <;>
            simp [byteLength_append, byteLength_blanks, byteLength, ih]
        · simp [byteLength_append, byteLength_blanks, byteLength, ih]
      · split
        · simp [byteLength, ih]
        · split <;>
            simp [byteLength_append, byteLength_blanks, byteLength, ih]

theorem byteLength_mask
    (text : List Char) :
    byteLength (mask text) = byteLength text :=
  byteLength_maskFrom _ _ _ text

end Retarget.VisualBasic
