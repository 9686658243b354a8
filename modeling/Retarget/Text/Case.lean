import Retarget.Text.Basic
import Retarget.Text.Case.Table

/-
  This file defines the lower-case form of a text under the
  Unicode standard, where a capital sigma has one form
  inside a word and another at its end.

  Key definitions include:
    * `Text.lowerChar`
    * `Text.lower`
    * `Text.equalsIgnoringCase`

  Key statements include:
    * `Text.lowerChar_ascii`
-/

namespace Retarget.Text

------------------------------------------------------------
-- One letter
------------------------------------------------------------

/- The lower-case form of a letter, away from word ends. -/
def lowerChar (c : Char) : List Char :=
  if c.toNat < 0x80 then [lowerAsciiChar c]
  else if c.toNat == 0x130 then ['i', Char.ofNat 0x307]
  else
    let n := c.toNat
    let entry := lowerCaseTable.find? fun (lo, hi, step, _) =>
      lo ≤ n && n ≤ hi && (n - lo) % step == 0
    match entry with
    | some (_, _, _, shift) => [Char.ofNat (n + shift).toNat]
    | none => [c]

theorem lowerChar_ascii
    (c : Char)
    (h : c.toNat < 0x80) :
    lowerChar c = [lowerAsciiChar c] := by
  simp [lowerChar, h]

------------------------------------------------------------
-- Whole texts
------------------------------------------------------------

/- The nearest character that is not passed over has a case. -/
def meetsCased : List Char → Bool
  | [] => false
  | c :: r =>
    if inRanges casedRanges c.toNat then true
    else if inRanges caseIgnorableRanges c.toNat then meetsCased r
    else false

def capitalSigma : Char := Char.ofNat 0x3A3

/-
  Lower-case a text; `seen` holds the characters before it,
  the nearest first.
-/
def lowerChars (seen : List Char) : List Char → List Char
  | [] => []
  | c :: r =>
    let form :=
      if c == capitalSigma then
        if meetsCased seen && !meetsCased r then [Char.ofNat 0x3C2]
        else [Char.ofNat 0x3C3]
      else lowerChar c
    form ++ lowerChars (c :: seen) r

def lower (s : String) : String :=
  String.ofList (lowerChars [] s.toList)

def equalsIgnoringCase (s t : String) : Bool :=
  lower s == lower t

end Retarget.Text
