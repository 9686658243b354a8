import Retarget.Text.Basic

/-
  This file reads decimal numerals with a fixed upper limit.
  A numeral is a run of digits, optionally after one plus
  sign; leading zeros are allowed.

  Key definitions include:
    * `Numeral.Fault`
    * `Numeral.read`
    * `Numeral.read32`
    * `Numeral.read64`

  Key statements include:
    * `Numeral.readDigits_lt`
-/

namespace Retarget.Numeral

open Text

/- Why a text is no numeral below the limit. -/
inductive Fault where
  | empty
  | invalidDigit
  | tooLarge
  deriving DecidableEq, Repr

def Fault.message : Fault → String
  | .empty => "cannot parse integer from empty string"
  | .invalidDigit => "invalid digit found in string"
  | .tooLarge => "number too large to fit in target type"

def digitValue (c : Char) : Nat :=
  c.toNat - '0'.toNat

/-
  Read digits from the left; the first character that is no
  digit and the first digit that passes the limit each end
  the reading with their fault.
-/
def readDigits
    (limit : Nat)
    (acc : Nat) :
    List Char → Except Fault Nat
  | [] => .ok acc
  | c :: r =>
    if isAsciiDigit c then
      let n := 10 * acc + digitValue c
      if n < limit then readDigits limit n r
      else .error .tooLarge
    else .error .invalidDigit

def read (limit : Nat) (s : String) : Except Fault Nat :=
  match s.toList with
  | [] => .error .empty
  | ['+'] => .error .invalidDigit
  | ['-'] => .error .invalidDigit
  | '+' :: r => readDigits limit 0 r
  | cs => readDigits limit 0 cs

def read32 (s : String) : Except Fault Nat :=
  read UInt32.size s

def read64 (s : String) : Except Fault Nat :=
  read UInt64.size s

def read32? (s : String) : Option Nat :=
  (read32 s).toOption

def read64? (s : String) : Option Nat :=
  (read64 s).toOption

/- A number that was read lies below the limit. -/
theorem readDigits_lt
    {limit acc n : Nat}
    {cs : List Char}
    (hacc : acc < limit)
    (h : readDigits limit acc cs = .ok n) :
    n < limit := by
  induction cs generalizing acc with
  | nil =>
    cases h
    exact hacc
  | cons c r ih =>
    unfold readDigits at h
    by_cases hd : isAsciiDigit c
    · by_cases hl : 10 * acc + digitValue c < limit
      · simp only [hd, hl, if_true] at h
        exact ih hl h
      · simp [hd, hl] at h
    · simp [hd] at h

end Retarget.Numeral
