import Retarget.Text.Numeral

/-
  This file defines the versions of frameworks: up to four
  numbers, of which at least two are shown.  How many numbers
  were written matters to the text of a version only.

  Key definitions include:
    * `FrameworkVersion`
    * `FrameworkVersion.parseDotted?`
    * `FrameworkVersion.parseCompact?`
    * `FrameworkVersion.text`
    * `FrameworkVersion.order`

  Key statements include:
    * `FrameworkVersion.order_self`
-/

namespace Retarget

structure FrameworkVersion where
  major : Nat
  minor : Nat
  build : Nat
  revision : Nat
  /- How many of the numbers are shown. -/
  shown : Nat
  deriving Repr, DecidableEq, Inhabited

namespace FrameworkVersion

def ofPair (major minor : Nat) : FrameworkVersion :=
  ⟨major, minor, 0, 0, 2⟩

def zero : FrameworkVersion :=
  ofPair 0 0

def numbers (v : FrameworkVersion) : List Nat :=
  [v.major, v.minor, v.build, v.revision]

def isZero (v : FrameworkVersion) : Bool :=
  v.numbers.all (· == 0)

------------------------------------------------------------
-- Order
------------------------------------------------------------

/- Versions are compared number by number. -/
def order (v w : FrameworkVersion) : Ordering :=
  List.compareLex compare v.numbers w.numbers

def le (v w : FrameworkVersion) : Bool :=
  v.order w != .gt

/- The same numbers, however many of them were written. -/
def same (v w : FrameworkVersion) : Bool :=
  v.numbers == w.numbers

/- The later version, and the second one of two the same. -/
def max (v w : FrameworkVersion) : FrameworkVersion :=
  if v.order w == .gt then v else w

theorem order_self
    (v : FrameworkVersion) :
    v.order v = .eq := by
  have h (n : Nat) : compare n n = .eq := Nat.compare_eq_eq.2 rfl
  simp [order, numbers, List.compareLex]

------------------------------------------------------------
-- Text
------------------------------------------------------------

/- A version from its numbers, of which there are one to four. -/
def ofNumbers? : List Nat → Option FrameworkVersion
  | [a] => some ⟨a, 0, 0, 0, 2⟩
  | [a, b] => some ⟨a, b, 0, 0, 2⟩
  | [a, b, c] => some ⟨a, b, c, 0, 3⟩
  | [a, b, c, d] => some ⟨a, b, c, d, 4⟩
  | _ => none

/- Read numbers with dots between them. -/
def parseDotted? (text : String) : Option FrameworkVersion := do
  let numbers ← (Text.splitAt '.' text).mapM Numeral.read32?
  ofNumbers? numbers

/- Read a run of digits, each of which is a number. -/
def parseCompact? (text : String) : Option FrameworkVersion :=
  if text.toList.all Text.isAsciiDigit then
    ofNumbers? (text.toList.map Numeral.digitValue)
  else none

def text (v : FrameworkVersion) : String :=
  Text.join "." ((v.numbers.take v.shown).map toString)

/-
  The numbers without dots; zeros at the end are left out,
  except for the first two numbers.
-/
def compactText (v : FrameworkVersion) : String :=
  let rest := ([v.build, v.revision].reverse.dropWhile (· == 0)).reverse
  String.join (([v.major, v.minor] ++ rest).map toString)

end FrameworkVersion

end Retarget
