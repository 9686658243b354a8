import Retarget.Text.Case
import Retarget.Text.Numeral

/-
  This file defines the versions of packages: four numbers
  and perhaps a label, which marks a prerelease.  A build
  note behind a plus sign is read and forgotten.

  Key definitions include:
    * `PackageVersion`
    * `PackageVersion.parse?`
    * `PackageVersion.text`
    * `PackageVersion.order`
    * `PackageVersion.sort`
    * `PackageVersion.dropRepeated`
-/

namespace Retarget

structure PackageVersion where
  major : Nat
  minor : Nat
  patch : Nat
  revision : Nat
  label : Option String
  deriving Repr, DecidableEq, Inhabited

namespace PackageVersion

variable (v : PackageVersion)

def ofNumbers (major minor patch revision : Nat) : PackageVersion :=
  ⟨major, minor, patch, revision, none⟩

/- The version with a label; an empty label is none. -/
def withLabel (label : String) : PackageVersion :=
  { v with label := if label.isEmpty then none else some label }

def numbers : List Nat :=
  [v.major, v.minor, v.patch, v.revision]

def isPrerelease : Bool :=
  v.label.isSome

------------------------------------------------------------
-- Text
------------------------------------------------------------

/- Three numbers, and the fourth one unless it is zero. -/
def text : String :=
  let shown := if v.revision > 0 then v.numbers else v.numbers.take 3
  Text.join "." (shown.map toString) ++
    (v.label.elim "" fun label => "-" ++ label)

/- One of the numbers: digits only. -/
def number? (text : String) : Option Nat :=
  if text.toList.all Text.isAsciiDigit then Numeral.read64? text else none

def isLabelChar (c : Char) : Bool :=
  Text.isAsciiAlphanumeric c || c == '-'

/- A label is made of identifiers with dots between them. -/
def isLabel (text : String) : Bool :=
  (Text.splitAt '.' text).all fun s =>
    !s.isEmpty && s.toList.all isLabelChar

def ofParts? (numbers : String) (label : Option String) :
    Option PackageVersion := do
  let numbers ← (Text.splitAt '.' numbers).mapM number?
  if !label.all isLabel then none
  match numbers with
  | [a] => some ⟨a, 0, 0, 0, label⟩
  | [a, b] => some ⟨a, b, 0, 0, label⟩
  | [a, b, c] => some ⟨a, b, c, 0, label⟩
  | [a, b, c, d] => some ⟨a, b, c, d, label⟩
  | _ => none

def parse? (text : String) : Option PackageVersion :=
  let core := Text.before '+' (Text.trim text)
  match Text.splitOnce '-' core with
  | some (numbers, label) => ofParts? numbers (some label)
  | none => ofParts? core none

------------------------------------------------------------
-- Order
------------------------------------------------------------

/-
  Numbers come before other identifiers, which are compared
  without regard to letter case.
-/
def identifierOrder (a b : String) : Ordering :=
  match Numeral.read64? a, Numeral.read64? b with
  | some m, some n => compare m n
  | some _, none => .lt
  | none, some _ => .gt
  | none, none => Text.order (Text.lower a) (Text.lower b)

/- Labels are compared identifier by identifier. -/
def labelOrder (a b : String) : Ordering :=
  List.compareLex identifierOrder (Text.splitAt '.' a) (Text.splitAt '.' b)

/- A version comes after its prereleases. -/
def labelsOrder : Option String → Option String → Ordering
  | none, none => .eq
  | none, some _ => .gt
  | some _, none => .lt
  | some a, some b => labelOrder a b

def order (v w : PackageVersion) : Ordering :=
  (List.compareLex compare v.numbers w.numbers).then
    (labelsOrder v.label w.label)

def lt (v w : PackageVersion) : Bool :=
  v.order w == .lt

def le (v w : PackageVersion) : Bool :=
  v.order w != .gt

/- Neither version comes before the other. -/
def same (v w : PackageVersion) : Bool :=
  v.order w == .eq

/- The numbers and the label in lower case. -/
def key : List Nat × Option String :=
  (v.numbers, v.label.map Text.lower)

------------------------------------------------------------
-- Lists
------------------------------------------------------------

/- Sort versions; those that are the same keep their places. -/
def sort (vs : List PackageVersion) : List PackageVersion :=
  vs.mergeSort le

/- Of neighbours that are the same only the first one stays. -/
def dropRepeatedAfter (v : PackageVersion) :
    List PackageVersion → List PackageVersion
  | [] => []
  | w :: r =>
    if v.same w then dropRepeatedAfter v r
    else w :: dropRepeatedAfter w r

def dropRepeated : List PackageVersion → List PackageVersion
  | [] => []
  | v :: r => v :: dropRepeatedAfter v r

end PackageVersion

end Retarget
