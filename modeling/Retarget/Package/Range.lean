import Retarget.Package.Version

/-
  This file defines ranges of package versions.  A bare
  version is a lower bound, brackets hold an interval, and a
  star floats above the version in front of it.

  Key definitions include:
    * `FloatingPart`
    * `VersionRange`
    * `VersionRange.parse?`
    * `VersionRange.satisfies`
-/

namespace Retarget

/- The part of a version that a star stands for. -/
inductive FloatingPart where
  | major
  | minor
  | patch
  | revision
  | prerelease
  deriving Repr, DecidableEq, Inhabited

def FloatingPart.title : FloatingPart → String
  | .major => "Major"
  | .minor => "Minor"
  | .patch => "Patch"
  | .revision => "Revision"
  | .prerelease => "Prerelease"

structure VersionRange where
  min : Option PackageVersion
  isMinInclusive : Bool
  max : Option PackageVersion
  isMaxInclusive : Bool
  float : Option FloatingPart
  /- The range as it was written. -/
  text : String
  deriving Repr, DecidableEq, Inhabited

namespace VersionRange

------------------------------------------------------------
-- Building
------------------------------------------------------------

def atLeast (v : PackageVersion) : VersionRange where
  min := some v
  isMinInclusive := true
  max := none
  isMaxInclusive := false
  float := none
  text := v.text

def exactly (v : PackageVersion) : VersionRange where
  min := some v
  isMinInclusive := true
  max := some v
  isMaxInclusive := true
  float := none
  text := "[" ++ v.text ++ "]"

/- A range that floats above its lowest version. -/
def floating (text : String) (v : PackageVersion) (part : FloatingPart) :
    VersionRange where
  min := some v
  isMinInclusive := true
  max := none
  isMaxInclusive := false
  float := some part
  text := text

------------------------------------------------------------
-- Reading
------------------------------------------------------------

/- A bound of an interval, which may be left out. -/
def bound? (text : String) : Option (Option PackageVersion) :=
  let trimmed := Text.trim text
  if trimmed.isEmpty then some none
  else (PackageVersion.parse? trimmed).map some

/- At least one bound is there, and they are in order. -/
def areBounds : Option PackageVersion → Option PackageVersion → Bool
  | none, none => false
  | some v, some w => v.le w
  | _, _ => true

/- An interval, or a single version in square brackets. -/
def interval? (text : String) : Option VersionRange := do
  let isMinInclusive := Text.hasStart "[" text
  let isMaxInclusive := Text.hasEnd "]" text
  if text.length < 2 || !(isMaxInclusive || Text.hasEnd ")" text) then none
  let inner := Text.trim (String.ofList (text.toList.drop 1).dropLast)
  match Text.splitOnce ',' inner with
  | none =>
    if isMinInclusive && isMaxInclusive then
      return { exactly (← PackageVersion.parse? inner) with text := text }
    else none
  | some (low, high) =>
    let min ← bound? low
    let max ← bound? high
    if areBounds min max then
      return {
        min := min
        isMinInclusive := isMinInclusive
        max := max
        isMaxInclusive := isMaxInclusive
        float := none
        text := text }
    else none

def hasStar (text : String) : Bool :=
  text.toList.contains '*'

/- The lowest prerelease that starts with some characters. -/
def prereleaseFloor (v : PackageVersion) (start : String) : PackageVersion :=
  if start.isEmpty then v.withLabel "0"
  else
    v.withLabel (String.ofList (Text.dropEndWhile (· == '.') start.toList))

/- A version whose star stands for the end of the label. -/
def prereleaseFloat? (text numbers label : String) : Option VersionRange := do
  let start ← Text.stripEnd? "*" label
  if hasStar start || hasStar numbers then none
  let v ← PackageVersion.parse? numbers
  return floating text (prereleaseFloor v start) .prerelease

/- The part behind some numbers. -/
def partAfter? : Nat → Option FloatingPart
  | 1 => some .minor
  | 2 => some .patch
  | 3 => some .revision
  | _ => none

/- A version whose star stands for its last number. -/
def numberFloat? (text : String) : Option VersionRange := do
  let floor ← Text.stripEnd? ".*" text
  if hasStar floor then none
  let part ← partAfter? (Text.splitAt '.' floor).length
  return floating text (← PackageVersion.parse? floor) part

def float? (text : String) : Option VersionRange :=
  if text == "*" then some (floating text (.ofNumbers 0 0 0 0) .major)
  else
    match Text.splitOnce '-' text with
    | some (numbers, label) => prereleaseFloat? text numbers label
    | none => numberFloat? text

def parse? (text : String) : Option VersionRange :=
  let trimmed := Text.trim text
  if trimmed.isEmpty then none
  else if Text.hasStart "[" trimmed || Text.hasStart "(" trimmed then
    interval? trimmed
  else if hasStar trimmed then float? trimmed
  else
    (PackageVersion.parse? trimmed).map fun v =>
      { atLeast v with text := trimmed }

------------------------------------------------------------
-- Meaning
------------------------------------------------------------

variable (r : VersionRange)

def isFloating : Bool :=
  r.float.isSome

/- Both bounds are the same version, which the range holds. -/
def isExact : Bool :=
  r.isMinInclusive && r.isMaxInclusive &&
    match r.min, r.max with
    | some v, some w => v.same w
    | _, _ => false

def satisfies (v : PackageVersion) : Bool :=
  let aboveMin :=
    r.min.all fun w => if r.isMinInclusive then w.le v else w.lt v
  let belowMax :=
    r.max.all fun w => if r.isMaxInclusive then v.le w else v.lt w
  aboveMin && belowMax

end VersionRange

end Retarget
