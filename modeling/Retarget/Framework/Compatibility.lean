import Retarget.Framework.Moniker

/-
  This file defines when a project for one framework can use
  what was built for another, the order that follows from
  it, and the merging of two frameworks.

  Key definitions include:
    * `Moniker.consumes`
    * `Moniker.compare`
    * `Moniker.isAtLeast`
    * `PlatformMismatch`
    * `Moniker.merge`
-/

namespace Retarget.Moniker

------------------------------------------------------------
-- Consuming
------------------------------------------------------------

/- The highest .NET Standard that a framework implements. -/
def maxNetStandard? (m : Moniker) : Option FrameworkVersion :=
  match m.family with
  | .netStandard => some m.version
  | .netCoreApp =>
    if m.version.major ≤ 1 then some (.ofPair 1 6)
    else if m.version.major = 2 then some (.ofPair 2 0)
    else some (.ofPair 2 1)
  | .netFramework =>
    let atLeast := fun (minor build : Nat) =>
      (⟨4, minor, build, 0, 3⟩ : FrameworkVersion).le m.version
    if atLeast 6 1 then some (.ofPair 2 0)
    else if atLeast 6 0 then some (.ofPair 1 3)
    else if atLeast 5 1 then some (.ofPair 1 2)
    else if atLeast 5 0 then some (.ofPair 1 1)
    else none

def platformVersionOrZero (m : Moniker) : FrameworkVersion :=
  m.platformVersion.getD .zero

/-
  What is built for no platform fits every one; else the
  platforms are the same and the version is not higher.
-/
def platformConsumes (target candidate : Moniker) : Bool :=
  match target.platform, candidate.platform with
  | _, none => true
  | none, some _ => false
  | some p, some q =>
    p == q &&
      candidate.platformVersionOrZero.le target.platformVersionOrZero

/- A project for the target can use what is for the candidate. -/
def consumes (target candidate : Moniker) : Bool :=
  match target.family, candidate.family with
  | .netCoreApp, .netCoreApp =>
    candidate.version.le target.version &&
      platformConsumes target candidate
  | .netFramework, .netFramework => candidate.version.le target.version
  | .netStandard, .netStandard => candidate.version.le target.version
  | .netCoreApp, .netStandard => implements
  | .netFramework, .netStandard => implements
  | _, _ => false
where
  implements : Bool :=
    target.maxNetStandard?.any fun v => candidate.version.le v

------------------------------------------------------------
-- Order
------------------------------------------------------------

/-
  A framework that can consume another is the greater one.
  Of two frameworks that cannot consume each other, each
  counts as less than the other.
-/
def compare (x y : Moniker) : Ordering :=
  if x.isNetStandard && y.isNetFramework then .lt
  else
    match x.consumes y, y.consumes x with
    | true, true => .eq
    | false, true => .lt
    | true, false => .gt
    | false, false => .lt

/- A missing framework is less than every framework. -/
def compareOption : Option Moniker → Option Moniker → Ordering
  | none, none => .eq
  | none, some _ => .lt
  | some _, none => .gt
  | some x, some y => x.compare y

def isAtLeast (x y : Moniker) : Bool :=
  x.compare y != .lt

------------------------------------------------------------
-- Merging
------------------------------------------------------------

/- Two frameworks name different platforms. -/
structure PlatformMismatch where
  left : Moniker
  right : Moniker
  deriving Repr, DecidableEq

def PlatformMismatch.message (e : PlatformMismatch) : String :=
  "Cannot merge target frameworks with different platforms: " ++
    e.left.name ++ " and " ++ e.right.name

/- The higher of two platform versions, or zero without any. -/
def mergedPlatformVersion (x y : Moniker) : FrameworkVersion :=
  match x.platformVersion, y.platformVersion with
  | some v, some w => v.max w
  | some v, none => v
  | none, some w => w
  | none, none => .zero

/-
  The framework that a merged platform belongs to: the higher
  one if it has platforms, else the one that had a platform.
-/
def mergedBase (x y : Moniker) : Moniker :=
  if x.withoutPlatform.compare y.withoutPlatform == .lt then
    y.withoutPlatform
  else x.withoutPlatform

/-
  The higher framework with the platform of whichever side
  has one.
-/
def merge (x y : Moniker) : Except PlatformMismatch Moniker :=
  let base := mergedBase x y
  let placed := fun (platform : String) =>
    let carrier :=
      if base.supportsPlatform then base
      else if x.platform.isSome then x.withoutPlatform
      else y.withoutPlatform
    carrier.withPlatform platform (some (mergedPlatformVersion x y))
  match x.platform, y.platform with
  | some p, some q =>
    if p == q then .ok (placed p) else .error ⟨x, y⟩
  | some p, none => .ok (placed p)
  | none, some q => .ok (placed q)
  | none, none => .ok base

end Retarget.Moniker
