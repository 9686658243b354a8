import Retarget.Package.Error
import Retarget.Package.Range
import Retarget.Project.Reference

/-
  This file defines which versions a reference to a package
  may mean.

  Key definitions include:
    * `PackageReference.version?`
    * `PackageReference.range?`
    * `PackageReference.fixedVersion`
-/

namespace Retarget.PackageReference

variable (r : PackageReference)

def range? : Option VersionRange :=
  VersionRange.parse? r.version

/-
  The version that is written, that a floating range starts
  from, or that is the only one in its range.
-/
def version? : Option PackageVersion :=
  match PackageVersion.parse? r.version with
  | some v => some v
  | none =>
    r.range?.bind fun range =>
      if range.isFloating || range.isExact then range.min else none

def hasWildcard : Bool :=
  VersionRange.hasStar r.version

/- The version of a reference that does not float. -/
def fixedVersion : Except PackageError PackageVersion :=
  if r.hasWildcard then
    .error (.invalidArgument "reference"
      (r.text ++ " uses a floating version"))
  else
    match r.version? with
    | some v => .ok v
    | none =>
      .error (.invalidArgument "reference"
        (r.text ++ " does not specify a fixed version"))

end Retarget.PackageReference
