import Retarget.Package.LockFile
import Retarget.Package.Reference
import Retarget.Project.Basic

/-
  This file answers which packages a project uses, directly
  or through other packages.

  Key definitions include:
    * `ClosureSource`
    * `ClosureSource.packages`
    * `ClosureSource.isAvailable`
    * `ClosureSource.isDependency`
-/

namespace Retarget

/- Where the packages of a project are looked up. -/
inductive ClosureSource where
  /- In the lock file of the project, as it is now. -/
  | lockFile (files : FileView)
  /- In the project file, which knows its own packages only. -/
  | direct

namespace ClosureSource

------------------------------------------------------------
-- Lock files
------------------------------------------------------------

/-
  The lock file of a project.  A project that lists its
  packages elsewhere may do without one.
-/
def lockFileOf? (files : FileView) (p : Project) :
    Except PackageError (Option LockFile) :=
  let path := p.lockFilePath
  if files.isFile path then (LockFile.load files path).map some
  else if p.usesPackageReferences then
    .error (.restoreRequired p.path path)
  else .ok none

/- The lock file to look into, if there is one. -/
def lookUp? (p : Project) (cancelled : Bool) :
    ClosureSource → Except PackageError (Option LockFile)
  | lockFile files => do
    stopIfCancelled cancelled
    lockFileOf? files p
  | direct => do
    stopIfCancelled cancelled
    return none

/- The targets for some frameworks, or all without a runtime. -/
def targetsFor (f : LockFile) (frameworks : List Moniker) :
    List LockedTarget :=
  if frameworks.isEmpty then f.targets.filter fun t => t.runtime.isNone
  else frameworks.filterMap f.target?

------------------------------------------------------------
-- Packages
------------------------------------------------------------

/- Two libraries with one name and the same version. -/
def sameLibrary (a b : LockedLibrary) : Bool :=
  Text.equalsIgnoringCase a.name b.name && a.version.same b.version

def addLibrary (ls : List LockedLibrary) (l : LockedLibrary) :
    List LockedLibrary :=
  if ls.any (sameLibrary l) then ls else ls ++ [l]

/- The packages among the libraries of targets, each one once. -/
def packagesOf (targets : List LockedTarget) : List PackageReference :=
  let libraries := (targets.flatMap LockedTarget.libraries).filter
    fun l => l.kind == .package
  (libraries.foldl addLibrary []).map fun l => ⟨l.name, l.version.text⟩

variable (source : ClosureSource)

/- The packages that a project uses for any of its frameworks. -/
def packages (p : Project) (cancelled : Bool) :
    Except PackageError (List PackageReference) := do
  match ← source.lookUp? p cancelled with
  | none => return p.packages
  | some f => return packagesOf (targetsFor f p.targetFrameworks)

/- Something that a project names leads to a package. -/
def isAvailable (p : Project) (name : String) (cancelled : Bool) :
    Except PackageError Bool := do
  requireName "package_name" name
  match ← source.lookUp? p cancelled with
  | none => return p.packages.any fun r => r.isNamed name
  | some f =>
    let named := p.packages.map PackageReference.name
    return (targetsFor f p.targetFrameworks).any fun t =>
      (t.closure (t.direct ++ named)).any fun l => l.isNamed name

/- A library asks for exactly the version of a reference, or more. -/
def asksFor (name : String) (v : PackageVersion) (l : LockedLibrary) : Bool :=
  !l.isNamed name &&
    (l.dependency? name).any fun d =>
      (d.range.bind VersionRange.min).any fun w => w.same v

/-
  Another library has a range for a reference that starts
  with the version of the reference.
-/
def isDependency (p : Project) (r : PackageReference) (cancelled : Bool) :
    Except PackageError Bool := do
  requireName "reference" r.name
  match source, r.version? with
  | lockFile _, none => return false
  | _, version =>
    match ← source.lookUp? p cancelled, version with
    | some f, some v =>
      return (targetsFor f p.targetFrameworks).any fun t =>
        t.libraries.any (asksFor r.name v)
    | _, _ => return false

end ClosureSource

end Retarget
