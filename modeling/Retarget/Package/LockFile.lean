import Retarget.Files.View
import Retarget.Framework.Moniker
import Retarget.Json.Reader
import Retarget.Package.Error
import Retarget.Package.Range

/-
  This file defines lock files, in which a restore writes
  what each framework of a project resolved to.

  Key definitions include:
    * `LockFile`
    * `LockFile.parse`
    * `LockFile.target?`
    * `LockedTarget.library?`
    * `LockedTarget.closure`
-/

namespace Retarget

------------------------------------------------------------
-- Libraries
------------------------------------------------------------

inductive LibraryKind where
  | package
  | project
  | other
  deriving Repr, DecidableEq, Inhabited

def LibraryKind.title : LibraryKind → String
  | .package => "Package"
  | .project => "Project"
  | .other => "Other"

def LibraryKind.ofText (text : Option String) : LibraryKind :=
  let isKind := fun name =>
    text.any fun t => Text.equalsIgnoringAsciiCase t name
  if isKind "package" then .package
  else if isKind "project" then .project
  else .other

/- What a library depends on, with the range if it is readable. -/
structure LockedDependency where
  name : String
  range : Option VersionRange
  deriving Repr, DecidableEq, Inhabited

structure LockedLibrary where
  name : String
  version : PackageVersion
  kind : LibraryKind
  dependencies : List LockedDependency
  deriving Repr, DecidableEq, Inhabited

def LockedLibrary.isNamed (l : LockedLibrary) (name : String) : Bool :=
  Text.equalsIgnoringAsciiCase l.name name

def LockedLibrary.dependency? (l : LockedLibrary) (name : String) :
    Option LockedDependency :=
  l.dependencies.find? fun d => Text.equalsIgnoringAsciiCase d.name name

------------------------------------------------------------
-- Targets
------------------------------------------------------------

/- What was resolved for a framework, perhaps for one runtime. -/
structure LockedTarget where
  key : String
  framework : Option Moniker
  runtime : Option String
  libraries : List LockedLibrary
  /- What the project itself names for the framework. -/
  direct : List String
  deriving Repr, DecidableEq, Inhabited

namespace LockedTarget

variable (t : LockedTarget)

def library? (name : String) : Option LockedLibrary :=
  t.libraries.find? fun l => l.isNamed name

/-
  The libraries behind names in a queue and behind all that
  they depend on; `seen` holds the names that were looked up
  in lower case, and the number bounds what is found.
-/
def closureFrom
    (n : Nat)
    (queue : List String)
    (seen : List String) : List LockedLibrary :=
  match queue with
  | [] => []
  | name :: rest =>
    let key := Text.lower name
    if seen.contains key then closureFrom n rest seen
    else
      match t.library? name with
      | none => closureFrom n rest (key :: seen)
      | some l =>
        match n with
        | 0 => []
        | n + 1 =>
          let next := l.dependencies.map LockedDependency.name
          l :: closureFrom n (rest ++ next) (key :: seen)
termination_by (n, queue.length)

/- Each library that some names lead to, the nearest ones first. -/
def closure (roots : List String) : List LockedLibrary :=
  t.closureFrom t.libraries.length roots []

/- The target is for a framework, or for one of the same name. -/
def isFor (m : Moniker) : Bool :=
  t.framework.any fun f =>
    f.same m || Text.equalsIgnoringAsciiCase f.name m.name

end LockedTarget

------------------------------------------------------------
-- Lock files
------------------------------------------------------------

structure LockFile where
  path : Path
  version : Nat
  targets : List LockedTarget
  deriving Repr, DecidableEq, Inhabited

namespace LockFile

/- A library as it is written. -/
structure Entry where
  kind : Option String
  dependencies : Dictionary String
  deriving Inhabited

def readEntry : Json.Reader Entry := do
  let fields ← Json.readRecord ["type", "dependencies"]
    (fun name e => do
      match name with
      | "type" => return { e with kind := ← Json.readOption Json.readText }
      | _ => return { e with dependencies := ← Json.readMap Json.readText })
    (⟨none, .empty⟩ : Entry)
  return fields.value

/- A lock file as it is written. -/
structure Contents where
  version : Nat
  targets : Dictionary (Dictionary Entry)
  groups : Dictionary (List String)
  deriving Inhabited

def readContents : Json.Reader Contents := do
  let fields ← Json.readRecord
    ["version", "targets", "projectFileDependencyGroups"]
    (fun name c => do
      match name with
      | "version" => return { c with version := ← Json.readNat UInt32.size }
      | "targets" =>
        return { c with targets := ← Json.readMap (Json.readMap readEntry) }
      | _ =>
        return { c with
          groups := ← Json.readMap (Json.readArray Json.readText) })
    (⟨0, .empty, .empty⟩ : Contents)
  return fields.value

/- A library whose key holds a name and a readable version. -/
def library? (key : String) (entry : Entry) : Option LockedLibrary := do
  let (name, version) ← Text.splitLast '/' key
  return {
    name := name
    version := ← PackageVersion.parse? version
    kind := .ofText entry.kind
    dependencies := entry.dependencies.entries.map fun (name, range) =>
      ⟨name, VersionRange.parse? range⟩ }

def firstWord? (text : String) : Option String :=
  (Text.splitWhere Text.isBlank text).find? fun s => !s.isEmpty

def toTarget (c : Contents) (key : String) (libraries : Dictionary Entry) :
    LockedTarget :=
  let (framework, runtime) :=
    match Text.splitOnce '/' key with
    | some (framework, runtime) => (framework, some runtime)
    | none => (key, none)
  { key := key
    framework := Moniker.parse? framework
    runtime := runtime
    libraries := libraries.entries.filterMap fun (k, e) => library? k e
    direct := ((c.groups.find? framework).getD []).filterMap firstWord? }

def parse (path : Path) (text : String) : Except PackageError LockFile :=
  match Json.readWhole readContents text with
  | .ok c =>
    .ok ⟨path, c.version,
      c.targets.entries.map fun (key, libraries) => toTarget c key libraries⟩
  | .error _ => .error (.malformedLockFile path)

def load (files : FileView) (path : Path) : Except PackageError LockFile :=
  match files.read path with
  | .ok text => parse path text
  | .error e => .error (.unreadableLockFile path e.message)

/-
  The target for a framework: the first one without a
  runtime if there is one, else the first one.
-/
def target? (f : LockFile) (m : Moniker) : Option LockedTarget :=
  let found := f.targets.filter fun t => t.isFor m
  (found.find? fun t => t.runtime.isNone).or found.head?

end LockFile

end Retarget
