import Retarget.Text.Basic
import Retarget.Text.Case

/-
  This file defines what a project refers to and what it is
  built into.

  Key definitions include:
    * `AssemblyReference`
    * `FrameworkReference`
    * `PackageReference`
    * `OutputType`
-/

namespace Retarget

------------------------------------------------------------
-- References
------------------------------------------------------------

/- A reference to an assembly, perhaps with the place of its file. -/
structure AssemblyReference where
  name : String
  hintPath : Option String
  deriving Repr, DecidableEq, Inhabited

/- The name ends at the first comma; details follow it. -/
def AssemblyReference.ofInclude
    (text : String)
    (hintPath : Option String) : AssemblyReference :=
  ⟨Text.trim (Text.before ',' text), hintPath⟩

def AssemblyReference.isNamed (r : AssemblyReference) (name : String) : Bool :=
  Text.equalsIgnoringAsciiCase r.name name

structure FrameworkReference where
  name : String
  deriving Repr, DecidableEq, Inhabited

def FrameworkReference.isNamed (r : FrameworkReference) (name : String) : Bool :=
  Text.equalsIgnoringAsciiCase r.name name

/- A package, with its version or range as it was written. -/
structure PackageReference where
  name : String
  version : String
  deriving Repr, DecidableEq, Inhabited

def PackageReference.isNamed (r : PackageReference) (name : String) : Bool :=
  Text.equalsIgnoringAsciiCase r.name name

def PackageReference.text (r : PackageReference) : String :=
  r.name ++ ", Version=" ++ r.version

------------------------------------------------------------
-- Output
------------------------------------------------------------

inductive OutputType where
  | library
  | exe
  | winExe
  | appContainerExe
  | other
  deriving Repr, DecidableEq, Inhabited

namespace OutputType

def title : OutputType → String
  | library => "Library"
  | exe => "Exe"
  | winExe => "WinExe"
  | appContainerExe => "AppContainerExe"
  | other => "Other"

def ofTitle? : String → Option OutputType
  | "Library" => some library
  | "Exe" => some exe
  | "WinExe" => some winExe
  | "AppContainerExe" => some appContainerExe
  | "Other" => some other
  | _ => none

/- Read a property, which is missing for most libraries. -/
def ofProperty (value : Option String) : OutputType :=
  match value.map fun v => Text.lower (Text.trim v) with
  | none => library
  | some "" => library
  | some "library" => library
  | some "exe" => exe
  | some "winexe" => winExe
  | some "appcontainerexe" => appContainerExe
  | some _ => other

def isExecutable : OutputType → Bool
  | exe => true
  | winExe => true
  | appContainerExe => true
  | library => false
  | other => false

end OutputType

end Retarget
