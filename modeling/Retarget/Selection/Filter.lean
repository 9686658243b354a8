import Retarget.Component.Basic
import Retarget.Framework.Compatibility
import Retarget.Project.Reference
import Retarget.Selection.Options

/-
  This file selects the framework that a project should move
  to.  Starting from .NET Standard 2.0, one filter after the
  other may raise the framework.

  Key definitions include:
    * `SelectionInput`
    * `SelectionFilter`
    * `SelectionFilter.apply`
    * `SelectionInput.trace`
    * `SelectionInput.select`
-/

namespace Retarget

/- All that a selection depends on. -/
structure SelectionInput where
  frameworks : List Moniker
  outputType : OutputType
  components : ComponentSet
  /- The frameworks of the projects that the project refers to. -/
  dependencies : List Moniker
  options : SelectionOptions
  deriving Repr, DecidableEq, Inhabited

inductive SelectionFilter where
  | standardBaseline
  | executableAndWeb
  | windowsDesktop
  | dependencies
  | noDowngrade
  deriving Repr, DecidableEq, Inhabited

namespace SelectionFilter

def name : SelectionFilter → String
  | standardBaseline => "netstandard-baseline"
  | executableAndWeb => "executable-and-web"
  | windowsDesktop => "windows-desktop"
  | dependencies => "dependencies"
  | noDowngrade => "no-downgrade"

/- The filters in the order in which they are applied. -/
def all : List SelectionFilter :=
  [standardBaseline, executableAndWeb, windowsDesktop, dependencies,
   noDowngrade]

------------------------------------------------------------
-- Single filters
------------------------------------------------------------

/- The frameworks that projects stay on or move to. -/
def isModern (m : Moniker) : Bool :=
  m.isNetCore || m.isNetStandard

/- The one with the highest version, and the last one of several. -/
def highestVersion? : List Moniker → Option Moniker
  | [] => none
  | m :: r =>
    match highestVersion? r with
    | none => some m
    | some best =>
      if best.version.order m.version == .lt then some m else some best

/- Keep a project on the highest .NET Standard that it targets. -/
def keepStandard (input : SelectionInput) (m : Moniker) : Moniker :=
  match highestVersion? (input.frameworks.filter Moniker.isNetStandard) with
  | some current => if m.compare current == .lt then current else m
  | none => m

/- Programs and web projects need a framework for applications. -/
def moveApplications (input : SelectionInput) (m : Moniker) : Moniker :=
  if input.components.isWeb || input.outputType.isExecutable then
    input.options.appBase
  else m

def needsWindows (input : SelectionInput) : Bool :=
  input.components.containsAny [.windowsDesktop, .winUI] ||
    input.outputType == .winExe

/- The platform version, for projects that are made for it. -/
def windowsVersion? (input : SelectionInput) : Option FrameworkVersion :=
  if input.components.containsAny [.winRT, .winUI] then
    some input.options.windowsSdkVersion
  else none

/- Desktop projects need the platform `windows`. -/
def moveDesktop (input : SelectionInput) (m : Moniker) : Moniker :=
  if needsWindows input then
    input.options.appBase.withPlatform "windows" (windowsVersion? input)
  else m

/-
  Raise a framework for one dependency.  If their platforms
  are at odds, the dependency decides.
-/
def raise (m dependency : Moniker) : Moniker :=
  if m.isAtLeast dependency then m
  else
    match m.merge dependency with
    | .ok merged => merged
    | .error _ => dependency

/- Raise a framework for all dependencies that can be met. -/
def raiseAll (dependencies : List Moniker) (m : Moniker) : Moniker :=
  (dependencies.filter isModern).foldl raise m

/- The greater of two frameworks, and the first if neither is. -/
def greater (best next : Moniker) : Moniker :=
  if best.compare next == .lt then next else best

def highestModern? (frameworks : List Moniker) : Option Moniker :=
  match frameworks.filter isModern with
  | [] => none
  | m :: r => some (r.foldl greater m)

/- Never go below the highest framework that is targeted. -/
def keepHighest (frameworks : List Moniker) (m : Moniker) : Moniker :=
  match highestModern? frameworks with
  | none => m
  | some current => raise m current

------------------------------------------------------------
-- All filters
------------------------------------------------------------

/- The framework after a filter. -/
def apply (input : SelectionInput) (f : SelectionFilter) (m : Moniker) :
    Moniker :=
  match f with
  | standardBaseline => keepStandard input m
  | executableAndWeb => moveApplications input m
  | windowsDesktop => moveDesktop input m
  | dependencies => raiseAll input.dependencies m
  | noDowngrade => keepHighest input.frameworks m

end SelectionFilter

namespace SelectionInput

/- The framework after each of some filters. -/
def traceFrom (input : SelectionInput) (m : Moniker) :
    List SelectionFilter → List (SelectionFilter × Moniker)
  | [] => []
  | f :: r =>
    let next := f.apply input m
    (f, next) :: input.traceFrom next r

def trace (input : SelectionInput) : List (SelectionFilter × Moniker) :=
  input.traceFrom .netStandard20 SelectionFilter.all

/- The framework that a project should move to. -/
def select (input : SelectionInput) : Moniker :=
  SelectionFilter.all.foldl (fun m f => f.apply input m) .netStandard20

end SelectionInput

end Retarget
