import Retarget.Component.Basic
import Retarget.Package.Closure

/-
  This file tells the components of a project from its
  references, its SDK, its properties and its packages.

  Key definitions include:
    * `Identifier`
    * `Identifier.components`
    * `Identifier.ofReferences`
    * `Identifier.ofSdk`
    * `Identifier.ofPackages`
    * `Identifier.ofWindows`
    * `Identifier.identify`
-/

namespace Retarget

/- What components can be told from. -/
inductive Identifier where
  | oldStyle
  | sdkStyle
  | packages
  | windows
  deriving Repr, DecidableEq, Inhabited

namespace Identifier

def name : Identifier → String
  | oldStyle => "old-style"
  | sdkStyle => "sdk-style"
  | packages => "packages"
  | windows => "windows"

def all : List Identifier :=
  [oldStyle, sdkStyle, packages, windows]

------------------------------------------------------------
-- References
------------------------------------------------------------

/- A dotted name is another one or starts with all of it. -/
def isBelow (base name : String) : Bool :=
  let base := Text.lower base
  let name := Text.lower name
  name == base || Text.hasStart (base ++ ".") name

def refersToAny (p : Project) (names : List String) : Bool :=
  p.references.any fun r => names.any r.isNamed

def usesFramework (p : Project) (name : String) : Bool :=
  p.frameworkReferences.any fun r => r.isNamed name

def refersBelow (p : Project) (base : String) : Bool :=
  p.references.any fun r => isBelow base r.name

def importsWebTargets (p : Project) : Bool :=
  p.imports.any fun target =>
    Text.hasEnd "microsoft.webapplication.targets" (Text.lower target)

/- The components that go with a condition. -/
def when (condition : Bool) (cs : List Component) : List Component :=
  if condition then cs else []

/- What assemblies and imported targets tell of any project. -/
def ofReferences (p : Project) : ComponentSet :=
  .ofList <|
    when (importsWebTargets p || refersBelow p "System.Web") [.aspNet] ++
    when
      (refersToAny p
        ["System.Windows.Forms", "System.Windows.Forms.DataVisualization"])
      [.winForms, .windowsDesktop] ++
    when
      (refersToAny p
        ["System.Xaml", "PresentationCore", "PresentationFramework",
         "WindowsBase"])
      [.wpf, .windowsDesktop] ++
    when (refersBelow p "System.ServiceModel") [.wcf] ++
    when (refersToAny p ["Mono.Android"]) [.xamarinAndroid] ++
    when (refersToAny p ["Xamarin.iOS"]) [.xamarinIos]

------------------------------------------------------------
-- SDKs and properties
------------------------------------------------------------

/- What a project with an SDK says of itself. -/
def ofSdk (p : Project) : ComponentSet :=
  let web :=
    p.hasSdk "Microsoft.NET.Sdk.Web" ||
      usesFramework p "Microsoft.AspNetCore.App"
  let desktop :=
    p.hasSdk "Microsoft.NET.Sdk.WindowsDesktop" ||
      usesFramework p "Microsoft.WindowsDesktop.App"
  let wpf :=
    p.properties.isTrue "UseWPF" ||
      usesFramework p "Microsoft.WindowsDesktop.App.WPF"
  let winForms :=
    p.properties.isTrue "UseWindowsForms" ||
      usesFramework p "Microsoft.WindowsDesktop.App.WindowsForms"
  .ofList <| when p.isSdk <|
    when web [.aspNetCore] ++
    when desktop [.windowsDesktop] ++
    when wpf [.wpf, .windowsDesktop] ++
    when winForms [.winForms, .windowsDesktop] ++
    when (p.properties.isTrue "UseMaui") [.maui]

------------------------------------------------------------
-- Packages
------------------------------------------------------------

def winRTPackages : List String :=
  ["Microsoft.Windows.SDK.Contracts", "Microsoft.Windows.CsWinRT"]

/- What the packages that a project uses tell of it. -/
def ofPackages (ps : List PackageReference) : ComponentSet :=
  .ofList <|
    when (ps.any fun r => winRTPackages.any r.isNamed) [.winRT] ++
    when
      (ps.any fun r => Text.hasStart "xamarin.android" (Text.lower r.name))
      [.xamarinAndroid]

def winUIPackages : List String :=
  ["Microsoft.NETCore.UniversalWindowsPlatform", "Microsoft.WindowsAppSDK",
   "Microsoft.ProjectReunion"]

/- One of some packages is available; they are looked up in turn. -/
def anyAvailable (source : ClosureSource) (p : Project) (cancelled : Bool) :
    List String → Except PackageError Bool
  | [] => .ok false
  | name :: rest => do
    if ← source.isAvailable p name cancelled then return true
    else anyAvailable source p cancelled rest

/- A property or a package tells the Windows components. -/
def ofWindows (source : ClosureSource) (p : Project) (cancelled : Bool) :
    Except PackageError ComponentSet := do
  if p.properties.isTrue "UseWinUI" then return .ofList [.winUI]
  else
    let found ← anyAvailable source p cancelled winUIPackages
    return .ofList (when found [.winUI])

------------------------------------------------------------
-- Together
------------------------------------------------------------

/- The components that one identifier finds. -/
def components
    (source : ClosureSource)
    (p : Project)
    (cancelled : Bool) :
    Identifier → Except PackageError ComponentSet
  | oldStyle => do
    stopIfCancelled cancelled
    return ofReferences p
  | sdkStyle => do
    stopIfCancelled cancelled
    return ofSdk p
  | packages => do
    return ofPackages (← source.packages p cancelled)
  | windows => ofWindows source p cancelled

/- The components that some identifiers find together. -/
def identifyWith
    (identifiers : List Identifier)
    (source : ClosureSource)
    (p : Project)
    (cancelled : Bool) : Except PackageError ComponentSet :=
  identifiers.foldlM
    (fun found identifier => do
      stopIfCancelled cancelled
      return found.union (← components source p cancelled identifier))
    .empty

/- The components of a project. -/
def identify (source : ClosureSource) (p : Project) (cancelled : Bool) :
    Except PackageError ComponentSet :=
  identifyWith all source p cancelled

end Identifier

end Retarget
