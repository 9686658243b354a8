import Retarget.Framework.Moniker
import Retarget.Files.View
import Retarget.Project.Properties
import Retarget.Project.Reference
import Retarget.Xml.Node

/-
  This file defines projects as they are read from their
  files.  Conditions are not evaluated: a property with a
  condition is left out, an item with one is kept.

  Key definitions include:
    * `Project`
    * `Project.ofXml`
    * `Project.parse`
    * `Project.load`
    * `Project.lockFilePath`
    * `Project.usesPackageReferences`

  Key statements include:
    * `Project.exists_read_of_load`
-/

namespace Retarget

------------------------------------------------------------
-- Errors
------------------------------------------------------------

inductive ProjectError where
  | unreadable (path : Path) (details : String)
  | malformed (path : Path)
  | unexpectedRoot (path : Path) (found : String)
  deriving Repr, DecidableEq

def ProjectError.message : ProjectError → String
  | .unreadable path details =>
    "Failed to read project file " ++ path.text ++ ": " ++ details
  | .malformed path =>
    "Project file " ++ path.text ++ " is not valid MSBuild XML"
  | .unexpectedRoot path found =>
    "Project file " ++ path.text ++ " is not valid MSBuild XML: " ++
      "expected <Project> root, found <" ++ found ++ ">"

------------------------------------------------------------
-- Projects
------------------------------------------------------------

structure Project where
  path : Path
  sdks : List String
  properties : Properties
  imports : List String
  references : List AssemblyReference
  packages : List PackageReference
  frameworkReferences : List FrameworkReference
  projectReferences : List Path
  /- Some package is an item of the project file itself. -/
  hasPackageItems : Bool
  /- An SDK is named, even if its name is empty. -/
  isSdk : Bool
  deriving Repr, DecidableEq, Inhabited

namespace Project

/- A path in a project file, in which backslashes are slashes. -/
def resolve (base : Path) (text : String) : Path :=
  (base.join ⟨Text.replaceChar '\\' '/' text⟩).normalize

variable (p : Project)

def empty (path : Path) : Project where
  path := path
  sdks := []
  properties := .ofPath path
  imports := []
  references := []
  packages := []
  frameworkReferences := []
  projectReferences := []
  hasPackageItems := false
  isSdk := false

def directory : Path :=
  p.path.parent?.getD ⟨""⟩

def fileName : String :=
  p.path.fileName

def property? (name : String) : Option String :=
  p.properties.find? name

def hasSdk (name : String) : Bool :=
  p.sdks.any fun sdk => Text.equalsIgnoringAsciiCase sdk name

def outputType : OutputType :=
  .ofProperty (p.property? "OutputType")

------------------------------------------------------------
-- Target frameworks
------------------------------------------------------------

/- The trimmed parts of a list with semicolons between them. -/
def listItems (value : String) : List String :=
  ((Text.splitAt ';' value).map Text.trim).filter (!·.isEmpty)

def addFramework (ms : List Moniker) (m : Moniker) : List Moniker :=
  if ms.any m.same then ms else ms ++ [m]

/- The names of frameworks in the project file. -/
def frameworkNames : List String :=
  listItems ((p.property? "TargetFrameworks").getD "") ++
    [(p.property? "TargetFramework").getD ""]

/-
  The frameworks that the project targets, each one once;
  names of no framework are left out.  The version of an old
  project counts only if nothing else does.
-/
def targetFrameworks : List Moniker :=
  let named := p.frameworkNames.filterMap Moniker.parse?
  match named.foldl addFramework [] with
  | [] =>
    ((p.property? "TargetFrameworkVersion").bind
      Moniker.parseLegacy?).toList
  | found => found

------------------------------------------------------------
-- Restoring packages
------------------------------------------------------------

/-
  Packages are restored into a lock file rather than into a
  folder.  A stated style decides; without one, packages in
  the project file or an SDK do.
-/
def usesPackageReferences : Bool :=
  let style := (p.property? "RestoreProjectStyle").map Text.trim
  let isStyle := fun name =>
    style.any fun s => Text.equalsIgnoringAsciiCase s name
  if isStyle "PackageReference" then true
  else if isStyle "PackagesConfig" then false
  else p.isSdk || p.hasPackageItems

/- Where a restore writes the lock file. -/
def lockFilePath : Path :=
  let filled := fun (value : Option String) =>
    value.filter fun v => !v.isEmpty
  match filled (p.property? "ProjectAssetsFile") with
  | some assets => resolve p.directory assets
  | none =>
    let folder := (p.property? "MSBuildProjectExtensionsPath").or
      (p.property? "BaseIntermediateOutputPath")
    (resolve p.directory ((filled folder).getD "obj")).child
      "project.assets.json"

------------------------------------------------------------
-- Reading elements
------------------------------------------------------------

/- Add SDKs; of a pinned version only the name is kept. -/
def addSdks (value : String) : Project :=
  (listItems value).foldl
    (fun p sdk =>
      let name := Text.before '/' sdk
      let sdks := if p.hasSdk name then p.sdks else p.sdks ++ [name]
      { p with sdks := sdks, isSdk := true })
    p

def expand (text : String) : String :=
  p.properties.expand text

def addImport (node : Xml.Node) : Project :=
  let p := (node.attribute? "Sdk").elim p p.addSdks
  match node.attribute? "Project" with
  | some target => { p with imports := p.imports ++ [p.expand target] }
  | none => p

def addProperty (node : Xml.Node) : Project :=
  if (node.attribute? "Condition").isSome then p
  else
    let value := p.expand (Text.trim (node.text?.getD ""))
    { p with properties := p.properties.set node.name value }

def addProperties (group : Xml.Node) : Project :=
  if (group.attribute? "Condition").isSome then p
  else group.elements.foldl addProperty p

/- The trimmed text of a child element. -/
def childText? (node : Xml.Node) (name : String) : Option String :=
  ((node.child? name).bind Xml.Node.text?).map Text.trim

def addItem (node : Xml.Node) : Project :=
  let target := (node.attribute? "Include").or (node.attribute? "Update")
  match target.map p.expand with
  | none => p
  | some target =>
    match node.name with
    | "Reference" =>
      let hintPath := (childText? node "HintPath").map p.expand
      { p with
        references := p.references ++ [.ofInclude target hintPath] }
    | "PackageReference" =>
      let version := (node.attribute? "Version").or
        (childText? node "Version")
      { p with
        packages := p.packages ++
          [⟨target, (version.map p.expand).getD ""⟩]
        hasPackageItems := true }
    | "FrameworkReference" =>
      { p with
        frameworkReferences := p.frameworkReferences ++ [⟨target⟩] }
    | "ProjectReference" =>
      { p with
        projectReferences :=
          p.projectReferences ++ [resolve p.directory target] }
    | _ => p

def addElement (node : Xml.Node) : Project :=
  match node.name with
  | "Sdk" => (node.attribute? "Name").elim p p.addSdks
  | "Import" => p.addImport node
  | "PropertyGroup" => p.addProperties node
  | "ItemGroup" => node.elements.foldl addItem p
  | _ => p

/- The project of a root element; its parts are read in order. -/
def ofXml (path : Path) (root : Xml.Node) : Except ProjectError Project :=
  if root.name == "Project" then
    let start := empty path
    let start := (root.attribute? "Sdk").elim start start.addSdks
    .ok (root.elements.foldl addElement start)
  else .error (.unexpectedRoot path root.name)

def parse (path : Path) (text : String) : Except ProjectError Project :=
  match Xml.Node.read? text with
  | some root => ofXml path root
  | none => .error (.malformed path)

------------------------------------------------------------
-- Reading files
------------------------------------------------------------

def readFile (files : FileView) (path : Path) : Except ProjectError String :=
  match files.read path with
  | .ok text => .ok text
  | .error e => .error (.unreadable path e.message)

/- The packages that a list of packages names. -/
def parsePackages (path : Path) (text : String) :
    Except ProjectError (List PackageReference) :=
  match Xml.Node.read? text with
  | none => .error (.malformed path)
  | some root =>
    let nodes := root.descendants.filter fun n => n.name == "package"
    .ok <| nodes.filterMap fun n =>
      (n.attribute? "id").map fun id =>
        ⟨id, (n.attribute? "version").getD ""⟩

/- Add packages whose names are new. -/
def addPackages (packages : List PackageReference) : Project :=
  packages.foldl
    (fun p package =>
      if p.packages.any fun q => q.isNamed package.name then p
      else { p with packages := p.packages ++ [package] })
    p

/- The list of packages beside a project file. -/
def packageListPath : Path :=
  p.directory.child "packages.config"

/-
  Read a project file; a project without an SDK may have a
  list of packages beside it.
-/
def load (files : FileView) (path : Path) : Except ProjectError Project := do
  let p ← parse path (← readFile files path)
  let listPath := p.packageListPath
  if !p.isSdk && files.isFile listPath then
    let packages ← parsePackages listPath (← readFile files listPath)
    return p.addPackages packages
  else return p

/- A project comes from a file that can be read. -/
theorem exists_read_of_load
    {files : FileView}
    {path : Path}
    {p : Project}
    (h : load files path = .ok p) :
    ∃ text, files.read path = .ok text := by
  cases hRead : files.read path with
  | ok text => exact ⟨text, rfl⟩
  | error e => simp [load, readFile, hRead, bind, Except.bind] at h

end Project

end Retarget
