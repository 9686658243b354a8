import Retarget.Analysis.Compilation
import Retarget.Files.Disk
import Retarget.Workspace.Projects

/-
  This file collects the source files below a directory, and
  the files of rules among them.  Folders that tools fill are
  passed over.

  Key definitions include:
    * `SourceSet`
    * `Workspace.collectSources`
    * `Workspace.loadCompilation`
-/

namespace Retarget

structure SourceSet where
  sources : List Path
  additional : List Path
  deriving Repr, DecidableEq, Inhabited

namespace Workspace

------------------------------------------------------------
-- Collecting
------------------------------------------------------------

/- Folders of tools and of what they make. -/
def skippedFolders : List String :=
  ["bin", "obj", ".git", ".vs", "node_modules", "packages"]

def isSkipped (folder : String) : Bool :=
  skippedFolders.any (Text.equalsIgnoringAsciiCase folder)

/- Names are compared from the top of the tree down. -/
def routeOrder (a b : Route) : Ordering :=
  List.compareLex Text.order a b

/- The routes of files from a directory on, folder by folder. -/
def filesBelow (d : Disk) (directory : Route) : List Route :=
  let routes := d.files.filterMap fun f => directory.isPrefixOf? f.1
  let kept := routes.filter fun r => !r.dropLast.any isSkipped
  kept.mergeSort fun a b => routeOrder a b != .gt

/- The directory of a path, which is the path itself if it can be. -/
def sourceRoot (d : Disk) (path : Path) : Path :=
  if d.isFile path then path.parent?.getD ⟨"."⟩ else path

/- All files below the directory of a path. -/
def treeFiles (d : Disk) (path : Path) : List Path :=
  let root := sourceRoot d path
  match d.locate root with
  | .ok directory =>
    (filesBelow d directory).map fun route => route.foldl Path.child root
  | .error _ => []

def additionalSuffixes : List String :=
  [".apitargets", ".typemap"]

def collectSources (d : Disk) (path : Path) : SourceSet :=
  let (sources, others) :=
    (treeFiles d path).partition fun p => (Language.ofPath? p).isSome
  ⟨sources, others.filter fun p => hasSuffix p additionalSuffixes⟩

------------------------------------------------------------
-- Loading
------------------------------------------------------------

variable [CSharp.Grammar]

/- Read a file that must be there, for some purpose. -/
def readFor (d : Disk) (purpose : String) (path : Path) :
    Except String String :=
  (d.view.read path).mapError fun e =>
    "Failed to read " ++ purpose ++ " " ++ path.text ++ ": " ++ e.chain

/- Add a source file, unless it cannot be read or parsed. -/
def addSourceFile (d : Disk) (c : Compilation) (path : Path) : Compilation :=
  match d.view.read path with
  | .error _ => c
  | .ok text =>
    match c.addSource path text with
    | .ok c => c
    | .error _ => c

/-
  The sources below the directory of a path, with a list of
  references and with more files of rules.
-/
def loadCompilation
    (d : Disk)
    (path : Path)
    (references : Option Path)
    (additional : List Path) : Except String Compilation := do
  let set := collectSources d path
  let start ←
    match references with
    | none => pure Compilation.empty
    | some p =>
      let text ← readFor d "reference list" p
      pure (Compilation.empty.withReferences (.ofReferenceList text))
  let c := set.sources.foldl (addSourceFile d) start
  (set.additional ++ additional).foldlM
    (fun c p => do
      let text ← readFor d "additional file" p
      return c.addAdditional ⟨p, text⟩)
    c

end Workspace

end Retarget
