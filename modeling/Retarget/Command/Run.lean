import Retarget.Analysis.Run
import Retarget.Command.Arguments
import Retarget.Command.Session
import Retarget.Component.Identification
import Retarget.Fix.Fixer
import Retarget.Project.Graph
import Retarget.Selection.Filter
import Retarget.Source.CSharp.Reader.Tree
import Retarget.Workspace.Sources

/-
  This file runs commands: what each of them reads, reports
  and writes, and how a run ends.

  Key definitions include:
    * `Invocation`
    * `Invocation.run`
    * `Outcome`
    * `Command.perform`
-/

namespace Retarget

------------------------------------------------------------
-- Projects
------------------------------------------------------------

namespace Work

/- The settings of a run, which must be consistent. -/
def loadSettings (environment : Dictionary String) : Work Settings := do
  let s ← attempt "Failed to read configuration" SettingsError.message
    (Settings.ofEnvironment environment)
  attempt "Invalid configuration" SettingsError.message s.validate
  return s

/- The projects that a path leads to and all that they refer to. -/
def loadGraph (path : Path) : Work ProjectGraph := do
  let files ← files
  let paths ← expect WorkspaceError.message
    (Workspace.resolveProjects files path)
  attempt "Failed to load projects" ProjectError.message
    (ProjectGraph.load files paths)

/- What to do about a missing lock file. -/
def restoreHint : String :=
  "run 'dotnet restore' to include transitive packages"

/-
  The components of a project.  Before its packages were
  restored only those in its own file count.
-/
def identify (p : Project) : Work ComponentSet := do
  let purpose := "Failed to identify components of " ++ p.path.text
  match Identifier.identify (.lockFile (← files)) p false with
  | .error (.restoreRequired _ _) =>
    hint restoreHint
    attempt purpose PackageError.message (Identifier.identify .direct p false)
  | found => attempt purpose PackageError.message found

/- Write a report to a file, or show it. -/
def deliver (report : Report) (format : ReportFormat) (file : Option Path) :
    Work Unit := do
  let text := report.text format
  match file with
  | none => print text
  | some path =>
    setDisk <| ← attempt ("Failed to write output to " ++ path.text)
      Disk.Fault.message ((← get).disk.write path text)

end Work

------------------------------------------------------------
-- Reports
------------------------------------------------------------

namespace Command

def componentsReport (path : Path) : Work Report := do
  let graph ← Work.loadGraph path
  let rows ← graph.upgradeOrder.mapM fun p => do
    return ⟨p.path, ← Work.identify p⟩
  return .components rows

/- Select the framework of a project after those it refers to. -/
def selectFramework
    (options : SelectionOptions)
    (selected : PathTable Moniker)
    (p : Project) : Work Moniker := do
  let input : SelectionInput :=
    { frameworks := p.targetFrameworks
      outputType := p.outputType
      components := ← Work.identify p
      dependencies := p.projectReferences.filterMap selected.find?
      options := options }
  return input.select

def frameworksReport
    (environment : Dictionary String)
    (path : Path)
    (channel : Option Channel) : Work Report := do
  let s ← Work.loadSettings environment
  let s := { s with channel := channel.getD s.channel }
  let options ← Work.expect SettingError.message
    (SelectionOptions.ofSettings s)
  let graph ← Work.loadGraph path
  let (_, rows) ← graph.upgradeOrder.foldlM
    (fun (selected, rows) p => do
      let recommended ← selectFramework options selected p
      let row : FrameworkRow := ⟨p.path, p.targetFrameworks, recommended⟩
      return (selected.insert p.path recommended, rows ++ [row]))
    (PathTable.empty, [])
  return .frameworks rows

/- How many workers share an analysis. -/
def workers : Nat := 4

/- The sources below a path and what the analyzers find in them. -/
def findIssues (path : Path) (inputs : RuleInputs) :
    Work (Compilation × List Diagnostic) := do
  let c ← Work.expect id <|
    Workspace.loadCompilation (← get).disk path inputs.references
      inputs.additional
  let found ← Work.attempt "Analysis failed" AnalysisError.message
    (Analysis.run (Analyzer.allWith none) c workers false)
  return (c, found)

/- Write what a fix made of a file. -/
def writeFixed (r : FixResult) : Work Unit := do
  Work.setDisk <| ← Work.attempt ("Failed to write " ++ r.path.text)
    FileError.chain ((← get).disk.writeBelow r.path r.text)

def fixesReport (path : Path) (inputs : RuleInputs) (dryRun : Bool) :
    Work Report := do
  let (c, found) ← findIssues path inputs
  let results ← Work.attempt "Failed to compute fixes" AnalysisError.message
    (Fixer.fixAll c found)
  let rows ← results.mapM fun r => do
    let writes := r.isChanged && !dryRun
    if writes then writeFixed r
    return ⟨r.path, r.applied, r.skipped, writes⟩
  return .fixes rows

/- The newer versions of a package that a project uses. -/
def versionRow
    (feeds : List Feed)
    (policy : RetryPolicy)
    (prerelease : Bool)
    (p : Project)
    (r : PackageReference) : Work VersionRow := do
  let found ← Work.search (Search.newerVersions feeds policy r prerelease)
  let newer ← Work.attempt ("Failed to look up versions of " ++ r.name)
    PackageError.message found
  return ⟨p.path, r.name, r.version, newer⟩

def versionsReport
    (environment : Dictionary String)
    (network : Network)
    (path : Path)
    (prerelease : Bool) : Work Report := do
  let s ← Work.loadSettings environment
  let feeds ← Work.connect network s.packageSources
  let policy : RetryPolicy := ⟨s.maxRetries, s.retryDelayMs⟩
  let graph ← Work.loadGraph path
  let rows ← graph.upgradeOrder.mapM fun p =>
    p.packages.mapM (versionRow feeds policy prerelease p)
  return .versions rows.flatten

/- Carry out a command. -/
def perform
    (environment : Dictionary String)
    (network : Network) : Command → Work Unit
  | .components t => do
    Work.deliver (← componentsReport t.path) t.format t.output
  | .frameworks t channel => do
    Work.deliver (← frameworksReport environment t.path channel) t.format
      t.output
  | .analyze t inputs => do
    let (_, found) ← findIssues t.path inputs
    Work.deliver (.diagnostics found) t.format t.output
  | .fix t inputs dryRun => do
    Work.deliver (← fixesReport t.path inputs dryRun) t.format none
  | .versions t prerelease => do
    Work.deliver (← versionsReport environment network t.path prerelease)
      t.format t.output
  | .settings format => do
    Work.deliver (.settings (← Work.loadSettings environment)) format none

end Command

------------------------------------------------------------
-- Runs
------------------------------------------------------------

/- What the program is started with. -/
structure Invocation where
  arguments : List String
  /- The variables of the environment that concern it. -/
  environment : Dictionary String
  disk : Disk
  network : Network

/- How a run ends, with the message of what ended it early. -/
structure Outcome where
  exitCode : Nat
  error : Option String
  session : Session
  deriving Repr, Inhabited

namespace Invocation

def versionText : String :=
  "dotport 0.4.0\n"

/- How a run ends that carries out no command. -/
def refuse (s : Session) : Refusal → Outcome
  | .misused => ⟨2, none, s⟩
  | .helpWanted => ⟨0, none, { s with output := Command.usage }⟩
  | .versionWanted => ⟨0, none, { s with output := versionText }⟩

def run (i : Invocation) : Outcome :=
  let s := Session.start i.disk
  match Command.parse i.arguments with
  | .error refusal => refuse s refusal
  | .ok command =>
    match (command.perform i.environment i.network).run.run s with
    | (.ok (), s) => ⟨0, none, s⟩
    | (.error message, s) => ⟨1, some message, s⟩

end Invocation

end Retarget
