import Retarget.Command.Arguments
import Retarget.Project.Graph
import Retarget.Workspace.Sources

/-
  This file tells what a command looks at on a disk, as far
  as the part of the disk that is known shows it.  Once all
  of that is known, so is all that the command depends on.

  Key definitions include:
    * `Workspace.projectRoutes`
    * `Workspace.sourceRoutes`
    * `Command.routes`
-/

namespace Retarget

namespace Workspace

/- The files that describe a project, and those it refers to. -/
def filesAround (p : Project) : List Path :=
  [p.path, p.packageListPath, p.lockFilePath] ++ p.projectReferences

/- What leads from a path to projects and on to others. -/
def projectRoutes (d : Disk) (path : Path) : List Route :=
  let entries := (resolveProjects d.view path).toOption.getD []
  let projects :=
    match ProjectGraph.load d.view entries with
    | .ok graph => graph.projects.values
    | .error _ => entries.filterMap fun p => (Project.load d.view p).toOption
  (path :: entries ++ projects.flatMap filesAround).map d.follow

/- The directories that sources are collected from. -/
def sourceRoutes (d : Disk) (path : Path) : List Route :=
  let root := d.follow (sourceRoot d path)
  let below := d.directories.filter fun r =>
    match root.isPrefixOf? r with
    | some rest => !rest.any isSkipped
    | none => false
  d.follow path :: root :: below

end Workspace

namespace Command

def projectTarget (d : Disk) (t : Target) : List Route :=
  Workspace.projectRoutes d t.path ++ t.output.toList.map d.follow

def sourceTarget (d : Disk) (t : Target) (inputs : RuleInputs) :
    List Route :=
  Workspace.sourceRoutes d t.path ++
    (t.output.toList ++ inputs.references.toList ++ inputs.additional).map
      d.follow

/- What a command looks at. -/
def routes (d : Disk) : Command → List Route
  | .components t => projectTarget d t
  | .frameworks t _ => projectTarget d t
  | .versions t _ => projectTarget d t
  | .analyze t inputs => sourceTarget d t inputs
  | .fix t inputs _ => sourceTarget d t inputs
  | .settings _ => []

end Command

end Retarget
