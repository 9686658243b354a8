import Retarget.Project.Solution

/-
  This file finds the projects that a path leads to: those of
  a solution, a project file itself, or what lies directly in
  a directory, where a solution comes first.

  Key definitions include:
    * `WorkspaceError`
    * `Workspace.resolveProjects`
-/

namespace Retarget

/- Why a path leads to no projects. -/
inductive WorkspaceError where
  | noSuchPath (path : Path)
  | notAProject (path : Path)
  | emptySolution (path : Path)
  | nothingFound (path : Path)
  | unreadableSolution (path : Path) (cause : ProjectError)
  | unlistable (cause : FileError)
  deriving Repr, DecidableEq

def WorkspaceError.message : WorkspaceError → String
  | .noSuchPath path => "Path does not exist: " ++ path.text
  | .notAProject path =>
    path.text ++ " is neither a solution nor a project file"
  | .emptySolution path =>
    "Solution " ++ path.text ++ " contains no projects"
  | .nothingFound path =>
    "No solution or project file found in " ++ path.text
  | .unreadableSolution path cause =>
    "Failed to read solution " ++ path.text ++ ": " ++ cause.message
  | .unlistable cause => cause.chain

namespace Workspace

def projectSuffixes : List String :=
  Solution.projectExtensions.map ("." ++ ·)

/- The name at the end of a path has one of some endings. -/
def hasSuffix (path : Path) (suffixes : List String) : Bool :=
  suffixes.any fun suffix =>
    Text.hasEnd suffix (Text.lower path.fileName)

/- The projects that a file stands for. -/
def projectsOfFile (files : FileView) (path : Path) :
    Except WorkspaceError (List Path) :=
  if hasSuffix path [".sln"] then
    match Solution.load files path with
    | .error e => .error (.unreadableSolution path e)
    | .ok s =>
      if s.projectPaths.isEmpty then .error (.emptySolution path)
      else .ok s.projectPaths
  else if hasSuffix path projectSuffixes then .ok [path]
  else .error (.notAProject path)

def listFiles (files : FileView) (directory : Path) (suffix : String) :
    Except WorkspaceError (List Path) :=
  (files.withSuffix directory suffix).mapError .unlistable

/- The projects directly in a directory, with its solution first. -/
def projectsOfDirectory (files : FileView) (directory : Path) :
    Except WorkspaceError (List Path) := do
  match ← listFiles files directory ".sln" with
  | solution :: _ => projectsOfFile files solution
  | [] =>
    let found ← projectSuffixes.mapM (listFiles files directory)
    if found.flatten.isEmpty then throw (.nothingFound directory)
    return Path.sort found.flatten

/- Of neighbours that are the same path only the first one stays. -/
def dropRepeatedPaths : List Path → List Path
  | [] => []
  | [p] => [p]
  | p :: q :: r =>
    if p.same q then dropRepeatedPaths (p :: r)
    else p :: dropRepeatedPaths (q :: r)
termination_by ps => ps.length

/- The folded paths of the projects that a path leads to. -/
def resolveProjects (files : FileView) (path : Path) :
    Except WorkspaceError (List Path) := do
  let found ←
    if files.isFile path then projectsOfFile files path
    else if files.isDirectory path then projectsOfDirectory files path
    else .error (.noSuchPath path)
  return dropRepeatedPaths (found.map Path.normalize)

end Workspace

end Retarget
