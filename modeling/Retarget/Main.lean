import Retarget.Command.Reach
import Retarget.Command.Run

/-
  This file is the program: it looks at the disk as far as a
  command needs it, runs the command on that picture, writes
  the files that changed and shows the rest.

  Key definitions include:
    * `Shell.lookAt`
    * `Shell.lookFor`
    * `main`
-/

namespace Retarget.Shell

------------------------------------------------------------
-- Looking at the disk
------------------------------------------------------------

/- A location in the form that the operating system knows. -/
def address (r : Route) : String :=
  "/" ++ Text.join "/" r

/- The text of a file, if it is text. -/
def readText? (r : Route) : IO (Option String) := do
  try
    return String.fromUTF8? (← IO.FS.readBinFile (address r))
  catch _ =>
    return none

/- Add what is at a location: a file, or a directory by its name. -/
def addEntry (d : Disk) (r : Route) : IO Disk := do
  if d.hasFile r || d.hasDirectory r then return d
  try
    let place ← IO.FS.realPath (address r)
    match (← place.metadata).type with
    | .dir => return d.addDirectory r
    | .file => return d.addFile r (← readText? r)
    | _ => return d
  catch _ =>
    return d

/- Add what is in a directory. -/
def addEntries (d : Disk) (r : Route) : IO Disk := do
  try
    let place ← IO.FS.realPath (address r)
    let names := (← place.readDir).toList.map fun e => e.fileName
    names.foldlM (fun d name => addEntry d (r ++ [name])) d
  catch _ =>
    return d

/- Add a location, all that leads to it and what is in it. -/
def lookAt (d : Disk) (r : Route) : IO Disk := do
  let above := (List.range r.length).map fun n => r.take (n + 1)
  let d ← above.foldlM addEntry d
  if d.hasDirectory r then addEntries d r else return d

/-
  Look at all that a command looks at; what it finds may lead
  it to more.
-/
partial def lookFor (command : Command) (d : Disk) (seen : List Route) :
    IO Disk := do
  let next := (command.routes d).eraseDups.filter fun r => !seen.contains r
  if next.isEmpty then return d
  lookFor command (← next.foldlM lookAt d) (seen ++ next)

/- The part of the disk that a command line is about. -/
def readDisk (arguments : List String) : IO Disk := do
  let here := (Disk.empty []).follow ⟨(← IO.currentDir).toString⟩
  match Command.parse arguments with
  | .ok command => lookFor command (.empty here) []
  | .error _ => return .empty here

------------------------------------------------------------
-- Running
------------------------------------------------------------

/- The variables that are set. -/
def readEnvironment : IO (Dictionary String) := do
  let pairs ← Settings.variableNames.filterMapM fun name => do
    return (← IO.getEnv name).map fun value => (name, value)
  return .ofList pairs

/- Write the files that changed and show what a run shows. -/
def finish (before : Disk) (o : Outcome) : IO UInt32 := do
  for (r, text) in o.session.disk.changesFrom before do
    IO.FS.writeFile (address r) text
  for hint in o.session.hints do
    IO.eprintln ("Hint: " ++ hint)
  IO.print o.session.output
  match o.error with
  | some message => IO.eprintln ("Error: " ++ message)
  | none => if o.exitCode = 2 then IO.eprint Command.usage
  return o.exitCode.toUInt32

end Retarget.Shell

/- Feeds are out of reach: the program uses no network itself. -/
def main (arguments : List String) : IO UInt32 := do
  let disk ← Retarget.Shell.readDisk arguments
  let environment ← Retarget.Shell.readEnvironment
  Retarget.Shell.finish disk <|
    Retarget.Invocation.run ⟨arguments, environment, disk, .unreachable⟩
