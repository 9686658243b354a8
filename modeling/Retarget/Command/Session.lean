import Retarget.Files.Disk
import Retarget.Package.Address
import Retarget.Package.Http
import Retarget.Package.Search

/-
  This file defines what a command works with: the files on a
  disk, the feeds on a network, and what the command shows.

  Key definitions include:
    * `Network`
    * `Feed.onNetwork`
    * `Session`
    * `Session.requests`
    * `Work`
    * `Work.attempt`
-/

namespace Retarget

------------------------------------------------------------
-- Networks
------------------------------------------------------------

/-
  What comes back for a request to an address, given how
  often the same was asked before.
-/
structure Network where
  respond :
    (address target : String) → (earlier : Nat) → Except String Http.Response

/- A network on which nothing can be reached. -/
def Network.unreachable : Network where
  respond := fun address _ _ => .error ("no connection to " ++ address)

namespace Feed

/- The target of the request for the versions of a package. -/
def requestFor (address package : String) : String :=
  Address.requestTarget <| Address.pathOf <|
    Address.indexAddress address package

/- The feed at an address of a network. -/
def onNetwork (network : Network) (address : String) : Feed where
  name := Address.feedName address
  reply := fun asked package =>
    let name := Address.feedName address
    let target := requestFor address package
    let earlier := asked.countP fun p => requestFor address p == target
    match network.respond address target earlier with
    | .ok response => ⟨response.versions name package, false⟩
    | .error details => ⟨.error (.transient name details), false⟩

end Feed

------------------------------------------------------------
-- Sessions
------------------------------------------------------------

/- All that a command can change or show. -/
structure Session where
  disk : Disk
  /- The addresses that are searched, and how far the search is. -/
  addresses : List String
  search : Search.State
  hints : List String
  output : String
  deriving Repr, Inhabited

/- Nothing is searched and nothing is shown so far. -/
def Session.start (disk : Disk) : Session where
  disk := disk
  addresses := []
  search := .start []
  hints := []
  output := ""

/- The targets of the requests, address by address. -/
def Session.requests (s : Session) : List String :=
  (s.addresses.zip s.search.asked).flatMap fun (address, asked) =>
    asked.reverse.map (Feed.requestFor address)

------------------------------------------------------------
-- Work
------------------------------------------------------------

/- Steps that may change a session and may fail with a message. -/
abbrev Work := ExceptT String (StateM Session)

namespace Work

/- Go on with a result, or fail with its message. -/
def expect
    {ε α : Type}
    (message : ε → String) : Except ε α → Work α
  | .ok a => return a
  | .error e => throw (message e)

/- Go on with a result, or fail with what was attempted. -/
def attempt
    {ε α : Type}
    (purpose : String)
    (message : ε → String) : Except ε α → Work α :=
  expect fun e => purpose ++ ": " ++ message e

def files : Work FileView := do
  return (← get).disk.view

def setDisk (d : Disk) : Work Unit :=
  modify fun s => { s with disk := d }

def hint (text : String) : Work Unit :=
  modify fun s => { s with hints := s.hints ++ [text] }

/- Show a text and end its line. -/
def print (text : String) : Work Unit :=
  modify fun s => { s with output := s.output ++ text ++ "\n" }

/- The feeds that are searched from now on. -/
def connect (network : Network) (addresses : List String) :
    Work (List Feed) := do
  let feeds := addresses.map (Feed.onNetwork network)
  modify fun s =>
    { s with addresses := addresses, search := .start feeds }
  return feeds

/- The outcome of a step of the search. -/
def search {α : Type} (step : Search.State → α × Search.State) : Work α :=
  modifyGet fun s =>
    let (a, state) := step s.search
    (a, { s with search := state })

end Work

end Retarget
