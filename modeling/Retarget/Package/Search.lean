import Retarget.Package.Reference
import Retarget.Rounding

/-
  This file searches feeds for the versions of a package.
  The feeds are asked in order until one of them answers; a
  feed in trouble is asked again after a pause, which grows
  each time.

  Key definitions include:
    * `Feed`
    * `RetryPolicy`
    * `Search.State`
    * `Search.versions`
    * `Search.newerVersions`
    * `Search.latestVersion`
-/

namespace Retarget

------------------------------------------------------------
-- Feeds
------------------------------------------------------------

/-
  What a feed says to a question, and whether the search was
  cancelled meanwhile.
-/
structure FeedReply where
  answer : Except FeedError (List PackageVersion)
  cancels : Bool
  deriving Inhabited

/-
  A feed replies to a call for a package.  It knows what it
  was asked for before, the last call first.
-/
structure Feed where
  name : String
  reply : (asked : List String) → (package : String) → FeedReply

namespace Feed

/- A feed that goes through some replies and stays at the last. -/
def ofReplies (name : String) (replies : List FeedReply) : Feed where
  name := name
  reply := fun asked package =>
    let unknown : FeedReply := ⟨.error (.notFound name package), false⟩
    (replies[asked.length]?.or replies.getLast?).getD unknown

end Feed

------------------------------------------------------------
-- Retrying
------------------------------------------------------------

/- How often a feed is asked, and the first pause. -/
structure RetryPolicy where
  maxAttempts : Nat
  baseDelayMs : Nat
  deriving Repr, DecidableEq, Inhabited

namespace RetryPolicy

def nanosPerMs : Nat := 1000000

def nanosPerSecond : Nat := 1000000000

/- The longest pause, except for the first one, in nanoseconds. -/
def maxPause : Nat := 60 * nanosPerSecond

/- A pause in seconds, as a number of single precision. -/
def seconds (pause : Nat) : Rat :=
  let whole : Nat := pause / nanosPerSecond
  let rest : Nat := pause % nanosPerSecond
  Rounding.single <|
    Rounding.single whole +
      Rounding.single (Rounding.single rest / nanosPerSecond)

/- Twice a pause, up to the precision of its seconds. -/
def double (pause : Nat) : Nat :=
  (Rounding.nearest (2 * seconds pause * nanosPerSecond)).toNat

/- The pause after a pause. -/
def nextPause (pause : Nat) : Nat :=
  Nat.min maxPause (if pause < maxPause then double pause else pause)

/- A number of pauses from a first one on. -/
def pausesFrom : Nat → Nat → List Nat
  | 0, _ => []
  | n + 1, pause => pause :: pausesFrom n (nextPause pause)

/- The clock goes on by whole milliseconds. -/
def toMs (pause : Nat) : Nat :=
  (pause + (nanosPerMs - 1)) / nanosPerMs

/- The milliseconds between the calls of one question. -/
def delays (policy : RetryPolicy) : List Nat :=
  (pausesFrom (policy.maxAttempts - 1)
    (policy.baseDelayMs * nanosPerMs)).map toMs

end RetryPolicy

namespace Search

------------------------------------------------------------
-- One feed
------------------------------------------------------------

/-
  What each feed was asked for, the last call first, the time
  waited, and the wish to stop.
-/
structure State where
  asked : List (List String)
  elapsedMs : Nat
  cancelled : Bool
  deriving Repr, DecidableEq, Inhabited

namespace State

/- The state before the first call. -/
def start (feeds : List Feed) : State where
  asked := feeds.map fun _ => []
  elapsedMs := 0
  cancelled := false

def askedOf (s : State) (feed : Nat) : List String :=
  s.asked[feed]?.getD []

/- How often each feed was called. -/
def calls (s : State) : List Nat :=
  s.asked.map List.length

def wait (s : State) (delay : Nat) : State :=
  { s with elapsedMs := s.elapsedMs + delay }

end State

/- Ask a feed once, unless the search is cancelled. -/
def call (feeds : List Feed) (i : Nat) (package : String) (s : State) :
    Except FeedError (List PackageVersion) × State :=
  if s.cancelled then (.error .cancelled, s)
  else
    match feeds[i]? with
    | none => (.error .cancelled, s)
    | some feed =>
      let asked := s.askedOf i
      let reply := feed.reply asked package
      (reply.answer,
        { s with
          asked := s.asked.set i (package :: asked)
          cancelled := s.cancelled || reply.cancels })

/- Ask a feed, and again after each pause if that makes sense. -/
def ask (feeds : List Feed) (i : Nat) (package : String) :
    List Nat → State → Except FeedError (List PackageVersion) × State
  | [], s => call feeds i package s
  | delay :: rest, s =>
    match call feeds i package s with
    | (.error e, s) =>
      if e.isTransient then ask feeds i package rest (s.wait delay)
      else (.error e, s)
    | (.ok versions, s) => (.ok versions, s)

------------------------------------------------------------
-- All feeds
------------------------------------------------------------

/- The versions of a package and the feed that knew them. -/
structure Found where
  feed : String
  versions : List PackageVersion
  deriving Repr, DecidableEq, Inhabited

/- Ask the feeds from a place on; only a wish to stop is an error. -/
def askFrom (feeds : List Feed) (policy : RetryPolicy) (package : String) :
    List Nat → State → Except PackageError (Option Found) × State
  | [], s => (.ok none, s)
  | i :: rest, s =>
    if s.cancelled then (.error .cancelled, s)
    else
      match ask feeds i package policy.delays s with
      | (.ok versions, s) =>
        let name := (feeds[i]?.map Feed.name).getD ""
        (.ok (some ⟨name, versions⟩), s)
      | (.error .cancelled, s) => (.error .cancelled, s)
      | (.error _, s) => askFrom feeds policy package rest s

/- What the first feed that answers knows of a package. -/
def versions (feeds : List Feed) (policy : RetryPolicy) (package : String)
    (s : State) : Except PackageError (Option Found) × State :=
  match requireName "package_id" package with
  | .error e => (.error e, s)
  | .ok () =>
    askFrom feeds policy package (List.range feeds.length) s

/- The versions above a version, if there is one, in order. -/
def newerThan
    (current : Option PackageVersion)
    (includePrerelease : Bool)
    (vs : List PackageVersion) : List PackageVersion :=
  let kept := vs.filter fun v =>
    (includePrerelease || !v.isPrerelease) &&
      current.all fun c => c.lt v
  PackageVersion.dropRepeated (PackageVersion.sort kept)

/- The versions above what a reference means, in order. -/
def newerVersions
    (feeds : List Feed)
    (policy : RetryPolicy)
    (r : PackageReference)
    (includePrerelease : Bool)
    (s : State) : Except PackageError (List PackageVersion) × State :=
  match versions feeds policy r.name s with
  | (.error e, s) => (.error e, s)
  | (.ok none, s) => (.ok [], s)
  | (.ok (some found), s) =>
    (.ok (newerThan r.version? includePrerelease found.versions), s)

/- The latest of the versions above what a reference means. -/
def latestVersion
    (feeds : List Feed)
    (policy : RetryPolicy)
    (r : PackageReference)
    (includePrerelease : Bool)
    (s : State) : Except PackageError (Option PackageVersion) × State :=
  let (newer, s) := newerVersions feeds policy r includePrerelease s
  (newer.map List.getLast?, s)

end Search

end Retarget
