import Retarget.Fault

/-
  This file defines how work is asked to stop.  A source
  hands out tokens; once it fires, all of its tokens say so,
  those handed out later included.

  Key definitions include:
    * `Cancellation`
    * `Cancellation.addToken`
    * `Cancellation.cancel`
    * `Cancellation.check`

  Key statements include:
    * `Cancellation.isCancelled_cancel`
-/

namespace Retarget

/-
  The state of all signals: whether each one was given, and
  which of them a source gives or a token shows.
-/
structure Cancellation where
  given : List Bool
  sources : List Nat
  tokens : List Nat
  deriving Repr, DecidableEq, Inhabited

namespace Cancellation

variable (c : Cancellation)

def empty : Cancellation :=
  ⟨[], [], []⟩

/- A new source with a signal of its own. -/
def addSource : Cancellation :=
  { c with
    given := c.given ++ [false]
    sources := c.sources ++ [c.given.length] }

/- A new token for the signal of a source. -/
def addToken (source : Nat) : Cancellation :=
  match c.sources[source]? with
  | some signal => { c with tokens := c.tokens ++ [signal] }
  | none => c

/- A new token for a signal that nothing gives. -/
def addIdleToken : Cancellation :=
  { c with
    given := c.given ++ [false]
    tokens := c.tokens ++ [c.given.length] }

/- A second token for the signal of a token. -/
def copyToken (token : Nat) : Cancellation :=
  match c.tokens[token]? with
  | some signal => { c with tokens := c.tokens ++ [signal] }
  | none => c

/- Give the signal of a source. -/
def cancel (source : Nat) : Cancellation :=
  match c.sources[source]? with
  | some signal => { c with given := c.given.set signal true }
  | none => c

def isCancelled (token : Nat) : Bool :=
  match c.tokens[token]? with
  | some signal => c.given[signal]?.getD false
  | none => false

/- Work goes on as long as its token does not fire. -/
def check (token : Nat) : Except Fault Unit :=
  if c.isCancelled token then .error .cancelled else .ok ()

/- A cancelled source shows on each of its tokens. -/
theorem isCancelled_cancel
    (source token signal : Nat)
    (hsource : c.sources[source]? = some signal)
    (htoken : c.tokens[token]? = some signal)
    (hsignal : signal < c.given.length) :
    (c.cancel source).isCancelled token = true := by
  simp [cancel, hsource, isCancelled, htoken, hsignal]

end Cancellation

end Retarget
