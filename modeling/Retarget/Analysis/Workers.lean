/-
  This file defines how several workers share a row of jobs.
  Each worker takes the next number from a shared counter
  and does the job of that number, until no job is left; a
  worker whose job fails moves the counter past the end.  A
  job fails when the run is cancelled before it starts.

  Key definitions include:
    * `WorkerPool`
    * `WorkerPool.Event`
    * `WorkerPool.step`
    * `WorkerPool.run`
    * `WorkerPool.outcome`
    * `inSequence`
-/

namespace Retarget

/- Why a row of jobs has no result. -/
inductive Stopped where
  | cancelled
  deriving Repr, DecidableEq

/- Do all jobs one after the other, unless the run is cancelled. -/
def inSequence {α : Type} (jobs : List (List α)) (cancelled : Bool) :
    Except Stopped (List α) :=
  match jobs with
  | [] => .ok []
  | first :: rest =>
    if cancelled then .error .cancelled
    else do
      let others ← inSequence rest cancelled
      return first ++ others

------------------------------------------------------------
-- Workers
------------------------------------------------------------

/- What a worker does next. -/
inductive WorkerPhase where
  | ready
  | busy (job : Nat)
  | failing
  | finished
  deriving Repr, DecidableEq

/- A worker with the results of its jobs, the last one first. -/
structure Worker (α : Type) where
  phase : WorkerPhase
  results : List (Nat × Except Stopped (List α))

/- The workers, the shared counter and the wish to stop. -/
structure WorkerPool (α : Type) where
  next : Nat
  cancelled : Bool
  workers : List (Worker α)

namespace WorkerPool

variable {α : Type}

/- What can happen: the run is cancelled, or a worker moves. -/
inductive Event where
  | cancel
  | move (worker : Nat)
  deriving Repr, DecidableEq

def start (workers : Nat) (cancelled : Bool) : WorkerPool α :=
  ⟨0, cancelled, List.replicate workers ⟨.ready, []⟩⟩

/- One step of a worker, with the counter after it. -/
def advance
    (jobs : List (List α))
    (next : Nat)
    (cancelled : Bool)
    (w : Worker α) : Nat × Worker α :=
  match w.phase with
  | .ready =>
    (next + 1,
      { w with
        phase := if next < jobs.length then .busy next else .finished })
  | .busy i =>
    if cancelled then
      (next, ⟨.failing, (i, .error .cancelled) :: w.results⟩)
    else
      (next, ⟨.ready, (i, .ok (jobs[i]?.getD [])) :: w.results⟩)
  | .failing => (jobs.length, { w with phase := .finished })
  | .finished => (next, w)

def step
    (jobs : List (List α))
    (pool : WorkerPool α)
    (event : Event) : WorkerPool α :=
  match event with
  | .cancel => { pool with cancelled := true }
  | .move i =>
    match pool.workers[i]? with
    | none => pool
    | some w =>
      let (next, w) := advance jobs pool.next pool.cancelled w
      { pool with next := next, workers := pool.workers.set i w }

def run
    (jobs : List (List α))
    (pool : WorkerPool α)
    (events : List Event) : WorkerPool α :=
  events.foldl (step jobs) pool

def isDone (pool : WorkerPool α) : Bool :=
  pool.workers.all fun w => w.phase == .finished

/- The results of all workers in the order of the jobs. -/
def results (pool : WorkerPool α) : List (Nat × Except Stopped (List α)) :=
  (pool.workers.flatMap fun w => w.results.reverse).mergeSort
    fun a b => a.1 ≤ b.1

def joinResults :
    List (Nat × Except Stopped (List α)) → Except Stopped (List α)
  | [] => .ok []
  | (_, result) :: rest => do
    let first ← result
    return first ++ (← joinResults rest)

/- What a pool answers: the first failure, or all results. -/
def outcome (pool : WorkerPool α) : Except Stopped (List α) :=
  joinResults pool.results

/- A schedule in which the workers take turns. -/
def turns (workers rounds : Nat) : List Event :=
  (List.range rounds).flatMap fun _ =>
    (List.range workers).map Event.move

/- Do all jobs with some workers that take turns. -/
def runInTurns
    (jobs : List (List α))
    (workers : Nat)
    (cancelled : Bool) : Except Stopped (List α) :=
  let events := turns workers (2 * jobs.length + 2)
  (run jobs (start workers cancelled) events).outcome

end WorkerPool

end Retarget
