import Mathlib.Data.List.Nodup
import Mathlib.Data.List.Range
import Retarget.Analysis.Workers

/-
  This file keeps the books of workers who share a row of
  jobs.  Each number below the shared counter is held by
  exactly one worker, unless one has failed; only a failed
  worker moves the counter.

  Key definitions include:
    * `Worker.held`
    * `WorkerPool.Moves`
    * `WorkerPool.Accounted`

  Key statements include:
    * `WorkerPool.advance_moves`
    * `WorkerPool.step_accounted`
    * `WorkerPool.run_accounted`
    * `WorkerPool.run_cancelled`
-/

namespace Retarget

variable {α : Type}
variable {jobs : List (List α)}

------------------------------------------------------------
-- What workers hold
------------------------------------------------------------

/- The numbers of the jobs that a worker does or has done. -/
def Worker.held (w : Worker α) : List Nat :=
  match w.phase with
  | .busy i => i :: w.results.map Prod.fst
  | _ => w.results.map Prod.fst

namespace WorkerPool

variable {pool : WorkerPool α}
variable {before behind : List (Worker α)}
variable {w : Worker α}

def held (pool : WorkerPool α) : List Nat :=
  pool.workers.flatMap Worker.held

/- What all workers have found, in no particular order. -/
def found (pool : WorkerPool α) : List (Nat × Except Stopped (List α)) :=
  pool.workers.flatMap Worker.results

def HasFailed (pool : WorkerPool α) : Prop :=
  ∃ r ∈ pool.found, r.2 = .error .cancelled

/- The result of a job is that of the job, or a failure. -/
def IsResult
    (jobs : List (List α))
    (cancelled : Bool)
    (r : Nat × Except Stopped (List α)) : Prop :=
  r.2 = .ok (jobs[r.1]?.getD []) ∨
    r.2 = .error .cancelled ∧ cancelled = true

/-
  Every number that was handed out is held by one worker,
  and none below the counter is lost without a failure.
-/
structure Accounted (jobs : List (List α)) (pool : WorkerPool α) :
    Prop where
  nodup : pool.held.Nodup
  isJob : ∀ i ∈ pool.held, i < jobs.length
  isBehind : ∀ i ∈ pool.held, i < pool.next
  isRight : ∀ r ∈ pool.found, IsResult jobs pool.cancelled r
  complete :
    ∀ i < pool.next, i < jobs.length →
      i ∈ pool.held ∨ pool.HasFailed
  failing :
    ∀ w ∈ pool.workers, w.phase = .failing → pool.HasFailed
  ended :
    ∀ w ∈ pool.workers, w.phase = .finished →
      jobs.length ≤ pool.next

theorem start_accounted
    (jobs : List (List α))
    (workers : Nat)
    (cancelled : Bool) :
    Accounted jobs (start workers cancelled) := by
  have hHeld : (start workers cancelled : WorkerPool α).held = [] := by
    simp [held, start, Worker.held, List.flatMap_eq_nil_iff]
  have hFound : (start workers cancelled : WorkerPool α).found = [] := by
    simp [found, start, List.flatMap_eq_nil_iff]
  constructor
  · simp [hHeld]
  · simp [hHeld]
  · simp [hHeld]
  · simp [hFound]
  · simp [start]
  · intro w hw hPhase
    rw [(List.mem_replicate.mp hw).2] at hPhase
    cases hPhase
  · intro w hw hPhase
    rw [(List.mem_replicate.mp hw).2] at hPhase
    cases hPhase

------------------------------------------------------------
-- One step
------------------------------------------------------------

@[simp] theorem held_split
    (next : Nat)
    (cancelled : Bool) :
    held ⟨next, cancelled, before ++ w :: behind⟩ =
      before.flatMap Worker.held ++ w.held ++
        behind.flatMap Worker.held := by
  simp [held]

@[simp] theorem found_split
    (next : Nat)
    (cancelled : Bool) :
    found ⟨next, cancelled, before ++ w :: behind⟩ =
      before.flatMap Worker.results ++ w.results ++
        behind.flatMap Worker.results := by
  simp [found]

/-
  What a step of one worker can do: it takes the number of
  the counter, or it finds a result, or it ends, because no
  job is left or after it has failed.
-/
inductive Moves
    (jobs : List (List α))
    (cancelled : Bool)
    (next : Nat)
    (w : Worker α) : Nat → Worker α → Prop where
  | rests
      (hPhase : w.phase = .finished) :
      Moves jobs cancelled next w next w
  | takes
      {w' : Worker α}
      (hNext : next < jobs.length)
      (hHeld : w'.held = next :: w.held)
      (hResults : w'.results = w.results)
      (hPhase : w'.phase = .busy next) :
      Moves jobs cancelled next w (next + 1) w'
  | answers
      {w' : Worker α}
      (r : Nat × Except Stopped (List α))
      (hRight : IsResult jobs cancelled r)
      (hHeld : w'.held = w.held)
      (hResults : w'.results = r :: w.results)
      (hPhase :
        w'.phase = .ready ∨
          w'.phase = .failing ∧ r.2 = .error .cancelled) :
      Moves jobs cancelled next w next w'
  | ends
      {next' : Nat}
      {w' : Worker α}
      (hNext : jobs.length ≤ next')
      (hHeld : w'.held = w.held)
      (hResults : w'.results = w.results)
      (hPhase : w'.phase = .finished)
      (hReason : jobs.length ≤ next ∨ w.phase = .failing) :
      Moves jobs cancelled next w next' w'

theorem advance_moves
    (jobs : List (List α))
    (next : Nat)
    (cancelled : Bool)
    (w : Worker α) :
    Moves jobs cancelled next w
      (advance jobs next cancelled w).1
      (advance jobs next cancelled w).2 := by
  obtain ⟨phase, results⟩ := w
  cases phase with
  | ready =>
      by_cases hNext : next < jobs.length
      · simp only [advance, hNext, if_true]
        exact .takes hNext rfl rfl rfl
      · simp only [advance, hNext, if_false]
        exact .ends (by omega) rfl rfl rfl (Or.inl (by omega))
  | busy i =>
      cases cancelled with
      | false =>
          exact .answers (i, _) (Or.inl rfl) rfl rfl (Or.inl rfl)
      | true =>
          exact .answers (i, .error .cancelled) (Or.inr ⟨rfl, rfl⟩)
            rfl rfl (Or.inr ⟨rfl, rfl⟩)
  | failing => exact .ends le_rfl rfl rfl rfl (Or.inr rfl)
  | finished => exact .rests rfl

/- A worker's step leaves the other workers as they are. -/
theorem mem_split
    {v w' : Worker α}
    (hv : v ∈ before ++ w' :: behind) :
    v = w' ∨ ∀ w, v ∈ before ++ w :: behind := by
  rcases List.mem_append.mp hv with hBefore | hRest
  · exact Or.inr fun w => List.mem_append_left _ hBefore
  · rcases List.mem_cons.mp hRest with rfl | hBehind
    · exact Or.inl rfl
    · exact Or.inr fun w =>
        List.mem_append_right _ (List.mem_cons_of_mem _ hBehind)

theorem held_of_held
    {w' : Worker α}
    (before behind : List (Worker α))
    (next next' : Nat)
    (cancelled : Bool)
    (hHeld : w'.held = w.held) :
    held ⟨next', cancelled, before ++ w' :: behind⟩ =
      held ⟨next, cancelled, before ++ w :: behind⟩ := by
  simp only [held_split, hHeld]

theorem found_of_results
    {w' : Worker α}
    (before behind : List (Worker α))
    (next next' : Nat)
    (cancelled : Bool)
    (hResults : w'.results = w.results) :
    found ⟨next', cancelled, before ++ w' :: behind⟩ =
      found ⟨next, cancelled, before ++ w :: behind⟩ := by
  simp only [found_split, hResults]

theorem Accounted.of_takes
    {next : Nat}
    {cancelled : Bool}
    {w' : Worker α}
    (h : Accounted jobs ⟨next, cancelled, before ++ w :: behind⟩)
    (hNext : next < jobs.length)
    (hHeld : w'.held = next :: w.held)
    (hResults : w'.results = w.results)
    (hPhase : w'.phase = .busy next) :
    Accounted jobs ⟨next + 1, cancelled, before ++ w' :: behind⟩ := by
  have hFound := found_of_results before behind next (next + 1)
    cancelled hResults
  have hMem : ∀ i,
      i ∈ held ⟨next + 1, cancelled, before ++ w' :: behind⟩ ↔
        i = next ∨ i ∈ held ⟨next, cancelled, before ++ w :: behind⟩ := by
    intro i
    simp only [held_split, hHeld, List.mem_append, List.mem_cons]
    tauto
  constructor
  · rw [held_split, hHeld, List.append_assoc, List.cons_append,
      List.nodup_middle, ← List.append_assoc, ← held_split]
    exact List.nodup_cons.mpr
      ⟨fun hOld => Nat.lt_irrefl next (h.isBehind next hOld), h.nodup⟩
  · intro i hi
    rcases (hMem i).mp hi with rfl | hOld
    · exact hNext
    · exact h.isJob i hOld
  · intro i hi
    rcases (hMem i).mp hi with rfl | hOld
    · exact Nat.lt_succ_self i
    · exact Nat.lt_succ_of_lt (h.isBehind i hOld)
  · rw [hFound]
    exact h.isRight
  · intro i hi hJob
    rcases Nat.lt_succ_iff_lt_or_eq.mp hi with hOld | rfl
    · rw [HasFailed, hFound]
      exact (h.complete i hOld hJob).imp_left fun hi => (hMem i).mpr (Or.inr hi)
    · exact Or.inl ((hMem i).mpr (Or.inl rfl))
  · intro v hv hFailing
    rw [HasFailed, hFound]
    rcases mem_split hv with rfl | hOther
    · simp [hPhase] at hFailing
    · exact h.failing v (hOther w) hFailing
  · intro v hv hFinished
    rcases mem_split hv with rfl | hOther
    · simp [hPhase] at hFinished
    · exact Nat.le_succ_of_le (h.ended v (hOther w) hFinished)

theorem Accounted.of_answers
    {next : Nat}
    {cancelled : Bool}
    {w' : Worker α}
    {r : Nat × Except Stopped (List α)}
    (h : Accounted jobs ⟨next, cancelled, before ++ w :: behind⟩)
    (hRight : IsResult jobs cancelled r)
    (hHeld : w'.held = w.held)
    (hResults : w'.results = r :: w.results)
    (hPhase :
      w'.phase = .ready ∨
        w'.phase = .failing ∧ r.2 = .error .cancelled) :
    Accounted jobs ⟨next, cancelled, before ++ w' :: behind⟩ := by
  have hSame := held_of_held before behind next next
    cancelled hHeld
  have hMem : ∀ q,
      q ∈ found ⟨next, cancelled, before ++ w' :: behind⟩ ↔
        q = r ∨ q ∈ found ⟨next, cancelled, before ++ w :: behind⟩ := by
    intro q
    simp only [found_split, hResults, List.mem_append, List.mem_cons]
    tauto
  have hKept :
      HasFailed ⟨next, cancelled, before ++ w :: behind⟩ →
        HasFailed ⟨next, cancelled, before ++ w' :: behind⟩ :=
    fun ⟨q, hq, hFailed⟩ => ⟨q, (hMem q).mpr (Or.inr hq), hFailed⟩
  constructor
  · rw [hSame]
    exact h.nodup
  · rw [hSame]
    exact h.isJob
  · rw [hSame]
    exact h.isBehind
  · intro q hq
    rcases (hMem q).mp hq with rfl | hOld
    · exact hRight
    · exact h.isRight q hOld
  · intro i hi hJob
    rw [hSame]
    exact (h.complete i hi hJob).imp_right hKept
  · intro v hv hFailing
    rcases mem_split hv with rfl | hOther
    · rcases hPhase with hReady | ⟨-, hError⟩
      · simp [hReady] at hFailing
      · exact ⟨r, (hMem r).mpr (Or.inl rfl), hError⟩
    · exact hKept (h.failing v (hOther w) hFailing)
  · intro v hv hFinished
    rcases mem_split hv with rfl | hOther
    · rcases hPhase with hReady | ⟨hFailing, -⟩
      · simp [hReady] at hFinished
      · simp [hFailing] at hFinished
    · exact h.ended v (hOther w) hFinished

theorem Accounted.of_ends
    {next next' : Nat}
    {cancelled : Bool}
    {w' : Worker α}
    (h : Accounted jobs ⟨next, cancelled, before ++ w :: behind⟩)
    (hNext : jobs.length ≤ next')
    (hHeld : w'.held = w.held)
    (hResults : w'.results = w.results)
    (hPhase : w'.phase = .finished)
    (hReason : jobs.length ≤ next ∨ w.phase = .failing) :
    Accounted jobs ⟨next', cancelled, before ++ w' :: behind⟩ := by
  have hSame := held_of_held before behind next next'
    cancelled hHeld
  have hFound := found_of_results before behind next next'
    cancelled hResults
  constructor
  · rw [hSame]
    exact h.nodup
  · rw [hSame]
    exact h.isJob
  · intro i hi
    rw [hSame] at hi
    exact lt_of_lt_of_le (h.isJob i hi) hNext
  · rw [hFound]
    exact h.isRight
  · intro i _ hJob
    rw [hSame, HasFailed, hFound]
    rcases hReason with hEnd | hFailing
    · exact h.complete i (lt_of_lt_of_le hJob hEnd) hJob
    · exact Or.inr (h.failing w (by simp) hFailing)
  · intro v hv hFailing
    rw [HasFailed, hFound]
    rcases mem_split hv with rfl | hOther
    · simp [hPhase] at hFailing
    · exact h.failing v (hOther w) hFailing
  · exact fun _ _ _ => hNext

/-
  A step of one worker.  The number that it takes is new
  because all held ones lie below the counter, and the
  counter moves to the end only after a failure.
-/
theorem Accounted.of_moves
    {next next' : Nat}
    {cancelled : Bool}
    {w' : Worker α}
    (h : Accounted jobs ⟨next, cancelled, before ++ w :: behind⟩)
    (hMoves : Moves jobs cancelled next w next' w') :
    Accounted jobs ⟨next', cancelled, before ++ w' :: behind⟩ := by
  cases hMoves with
  | rests => exact h
  | takes hNext hHeld hResults hPhase => exact h.of_takes hNext hHeld hResults hPhase
  | answers r hRight hHeld hResults hPhase =>
      exact h.of_answers hRight hHeld hResults hPhase
  | ends hNext hHeld hResults hPhase hReason =>
      exact h.of_ends hNext hHeld hResults hPhase hReason

/- A worker that moves is replaced by what it becomes. -/
theorem step_move
    (jobs : List (List α))
    {pool : WorkerPool α}
    {i : Nat}
    (hWorker : i < pool.workers.length) :
    ∃ before w behind,
      pool.workers = before ++ w :: behind ∧ before.length = i ∧
        step jobs pool (.move i) =
          ⟨(advance jobs pool.next pool.cancelled w).1, pool.cancelled,
            before ++ (advance jobs pool.next pool.cancelled w).2 :: behind⟩ := by
  let w := pool.workers[i]
  have hw : pool.workers[i]? = some w := List.getElem?_eq_getElem hWorker
  rcases @List.exists_of_set _ i
      (advance jobs pool.next pool.cancelled w).2 _ hWorker with
    ⟨before, behind, hWorkers, hLength, hSet⟩
  refine ⟨before, w, behind, hWorkers, hLength, ?_⟩
  simp only [step, hw, hSet]

theorem step_move_of_none
    (jobs : List (List α))
    {pool : WorkerPool α}
    {i : Nat}
    (hNone : pool.workers.length ≤ i) :
    step jobs pool (.move i) = pool := by
  simp only [step, List.getElem?_eq_none hNone]

/- What was right before the run was cancelled stays right. -/
theorem Accounted.of_cancel
    (h : Accounted jobs pool) :
    Accounted jobs { pool with cancelled := true } where
  nodup := h.nodup
  isJob := h.isJob
  isBehind := h.isBehind
  isRight r hr := (h.isRight r hr).imp_right fun hFailed => ⟨hFailed.1, rfl⟩
  complete := h.complete
  failing := h.failing
  ended := h.ended

theorem step_accounted
    (h : Accounted jobs pool)
    (event : Event) :
    Accounted jobs (step jobs pool event) := by
  cases event with
  | cancel => exact h.of_cancel
  | move i =>
      rcases Nat.lt_or_ge i pool.workers.length with hWorker | hNone
      · rcases step_move jobs hWorker with
          ⟨before, w, behind, hWorkers, -, hStep⟩
        rw [hStep]
        obtain ⟨next, cancelled, workers⟩ := pool
        subst hWorkers
        exact h.of_moves (advance_moves jobs next cancelled w)
      · rw [step_move_of_none jobs hNone]
        exact h

------------------------------------------------------------
-- A whole run
------------------------------------------------------------

/- The books are right after any steps in any order. -/
theorem run_accounted
    (h : Accounted jobs pool)
    (events : List Event) :
    Accounted jobs (run jobs pool events) := by
  induction events generalizing pool with
  | nil => exact h
  | cons event events ih => exact ih (step_accounted h event)

theorem step_cancelled
    (jobs : List (List α))
    (pool : WorkerPool α)
    (event : Event)
    (hCancelled : (step jobs pool event).cancelled = true) :
    pool.cancelled = true ∨ event = .cancel := by
  cases event with
  | cancel => exact Or.inr rfl
  | move i =>
      rcases Nat.lt_or_ge i pool.workers.length with hWorker | hNone
      · rcases step_move jobs hWorker with ⟨_, _, _, -, -, hStep⟩
        rw [hStep] at hCancelled
        exact Or.inl hCancelled
      · rw [step_move_of_none jobs hNone] at hCancelled
        exact Or.inl hCancelled

/- A run is cancelled only from outside. -/
theorem run_cancelled
    (jobs : List (List α))
    (pool : WorkerPool α)
    (events : List Event)
    (hCancelled : (run jobs pool events).cancelled = true) :
    pool.cancelled = true ∨ .cancel ∈ events := by
  induction events generalizing pool with
  | nil => exact Or.inl hCancelled
  | cons event events ih =>
      rcases ih (step jobs pool event) hCancelled with hStep | hLater
      · rcases step_cancelled jobs pool event hStep with hBefore | rfl
        · exact Or.inl hBefore
        · exact Or.inr List.mem_cons_self
      · exact Or.inr (List.mem_cons_of_mem _ hLater)

theorem step_workers_length
    (jobs : List (List α))
    (pool : WorkerPool α)
    (event : Event) :
    (step jobs pool event).workers.length = pool.workers.length := by
  cases event with
  | cancel => rfl
  | move i =>
      rcases Nat.lt_or_ge i pool.workers.length with hWorker | hNone
      · rcases step_move jobs hWorker with ⟨_, _, _, hWorkers, -, hStep⟩
        simp [hStep, hWorkers]
      · rw [step_move_of_none jobs hNone]

theorem run_workers_length
    (jobs : List (List α))
    (pool : WorkerPool α)
    (events : List Event) :
    (run jobs pool events).workers.length = pool.workers.length := by
  induction events generalizing pool with
  | nil => rfl
  | cons event events ih =>
      exact (ih (step jobs pool event)).trans
        (step_workers_length jobs pool event)

end WorkerPool

end Retarget
