import Mathlib.Data.List.Perm.Basic
import Mathlib.Data.List.Sort
import Retarget.Analysis.Run
import Retarget.Proofs.Analysis.Accounting

/-
  This file shows that workers who share a row of jobs give
  the results of doing the jobs one after the other, however
  their steps are interleaved and whenever the run is
  cancelled.

  Key definitions include:
    * `WorkerPool.movesLeft`

  Key statements include:
    * `WorkerPool.isDone_of_moves`
    * `WorkerPool.outcome_of_interleaving`
    * `Analysis.run_eq_of_workers`
-/

namespace Retarget

variable {α : Type}
variable {jobs : List (List α)}

theorem inSequence_of_not_cancelled
    (jobs : List (List α)) :
    inSequence jobs false = .ok jobs.flatten := by
  induction jobs with
  | nil => rfl
  | cons first rest ih => simp [inSequence, ih, bind, Except.bind, pure, Except.pure]

namespace WorkerPool

variable {pool : WorkerPool α}

------------------------------------------------------------
-- Progress
------------------------------------------------------------

/-
  How often a worker moves at most before it is finished,
  when a number of jobs is left below the end.
-/
def phaseMovesLeft (jobsLeft : Nat) : WorkerPhase → Nat
  | .ready => 2 * jobsLeft + 1
  | .busy _ => 2 * jobsLeft + 2
  | .failing => 1
  | .finished => 0

def movesLeft
    (jobs : List (List α))
    (pool : WorkerPool α)
    (i : Nat) : Nat :=
  match pool.workers[i]? with
  | none => 0
  | some w => phaseMovesLeft (jobs.length - pool.next) w.phase

theorem phaseMovesLeft_mono
    {fewer more : Nat}
    (hLeft : fewer ≤ more)
    (phase : WorkerPhase) :
    phaseMovesLeft fewer phase ≤ phaseMovesLeft more phase := by
  cases phase with
  | ready => simpa only [phaseMovesLeft] using by omega
  | busy i => simpa only [phaseMovesLeft] using by omega
  | failing => exact le_rfl
  | finished => exact le_rfl

/- The counter runs backwards only beyond the last job. -/
theorem advance_jobsLeft
    (jobs : List (List α))
    (next : Nat)
    (cancelled : Bool)
    (w : Worker α) :
    jobs.length - (advance jobs next cancelled w).1 ≤
      jobs.length - next := by
  obtain ⟨phase, results⟩ := w
  cases phase with
  | ready => simp only [advance]; omega
  | busy i => cases cancelled <;> simp [advance]
  | failing => simp [advance]
  | finished => exact le_rfl

theorem advance_phaseMovesLeft
    (jobs : List (List α))
    (next : Nat)
    (cancelled : Bool)
    (w : Worker α) :
    phaseMovesLeft (jobs.length - (advance jobs next cancelled w).1)
        (advance jobs next cancelled w).2.phase ≤
      phaseMovesLeft (jobs.length - next) w.phase - 1 := by
  obtain ⟨phase, results⟩ := w
  cases phase with
  | ready =>
      by_cases hNext : next < jobs.length
      · simp only [advance, hNext, if_true, phaseMovesLeft]
        omega
      · simp [advance, hNext, phaseMovesLeft]
  | busy i => cases cancelled <;> simp [advance, phaseMovesLeft]
  | failing => simp [advance, phaseMovesLeft]
  | finished => simp [advance, phaseMovesLeft]

/- Each move brings its worker nearer to the end, and none back. -/
theorem movesLeft_step_le
    (jobs : List (List α))
    (pool : WorkerPool α)
    (event : Event)
    (i : Nat) :
    movesLeft jobs (step jobs pool event) i ≤
      movesLeft jobs pool i - [event].count (.move i) := by
  cases event with
  | cancel => exact le_of_eq rfl
  | move j =>
      rcases Nat.lt_or_ge j pool.workers.length with hWorker | hNone
      · rcases step_move jobs hWorker with
          ⟨before, w, behind, hWorkers, hLength, hStep⟩
        rw [hStep]
        rcases eq_or_ne j i with rfl | hOther
        · simpa [movesLeft, hWorkers, ← hLength] using
            advance_phaseMovesLeft jobs pool.next pool.cancelled w
        · have hSame :
              (before ++ (advance jobs pool.next pool.cancelled w).2 ::
                behind)[i]? = pool.workers[i]? := by
            rw [hWorkers]
            rcases Nat.lt_or_ge i before.length with hBefore | hAfter
            · simp [List.getElem?_append_left hBefore]
            · obtain ⟨k, hk⟩ : ∃ k, i - before.length = k + 1 :=
                ⟨i - before.length - 1, by omega⟩
              simp [List.getElem?_append_right hAfter, hk]
          have hCount : [Event.move j].count (.move i) = 0 := by
            simp [hOther]
          simp only [movesLeft, hSame, hCount, Nat.sub_zero]
          cases pool.workers[i]? with
          | none => exact le_rfl
          | some v =>
              exact phaseMovesLeft_mono
                (advance_jobsLeft jobs pool.next pool.cancelled w) v.phase
      · rw [step_move_of_none jobs hNone]
        rcases eq_or_ne j i with rfl | hOther
        · simp [movesLeft, List.getElem?_eq_none hNone]
        · simp [hOther]

theorem movesLeft_run_le
    (jobs : List (List α))
    (pool : WorkerPool α)
    (events : List Event)
    (i : Nat) :
    movesLeft jobs (run jobs pool events) i ≤
      movesLeft jobs pool i - events.count (.move i) := by
  induction events generalizing pool with
  | nil => exact le_rfl
  | cons event events ih =>
      have hRest := ih (step jobs pool event)
      have hFirst := movesLeft_step_le jobs pool event i
      have hCount :
          (event :: events).count (.move i) =
            [event].count (.move i) + events.count (.move i) :=
        @List.count_append _ _ _ [event] events
      simp only [run, List.foldl_cons] at hRest ⊢
      omega

theorem isDone_iff
    (pool : WorkerPool α) :
    pool.isDone = true ↔ ∀ w ∈ pool.workers, w.phase = .finished := by
  simp [isDone]

theorem isDone_of_movesLeft
    (jobs : List (List α))
    (pool : WorkerPool α)
    (hLeft : ∀ i < pool.workers.length, movesLeft jobs pool i = 0) :
    pool.isDone = true := by
  rw [isDone_iff]
  intro w hw
  rcases List.mem_iff_getElem.mp hw with ⟨i, hi, rfl⟩
  have hZero := hLeft i hi
  simp only [movesLeft, List.getElem?_eq_getElem hi] at hZero
  revert hZero
  cases pool.workers[i].phase <;> simp [phaseMovesLeft]

/-
  The run ends, whatever the order of its steps: a worker
  that moves twice for each job and once more is finished.
-/
theorem isDone_of_moves
    (jobs : List (List α))
    (workers : Nat)
    (cancelled : Bool)
    (events : List Event)
    (hMoves : ∀ i < workers, 2 * jobs.length + 1 ≤ events.count (.move i)) :
    (run jobs (start workers cancelled) events).isDone = true := by
  apply isDone_of_movesLeft jobs
  intro i hi
  rw [run_workers_length] at hi
  have hWorker : i < workers := by simpa [start] using hi
  have hStart :
      movesLeft jobs (start workers cancelled) i = 2 * jobs.length + 1 := by
    simp [movesLeft, start, hWorker, phaseMovesLeft]
  have hRun := movesLeft_run_le jobs (start workers cancelled) events i
  have hEnough := hMoves i hWorker
  omega

------------------------------------------------------------
-- What a pool answers
------------------------------------------------------------

theorem results_perm
    (pool : WorkerPool α) :
    pool.results.Perm pool.found := by
  apply (List.mergeSort_perm _ _).trans
  exact List.Perm.flatMap_left _ fun w _ => List.reverse_perm w.results

theorem results_sorted
    (pool : WorkerPool α) :
    (pool.results.map Prod.fst).Pairwise (· ≤ ·) := by
  rw [List.pairwise_map]
  have hSorted := @List.pairwise_mergeSort _
    (fun a b : Nat × Except Stopped (List α) => decide (a.1 ≤ b.1))
    (fun a b c hab hbc => by
      simp only [decide_eq_true_eq] at hab hbc ⊢
      exact hab.trans hbc)
    (fun a b => by simpa using Nat.le_total a.1 b.1)
    (pool.workers.flatMap fun w => w.results.reverse)
  exact hSorted.imp fun hle => by simpa using hle

theorem joinResults_of_failed
    {rs : List (Nat × Except Stopped (List α))}
    (hFailed : ∃ r ∈ rs, r.2 = .error .cancelled) :
    joinResults rs = .error .cancelled := by
  induction rs with
  | nil => simp at hFailed
  | cons first rest ih =>
      obtain ⟨i, result⟩ := first
      cases result with
      | error stopped => cases stopped; rfl
      | ok found =>
          have hRest : ∃ r ∈ rest, r.2 = .error .cancelled := by
            simpa using hFailed
          simp [joinResults, ih hRest, bind, Except.bind]

theorem joinResults_of_right
    {rs : List (Nat × Except Stopped (List α))}
    (hRight : ∀ r ∈ rs, r.2 = .ok (jobs[r.1]?.getD [])) :
    joinResults rs =
      .ok ((rs.map Prod.fst).flatMap fun i => jobs[i]?.getD []) := by
  induction rs with
  | nil => rfl
  | cons first rest ih =>
      obtain ⟨i, result⟩ := first
      obtain rfl : result = .ok (jobs[i]?.getD []) :=
        hRight (i, result) List.mem_cons_self
      have hRest := ih fun r hr => hRight r (List.mem_cons_of_mem _ hr)
      simp [joinResults, hRest, bind, Except.bind, pure, Except.pure]

theorem range_flatMap_getD
    (jobs : List (List α)) :
    ((List.range jobs.length).flatMap fun i => jobs[i]?.getD []) =
      jobs.flatten := by
  have hMap :
      (List.range jobs.length).map (fun i => jobs[i]?.getD []) = jobs := by
    apply List.ext_getElem
    · simp
    · intro i _ hi
      simp [hi]
  rw [List.flatMap_def, hMap]

theorem held_of_isDone
    (hDone : pool.isDone = true) :
    pool.held = pool.found.map Prod.fst := by
  rw [isDone_iff] at hDone
  simp only [held, found, List.map_flatMap]
  apply List.flatMap_congr
  intro w hw
  simp [Worker.held, hDone w hw]

/- Without a failure each job was done once. -/
theorem Accounted.results_eq_range
    (h : Accounted jobs pool)
    (hDone : pool.isDone = true)
    (hWorkers : pool.workers ≠ [])
    (hFailed : ¬ pool.HasFailed) :
    pool.results.map Prod.fst = List.range jobs.length := by
  have hHeld := held_of_isDone hDone
  have hEnd : jobs.length ≤ pool.next := by
    rcases List.exists_mem_of_ne_nil _ hWorkers with ⟨w, hw⟩
    exact h.ended w hw ((isDone_iff pool).mp hDone w hw)
  have hPerm : (pool.results.map Prod.fst).Perm pool.held :=
    hHeld ▸ pool.results_perm.map Prod.fst
  have hRange : pool.held.Perm (List.range jobs.length) := by
    rw [List.perm_ext_iff_of_nodup h.nodup List.nodup_range]
    intro i
    rw [List.mem_range]
    constructor
    · exact h.isJob i
    · intro hi
      exact (h.complete i (lt_of_lt_of_le hi hEnd) hi).resolve_right hFailed
  exact (hPerm.trans hRange).eq_of_pairwise
    (fun _ _ _ _ hab hba => Nat.le_antisymm hab hba)
    pool.results_sorted List.pairwise_le_range

theorem Accounted.outcome_of_failed
    (h : Accounted jobs pool)
    (hFailed : pool.HasFailed) :
    pool.outcome = .error .cancelled ∧ pool.cancelled = true := by
  rcases hFailed with ⟨r, hr, hError⟩
  refine ⟨joinResults_of_failed
    ⟨r, pool.results_perm.mem_iff.mpr hr, hError⟩, ?_⟩
  rcases h.isRight r hr with hOk | ⟨-, hCancelled⟩
  · rw [hOk] at hError
    cases hError
  · exact hCancelled

theorem Accounted.outcome_of_not_failed
    (h : Accounted jobs pool)
    (hDone : pool.isDone = true)
    (hWorkers : pool.workers ≠ [])
    (hFailed : ¬ pool.HasFailed) :
    pool.outcome = inSequence jobs false := by
  have hRight : ∀ r ∈ pool.results, r.2 = .ok (jobs[r.1]?.getD []) := by
    intro r hr
    have hFound := pool.results_perm.mem_iff.mp hr
    rcases h.isRight r hFound with hOk | ⟨hError, -⟩
    · exact hOk
    · exact absurd ⟨r, hFound, hError⟩ hFailed
  rw [outcome, joinResults_of_right hRight,
    h.results_eq_range hDone hWorkers hFailed, range_flatMap_getD,
    inSequence_of_not_cancelled]

/-
  However the steps of the workers are interleaved, and
  whenever the run is cancelled: it ends, and then it has
  been cancelled or it has done each job once, with the
  answer of doing them one after the other.  A pool has a
  worker, since none is made for fewer than two jobs or for
  fewer than two workers.
-/
theorem outcome_of_interleaving
    (jobs : List (List α))
    (workers : Nat)
    (hWorkers : 0 < workers)
    (cancelled : Bool)
    (events : List Event) :
    let pool := run jobs (start workers cancelled) events
    ((∀ i < workers, 2 * jobs.length + 1 ≤ events.count (.move i)) →
      pool.isDone = true) ∧
    (pool.isDone = true →
      (pool.outcome = .error .cancelled ∧
        (cancelled = true ∨ .cancel ∈ events)) ∨
      (pool.outcome = inSequence jobs false ∧
        pool.results.map Prod.fst = List.range jobs.length)) := by
  intro pool
  refine ⟨isDone_of_moves jobs workers cancelled events, fun hDone => ?_⟩
  have hAccounted : Accounted jobs pool :=
    run_accounted (start_accounted jobs workers cancelled) events
  have hSome : pool.workers ≠ [] := by
    rw [← List.length_pos_iff, run_workers_length]
    simpa [start] using hWorkers
  by_cases hFailed : pool.HasFailed
  · rcases hAccounted.outcome_of_failed hFailed with ⟨hError, hCancelled⟩
    exact Or.inl ⟨hError, run_cancelled jobs _ events hCancelled⟩
  · exact Or.inr
      ⟨hAccounted.outcome_of_not_failed hDone hSome hFailed,
        hAccounted.results_eq_range hDone hSome hFailed⟩

/-
  Three workers share four jobs, and the run is cancelled
  when two of them are busy: the first to fail moves the
  counter from the last job back to the end.
-/
theorem outcome_of_interleaving_cancelled :
    let jobs : List (List Nat) := [[1], [], [2, 3], [4]]
    let events : List Event :=
      [.move 0, .move 0, .move 1, .move 2, .move 1, .move 0, .cancel,
        .move 2, .move 0] ++ turns 3 9
    let pool := run jobs (start 3 false) events
    (0 < 3 ∧ (∀ i < 3, 2 * jobs.length + 1 ≤ events.count (.move i)) ∧
      pool.isDone = true) ∧
    ((pool.outcome = .error .cancelled ∧
        (false = true ∨ .cancel ∈ events)) ∨
      (pool.outcome = inSequence jobs false ∧
        pool.results.map Prod.fst = List.range jobs.length)) := by
  intro jobs events pool
  have hMoves : ∀ i < 3, 2 * jobs.length + 1 ≤ events.count (.move i) := by
    decide
  have hRun := outcome_of_interleaving jobs 3 (by decide) false events
  exact ⟨⟨by decide, hMoves, hRun.1 hMoves⟩, hRun.2 (hRun.1 hMoves)⟩

end WorkerPool

------------------------------------------------------------
-- The number of workers
------------------------------------------------------------

theorem WorkerPool.count_turns
    {workers i : Nat}
    (hWorker : i < workers)
    (rounds : Nat) :
    (turns workers rounds).count (.move i) = rounds := by
  have hRound : ((List.range workers).map Event.move).count (.move i) = 1 := by
    apply List.count_eq_one_of_mem
    · exact List.nodup_range.map fun _ _ => Event.move.inj
    · exact List.mem_map_of_mem (List.mem_range.mpr hWorker)
  simp [turns, List.count_flatMap, Function.comp_def, hRound]

theorem WorkerPool.runInTurns_eq
    (jobs : List (List α))
    {workers : Nat}
    (hWorkers : 0 < workers) :
    runInTurns jobs workers false = inSequence jobs false := by
  let events := turns workers (2 * jobs.length + 2)
  let pool := run jobs (start workers false) events
  have hDone : pool.isDone = true := by
    apply isDone_of_moves
    intro i hi
    rw [count_turns hi]
    omega
  have hAccounted : Accounted jobs pool :=
    run_accounted (start_accounted jobs workers false) events
  have hSome : pool.workers ≠ [] := by
    rw [← List.length_pos_iff, run_workers_length]
    simpa [start] using hWorkers
  apply hAccounted.outcome_of_not_failed hDone hSome
  intro hFailed
  rcases run_cancelled jobs _ events (hAccounted.outcome_of_failed hFailed).2
    with hStart | hEvent
  · simp [start] at hStart
  · simp [events, turns] at hEvent

namespace Analysis

theorem run_eq_inSequence
    (analyzers : List Analyzer)
    (c : Compilation)
    (workers : Nat) :
    run analyzers c workers false =
      let started := analyzers.filterMap fun a => a.start? c
      if started.isEmpty || c.trees.isEmpty then .ok []
      else
        .ok (Diagnostic.arrange
          (c.trees.map (analyzeTree c started)).flatten) := by
  let jobs := c.trees.map
    (analyzeTree c (analyzers.filterMap fun a => a.start? c))
  have hFound :
      (if workers > 1 && analyzers.all Analyzer.isConcurrent &&
          c.trees.length > 1 then
        WorkerPool.runInTurns jobs (min workers jobs.length) false
      else inSequence jobs false) = .ok jobs.flatten := by
    split
    · rename_i hShared
      simp only [Bool.and_eq_true, decide_eq_true_eq] at hShared
      have hSome : 0 < min workers jobs.length := by
        rw [List.length_map]
        omega
      rw [WorkerPool.runInTurns_eq jobs hSome, inSequence_of_not_cancelled]
    · exact inSequence_of_not_cancelled jobs
  simp only [run, Bool.false_eq_true, if_false]
  split
  · rfl
  · rw [hFound]

/- What is reported does not depend on the number of workers. -/
theorem run_eq_of_workers
    (analyzers : List Analyzer)
    (c : Compilation)
    (workers others : Nat)
    (cancelled : Bool) :
    run analyzers c workers cancelled = run analyzers c others cancelled := by
  cases cancelled with
  | true => simp [run]
  | false => rw [run_eq_inSequence, run_eq_inSequence]

end Analysis

end Retarget
