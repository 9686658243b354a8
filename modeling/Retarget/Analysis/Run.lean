import Retarget.Analysis.Analyzer
import Retarget.Analysis.Workers

/-
  This file runs analyzers over a compilation.

  Key definitions include:
    * `Analysis.analyzeTree`
    * `Analysis.run`
-/

namespace Retarget.Analysis

/- What some analyzers report about one file. -/
def analyzeTree
    (c : Compilation)
    (analyzers : List NodeAnalyzer)
    (tree : SourceTree) : List Diagnostic :=
  let model := c.model tree
  tree.names.flatMap fun node =>
    analyzers.flatMap fun a => a.analyze ⟨model, node⟩

/-
  What some analyzers report about a compilation, in order
  and without repeats.  Several files are shared out among
  the workers.
-/
def run
    (analyzers : List Analyzer)
    (c : Compilation)
    (workers : Nat)
    (cancelled : Bool) : Except AnalysisError (List Diagnostic) :=
  if cancelled then .error .cancelled
  else
    let started := analyzers.filterMap fun a => a.start? c
    if started.isEmpty || c.trees.isEmpty then .ok []
    else
      let jobs := c.trees.map (analyzeTree c started)
      let found :=
        if workers > 1 && analyzers.all Analyzer.isConcurrent &&
            c.trees.length > 1 then
          WorkerPool.runInTurns jobs (min workers jobs.length) cancelled
        else inSequence jobs cancelled
      match found with
      | .ok diagnostics => .ok (Diagnostic.arrange diagnostics)
      | .error .cancelled => .error .cancelled

end Retarget.Analysis
