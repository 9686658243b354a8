import Retarget.Path.Order
import Retarget.Proofs.Fix.Fixable

/-
  This file shows that analyzers and fixers agree about all
  diagnostics of a run on files whose reports fit them, and
  that a fixer leaves an edit out only because it overlaps
  another one.

  Key definitions include:
    * `Compilation.Fits`
    * `Compilation.HasDistinctPaths`
    * `FixResult.SkipsOverlaps`

  Key statements include:
    * `Compilation.Fits.addTree`
    * `Compilation.Fits.addSource`
    * `Fixer.fixDocument_skipsOverlaps`
    * `Analysis.run_isFixable`
    * `OldName.run_notFixable`
-/

namespace Retarget

------------------------------------------------------------
-- Compilations
------------------------------------------------------------

namespace Compilation

variable {c : Compilation}

/- What is reported about each file fits the file. -/
def Fits (c : Compilation) : Prop :=
  ∀ tree ∈ c.trees, tree.Fits

theorem fits_empty :
    empty.Fits :=
  fun _ hTree => absurd hTree List.not_mem_nil

theorem Fits.addTree
    (h : c.Fits)
    {tree : SourceTree}
    (hTree : tree.Fits) :
    (c.addTree tree).Fits := by
  intro other hOther
  rcases List.mem_append.mp hOther with hOld | hNew
  · exact h other hOld
  · rwa [List.mem_singleton.mp hNew]

/- A file that is read fits, of C# if the grammar respects its text. -/
theorem Fits.addSource
    [CSharp.Grammar]
    (h : c.Fits)
    {path : Path}
    {text : String}
    {longer : Compilation}
    (hGrammar : Language.ofPath? path = some .cSharp →
      CSharp.Grammar.Respects text)
    (hAdd : c.addSource path text = .ok longer) :
    longer.Fits := by
  rw [Compilation.addSource, SourceTree.parse] at hAdd
  cases hLanguage : Language.ofPath? path with
  | none =>
      rw [hLanguage] at hAdd
      cases hAdd
  | some language =>
      rw [hLanguage] at hAdd
      cases hAdd
      refine h.addTree (SourceTree.parseWith_fits (fun hSame => ?_) path)
      exact hGrammar (hSame ▸ hLanguage)

theorem Fits.addAdditional
    (h : c.Fits)
    (file : AdditionalText) :
    (c.addAdditional file).Fits :=
  h

theorem Fits.withReferences
    (h : c.Fits)
    (table : SymbolTable) :
    (c.withReferences table).Fits :=
  h

/- No two files of the compilation have one path. -/
def HasDistinctPaths (c : Compilation) : Prop :=
  c.trees.Pairwise fun a b => a.path.same b.path = false

instance (c : Compilation) : Decidable c.HasDistinctPaths := by
  unfold HasDistinctPaths
  infer_instance

end Compilation

theorem Path.mem_insertSorted
    {p q : Path}
    {ps : List Path}
    (h : q ∈ p.insertSorted ps) :
    q = p ∨ q ∈ ps := by
  induction ps with
  | nil => simpa [insertSorted] using h
  | cons first rest ih =>
      unfold insertSorted at h
      split at h
      · simpa using h
      · exact Or.inr h
      · rcases List.mem_cons.mp h with rfl | hRest
        · exact Or.inr List.mem_cons_self
        · exact (ih hRest).imp_right (List.mem_cons_of_mem first)

theorem Path.exists_same_insertSorted
    {p q : Path}
    {ps : List Path}
    (h : q = p ∨ q ∈ ps) :
    ∃ r ∈ p.insertSorted ps, q.same r = true := by
  have hSelf : q.same q = true := Path.same_iff.mpr rfl
  induction ps with
  | nil => exact ⟨q, by simpa [insertSorted] using h, hSelf⟩
  | cons first rest ih =>
      unfold insertSorted
      split
      · exact ⟨q, by simpa using h, hSelf⟩
      · next hSame =>
          rcases h with rfl | hOld
          · exact ⟨first, List.mem_cons_self,
              Path.same_iff.mpr (Path.order_eq_iff.mp hSame)⟩
          · exact ⟨q, hOld, hSelf⟩
      · by_cases hFirst : q = first
        · exact ⟨first, List.mem_cons_self, Path.same_iff.mpr (hFirst ▸ rfl)⟩
        · rcases ih (h.imp_right fun hOld =>
              (List.mem_cons.mp hOld).resolve_left hFirst) with ⟨r, hr, hSame⟩
          exact ⟨r, List.mem_cons_of_mem first hr, hSame⟩

/- A path leads to the only file that has it. -/
theorem Compilation.tree?_eq_some
    {c : Compilation}
    (hDistinct : c.HasDistinctPaths)
    {tree : SourceTree}
    (hTree : tree ∈ c.trees)
    {path : Path}
    (hPath : tree.path.same path = true) :
    c.tree? path = some tree := by
  refine find?_eq_some_of_apart hDistinct ?_ hTree hPath ?_
  · intro a b hOther
    rw [← Bool.not_eq_true, Path.same_iff] at hOther ⊢
    exact fun hSame => hOther hSame.symm
  · intro other _ hOther hApart
    rw [← Bool.not_eq_true, Path.same_iff] at hApart
    rw [Path.same_iff] at hPath hOther
    exact hApart (hOther.trans hPath.symm)

/- Two files of one path are the same file. -/
theorem Compilation.eq_of_same
    {c : Compilation}
    (hDistinct : c.HasDistinctPaths)
    {tree other : SourceTree}
    (hTree : tree ∈ c.trees)
    (hOther : other ∈ c.trees)
    (hPath : tree.path.same other.path = true) :
    tree = other := by
  have hSelf : other.path.same other.path = true := Path.same_iff.mpr rfl
  exact Option.some.inj ((tree?_eq_some hDistinct hTree hPath).symm.trans
    (tree?_eq_some hDistinct hOther hSelf))

------------------------------------------------------------
-- Results
------------------------------------------------------------

/-
  The result of fixing some diagnostics of a file, with all
  of their edits.  Those that are counted as skipped overlap
  an accepted edit before them.
-/
def FixResult.SkipsOverlaps
    (tree : SourceTree)
    (ds : List Diagnostic)
    (r : FixResult) : Prop :=
  ∃ (edits : List (List TextEdit)) (accepted : List TextEdit),
    Fixer.computed tree ds = edits.map Except.ok ∧
    TextEdit.choose? tree.chars edits.flatten = some ⟨accepted, r.skipped⟩ ∧
    r.skipped = edits.flatten.dedup.countP fun e =>
      ∃ a ∈ accepted, a.IsBefore e ∧ a.span.Overlaps e.span

namespace Fixer

variable {tree : SourceTree}
variable {ds : List Diagnostic}

/- Only the diagnostics of a file are fixed in it. -/
theorem fixDocument_filter
    (tree : SourceTree)
    (ds : List Diagnostic) :
    fixDocument tree (ds.filter fun d => d.location.path.same tree.path) =
      fixDocument tree ds := by
  simp [fixDocument]

theorem fixAll_eq_singleton
    {c : Compilation}
    (hPaths : paths ds = [tree.path])
    (hTree : c.tree? tree.path = some tree) :
    fixAll c ds = .ok [fixDocument tree ds] := by
  rw [fixAll, hPaths, List.mapM_cons, List.mapM_nil]
  dsimp only
  rw [hTree]
  dsimp only
  rw [fixDocument_filter]
  rfl

theorem computed_eq
    (hFixable : ∀ d ∈ ds, ∃ node, d.IsFixable tree node) :
    ∃ edits : List (List TextEdit),
      computed tree ds = edits.map Except.ok ∧
        ∀ e ∈ edits.flatten, e.inBounds tree.chars = true := by
  induction ds with
  | nil => exact ⟨[], rfl, by simp⟩
  | cons d rest ih =>
      rcases List.forall_mem_cons.mp hFixable with ⟨⟨node, hFirst⟩, hRest⟩
      rcases ih hRest with ⟨edits, hEdits, hBounds⟩
      rw [computed] at hEdits ⊢
      cases hFixer : forDiagnostic? d.id with
      | none => exact ⟨edits, by simpa [hFixer] using hEdits, hBounds⟩
      | some fixer =>
          rcases hFirst.edits_ok fixer hFixer with ⟨own, hOwn, hOwnBounds⟩
          refine ⟨own :: edits, by simp [hFixer, hOwn, hEdits], ?_⟩
          intro e he
          rw [List.flatten_cons, List.mem_append] at he
          exact he.elim (hOwnBounds e) (hBounds e)

theorem fixDocument_skipsOverlaps
    (hFixable : ∀ d ∈ ds, ∃ node, d.IsFixable tree node) :
    (fixDocument tree ds).SkipsOverlaps tree ds := by
  have hOwn : (ds.filter fun d => d.location.path.same tree.path) = ds := by
    refine List.filter_eq_self.mpr fun d hd => ?_
    rcases hFixable d hd with ⟨node, hNode⟩
    rw [hNode.path_eq, Path.same_iff]
  rcases computed_eq hFixable with ⟨edits, hComputed, hBounds⟩
  rcases TextEdit.exists_outcome? tree.text edits.flatten with
    ⟨accepted, edited, -, hChoice, -, hOutcome⟩
  have hSkipped : (fixDocument tree ds).skipped =
      edits.flatten.dedup.countP fun e =>
        TextEdit.IsBlocked tree.chars accepted e := by
    have hAll : (edits.map Except.ok).flatMap
        (fun r : Except AnalysisError (List TextEdit) =>
          r.toOption.getD []) = edits.flatten := by
      rw [List.flatMap_map]
      exact List.flatMap_id
    have hNone : (edits.map Except.ok).filter
        (fun r : Except AnalysisError (List TextEdit) =>
          r.toOption.isNone) = [] := by
      simp [Except.toOption]
    simp only [fixDocument, hOwn, hComputed, hAll, hNone, TextEdit.apply,
      hOutcome, Option.getD_some, List.length_nil, Nat.add_zero]
    rfl
  refine ⟨edits, accepted, hComputed, ?_, ?_⟩
  · rw [hSkipped]
    exact hChoice
  · rw [hSkipped]
    apply List.countP_congr
    intro e he
    have hIn := hBounds e (List.mem_dedup.mp he)
    simp [TextEdit.IsBlocked, hIn]

theorem mem_paths
    {path : Path}
    (h : path ∈ paths ds) :
    ∃ d ∈ ds, d.location.path = path := by
  refine List.foldlRecOn (motive := fun ps => ∀ path ∈ ps,
    ∃ d ∈ ds, d.location.path = path) ds _ (by simp) ?_ path h
  intro ps hPaths d hd path hPath
  rcases Path.mem_insertSorted hPath with rfl | hOld
  · exact ⟨d, hd, rfl⟩
  · exact hPaths path hOld

/- The path of each diagnostic is among them, in some spelling. -/
theorem exists_same_paths
    (hd : d ∈ ds) :
    ∃ path ∈ paths ds, d.location.path.same path = true := by
  have hFold : ∀ (ds : List Diagnostic) (ps : List Path),
      (d ∈ ds ∨ ∃ path ∈ ps, d.location.path.same path = true) →
      ∃ path ∈ ds.foldl (fun ps d => d.location.path.insertSorted ps) ps,
        d.location.path.same path = true := by
    intro ds
    induction ds with
    | nil => exact fun ps h => h.resolve_left List.not_mem_nil
    | cons first rest ih =>
        intro ps h
        refine ih _ ?_
        rcases h with hMem | ⟨path, hPath, hSame⟩
        · rcases List.mem_cons.mp hMem with rfl | hRest
          · exact Or.inr (Path.exists_same_insertSorted (Or.inl rfl))
          · exact Or.inl hRest
        · rcases Path.exists_same_insertSorted (p := first.location.path)
              (Or.inr hPath) with ⟨other, hOther, hBoth⟩
          refine Or.inr ⟨other, hOther, ?_⟩
          rw [Path.same_iff] at hSame hBoth ⊢
          exact hSame.trans hBoth
  exact hFold ds [] (Or.inl hd)

end Fixer

/- All results of a map that succeeds at each element. -/
theorem mapM_eq_ok
    {ε α β : Type}
    {f : α → Except ε β}
    {xs : List α}
    {P : α → β → Prop}
    (h : ∀ x ∈ xs, ∃ y, f x = .ok y ∧ P x y) :
    ∃ ys, xs.mapM f = .ok ys ∧ (∀ y ∈ ys, ∃ x ∈ xs, P x y) ∧
      ∀ x ∈ xs, ∃ y ∈ ys, P x y := by
  induction xs with
  | nil => exact ⟨[], rfl, by simp, by simp⟩
  | cons x rest ih =>
      rcases List.forall_mem_cons.mp h with ⟨⟨y, hFirst, hHolds⟩, hRest⟩
      rcases ih hRest with ⟨ys, hYs, hBack, hThere⟩
      refine ⟨y :: ys, ?_, List.forall_mem_cons.mpr ⟨?_, ?_⟩,
        List.forall_mem_cons.mpr ⟨?_, ?_⟩⟩
      · rw [List.mapM_cons, hFirst, hYs]
        rfl
      · exact ⟨x, List.mem_cons_self, hHolds⟩
      · intro z hz
        rcases hBack z hz with ⟨w, hw, hBoth⟩
        exact ⟨w, List.mem_cons_of_mem x hw, hBoth⟩
      · exact ⟨y, List.mem_cons_self, hHolds⟩
      · intro w hw
        rcases hThere w hw with ⟨z, hz, hBoth⟩
        exact ⟨z, List.mem_cons_of_mem y hz, hBoth⟩

------------------------------------------------------------
-- Runs
------------------------------------------------------------

namespace Analysis

variable {c : Compilation}
variable {workers : Nat}
variable {cancelled : Bool}
variable {ds : List Diagnostic}
variable {d : Diagnostic}

/- A diagnostic can be fixed at the name that it was reported at. -/
theorem isFixable_of_mem_run
    (hFits : c.Fits)
    (hRun : run Analyzer.builtin c workers cancelled = .ok ds)
    (hd : d ∈ ds) :
    ∃ tree ∈ c.trees, ∃ node ∈ tree.names,
      (∃ a ∈ Analyzer.builtin.filterMap fun a => a.start? c,
        d ∈ a.analyze ⟨c.model tree, node⟩) ∧
      d.IsFixable tree node := by
  rcases exists_analyze_of_mem_run hRun hd with
    ⟨tree, hTree, node, hNode, a, ha, hAnalyze⟩
  exact ⟨tree, hTree, node, hNode, ⟨a, ha, hAnalyze⟩,
    (NodeAnalyzer.reported_of_mem ha hAnalyze).isFixable
      (hFits tree hTree) hNode⟩

/- If paths are distinct, what has the path of a file is about it. -/
theorem reported_of_path
    (hDistinct : c.HasDistinctPaths)
    (hRun : run Analyzer.builtin c workers cancelled = .ok ds)
    (hd : d ∈ ds)
    {tree : SourceTree}
    (hTree : tree ∈ c.trees)
    (hPath : d.location.path.same tree.path = true) :
    ∃ node ∈ tree.names, Reported ⟨c.model tree, node⟩ d := by
  rcases exists_analyze_of_mem_run hRun hd with
    ⟨other, hOther, node, hNode, a, ha, hAnalyze⟩
  have hReported := NodeAnalyzer.reported_of_mem ha hAnalyze
  have hOwn : other.path.same tree.path = true :=
    hReported.path_eq ▸ hPath
  obtain rfl := Compilation.eq_of_same hDistinct hOther hTree hOwn
  exact ⟨node, hNode, hReported⟩

/- If every path leads to one file, the files can be fixed. -/
theorem exists_fixAll
    (hDistinct : c.HasDistinctPaths)
    (hRun : run Analyzer.builtin c workers cancelled = .ok ds) :
    ∃ results, Fixer.fixAll c ds = .ok results ∧
      (∀ r ∈ results, ∃ tree ∈ c.trees, r = Fixer.fixDocument tree ds) ∧
      ∀ tree ∈ c.trees, ∀ d ∈ ds, d.location.path.same tree.path = true →
        Fixer.fixDocument tree ds ∈ results := by
  let IsOwn : Path → FixResult → Prop := fun path r =>
    ∃ tree ∈ c.trees, tree.path = path ∧ r = Fixer.fixDocument tree ds
  have hAll : ∃ results, Fixer.fixAll c ds = .ok results ∧
      (∀ r ∈ results, ∃ path ∈ Fixer.paths ds, IsOwn path r) ∧
      ∀ path ∈ Fixer.paths ds, ∃ r ∈ results, IsOwn path r := by
    refine mapM_eq_ok fun path hPath => ?_
    rcases Fixer.mem_paths hPath with ⟨d, hd, rfl⟩
    rcases exists_analyze_of_mem_run hRun hd with
      ⟨tree, hTree, node, hNode, a, ha, hAnalyze⟩
    have hOwn : tree.path = d.location.path :=
      (NodeAnalyzer.reported_of_mem ha hAnalyze).path_eq.symm
    have hFound := Compilation.tree?_eq_some hDistinct hTree
      (Path.same_iff.mpr (congrArg Path.components hOwn))
    refine ⟨Fixer.fixDocument tree ds, ?_, tree, hTree, hOwn, rfl⟩
    rw [hFound, ← hOwn]
    exact congrArg _ (Fixer.fixDocument_filter tree ds)
  rcases hAll with ⟨results, hResults, hBack, hThere⟩
  refine ⟨results, hResults, fun r hr => ?_, fun tree hTree d hd hPath => ?_⟩
  · rcases hBack r hr with ⟨path, -, tree, hTree, -, hSame⟩
    exact ⟨tree, hTree, hSame⟩
  · rcases Fixer.exists_same_paths hd with ⟨path, hMem, hSame⟩
    rcases hThere path hMem with ⟨r, hr, other, hOther, rfl, rfl⟩
    have hBoth : other.path.same tree.path = true := by
      rw [Path.same_iff] at hPath hSame ⊢
      exact hSame.symm.trans hPath
    rwa [← Compilation.eq_of_same hDistinct hOther hTree hBoth]

/-
  Fixers can deal with every diagnostic of a run, at the name
  that it was reported at.  If every path leads to one file,
  the files can be fixed, and only overlaps are skipped.
-/
theorem run_isFixable
    {c : Compilation}
    (hFits : c.Fits)
    {workers : Nat}
    {cancelled : Bool}
    {ds : List Diagnostic}
    (hRun : run Analyzer.builtin c workers cancelled = .ok ds) :
    (∀ d ∈ ds,
      ∃ tree ∈ c.trees, ∃ node ∈ tree.names,
        (∃ a ∈ Analyzer.builtin.filterMap fun a => a.start? c,
          d ∈ a.analyze ⟨c.model tree, node⟩) ∧
        d.IsFixable tree node) ∧
    (c.HasDistinctPaths →
      (∀ d ∈ ds,
        ∃ tree, c.tree? d.location.path = some tree ∧
          ∃ node ∈ tree.names, d.IsFixable tree node) ∧
      ∃ results, Fixer.fixAll c ds = .ok results ∧
        ∀ r ∈ results, ∃ tree ∈ c.trees,
          r.path = tree.path ∧
            r.SkipsOverlaps tree
              (ds.filter fun d => d.location.path.same tree.path)) := by
  refine ⟨fun d hd => isFixable_of_mem_run hFits hRun hd,
    fun hDistinct => ⟨fun d hd => ?_, ?_⟩⟩
  · rcases isFixable_of_mem_run hFits hRun hd with
      ⟨tree, hTree, node, hNode, -, hFixable⟩
    refine ⟨tree, ?_, node, hNode, hFixable⟩
    rw [hFixable.path_eq]
    exact Compilation.tree?_eq_some hDistinct hTree (Path.same_iff.mpr rfl)
  · rcases exists_fixAll hDistinct hRun with ⟨results, hFixed, hEach, -⟩
    refine ⟨results, hFixed, fun r hr => ?_⟩
    rcases hEach r hr with ⟨tree, hTree, rfl⟩
    refine ⟨tree, hTree, rfl, ?_⟩
    rw [← Fixer.fixDocument_filter]
    refine Fixer.fixDocument_skipsOverlaps fun d hd => ?_
    rcases List.mem_filter.mp hd with ⟨hMem, hPath⟩
    rcases reported_of_path hDistinct hRun hMem hTree hPath with
      ⟨node, hNode, hReported⟩
    exact ⟨node, hReported.isFixable (hFits tree hTree) hNode⟩

end Analysis

------------------------------------------------------------
-- An old name
------------------------------------------------------------

/-
  A compilation of two files, of which the second mentions a
  name that a table renames.  Whether the files can be fixed
  depends on the path of the first one.
-/
namespace OldName

def name : NameNode :=
  ⟨"Old", none, .simple, false, ⟨0, 3⟩, ⟨0, 3⟩⟩

/- A field of the old type. -/
def file : SourceTree :=
  { path := ⟨"a.cs"⟩
    language := .cSharp
    text := "Old x;"
    parts := { names := [name] } }

def mapping : TypeMapping :=
  ⟨"Old", some "New"⟩

def table : AdditionalText :=
  ⟨⟨"a.typemap"⟩, "Old New\n"⟩

def emptyFile (path : Path) : SourceTree :=
  ⟨path, .cSharp, "", {}⟩

def compilation (path : Path) : Compilation :=
  ((Compilation.empty.addTree (emptyFile path)).addTree file).addAdditional table

def context : NodeContext :=
  ⟨⟨file, .empty⟩, name⟩

def report : Diagnostic :=
  Mapping.report .types context mapping

variable (path : Path)

theorem compilation_model :
    (compilation path).model file = ⟨file, .empty⟩ :=
  rfl

theorem context_resolution :
    context.resolution = .unresolved := by
  decide +kernel

theorem load_table :
    TypeMap.load [table] = TypeMap.extend TypeMap.builtin [mapping] := by
  have hExtension : hasExtension table.path TypeMap.fileExtension = true := by
    decide
  have hTable : TypeMapping.parseTable table.path table.text =
      .ok [mapping] := by
    decide
  simp [TypeMap.load, hExtension, hTable, Except.toOption]

theorem oldName_ne :
    (∀ m ∈ TypeMap.web, m.oldName ≠ "Old") ∧
      ∀ m ∈ TypeMap.windows, m.oldName ≠ "Old" := by
  decide

theorem mapping_isProper :
    mapping.IsProper := by
  rintro name hName
  cases hName
  decide

theorem eq_mapping
    {m : TypeMapping}
    (hm : m ∈ TypeMap.mappings (TypeMap.load [table]))
    (hName : m.oldName = "Old") :
    m = mapping := by
  rw [load_table] at hm
  rcases TypeMap.mem_extend hm with hBuiltin | hNew
  · rcases TypeMap.mem_builtin hBuiltin with hWeb | hWindows
    · exact absurd hName (oldName_ne.1 m hWeb)
    · exact absurd hName (oldName_ne.2 m hWindows)
  · exact List.mem_singleton.mp hNew

theorem reports_typeUpgrade :
    Analyzer.typeUpgrade.reports (compilation path) context = [report] := by
  rw [Analyzer.reports_typeUpgrade]
  refine Mapping.analyze_eq_singleton rfl ?_ (by decide) ?_ ?_
  · have hMem := TypeMap.mem_extend_singleton TypeMap.builtin mapping
    rw [← load_table] at hMem
    exact hMem
  · decide +kernel
  · intro m hm hFlags
    rw [context_resolution] at hFlags
    rcases Mapping.spelledOut_of_flags (by decide) hFlags with
      ⟨w, hw, hSame⟩
    obtain rfl := List.mem_singleton.mp hw
    exact eq_mapping hm (eq_of_beq hSame).symm

theorem builtin_isWrittenLike :
    ∀ rule ∈ ApiRule.builtin, ∀ t ∈ rule.targets,
      ApiAlert.isWrittenLike context t = false := by
  decide

theorem run_compilation :
    Analysis.run Analyzer.builtin (compilation path) 1 false =
      .ok [report] := by
  have hTable : ApiRule.ofFiles [table] = [] := by decide
  have hReports : (Analyzer.builtin.flatMap fun a =>
      a.reports (compilation path) context) = [report] := by
    rw [Analyzer.flatMap_reports_builtin hTable builtin_isWrittenLike rfl,
      reports_typeUpgrade, Analyzer.reports_interopApi_eq_nil rfl,
      List.append_nil]
  have hTrees : (compilation path).trees = [emptyFile path, file] := rfl
  have hNames : (emptyFile path).names = [] ∧ file.names = [name] := ⟨rfl, rfl⟩
  have hFile : (⟨(compilation path).model file, name⟩ : NodeContext) = context := by
    rw [compilation_model]
    rfl
  simp [Analysis.run_builtin, hTrees, hNames, hFile, hReports,
    Diagnostic.arrange, Diagnostic.dropRepeats]

theorem emptyFile_fits :
    (emptyFile path).Fits where
  isIn _ hName := absurd hName List.not_mem_nil
  isOnLine _ hName := absurd hName List.not_mem_nil
  start_le _ hName := absurd hName List.not_mem_nil
  stop_eq _ hName := absurd hName List.not_mem_nil
  eq_of_unqualified _ hName := absurd hName List.not_mem_nil
  apart := .nil
  isImport _ hSpan := absurd hSpan List.not_mem_nil

theorem file_fits :
    file.Fits where
  isIn := List.forall_mem_singleton.mpr (by constructor <;> decide)
  isOnLine := List.forall_mem_singleton.mpr
    ⟨[], "Old".toList, " x;".toList, by decide⟩
  start_le := List.forall_mem_singleton.mpr le_rfl
  stop_eq := List.forall_mem_singleton.mpr rfl
  eq_of_unqualified := List.forall_mem_singleton.mpr fun _ => rfl
  apart := List.pairwise_singleton _ _
  isImport _ hSpan := absurd hSpan List.not_mem_nil

theorem compilation_fits :
    (compilation path).Fits :=
  (Compilation.fits_empty.addTree (emptyFile_fits path)).addTree file_fits

theorem edits_emptyFile :
    Fixer.typeUpgrade.edits (emptyFile path) report =
      .error (.unfixable typeUpgradeId path "no name at 0..3") := by
  have hHint : report.fixHint = .ok (.replaceIdentifier "New") :=
    Diagnostic.fixHint_ofDescriptor (Mapping.suits .types mapping_isProper)
  have hName : (emptyFile path).nameAt? report.location.span = none := rfl
  simp only [Fixer.edits, hHint, FixHint.replaceIdentifier, Fixer.flaggedName,
    hName]
  rfl

/- With a path for each file, the old name can be replaced. -/
theorem run_isFixable_of_distinct :
    (compilation ⟨"b.cs"⟩).Fits ∧
    (compilation ⟨"b.cs"⟩).HasDistinctPaths ∧
    Analysis.run Analyzer.builtin (compilation ⟨"b.cs"⟩) 1 false =
      .ok [report] ∧
    (∀ d ∈ [report],
      ∃ tree ∈ (compilation ⟨"b.cs"⟩).trees, ∃ node ∈ tree.names,
        (∃ a ∈ Analyzer.builtin.filterMap fun a =>
            a.start? (compilation ⟨"b.cs"⟩),
          d ∈ a.analyze ⟨(compilation ⟨"b.cs"⟩).model tree, node⟩) ∧
        d.IsFixable tree node) ∧
    (∀ d ∈ [report],
      ∃ tree,
        (compilation ⟨"b.cs"⟩).tree? d.location.path = some tree ∧
        ∃ node ∈ tree.names, d.IsFixable tree node) ∧
    ∃ results,
      Fixer.fixAll (compilation ⟨"b.cs"⟩) [report] = .ok results ∧
      ∀ r ∈ results, ∃ tree ∈ (compilation ⟨"b.cs"⟩).trees,
        r.path = tree.path ∧
          r.SkipsOverlaps tree
            ([report].filter fun d => d.location.path.same tree.path) := by
  have hFits := compilation_fits ⟨"b.cs"⟩
  have hDistinct : (compilation ⟨"b.cs"⟩).HasDistinctPaths := by decide
  have hRun := run_compilation ⟨"b.cs"⟩
  have hFixable := Analysis.run_isFixable hFits hRun
  exact ⟨hFits, hDistinct, hRun, hFixable.1, hFixable.2 hDistinct⟩

/-
  If two files have one path, the path may lead to the file
  that has no name to replace, and an edit is left out that
  overlaps no other.
-/
theorem run_notFixable :
    (compilation ⟨"a.cs"⟩).Fits ∧
    Analysis.run Analyzer.builtin (compilation ⟨"a.cs"⟩) 1 false =
      .ok [report] ∧
    (compilation ⟨"a.cs"⟩).tree? report.location.path =
      some (emptyFile ⟨"a.cs"⟩) ∧
    Fixer.forDiagnostic? report.id = some .typeUpgrade ∧
    Fixer.typeUpgrade.edits (emptyFile ⟨"a.cs"⟩) report =
      .error (.unfixable typeUpgradeId ⟨"a.cs"⟩ "no name at 0..3") ∧
    Fixer.fixAll (compilation ⟨"a.cs"⟩) [report] =
      .ok [⟨⟨"a.cs"⟩, "", 0, 1⟩] := by
  refine ⟨compilation_fits _, run_compilation _, rfl, rfl,
    edits_emptyFile _, ?_⟩
  decide +kernel

end OldName

end Retarget
