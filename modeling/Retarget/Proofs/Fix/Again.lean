import Retarget.Proofs.Fix.Persistence

/-
  This file shows what a run on fixed files finds and when
  fixing them again changes nothing: exactly if all that the
  second run reports is settled.  That need not be so, since
  an import may come between a comment and its line.

  Key definitions include:
    * `SourceTree.IsRewritten`
    * `Compilation.IsRewritten`

  Key statements include:
    * `Analysis.textOf_eq`
    * `Analysis.run_fixAll_again`
    * `Printing.run_fixAll_changes`
-/

namespace Retarget

------------------------------------------------------------
-- Fixed files
------------------------------------------------------------

/- The text of a file after a fix, which need not have a result for it. -/
def FixResult.textOf (results : List FixResult) (tree : SourceTree) : String :=
  ((results.find? fun r => r.path.same tree.path).map
    FixResult.text).getD tree.text

/- The file has been read again after a fix. -/
structure SourceTree.IsRewritten
    (results : List FixResult)
    (tree fixed : SourceTree) : Prop where
  path_eq : fixed.path = tree.path
  language_eq : fixed.language = tree.language
  text_eq : fixed.text = FixResult.textOf results tree

/-
  The files of the other compilation are those of the first
  one after a fix.  Its symbols may be others.
-/
def Compilation.IsRewritten
    (c : Compilation)
    (results : List FixResult)
    (again : Compilation) : Prop :=
  List.Forall₂ (SourceTree.IsRewritten results) c.trees again.trees

theorem Compilation.IsRewritten.hasDistinctPaths
    {c again : Compilation}
    {results : List FixResult}
    (h : c.IsRewritten results again)
    (hDistinct : c.HasDistinctPaths) :
    again.HasDistinctPaths := by
  have hPaths : again.trees.map SourceTree.path =
      c.trees.map SourceTree.path := by
    rw [← List.forall₂_eq_eq_eq, List.forall₂_map_left_iff,
      List.forall₂_map_right_iff]
    exact List.Forall₂.flip (h.imp fun _ _ hTree => hTree.path_eq)
  have hApart : (c.trees.map SourceTree.path).Pairwise
      fun p q => p.same q = false :=
    List.pairwise_map.mpr hDistinct
  exact List.pairwise_map.mp (hPaths ▸ hApart)

------------------------------------------------------------
-- Two runs
------------------------------------------------------------

namespace Analysis

variable {c again : Compilation}
variable {workers : Nat}
variable {cancelled : Bool}
variable {ds : List Diagnostic}

/- A file without a result has no diagnostics and keeps its text. -/
theorem textOf_eq
    (hFits : c.Fits)
    (hDistinct : c.HasDistinctPaths)
    {results : List FixResult}
    (hBack : ∀ r ∈ results, ∃ tree ∈ c.trees, r = Fixer.fixDocument tree ds)
    (hThere : ∀ tree ∈ c.trees, ∀ d ∈ ds,
      d.location.path.same tree.path = true →
        Fixer.fixDocument tree ds ∈ results)
    {tree : SourceTree}
    (hTree : tree ∈ c.trees) :
    FixResult.textOf results tree = (Fixer.fixDocument tree ds).text := by
  unfold FixResult.textOf
  cases hFound : results.find? fun r => r.path.same tree.path with
  | some r =>
      rcases hBack r (List.mem_of_find?_eq_some hFound) with
        ⟨other, hOther, rfl⟩
      have hPath : other.path.same tree.path = true :=
        List.find?_some (p := fun r : FixResult => r.path.same tree.path) hFound
      obtain rfl := Compilation.eq_of_same hDistinct hOther hTree hPath
      rfl
  | none =>
      have hNone : ∀ d ∈ ds, d.location.path.same tree.path ≠ true := by
        intro d hd hPath
        have hSelf : tree.path.same tree.path = true := Path.same_iff.mpr rfl
        exact List.find?_eq_none.mp hFound _ (hThere tree hTree d hd hPath) hSelf
      rcases Fixer.fixDocument_isChanged_iff (c := c) (hFits tree hTree)
          (fun d hd hPath => absurd hPath (hNone d hd)) with ⟨hSame, hText⟩
      exact (hText (hSame.mpr fun d hd hPath =>
        absurd hPath (hNone d hd))).symm

theorem exists_reported_of_mem_run
    (hRun : run Analyzer.builtin c workers cancelled = .ok ds) :
    ∀ d ∈ ds, ∃ context, Reported context d := by
  intro d hd
  rcases exists_analyze_of_mem_run hRun hd with
    ⟨tree, -, node, -, a, ha, hAnalyze⟩
  exact ⟨_, NodeAnalyzer.reported_of_mem ha hAnalyze⟩

/-
  A run can be followed by fixing all files, and what that
  puts into them is still there for a run on the fixed files.
  Fixing them again succeeds too.  It changes nothing exactly
  if each diagnostic of the second run is settled, and then
  every file keeps its text.
-/
theorem run_fixAll_again
    {c : Compilation}
    (hFits : c.Fits)
    (hDistinct : c.HasDistinctPaths)
    {workers : Nat}
    {cancelled : Bool}
    {ds : List Diagnostic}
    (hRun : run Analyzer.builtin c workers cancelled = .ok ds) :
    ∃ results, Fixer.fixAll c ds = .ok results ∧
      ∀ again : Compilation, c.IsRewritten results again → again.Fits →
        ∀ workers cancelled later,
          run Analyzer.builtin again workers cancelled = .ok later →
            List.Forall₂
              (fun tree fixed => ∃ choice,
                TextEdit.choose? tree.chars (Fixer.allEdits tree ds) =
                    some choice ∧
                  Fixer.Persists ds later tree fixed choice.accepted)
              c.trees again.trees ∧
            ∃ others, Fixer.fixAll again later = .ok others ∧
              ((∀ r ∈ others, r.isChanged = false) ↔
                ∀ fixed ∈ again.trees, ∀ d ∈ later,
                  d.location.path.same fixed.path = true →
                    d.IsSettled fixed) ∧
              ∀ r ∈ others, ∃ fixed ∈ again.trees, r.path = fixed.path ∧
                (r.isChanged = false → r.text = fixed.text) := by
  rcases exists_fixAll hDistinct hRun with ⟨results, hFixed, hBack, hThere⟩
  refine ⟨results, hFixed, fun again hAgain hAgainFits workers cancelled
    later hLater => ⟨?_, ?_⟩⟩
  · have hLines : ∀ d ∈ ds, d.IsOneLine := by
      intro d hd
      rcases exists_reported_of_mem_run hRun d hd with ⟨context, hReported⟩
      exact hReported.isOneLine
    refine (List.forall₂_iff_zip.mpr ⟨hAgain.length_eq, ?_⟩)
    intro tree fixed hPair
    have hTree : tree ∈ c.trees := (List.of_mem_zip hPair).1
    have hRewritten : SourceTree.IsRewritten results tree fixed :=
      (List.forall₂_iff_zip.mp hAgain).2 hPair
    exact Fixer.persists_of_text (hFits tree hTree) hLines
      (exists_reported_of_mem_run hLater) hRewritten.language_eq
      (hRewritten.text_eq.trans
        (textOf_eq hFits hDistinct hBack hThere hTree))
  · exact run_fixAll_isChanged_iff hAgainFits
      (hAgain.hasDistinctPaths hDistinct) hLater

end Analysis

------------------------------------------------------------
-- Printing
------------------------------------------------------------

/-
  A file with one line, which mentions a type that has been
  renamed and an API that needs a window handle.
-/
namespace Printing

def path : Path :=
  ⟨"a.vb"⟩

def compilation (text : String) : Compilation :=
  Compilation.empty.addTree (.ofVisualBasic path text)

def source : String :=
  "Dim x As HttpNotFoundResult(Of Integer) = PrintManager.GetForCurrentView()\n"

/- The type, the class and the API, with a type's name up to an offset. -/
def oldType : NameNode :=
  ⟨"HttpNotFoundResult", none, .simple, true, ⟨9, 27⟩, ⟨9, 27⟩⟩

def manager (start : Nat) : NameNode :=
  ⟨"PrintManager", none, .simple, false, ⟨start, start + 12⟩,
    ⟨start, start + 12⟩⟩

def view (start : Nat) : NameNode :=
  ⟨"GetForCurrentView", some "PrintManager", .memberAccess, false,
    ⟨start + 13, start + 30⟩, ⟨start, start + 30⟩⟩

def file : SourceTree :=
  ⟨path, .visualBasic, source,
    { names := [oldType, manager 42, view 42] }⟩

def mapping : TypeMapping :=
  ⟨"System.Web.Mvc.HttpNotFoundResult",
    some "Microsoft.AspNetCore.Mvc.NotFoundResult"⟩

def api : InteropApi :=
  ⟨"Windows.Graphics.Printing.PrintManager", "GetForCurrentView",
    "PrintManagerInterop.GetForWindow"⟩

def upgrade : Diagnostic :=
  Mapping.report .types ⟨⟨file, .empty⟩, oldType⟩ mapping

/- The warning about the API in a file. -/
def warning (tree : SourceTree) (start : Nat) : Diagnostic :=
  .ofDescriptor Interop.descriptor (Interop.message api)
    (.inTree tree (view start).fullSpan)
    (FixHint.explainOnly.withDocumentationUrl Interop.documentationUrl)

def comment : String :=
  "" ++ Language.visualBasic.lineComment ++ " " ++ Fixer.marker ++ " " ++
    Interop.message api ++ " See " ++ Interop.documentationUrl ++ "\n"

def importLine : String :=
  "Imports Microsoft.AspNetCore.Mvc\n"

/- What the line has behind the type. -/
def rest : String :=
  "(Of Integer) = PrintManager.GetForCurrentView()\n"

/- The import comes between the comment and its line. -/
def fixedSource : String :=
  comment ++ importLine ++ ("Dim x As " ++ "NotFoundResult" ++ rest)

/- The names of the import and of the new type. -/
def newNames : List NameNode :=
  [⟨"Microsoft", none, .imported, false, ⟨338, 347⟩, ⟨338, 347⟩⟩,
    ⟨"AspNetCore", some "Microsoft", .imported, false, ⟨348, 358⟩, ⟨338, 358⟩⟩,
    ⟨"Mvc", some "Microsoft.AspNetCore", .imported, false, ⟨359, 362⟩,
      ⟨338, 362⟩⟩,
    ⟨"NotFoundResult", none, .simple, true, ⟨372, 386⟩, ⟨372, 386⟩⟩]

def fixedFile : SourceTree :=
  ⟨path, .visualBasic, fixedSource,
    { names := newNames ++ [manager 401, view 401]
      imports := ["Microsoft.AspNetCore.Mvc"]
      importSpans := [⟨330, 362⟩] }⟩

/-
  What the two texts consist of.  In the second the comment is
  not in the line above the call any more.
-/
theorem files_eq :
    SourceTree.ofVisualBasic path source = file ∧
      SourceTree.ofVisualBasic path fixedSource = fixedFile ∧
      fixedFile.lineStart 401 = 363 ∧
      Fixer.isExplained fixedFile 363 = false ∧
      fixedFile.indentationAt 363 = "" ∧
      Text.byteLength (comment ++ importLine).toList = 363 := by
  refine ⟨?_, ?_, ?_⟩
  · apply SourceTree.ofVisualBasic_eq
    · rfl
    · decide +kernel
  · apply SourceTree.ofVisualBasic_eq String.ofList_toList.symm
    unfold fixedSource comment importLine rest Interop.message
      Interop.documentationUrl Fixer.marker interopApiId Language.lineComment api
    simp only [String.toList_append]
    repeat rw [String.toList_ofList]
    decide +kernel
  · simp only [Fixer.isExplained, Fixer.previousLine, SourceTree.lineStart,
      SourceTree.indentationAt, SourceTree.textFrom, SourceTree.linesUpTo,
      SourceTree.lineStarts, SourceTree.chars, fixedFile]
    unfold fixedSource comment importLine rest Interop.message
      Interop.documentationUrl Fixer.marker interopApiId Language.lineComment api
    simp only [String.toList_append]
    repeat rw [String.toList_ofList]
    decide +kernel

/- What the built-in tables say about the names in the files. -/
theorem tables_apart :
    ∀ node ∈ file.names ++ fixedFile.names,
      (∀ m ∈ TypeMap.web ++ TypeMap.windows,
        isByteSuffix node.qualifiedName m.oldName = true →
          node = oldType ∧ m = mapping) ∧
      ∀ rule ∈ ApiRule.builtin, ∀ t ∈ rule.targets,
        ∀ w ∈ node.simpleName :: attributeForms node.qualifiedName,
          isByteSuffix w t.fullName = false := by
  decide +kernel

/- The call in a file, and where it starts. -/
def calls : List (SourceTree × Nat) :=
  [(file, 42), (fixedFile, 401)]

/- No symbols are known, so neither name means one. -/
theorem resolutions :
    NodeContext.resolution ⟨⟨file, .empty⟩, oldType⟩ =
        .errorType "HttpNotFoundResult" ∧
      ∀ call ∈ calls,
        let c : NodeContext := ⟨⟨call.1, .empty⟩, view call.2⟩
        c.resolution = .unresolved ∧
          Interop.builtin.find? (Interop.isWrittenLike c "PrintManager") =
            some api := by
  decide +kernel

------------------------------------------------------------
-- The runs of the example
------------------------------------------------------------

theorem models_eq :
    (compilation source).model file = ⟨file, .empty⟩ ∧
      (compilation fixedSource).model fixedFile = ⟨fixedFile, .empty⟩ := by
  simp only [compilation, files_eq.1, files_eq.2.1]
  constructor <;> rfl

theorem mapping_mem :
    mapping ∈ TypeMap.builtin.mappings := by
  have hFound : TypeMap.builtin.find? mapping.oldName = some mapping := by
    rw [TypeMap.builtin, TypeMap.find?_extend, TypeMap.find?_extend]
    decide
  exact TypeMap.mem_of_find? hFound

theorem load_additional
    (text : String) :
    TypeMap.load (compilation text).additional = TypeMap.builtin := by
  have hNone : (compilation text).additional = [] := rfl
  rw [TypeMap.load, hNone, List.foldl_nil]

section Reports

variable {text : String}
variable {c : NodeContext}

/- One renaming is written like one of the names. -/
theorem eq_of_flags
    (hNode : c.node ∈ file.names ++ fixedFile.names)
    {m : TypeMapping}
    (hm : m ∈ TypeMap.builtin.mappings)
    {resolution : Resolution}
    (hFlags : Mapping.flags .types c resolution m = true) :
    c.node = oldType ∧ m = mapping := by
  rcases Mapping.isNameSuffix_of_flags hFlags with ⟨w, hw, hSuffix⟩
  obtain rfl := List.mem_singleton.mp hw
  exact (tables_apart _ hNode).1 m (List.mem_append.mpr (TypeMap.mem_builtin hm))
    (isByteSuffix_of_isNameSuffix hSuffix)

/- Only renamings and window handles are of interest here. -/
theorem reports_builtin
    (hNode : c.node ∈ file.names ++ fixedFile.names) :
    (Analyzer.builtin.flatMap fun a => a.reports (compilation text) c) =
      Analyzer.typeUpgrade.reports (compilation text) c ++
        Analyzer.interopApi.reports (compilation text) c := by
  have hAttribute : ∀ node ∈ file.names ++ fixedFile.names,
      node.isAttribute = false := by
    decide
  exact Analyzer.flatMap_reports_builtin rfl
    (fun rule hRule t ht => ApiAlert.isWrittenLike_eq_false
      ((tables_apart _ hNode).2 rule hRule t ht))
    (hAttribute _ hNode)

theorem reports_other
    (hNode : c.node ∈ file.names ++ fixedFile.names)
    (hOther : c.node ≠ oldType) :
    (Analyzer.builtin.flatMap fun a => a.reports (compilation text) c) =
      Interop.analyze Interop.builtin c := by
  have hQuiet : ∀ m ∈ TypeMap.builtin.mappings,
      Mapping.flags .types c c.resolution m = false :=
    fun m hm => Bool.eq_false_iff.mpr fun hFlags =>
      hOther (eq_of_flags hNode hm hFlags).1
  rw [reports_builtin hNode, Analyzer.reports_typeUpgrade, load_additional,
    Mapping.analyze_eq_nil hQuiet]
  rfl

end Reports

theorem reports_oldType :
    (Analyzer.builtin.flatMap fun a =>
      a.reports (compilation source) ⟨⟨file, .empty⟩, oldType⟩) = [upgrade] := by
  have hNode : oldType ∈ file.names ++ fixedFile.names := List.mem_cons_self
  have hKey : Mapping.entryKey .types mapping =
      Mapping.writtenKey .types oldType.simpleName := by
    decide
  have hFlags : Mapping.flags .types ⟨⟨file, .empty⟩, oldType⟩
      (.errorType "HttpNotFoundResult") mapping = true := by
    decide
  rw [← resolutions.1] at hFlags
  have hRenamed : Analyzer.typeUpgrade.reports (compilation source)
      ⟨⟨file, .empty⟩, oldType⟩ = [upgrade] := by
    rw [Analyzer.reports_typeUpgrade, load_additional]
    exact Mapping.analyze_eq_singleton rfl mapping_mem hKey hFlags
      fun m hm hOther => (eq_of_flags hNode hm hOther).2
  have hQuiet : Analyzer.interopApi.reports (compilation source)
      ⟨⟨file, .empty⟩, oldType⟩ = [] :=
    Analyzer.reports_interopApi_eq_nil rfl
  rw [reports_builtin hNode, hRenamed, hQuiet, List.append_nil]

/- The call is reported, and nothing is known about it. -/
theorem reports_view :
    ∀ call ∈ calls, ∀ text,
      (Analyzer.builtin.flatMap fun a =>
        a.reports (compilation text) ⟨⟨call.1, .empty⟩, view call.2⟩) =
          [warning call.1 call.2] := by
  intro call hCall text
  rcases resolutions.2 call hCall with ⟨hResolution, hFound⟩
  have hNode : view call.2 ∈ file.names ++ fixedFile.names := by
    simp only [calls, List.mem_cons, List.not_mem_nil, or_false] at hCall
    rcases hCall with rfl | rfl <;> decide
  have hOther : view call.2 ≠ oldType := by
    simp [view, oldType]
  have hConfirms : Resolution.unresolved.confirms (Interop.matcher api) true =
      true := by
    decide
  rw [reports_other hNode hOther]
  exact Interop.analyze_eq_singleton rfl rfl hFound (hResolution ▸ hConfirms)

/- A name that is neither the type nor the call is not reported. -/
theorem reports_quiet
    {tree : SourceTree}
    {node : NameNode}
    (hNode : node ∈ [manager 42, manager 401] ++ newNames)
    (text : String) :
    (Analyzer.builtin.flatMap fun a =>
      a.reports (compilation text) ⟨⟨tree, .empty⟩, node⟩) = [] := by
  have hNames : ∀ node ∈ [manager 42, manager 401] ++ newNames,
      node ∈ file.names ++ fixedFile.names ∧ node ≠ oldType ∧
        node.isMemberAccess = false := by
    decide
  rcases hNames node hNode with ⟨hMem, hOther, hMember⟩
  have hQuiet : Analyzer.interopApi.reports (compilation text)
      ⟨⟨tree, .empty⟩, node⟩ = [] :=
    Analyzer.reports_interopApi_eq_nil hMember
  exact (reports_other hMem hOther).trans hQuiet

theorem trees_eq :
    (compilation source).trees = [file] ∧
      (compilation fixedSource).trees = [fixedFile] := by
  simp only [compilation, files_eq.1, files_eq.2.1]
  exact ⟨rfl, rfl⟩

theorem run_source :
    Analysis.run Analyzer.builtin (compilation source) 1 false =
      .ok [upgrade, warning file 42] := by
  have hSorted : [upgrade, warning file 42].Pairwise fun a b => a.le b = true := by
    decide
  have hArranged : Diagnostic.arrange [upgrade, warning file 42] =
      [upgrade, warning file 42] := by
    rw [Diagnostic.arrange, List.mergeSort_of_pairwise hSorted]
    rfl
  have hNames : file.names = [oldType, manager 42, view 42] := rfl
  have hManager : (Analyzer.builtin.flatMap fun a => a.reports
      (compilation source) ⟨⟨file, .empty⟩, manager 42⟩) = [] :=
    reports_quiet (by decide) source
  have hView := reports_view (file, 42) List.mem_cons_self source
  rw [Analysis.run_builtin, trees_eq.1]
  simp only [List.flatMap_cons, List.flatMap_nil, hNames, models_eq.1,
    reports_oldType, hManager, hView, List.nil_append, List.append_nil,
    List.singleton_append, hArranged]

/- The new type is reported no more, but the call still is. -/
theorem run_fixedSource :
    Analysis.run Analyzer.builtin (compilation fixedSource) 1 false =
      .ok [warning fixedFile 401] := by
  have hNames : fixedFile.names = newNames ++ [manager 401] ++ [view 401] := rfl
  have hQuiet : (newNames ++ [manager 401]).flatMap (fun node =>
      Analyzer.builtin.flatMap fun a =>
        a.reports (compilation fixedSource) ⟨⟨fixedFile, .empty⟩, node⟩) = [] := by
    refine List.flatMap_eq_nil_iff.mpr fun node hNode => reports_quiet ?_ _
    have hAll : ∀ node ∈ newNames ++ [manager 401],
        node ∈ [manager 42, manager 401] ++ newNames := by
      decide
    exact hAll node hNode
  have hView := reports_view (fixedFile, 401)
    (List.mem_cons_of_mem _ List.mem_cons_self) fixedSource
  rw [Analysis.run_builtin, trees_eq.2, List.flatMap_singleton, hNames,
    List.flatMap_append, models_eq.2, hQuiet, List.flatMap_singleton, hView]
  simp [Diagnostic.arrange, Diagnostic.dropRepeats]

------------------------------------------------------------
-- The fixes of the example
------------------------------------------------------------

theorem fixAll_eq :
    Fixer.fixAll (compilation source) [upgrade, warning file 42] =
        .ok [Fixer.fixDocument file [upgrade, warning file 42]] ∧
      Fixer.fixAll (compilation fixedSource) [warning fixedFile 401] =
        .ok [Fixer.fixDocument fixedFile [warning fixedFile 401]] := by
  have hSame : path.same path = true := Path.same_iff.mpr rfl
  constructor
  · refine Fixer.fixAll_eq_singleton (by decide) ?_
    rw [Compilation.tree?, trees_eq.1]
    exact List.find?_cons_of_pos hSame
  · refine Fixer.fixAll_eq_singleton (by decide) ?_
    rw [Compilation.tree?, trees_eq.2]
    exact List.find?_cons_of_pos hSame

/- The first fix puts a comment and an import in front of the line. -/
theorem allEdits_file :
    Fixer.allEdits file [upgrade, warning file 42] =
      [⟨⟨9, 27⟩, "NotFoundResult"⟩, .insertion 0 importLine,
        .insertion 0 comment] := by
  decide +kernel

theorem allEdits_fixedFile :
    Fixer.allEdits fixedFile [warning fixedFile 401] =
      [.insertion 363 comment] := by
  rcases files_eq.2.2 with ⟨hStart, hExplained, hIndent, -⟩
  have hHint : (warning fixedFile 401).fixHint = .ok _ :=
    Diagnostic.fixHint_ofDescriptor Interop.suits
  have hMade : Fixer.explainEdits fixedFile (warning fixedFile 401)
      Interop.documentationUrl = [.insertion 363 comment] := by
    have hLine : fixedFile.lineStart
        (warning fixedFile 401).location.span.start = 363 := hStart
    rw [Fixer.explainEdits, hLine, hExplained, hIndent]
    rfl
  have hEdits : Fixer.interopApi.edits fixedFile (warning fixedFile 401) =
      .ok [.insertion 363 comment] :=
    (Fixer.edits_explain hHint rfl).trans (congrArg Except.ok hMade)
  have hFixer : Fixer.forDiagnostic? (warning fixedFile 401).id =
      some .interopApi := rfl
  have hPath : (warning fixedFile 401).location.path.same fixedFile.path =
      true := Path.same_iff.mpr rfl
  simp [Fixer.allEdits, Fixer.computed, hPath, hFixer, hEdits, Except.toOption]

theorem head_comment :
    comment.toList.head? = some '\'' := by
  unfold comment Language.lineComment
  simp only [String.toList_append, List.append_assoc]
  rw [String.toList_ofList, String.toList_ofList]
  rfl

theorem comment_ne :
    comment ≠ "" := by
  intro hNone
  have hHead := head_comment
  rw [hNone] at hHead
  cases hHead

theorem comment_lt_importLine :
    comment < importLine := by
  have hHead : importLine.toList.head? = some 'I' := by
    decide
  exact Text.lt_of_head? head_comment hHead (by decide)

theorem replaceRange?_zero
    (newText cs : List Char) :
    Text.replaceRange? 0 0 newText cs = some (newText ++ cs) := by
  exact Text.replaceRange?_pieces [] [] cs newText

theorem text_fixed :
    (Fixer.fixDocument file [upgrade, warning file 42]).text = fixedSource := by
  let edits : List TextEdit :=
    [.insertion 0 comment, .insertion 0 importLine, ⟨⟨9, 27⟩, "NotFoundResult"⟩]
  have hSorted : edits.Pairwise TextEdit.IsBefore := by
    refine .cons (List.forall_mem_cons.mpr ⟨?_, List.forall_mem_singleton.mpr rfl⟩)
      (List.pairwise_pair.mpr rfl)
    exact TextEdit.insertion_isBefore_iff.mpr comment_lt_importLine
  have hBounds : ∀ e ∈ edits, e.inBounds source.toList = true := by
    decide
  have hApart : edits.Pairwise fun a b => ¬a.span.Overlaps b.span := by
    decide
  have hOther : ∀ e ∈ edits, TextEdit.isIdle source.toList e = false := by
    refine List.forall_mem_cons.mpr ⟨TextEdit.isIdle_insertion comment_ne,
      List.forall_mem_cons.mpr ⟨TextEdit.isIdle_insertion (by decide),
        List.forall_mem_singleton.mpr ?_⟩⟩
    decide
  have hLine : source.toList = "Dim x As ".toList ++
      "HttpNotFoundResult".toList ++ rest.toList := by
    have hText : source = "Dim x As " ++ "HttpNotFoundResult" ++ rest := rfl
    rw [hText, String.toList_append, String.toList_append]
  have hReplaced : TextEdit.replaceAll? edits source.toList =
      some (comment.toList ++ (importLine.toList ++
        ("Dim x As ".toList ++ "NotFoundResult".toList ++ rest.toList))) := by
    have hType := Text.replaceRange?_pieces "Dim x As ".toList
      "HttpNotFoundResult".toList rest.toList "NotFoundResult".toList
    have hStart : Text.byteLength "Dim x As ".toList = 9 := by
      decide
    have hStop : Text.byteLength
        ("Dim x As ".toList ++ "HttpNotFoundResult".toList) = 27 := by
      decide
    rw [hStart, hStop] at hType
    simp only [edits, TextEdit.replaceAll?, TextEdit.insertion, hLine, hType,
      replaceRange?_zero, Option.bind_eq_bind, Option.bind_some]
  rw [Fixer.fixDocument_text, allEdits_file]
  refine (TextEdit.apply_text_of_apart (List.reverse_perm edits) hSorted hBounds
    hApart hOther hReplaced).trans ?_
  unfold fixedSource
  simp only [String.ofList_append, String.ofList_toList, String.append_assoc]

/- The comment is put in twice, with the import in between. -/
theorem text_refixed :
    (Fixer.fixDocument fixedFile [warning fixedFile 401]).text =
      comment ++ importLine ++ comment ++
        ("Dim x As " ++ "NotFoundResult" ++ rest) := by
  have hText : fixedFile.text =
      comment ++ importLine ++ ("Dim x As " ++ "NotFoundResult" ++ rest) :=
    rfl
  have hLength : Text.byteLength (comment ++ importLine).toList = 363 :=
    files_eq.2.2.2.2.2
  rw [Fixer.fixDocument_text, allEdits_fixedFile, hText, ← hLength]
  exact TextEdit.apply_insertion_text _ _ comment_ne

theorem fits (text : String) :
    (compilation text).Fits :=
  Compilation.fits_empty.addTree (SourceTree.ofVisualBasic_fits path text)

theorem isRewritten :
    (compilation source).IsRewritten
      [Fixer.fixDocument file [upgrade, warning file 42]]
      (compilation fixedSource) := by
  have hSame : path.same path = true := Path.same_iff.mpr rfl
  have hText : FixResult.textOf
      [Fixer.fixDocument file [upgrade, warning file 42]] file =
        fixedSource := by
    have hFound : [Fixer.fixDocument file [upgrade, warning file 42]].find?
        (fun r => r.path.same file.path) =
          some (Fixer.fixDocument file [upgrade, warning file 42]) :=
      List.find?_cons_of_pos hSame
    rw [FixResult.textOf, hFound]
    exact text_fixed
  rw [Compilation.IsRewritten, trees_eq.1, trees_eq.2]
  exact .cons ⟨rfl, rfl, hText.symm⟩ .nil

/- The first fix has put an import where the comment is looked for. -/
theorem run_fixAll_again_of_import :
    (compilation source).Fits ∧
    (compilation source).HasDistinctPaths ∧
    Analysis.run Analyzer.builtin (compilation source) 1 false =
      .ok [upgrade, warning file 42] ∧
    (compilation source).IsRewritten
      [Fixer.fixDocument file [upgrade, warning file 42]]
      (compilation fixedSource) ∧
    (compilation fixedSource).Fits ∧
    Analysis.run Analyzer.builtin (compilation fixedSource) 1 false =
      .ok [warning fixedFile 401] ∧
    (∃ choice,
      TextEdit.choose? file.chars
          (Fixer.allEdits file [upgrade, warning file 42]) = some choice ∧
        Fixer.Persists [upgrade, warning file 42] [warning fixedFile 401]
          file fixedFile choice.accepted) ∧
    ∃ others,
      Fixer.fixAll (compilation fixedSource) [warning fixedFile 401] =
          .ok others ∧
        ∃ r ∈ others, r.isChanged = true := by
  have hDistinct : (compilation source).HasDistinctPaths :=
    List.pairwise_singleton _ _
  rcases Analysis.run_fixAll_again (fits source) hDistinct run_source with
    ⟨results, hFixed, hAgain⟩
  cases hFixed.symm.trans fixAll_eq.1
  rcases hAgain _ isRewritten (fits fixedSource) 1 false _ run_fixedSource with
    ⟨hPersists, others, hOthers, hSame, -⟩
  rw [trees_eq.1, trees_eq.2] at hPersists
  refine ⟨fits source, hDistinct, run_source, isRewritten, fits fixedSource,
    run_fixedSource, (List.forall₂_cons.mp hPersists).1, others, hOthers, ?_⟩
  by_contra hNone
  push Not at hNone
  have hSettled := hSame.mp (fun r hr => by simpa using hNone r hr) fixedFile
    (by simp [trees_eq.2]) _ List.mem_cons_self (Path.same_iff.mpr rfl)
  have hExplained : Fixer.isExplained fixedFile (fixedFile.lineStart 401) =
      true := hSettled.explained rfl
  rw [files_eq.2.2.1, files_eq.2.2.2.1] at hExplained
  cases hExplained

/- The second fix puts the comment into the file once more. -/
theorem run_fixAll_changes :
    Analysis.run Analyzer.builtin (compilation source) 1 false =
      .ok [upgrade, warning file 42] ∧
    (∃ r, Fixer.fixAll (compilation source) [upgrade, warning file 42] =
        .ok [r] ∧ r.text = fixedSource) ∧
    Analysis.run Analyzer.builtin (compilation fixedSource) 1 false =
      .ok [warning fixedFile 401] ∧
    ∃ r, Fixer.fixAll (compilation fixedSource) [warning fixedFile 401] =
        .ok [r] ∧ r.text ≠ fixedSource := by
  refine ⟨run_source, ⟨_, fixAll_eq.1, text_fixed⟩, run_fixedSource, _,
    fixAll_eq.2, ?_⟩
  rw [text_refixed]
  intro hSame
  have hLengths := congrArg String.length hSame
  simp only [fixedSource, String.length_append] at hLengths
  have hNone : comment.length = 0 := by omega
  exact comment_ne (String.length_eq_zero_iff.mp hNone)

end Printing

end Retarget
