import Retarget.Proofs.Fix.Agreement
import Retarget.Proofs.Fix.ImportLine

/-
  This file shows when fixing a file changes nothing: exactly
  if the file already says what each diagnostic asks for.  A
  name has the new name and its namespace is in scope, and a
  call that needs a window handle has its comment.

  Key definitions include:
    * `Fixer.IsRenamed`
    * `Diagnostic.IsSettled`

  Key statements include:
    * `TextEdit.Accepts.eq_nil_iff`
    * `Fixer.isIdle_renameEdits_iff`
    * `Reported.isSettled_iff_isRenamed`
    * `Reported.isSettled_iff_isExplained`
    * `Reported.isIdle_edits_iff`
    * `Fixer.fixDocument_isChanged_iff`
    * `Analysis.run_fixAll_isChanged_iff`
-/

namespace Retarget

------------------------------------------------------------
-- Edits that change nothing
------------------------------------------------------------

namespace TextEdit

variable {text : List Char}
variable {edits accepted : List TextEdit}

/- No edit is accepted if all of them leave the text as it is. -/
theorem Accepts.eq_nil_iff
    (h : Accepts text edits accepted)
    (hBounds : ∀ e ∈ edits, e.inBounds text = true) :
    accepted = [] ↔ ∀ e ∈ edits, isIdle text e = true := by
  constructor
  · rintro rfl e he
    by_contra hOther
    have hFree : ¬IsBlocked text [] e := by
      rintro (hOut | ⟨a, ha, -⟩)
      · cases hOut.symm.trans (hBounds e he)
      · cases ha
    exact absurd ((h.mem_iff e).mpr ⟨he, hFree, by simpa using hOther⟩)
      List.not_mem_nil
  · intro hIdle
    refine List.eq_nil_iff_forall_not_mem.mpr fun e he => ?_
    rcases (h.mem_iff e).mp he with ⟨hMem, -, hOther⟩
    cases hOther.symm.trans (hIdle e hMem)

end TextEdit

------------------------------------------------------------
-- Settled diagnostics
------------------------------------------------------------

namespace Fixer

variable {tree : SourceTree}
variable {node : NameNode}
variable {newName : String}

/-
  The name is what the new full name makes of it, and its
  namespace need not be imported.
-/
structure IsRenamed
    (tree : SourceTree)
    (node : NameNode)
    (newName : String) : Prop where
  textAt_eq :
    tree.textAt node.fullSpan =
      if node.qualifier.isSome then newName else lastPart newName
  inScope :
    ∀ target simple, ¬NeedsImport tree node newName target simple

/- A name in bounds reads as a text just when replacing it changes nothing. -/
theorem isIdle_iff_textAt
    {span : Span}
    (hSpan : span.IsIn tree.chars)
    (newText : String) :
    TextEdit.isIdle tree.chars ⟨span, newText⟩ = true ↔
      tree.textAt span = newText := by
  rcases TextEdit.exists_slice?_of_inBounds
      (TextEdit.inBounds_of_isIn hSpan newText) with ⟨old, hOld⟩
  have hRead : Text.slice? span.start span.stop tree.chars = some old := hOld
  rw [TextEdit.isIdle, SourceTree.textAt, hRead, beq_iff_eq,
    Option.some.injEq, Option.getD_some, ← String.toList_inj,
    String.toList_ofList]

theorem renameEdits_eq_singleton
    (hScope : ∀ target simple, ¬NeedsImport tree node newName target simple) :
    renameEdits tree node newName =
      [⟨node.fullSpan,
        if node.qualifier.isSome then newName else lastPart newName⟩] := by
  cases hQualifier : node.qualifier with
  | some qualifier => simp [renameEdits, hQualifier]
  | none =>
      cases hSplit : Text.splitLast '.' newName with
      | none => simp [renameEdits, lastPart, hQualifier, hSplit]
      | some pieces =>
          rcases pieces with ⟨target, simple⟩
          have hIn : isInScope tree target node.span.start = true := by
            by_contra hOut
            exact hScope target simple
              ⟨hQualifier, hSplit, by simpa using hOut⟩
          simp [renameEdits, lastPart, hQualifier, hSplit, hIn]

/- A rename changes nothing exactly if the name has been renamed. -/
theorem isIdle_renameEdits_iff
    (hFits : tree.Fits)
    (hNode : node ∈ tree.names) :
    (∀ e ∈ renameEdits tree node newName,
        TextEdit.isIdle tree.chars e = true) ↔
      IsRenamed tree node newName := by
  by_cases hScope :
      ∀ target simple, ¬NeedsImport tree node newName target simple
  · rw [renameEdits_eq_singleton hScope, List.forall_mem_singleton,
      isIdle_iff_textAt (hFits.isIn node hNode)]
    exact ⟨fun hText => ⟨hText, hScope⟩, IsRenamed.textAt_eq⟩
  · refine iff_of_false (fun hIdle => ?_) fun h => hScope h.inScope
    push Not at hScope
    rcases hScope with ⟨target, simple, hNeeds⟩
    rw [renameEdits_eq hNeeds] at hIdle
    have hNone := hIdle _ (List.mem_cons_of_mem _ List.mem_cons_self)
    rw [TextEdit.isIdle_insertion (by simp)] at hNone
    cases hNone

/- A call is explained exactly if its comment would be none. -/
theorem isIdle_explainEdits_iff
    {d : Diagnostic}
    {url : String} :
    (∀ e ∈ explainEdits tree d url,
        TextEdit.isIdle tree.chars e = true) ↔
      isExplained tree (tree.lineStart d.location.span.start) = true := by
  refine Iff.trans (b := explainEdits tree d url = []) ?_
    explainEdits_eq_nil_iff
  refine ⟨fun hIdle => ?_, fun hNone e he => by rw [hNone] at he; cases he⟩
  refine List.eq_nil_iff_forall_not_mem.mpr fun e he => ?_
  have hNone := hIdle e he
  rw [eq_of_mem_explainEdits he, TextEdit.isIdle_insertion (by simp)] at hNone
  cases hNone

end Fixer

theorem Mapping.descriptor_id_ne
    (mode : Mapping.Mode) :
    mode.descriptor.id ≠ interopApiId := by
  cases mode <;> decide

/-
  The file says already what fixers would make of it for the
  diagnostic.
-/
structure Diagnostic.IsSettled (tree : SourceTree) (d : Diagnostic) : Prop where
  renamed :
    ∀ fixer hint newName node,
      Fixer.forDiagnostic? d.id = some fixer →
        d.fixHint = .ok hint → hint.newIdentifier = some newName →
          tree.nameAt? d.location.span = some node →
            Fixer.IsRenamed tree node (fixer.fullName node newName)
  explained :
    d.id = interopApiId →
      Fixer.isExplained tree (tree.lineStart d.location.span.start) = true

namespace Reported

variable {c : NodeContext}
variable {d : Diagnostic}
variable {tree : SourceTree}

/- What asks for a new name is no warning about a window handle. -/
theorem id_ne_of_newIdentifier
    (h : Reported c d)
    {hint : FixHint}
    {newName : String}
    (hHint : d.fixHint = .ok hint)
    (hNew : hint.newIdentifier = some newName) :
    d.id ≠ interopApiId := by
  cases h with
  | alert e => exact ApiAlert.diagnosticId_ne (by decide)
  | mapping mode => exact Mapping.descriptor_id_ne mode
  | interop =>
      cases (Diagnostic.fixHint_ofDescriptor Interop.suits).symm.trans hHint
      cases hNew

theorem isSettled_iff_isRenamed
    (h : Reported c d)
    {fixer : Fixer}
    {hint : FixHint}
    {newName : String}
    {node : NameNode}
    (hFixer : Fixer.forDiagnostic? d.id = some fixer)
    (hHint : d.fixHint = .ok hint)
    (hNew : hint.newIdentifier = some newName)
    (hName : tree.nameAt? d.location.span = some node) :
    d.IsSettled tree ↔
      Fixer.IsRenamed tree node (fixer.fullName node newName) := by
  refine ⟨fun hSettled =>
    hSettled.renamed fixer hint newName node hFixer hHint hNew hName,
    fun hRenamed => ⟨?_, fun hId =>
      absurd hId (h.id_ne_of_newIdentifier hHint hNew)⟩⟩
  intro other otherHint otherName otherNode hOther hOtherHint hOtherNew
    hOtherNode
  cases hFixer.symm.trans hOther
  cases hHint.symm.trans hOtherHint
  cases hNew.symm.trans hOtherNew
  cases hName.symm.trans hOtherNode
  exact hRenamed

theorem isSettled_iff_isExplained
    (h : Reported c d)
    (hId : d.id = interopApiId) :
    d.IsSettled tree ↔
      Fixer.isExplained tree (tree.lineStart d.location.span.start) = true := by
  refine ⟨fun hSettled => hSettled.explained hId,
    fun hExplained => ⟨?_, fun _ => hExplained⟩⟩
  intro fixer hint newName node _ hHint hNew
  exact absurd hId (h.id_ne_of_newIdentifier hHint hNew)

end Reported

/- What holds of all edits for a diagnostic, in either way of naming them. -/
theorem Fixer.forall_edits_iff
    {tree : SourceTree}
    {d : Diagnostic}
    {fixer : Fixer}
    {edits : List TextEdit}
    {P : TextEdit → Prop}
    (hFixer : forDiagnostic? d.id = some fixer)
    (hEdits : fixer.edits tree d = .ok edits) :
    (∀ e ∈ edits, P e) ↔
      ∀ other made, forDiagnostic? d.id = some other →
        other.edits tree d = .ok made → ∀ e ∈ made, P e := by
  refine ⟨fun hAll other made hOther hMade => ?_,
    fun hAll => hAll fixer edits hFixer hEdits⟩
  cases hFixer.symm.trans hOther
  cases hEdits.symm.trans hMade
  exact hAll

namespace Reported

variable {c : Compilation}
variable {tree : SourceTree}
variable {node : NameNode}
variable {d : Diagnostic}

/-
  The edits for a diagnostic leave the file as it is exactly
  if the diagnostic is settled.
-/
theorem isIdle_edits_iff
    (hFits : tree.Fits)
    (hNode : node ∈ tree.names)
    (h : Reported ⟨c.model tree, node⟩ d) :
    (∀ fixer edits, Fixer.forDiagnostic? d.id = some fixer →
        fixer.edits tree d = .ok edits →
          ∀ e ∈ edits, TextEdit.isIdle tree.chars e = true) ↔
      d.IsSettled tree := by
  have hName := (h.isFixable hFits hNode).nameAt?_eq
  have hReported := h
  cases h with
  | alert e =>
      have hNone := forDiagnostic?_alert e.rule.id
      refine iff_of_true (fun fixer edits hFixer => ?_) ⟨?_, ?_⟩
      · cases hNone.symm.trans hFixer
      · intro fixer hint newName other hFixer
        cases hNone.symm.trans hFixer
      · exact fun hId => absurd hId (ApiAlert.diagnosticId_ne (by decide))
  | @mapping mode m hProper =>
      have hFixer : Fixer.forDiagnostic?
          (Mapping.report mode ⟨c.model tree, node⟩ m).id =
            some (fixerOf mode) := by
        cases mode <;> rfl
      have hHint : (Mapping.report mode ⟨c.model tree, node⟩ m).fixHint =
          .ok (Mapping.hint mode m) :=
        Diagnostic.fixHint_ofDescriptor (Mapping.suits mode hProper)
      have hOther : (Mapping.report mode ⟨c.model tree, node⟩ m).id ≠
          interopApiId :=
        Mapping.descriptor_id_ne mode
      rcases m with ⟨oldName, newName⟩
      cases newName with
      | none =>
          have hExplain : Mapping.hint mode ⟨oldName, none⟩ = .explainOnly := by
            cases mode <;> rfl
          rw [hExplain] at hHint
          have hEdits := Fixer.edits_nothing tree
            (show fixerOf mode ≠ .interopApi by cases mode <;> decide) hHint
          refine iff_of_true (fun fixer edits hOwn hMade => ?_)
            ⟨fun fixer hint newName other _ hOwn hNew => ?_,
              fun hId => absurd hId hOther⟩
          · cases hFixer.symm.trans hOwn
            cases hEdits.symm.trans hMade
            simp
          · cases hHint.symm.trans hOwn
            cases hNew
      | some newName =>
          have hEdits := Fixer.edits_rename (fixerOf mode) newName hName <| by
            cases mode with
            | types => exact Or.inl ⟨rfl, hHint⟩
            | attributes => exact Or.inr ⟨rfl, hHint⟩
          have hNew : (Mapping.hint mode ⟨oldName, some newName⟩).newIdentifier =
              some newName := by
            cases mode <;> rfl
          rw [← Fixer.forall_edits_iff hFixer hEdits,
            Fixer.isIdle_renameEdits_iff hFits hNode]
          exact (hReported.isSettled_iff_isRenamed hFixer hHint hNew hName).symm
  | @interop api hApi =>
      have hHint : (Diagnostic.ofDescriptor Interop.descriptor
          (Interop.message api) (.inTree tree node.fullSpan)
          (FixHint.explainOnly.withDocumentationUrl
            Interop.documentationUrl)).fixHint = .ok _ :=
        Diagnostic.fixHint_ofDescriptor Interop.suits
      have hEdits : Fixer.interopApi.edits tree _ = .ok _ :=
        Fixer.edits_explain hHint rfl
      exact (Fixer.forall_edits_iff rfl hEdits).symm.trans
        (Fixer.isIdle_explainEdits_iff.trans
          (hReported.isSettled_iff_isExplained rfl).symm)

end Reported

------------------------------------------------------------
-- Files
------------------------------------------------------------

namespace Fixer

variable {c : Compilation}
variable {tree : SourceTree}
variable {ds : List Diagnostic}

theorem forall_mem_allEdits_iff
    {P : TextEdit → Prop} :
    (∀ e ∈ allEdits tree ds, P e) ↔
      ∀ d ∈ ds, d.location.path.same tree.path = true →
        ∀ fixer edits, forDiagnostic? d.id = some fixer →
          fixer.edits tree d = .ok edits → ∀ e ∈ edits, P e := by
  constructor
  · intro hAll d hd hPath fixer edits hFixer hEdits e he
    exact hAll e (mem_allEdits hd hPath hFixer hEdits he)
  · intro hEach e he
    rcases List.mem_flatMap.mp he with ⟨r, hr, hMade⟩
    rcases List.mem_filterMap.mp hr with ⟨d, hd, hResult⟩
    rcases List.mem_filter.mp hd with ⟨hMem, hPath⟩
    rcases Option.map_eq_some_iff.mp hResult with ⟨fixer, hFixer, rfl⟩
    cases hEdits : fixer.edits tree d with
    | error error => simp [hEdits, Except.toOption] at hMade
    | ok edits =>
        rw [hEdits] at hMade
        exact hEach d hMem hPath fixer edits hFixer hEdits e hMade

/-
  Fixing a file changes nothing exactly if each diagnostic is
  settled, and then it keeps the text.
-/
theorem fixDocument_isChanged_iff
    (hFits : tree.Fits)
    (hReported : ∀ d ∈ ds, d.location.path.same tree.path = true →
      ∃ node ∈ tree.names, Reported ⟨c.model tree, node⟩ d) :
    ((fixDocument tree ds).isChanged = false ↔
        ∀ d ∈ ds, d.location.path.same tree.path = true →
          d.IsSettled tree) ∧
      ((fixDocument tree ds).isChanged = false →
        (fixDocument tree ds).text = tree.text) := by
  rcases TextEdit.exists_outcome? tree.text (allEdits tree ds) with
    ⟨accepted, edited, hAccepts, -, hWoven, hOutcome⟩
  have hChanged : (fixDocument tree ds).isChanged = false ↔ accepted = [] := by
    change decide (0 < (TextEdit.apply tree.text (allEdits tree ds)).applied) =
      false ↔ _
    rw [TextEdit.apply, hOutcome]
    simp
  have hBounds : ∀ e ∈ allEdits tree ds, e.inBounds tree.chars = true := by
    rw [forall_mem_allEdits_iff]
    intro d hd hPath fixer edits hFixer hEdits
    rcases hReported d hd hPath with ⟨node, hNode, hOwn⟩
    rcases (hOwn.isFixable hFits hNode).edits_ok fixer hFixer with
      ⟨made, hMade, hIn⟩
    cases hMade.symm.trans hEdits
    exact hIn
  refine ⟨?_, fun hSame => ?_⟩
  · rw [hChanged, hAccepts.eq_nil_iff hBounds, forall_mem_allEdits_iff]
    refine forall₃_congr fun d hd hPath => ?_
    rcases hReported d hd hPath with ⟨node, hNode, hOwn⟩
    exact hOwn.isIdle_edits_iff hFits hNode
  · rw [hChanged.mp hSame, TextEdit.woven?] at hWoven
    rcases Text.exists_append_of_slice? hWoven with ⟨before, hText, hNone⟩
    rw [Text.byteLength_eq_zero_iff.mp hNone, List.nil_append] at hText
    rw [fixDocument_text, TextEdit.apply, hOutcome, Option.getD_some, hText,
      String.ofList_toList]

end Fixer

/-
  Fixing all files of a run changes none of them exactly if
  each diagnostic is settled in the file of its path.
-/
theorem Analysis.run_fixAll_isChanged_iff
    {c : Compilation}
    (hFits : c.Fits)
    (hDistinct : c.HasDistinctPaths)
    {workers : Nat}
    {cancelled : Bool}
    {ds : List Diagnostic}
    (hRun : run Analyzer.builtin c workers cancelled = .ok ds) :
    ∃ results, Fixer.fixAll c ds = .ok results ∧
      ((∀ r ∈ results, r.isChanged = false) ↔
        ∀ tree ∈ c.trees, ∀ d ∈ ds,
          d.location.path.same tree.path = true → d.IsSettled tree) ∧
      ∀ r ∈ results, ∃ tree ∈ c.trees, r.path = tree.path ∧
        (r.isChanged = false → r.text = tree.text) := by
  have hEach : ∀ tree ∈ c.trees,
      ((Fixer.fixDocument tree ds).isChanged = false ↔
        ∀ d ∈ ds, d.location.path.same tree.path = true →
          d.IsSettled tree) ∧
      ((Fixer.fixDocument tree ds).isChanged = false →
        (Fixer.fixDocument tree ds).text = tree.text) :=
    fun tree hTree => Fixer.fixDocument_isChanged_iff (c := c)
      (hFits tree hTree) fun _ hd hPath =>
        reported_of_path hDistinct hRun hd hTree hPath
  rcases exists_fixAll hDistinct hRun with ⟨results, hFixed, hBack, hThere⟩
  refine ⟨results, hFixed, ⟨fun hSame tree hTree d hd hPath => ?_,
    fun hSettled r hr => ?_⟩, fun r hr => ?_⟩
  · have hOwn := hSame _ (hThere tree hTree d hd hPath)
    exact (hEach tree hTree).1.mp hOwn d hd hPath
  · rcases hBack r hr with ⟨tree, hTree, rfl⟩
    exact (hEach tree hTree).1.mpr (hSettled tree hTree)
  · rcases hBack r hr with ⟨tree, hTree, rfl⟩
    exact ⟨tree, hTree, rfl, (hEach tree hTree).2⟩

end Retarget
