import Retarget.Fix.Fixer
import Retarget.Proofs.Analysis.Report
import Retarget.Proofs.Fix.Splice
import Retarget.Proofs.Text.Search
import Retarget.Proofs.Source.Tree

/-
  This file shows that fixers can do what analyzers ask for.
  A diagnostic that an analyzer reports leads back to the
  name that it was reported at, and its edits can be applied
  to the file of that name.

  Key definitions include:
    * `Fixer.replacement`
    * `Diagnostic.IsFixable`

  Key statements include:
    * `Fixer.renameEdits_inBounds`
    * `Reported.isFixable`
-/

namespace Retarget

------------------------------------------------------------
-- Edits in bounds
------------------------------------------------------------

namespace TextEdit

variable {text : List Char}

theorem inBounds_of_isIn
    {span : Span}
    (h : span.IsIn text)
    (newText : String) :
    inBounds text ⟨span, newText⟩ = true :=
  inBounds_iff.mpr ⟨h.start_le_stop, h.start_isBoundary, h.stop_isBoundary⟩

theorem inBounds_insertion
    {offset : Nat}
    (h : Text.isBoundary offset text = true)
    (newText : String) :
    inBounds text (insertion offset newText) = true :=
  inBounds_of_isIn ⟨le_rfl, h, h⟩ newText

end TextEdit

namespace Fixer

variable {tree : SourceTree}
variable {node : NameNode}

/- The new name in the form of the old one. -/
def fullName (fixer : Fixer) (node : NameNode) (newName : String) : String :=
  match fixer with
  | .attributeUpgrade => attributeName node newName
  | _ => newName

/-
  What a fixer puts in the place of a name: the new name for
  a name with a qualifier, its last part for one without.
-/
def replacement (fixer : Fixer) (node : NameNode) (newName : String) : String :=
  if node.qualifier.isSome then fixer.fullName node newName
  else lastPart (fixer.fullName node newName)

/- The new full name has no other letters than the new name. -/
theorem fullName_subset
    (fixer : Fixer)
    (node : NameNode)
    (newName : String) :
    (fixer.fullName node newName).toList ⊆ newName.toList := by
  have hAttribute : (attributeName node newName).toList ⊆ newName.toList := by
    unfold attributeName
    split
    · rename_i stem hStem
      split
      · exact List.Subset.refl _
      · exact Text.subset_of_stripEnd? hStem
    · exact List.Subset.refl _
  cases fixer with
  | attributeUpgrade => exact hAttribute
  | typeUpgrade => exact List.Subset.refl _
  | interopApi => exact List.Subset.refl _

theorem renameEdits_eq_cons
    (tree : SourceTree)
    (node : NameNode)
    (newName : String) :
    ∃ imports,
      renameEdits tree node newName =
        ⟨node.fullSpan,
          if node.qualifier.isSome then newName else lastPart newName⟩ ::
            imports ∧
      ∀ e ∈ imports, ∃ target : String, target.toList ⊆ newName.toList ∧
        e = .insertion tree.importInsertionPoint
          (tree.language.importDirective target ++ "\n") := by
  cases hQualifier : node.qualifier.isSome with
  | true => exact ⟨[], by simp [renameEdits, hQualifier], by simp⟩
  | false =>
      cases hSplit : Text.splitLast '.' newName with
      | none =>
          exact ⟨[], by simp [renameEdits, lastPart, hQualifier, hSplit],
            by simp⟩
      | some parts =>
          obtain ⟨target, simple⟩ := parts
          refine ⟨_, by simp [renameEdits, lastPart, hQualifier, hSplit]; rfl,
            fun e he => ?_⟩
          split at he
          · cases he
          · exact ⟨target, Text.subset_of_splitLast hSplit,
              List.mem_singleton.mp he⟩

theorem renameEdits_inBounds
    (hFits : tree.Fits)
    (hNode : node ∈ tree.names)
    (newName : String) :
    ∀ e ∈ renameEdits tree node newName,
      e.inBounds tree.chars = true := by
  rcases renameEdits_eq_cons tree node newName with
    ⟨imports, hEdits, hImports⟩
  rw [hEdits]
  refine List.forall_mem_cons.mpr ⟨?_, fun e he => ?_⟩
  · exact TextEdit.inBounds_of_isIn (hFits.isIn node hNode) _
  · rcases hImports e he with ⟨target, -, rfl⟩
    exact TextEdit.inBounds_insertion
      (tree.importInsertionPoint_isBoundary hFits) _

theorem explainEdits_inBounds
    (tree : SourceTree)
    (d : Diagnostic)
    (url : String) :
    ∀ e ∈ explainEdits tree d url, e.inBounds tree.chars = true := by
  intro e he
  simp only [explainEdits] at he
  split at he
  · cases he
  · rw [List.mem_singleton.mp he]
    exact TextEdit.inBounds_insertion (tree.lineStart_isBoundary _) _

------------------------------------------------------------
-- Edits by hints
------------------------------------------------------------

variable {d : Diagnostic}

theorem edits_rename
    (fixer : Fixer)
    (newName : String)
    (hName : tree.nameAt? d.location.span = some node)
    (hHint :
      fixer = .typeUpgrade ∧ d.fixHint = .ok (.replaceIdentifier newName) ∨
        fixer = .attributeUpgrade ∧ d.fixHint = .ok (.replaceAttribute newName)) :
    fixer.edits tree d =
      .ok (renameEdits tree node (fixer.fullName node newName)) := by
  have hFlagged : flaggedName tree d = .ok node := by
    rw [flaggedName, hName]
  rcases hHint with ⟨rfl, hHint⟩ | ⟨rfl, hHint⟩
  · rw [edits, hHint]
    simp [FixHint.replaceIdentifier, bind, Except.bind, pure, Except.pure,
      hFlagged, fullName]
  · rw [edits, hHint]
    simp [FixHint.replaceAttribute, bind, Except.bind, pure, Except.pure,
      hFlagged, fullName]

theorem edits_nothing
    (tree : SourceTree)
    {fixer : Fixer}
    (hFixer : fixer ≠ .interopApi)
    (hHint : d.fixHint = .ok .explainOnly) :
    fixer.edits tree d = .ok [] := by
  rw [edits, hHint]
  cases fixer with
  | typeUpgrade => rfl
  | attributeUpgrade => rfl
  | interopApi => exact absurd rfl hFixer

theorem edits_explain
    {hint : FixHint}
    (hHint : d.fixHint = .ok hint)
    (hKind : hint.kind = .explainOnly) :
    Fixer.interopApi.edits tree d =
      .ok (explainEdits tree d (hint.documentationUrl.getD "")) := by
  simp [edits, hHint, hKind, bind, Except.bind, pure, Except.pure]

end Fixer

------------------------------------------------------------
-- Fixable diagnostics
------------------------------------------------------------

variable {c : Compilation}
variable {tree : SourceTree}
variable {node : NameNode}
variable {d : Diagnostic}

/-
  A diagnostic at a name of a file that fixers can deal
  with: its hint and its name can be read back, its edits
  can be computed and applied, and a hint to replace the
  name makes the first edit do so.
-/
structure Diagnostic.IsFixable
    (tree : SourceTree)
    (node : NameNode)
    (d : Diagnostic) : Prop where
  path_eq : d.location.path = tree.path
  nameAt?_eq : tree.nameAt? d.location.span = some node
  hint_ok : ∃ hint, d.fixHint = .ok hint
  edits_ok :
    ∀ fixer, Fixer.forDiagnostic? d.id = some fixer →
      ∃ edits, fixer.edits tree d = .ok edits ∧
        ∀ e ∈ edits, e.inBounds tree.chars = true
  edits_replace :
    ∀ hint, d.fixHint = .ok hint → hint.kind.replaces = true →
      ∃ newName fixer others,
        hint.newIdentifier = some newName ∧
        Fixer.forDiagnostic? d.id = some fixer ∧
        fixer.edits tree d =
          .ok (⟨d.location.span, fixer.replacement node newName⟩ :: others)

theorem Diagnostic.isFixable_of_edits
    {hint : FixHint}
    {fixer : Fixer}
    {edits : List TextEdit}
    (hPath : d.location.path = tree.path)
    (hName : tree.nameAt? d.location.span = some node)
    (hHint : d.fixHint = .ok hint)
    (hFixer : Fixer.forDiagnostic? d.id = some fixer)
    (hEdits : fixer.edits tree d = .ok edits)
    (hBounds : ∀ e ∈ edits, e.inBounds tree.chars = true)
    (hReplaces : hint.kind.replaces = true →
      ∃ newName others, hint.newIdentifier = some newName ∧
        edits =
          ⟨d.location.span, fixer.replacement node newName⟩ :: others) :
    d.IsFixable tree node where
  path_eq := hPath
  nameAt?_eq := hName
  hint_ok := ⟨hint, hHint⟩
  edits_ok other hOther := by
    cases hFixer.symm.trans hOther
    exact ⟨edits, hEdits, hBounds⟩
  edits_replace other hOther hReplace := by
    cases hHint.symm.trans hOther
    rcases hReplaces hReplace with ⟨newName, others, hNew, rfl⟩
    exact ⟨newName, fixer, others, hNew, hFixer, hEdits⟩

namespace Reported

/- An alert has no fixer. -/
theorem forDiagnostic?_alert
    (ruleId : String) :
    Fixer.forDiagnostic? (ApiAlert.diagnosticId ruleId) = none := by
  refine List.find?_eq_none.mpr fun fixer _ => ?_
  have hOther : Text.hasStart apiAlertBaseId fixer.diagnosticId = false := by
    cases fixer <;> decide
  simpa using (ApiAlert.diagnosticId_ne hOther).symm

theorem isFixable_alert
    (hFits : tree.Fits)
    (hNode : node ∈ tree.names)
    (e : ApiAlert.Entry) :
    (ApiAlert.report ⟨c.model tree, node⟩ e).IsFixable tree node := by
  have hHint : (ApiAlert.report ⟨c.model tree, node⟩ e).fixHint =
      .ok FixHint.explainOnly :=
    Diagnostic.fixHint_ofDescriptor (ApiAlert.suits e.rule.id)
  have hFixer : Fixer.forDiagnostic?
      (ApiAlert.report ⟨c.model tree, node⟩ e).id = none :=
    forDiagnostic?_alert e.rule.id
  refine ⟨rfl, tree.nameAt?_eq_some hFits hNode ?_, ⟨_, hHint⟩, ?_, ?_⟩
  · simp only [ApiAlert.report, Diagnostic.ofDescriptor, Location.inTree]
    split
    · exact Or.inr rfl
    · exact Or.inl rfl
  · intro fixer hOther
    cases hFixer.symm.trans hOther
  · intro hint hOther hReplaces
    cases hHint.symm.trans hOther
    cases hReplaces

/- The fixer for the renamings of a mode. -/
def fixerOf : Mapping.Mode → Fixer
  | .types => .typeUpgrade
  | .attributes => .attributeUpgrade

theorem isFixable_mapping
    (hFits : tree.Fits)
    (hNode : node ∈ tree.names)
    (mode : Mapping.Mode)
    {m : TypeMapping}
    (hProper : m.IsProper) :
    (Mapping.report mode ⟨c.model tree, node⟩ m).IsFixable tree node := by
  have hHint : (Mapping.report mode ⟨c.model tree, node⟩ m).fixHint =
      .ok (Mapping.hint mode m) :=
    Diagnostic.fixHint_ofDescriptor (Mapping.suits mode hProper)
  have hName : tree.nameAt?
      (Mapping.report mode ⟨c.model tree, node⟩ m).location.span = some node :=
    tree.nameAt?_eq_some hFits hNode (Or.inl rfl)
  have hFixer : Fixer.forDiagnostic?
      (Mapping.report mode ⟨c.model tree, node⟩ m).id =
        some (fixerOf mode) := by
    cases mode <;> rfl
  obtain ⟨oldName, newName⟩ := m
  cases newName with
  | none =>
      have hExplain : Mapping.hint mode ⟨oldName, none⟩ = .explainOnly := by
        cases mode <;> rfl
      rw [hExplain] at hHint
      have hOther : fixerOf mode ≠ .interopApi := by cases mode <;> decide
      have hEdits := Fixer.edits_nothing tree hOther hHint
      exact Diagnostic.isFixable_of_edits rfl hName hHint hFixer hEdits
        (by simp) (by simp [FixHint.explainOnly, FixKind.replaces])
  | some newName =>
      have hEdits := Fixer.edits_rename (fixerOf mode) newName hName <| by
        cases mode with
        | types => exact Or.inl ⟨rfl, hHint⟩
        | attributes => exact Or.inr ⟨rfl, hHint⟩
      refine Diagnostic.isFixable_of_edits rfl hName hHint hFixer hEdits
        (Fixer.renameEdits_inBounds hFits hNode _) fun _ => ?_
      rcases Fixer.renameEdits_eq_cons tree node
          ((fixerOf mode).fullName node newName) with ⟨others, hCons, -⟩
      refine ⟨newName, others, by cases mode <;> rfl, hCons⟩

theorem isFixable_interop
    (hFits : tree.Fits)
    (hNode : node ∈ tree.names)
    (api : InteropApi) :
    (Diagnostic.ofDescriptor Interop.descriptor (Interop.message api)
      (.inTree tree node.fullSpan)
      (FixHint.explainOnly.withDocumentationUrl
        Interop.documentationUrl)).IsFixable tree node := by
  have hHint : (Diagnostic.ofDescriptor Interop.descriptor
      (Interop.message api) (.inTree tree node.fullSpan)
      (FixHint.explainOnly.withDocumentationUrl
        Interop.documentationUrl)).fixHint = .ok _ :=
    Diagnostic.fixHint_ofDescriptor Interop.suits
  exact Diagnostic.isFixable_of_edits rfl
    (tree.nameAt?_eq_some hFits hNode (Or.inl rfl)) hHint rfl
    (Fixer.edits_explain hHint rfl)
    (Fixer.explainEdits_inBounds tree _ _) (fun hReplaces => by cases hReplaces)

/- Fixers can deal with all that is reported. -/
theorem isFixable
    (hFits : tree.Fits)
    (hNode : node ∈ tree.names)
    (h : Reported ⟨c.model tree, node⟩ d) :
    d.IsFixable tree node := by
  cases h with
  | alert e => exact isFixable_alert hFits hNode e
  | mapping mode hProper => exact isFixable_mapping hFits hNode mode hProper
  | interop => exact isFixable_interop hFits hNode _

end Reported

end Retarget
