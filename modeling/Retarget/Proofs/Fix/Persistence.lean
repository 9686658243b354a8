import Retarget.Proofs.Fix.Settled

/-
  This file follows what a fix puts into a file to a later
  run on the fixed file.  New names, imports and comments
  stand in the fixed text, and a comment settles its line
  unless an import has been put in the same place.

  Key definitions include:
    * `Fixer.Persists`

  Key statements include:
    * `Reported.isOneLine`
    * `Fixer.isImported_of_accepted`
    * `Fixer.persists_of_text`
-/

namespace Retarget

------------------------------------------------------------
-- Lines of what is reported
------------------------------------------------------------

theorem Interop.newline_not_mem_message
    {api : InteropApi}
    (hApi : api ∈ Interop.builtin) :
    '\n' ∉ (Interop.message api).toList := by
  have hBytes : ∀ api ∈ Interop.builtin,
      (Interop.message api).toByteArray.data.toList.all (· != 10) = true := by
    decide +kernel
  exact Text.newline_not_mem_of_bytes (hBytes api hApi)

theorem Interop.newline_not_mem_documentationUrl :
    '\n' ∉ Interop.documentationUrl.toList :=
  Text.newline_not_mem_of_bytes (by decide)

namespace Reported

variable {c : NodeContext}
variable {d : Diagnostic}

/- All that is reported fits on one line. -/
theorem isOneLine
    (h : Reported c d) :
    d.IsOneLine := by
  cases h with
  | alert e =>
      have hHint : (ApiAlert.report c e).fixHint = .ok .explainOnly :=
        Diagnostic.fixHint_ofDescriptor (ApiAlert.suits e.rule.id)
      refine ⟨fun hId => absurd hId (ApiAlert.diagnosticId_ne (by decide)), ?_, ?_⟩
      · intro hint hOther name hName
        cases hHint.symm.trans hOther
        cases hName
      · intro hint hOther url hUrl
        cases hHint.symm.trans hOther
        cases hUrl
  | @mapping mode m hProper =>
      have hHint : (Mapping.report mode c m).fixHint = .ok (Mapping.hint mode m) :=
        Diagnostic.fixHint_ofDescriptor (Mapping.suits mode hProper)
      rcases m with ⟨oldName, newName⟩
      refine ⟨fun hId => absurd hId (Mapping.descriptor_id_ne mode), ?_, ?_⟩
      · intro hint hOther name hName
        cases hHint.symm.trans hOther
        refine (hProper name ?_).2
        cases mode <;> cases newName <;> exact hName
      · intro hint hOther url hUrl
        cases hHint.symm.trans hOther
        cases mode <;> cases newName <;> cases hUrl
  | @interop api hApi =>
      refine ⟨fun _ => Interop.newline_not_mem_message hApi, ?_, ?_⟩
      · intro hint hHint name hName
        cases (Diagnostic.fixHint_ofDescriptor Interop.suits).symm.trans hHint
        cases hName
      · intro hint hHint url hUrl
        cases (Diagnostic.fixHint_ofDescriptor Interop.suits).symm.trans hHint
        cases hUrl
        exact Interop.newline_not_mem_documentationUrl

end Reported

------------------------------------------------------------
-- What a fix leaves
------------------------------------------------------------

namespace Fixer

/-
  What the fix of a file leaves for a later run on the fixed
  file.

  A new text stands in the fixed file.  If the later run finds
  a name there to rename, it has nothing to do exactly if it
  gives the same name and its namespace is in scope.  A new
  line for an import is found by a Visual Basic scan, unless
  the file ended in one or a name was missing at the place.
  A line with a new comment is settled exactly if no import
  has been put there too.
-/
structure Persists
    (ds later : List Diagnostic)
    (tree fixed : SourceTree)
    (accepted : List TextEdit) : Prop where
  renamed :
    ∀ e ∈ accepted, ∃ front back,
      TextEdit.around? tree.chars accepted e = some (front, back) ∧
      fixed.chars = front ++ e.newText.toList ++ back ∧
      ∀ d ∈ later, ∀ fixer hint newName node,
        forDiagnostic? d.id = some fixer → d.fixHint = .ok hint →
          hint.newIdentifier = some newName →
            fixed.nameAt? d.location.span = some node →
              node.fullSpan =
                  ⟨Text.byteLength front,
                    Text.byteLength (front ++ e.newText.toList)⟩ →
                (d.IsSettled fixed ↔
                  fixer.replacement node newName = e.newText ∧
                  ∀ target simple,
                    ¬NeedsImport fixed node (fixer.fullName node newName)
                      target simple)
  imported :
    ¬tree.EndsInImport → tree.IsClearAt tree.importInsertionPoint →
      ∀ target,
        .insertion tree.importInsertionPoint
            (tree.language.importDirective target ++ "\n") ∈ accepted →
          Text.HasLine fixed.chars (tree.language.importDirective target) ∧
          (fixed = .ofVisualBasic fixed.path fixed.text →
            VisualBasic.IsNamespaceName target →
              fixed.hasImport target = true)
  explained :
    ∀ d ∈ ds, tree.IsClearAt (tree.lineStart d.location.span.start) →
      ∀ url, ∀ e ∈ explainEdits tree d url, e ∈ accepted →
        ∃ front back,
          TextEdit.partsAt? tree.chars accepted
              (tree.lineStart d.location.span.start) = some (front, back) ∧
          fixed.chars = front ++ back ∧
          fixed.lineStart (Text.byteLength front) = Text.byteLength front ∧
          ∀ other ∈ later, other.id = interopApiId →
            fixed.lineStart other.location.span.start =
                Text.byteLength front →
              (other.IsSettled fixed ↔
                ∀ target,
                  .insertion (tree.lineStart d.location.span.start)
                    (tree.language.importDirective target ++ "\n") ∉
                      allEdits tree ds)

end Fixer

namespace Fixer

variable {tree fixed : SourceTree}
variable {ds later : List Diagnostic}
variable {accepted : List TextEdit}

theorem textAt_pieces
    {front back : List Char}
    {newText : String}
    (hChars : fixed.chars = front ++ newText.toList ++ back) :
    fixed.textAt
        ⟨Text.byteLength front,
          Text.byteLength (front ++ newText.toList)⟩ = newText := by
  have hSlice : Text.slice? (Text.byteLength front)
      (Text.byteLength (front ++ newText.toList)) fixed.chars =
        some newText.toList :=
    Text.slice?_eq_some_iff.mpr ⟨front, back, hChars.symm, rfl, rfl⟩
  rw [SourceTree.textAt, hSlice, Option.getD_some, String.ofList_toList]

/- An import that is accepted becomes a line. -/
theorem isImported_of_accepted
    (hFits : tree.Fits)
    (hAccepts : TextEdit.Accepts tree.chars (allEdits tree ds) accepted)
    {skipped : Nat}
    (hChoice :
      TextEdit.choose? tree.chars (allEdits tree ds) =
        some ⟨accepted, skipped⟩)
    (hOther : ¬tree.EndsInImport)
    (hClear : tree.IsClearAt tree.importInsertionPoint)
    {target : String}
    (hPut : .insertion tree.importInsertionPoint
      (tree.language.importDirective target ++ "\n") ∈ accepted) :
    IsImported tree (allEdits tree ds) target := by
  rcases tree.exists_importPlace hFits with
    ⟨before, behind, hChars, hPlace, -, hLine, -⟩
  have hStarts := hLine.mpr hOther
  rw [← hPlace] at hClear hPut
  refine isImported_of_putsLine (hPlace ▸ ?_)
  refine (TextEdit.isCovered_or_putsLine hChars
    ((hAccepts.mem_iff _).mp hPut).1 hStarts fun e he hStop => ?_).resolve_left ?_
  · rcases makes_of_mem_allEdits he with ⟨d, -, hMakes⟩
    exact hMakes.endsLine hFits hChars hStarts hClear hStop
  · rintro ⟨choice, hSame, e, he, hStart, hStop⟩
    cases hChoice.symm.trans hSame
    rcases hAccepts.stop_le_or_le_start hPut he with hBefore | hBehind
    · exact absurd hStop hBefore.not_gt
    · exact absurd hStart hBehind.not_gt

/- What a fix leaves, whatever the later run finds. -/
theorem persists_of_text
    (hFits : tree.Fits)
    (hLines : ∀ d ∈ ds, d.IsOneLine)
    (hLater : ∀ d ∈ later, ∃ c, Reported c d)
    (hLanguage : fixed.language = tree.language)
    (hText : fixed.text = (fixDocument tree ds).text) :
    ∃ choice,
      TextEdit.choose? tree.chars (allEdits tree ds) = some choice ∧
        Persists ds later tree fixed choice.accepted := by
  rcases TextEdit.exists_outcome? tree.text (allEdits tree ds) with
    ⟨accepted, edited, hAccepts, hChoice, hWoven, hOutcome⟩
  have hChars : fixed.chars = edited := by
    rw [SourceTree.chars, hText, fixDocument_text, TextEdit.apply, hOutcome,
      Option.getD_some, String.toList_ofList]
  refine ⟨_, hChoice, ?_, ?_, ?_⟩
  · intro e he
    rcases hAccepts.around?_eq_some hWoven he with
      ⟨front, back, hAround, hEdited⟩
    have hPieces := hChars.trans hEdited
    refine ⟨front, back, hAround, hPieces, ?_⟩
    intro d hd fixer hint newName node hFixer hHint hNew hName hSpan
    rcases hLater d hd with ⟨context, hReported⟩
    have hRead : fixed.textAt node.fullSpan = e.newText := by
      rw [hSpan, textAt_pieces hPieces]
    rw [hReported.isSettled_iff_isRenamed hFixer hHint hNew hName]
    exact ⟨fun h => ⟨h.textAt_eq.symm.trans hRead, h.inScope⟩,
      fun h => ⟨hRead.trans h.1.symm, h.2⟩⟩
  · intro hOther hClear target hPut
    rcases isImported_of_accepted hFits hAccepts hChoice hOther hClear hPut with
      ⟨⟨_, front, back, -, -, hApplied, hLine⟩, hImport⟩
    have hFixed : fixed.text =
        (TextEdit.apply tree.text (allEdits tree ds)).text := hText
    refine ⟨?_, fun hScan hName => ?_⟩
    · rw [SourceTree.chars, hFixed, hApplied, String.toList_ofList]
      exact hLine.append back
    · have hVisualBasic : tree.language = .visualBasic := by
        rw [← hLanguage, hScan]
        rfl
      rw [hScan, hFixed]
      exact hImport hVisualBasic hName fixed.path
  · intro d _ hClear url e he hAccepted
    rw [eq_of_mem_explainEdits he] at hAccepted
    rcases explainEdits_fixDocument_iff hFits hLines hChoice hClear hAccepted with
      ⟨front, back, hParts, hApplied, hFixed⟩
    rcases hFixed fixed hLanguage hText with ⟨hLine, hAgain⟩
    refine ⟨front, back, hParts, ?_, hLine, fun other hOther hId hAt => ?_⟩
    · rw [SourceTree.chars, hText, hApplied, String.toList_ofList]
    · rcases hLater other hOther with ⟨context, hReported⟩
      exact (hReported.isSettled_iff_isExplained hId).trans
        (explainEdits_eq_nil_iff.symm.trans (hAgain other url hAt))

end Fixer

end Retarget
