import Retarget.Proofs.Fix.Annotation
import Retarget.Proofs.Source.VisualBasic.ImportLine

/-
  This file shows when an import that a fix adds is a line of
  its own: always, unless the text ends in the line of its
  last import, for then there is no newline to put the import
  behind.  Only where a name is missing at the place nothing
  is said.

  Key definitions include:
    * `SourceTree.EndsInImport`
    * `TextEdit.IsCovered`
    * `Fixer.NeedsImport`
    * `Fixer.IsImported`

  Key statements include:
    * `SourceTree.exists_importPlace`
    * `TextEdit.Accepts.hasLine`
    * `TextEdit.isCovered_or_putsLine`
    * `Fixer.renameEdits_isImported`
-/

namespace Retarget

open Text

------------------------------------------------------------
-- The place of an import
------------------------------------------------------------

namespace SourceTree

/-
  The text ends without a newline, in the line of the import
  that is its last.
-/
def EndsInImport (tree : SourceTree) : Prop :=
  ¬EndsLine tree.chars ∧
    ∃ before behind, before ++ behind = tree.chars ∧
      tree.importEnd? = some (byteLength before) ∧ '\n' ∉ behind

variable {tree : SourceTree}
variable {a b : List Char}

theorem stop_le_of_importEnd?
    {stop : Nat}
    (h : tree.importEnd? = some stop) :
    ∀ s ∈ tree.parts.importSpans, s.stop ≤ stop := by
  intro s hs
  exact (List.max?_eq_some_iff.mp h).2 _ (List.mem_map_of_mem hs)

/- Where the last import ends, the text can be cut. -/
theorem exists_append_of_importEnd?
    (hFits : tree.Fits)
    {stop : Nat}
    (h : tree.importEnd? = some stop) :
    ∃ a b, a ++ b = tree.chars ∧ byteLength a = stop := by
  rcases List.mem_map.mp (List.max?_mem h) with ⟨s, hs, rfl⟩
  exact isBoundary_iff.mp (hFits.isImport s hs)

/- The text behind the last import decides. -/
theorem endsInImport_iff
    (hChars : a ++ b = tree.chars)
    (hEnd : tree.importEnd? = some (byteLength a)) :
    tree.EndsInImport ↔ ¬EndsLine tree.chars ∧ '\n' ∉ b := by
  refine and_congr_right fun _ => ⟨?_, fun hNone => ⟨a, b, hChars, hEnd, hNone⟩⟩
  rintro ⟨before, behind, hSame, hStop, hNone⟩
  rw [hEnd, Option.some.injEq] at hStop
  have hCut := cutAt?_eq_some_iff.mpr ⟨hChars, hStop⟩
  rw [← hSame, cutAt?_byteLength] at hCut
  cases hCut
  exact hNone

theorem importInsertionPoint_eq
    (hChars : a ++ b = tree.chars)
    (hEnd : tree.importEnd? = some (byteLength a)) :
    tree.importInsertionPoint =
      match cutWhere? (· == '\n') b with
      | some (line, _) => byteLength a + byteLength line + 1
      | none => tree.length := by
  have hFrom : tree.textFrom (byteLength a) = b := by
    rw [textFrom, ← hChars, cutAt?_byteLength]
    rfl
  unfold importInsertionPoint
  cases hCut : cutWhere? (· == '\n') b with
  | none => simp only [hEnd, hFrom, hCut]
  | some pieces => simp only [hEnd, hFrom, hCut]

/-
  A new import goes behind the others, to the start of the
  text or of a line, unless the text ends in an import.
-/
theorem exists_importPlace
    (hFits : tree.Fits) :
    ∃ before behind, before ++ behind = tree.chars ∧
      byteLength before = tree.importInsertionPoint ∧
      (∀ s ∈ tree.parts.importSpans, s.stop ≤ byteLength before) ∧
      (EndsLine before ↔ ¬tree.EndsInImport) ∧
      (tree.EndsInImport → behind = []) := by
  cases hEnd : tree.importEnd? with
  | none =>
      have hOther : ¬tree.EndsInImport := by
        rintro ⟨-, before, behind, -, hSome, -⟩
        rw [hEnd] at hSome
        cases hSome
      have hNone : tree.parts.importSpans = [] := by
        simpa [importEnd?] using hEnd
      refine ⟨[], tree.chars, rfl, ?_, by simp [hNone], ?_,
        fun h => absurd h hOther⟩
      · rw [importInsertionPoint, hEnd]
        rfl
      · exact iff_of_true (by simp [EndsLine]) hOther
  | some stop =>
      rcases exists_append_of_importEnd? hFits hEnd with ⟨a, b, hChars, rfl⟩
      have hLast := stop_le_of_importEnd? hEnd
      have hEnds := endsInImport_iff hChars hEnd
      have hPlace := importInsertionPoint_eq hChars hEnd
      cases hCut : cutWhere? (· == '\n') b with
      | some pieces =>
          obtain ⟨line, rest⟩ := pieces
          rcases exists_cons_of_cutWhere? hCut with ⟨c, more, rfl, hNewline⟩
          obtain rfl : c = '\n' := eq_of_beq hNewline
          have hBehind := append_of_cutWhere? hCut
          have hOther : ¬tree.EndsInImport := fun h =>
            (hEnds.mp h).2 (by simp [← hBehind])
          rw [hCut] at hPlace
          refine ⟨a ++ line ++ ['\n'], more, ?_, ?_, fun s hs => ?_, ?_,
            fun h => absurd h hOther⟩
          · simp [← hChars, ← hBehind]
          · rw [hPlace, byteLength_append, byteLength_append]
            rfl
          · rw [byteLength_append, byteLength_append, Nat.add_assoc]
            exact (hLast s hs).trans (Nat.le_add_right _ _)
          · exact iff_of_true (by simp [EndsLine]) hOther
      | none =>
          have hNone : '\n' ∉ b := by
            intro hMem
            rw [cutWhere?_eq, if_pos] at hCut
            · cases hCut
            · exact List.any_eq_true.mpr ⟨'\n', hMem, rfl⟩
          rw [hCut] at hPlace
          refine ⟨tree.chars, [], List.append_nil _, hPlace.symm,
            fun s hs => ?_, ?_, fun _ => rfl⟩
          · rw [← hChars, byteLength_append]
            exact (hLast s hs).trans (Nat.le_add_right _ _)
          · rw [hEnds, not_and, not_not]
            exact ⟨fun h hNot => absurd h hNot, fun h => by
              by_contra hNot
              exact hNone (h hNot)⟩

end SourceTree

------------------------------------------------------------
-- Lines that are put in
------------------------------------------------------------

namespace TextEdit

variable {a b edited : List Char}
variable {edits accepted : List TextEdit}
variable {line : String}

/- An accepted line is a line of the edited text up to its place. -/
theorem Accepts.hasLine
    (h : Accepts (a ++ b) edits accepted)
    (hPut : insertion (byteLength a) (line ++ "\n") ∈ accepted)
    (hLine : EndsLine a)
    (hEnds : ∀ e ∈ edits, e.span.stop = byteLength a →
      e.newText.toList ≠ [] ∧ EndsLine e.newText.toList)
    {x y : List Char}
    (hParts : partsAt? (a ++ b) accepted (byteLength a) = some (x, y)) :
    HasLine x line := by
  let front := accepted.filter fun e => e.span.stop ≤ byteLength a
  have hFront : woven? a 0 front = some x := woven?_of_partsAt? hParts
  have hMem : ∀ e, e ∈ front ↔ e ∈ accepted ∧ e.span.stop ≤ byteLength a := by
    simp [front]
  have hApart : front.Pairwise fun a b =>
      a.IsBefore b ∧ a.span.stop ≤ b.span.start :=
    h.apart.filter _
  rcases List.append_of_mem ((hMem _).mpr ⟨hPut, le_rfl⟩) with
    ⟨init, rest, hSplit⟩
  rw [hSplit] at hFront hMem hApart
  have hInit : ∀ e ∈ init, e ∈ accepted ∧ e.span.stop ≤ byteLength a :=
    fun e he => (hMem e).mp (List.mem_append_left _ he)
  have hBehind := List.pairwise_cons.mp (List.pairwise_append.mp hApart).2.1
  have hWhole := (congrArg (woven? · 0 _) (List.append_nil a)).trans hFront
  rcases exists_append_of_woven? hWhole (Nat.zero_le _)
      (fun e he => ⟨(inBounds_iff.mp (h.inBounds (hInit e he).1)).1,
        (hInit e he).2⟩)
      (List.forall_mem_cons.mpr ⟨le_rfl, fun e he => (hBehind.1 e he).2⟩) with
    ⟨before, filling, rfl, hBefore, hFilling⟩
  rcases woven?_cons_eq_some.mp hFilling with ⟨kept, after, hKept, -, rfl⟩
  have hNone : kept = [] := eq_nil_of_slice? hKept
  refine ⟨before, after, by simp [hNone, insertion], ?_⟩
  refine endsLine_of_woven? hBefore hLine fun e he => ?_
  exact hEnds e ((h.mem_iff e).mp (hInit e he).1).1

/- An accepted edit runs over the offset. -/
def IsCovered
    (text : List Char)
    (edits : List TextEdit)
    (offset : Nat) : Prop :=
  ∃ choice, choose? text edits = some choice ∧
    ∃ e ∈ choice.accepted, e.span.start < offset ∧ offset < e.span.stop

/- The line is a line of the edited text up to the offset. -/
def PutsLine
    (text : String)
    (edits : List TextEdit)
    (offset : Nat)
    (line : String) : Prop :=
  ∃ choice front back,
    choose? text.toList edits = some choice ∧
      partsAt? text.toList choice.accepted offset = some (front, back) ∧
      (apply text edits).text = String.ofList (front ++ back) ∧
      HasLine front line

/-
  A line that goes to the start of a line becomes one, unless
  another edit runs over its place.
-/
theorem isCovered_or_putsLine
    {text : String}
    (hText : a ++ b = text.toList)
    (hPut : insertion (byteLength a) (line ++ "\n") ∈ edits)
    (hLine : EndsLine a)
    (hEnds : ∀ e ∈ edits, e.span.stop = byteLength a →
      e.newText.toList ≠ [] ∧ EndsLine e.newText.toList) :
    IsCovered text.toList edits (byteLength a) ∨
      PutsLine text edits (byteLength a) line := by
  rcases exists_outcome? text edits with
    ⟨accepted, edited, hAccepts, hChoice, hWoven, hOutcome⟩
  by_cases hCovered : ∃ e ∈ accepted,
      e.span.start < byteLength a ∧ byteLength a < e.span.stop
  · exact Or.inl ⟨_, hChoice, hCovered⟩
  · have hPlace : isBoundary (byteLength a) text.toList = true := by
      rw [← hText]
      exact isBoundary_byteLength a b
    have hFree : ∀ e ∈ accepted,
        e.span.stop ≤ byteLength a ∨ byteLength a ≤ e.span.start := by
      intro e he
      by_contra hOver
      rw [not_or, Nat.not_le, Nat.not_le] at hOver
      exact hCovered ⟨e, he, hOver.2, hOver.1⟩
    have hAccepted := hAccepts.insertion_mem hPlace hFree hPut (by simp)
    rcases hAccepts.partsAt?_eq_some hWoven hAccepted with
      ⟨front, back, hParts, rfl⟩
    refine Or.inr ⟨_, front, back, hChoice, hParts, ?_, ?_⟩
    · rw [apply, hOutcome]
      rfl
    · rw [← hText] at hAccepts hParts
      exact hAccepts.hasLine hAccepted hLine hEnds hParts

end TextEdit

------------------------------------------------------------
-- Renaming
------------------------------------------------------------

namespace Fixer

variable {tree : SourceTree}
variable {node : NameNode}
variable {newName target simple : String}
variable {edits : List TextEdit}

/-
  The name has no qualifier, and the namespace of its new
  name is not in scope.
-/
structure NeedsImport
    (tree : SourceTree)
    (node : NameNode)
    (newName target simple : String) : Prop where
  unqualified : node.qualifier = none
  splitLast_eq : splitLast '.' newName = some (target, simple)
  notInScope : isInScope tree target node.span.start = false

/-
  The edits put the directive on a line of its own, and a
  Visual Basic scan of the edited text finds the import.
-/
structure IsImported
    (tree : SourceTree)
    (edits : List TextEdit)
    (target : String) : Prop where
  putsLine :
    TextEdit.PutsLine tree.text edits tree.importInsertionPoint
      (tree.language.importDirective target)
  hasImport :
    tree.language = .visualBasic → VisualBasic.IsNamespaceName target →
      ∀ path,
        (SourceTree.ofVisualBasic path
          (TextEdit.apply tree.text edits).text).hasImport target = true

theorem renameEdits_eq
    (h : NeedsImport tree node newName target simple) :
    renameEdits tree node newName =
      [⟨node.fullSpan, simple⟩,
        .insertion tree.importInsertionPoint
          (tree.language.importDirective target ++ "\n")] := by
  rw [renameEdits, h.unqualified, h.splitLast_eq]
  simp [h.notInScope]

theorem isImported_of_putsLine
    (h : TextEdit.PutsLine tree.text edits tree.importInsertionPoint
      (tree.language.importDirective target)) :
    IsImported tree edits target where
  putsLine := h
  hasImport := by
    intro hLanguage hName path
    rcases h with ⟨choice, front, back, -, -, hText, hLine⟩
    rw [hLanguage] at hLine
    have hWhole : HasLine (TextEdit.apply tree.text edits).text.toList
        ("Imports " ++ target) := by
      rw [hText, String.toList_ofList]
      exact hLine.append back
    refine List.any_eq_true.mpr
      ⟨target, VisualBasic.mem_imports_of_hasLine hName hWhole, ?_⟩
    exact Language.namesEqual_refl _ target

/- An edit of a rename holds its line, if it is not the new name. -/
theorem endsLine_of_mem_renameEdits
    (hFits : tree.Fits)
    (hNode : node ∈ tree.names)
    (hNeeds : NeedsImport tree node newName target simple)
    {a b : List Char}
    (hChars : a ++ b = tree.chars)
    (hLine : EndsLine a)
    (hClear : tree.IsClearAt (byteLength a)) :
    ∀ e ∈ renameEdits tree node newName, e.span.stop = byteLength a →
      e.newText.toList ≠ [] ∧ EndsLine e.newText.toList := by
  rw [renameEdits_eq hNeeds, List.forall_mem_cons, List.forall_mem_singleton]
  refine ⟨fun hStop => ?_, fun _ => by simp [TextEdit.insertion, EndsLine]⟩
  have hOwn := hFits.isOnLine node hNode
  rw [← hChars] at hOwn
  exact absurd ((hFits.stop_eq node hNode).symm.trans hStop)
    (hOwn.stop_ne hLine (hClear node hNode))

/- A name without a qualifier does not run over the start of a line. -/
theorem not_isCovered_renameEdits
    (hFits : tree.Fits)
    (hNode : node ∈ tree.names)
    (hNeeds : NeedsImport tree node newName target simple)
    {a b : List Char}
    (hChars : a ++ b = tree.chars)
    (hLine : EndsLine a) :
    ¬TextEdit.IsCovered tree.chars (renameEdits tree node newName)
      (byteLength a) := by
  rintro ⟨choice, hChoice, e, he, hStart, hStop⟩
  rcases TextEdit.choose?_eq tree.chars (renameEdits tree node newName) with
    ⟨accepted, hAccepts, hSame⟩
  cases hSame.symm.trans hChoice
  have hMem := ((hAccepts.mem_iff e).mp he).1
  rw [renameEdits_eq hNeeds, List.mem_pair] at hMem
  rcases hMem with rfl | rfl
  · have hOwn := hFits.isOnLine node hNode
    rw [← hChars] at hOwn
    rw [hFits.eq_of_unqualified node hNode hNeeds.unqualified] at hStart hStop
    rcases hOwn.stop_lt_or_le_start hLine with hBefore | hBehind
    · exact absurd hStop hBefore.asymm
    · exact absurd hStart hBehind.not_gt
  · exact absurd hStop hStart.asymm

/-
  A rename that needs an import puts it behind the other
  imports, at the start of the text or of a line, unless the
  text ends in its last import.  Then the import is a line of
  its own in the edited text, if no name is missing at the
  place; so it is when other fixes are applied with the
  rename, unless one of them runs over the place.
-/
theorem renameEdits_isImported
    (hFits : tree.Fits)
    (hNode : node ∈ tree.names)
    (hNeeds : NeedsImport tree node newName target simple) :
    ∃ before behind,
      before ++ behind = tree.chars ∧
        renameEdits tree node newName =
          [⟨node.fullSpan, simple⟩,
            .insertion (byteLength before)
              (tree.language.importDirective target ++ "\n")] ∧
        (∀ s ∈ tree.parts.importSpans, s.stop ≤ byteLength before) ∧
        (EndsLine before ↔ ¬tree.EndsInImport) ∧
        (tree.EndsInImport → behind = []) ∧
        (¬tree.EndsInImport → tree.IsClearAt (byteLength before) →
          IsImported tree (renameEdits tree node newName) target ∧
          ∀ ds, renameEdits tree node newName ⊆ allEdits tree ds →
            TextEdit.IsCovered tree.chars (allEdits tree ds)
                (byteLength before) ∨
              IsImported tree (allEdits tree ds) target) := by
  rcases tree.exists_importPlace hFits with
    ⟨before, behind, hChars, hPlace, hLast, hLine, hNone⟩
  have hEdits := renameEdits_eq hNeeds
  refine ⟨before, behind, hChars, ?_, hLast, hLine, hNone,
    fun hOther hClear => ?_⟩
  · rw [hEdits, hPlace]
  · have hStarts := hLine.mpr hOther
    have hPut : TextEdit.insertion (byteLength before)
        (tree.language.importDirective target ++ "\n") ∈
          renameEdits tree node newName := by
      rw [hEdits, hPlace]
      exact List.mem_cons_of_mem _ List.mem_cons_self
    refine ⟨isImported_of_putsLine ?_, fun ds hAll => ?_⟩
    · rcases TextEdit.isCovered_or_putsLine hChars hPut hStarts
          (endsLine_of_mem_renameEdits hFits hNode hNeeds hChars hStarts
            hClear) with
        hCovered | hPuts
      · exact absurd hCovered
          (not_isCovered_renameEdits hFits hNode hNeeds hChars hStarts)
      · exact hPlace ▸ hPuts
    · refine (TextEdit.isCovered_or_putsLine hChars (hAll hPut) hStarts
        fun e he hStop => ?_).imp_right fun hPuts => ?_
      · rcases makes_of_mem_allEdits he with ⟨d, -, hMakes⟩
        exact hMakes.endsLine hFits hChars hStarts hClear hStop
      · exact isImported_of_putsLine (hPlace ▸ hPuts)

------------------------------------------------------------
-- A last line without a newline
------------------------------------------------------------

theorem renameEdits_isImported_of_newline :
    let tree := SourceTree.ofVisualBasic ⟨"m.vb"⟩
      "Imports C\nDim a As X\n"
    ∃ node ∈ tree.names, NeedsImport tree node "D.B" "D" "B" ∧
      ¬tree.EndsInImport ∧
      IsImported tree (renameEdits tree node "D.B") "D" := by
  intro tree
  let node : NameNode :=
    { simpleName := "X"
      qualifier := none
      context := .simple
      isGeneric := false
      span := ⟨19, 20⟩
      fullSpan := ⟨19, 20⟩ }
  have hNode : node ∈ tree.names := by decide +kernel
  have hNeeds : NeedsImport tree node "D.B" "D" "B" :=
    ⟨rfl, by decide +kernel, by decide +kernel⟩
  have hChars : tree.chars = "Imports C\nDim a As X".toList ++ ['\n'] := by
    decide +kernel
  have hOther : ¬tree.EndsInImport := fun h =>
    h.1 (by simp [hChars, EndsLine])
  have hFits : tree.Fits := SourceTree.ofVisualBasic_fits _ _
  rcases renameEdits_isImported hFits hNode hNeeds with
    ⟨before, behind, -, -, -, -, -, hImported⟩
  exact ⟨node, hNode, hNeeds, hOther,
    (hImported hOther (SourceTree.ofVisualBasic_isClearAt _ _ _)).1⟩

/- Behind an import without a newline the new one is no line. -/
theorem hasImport_without_newline :
    let tree := SourceTree.ofVisualBasic ⟨"m.vb"⟩
      "Dim a As X\nImports C"
    ∃ node ∈ tree.names, NeedsImport tree node "D.B" "D" "B" ∧
      tree.importInsertionPoint = tree.length ∧ ¬EndsLine tree.chars ∧
      ∃ fixed, (TextEdit.apply tree.text (renameEdits tree node "D.B")).text =
          fixed ∧
        fixed = "Dim a As B\nImports CImports D\n" ∧
        (SourceTree.ofVisualBasic tree.path fixed).hasImport "D" =
          false := by
  intro tree
  let node : NameNode :=
    { simpleName := "X"
      qualifier := none
      context := .simple
      isGeneric := false
      span := ⟨9, 10⟩
      fullSpan := ⟨9, 10⟩ }
  have hNeeds : NeedsImport tree node "D.B" "D" "B" :=
    ⟨rfl, by decide +kernel, by decide +kernel⟩
  have hPlace : tree.importInsertionPoint = tree.length := by decide +kernel
  have hChars : tree.chars = "Dim a As X\nImports ".toList ++ ['C'] := by
    decide +kernel
  let edits : List TextEdit :=
    [⟨⟨9, 10⟩, "B"⟩, .insertion 20 "Imports D\n"]
  have hEdits : renameEdits tree node "D.B" = edits := by
    rw [renameEdits_eq hNeeds, hPlace]
    decide +kernel
  have hArrange : TextEdit.arrange edits = edits := by
    rw [TextEdit.arrange, List.mergeSort_of_pairwise (by decide +kernel)]
    decide +kernel
  have hText : (TextEdit.apply tree.text (renameEdits tree node "D.B")).text =
      "Dim a As B\nImports CImports D\n" := by
    rw [hEdits, TextEdit.apply, TextEdit.outcome?, TextEdit.choose?, hArrange]
    decide +kernel
  exact ⟨node, by decide +kernel, hNeeds, hPlace, by simp [hChars, EndsLine],
    _, hText, rfl, by decide +kernel⟩

end Fixer

end Retarget
