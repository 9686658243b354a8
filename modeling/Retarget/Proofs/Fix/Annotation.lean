import Retarget.Proofs.Fix.Fixable
import Retarget.Proofs.Fix.Insertion
import Retarget.Proofs.Sequence

/-
  This file shows when a comment that a fix has put above a
  line is found there afterwards: always, unless the fix has
  put an import in the same place, for that comes between
  the comment and the line.  Only where a name is missing at
  the place nothing is said, for its new name would go there
  too.

  Key definitions include:
    * `Fixer.allEdits`
    * `Fixer.Makes`
    * `Diagnostic.IsOneLine`

  Key statements include:
    * `Fixer.edits_cases`
    * `Fixer.makes_of_mem_allEdits`
    * `Fixer.isExplained_of_chars`
    * `Fixer.explainEdits_fixDocument_iff`
-/

namespace Retarget

/- What is said about a diagnostic fits on one line. -/
structure Diagnostic.IsOneLine (d : Diagnostic) : Prop where
  message : d.id = interopApiId → '\n' ∉ d.message.toList
  newIdentifier :
    ∀ hint, d.fixHint = .ok hint →
      ∀ name ∈ hint.newIdentifier, '\n' ∉ name.toList
  documentationUrl :
    ∀ hint, d.fixHint = .ok hint →
      ∀ url ∈ hint.documentationUrl, '\n' ∉ url.toList

------------------------------------------------------------
-- The line before
------------------------------------------------------------

namespace Fixer

open Text

variable {tree fixed : SourceTree}
variable {d : Diagnostic}
variable {ds : List Diagnostic}
variable {e : TextEdit}

/- The line is a comment with the marker. -/
def explains (language : Language) (line : String) : Bool :=
  hasStart language.lineComment (trimStart line) && contains marker line

/- What is above a line decides whether it is explained. -/
theorem isExplained_of_chars
    {before after : List Char}
    {line : String}
    (hChars : fixed.chars = before ++ (line ++ "\n").toList ++ after)
    (hBefore : EndsLine before)
    (hLine : '\n' ∉ line.toList) :
    isExplained fixed (byteLength (before ++ (line ++ "\n").toList)) =
      explains fixed.language line := by
  have hLength : byteLength (before ++ (line ++ "\n").toList) =
      byteLength (before ++ line.toList) + 1 := by
    rw [String.toList_append, ← List.append_assoc, byteLength_append]
    rfl
  have hCut : cutAt? (byteLength (before ++ line.toList)) fixed.chars =
      some (before ++ line.toList, '\n' :: after) := by
    rw [hChars, String.toList_append, ← List.append_assoc, List.append_assoc]
    exact cutAt?_byteLength _ _
  have hPrevious : previousLine fixed
      (byteLength (before ++ (line ++ "\n").toList)) = line := by
    rw [previousLine, hLength, Nat.add_sub_cancel, hCut]
    simp only [Option.map_some, Option.getD_some]
    rw [takeWhile_reverse_eq hBefore hLine, String.ofList_toList]
  simp only [isExplained, hPrevious, explains]
  rw [hLength]
  simp

------------------------------------------------------------
-- Edits of a file
------------------------------------------------------------

/- The edits for the diagnostics of a file. -/
def allEdits (tree : SourceTree) (ds : List Diagnostic) : List TextEdit :=
  (computed tree (ds.filter fun d => d.location.path.same tree.path)).flatMap
    fun r => r.toOption.getD []

theorem fixDocument_text
    (tree : SourceTree)
    (ds : List Diagnostic) :
    (fixDocument tree ds).text =
      (TextEdit.apply tree.text (allEdits tree ds)).text :=
  rfl

/- The edits for one of the diagnostics are among them. -/
theorem mem_allEdits
    (hd : d ∈ ds)
    (hPath : d.location.path.same tree.path = true)
    {fixer : Fixer}
    (hFixer : forDiagnostic? d.id = some fixer)
    {edits : List TextEdit}
    (hEdits : fixer.edits tree d = .ok edits)
    (he : e ∈ edits) :
    e ∈ allEdits tree ds := by
  refine List.mem_flatMap.mpr ⟨.ok edits, ?_, he⟩
  refine List.mem_filterMap.mpr ⟨d, List.mem_filter.mpr ⟨hd, hPath⟩, ?_⟩
  rw [hFixer, Option.map_some, hEdits]

/- The comment that explains a diagnostic, on a line of its own. -/
def comment (tree : SourceTree) (d : Diagnostic) (url : String) : String :=
  tree.indentationAt (tree.lineStart d.location.span.start) ++
    tree.language.lineComment ++ " " ++ marker ++ " " ++ d.message ++
    " See " ++ url

/- An edit that a fixer makes for a diagnostic. -/
inductive Makes (tree : SourceTree) (d : Diagnostic) : TextEdit → Prop where
  | rename
    {node : NameNode}
    (hNode : node ∈ tree.names)
    (newText : String) :
    Makes tree d ⟨node.fullSpan, newText⟩
  | addImport
    {hint : FixHint}
    {newName target : String}
    (hHint : d.fixHint = .ok hint)
    (hName : hint.newIdentifier = some newName)
    (hTarget : target.toList ⊆ newName.toList) :
    Makes tree d
      (.insertion tree.importInsertionPoint
        (tree.language.importDirective target ++ "\n"))
  | explain
    {hint : FixHint}
    (hId : d.id = interopApiId)
    (hHint : d.fixHint = .ok hint) :
    Makes tree d
      (.insertion (tree.lineStart d.location.span.start)
        (comment tree d (hint.documentationUrl.getD "") ++ "\n"))

theorem mem_names_of_flaggedName
    {node : NameNode}
    (h : flaggedName tree d = .ok node) :
    node ∈ tree.names := by
  unfold flaggedName at h
  split at h
  · next found hFound =>
      cases h
      exact List.mem_of_find?_eq_some hFound
  · cases h

/- A fixer renames what is flagged, or explains it, or does nothing. -/
theorem edits_cases
    {fixer : Fixer}
    {edits : List TextEdit}
    (h : fixer.edits tree d = .ok edits) :
    (∃ hint newName node, d.fixHint = .ok hint ∧
      hint.newIdentifier = some newName ∧ node ∈ tree.names ∧
      edits = renameEdits tree node (fixer.fullName node newName)) ∨
    (∃ hint, fixer = .interopApi ∧ d.fixHint = .ok hint ∧
      edits = explainEdits tree d (hint.documentationUrl.getD "")) ∨
    edits = [] := by
  rcases bind_eq_ok_iff.mp h with ⟨hint, hHint, hEdits⟩
  split at hEdits
  · next newName _ hName =>
      rcases bind_eq_ok_iff.mp hEdits with ⟨node, hFlagged, hReturn⟩
      cases hReturn
      exact Or.inl ⟨hint, newName, node, hHint, hName,
        mem_names_of_flaggedName hFlagged, rfl⟩
  · next newName _ hName =>
      rcases bind_eq_ok_iff.mp hEdits with ⟨node, hFlagged, hReturn⟩
      cases hReturn
      exact Or.inl ⟨hint, newName, node, hHint, hName,
        mem_names_of_flaggedName hFlagged, rfl⟩
  · cases hEdits
    exact Or.inr (Or.inl ⟨hint, rfl, hHint, rfl⟩)
  · cases hEdits
    exact Or.inr (Or.inr rfl)

theorem eq_of_mem_explainEdits
    {url : String}
    (he : e ∈ explainEdits tree d url) :
    e = .insertion (tree.lineStart d.location.span.start)
      (comment tree d url ++ "\n") := by
  unfold explainEdits at he
  dsimp only at he
  split at he
  · cases he
  · exact List.mem_singleton.mp he

theorem makes_of_mem_edits
    {fixer : Fixer}
    {edits : List TextEdit}
    (hFixer : forDiagnostic? d.id = some fixer)
    (hEdits : fixer.edits tree d = .ok edits)
    (he : e ∈ edits) :
    Makes tree d e := by
  rcases edits_cases hEdits with
    ⟨hint, newName, node, hHint, hName, hNode, rfl⟩ |
      ⟨hint, rfl, hHint, rfl⟩ | rfl
  · rcases renameEdits_eq_cons tree node (fixer.fullName node newName) with
      ⟨imports, hCons, hImports⟩
    rw [hCons] at he
    rcases List.mem_cons.mp he with rfl | hImport
    · exact Makes.rename hNode _
    · rcases hImports e hImport with ⟨target, hTarget, rfl⟩
      exact Makes.addImport hHint hName
        (List.Subset.trans hTarget (fullName_subset _ _ _))
  · have hFound := List.find?_some hFixer
    have hId : d.id = interopApiId := (eq_of_beq hFound).symm
    rw [eq_of_mem_explainEdits he]
    exact Makes.explain hId hHint
  · cases he

theorem makes_of_mem_allEdits
    (h : e ∈ allEdits tree ds) :
    ∃ d ∈ ds, Makes tree d e := by
  rcases List.mem_flatMap.mp h with ⟨r, hr, he⟩
  rcases List.mem_filterMap.mp hr with ⟨d, hd, hResult⟩
  rcases Option.map_eq_some_iff.mp hResult with ⟨fixer, hFixer, rfl⟩
  cases hEdits : fixer.edits tree d with
  | error error => simp [hEdits, Except.toOption] at he
  | ok edits =>
      rw [hEdits] at he
      exact ⟨d, (List.mem_filter.mp hd).1, makes_of_mem_edits hFixer hEdits he⟩

/- An edit that is made holds its line, if it is not a new name. -/
theorem Makes.endsLine
    (hMakes : Makes tree d e)
    (hFits : tree.Fits)
    {a b : List Char}
    (hChars : a ++ b = tree.chars)
    (hLine : EndsLine a)
    (hClear : tree.IsClearAt (byteLength a))
    (hStop : e.span.stop = byteLength a) :
    e.newText.toList ≠ [] ∧ EndsLine e.newText.toList := by
  cases hMakes with
  | rename hNode newText =>
      have hOwn := hFits.isOnLine _ hNode
      rw [← hChars] at hOwn
      exact absurd ((hFits.stop_eq _ hNode).symm.trans hStop)
        (hOwn.stop_ne hLine (hClear _ hNode))
  | addImport => simp [TextEdit.insertion, EndsLine]
  | explain => simp [TextEdit.insertion, EndsLine]

------------------------------------------------------------
-- Comments and imports
------------------------------------------------------------

theorem newline_not_mem_importDirective
    (language : Language)
    {target : String}
    (hTarget : '\n' ∉ target.toList) :
    '\n' ∉ (language.importDirective target).toList := by
  cases language with
  | cSharp => simpa [Language.importDirective] using hTarget
  | visualBasic => simpa [Language.importDirective] using hTarget

/- Only blanks are in front of the text of a line. -/
theorem isBlank_of_mem_indentationAt
    {offset : Nat}
    {c : Char}
    (h : c ∈ (tree.indentationAt offset).toList) :
    c = ' ' ∨ c = '\t' := by
  rw [SourceTree.indentationAt, String.toList_ofList] at h
  simpa using List.mem_takeWhile_imp h

theorem newline_not_mem_comment
    (hLines : d.IsOneLine)
    (hId : d.id = interopApiId)
    {hint : FixHint}
    (hHint : d.fixHint = .ok hint) :
    '\n' ∉ (comment tree d (hint.documentationUrl.getD "")).toList := by
  have hIndentation :
      '\n' ∉ (tree.indentationAt
        (tree.lineStart d.location.span.start)).toList := by
    intro hNewline
    rcases isBlank_of_mem_indentationAt hNewline with hSpace | hTab
    · cases hSpace
    · cases hTab
  have hComment : '\n' ∉ tree.language.lineComment.toList := by
    cases tree.language <;> decide
  have hMarker : '\n' ∉ marker.toList := by decide
  have hUrl : '\n' ∉ (hint.documentationUrl.getD "").toList := by
    cases hUrl : hint.documentationUrl with
    | none => simp
    | some url => exact hLines.documentationUrl hint hHint url hUrl
  simp [comment, hIndentation, hComment, hMarker, hLines.message hId, hUrl]

/-
  A comment and an import start with different letters, and
  that of the comment comes first.
-/
theorem exists_first_letters
    (language : Language)
    (target : String) :
    ∃ c r d q, language.lineComment.toList = c :: r ∧
      (language.importDirective target).toList = d :: q ∧
      isBlank c = false ∧ isBlank d = false ∧
      c < d ∧ ' ' < d ∧ '\t' < d := by
  cases language with
  | cSharp =>
      refine ⟨'/', ['/'], 'u', "sing ".toList ++ target.toList ++ [';'], ?_⟩
      refine ⟨by decide, by simp [Language.importDirective], ?_⟩
      decide
  | visualBasic =>
      refine ⟨'\'', [], 'I', "mports ".toList ++ target.toList, ?_⟩
      refine ⟨by decide, by simp [Language.importDirective], ?_⟩
      decide

/- A comment is one that explains. -/
theorem comment_explains
    (tree : SourceTree)
    (d : Diagnostic)
    (url : String) :
    explains tree.language (comment tree d url) = true := by
  rcases exists_first_letters tree.language "" with
    ⟨c, r, -, -, hComment, -, hFirst, -⟩
  refine Bool.and_eq_true_iff.mpr ⟨?_, ?_⟩
  · let rest := " " ++ marker ++ " " ++ d.message ++ " See " ++ url
    have hRest : comment tree d url =
        tree.indentationAt (tree.lineStart d.location.span.start) ++
          (tree.language.lineComment ++ rest) := by
      simp [comment, rest, String.append_assoc]
    rw [hRest, trimStart_append]
    · simp [hasStart]
    · intro c hc
      rcases isBlank_of_mem_indentationAt hc with rfl | rfl <;> decide
    · simpa [hComment] using hFirst
  · have hParts : comment tree d url =
        tree.indentationAt (tree.lineStart d.location.span.start) ++
          tree.language.lineComment ++ " " ++ marker ++
            (" " ++ d.message ++ " See " ++ url) := by
      simp [comment, String.append_assoc]
    rw [hParts]
    exact contains_append _ _ _

/- An import is no comment. -/
theorem importDirective_explains
    (language : Language)
    (target : String) :
    explains language (language.importDirective target) = false := by
  rcases exists_first_letters language target with
    ⟨c, r, d, q, hComment, hImport, -, hFirst, hLess, -⟩
  have hTrim : trimStart (language.importDirective target) =
      language.importDirective target := by
    have hAppend := trimStart_append (s := "")
      (t := language.importDirective target) (by simp)
      (by simpa [hImport] using hFirst)
    rwa [String.empty_append] at hAppend
  rw [explains, hTrim, hasStart, hComment, hImport]
  simp [List.isPrefixOf, hLess.ne]

/- A comment comes before an import. -/
theorem comment_lt_importDirective
    (tree : SourceTree)
    (d : Diagnostic)
    (url target : String) :
    comment tree d url ++ "\n" <
      tree.language.importDirective target ++ "\n" := by
  rcases exists_first_letters tree.language target with
    ⟨c, r, i, q, hComment, hImport, -, -, hLess, hSpace, hTab⟩
  have hLast : (tree.language.importDirective target ++ "\n").toList.head? =
      some i := by
    simp [hImport]
  cases hIndentation : (tree.indentationAt
      (tree.lineStart d.location.span.start)).toList with
  | nil =>
      refine lt_of_head? (c := c) ?_ hLast hLess
      simp [comment, hIndentation, hComment]
  | cons b rest =>
      have hBlank : b ∈ (tree.indentationAt
          (tree.lineStart d.location.span.start)).toList := by
        rw [hIndentation]
        exact List.mem_cons_self
      refine lt_of_head? (c := b) ?_ hLast ?_
      · simp [comment, hIndentation]
      · rcases isBlank_of_mem_indentationAt hBlank with rfl | rfl
        · exact hSpace
        · exact hTab

/-
  An edit that puts something in between puts a line there:
  an import, or a comment that comes before all imports.
-/
theorem Makes.exists_line
    (hMakes : Makes tree d e)
    (hFits : tree.Fits)
    (hLines : d.IsOneLine)
    {offset : Nat}
    (hClear : tree.IsClearAt offset)
    (hSpan : e.span = ⟨offset, offset⟩) :
    ∃ line, e = .insertion offset (line ++ "\n") ∧ '\n' ∉ line.toList ∧
      ((explains tree.language line = false ∧
          ∃ target, line = tree.language.importDirective target) ∨
        explains tree.language line = true ∧
          ∀ target, line ++ "\n" <
            tree.language.importDirective target ++ "\n") := by
  cases hMakes with
  | @rename node hNode newText =>
      refine absurd ?_ (hClear node hNode)
      have hOrder := (hFits.isOnLine node hNode).start_le_stop
      have hStart := hFits.start_le node hNode
      have hStop := hFits.stop_eq node hNode
      have hFullStart : node.fullSpan.start = offset := congrArg Span.start hSpan
      have hFullStop : node.fullSpan.stop = offset := congrArg Span.stop hSpan
      have hOwnStop : node.span.stop = offset := hStop.symm.trans hFullStop
      have hOwnStart : node.span.start = offset := by omega
      exact Span.ext hOwnStart hOwnStop
  | @addImport hint newName target hHint hName hTarget =>
      obtain rfl : tree.importInsertionPoint = offset := congrArg Span.start hSpan
      refine ⟨tree.language.importDirective target, rfl, ?_,
        Or.inl ⟨importDirective_explains _ _, target, rfl⟩⟩
      exact newline_not_mem_importDirective _ fun hNewline =>
        hLines.newIdentifier hint hHint newName hName (hTarget hNewline)
  | @explain hint hId hHint =>
      obtain rfl : tree.lineStart d.location.span.start = offset :=
        congrArg Span.start hSpan
      exact ⟨comment tree d (hint.documentationUrl.getD ""), rfl,
        newline_not_mem_comment hLines hId hHint,
        Or.inr ⟨comment_explains _ _ _,
          fun target => comment_lt_importDirective _ _ _ target⟩⟩

------------------------------------------------------------
-- Explaining again
------------------------------------------------------------

theorem explainEdits_eq_nil_iff
    {url : String} :
    explainEdits fixed d url = [] ↔
      isExplained fixed (fixed.lineStart d.location.span.start) = true := by
  simp [explainEdits]

/-
  A fix that has put a comment above a line finds it there
  again and has nothing to add, unless it has put an import
  in the same place.
-/
theorem explainEdits_fixDocument_iff
    (hFits : tree.Fits)
    (hLines : ∀ d ∈ ds, d.IsOneLine)
    {choice : TextEdit.Choice}
    (hChoice : TextEdit.choose? tree.chars (allEdits tree ds) = some choice)
    (hClear : tree.IsClearAt (tree.lineStart d.location.span.start))
    {url : String}
    (hComment :
      .insertion (tree.lineStart d.location.span.start)
        (comment tree d url ++ "\n") ∈ choice.accepted) :
    ∃ front back,
      TextEdit.partsAt? tree.chars choice.accepted
        (tree.lineStart d.location.span.start) = some (front, back) ∧
      (fixDocument tree ds).text = String.ofList (front ++ back) ∧
      ∀ fixed : SourceTree, fixed.language = tree.language →
        fixed.text = (fixDocument tree ds).text →
          fixed.lineStart (byteLength front) = byteLength front ∧
          ∀ (other : Diagnostic) (otherUrl : String),
            fixed.lineStart other.location.span.start = byteLength front →
              (explainEdits fixed other otherUrl = [] ↔
                ∀ target,
                  .insertion (tree.lineStart d.location.span.start)
                    (tree.language.importDirective target ++ "\n") ∉
                      allEdits tree ds) := by
  rcases TextEdit.exists_outcome? tree.text (allEdits tree ds) with
    ⟨accepted, edited, hAccepts, hChosen, hWoven, hOutcome⟩
  cases hChosen.symm.trans hChoice
  rcases tree.lineStart_endsLine d.location.span.start with
    ⟨a, b, hChars, hStart, hLine⟩
  change a ++ b = tree.text.toList at hChars
  change ∃ front back,
    TextEdit.partsAt? tree.text.toList accepted _ = some (front, back) ∧ _
  rw [← hChars] at hAccepts hWoven ⊢
  rw [← hStart] at hClear hComment ⊢
  rcases hAccepts.partsAt?_eq_some hWoven hComment with
    ⟨front, back, hParts, rfl⟩
  have hText : (fixDocument tree ds).text = String.ofList (front ++ back) := by
    rw [fixDocument_text, TextEdit.apply, hOutcome]
    rfl
  refine ⟨front, back, hParts, hText, ?_⟩
  have hMade : ∀ e ∈ accepted, ∃ d ∈ ds, Makes tree d e :=
    fun e he => makes_of_mem_allEdits ((hAccepts.mem_iff e).mp he).1
  have hEnds : ∀ e ∈ accepted, e.span.stop = byteLength a →
      e.newText.toList ≠ [] ∧ EndsLine e.newText.toList := by
    intro e he hStop
    rcases hMade e he with ⟨d, -, hMakes⟩
    exact hMakes.endsLine hFits hChars hLine hClear hStop
  rcases hAccepts.exists_last hComment hLine hEnds hParts with
    ⟨last, hLast, hSpan, hUpTo, before, rfl, hBefore⟩
  rcases hMade last hLast with ⟨maker, hMaker, hMakes⟩
  rcases hMakes.exists_line hFits (hLines maker hMaker) hClear hSpan with
    ⟨line, rfl, hOneLine, hKind⟩
  intro fixed hLanguage hFixed
  have hFixedChars : fixed.chars = before ++ (line ++ "\n").toList ++ back := by
    rw [SourceTree.chars, hFixed, hText, String.toList_ofList]
    rfl
  refine ⟨SourceTree.lineStart_eq_self hFixedChars.symm
    (endsLine_newline before line), ?_⟩
  intro other otherUrl hOther
  rw [explainEdits_eq_nil_iff, hOther, TextEdit.insertion,
    isExplained_of_chars hFixedChars hBefore hOneLine, hLanguage]
  rcases hKind with ⟨hNot, target, rfl⟩ | ⟨hExplains, hFirst⟩
  · rw [hNot]
    exact iff_of_false Bool.false_ne_true fun hNone =>
      hNone target ((hAccepts.mem_iff _).mp hLast).1
  · rw [hExplains]
    refine iff_of_true rfl fun target hImport => ?_
    have hBehind :
        (TextEdit.insertion (byteLength a) (line ++ "\n")).IsBefore
          (.insertion (byteLength a)
            (tree.language.importDirective target ++ "\n")) :=
      TextEdit.insertion_isBefore_iff.mpr (hFirst target)
    rcases hUpTo _ (hAccepts.mem_of_insertion hComment hImport (by simp))
        rfl with hSame | hAhead
    · exact hBehind.ne hSame.symm
    · exact hBehind.asymm hAhead

end Fixer

end Retarget
