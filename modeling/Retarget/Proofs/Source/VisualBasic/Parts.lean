import Retarget.Source.VisualBasic.Parts
import Retarget.Proofs.Source.VisualBasic.Mention

/-
  This file shows that the report about a Visual Basic file
  fits the file, and that its names can be read in the text
  at their spans.

  Key definitions include:
    * `VisualBasic.PointsInto`

  Key statements include:
    * `VisualBasic.mem_numberedLines`
    * `VisualBasic.parts_fits`
    * `VisualBasic.mentions_pointsInto`
    * `VisualBasic.mentions_apart`
-/

namespace Retarget.VisualBasic

open Text

variable {text : List Char}

------------------------------------------------------------
-- Lines
------------------------------------------------------------

/-
  A line stands at its offset, and it ends at the end of the
  text or in front of a newline.
-/
theorem mem_numberLines
    {lines : List (List Char)}
    {start n : Nat}
    {line : List Char}
    (h : (n, line) ∈ numberLines start lines) :
    ∃ a b, a ++ line ++ b = ['\n'].intercalate lines ∧
      start + byteLength a = n ∧ b.head? ≠ some ' ' := by
  induction lines generalizing start with
  | nil => cases h
  | cons first rest ih =>
      rcases List.mem_cons.mp h with hFirst | hRest
      · cases hFirst
        cases rest with
        | nil => exact ⟨[], [], by simp, rfl, by simp⟩
        | cons second more =>
            refine ⟨[], '\n' :: ['\n'].intercalate (second :: more), ?_, rfl,
              by simp⟩
            simp [List.intercalate_cons_cons]
      · rcases ih hRest with ⟨a, b, hSame, hStart, hEdge⟩
        cases rest with
        | nil => cases hRest
        | cons second more =>
            refine ⟨first ++ '\n' :: a, b, ?_, ?_, hEdge⟩
            · simp [List.intercalate_cons_cons, ← hSame]
            · have hNewline : Char.utf8Size '\n' = 1 := by decide
              rw [byteLength_append, byteLength, hNewline, ← hStart]
              omega

theorem mem_numberedLines
    {n : Nat}
    {line : List Char}
    (h : (n, line) ∈ numberedLines text) :
    ∃ a b, a ++ line ++ b = text ∧ byteLength a = n ∧
      b.head? ≠ some ' ' := by
  rcases mem_numberLines h with ⟨a, b, hSame, hStart, hEdge⟩
  rw [List.intercalate_splitOn] at hSame
  exact ⟨a, b, hSame, by rw [← hStart, Nat.zero_add], hEdge⟩

/- An import ends with its line. -/
theorem importLines_isBoundary
    {line : Span × Option String}
    (h : line ∈ importLines (mask text)) :
    isBoundary line.1.stop text = true := by
  rcases List.mem_filterMap.mp h with ⟨⟨n, cs⟩, hLine, hImport⟩
  rcases Option.map_eq_some_iff.mp hImport with ⟨target, -, rfl⟩
  rcases mem_numberedLines hLine with ⟨a, b, hSame, hStart, hEdge⟩
  rw [← hStart, ← byteLength_append]
  exact isBoundary_of_mask hSame.symm fun hBlanks => hEdge hBlanks.2

------------------------------------------------------------
-- Reports
------------------------------------------------------------

theorem starts_lt
    (text : List Char) :
    ((tokens (mask text)).map Token.span).Pairwise fun s t =>
      s.start < t.start := by
  refine List.pairwise_map.mp ?_
  exact (tokens_row text).starts_lt fun s hs =>
    (tokens_isWord text s hs).start_lt_stop

theorem mentions_isAt
    (text : List Char) :
    ∀ name ∈ mentions (mask text),
      name.IsAt ((tokens (mask text)).map Token.span) := by
  refine readTokens_isAt (by simp [Leads]) ?_ ?_
  · exact fun t ht => List.mem_map_of_mem ht
  · exact (List.pairwise_map.mp (starts_lt text)).imp Nat.le_of_lt

theorem parts_fits
    (text : String) :
    (parts text).Fits text.toList := by
  refine SourceParts.fits_of_isAt (tokens_row text.toList)
    (tokens_isWord text.toList) (mentions_isAt text.toList) ?_ ?_
  · have hStarts := (starts_lt text.toList).sublist (readTokens_spans none none _)
    exact List.pairwise_map.mpr
      ((List.pairwise_map.mp hStarts).imp Nat.ne_of_lt)
  · intro span hSpan
    rcases List.mem_map.mp hSpan with ⟨line, hLine, rfl⟩
    exact importLines_isBoundary hLine

/-
  The name stands in the text at the end of its full span,
  on its own or in brackets.
-/
structure PointsInto (text : List Char) (name : NameNode) : Prop where
  start_le : name.fullSpan.start ≤ name.span.start
  start_lt_stop : name.span.start < name.span.stop
  stop_eq : name.fullSpan.stop = name.span.stop
  fullSpan_isIn : name.fullSpan.IsIn text
  span_isIn : name.span.IsIn text
  spells : Spells text name.span name.simpleName

theorem mentions_pointsInto
    (text : List Char) :
    ∀ name ∈ mentions (mask text), PointsInto text name := by
  intro name hName
  have hAt := mentions_isAt text name hName
  have hIn := (tokens_row text).isIn
  have hWord : (name.span, name.simpleName) ∈
      (tokens (mask text)).map fun t => (t.span, t.text) :=
    (readTokens_words none none _).subset (List.mem_map_of_mem hName)
  rcases List.mem_map.mp hWord with ⟨t, ht, hSame⟩
  rcases Prod.mk.inj hSame with ⟨hSpan, hText⟩
  exact {
    start_le := hAt.start_le
    start_lt_stop := (tokens_isWord text _ hAt.span_mem).start_lt_stop
    stop_eq := hAt.stop_eq
    fullSpan_isIn := hAt.fullSpan_isIn hIn
    span_isIn := hIn _ hAt.span_mem
    spells := hSpan ▸ hText ▸ tokens_spells text t ht }

/- Names follow each other and do not overlap. -/
theorem mentions_apart
    (text : List Char) :
    (mentions (mask text)).Pairwise fun a b =>
      a.span.start < b.span.start ∧ a.span.stop ≤ b.span.start := by
  have hBoth := ((starts_lt text).and (tokens_row text).apart).sublist
    (readTokens_spans none none _)
  exact List.pairwise_map.mp hBoth

end Retarget.VisualBasic
