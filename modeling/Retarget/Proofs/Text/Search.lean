import Mathlib.Data.String.Basic
import Retarget.Text.Basic

/-
  This file describes what is found in a text and what is
  cut from it: a text contains its parts, pieces hold no
  other characters than the text, and the last line can be
  read back.

  Key definitions include:
    * `Text.EndsLine`

  Key statements include:
    * `Text.isPrefixOf?_eq_some_iff`
    * `Text.contains_append`
    * `Text.cutWhere?_eq`
    * `Text.stripEnd?_eq_some_iff`
    * `Text.subset_of_splitLast`
    * `Text.subset_of_stripEnd?`
    * `Text.forall_mem_splitWhere`
    * `Text.takeWhile_reverse_eq`
    * `Text.lt_of_head?`
-/

namespace Retarget.Text

variable {a b cs before : List Char}
variable {s t : String}

------------------------------------------------------------
-- Parts of a text
------------------------------------------------------------

theorem isPrefixOf?_eq_some_iff :
    a.isPrefixOf? cs = some b ↔ a ++ b = cs := by
  induction a generalizing cs with
  | nil => simp [List.isPrefixOf?, eq_comm]
  | cons c rest ih =>
      cases cs with
      | nil => simp [List.isPrefixOf?]
      | cons d r =>
          by_cases hSame : c = d
          · simp [List.isPrefixOf?, hSame, ih]
          · simp [List.isPrefixOf?, hSame]

theorem findSub_isSome
    (a sub b : List Char) :
    (findSub sub (a ++ sub ++ b)).isSome = true := by
  induction a with
  | nil =>
      rw [List.nil_append]
      cases hText : sub ++ b with
      | nil => simp [findSub, (List.append_eq_nil_iff.mp hText).1]
      | cons c r => simp [findSub, isPrefixOf?_eq_some_iff.mpr hText]
  | cons c rest ih =>
      rw [List.cons_append, List.cons_append, findSub]
      split
      · rfl
      · rw [Option.isSome_map]
        exact ih

/- A text contains each of its parts. -/
theorem contains_append
    (s sub t : String) :
    contains sub (s ++ sub ++ t) = true := by
  simp only [contains, String.toList_append]
  exact findSub_isSome _ _ _

------------------------------------------------------------
-- Pieces of a text
------------------------------------------------------------

/- A cut is made in front of the first character of the class. -/
theorem cutWhere?_eq
    (p : Char → Bool)
    (cs : List Char) :
    cutWhere? p cs =
      if cs.any p then
        some (cs.takeWhile (!p ·), cs.dropWhile (!p ·))
      else none := by
  induction cs with
  | nil => rfl
  | cons c r ih =>
      by_cases hc : p c = true
      · simp [cutWhere?, hc]
      · rw [cutWhere?, if_neg hc, ih]
        by_cases hr : r.any p = true
        · simp [hc, hr]
        · simp [hc, hr]

theorem stripEnd?_eq_some_iff
    {ending s stem : String} :
    stripEnd? ending s = some stem ↔ s = stem ++ ending := by
  rw [stripEnd?, Option.map_eq_some_iff]
  constructor
  · rintro ⟨r, hPrefix, rfl⟩
    apply String.toList_inj.mp
    have hText := congrArg List.reverse (isPrefixOf?_eq_some_iff.mp hPrefix)
    simpa using hText.symm
  · rintro rfl
    refine ⟨stem.toList.reverse, ?_, by simp⟩
    rw [isPrefixOf?_eq_some_iff, String.toList_append, List.reverse_append]

theorem hasEnd_iff
    {ending s : String} :
    hasEnd ending s = true ↔ ∃ stem, s = stem ++ ending := by
  rw [hasEnd, List.isSuffixOf_iff_suffix]
  constructor
  · rintro ⟨front, hFront⟩
    exact ⟨String.ofList front, String.toList_inj.mp (by simp [hFront])⟩
  · rintro ⟨stem, rfl⟩
    exact ⟨stem.toList, by simp⟩

theorem hasEnd_eq_isSome
    (ending s : String) :
    hasEnd ending s = (stripEnd? ending s).isSome := by
  rw [Bool.eq_iff_iff, hasEnd_iff, Option.isSome_iff_exists]
  simp only [stripEnd?_eq_some_iff]

/- What has no dot ends a dotted name behind its last dot. -/
theorem hasEnd_dotted
    {ending : String}
    (hDot : '.' ∉ ending.toList)
    (front last : String) :
    hasEnd ending (front ++ "." ++ last) = hasEnd ending last := by
  have hChars : (front ++ "." ++ last).toList =
      front.toList ++ '.' :: last.toList := by
    simp
  rw [Bool.eq_iff_iff, hasEnd, hasEnd, List.isSuffixOf_iff_suffix,
    List.isSuffixOf_iff_suffix, hChars]
  constructor
  · intro hEnd
    rcases List.suffix_or_suffix_of_suffix hEnd
      (List.suffix_append front.toList ('.' :: last.toList)) with hShort | hLong
    · rcases List.suffix_cons_iff.mp hShort with hAll | hLast
      · exact absurd (hAll ▸ List.mem_cons_self) hDot
      · exact hLast
    · exact absurd (hLong.subset List.mem_cons_self) hDot
  · intro hEnd
    exact (hEnd.trans (List.suffix_cons '.' _)).trans (List.suffix_append _ _)

theorem subset_of_splitLast
    {sep : Char}
    {first last : String}
    (h : splitLast sep s = some (first, last)) :
    first.toList ⊆ s.toList := by
  rcases Option.map_eq_some_iff.mp h with ⟨⟨x, y⟩, hCut, hPieces⟩
  simp only [Prod.mk.injEq] at hPieces
  rcases hPieces with ⟨rfl, -⟩
  intro c hc
  rw [String.toList_ofList, List.mem_reverse] at hc
  rw [← List.mem_reverse, ← append_of_cutWhere? hCut]
  exact List.mem_append_right x (List.mem_of_mem_drop hc)

theorem subset_of_stripEnd?
    {ending stem : String}
    (h : stripEnd? ending s = some stem) :
    stem.toList ⊆ s.toList := by
  rcases Option.map_eq_some_iff.mp h with ⟨r, hPrefix, rfl⟩
  intro c hc
  rw [String.toList_ofList, List.mem_reverse] at hc
  rw [← List.mem_reverse, ← isPrefixOf?_eq_some_iff.mp hPrefix]
  exact List.mem_append_right _ hc

theorem forall_mem_splitOnPPrepend
    {p : Char → Bool}
    {cs read : List Char}
    (hRead : ∀ c ∈ read, p c = false) :
    ∀ piece ∈ cs.splitOnPPrepend p read, ∀ c ∈ piece, p c = false := by
  induction cs generalizing read with
  | nil => simpa using hRead
  | cons c rest ih =>
      rw [List.splitOnPPrepend_cons_eq_if]
      split
      · intro piece hPiece
        rcases List.mem_cons.mp hPiece with rfl | hLater
        · simpa using hRead
        · exact ih (by simp) piece hLater
      · next hKept =>
          refine ih ?_
          simpa [hKept] using hRead

/- The pieces of a text hold none of the characters between them. -/
theorem forall_mem_splitWhere
    {p : Char → Bool}
    {word : String}
    (h : word ∈ splitWhere p s) :
    ∀ c ∈ word.toList, p c = false := by
  rcases List.mem_map.mp h with ⟨piece, hPiece, rfl⟩
  rw [String.toList_ofList]
  exact forall_mem_splitOnPPrepend (by simp) piece hPiece

theorem trimStart_append
    (hBlanks : ∀ c ∈ s.toList, isBlank c = true)
    (hText : ∀ c ∈ t.toList.head?, isBlank c = false) :
    trimStart (s ++ t) = t := by
  have hKept : t.toList.dropWhile isBlank = t.toList := by
    cases hChars : t.toList with
    | nil => rfl
    | cons c r =>
        have hFirst : isBlank c = false := hText c (by simp [hChars])
        simp [hFirst]
  rw [trimStart, String.toList_append, List.dropWhile_append_of_pos hBlanks,
    hKept, String.ofList_toList]

------------------------------------------------------------
-- Lines
------------------------------------------------------------

/- The text is empty or ends with a newline. -/
def EndsLine (cs : List Char) : Prop :=
  ∀ c ∈ cs.getLast?, c = '\n'

theorem endsLine_newline
    (before : List Char)
    (line : String) :
    EndsLine (before ++ (line ++ "\n").toList) := by
  simp [EndsLine]

theorem EndsLine.append
    (h : EndsLine cs)
    (hSome : cs ≠ [])
    (before : List Char) :
    EndsLine (before ++ cs) := by
  rw [EndsLine, List.getLast?_append_of_ne_nil before hSome]
  exact h

theorem EndsLine.of_append
    (h : EndsLine (before ++ cs)) :
    EndsLine cs := by
  intro c hc
  exact h c (by rw [List.getLast?_append, hc]; rfl)

/- Behind a newline the last line is read back whole. -/
theorem takeWhile_reverse_eq
    {line : List Char}
    (hBefore : EndsLine before)
    (hLine : '\n' ∉ line) :
    ((before ++ line).reverse.takeWhile (· != '\n')).reverse = line := by
  have hPass : ∀ c ∈ line.reverse, (c != '\n') = true := by
    intro c hc
    rw [bne_iff_ne]
    rintro rfl
    exact hLine (List.mem_reverse.mp hc)
  have hStop : before.reverse.takeWhile (· != '\n') = [] := by
    cases hLast : before.reverse with
    | nil => rfl
    | cons c r =>
        have hNewline : c = '\n' := by
          refine hBefore c ?_
          rw [← List.head?_reverse, hLast]
          rfl
        simp [hNewline]
  rw [List.reverse_append, List.takeWhile_append_of_pos hPass, hStop,
    List.append_nil, List.reverse_reverse]

theorem bytes_eq
    (s : String) :
    s.toByteArray.data.toList = s.toList.flatMap String.utf8EncodeChar := by
  rw [← String.utf8Encode_toList]
  simp [List.utf8Encode]

/- The bytes of a text tell that it is all on one line. -/
theorem newline_not_mem_of_bytes
    (h : s.toByteArray.data.toList.all (· != 10) = true) :
    '\n' ∉ s.toList := by
  intro hNewline
  have hByte : (10 : UInt8) ∈ s.toList.flatMap String.utf8EncodeChar :=
    List.mem_flatMap.mpr ⟨'\n', hNewline, by decide⟩
  rw [bytes_eq, List.all_eq_true] at h
  exact absurd (h 10 hByte) (by decide)

------------------------------------------------------------
-- Order
------------------------------------------------------------

/- The first characters decide the order of two texts. -/
theorem lt_of_head?
    {c d : Char}
    (hs : s.toList.head? = some c)
    (ht : t.toList.head? = some d)
    (hLess : c < d) :
    s < t := by
  rcases List.head?_eq_some_iff.mp hs with ⟨r, hr⟩
  rcases List.head?_eq_some_iff.mp ht with ⟨r', hr'⟩
  rw [String.lt_iff_toList_lt, hr, hr']
  exact List.Lex.rel hLess

end Retarget.Text
