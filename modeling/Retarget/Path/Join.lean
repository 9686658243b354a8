import Retarget.Path

/-
  This file describes the components of a path below another
  one: those of the base, and then all that the segments of
  the second path stand for inside a path.

  Key definitions include:
    * `Path.innerComponents`
    * `Path.ofParts`

  Key statements include:
    * `Path.components_eq`
    * `Path.components_join`
-/

namespace Retarget.Path

/- The components that segments inside a path stand for. -/
def innerComponents (segs : List String) : List Component :=
  segs.filterMap Component.ofSegment?

/- The components of a path that consists of some segments. -/
def ofParts (parts : Bool × List String) : List Component :=
  if parts.1 then .root :: innerComponents parts.2
  else if parts.2.head? = some "." then
    .current :: innerComponents parts.2
  else innerComponents parts.2

theorem components_eq
    (p : Path) :
    p.components = ofParts p.segments := by
  unfold components ofParts
  split
  · next h => simp [h, innerComponents]
  · next segs h =>
      simp [h, innerComponents, Component.ofSegment?, isIdle]
  · next segs hDot h =>
      have hHead : segs.head? ≠ some "." := by
        intro hFirst
        cases segs with
        | nil => cases hFirst
        | cons s r =>
            cases hFirst
            exact hDot r rfl
      simp [h, hHead, innerComponents]

theorem ofParts_append
    {absolute : Bool}
    {segs : List String}
    (h : segs ≠ [])
    (more : List String) :
    ofParts (absolute, segs ++ more) =
      ofParts (absolute, segs) ++ innerComponents more := by
  have hHead : (segs ++ more).head? = segs.head? := by
    cases segs with
    | nil => exact absurd rfl h
    | cons s r => rfl
  simp only [ofParts, hHead, innerComponents, List.filterMap_append]
  split
  · rfl
  · split <;> rfl

------------------------------------------------------------
-- Segments of a spelling
------------------------------------------------------------

/- The pieces between slashes. -/
def pieces (cs : List Char) : List String :=
  (cs.splitOn '/').map String.ofList

theorem pieces_ne_nil
    (cs : List Char) :
    pieces cs ≠ [] := by
  simp [pieces, List.splitOn, List.splitOnP_ne_nil]

theorem pieces_append_slash
    (cs more : List Char) :
    pieces (cs ++ '/' :: more) = pieces cs ++ pieces more := by
  rw [pieces, List.splitOn_append_cons_self, List.map_append]
  rfl

theorem segments_eq
    (p : Path) :
    p.segments =
      if p.text.toList.head? = some '/' then
        (true, pieces p.text.toList.tail)
      else (false, pieces p.text.toList) := by
  unfold segments
  split
  · next h => simp [h, pieces]
  · next cs hSlash =>
      rw [if_neg, pieces]
      intro hHead
      cases h : p.text.toList with
      | nil => simp [h] at hHead
      | cons c r =>
          rw [h] at hHead
          cases hHead
          exact hSlash r h

/- A slash at the end does not count. -/
theorem ofParts_pieces_concat
    (absolute : Bool)
    (cs : List Char) :
    ofParts (absolute, pieces (cs ++ ['/'])) =
      ofParts (absolute, pieces cs) := by
  have hBlank : innerComponents (pieces []) = [] := by decide
  rw [pieces_append_slash, ofParts_append (pieces_ne_nil cs), hBlank,
    List.append_nil]

------------------------------------------------------------
-- Joined paths
------------------------------------------------------------

theorem segments_of_relative
    {p : Path}
    (h : p.isAbsolute = false) :
    p.segments = (false, pieces p.text.toList) := by
  rw [segments_eq, if_neg]
  intro hHead
  simp [isAbsolute, segments_eq, hHead] at h

/- A joined path is spelled with one slash behind the base. -/
theorem exists_text_join
    {base rest : Path}
    (hBase : base.text ≠ "")
    (hRest : rest.isAbsolute = false) :
    ∃ front,
      (base.join rest).text.toList = front ++ '/' :: rest.text.toList ∧
        (base.text.toList = front ∨ base.text.toList = front ++ ['/']) := by
  have hSome : base.text.isEmpty = false := by simpa using hBase
  by_cases hEnd : Text.hasEnd "/" base.text = true
  · obtain ⟨front, hFront⟩ : ['/'] <:+ base.text.toList := by
      simpa [Text.hasEnd] using hEnd
    refine ⟨front, ?_, Or.inr hFront.symm⟩
    simp [join, hRest, hEnd, ← hFront]
  · refine ⟨base.text.toList, ?_, Or.inl rfl⟩
    simp [join, hRest, hSome, hEnd]

theorem components_join
    {base rest : Path}
    (hBase : base.text ≠ "")
    (hRest : rest.isAbsolute = false) :
    (base.join rest).components =
      base.components ++ innerComponents rest.segments.2 := by
  rcases exists_text_join hBase hRest with ⟨front, hJoined, hFront⟩
  rw [components_eq, components_eq, segments_eq, segments_eq base, hJoined,
    segments_of_relative hRest]
  cases front with
  | nil =>
      have hBlank : innerComponents (pieces []) = [] := by decide
      rcases hFront with hNone | hRoot
      · exact absurd (String.toList_eq_nil_iff.mp hNone) hBase
      · rw [hRoot]
        simp [ofParts, hBlank]
  | cons c r =>
      have hJoin : ∀ cs : List Char,
          pieces (cs ++ '/' :: rest.text.toList) =
            pieces cs ++ pieces rest.text.toList :=
        fun cs => pieces_append_slash cs _
      by_cases hSlash : c = '/'
      · subst hSlash
        rcases hFront with hText | hText <;> rw [hText] <;>
          simp [hJoin, ofParts_pieces_concat,
            ofParts_append (pieces_ne_nil r)]
      · have hWhole := hJoin (c :: r)
        have hConcat := ofParts_pieces_concat false (c :: r)
        rcases hFront with hText | hText <;> rw [hText] <;>
          simp_all [ofParts_append (pieces_ne_nil (c :: r))]

/- A relative path has the components of its segments, or one dot more. -/
theorem components_of_relative
    {p : Path}
    (h : p.isAbsolute = false) :
    p.components = innerComponents p.segments.2 ∨
      p.components = .current :: innerComponents p.segments.2 := by
  rw [components_eq, segments_of_relative h, ofParts]
  simp only [Bool.false_eq_true, if_false]
  split
  · exact Or.inr rfl
  · exact Or.inl rfl

end Retarget.Path
