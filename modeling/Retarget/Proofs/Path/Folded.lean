import Retarget.Path.Join
import Retarget.Proofs.Text.Search

/-
  This file shows what folding makes of a path.  A folded
  path starts with the root or with some steps back, and
  only names follow.  It is spelled in one way only, so two
  folded paths with the same components are equal.

  Key definitions include:
    * `Path.Component.IsSpelled`
    * `Path.IsWalked`

  Key statements include:
    * `Path.components_normalize`
    * `Path.normalize_idem`
    * `Path.eq_of_components_eq`
-/

namespace Retarget.Path

------------------------------------------------------------
-- Spelled components
------------------------------------------------------------

/- The text of a component is a segment that stands for it. -/
def Component.IsSpelled (c : Component) : Prop :=
  '/' ∉ c.text.toList ∧ Component.ofSegment? c.text = some c

theorem slash_not_mem_of_mem_pieces
    {cs : List Char}
    {s : String}
    (h : s ∈ pieces cs) :
    '/' ∉ s.toList := by
  rcases List.mem_map.mp h with ⟨piece, hPiece, rfl⟩
  rw [String.toList_ofList]
  intro hSlash
  have hPieces := Text.forall_mem_splitOnPPrepend (p := (· == '/'))
    (by simp) piece hPiece '/' hSlash
  cases hPieces

theorem text_of_ofSegment?
    {s : String}
    {c : Component}
    (h : Component.ofSegment? s = some c) :
    c.text = s := by
  unfold Component.ofSegment? at h
  split at h
  · cases h
  · split at h
    · next hBack =>
        cases h
        exact (beq_iff_eq.mp hBack).symm
    · cases h
      rfl

theorem isSpelled_of_mem_innerComponents
    {cs : List Char}
    {c : Component}
    (h : c ∈ innerComponents (pieces cs)) :
    c.IsSpelled := by
  rcases List.mem_filterMap.mp h with ⟨s, hPiece, hSegment⟩
  have hText := text_of_ofSegment? hSegment
  exact ⟨hText ▸ slash_not_mem_of_mem_pieces hPiece, hText ▸ hSegment⟩

/- The root and a dot can only start a path. -/
theorem exists_components_eq
    (p : Path) :
    ∃ inner : List Component,
      (∀ c ∈ inner, c.IsSpelled) ∧
        (p.components = inner ∨
          p.components = .root :: inner ∨
            p.components = .current :: inner) := by
  have hInner : ∀ cs : List Char,
      ∀ c ∈ innerComponents (pieces cs), c.IsSpelled :=
    fun cs c hc => isSpelled_of_mem_innerComponents hc
  rw [components_eq, segments_eq]
  by_cases hRoot : p.text.toList.head? = some '/'
  · rw [if_pos hRoot]
    exact ⟨_, hInner p.text.toList.tail, Or.inr (Or.inl rfl)⟩
  · rw [if_neg hRoot]
    refine ⟨_, hInner p.text.toList, ?_⟩
    simp only [ofParts, Bool.false_eq_true, if_false]
    split
    · exact Or.inr (Or.inr rfl)
    · exact Or.inl rfl

------------------------------------------------------------
-- Walking
------------------------------------------------------------

/-
  What a walk has made of its components, from the last to
  the first.
-/
inductive IsWalked : List Component → Prop where
  | start : IsWalked []
  | root : IsWalked [.root]
  | back {walked : List Component} :
    IsWalked walked →
    (∀ c ∈ walked, c = .parent) →
    IsWalked (.parent :: walked)
  | name {walked : List Component} {n : String} :
    IsWalked walked →
    (Component.normal n).IsSpelled →
    IsWalked (.normal n :: walked)

theorem IsWalked.fold
    {walked : List Component}
    {c : Component}
    (h : IsWalked walked)
    (hSpelled : c.IsSpelled) :
    IsWalked (fold walked c) := by
  cases c with
  | root => cases hSpelled.2
  | current => cases hSpelled.2
  | parent =>
      cases h with
      | start => exact .back .start (by simp)
      | root => exact .root
      | back hWalked hBack =>
          exact .back (.back hWalked hBack) (by simpa using hBack)
      | name hWalked _ => exact hWalked
  | normal n => exact .name h hSpelled

theorem IsWalked.foldl
    {walked cs : List Component}
    (h : IsWalked walked)
    (hSpelled : ∀ c ∈ cs, c.IsSpelled) :
    IsWalked (cs.foldl Path.fold walked) := by
  induction cs generalizing walked with
  | nil => exact h
  | cons c r ih =>
      exact ih (h.fold (hSpelled c List.mem_cons_self))
        fun d hd => hSpelled d (List.mem_cons_of_mem c hd)

theorem isWalked_foldl_components
    (p : Path) :
    IsWalked (p.components.foldl fold []) := by
  rcases exists_components_eq p with ⟨inner, hInner, hPath | hPath | hPath⟩
  · rw [hPath]
    exact IsWalked.start.foldl hInner
  · rw [hPath]
    exact IsWalked.root.foldl hInner
  · rw [hPath, List.foldl_cons]
    exact IsWalked.start.foldl hInner

/- A walk that is taken again leads to the same place. -/
theorem IsWalked.foldl_reverse
    {walked : List Component}
    (h : IsWalked walked) :
    walked.reverse.foldl Path.fold [] = walked := by
  induction h with
  | start => rfl
  | root => rfl
  | @back walked _ hBack ih =>
      rw [List.reverse_cons, List.foldl_append, ih]
      cases walked with
      | nil => rfl
      | cons c r =>
          rw [hBack c List.mem_cons_self]
          rfl
  | name _ _ ih =>
      rw [List.reverse_cons, List.foldl_append, ih]
      rfl

/- Behind a root that may be there, every component is spelled. -/
theorem IsWalked.exists_reverse_eq
    {walked : List Component}
    (h : IsWalked walked) :
    ∃ inner : List Component,
      (∀ c ∈ inner, c.IsSpelled) ∧
        (walked.reverse = inner ∨ walked.reverse = .root :: inner) := by
  have hBackward : Component.parent.IsSpelled := ⟨by decide, rfl⟩
  induction h with
  | start => exact ⟨[], by simp, Or.inl rfl⟩
  | root => exact ⟨[], by simp, Or.inr rfl⟩
  | back hWalked hBack ih =>
      refine ⟨_, fun c hc => ?_, Or.inl rfl⟩
      have hParent : c = .parent := by
        simpa using (List.mem_cons.mp (List.mem_reverse.mp hc)).elim id (hBack c)
      exact hParent ▸ hBackward
  | @name walked n _ hName ih =>
      rcases ih with ⟨inner, hInner, hReverse⟩
      refine ⟨inner ++ [.normal n], fun c hc => ?_, ?_⟩
      · rcases List.mem_append.mp hc with hOld | hNew
        · exact hInner c hOld
        · exact List.mem_singleton.mp hNew ▸ hName
      · rcases hReverse with hReverse | hReverse <;> simp [hReverse]

------------------------------------------------------------
-- Spelling
------------------------------------------------------------

variable {cs : List Component}

theorem pieces_join
    (h : ∀ c ∈ cs, c.IsSpelled)
    (hSome : cs ≠ []) :
    pieces (Text.join "/" (cs.map Component.text)).toList =
      cs.map Component.text := by
  have hChars : "/".toList = ['/'] := rfl
  rw [pieces, Text.join, String.toList_intercalate, hChars,
    List.splitOn_intercalate, List.map_map]
  · have hId : String.ofList ∘ String.toList = id := by
      funext n
      simp
    rw [hId, List.map_id]
  · intro segment hSegment
    simp only [List.mem_map] at hSegment
    rcases hSegment with ⟨_, ⟨c, hc, rfl⟩, rfl⟩
    exact (h c hc).1
  · simpa using hSome

theorem innerComponents_pieces_join
    (h : ∀ c ∈ cs, c.IsSpelled) :
    innerComponents (pieces (Text.join "/" (cs.map Component.text)).toList) =
      cs := by
  by_cases hEmpty : cs = []
  · subst hEmpty
    rfl
  · rw [pieces_join h hEmpty, innerComponents, List.filterMap_map]
    exact (List.filterMap_congr fun c hc => (h c hc).2).trans
      List.filterMap_some

/- Only a dot that is written in front is a first component. -/
theorem head_pieces_join_ne_dot
    (h : ∀ c ∈ cs, c.IsSpelled) :
    (pieces (Text.join "/" (cs.map Component.text)).toList).head? ≠
      some "." := by
  cases cs with
  | nil => decide
  | cons c r =>
      rw [pieces_join h (List.cons_ne_nil c r)]
      intro hHead
      have hSegment := (h c List.mem_cons_self).2
      rw [Option.some.inj hHead] at hSegment
      cases hSegment

/- Steps that start with a component have no slash in front. -/
theorem head_join_ne_slash
    (h : ∀ c ∈ cs, c.IsSpelled) :
    (Text.join "/" (cs.map Component.text)).toList.head? ≠ some '/' := by
  rw [Text.join, String.toList_intercalate]
  cases cs with
  | nil => simp
  | cons c r =>
      rcases h c List.mem_cons_self with ⟨hSlash, hSegment⟩
      cases hText : c.text.toList with
      | nil =>
          rw [String.toList_eq_nil_iff.mp hText] at hSegment
          cases hSegment
      | cons first more =>
          rw [hText] at hSlash
          have hFirst : first ≠ '/' :=
            fun hEq => hSlash (hEq ▸ List.mem_cons_self)
          cases r <;> simp [List.intercalate, hText, hFirst]

theorem components_ofComponents
    {walked : List Component}
    (h : IsWalked walked) :
    (ofComponents walked.reverse).components = walked.reverse := by
  rcases h.exists_reverse_eq with ⟨inner, hInner, hReverse | hReverse⟩
  · have hOf : ofComponents inner =
        ofSegments false (inner.map Component.text) := by
      cases inner with
      | nil => rfl
      | cons c r =>
          cases c with
          | root => cases (hInner .root List.mem_cons_self).2
          | _ => rfl
    rw [hReverse, hOf, components_eq, segments_eq]
    simp only [ofSegments, Bool.false_eq_true, if_false, String.empty_append]
    rw [if_neg (head_join_ne_slash hInner)]
    simp [ofParts, head_pieces_join_ne_dot hInner,
      innerComponents_pieces_join hInner]
  · rw [hReverse, ofComponents, components_eq, segments_eq]
    simp [ofSegments, ofParts, innerComponents_pieces_join hInner]

------------------------------------------------------------
-- Folded paths
------------------------------------------------------------

variable {p q : Path}

theorem components_normalize
    (p : Path) :
    p.normalize.components = (p.components.foldl fold []).reverse :=
  components_ofComponents (isWalked_foldl_components p)

/- A folded path is not folded any further. -/
theorem normalize_idem
    (p : Path) :
    p.normalize.normalize = p.normalize := by
  rw [normalize, components_normalize,
    (isWalked_foldl_components p).foldl_reverse]
  rfl

theorem eq_of_components_eq
    (hp : p.normalize = p)
    (hq : q.normalize = q)
    (h : p.components = q.components) :
    p = q := by
  rw [← hp, ← hq, normalize, normalize, h]

end Retarget.Path
