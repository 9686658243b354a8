import Mathlib.Data.List.TakeWhile
import Retarget.Proofs.Text.Case
import Retarget.Proofs.Text.Numeral
import Retarget.Proofs.Text.Search

/-
  This file takes texts apart at a separator and puts them
  together.  A text is its pieces with dots between them, and
  it is cut in front of its first separator.  Numerals with
  dots between them are read as the numbers they stand for.

  Key statements include:
    * `Text.join_splitAt`
    * `Text.splitAt_join`
    * `Text.splitOnce_append`
    * `Text.trim_trim`
    * `Text.trim_append`
    * `Numeral.mapM_splitAt_join`
-/

namespace Retarget

namespace Text

variable {s a b : String}
variable {names : List String}
variable {sep : Char}

------------------------------------------------------------
-- Pieces between dots
------------------------------------------------------------

theorem splitAt_append
    (a b : String) :
    splitAt '.' (a ++ "." ++ b) = splitAt '.' a ++ splitAt '.' b := by
  have hChars : (a ++ "." ++ b).toList = a.toList ++ '.' :: b.toList := by
    simp
  rw [splitAt, hChars, List.splitOn_append_cons_self, List.map_append]
  rfl

theorem splitAt_of_dot_not_mem
    (h : '.' ∉ s.toList) :
    splitAt '.' s = [s] := by
  rw [splitAt, List.splitOn_eq_singleton h, List.map_singleton,
    String.ofList_toList]

theorem splitAt_concat
    (hDot : '.' ∉ b.toList)
    (a : String) :
    splitAt '.' (a ++ "." ++ b) = splitAt '.' a ++ [b] := by
  rw [splitAt_append, splitAt_of_dot_not_mem hDot]

theorem dot_not_mem_of_mem_splitAt
    (h : a ∈ splitAt '.' s) :
    '.' ∉ a.toList := by
  rcases List.mem_map.mp h with ⟨piece, hPiece, rfl⟩
  rw [String.toList_ofList]
  intro hDot
  have hPieces := forall_mem_splitOnPPrepend (p := (· == '.'))
    (by simp) piece hPiece '.' hDot
  cases hPieces

/- A name is its segments with dots between them. -/
theorem join_splitAt
    (s : String) :
    join "." (splitAt '.' s) = s := by
  apply String.toList_inj.mp
  rw [join, String.toList_intercalate, splitAt, List.map_map]
  have hId : String.toList ∘ String.ofList = id := by
    funext cs
    simp
  rw [hId, List.map_id]
  exact List.intercalate_splitOn '.'

theorem splitAt_inj :
    splitAt '.' a = splitAt '.' b ↔ a = b := by
  refine ⟨fun h => ?_, congrArg (splitAt '.')⟩
  rw [← join_splitAt a, h, join_splitAt]

theorem splitAt_join
    (hNames : ∀ n ∈ names, '.' ∉ n.toList)
    (hSome : names ≠ []) :
    splitAt '.' (join "." names) = names := by
  rw [splitAt, join, String.toList_intercalate]
  have hChars : ".".toList = ['.'] := rfl
  rw [hChars, List.splitOn_intercalate, List.map_map]
  · have hId : String.ofList ∘ String.toList = id := by
      funext n
      simp
    rw [hId, List.map_id]
  · intro cs hcs
    rcases List.mem_map.mp hcs with ⟨n, hn, rfl⟩
    exact hNames n hn
  · simpa using hSome

theorem join_concat
    (hSome : names ≠ [])
    (s : String) :
    join "." (names ++ [s]) = join "." names ++ "." ++ s := by
  rw [join, String.intercalate_append_of_ne_nil hSome (by simp),
    String.intercalate_singleton]
  rfl

theorem exists_join_cons
    (s : String)
    (names : List String) :
    ∃ ending, join "." (s :: names) = s ++ ending := by
  cases names with
  | nil => exact ⟨"", by simp [join]⟩
  | cons n rest =>
      refine ⟨"." ++ join "." (n :: rest), ?_⟩
      rw [join, String.intercalate_cons_cons, String.append_assoc]
      rfl

/- The first piece of a text ends at its first dot. -/
theorem exists_splitAt_eq_cons
    (hDot : '.' ∉ a.toList)
    (hHead : ∀ c ∈ b.toList.head?, c = '.') :
    ∃ more, splitAt '.' (a ++ b) = a :: more := by
  cases hChars : b.toList with
  | nil =>
      rw [String.toList_eq_nil_iff.mp hChars, String.append_empty,
        splitAt_of_dot_not_mem hDot]
      exact ⟨[], rfl⟩
  | cons c rest =>
      obtain rfl : c = '.' := hHead c (by rw [hChars]; rfl)
      have hText : a ++ b = a ++ "." ++ String.ofList rest :=
        String.toList_inj.mp (by simp [hChars])
      rw [hText, splitAt_append, splitAt_of_dot_not_mem hDot]
      exact ⟨_, rfl⟩

/- The first two pieces of a text; a dot follows if there are more. -/
theorem exists_append_of_splitAt
    (h : splitAt '.' s = a :: b :: names) :
    ∃ rest, s = a ++ "." ++ b ++ rest ∧ ∀ c ∈ rest.toList.head?, c = '.' := by
  rw [← join_splitAt s, h, join, String.intercalate_cons_cons]
  cases names with
  | nil => exact ⟨"", by simp, by simp⟩
  | cons n others =>
      refine ⟨"." ++ String.intercalate "." (n :: others), ?_, by simp⟩
      rw [String.intercalate_cons_cons]
      simp only [String.append_assoc]

/- Every character of a dotted text is a dot or in a piece. -/
theorem mem_join
    {c : Char}
    (h : c ∈ (join "." names).toList) :
    c = '.' ∨ ∃ n ∈ names, c ∈ n.toList := by
  induction names with
  | nil => simp [join] at h
  | cons n rest ih =>
      cases rest with
      | nil => exact Or.inr ⟨n, by simp, by simpa [join] using h⟩
      | cons m others =>
          rw [join, String.toList_intercalate, List.map_cons, List.map_cons,
            List.intercalate_cons_cons, List.mem_append, List.mem_append] at h
          rcases h with (hFirst | hDot) | hRest
          · exact Or.inr ⟨n, by simp, hFirst⟩
          · exact Or.inl (by simpa using hDot)
          · rw [← List.map_cons, ← String.toList_intercalate] at hRest
            refine (ih hRest).imp_right ?_
            rintro ⟨piece, hPiece, hc⟩
            exact ⟨piece, List.mem_cons_of_mem n hPiece, hc⟩

theorem subset_join
    (h : s ∈ names) :
    s.toList ⊆ (join "." names).toList := by
  induction names with
  | nil => cases h
  | cons n rest ih =>
      rcases List.mem_cons.mp h with rfl | hLater
      · obtain ⟨ending, hJoin⟩ := exists_join_cons s rest
        rw [hJoin, String.toList_append]
        exact List.subset_append_left _ _
      · cases rest with
        | nil => cases hLater
        | cons m others =>
            rw [join, String.intercalate_cons_cons, String.toList_append]
            exact List.Subset.trans (ih hLater) (List.subset_append_right _ _)

theorem subset_of_mem_splitAt
    (h : a ∈ splitAt '.' s) :
    a.toList ⊆ s.toList := by
  rw [← join_splitAt s]
  exact subset_join h

------------------------------------------------------------
-- The first separator
------------------------------------------------------------

theorem toList_separated
    (sep : Char)
    (a b : String) :
    (a ++ String.singleton sep ++ b).toList = a.toList ++ sep :: b.toList := by
  simp

theorem bne_of_not_mem
    (hSep : sep ∉ s.toList) :
    ∀ c ∈ s.toList, (c != sep) = true := by
  intro c hc
  rw [bne_iff_ne]
  rintro rfl
  exact hSep hc

theorem splitOnce_append
    (hSep : sep ∉ a.toList)
    (b : String) :
    splitOnce sep (a ++ String.singleton sep ++ b) = some (a, b) := by
  have hKept : ∀ c ∈ a.toList, (!(c == sep)) = true := bne_of_not_mem hSep
  rw [splitOnce, cutWhere?_eq, toList_separated, if_pos (by simp),
    List.takeWhile_append_of_pos hKept, List.dropWhile_append_of_pos hKept]
  simp

theorem splitOnce_eq_none_iff :
    splitOnce sep s = none ↔ sep ∉ s.toList := by
  rw [splitOnce, Option.map_eq_none_iff, cutWhere?_eq]
  simp

/- A text is cut in front of its first separator. -/
theorem append_of_splitOnce
    (h : splitOnce sep s = some (a, b)) :
    s = a ++ String.singleton sep ++ b ∧ sep ∉ a.toList := by
  rcases Option.map_eq_some_iff.mp h with ⟨⟨front, back⟩, hCut, hPair⟩
  cases hPair
  rcases exists_cons_of_cutWhere? hCut with ⟨c, rest, rfl, hSep⟩
  obtain rfl := eq_of_beq hSep
  refine ⟨String.toList_inj.mp ?_, ?_⟩
  · simp [← append_of_cutWhere? hCut]
  · rw [cutWhere?_eq] at hCut
    split at hCut
    · obtain ⟨rfl, -⟩ := Prod.mk.inj (Option.some.inj hCut)
      rw [String.toList_ofList]
      intro hMem
      simpa using List.mem_takeWhile_imp hMem
    · cases hCut

theorem subset_of_splitOnce
    (h : splitOnce sep s = some (a, b)) :
    b.toList ⊆ s.toList := by
  rcases Option.map_eq_some_iff.mp h with ⟨⟨front, back⟩, hCut, hPair⟩
  cases hPair
  intro c hc
  rw [String.toList_ofList] at hc
  rw [← append_of_cutWhere? hCut]
  exact List.mem_append_right front (List.mem_of_mem_drop hc)

theorem before_eq_self
    (hSep : sep ∉ s.toList) :
    before sep s = s := by
  rw [before, List.takeWhile_eq_self_iff.mpr (bne_of_not_mem hSep),
    String.ofList_toList]

theorem before_append
    (hSep : sep ∉ a.toList)
    (b : String) :
    before sep (a ++ String.singleton sep ++ b) = a := by
  rw [before, toList_separated,
    List.takeWhile_append_of_pos (bne_of_not_mem hSep)]
  simp

theorem before_append_of_not_mem
    (hSep : sep ∉ a.toList)
    (b : String) :
    before sep (a ++ b) = a ++ before sep b := by
  rw [before, String.toList_append,
    List.takeWhile_append_of_pos (bne_of_not_mem hSep), String.ofList_append,
    String.ofList_toList]
  rfl

/- What follows the part before a separator starts with it. -/
theorem exists_eq_before_append
    (sep : Char)
    (s : String) :
    ∃ rest, s = before sep s ++ rest ∧ ∀ c ∈ rest.toList.head?, c = sep := by
  refine ⟨String.ofList (s.toList.dropWhile (· != sep)), ?_, fun c hc => ?_⟩
  · rw [before, ← String.ofList_append, List.takeWhile_append_dropWhile,
      String.ofList_toList]
  · rw [String.toList_ofList] at hc
    have hNot := List.head?_dropWhile_not (· != sep) s.toList
    rw [Option.mem_def.mp hc] at hNot
    simpa using hNot

theorem hasStart_iff
    {start : String} :
    hasStart start s = true ↔ ∃ rest, s = start ++ rest := by
  rw [hasStart, List.isPrefixOf_iff_prefix]
  constructor
  · rintro ⟨rest, hRest⟩
    exact ⟨String.ofList rest, String.toList_inj.mp (by simp [hRest])⟩
  · rintro ⟨rest, rfl⟩
    exact ⟨rest.toList, by simp⟩

theorem forall_eq_append_iff
    {start : String}
    {P : Prop} :
    (∀ rest, s = start ++ rest → P) ↔ (hasStart start s = true → P) := by
  rw [hasStart_iff, forall_exists_index]

theorem hasStart_eq_false
    {start : String}
    {c : Char}
    (hStart : c ∈ start.toList)
    (hText : c ∉ s.toList) :
    hasStart start s = false := by
  rw [hasStart, Bool.eq_false_iff, ne_eq, List.isPrefixOf_iff_prefix]
  exact fun hPrefix => hText (hPrefix.subset hStart)

theorem stripStart?_eq_some_iff
    {start : String} :
    stripStart? start s = some a ↔ s = start ++ a := by
  rw [stripStart?, Option.map_eq_some_iff, ← String.toList_inj,
    String.toList_append]
  constructor
  · rintro ⟨rest, hRest, rfl⟩
    rw [← isPrefixOf?_eq_some_iff.mp hRest, String.toList_ofList]
  · intro hText
    exact ⟨a.toList, isPrefixOf?_eq_some_iff.mpr hText.symm,
      String.ofList_toList⟩

theorem stripStart?_append
    (start s : String) :
    stripStart? start (start ++ s) = some s :=
  stripStart?_eq_some_iff.mpr rfl

theorem stripStart?_eq_none
    {start : String}
    {c : Char}
    (hStart : c ∈ start.toList)
    (hText : c ∉ s.toList) :
    stripStart? start s = none := by
  rw [Option.eq_none_iff_forall_ne_some]
  intro rest hRest
  apply hText
  rw [stripStart?_eq_some_iff.mp hRest, String.toList_append]
  exact List.mem_append_left _ hStart

------------------------------------------------------------
-- Trimming
------------------------------------------------------------

/- A visible character of the ASCII range. -/
def IsVisible (c : Char) : Prop :=
  0x20 < c.toNat ∧ c.toNat < 0x7F

instance (c : Char) : Decidable (IsVisible c) := by
  unfold IsVisible
  infer_instance

theorem isVisible_of_isAsciiDigit
    {c : Char}
    (h : isAsciiDigit c = true) :
    IsVisible c := by
  rw [Numeral.isAsciiDigit_iff] at h
  exact ⟨by omega, by omega⟩

theorem isVisible_of_isAsciiLetter
    {c : Char}
    (h : isAsciiLetter c = true) :
    IsVisible c := by
  rw [isAsciiLetter, Bool.or_eq_true, isAsciiLower_iff, isAsciiUpper_iff] at h
  exact ⟨by omega, by omega⟩

theorem isAsciiDigit_eq_false_of_isAsciiLetter
    {c : Char}
    (h : isAsciiLetter c = true) :
    isAsciiDigit c = false := by
  rw [isAsciiLetter, Bool.or_eq_true, isAsciiLower_iff, isAsciiUpper_iff] at h
  rw [Bool.eq_false_iff, ne_eq, Numeral.isAsciiDigit_iff]
  omega

theorem isAsciiLetter_eq_false_of_isAsciiDigit
    {c : Char}
    (h : isAsciiDigit c = true) :
    isAsciiLetter c = false := by
  rw [Bool.eq_false_iff]
  intro hLetter
  rw [isAsciiDigit_eq_false_of_isAsciiLetter hLetter] at h
  cases h

theorem IsVisible.isBlank_eq_false
    {c : Char}
    (h : IsVisible c) :
    isBlank c = false := by
  rcases h with ⟨hAbove, hBelow⟩
  simp only [isBlank, Bool.or_eq_false_iff, Bool.and_eq_false_iff,
    decide_eq_false_iff_not, beq_eq_false_iff_ne]
  omega

/- There is nothing to trim from visible characters. -/
theorem trim_eq_self
    (h : ∀ c ∈ s.toList, IsVisible c) :
    trim s = s := by
  refine trim_eq_self_of_no_blank_ends s (fun c hc => ?_) (fun c hc => ?_)
  · exact (h c (List.mem_of_mem_head? hc)).isBlank_eq_false
  · exact (h c (List.mem_of_mem_getLast? hc)).isBlank_eq_false

theorem trim_subset
    (s : String) :
    (trim s).toList ⊆ s.toList := by
  rw [trim, String.toList_ofList, trimChars, dropEndWhile]
  intro c hc
  have hKept := (List.dropWhile_sublist _).subset (List.mem_reverse.mp hc)
  exact (List.dropWhile_sublist _).subset (List.mem_reverse.mp hKept)

theorem dropEndWhile_prefix
    (p : Char → Bool)
    (cs : List Char) :
    dropEndWhile p cs <+: cs := by
  rw [dropEndWhile, ← List.reverse_suffix, List.reverse_reverse]
  exact List.dropWhile_suffix _

/- Trimming leaves nothing to trim. -/
theorem trim_trim
    (s : String) :
    trim (trim s) = trim s := by
  let kept := s.toList.dropWhile isBlank
  have hChars : (trim s).toList = dropEndWhile isBlank kept := by
    rw [trim, String.toList_ofList]
    rfl
  rcases dropEndWhile_prefix isBlank kept with ⟨ending, hKept⟩
  refine trim_eq_self_of_no_blank_ends _ (fun c hc => ?_) (fun c hc => ?_)
  · rw [hChars] at hc
    have hFirst : c ∈ kept.head? := by
      rw [← hKept]
      exact List.mem_head?_append_of_mem_head? hc
    have hNot := List.head?_dropWhile_not isBlank s.toList
    rw [Option.mem_def.mp hFirst] at hNot
    simpa using hNot
  · rw [hChars, dropEndWhile, List.getLast?_reverse] at hc
    have hNot := List.head?_dropWhile_not isBlank kept.reverse
    rw [Option.mem_def.mp hc] at hNot
    simpa using hNot

theorem head?_of_prefix
    {cs ds : List Char}
    {P : Char → Prop}
    (h : cs <+: ds)
    (hd : ∀ c ∈ ds.head?, P c) :
    ∀ c ∈ cs.head?, P c := by
  rcases h with ⟨rest, rfl⟩
  exact fun c hc => hd c (List.mem_head?_append_of_mem_head? hc)

theorem dropWhile_append_of_head?
    {p : Char → Bool}
    {ds : List Char}
    (cs : List Char)
    (h : ∀ c ∈ ds.head?, p c = false) :
    (cs ++ ds).dropWhile p = cs.dropWhile p ++ ds := by
  induction cs with
  | nil =>
      cases ds with
      | nil => rfl
      | cons d rest => simp [h d rfl]
  | cons c rest ih => cases hc : p c <;> simp [hc, ih]

/- Behind characters that are visible only the end can be trimmed. -/
theorem trim_append
    (hSome : a.toList ≠ [])
    (hVisible : ∀ c ∈ a.toList, IsVisible c)
    (b : String) :
    trim (a ++ b) = a ++ trimEnd b := by
  have hFront : ∀ c ∈ (a.toList ++ b.toList).head?, isBlank c = false := by
    intro c hc
    rw [List.head?_append_of_ne_nil _ hSome] at hc
    exact (hVisible c (List.mem_of_mem_head? hc)).isBlank_eq_false
  have hBack : ∀ c ∈ a.toList.reverse.head?, isBlank c = false := fun c hc =>
    (hVisible c (List.mem_reverse.mp (List.mem_of_mem_head? hc))).isBlank_eq_false
  have hStart : (a.toList ++ b.toList).dropWhile isBlank =
      a.toList ++ b.toList :=
    dropWhile_append_of_head? [] hFront
  apply String.toList_inj.mp
  rw [trim, trimEnd, trimChars, dropEndWhile, dropEndWhile,
    String.toList_append, String.toList_append, hStart, List.reverse_append,
    dropWhile_append_of_head? _ hBack]
  simp

end Text

------------------------------------------------------------
-- Dotted numerals
------------------------------------------------------------

namespace Numeral

variable {ns : List Nat}
variable {read? : String → Option Nat}

theorem dot_not_mem_toString
    (n : Nat) :
    '.' ∉ (toString n).toList :=
  fun h => absurd (isAsciiDigit_of_mem_toString h) (by decide)

theorem mapM_toString
    (hRead : ∀ n ∈ ns, read? (toString n) = some n) :
    (ns.map toString).mapM read? = some ns := by
  induction ns with
  | nil => rfl
  | cons n rest ih =>
      rcases List.forall_mem_cons.mp hRead with ⟨hFirst, hRest⟩
      rw [List.map_cons, List.mapM_cons, hFirst, ih hRest]
      rfl

/- Dotted numerals are read as the numbers they stand for. -/
theorem mapM_splitAt_join
    (hSome : ns ≠ [])
    (hRead : ∀ n ∈ ns, read? (toString n) = some n) :
    (Text.splitAt '.' (Text.join "." (ns.map toString))).mapM read? =
      some ns := by
  rw [Text.splitAt_join ?_ (by simpa using hSome), mapM_toString hRead]
  intro s hs
  rcases List.mem_map.mp hs with ⟨n, -, rfl⟩
  exact dot_not_mem_toString n

/- All pieces are read if each of them is, to a number each. -/
theorem isSome_mapM_iff
    (pieces : List String) :
    (pieces.mapM read?).isSome = true ↔
      ∀ s ∈ pieces, (read? s).isSome = true := by
  induction pieces with
  | nil => simp
  | cons s rest ih =>
      rw [List.forall_mem_cons, ← ih, List.mapM_cons]
      cases read? s with
      | none => simp
      | some n => cases rest.mapM read? <;> simp

theorem length_of_mapM
    {pieces : List String}
    (h : pieces.mapM read? = some ns) :
    ns.length = pieces.length := by
  induction pieces generalizing ns with
  | nil =>
      cases h
      rfl
  | cons s rest ih =>
      rw [List.mapM_cons] at h
      rcases Option.bind_eq_some_iff.mp h with ⟨n, -, hMore⟩
      rcases Option.bind_eq_some_iff.mp hMore with ⟨others, hRest, hAll⟩
      cases hAll
      rw [List.length_cons, List.length_cons, ih hRest]

/- What holds of every number that is read holds of all of them. -/
theorem forall_of_mapM
    {P : Nat → Prop}
    {pieces : List String}
    (hRead : ∀ s n, read? s = some n → P n)
    (h : pieces.mapM read? = some ns) :
    ∀ n ∈ ns, P n := by
  induction pieces generalizing ns with
  | nil =>
      cases h
      simp
  | cons s rest ih =>
      rw [List.mapM_cons] at h
      rcases Option.bind_eq_some_iff.mp h with ⟨n, hFirst, hMore⟩
      rcases Option.bind_eq_some_iff.mp hMore with ⟨others, hRest, hAll⟩
      cases hAll
      exact List.forall_mem_cons.mpr ⟨hRead s n hFirst, ih hRest⟩

end Numeral

end Retarget
