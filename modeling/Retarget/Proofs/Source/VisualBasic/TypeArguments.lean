import Retarget.Source.VisualBasic.Parts
import Retarget.Proofs.Source.VisualBasic.Mention
import Retarget.Proofs.Text.Fold
import Retarget.Proofs.Text.Offset

/-
  This file says what stands behind a Visual Basic name that
  is reported with type arguments: an opening parenthesis and
  the letters of the keyword `Of`.  Nothing looks at what
  follows the letters, so the keyword counts and so does
  every longer word that starts with them.

  Key definitions include:
    * `VisualBasic.OpensOf`
    * `VisualBasic.HasOf`
    * `VisualBasic.HasLongerWord`

  Key statements include:
    * `VisualBasic.hasTypeArguments_iff`
    * `VisualBasic.tokens_behind`
    * `VisualBasic.exists_token_of_mem_readTokens`
    * `VisualBasic.isGeneric_iff`
-/

namespace Retarget.VisualBasic

open Text

variable {cs rest rest' : List Char}

------------------------------------------------------------
-- Parentheses
------------------------------------------------------------

/-
  The text starts with an opening parenthesis and two letters
  that spell `Of` in any case, perhaps with blanks in front
  of either; `rest` is the text behind the letters.
-/
def OpensOf (cs rest : List Char) : Prop :=
  ∃ outer inner letters,
    cs = outer ++ '(' :: (inner ++ (letters ++ rest)) ∧
      (∀ c ∈ outer, isBlank c = true) ∧
      (∀ c ∈ inner, isBlank c = true) ∧
      letters.map lowerAsciiChar = ['o', 'f']

/- The letters are the whole word. -/
def HasOf (cs : List Char) : Prop :=
  ∃ rest, OpensOf cs rest ∧ rest.head?.any isWordChar = false

/- The letters are only the start of a word. -/
def HasLongerWord (cs : List Char) : Prop :=
  ∃ rest, OpensOf cs rest ∧ rest.head?.any isWordChar = true

theorem dropWhile_isBlank
    {front : List Char}
    {c : Char}
    (hFront : ∀ d ∈ front, isBlank d = true)
    (hc : isBlank c = false) :
    (front ++ c :: rest).dropWhile isBlank = c :: rest := by
  rw [List.dropWhile_append_of_pos hFront, List.dropWhile_cons_of_neg]
  simp [hc]

/- What the scan looks at, in its own words. -/
theorem opensOf_iff :
    OpensOf cs rest ↔
      ∃ more, cs.dropWhile isBlank = '(' :: more ∧
        ((more.dropWhile isBlank).take 2).map lowerAsciiChar = ['o', 'f'] ∧
        (more.dropWhile isBlank).drop 2 = rest := by
  constructor
  · rintro ⟨outer, inner, letters, rfl, hOuter, hInner, hLetters⟩
    have hOpen : isBlank '(' = false := by decide
    refine ⟨_, dropWhile_isBlank hOuter hOpen, ?_⟩
    have hTwo : letters.length = 2 := by
      simpa using congrArg List.length hLetters
    rcases List.length_eq_two.mp hTwo with ⟨o, f, rfl⟩
    have hFirst : isBlank o = false := by
      rw [← isBlank_lowerAsciiChar, (List.cons.inj hLetters).1]
      decide
    rw [List.cons_append, List.cons_append, dropWhile_isBlank hInner hFirst]
    exact ⟨hLetters, rfl⟩
  · rintro ⟨more, hOpen, hLetters, rfl⟩
    refine ⟨cs.takeWhile isBlank, more.takeWhile isBlank,
      (more.dropWhile isBlank).take 2, ?_,
      fun c hc => List.mem_takeWhile_imp hc,
      fun c hc => List.mem_takeWhile_imp hc, hLetters⟩
    rw [List.take_append_drop, List.takeWhile_append_dropWhile, ← hOpen,
      List.takeWhile_append_dropWhile]

theorem OpensOf.unique
    (h : OpensOf cs rest)
    (h' : OpensOf cs rest') :
    rest = rest' := by
  rcases opensOf_iff.mp h with ⟨more, hOpen, -, rfl⟩
  rcases opensOf_iff.mp h' with ⟨more', hOpen', -, rfl⟩
  obtain rfl := (List.cons.inj (hOpen.symm.trans hOpen')).2
  rfl

theorem HasLongerWord.not_hasOf
    (h : HasLongerWord cs) :
    ¬HasOf cs := by
  rintro ⟨rest, hOpens, hEnds⟩
  rcases h with ⟨rest', hOpens', hGoesOn⟩
  rw [hOpens.unique hOpens', hGoesOn] at hEnds
  cases hEnds

theorem hasTypeArguments_iff
    (t : Token) :
    t.hasTypeArguments = true ↔ HasOf t.behind ∨ HasLongerWord t.behind := by
  have hEither : HasOf t.behind ∨ HasLongerWord t.behind ↔
      ∃ rest, OpensOf t.behind rest := by
    constructor
    · rintro (⟨rest, hOpens, -⟩ | ⟨rest, hOpens, -⟩)
      · exact ⟨rest, hOpens⟩
      · exact ⟨rest, hOpens⟩
    · rintro ⟨rest, hOpens⟩
      cases hWord : rest.head?.any isWordChar with
      | false => exact Or.inl ⟨rest, hOpens, hWord⟩
      | true => exact Or.inr ⟨rest, hOpens, hWord⟩
  simp only [hEither, opensOf_iff]
  unfold Token.hasTypeArguments
  split
  · next more hOpen =>
      rw [beq_iff_eq, hOpen]
      constructor
      · exact fun hLetters => ⟨_, more, rfl, hLetters, rfl⟩
      · rintro ⟨rest, more', hSame, hLetters, -⟩
        obtain rfl := (List.cons.inj hSame).2
        exact hLetters
  · next hOther =>
      constructor
      · exact nofun
      · rintro ⟨rest, more, hOpen, -⟩
        exact absurd hOpen (hOther more)

------------------------------------------------------------
-- Words
------------------------------------------------------------

/- The text is cut where a word ends, and this is behind it. -/
def IsBehind (masked : List Char) (s : Span) (behind : List Char) : Prop :=
  ∃ before, masked = before ++ behind ∧ byteLength before = s.stop

/-
  The words behind the characters that have been passed, by
  induction on the characters that are left.
-/
theorem tokensFrom_behind
    {masked : List Char}
    (n : Nat)
    {offset : Nat}
    (gap : Option (List Char))
    (line : List Char)
    {passed left : List Char}
    (hMasked : masked = passed ++ left)
    (hOffset : byteLength passed = offset) :
    ∀ t ∈ tokensFrom n offset gap line left,
      IsBehind masked t.span t.behind := by
  induction n generalizing offset gap line passed left with
  | zero => simp [tokensFrom]
  | succ n ih =>
      cases left with
      | nil => simp [tokensFrom]
      | cons c r =>
          rw [tokensFrom]
          split
          · next name taken hWord =>
              rcases wordAt?_eq_some hWord with ⟨-, ⟨behind, hLeft⟩, -⟩
              rw [← hLeft, List.drop_left]
              rw [← hLeft, ← List.append_assoc] at hMasked
              have hLength : byteLength (passed ++ taken) =
                  offset + byteLength taken := by
                rw [byteLength_append, hOffset]
              exact List.forall_mem_cons.mpr
                ⟨⟨_, hMasked, hLength⟩, ih _ _ hMasked hLength⟩
          · exact ih _ _ (hMasked.trans (List.append_cons passed c r))
              (by rw [byteLength_append, hOffset]; rfl)

theorem tokens_behind
    (masked : List Char) :
    ∀ t ∈ tokens masked, IsBehind masked t.span t.behind :=
  tokensFrom_behind _ none [] (List.nil_append masked).symm rfl

/- A name is reported for a word, with what follows the word. -/
theorem exists_token_of_mem_readTokens
    {chain : Option Chain}
    {previous : Option Token}
    {ts : List Token}
    {node : NameNode}
    (h : node ∈ readTokens chain previous ts) :
    ∃ t ∈ ts, node.span = t.span ∧ node.isGeneric = t.hasTypeArguments := by
  induction ts generalizing chain previous with
  | nil => cases h
  | cons t rest ih =>
      rcases List.mem_append.mp h with hFirst | hLater
      · rcases readToken_snd (Option.mem_toList.mp hFirst) with
          ⟨left, context, rfl, -⟩
        exact ⟨t, List.mem_cons_self, rfl, rfl⟩
      · rcases ih hLater with ⟨u, hu, hNode⟩
        exact ⟨u, List.mem_cons_of_mem t hu, hNode⟩

/-
  A name of a file has type arguments if the keyword follows
  it in parentheses, or a longer word that starts with the
  same letters.
-/
theorem isGeneric_iff
    {text : String}
    {node : NameNode}
    (hNode : node ∈ (parts text).names) :
    ∃ behind, IsBehind (mask text.toList) node.span behind ∧
      (node.isGeneric = true ↔ HasOf behind ∨ HasLongerWord behind) ∧
      ¬(HasOf behind ∧ HasLongerWord behind) := by
  rcases exists_token_of_mem_readTokens hNode with ⟨t, ht, hSpan, hGeneric⟩
  refine ⟨t.behind, ?_, ?_, fun h => h.2.not_hasOf h.1⟩
  · rw [hSpan]
    exact tokens_behind _ t ht
  · rw [hGeneric]
    exact hasTypeArguments_iff t

/- The keyword counts in any letter case and behind a blank. -/
theorem isGeneric_iff_of_list :
    ∃ node ∈ (parts "Dim views As New List ( oF View)").names,
      node.simpleName = "List" ∧ node.isGeneric = true ∧
        ∃ behind, IsBehind
            (mask "Dim views As New List ( oF View)".toList) node.span behind ∧
          (HasOf behind ∨ HasLongerWord behind) ∧
          ¬(HasOf behind ∧ HasLongerWord behind) := by
  let node : NameNode :=
    { simpleName := "List"
      qualifier := none
      context := .simple
      isGeneric := true
      span := ⟨17, 21⟩
      fullSpan := ⟨17, 21⟩ }
  have hNode : node ∈ (parts "Dim views As New List ( oF View)").names := by
    decide +kernel
  rcases isGeneric_iff hNode with ⟨behind, hBehind, hGeneric, hApart⟩
  exact ⟨node, hNode, rfl, rfl, behind, hBehind, hGeneric.mp rfl, hApart⟩

/- An argument whose name starts with the letters counts, too. -/
theorem not_forall_isGeneric_iff_hasOf :
    ¬∀ (text : String), ∀ node ∈ (parts text).names, ∀ behind,
      IsBehind (mask text.toList) node.span behind →
        (node.isGeneric = true ↔ HasOf behind) := by
  intro h
  let node : NameNode :=
    { simpleName := "GetView"
      qualifier := none
      context := .simple
      isGeneric := true
      span := ⟨4, 11⟩
      fullSpan := ⟨4, 11⟩ }
  have hNode : node ∈ (parts "x = GetView(offset)").names := by
    decide +kernel
  have hBehind : IsBehind (mask "x = GetView(offset)".toList) node.span
      "(offset)".toList :=
    ⟨"x = GetView".toList, by decide +kernel, by decide +kernel⟩
  have hLonger : HasLongerWord "(offset)".toList :=
    ⟨"fset)".toList, ⟨[], [], ['o', 'f'], by decide +kernel, by simp, by simp,
      by decide⟩, by decide +kernel⟩
  exact hLonger.not_hasOf ((h _ node hNode _ hBehind).mp rfl)

end Retarget.VisualBasic
