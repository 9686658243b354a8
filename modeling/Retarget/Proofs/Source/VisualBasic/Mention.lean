import Mathlib.Data.List.TakeWhile
import Retarget.Source.VisualBasic.Mention
import Retarget.Proofs.Source.Name
import Retarget.Proofs.Source.VisualBasic.Mask

/-
  This file shows that the words of a blanked Visual Basic
  text lie in the text itself, one after the other, and that
  every name that is reported is one of them.

  Key definitions include:
    * `VisualBasic.Spells`

  Key statements include:
    * `VisualBasic.tokens_row`
    * `VisualBasic.tokens_spells`
    * `VisualBasic.readToken_cases`
    * `VisualBasic.readTokens_isAt`
    * `VisualBasic.readTokens_words`
-/

namespace Retarget.VisualBasic

open Text

------------------------------------------------------------
-- Words
------------------------------------------------------------

theorem isLetterOrDigit_of_isLetter
    {c : Char}
    (h : isLetter c = true) :
    isLetterOrDigit c = true := by
  simp only [isLetter, isAsciiLetter, isLetterOrDigit, isAsciiAlphanumeric,
    Bool.or_eq_true] at h ⊢
  tauto

theorem not_mem_word
    {c d : Char}
    (rest : List Char)
    (hLetter : isLetter c = true)
    (hOther : isLetterOrDigit d = false) :
    d ∉ c :: rest.takeWhile isLetterOrDigit := by
  intro hMem
  have hWord : isLetterOrDigit d = true := by
    rcases List.mem_cons.mp hMem with rfl | hRest
    · exact isLetterOrDigit_of_isLetter hLetter
    · exact List.mem_takeWhile_imp hRest
  rw [hOther] at hWord
  cases hWord

/-
  A word starts the text, on its own or in brackets, and
  holds neither blanks nor newlines.
-/
theorem wordAt?_eq_some
    {cs name taken : List Char}
    (h : wordAt? cs = some (name, taken)) :
    taken ≠ [] ∧ taken <+: cs ∧ ' ' ∉ taken ∧ '\n' ∉ taken ∧
      (taken = name ∨ taken = '[' :: name ++ [']']) := by
  revert h
  fun_cases wordAt? cs with
  | case2 c r hLetter word behind hBehind =>
      simp only [Option.some.injEq, Prod.mk.injEq]
      rintro ⟨rfl, rfl⟩
      have hPrefix : '[' :: word ++ [']'] <+: '[' :: c :: r :=
        ⟨behind, by simp [word, ← hBehind]⟩
      refine ⟨by simp, hPrefix, ?_, ?_, Or.inr rfl⟩
      · simpa [word] using not_mem_word r hLetter (d := ' ') (by decide)
      · simpa [word] using not_mem_word r hLetter (d := '\n') (by decide)
  | case5 c r _ hLetter =>
      simp only [Option.some.injEq, Prod.mk.injEq]
      rintro ⟨rfl, rfl⟩
      refine ⟨by simp, ?_, not_mem_word r hLetter (by decide),
        not_mem_word r hLetter (by decide), Or.inl rfl⟩
      exact List.cons_prefix_cons.mpr ⟨rfl, List.takeWhile_prefix _⟩
  | _ => rintro ⟨⟩

------------------------------------------------------------
-- Rows of words
------------------------------------------------------------

variable {text : List Char}
variable {words : List Span}

/- The text at a span is a name, or the name in brackets. -/
def Spells (text : List Char) (s : Span) (name : String) : Prop :=
  slice? s.start s.stop text = some name.toList ∨
    slice? s.start s.stop text = some ('[' :: name.toList ++ [']'])

/- A word of the blanked text is a word of the text. -/
theorem pieces_of_wordAt?
    {passed rest name taken : List Char}
    (hMask : mask text = passed ++ rest)
    (hWord : wordAt? rest = some (name, taken)) :
    ∃ p q, p ++ taken ++ q = text ∧ byteLength p = byteLength passed := by
  rcases wordAt?_eq_some hWord with ⟨hTaken, ⟨behind, rfl⟩, hSpace, -⟩
  rw [← List.append_assoc] at hMask
  exact (isMask_mask text).exists_pieces hMask hTaken hSpace

theorem spells_of_wordAt?
    {passed rest name taken : List Char}
    (hMask : mask text = passed ++ rest)
    (hWord : wordAt? rest = some (name, taken)) :
    Spells text
      ⟨byteLength passed, byteLength passed + byteLength taken⟩
      (String.ofList name) := by
  rcases pieces_of_wordAt? hMask hWord with ⟨p, q, rfl, hLength⟩
  rcases wordAt?_eq_some hWord with ⟨-, -, -, -, hWritten⟩
  have hSlice := slice?_pieces p taken q
  rw [byteLength_append, hLength] at hSlice
  rw [Spells, String.toList_ofList, hSlice]
  exact hWritten.imp (congrArg some) (congrArg some)

theorem isIn_of_wordAt?
    {passed rest name taken : List Char}
    (hMask : mask text = passed ++ rest)
    (hWord : wordAt? rest = some (name, taken)) :
    Span.IsIn text
      ⟨byteLength passed, byteLength passed + byteLength taken⟩ := by
  rcases pieces_of_wordAt? hMask hWord with ⟨p, q, rfl, hLength⟩
  rw [← hLength, ← byteLength_append]
  exact Span.isIn_pieces p taken q

theorem isWord_of_wordAt?
    {passed rest name taken : List Char}
    (hMask : mask text = passed ++ rest)
    (hWord : wordAt? rest = some (name, taken)) :
    Span.IsWord text
      ⟨byteLength passed, byteLength passed + byteLength taken⟩ := by
  rcases pieces_of_wordAt? hMask hWord with ⟨p, q, rfl, hLength⟩
  rcases wordAt?_eq_some hWord with ⟨hTaken, -, -, hNewline, -⟩
  rw [← hLength, ← byteLength_append]
  exact Span.isWord_pieces p q hTaken hNewline

/-
  The words behind the characters of the blanked text that
  have been passed.
-/
theorem tokensFrom_row
    (n : Nat)
    {offset : Nat}
    (gap : Option (List Char))
    (line : List Char)
    {passed rest : List Char}
    (hMask : mask text = passed ++ rest)
    (hOffset : byteLength passed = offset) :
    Span.Row text offset (byteLength text)
        ((tokensFrom n offset gap line rest).map Token.span) ∧
      ∀ t ∈ tokensFrom n offset gap line rest,
        t.span.IsWord text ∧ Spells text t.span t.text := by
  induction n generalizing offset gap line passed rest with
  | zero => exact ⟨Span.Row.nil _ _ _, by simp [tokensFrom]⟩
  | succ n ih =>
      cases rest with
      | nil => exact ⟨Span.Row.nil _ _ _, by simp [tokensFrom]⟩
      | cons c r =>
          rw [tokensFrom]
          split
          · rename_i name taken hWord
            have hIn := isIn_of_wordAt? hMask hWord
            have hIsWord := isWord_of_wordAt? hMask hWord
            have hSpells := spells_of_wordAt? hMask hWord
            rcases wordAt?_eq_some hWord with ⟨-, ⟨behind, hRest⟩, -⟩
            rw [← hRest, List.drop_left]
            rw [← hRest, ← List.append_assoc] at hMask
            rw [hOffset] at hIn hIsWord hSpells
            have hLength : offset + byteLength taken ≤ byteLength text := by
              rw [← byteLength_mask text, hMask, byteLength_append,
                byteLength_append, hOffset]
              omega
            have hNext := ih (some []) (taken.reverse ++ line) hMask
              (by rw [byteLength_append, hOffset])
            constructor
            · exact (Span.Row.singleton hIn le_rfl le_rfl).append hNext.1
                (Nat.le_add_right _ _) hLength
            · exact List.forall_mem_cons.mpr ⟨⟨hIsWord, hSpells⟩, hNext.2⟩
          · have hNext := ih (gap.map (c :: ·))
              (if c == '\n' then [] else c :: line)
              (hMask.trans (List.append_cons passed c r))
              (by rw [byteLength_append, hOffset, byteLength, byteLength])
            exact ⟨hNext.1.mono_start (Nat.le_add_right _ _), hNext.2⟩

theorem tokens_row
    (text : List Char) :
    Span.Row text 0 (byteLength text)
      ((tokens (mask text)).map Token.span) :=
  (tokensFrom_row _ none [] (List.nil_append _).symm rfl).1

theorem tokens_isWord
    (text : List Char) :
    ∀ s ∈ (tokens (mask text)).map Token.span, s.IsWord text := by
  intro s hs
  rcases List.mem_map.mp hs with ⟨t, ht, rfl⟩
  exact ((tokensFrom_row _ none [] (List.nil_append _).symm rfl).2 t ht).1

theorem tokens_spells
    (text : List Char) :
    ∀ t ∈ tokens (mask text), Spells text t.span t.text :=
  fun t ht =>
    ((tokensFrom_row _ none [] (List.nil_append _).symm rfl).2 t ht).2

------------------------------------------------------------
-- Names
------------------------------------------------------------

/-
  A word leaves no dotted name open, or it leaves one that
  goes on with the one before or starts anew.  What it
  mentions is the word itself behind the name that it goes on
  with.
-/
theorem readToken_cases
    (chain : Option Chain)
    (previous : Option Token)
    (t : Token) :
    readToken chain previous t = (none, none) ∨
      ∃ left longer name?,
        (∀ c ∈ left, c ∈ chain) ∧
        readToken chain previous t = (some longer, name?) ∧
        longer.start = (left.map Chain.start).getD t.span.start ∧
        ∀ name ∈ name?, ∃ context, name = mention t left context := by
  fun_cases readToken chain previous t with
  | case1 => exact Or.inl rfl
  | case2 _ c hChain | case3 _ c hChain =>
      have hLeft : ∀ d ∈ some c, d ∈ chain := by
        rintro d ⟨⟩
        exact (Option.filter_eq_some_iff.mp hChain).1
      exact Or.inr ⟨some c, _, _, hLeft, rfl, rfl, by simp⟩
  | case4 | case5 | case6 =>
      exact Or.inr ⟨none, _, _, by simp, rfl, rfl, by simp⟩

/- A name is the word that has been read. -/
theorem readToken_snd
    {chain : Option Chain}
    {previous : Option Token}
    {t : Token}
    {name : NameNode}
    (h : (readToken chain previous t).2 = some name) :
    ∃ left context, name = mention t left context ∧ ∀ c ∈ left, c ∈ chain := by
  rcases readToken_cases chain previous t with
    hRead | ⟨left, longer, name?, hLeft, hRead, -, hName⟩
  · rw [hRead] at h
    cases h
  · rw [hRead] at h
    rcases hName name h with ⟨context, hName⟩
    exact ⟨left, context, hName, hLeft⟩

/- A dotted name starts at the word that has been read or before. -/
theorem readToken_fst
    {chain : Option Chain}
    {previous : Option Token}
    {t : Token}
    {longer : Chain}
    (h : (readToken chain previous t).1 = some longer) :
    longer.start = t.span.start ∨ ∃ c ∈ chain, longer.start = c.start := by
  rcases readToken_cases chain previous t with
    hRead | ⟨left, open?, name?, hLeft, hRead, hStart, -⟩
  · rw [hRead] at h
    cases h
  · rw [hRead] at h
    cases h
    cases left with
    | none => exact Or.inl hStart
    | some c => exact Or.inr ⟨c, hLeft c rfl, hStart⟩

/- The dotted name starts at a word in front of some others. -/
def Leads
    (words : List Span)
    (tokens : List Token)
    (chain : Option Chain) : Prop :=
  ∀ c ∈ chain, ∃ first ∈ words, first.start = c.start ∧
    ∀ t ∈ tokens, first.start ≤ t.span.start

theorem Leads.isAt
    {chain left : Option Chain}
    {t : Token}
    {rest : List Token}
    (h : Leads words (t :: rest) chain)
    (hWord : t.span ∈ words)
    (hLeft : ∀ c ∈ left, c ∈ chain)
    (context : NameContext) :
    (mention t left context).IsAt words where
  span_mem := hWord
  isFull := by
    cases left with
    | none => exact Or.inl rfl
    | some c =>
        rcases h c (hLeft c rfl) with ⟨first, hFirst, hStart, hBefore⟩
        refine Or.inr ⟨first, hFirst, hBefore t List.mem_cons_self, ?_⟩
        rw [hStart]
        rfl
  eq_of_unqualified hNone := by
    cases left with
    | none => rfl
    | some c => cases hNone

/- A word that has been read leads to those behind it. -/
theorem Leads.readToken
    {chain : Option Chain}
    {t : Token}
    {rest : List Token}
    (h : Leads words (t :: rest) chain)
    (hWord : t.span ∈ words)
    (hBehind : ∀ u ∈ rest, t.span.start ≤ u.span.start)
    (previous : Option Token) :
    Leads words rest (VisualBasic.readToken chain previous t).1 := by
  intro longer hLonger
  rcases readToken_fst hLonger with hStart | ⟨c, hc, hStart⟩
  · exact ⟨t.span, hWord, hStart.symm, hBehind⟩
  · rcases h c hc with ⟨first, hFirst, hSame, hBefore⟩
    exact ⟨first, hFirst, hSame.trans hStart.symm, fun u hu =>
      hBefore u (List.mem_cons_of_mem t hu)⟩

theorem readTokens_isAt
    {chain : Option Chain}
    {previous : Option Token}
    {tokens : List Token}
    (hChain : Leads words tokens chain)
    (hWords : ∀ t ∈ tokens, t.span ∈ words)
    (hOrder : tokens.Pairwise fun t u => t.span.start ≤ u.span.start) :
    ∀ name ∈ readTokens chain previous tokens, name.IsAt words := by
  induction tokens generalizing chain previous with
  | nil => simp [readTokens]
  | cons t rest ih =>
      rcases List.forall_mem_cons.mp hWords with ⟨hWord, hRest⟩
      rcases List.pairwise_cons.mp hOrder with ⟨hBehind, hLater⟩
      intro name hName
      rcases List.mem_append.mp hName with hFirst | hAfter
      · rcases readToken_snd (Option.mem_toList.mp hFirst) with
          ⟨left, context, rfl, hLeft⟩
        exact hChain.isAt hWord hLeft context
      · exact ih (hChain.readToken hWord hBehind previous) hRest hLater
          name hAfter

/- Every word is reported at most once, and in order. -/
theorem readTokens_words
    (chain : Option Chain)
    (previous : Option Token)
    (tokens : List Token) :
    ((readTokens chain previous tokens).map fun n =>
        (n.span, n.simpleName)).Sublist
      (tokens.map fun t => (t.span, t.text)) := by
  induction tokens generalizing chain previous with
  | nil => simp [readTokens]
  | cons t rest ih =>
      have hRest := ih (readToken chain previous t).1 (some t)
      cases hRead : (readToken chain previous t).2 with
      | none =>
          simp only [readTokens, hRead, Option.toList_none, List.nil_append,
            List.map_cons]
          exact hRest.cons _
      | some name =>
          rcases readToken_snd hRead with ⟨left, context, rfl, -⟩
          simp only [readTokens, hRead, Option.toList_some,
            List.singleton_append, List.map_cons]
          exact hRest.cons_cons _

theorem readTokens_spans
    (chain : Option Chain)
    (previous : Option Token)
    (tokens : List Token) :
    ((readTokens chain previous tokens).map NameNode.span).Sublist
      (tokens.map Token.span) := by
  have hWords := (readTokens_words chain previous tokens).map Prod.fst
  simpa only [List.map_map, Function.comp_def] using hWords

end Retarget.VisualBasic
