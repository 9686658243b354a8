import Retarget.Source.VisualBasic.Parts
import Retarget.Proofs.Source.VisualBasic.Fold.Line

/-
  This file shows that what is reported about a Visual Basic
  file does not count letter case.  The same words are read
  at the same places, and the names that they make up are
  the same with small letters only.

  Key definitions include:
    * `NameNode.fold`
    * `SourceParts.fold`
    * `VisualBasic.Token.fold`

  Key statements include:
    * `VisualBasic.tokens_fold`
    * `VisualBasic.mentions_fold`
    * `VisualBasic.parts_fold`
-/

namespace Retarget

open Text

def NameNode.fold (node : NameNode) : NameNode :=
  { node with
    simpleName := lowerAscii node.simpleName
    qualifier := node.qualifier.map lowerAscii }

def SourceParts.fold (parts : SourceParts) : SourceParts :=
  { names := parts.names.map NameNode.fold
    imports := parts.imports.map lowerAscii
    importSpans := parts.importSpans
    declarations := parts.declarations.map TypeDeclaration.fold
    namespaces := parts.namespaces.map NamespaceScope.fold }

namespace VisualBasic

------------------------------------------------------------
-- Words
------------------------------------------------------------

@[simp]
theorem isLetter_lowerAsciiChar
    (c : Char) :
    isLetter (lowerAsciiChar c) = isLetter c :=
  apply_lowerAsciiChar (by decide) c

@[simp]
theorem isLetterOrDigit_lowerAsciiChar
    (c : Char) :
    isLetterOrDigit (lowerAsciiChar c) = isLetterOrDigit c :=
  apply_lowerAsciiChar (by decide) c

def Token.fold (t : Token) : Token :=
  { t with
    text := lowerAscii t.text
    gap := t.gap.map Text.fold
    lineBefore := Text.fold t.lineBefore
    behind := Text.fold t.behind }

theorem wordAt?_bracket
    (c : Char)
    (r : List Char) :
    wordAt? ('[' :: c :: r) =
      if isLetter c && (r.dropWhile isLetterOrDigit).head? == some ']' then
        some (c :: r.takeWhile isLetterOrDigit,
          '[' :: c :: r.takeWhile isLetterOrDigit ++ [']'])
      else none := by
  rw [wordAt?]
  cases isLetter c with
  | false => rfl
  | true =>
      cases r.dropWhile isLetterOrDigit with
      | nil => rfl
      | cons d rest =>
          by_cases hClosed : d = ']'
          · subst hClosed
            rfl
          · simp [hClosed]

theorem wordAt?_plain
    {c : Char}
    (hc : c ≠ '[')
    (r : List Char) :
    wordAt? (c :: r) =
      if isLetter c then
        some (c :: r.takeWhile isLetterOrDigit,
          c :: r.takeWhile isLetterOrDigit)
      else none := by
  simp [wordAt?, hc]

theorem wordAt?_fold
    (cs : List Char) :
    wordAt? (fold cs) = (wordAt? cs).map (Prod.map fold fold) := by
  cases cs with
  | nil => rfl
  | cons c r =>
      by_cases hOpened : c = '['
      · subst hOpened
        have hSelf : lowerAsciiChar '[' = '[' := by decide
        cases r with
        | nil => rfl
        | cons c r =>
            rw [fold_cons, fold_cons, hSelf, wordAt?_bracket, wordAt?_bracket,
              isLetter_lowerAsciiChar,
              dropWhile_fold isLetterOrDigit_lowerAsciiChar,
              takeWhile_fold isLetterOrDigit_lowerAsciiChar,
              beq_head?_fold (by decide)]
            split
            · have hClosed : fold [']'] = [']'] := by decide
              simp [hSelf, hClosed]
            · rfl
      · have hOther : lowerAsciiChar c ≠ '[' := by
          rw [← beq_eq_false_iff_ne, beq_lowerAsciiChar (by decide),
            beq_eq_false_iff_ne]
          exact hOpened
        rw [fold_cons, wordAt?_plain hOther, wordAt?_plain hOpened,
          isLetter_lowerAsciiChar,
          takeWhile_fold isLetterOrDigit_lowerAsciiChar]
        split <;> rfl

theorem tokensFrom_fold
    (n offset : Nat)
    (gap : Option (List Char))
    (line cs : List Char) :
    tokensFrom n offset (gap.map fold) (fold line) (fold cs) =
      (tokensFrom n offset gap line cs).map Token.fold := by
  induction n generalizing offset gap line cs with
  | zero => rfl
  | succ n ih =>
      cases cs with
      | nil => rfl
      | cons c r =>
          have hWord := wordAt?_fold (c :: r)
          rw [fold_cons] at hWord
          rw [fold_cons, tokensFrom, tokensFrom, hWord]
          cases wordAt? (c :: r) with
          | some found =>
              obtain ⟨name, taken⟩ := found
              have hRest := ih (offset + byteLength taken) (some [])
                (taken.reverse ++ line) ((c :: r).drop taken.length)
              have hBehind := drop_fold taken.length (c :: r)
              rw [fold_append, ← reverse_fold, ← hBehind] at hRest
              rw [fold_cons] at hBehind
              have hGap : (gap.map fold).map List.reverse =
                  (gap.map List.reverse).map fold := by
                cases gap <;> simp
              simp only [Option.map_some, Prod.map_apply, byteLength_fold,
                length_fold, List.map_cons]
              refine congrArg₂ List.cons ?_ hRest
              simp [Token.fold, -Option.map_map, hGap, hBehind]
          | none =>
              have hLine : (if lowerAsciiChar c == '\n' then []
                  else lowerAsciiChar c :: fold line) =
                    fold (if c == '\n' then [] else c :: line) := by
                rw [beq_lowerAsciiChar (by decide)]
                split <;> rfl
              have hRest := ih (offset + c.utf8Size) (gap.map (c :: ·))
                (if c == '\n' then [] else c :: line) r
              simp only [Option.map_none, utf8Size_lowerAsciiChar, hLine]
              rw [← hRest]
              cases gap <;> rfl

theorem tokens_fold
    (masked : List Char) :
    tokens (fold masked) = (tokens masked).map Token.fold := by
  rw [tokens, length_fold]
  exact tokensFrom_fold _ 0 none [] masked

------------------------------------------------------------
-- Surroundings
------------------------------------------------------------

namespace Token

variable (t : Token)

theorem onSameLine_fold :
    t.fold.onSameLine = t.onSameLine := by
  rw [onSameLine, onSameLine, fold]
  cases t.gap with
  | none => rfl
  | some g => exact congrArg not (contains_fold (by decide) g)

theorem followsDot_fold :
    t.fold.followsDot = t.followsDot := by
  rw [followsDot, followsDot, onSameLine_fold, fold]
  cases t.gap with
  | none => rfl
  | some g =>
      dsimp only [Option.map_some, Option.any_some]
      rw [trimChars_fold, beq_fold (by decide)]

theorem dotFollows_fold :
    t.fold.dotFollows = t.dotFollows := by
  rw [dotFollows, dotFollows, fold]
  dsimp only
  rw [dropWhile_fold (apply_lowerAsciiChar (by decide))]
  exact beq_head?_fold (by decide) _

theorem endsLineInDot_fold :
    t.fold.endsLineInDot = t.endsLineInDot := by
  rw [endsLineInDot, endsLineInDot, fold,
    dropWhile_fold isBlank_lowerAsciiChar]
  exact beq_head?_fold (by decide) _

theorem closesAttribute_fold :
    t.fold.closesAttribute = t.closesAttribute := by
  rw [closesAttribute, closesAttribute, fold]
  dsimp only
  rw [dropWhile_fold (apply_lowerAsciiChar (by decide)),
    any_head?_fold (apply_lowerAsciiChar (by decide))]

theorem hasTypeArguments_fold :
    t.fold.hasTypeArguments = t.hasTypeArguments := by
  rw [hasTypeArguments, hasTypeArguments, fold,
    dropWhile_fold isBlank_lowerAsciiChar]
  cases t.behind.dropWhile isBlank with
  | nil => rfl
  | cons c r =>
      by_cases hOpened : c = '('
      · subst hOpened
        change ((((Text.fold r).dropWhile isBlank).take 2).map
            lowerAsciiChar == ['o', 'f']) =
          (((r.dropWhile isBlank).take 2).map lowerAsciiChar == ['o', 'f'])
        rw [dropWhile_fold isBlank_lowerAsciiChar, take_fold, ← Text.fold,
          fold_fold]
        rfl
      · have hOther : lowerAsciiChar c ≠ '(' := by
          rw [← beq_eq_false_iff_ne, beq_lowerAsciiChar (by decide),
            beq_eq_false_iff_ne]
          exact hOpened
        simp [hOpened, hOther]

theorem chainContext_fold
    (typePosition : Bool) :
    t.fold.chainContext typePosition = t.chainContext typePosition := by
  let lead := String.ofList (trimChars t.lineBefore.reverse)
  have hLead :
      String.ofList (trimChars t.fold.lineBefore.reverse) =
        lowerAscii lead := by
    rw [fold, reverse_fold, trimChars_fold, lowerAscii_ofList]
  unfold chainContext
  rw [hLead, closesAttribute_fold]
  dsimp only
  rw [equalsIgnoringAsciiCase_lowerAscii, lower_lowerAscii, hasEnd_lowerAscii (by decide),
    hasEnd_lowerAscii (by decide), contains_lowerAscii (by decide),
    contains_lowerAscii (by decide)]

end Token

------------------------------------------------------------
-- Dotted names
------------------------------------------------------------

def Chain.fold (chain : Chain) : Chain :=
  { chain with words := chain.words.map lowerAscii }

theorem Chain.text_fold
    (chain : Chain) :
    chain.fold.text = lowerAscii chain.text := by
  rw [text, text, fold, ← List.map_reverse, lowerAscii_join]

theorem mention_fold
    (t : Token)
    (chain : Option Chain)
    (context : NameContext) :
    mention t.fold (chain.map Chain.fold) context =
      (mention t chain context).fold := by
  rw [mention, mention, NameNode.fold, Token.hasTypeArguments_fold]
  cases chain with
  | none => rfl
  | some chain =>
      dsimp only [Option.map_some]
      rw [Chain.text_fold]
      rfl

theorem continuedContext_fold
    (chain : Chain)
    (t : Token) :
    continuedContext chain.fold t.fold = continuedContext chain t := by
  rw [continuedContext, Token.dotFollows_fold]
  rfl

theorem firstContext_fold
    (context : NameContext)
    (t : Token) :
    firstContext context t.fold = firstContext context t := by
  cases context <;> simp [firstContext, Token.dotFollows_fold]

theorem readToken_fold
    (chain : Option Chain)
    (previous : Option Token)
    (t : Token) :
    readToken (chain.map Chain.fold) (previous.map Token.fold) t.fold =
      Prod.map (Option.map Chain.fold) (Option.map NameNode.fold)
        (readToken chain previous t) := by
  have hChain : (chain.map Chain.fold).filter (fun _ => t.fold.followsDot) =
      (chain.filter fun _ => t.followsDot).map Chain.fold := by
    rw [Token.followsDot_fold]
    cases chain with
    | none => rfl
    | some chain => cases t.followsDot <;> rfl
  have hKeyword :
      (((previous.map Token.fold).filter fun p =>
          p.isKeyword && t.fold.onSameLine).map fun p => lowerAscii p.text) =
        (previous.filter fun p =>
          p.isKeyword && t.onSameLine).map fun p => lowerAscii p.text := by
    rw [Token.onSameLine_fold]
    cases previous with
    | none => rfl
    | some p =>
        have hText : lowerAscii p.fold.text = lowerAscii p.text :=
          lowerAscii_idem p.text
        dsimp only [Option.map_some, Option.filter_some]
        rw [apply_ite (Option.map fun p : Token => lowerAscii p.text),
          apply_ite (Option.map fun p : Token => lowerAscii p.text)]
        dsimp only [Option.map_some]
        rw [hText]
        rfl
  have hGap : t.fold.gap.any (fun g => g.all isBlank) =
      t.gap.any fun g => g.all isBlank := by
    rw [Token.fold]
    cases t.gap with
    | none => rfl
    | some g => exact all_fold isBlank_lowerAsciiChar g
  unfold readToken
  rw [hChain]
  dsimp only
  rw [hKeyword, hGap, Token.endsLineInDot_fold]
  have hKind : t.fold.isKeyword = t.isKeyword := rfl
  rw [hKind]
  split
  · rfl
  · cases chain.filter fun _ => t.followsDot with
    | some chain =>
        have hMention := mention_fold t (some chain) (continuedContext chain t)
        have hDeclared : chain.fold.isDeclared = chain.isDeclared := rfl
        dsimp only [Option.map_some] at hMention ⊢
        rw [hDeclared, continuedContext_fold, hMention]
        split <;> rfl
    | none =>
        have hMention := fun context => mention_fold t none context
        dsimp only [Option.map_none] at hMention ⊢
        simp only [hMention, Token.chainContext_fold, firstContext_fold]
        split
        · rfl
        · split <;> rfl

theorem readTokens_fold
    (chain : Option Chain)
    (previous : Option Token)
    (tokens : List Token) :
    readTokens (chain.map Chain.fold) (previous.map Token.fold)
        (tokens.map Token.fold) =
      (readTokens chain previous tokens).map NameNode.fold := by
  induction tokens generalizing chain previous with
  | nil => rfl
  | cons t rest ih =>
      rw [List.map_cons, readTokens, readTokens, readToken_fold]
      generalize readToken chain previous t = read
      obtain ⟨next, node⟩ := read
      dsimp only [Prod.map_apply]
      rw [List.map_append, ← ih next (some t)]
      cases node <;> rfl

theorem mentions_fold
    (masked : List Char) :
    mentions (fold masked) = (mentions masked).map NameNode.fold := by
  rw [mentions, tokens_fold]
  exact readTokens_fold none none _

------------------------------------------------------------
-- Files
------------------------------------------------------------

/- A file with small letters only is reported with small letters. -/
theorem parts_fold
    (text : String) :
    parts (lowerAscii text) = (parts text).fold := by
  have hMasked : mask (lowerAscii text).toList = fold (mask text.toList) := by
    rw [toList_lowerAscii, mask_fold]
  have hTargets : ∀ lines : List (Span × Option String),
      (lines.map (Prod.map id (Option.map lowerAscii))).filterMap Prod.snd =
        (lines.filterMap Prod.snd).map lowerAscii := by
    intro lines
    rw [List.filterMap_map, List.map_filterMap]
    rfl
  have hSpans : ∀ lines : List (Span × Option String),
      (lines.map (Prod.map id (Option.map lowerAscii))).map Prod.fst =
        lines.map Prod.fst := by
    intro lines
    rw [List.map_map]
    rfl
  unfold parts
  rw [hMasked]
  dsimp only
  rw [importLines_fold, namespaceScopes_fold, mentions_fold,
    typeDeclarations_fold, hTargets, hSpans]
  rfl

end VisualBasic

end Retarget
