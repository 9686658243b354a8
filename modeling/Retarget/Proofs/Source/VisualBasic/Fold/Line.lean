import Mathlib.Data.List.Basic
import Retarget.Source.VisualBasic.Line
import Retarget.Source.VisualBasic.Mask
import Retarget.Proofs.Text.Fold

/-
  This file shows that blanking a Visual Basic text and
  reading its declaration lines do not count letter case.  A
  text with small letters only is blanked in the same places
  and has the same lines, with small letters only.

  Key definitions include:
    * `TypeDeclaration.fold`
    * `NamespaceScope.fold`

  Key statements include:
    * `VisualBasic.mask_fold`
    * `VisualBasic.importLines_fold`
    * `VisualBasic.namespaceScopes_fold`
    * `VisualBasic.typeDeclarations_fold`
-/

namespace Retarget

open Text

def TypeDeclaration.fold (d : TypeDeclaration) : TypeDeclaration :=
  ⟨d.scope.map lowerAscii, lowerAscii d.name⟩

def NamespaceScope.fold (s : NamespaceScope) : NamespaceScope :=
  ⟨lowerAscii s.name, s.span⟩

namespace VisualBasic

variable {p : Char → Bool}

------------------------------------------------------------
-- Blanking
------------------------------------------------------------

@[simp]
theorem blanks_lowerAsciiChar
    (c : Char) :
    blanks (lowerAsciiChar c) = blanks c := by
  rw [blanks, utf8Size_lowerAsciiChar, blanks]

theorem fold_blanks
    (c : Char) :
    fold (blanks c) = blanks c := by
  rw [fold, blanks, List.map_replicate]
  rfl

theorem startsRemark_fold
    (cs : List Char) :
    startsRemark (fold cs) = startsRemark cs := by
  match cs with
  | [] => rfl
  | [_] => rfl
  | [_, _] => rfl
  | [_, _, _] => rfl
  | r :: e :: m :: c :: rest => simp [startsRemark]

theorem maskStart_fold
    (fresh : Bool)
    (previous : Option Char)
    (c : Char)
    (rest : List Char) :
    maskStart fresh (previous.map lowerAsciiChar) (lowerAsciiChar c)
        (fold rest) =
      maskStart fresh previous c rest := by
  have hPrevious :
      ((previous.map lowerAsciiChar).any fun p =>
        isAsciiBlank p || p == ':') =
          previous.any fun p => isAsciiBlank p || p == ':' := by
    cases previous with
    | none => rfl
    | some p =>
        rw [Option.map_some, Option.any_some, Option.any_some,
          isAsciiBlank_lowerAsciiChar, beq_lowerAsciiChar (by decide)]
  have hRemark := startsRemark_fold (c :: rest)
  rw [fold_cons] at hRemark
  unfold maskStart
  rw [hPrevious, hRemark, beq_lowerAsciiChar (by decide),
    beq_lowerAsciiChar (by decide), beq_lowerAsciiChar (by decide)]

theorem maskFrom_fold
    (mode : MaskMode)
    (fresh : Bool)
    (previous : Option Char)
    (text : List Char) :
    maskFrom mode fresh (previous.map lowerAsciiChar) (fold text) =
      fold (maskFrom mode fresh previous text) := by
  induction text generalizing mode fresh previous with
  | nil => rfl
  | cons c r ih =>
      have hRest : ∀ mode fresh,
          maskFrom mode fresh (some (lowerAsciiChar c)) (fold r) =
            fold (maskFrom mode fresh (some c) r) :=
        fun mode fresh => ih mode fresh (some c)
      have hNext := beq_head?_fold (x := '"') (by decide) r
      have hStart := maskStart_fold fresh previous c r
      simp only [fold_cons, maskFrom, hRest, hNext, hStart,
        beq_lowerAsciiChar (x := '\n') (by decide),
        beq_lowerAsciiChar (x := '"') (by decide),
        beq_lowerAsciiChar (x := ' ') (by decide),
        beq_lowerAsciiChar (x := '\t') (by decide),
        blanks_lowerAsciiChar]
      split
      · rfl
      · cases mode with
        | comment => simp [fold_blanks]
        | doubled => simp [fold_blanks]
        | literal =>
            dsimp only
            split
            · split <;> simp [fold_blanks]
            · simp [fold_blanks]
        | code =>
            dsimp only
            split
            · rfl
            · cases maskStart fresh previous c r <;> simp [fold_blanks]

theorem mask_fold
    (text : List Char) :
    mask (fold text) = fold (mask text) :=
  maskFrom_fold .code true none text

------------------------------------------------------------
-- Words of a line
------------------------------------------------------------

@[simp]
theorem foldLetter_lowerAsciiChar
    (c : Char) :
    foldLetter (lowerAsciiChar c) = foldLetter c :=
  apply_lowerAsciiChar (by decide) c

@[simp]
theorem startsName_lowerAsciiChar
    (c : Char) :
    startsName (lowerAsciiChar c) = startsName c :=
  apply_lowerAsciiChar (by decide) c

@[simp]
theorem isIndent_lowerAsciiChar
    (c : Char) :
    isIndent (lowerAsciiChar c) = isIndent c :=
  apply_lowerAsciiChar (by decide) c

theorem takeKeyword?_fold
    (keyword cs : List Char) :
    takeKeyword? keyword (fold cs) = (takeKeyword? keyword cs).map fold := by
  have hWord : ∀ cs : List Char,
      (fold cs).map foldLetter = cs.map foldLetter := by
    simp [fold]
  unfold takeKeyword?
  rw [take_fold, hWord, drop_fold]
  split <;> rfl

theorem takeIndent?_fold
    (cs : List Char) :
    takeIndent? (fold cs) = (takeIndent? cs).map fold := by
  cases cs with
  | nil => rfl
  | cons c r =>
      rw [fold_cons, takeIndent?, takeIndent?, isIndent_lowerAsciiChar,
        dropWhile_fold isIndent_lowerAsciiChar]
      split <;> rfl

theorem takeName?_fold
    (hp : ∀ c, p (lowerAsciiChar c) = p c)
    (cs : List Char) :
    takeName? p (fold cs) = (takeName? p cs).map (Prod.map fold fold) := by
  cases cs with
  | nil => rfl
  | cons c r =>
      rw [fold_cons, takeName?, takeName?, startsName_lowerAsciiChar,
        takeWhile_fold hp, dropWhile_fold hp]
      split <;> rfl

theorem takeDotted?_fold
    (cs : List Char) :
    takeDotted? (fold cs) = (takeDotted? cs).map (Prod.map fold fold) := by
  refine takeName?_fold (fun c => ?_) cs
  rw [isWordChar_lowerAsciiChar, beq_lowerAsciiChar (by decide)]

theorem takeOneOf?_fold
    (keywords : List (List Char))
    (cs : List Char) :
    takeOneOf? keywords (fold cs) = (takeOneOf? keywords cs).map fold := by
  unfold takeOneOf?
  induction keywords with
  | nil => rfl
  | cons k rest ih =>
      have hTake :
          (takeKeyword? k (fold cs)).bind takeIndent? =
            ((takeKeyword? k cs).bind takeIndent?).map fold := by
        rw [takeKeyword?_fold]
        cases takeKeyword? k cs with
        | none => rfl
        | some rest => exact takeIndent?_fold rest
      rw [List.findSome?_cons, List.findSome?_cons, hTake]
      cases (takeKeyword? k cs).bind takeIndent? with
      | none => exact ih
      | some rest => rfl

theorem skipModifiers_fold
    (n : Nat)
    (cs : List Char) :
    skipModifiers n (fold cs) = fold (skipModifiers n cs) := by
  induction n generalizing cs with
  | zero => rfl
  | succ n ih =>
      rw [skipModifiers, skipModifiers, takeOneOf?_fold]
      cases takeOneOf? typeModifiers cs with
      | none => rfl
      | some rest => exact ih rest

------------------------------------------------------------
-- Lines
------------------------------------------------------------

theorem numberLines_fold
    (n : Nat)
    (lines : List (List Char)) :
    numberLines n (lines.map fold) =
      (numberLines n lines).map (Prod.map id fold) := by
  induction lines generalizing n with
  | nil => rfl
  | cons line rest ih =>
      rw [List.map_cons, numberLines, numberLines, byteLength_fold, ih]
      rfl

theorem numberedLines_fold
    (text : List Char) :
    numberedLines (fold text) =
      (numberedLines text).map (Prod.map id fold) := by
  rw [numberedLines, splitOn_fold (by decide), numberLines_fold]
  rfl

theorem aliasTarget?_fold
    (cs : List Char) :
    aliasTarget? (fold cs) = (aliasTarget? cs).map (Prod.map fold fold) := by
  unfold aliasTarget?
  rw [takeName?_fold isWordChar_lowerAsciiChar]
  cases takeName? isWordChar cs with
  | none => rfl
  | some cut =>
      dsimp only [Option.map_some, Option.bind_eq_bind, Option.bind_some,
        Prod.map]
      rw [dropWhile_fold isIndent_lowerAsciiChar]
      cases cut.2.dropWhile isIndent with
      | nil => rfl
      | cons c r =>
          by_cases hEqual : c = '='
          · subst hEqual
            change takeDotted? ((fold r).dropWhile isIndent) =
              (takeDotted? (r.dropWhile isIndent)).map (Prod.map fold fold)
            rw [dropWhile_fold isIndent_lowerAsciiChar, takeDotted?_fold]
          · have hOther : lowerAsciiChar c ≠ '=' := by
              rw [← beq_eq_false_iff_ne, beq_lowerAsciiChar (by decide),
                beq_eq_false_iff_ne]
              exact hEqual
            simp [fold_cons, hEqual, hOther]

theorem importLine?_fold
    (line : List Char) :
    importLine? (fold line) =
      (importLine? line).map (Option.map lowerAscii) := by
  unfold importLine?
  rw [dropWhile_fold isIndent_lowerAsciiChar, takeKeyword?_fold]
  cases takeKeyword? "imports".toList (line.dropWhile isIndent) with
  | none => rfl
  | some rest =>
      dsimp only [Option.map_some, Option.bind_eq_bind, Option.bind_some]
      rw [takeIndent?_fold]
      cases takeIndent? rest with
      | none => rfl
      | some rest =>
          dsimp only [Option.map_some, Option.bind_some]
          rw [aliasTarget?_fold, takeDotted?_fold]
          cases aliasTarget? rest with
          | some target => rfl
          | none =>
              cases takeDotted? rest with
              | none => rfl
              | some cut => simp [Prod.map]

def NamespaceLine.fold : NamespaceLine → NamespaceLine
  | .opening name => .opening (lowerAscii name)
  | .closing => .closing

theorem namespaceEnd?_fold
    (start : List Char) :
    namespaceEnd? (Text.fold start) =
      (namespaceEnd? start).map Text.fold := by
  unfold namespaceEnd?
  rw [takeKeyword?_fold]
  cases takeKeyword? "end".toList start with
  | none => rfl
  | some rest =>
      dsimp only [Option.map_some, Option.bind_eq_bind, Option.bind_some]
      rw [takeIndent?_fold]
      cases takeIndent? rest with
      | none => rfl
      | some rest =>
          dsimp only [Option.map_some, Option.bind_some]
          rw [takeKeyword?_fold]
          cases takeKeyword? "namespace".toList rest with
          | none => rfl
          | some rest =>
              dsimp only [Option.map_some, Option.bind_some]
              rw [any_head?_fold isWordChar_lowerAsciiChar]
              split <;> rfl

theorem namespaceStart?_fold
    (start : List Char) :
    namespaceStart? (Text.fold start) =
      (namespaceStart? start).map (Prod.map Text.fold Text.fold) := by
  unfold namespaceStart?
  rw [takeKeyword?_fold]
  cases takeKeyword? "namespace".toList start with
  | none => rfl
  | some rest =>
      dsimp only [Option.map_some, Option.bind_eq_bind, Option.bind_some]
      rw [takeIndent?_fold]
      cases takeIndent? rest with
      | none => rfl
      | some rest => exact takeDotted?_fold rest

theorem namespaceLine?_fold
    (line : List Char) :
    namespaceLine? (Text.fold line) =
      (namespaceLine? line).map (Prod.map NamespaceLine.fold Text.fold) := by
  unfold namespaceLine?
  dsimp only
  rw [dropWhile_fold isIndent_lowerAsciiChar, namespaceEnd?_fold,
    namespaceStart?_fold]
  cases namespaceEnd? (line.dropWhile isIndent) with
  | some rest => simp [NamespaceLine.fold]
  | none =>
      cases namespaceStart? (line.dropWhile isIndent) with
      | none => rfl
      | some cut => simp [NamespaceLine.fold, Prod.map]

theorem typeLine?_fold
    (line : List Char) :
    typeLine? (fold line) =
      (typeLine? line).map (Prod.map lowerAscii id) := by
  have hStart : skipModifiers (fold line).length
      ((fold line).dropWhile isIndent) =
        fold (skipModifiers line.length (line.dropWhile isIndent)) := by
    rw [length_fold, dropWhile_fold isIndent_lowerAsciiChar,
      skipModifiers_fold]
  unfold typeLine?
  rw [hStart]
  dsimp only
  rw [takeOneOf?_fold]
  cases takeOneOf? typeKeywords
    (skipModifiers line.length (line.dropWhile isIndent)) with
  | none => rfl
  | some rest =>
      dsimp only [Option.map_some, Option.bind_eq_bind, Option.bind_some]
      rw [takeName?_fold isWordChar_lowerAsciiChar, length_fold, length_fold,
        take_fold, byteLength_fold]
      cases takeName? isWordChar rest with
      | none => rfl
      | some cut => simp [Prod.map]

------------------------------------------------------------
-- Reports
------------------------------------------------------------

theorem closeNamespaces_fold
    (length : Nat)
    (opened : List (String × Nat))
    (lines : List (Nat × List Char)) :
    closeNamespaces length (opened.map (Prod.map lowerAscii id))
        (lines.map (Prod.map id fold)) =
      (closeNamespaces length opened lines).map NamespaceScope.fold := by
  induction lines generalizing opened with
  | nil => simp [closeNamespaces, NamespaceScope.fold]
  | cons first rest ih =>
      obtain ⟨start, line⟩ := first
      rw [List.map_cons, Prod.map_apply, id, closeNamespaces,
        closeNamespaces, namespaceLine?_fold]
      cases namespaceLine? line with
      | none => exact ih opened
      | some found =>
          obtain ⟨found, taken⟩ := found
          cases found with
          | opening inner =>
              cases opened with
              | nil => exact ih [(inner, start)]
              | cons o os =>
                  have hNext := ih ((o.1 ++ "." ++ inner, start) :: o :: os)
                  rw [List.map_cons, Prod.map_apply, lowerAscii_dotted] at hNext
                  exact hNext
          | closing =>
              cases opened with
              | nil => exact ih []
              | cons o os =>
                  simp [NamespaceLine.fold, NamespaceScope.fold, ih os]

theorem namespaceScopes_fold
    (masked : List Char) :
    namespaceScopes (fold masked) =
      (namespaceScopes masked).map NamespaceScope.fold := by
  rw [namespaceScopes, byteLength_fold, numberedLines_fold]
  exact closeNamespaces_fold _ [] _

/- Of two namespaces around a place the one that starts later. -/
theorem innermost?_eq
    (scopes : List NamespaceScope)
    (offset : Nat) :
    innermost? scopes offset =
      ((scopes.filter fun s => s.span.Contains offset).foldl
        (fun (best : Option NamespaceScope) s =>
          best.elim (some s) fun b =>
            if b.span.start ≤ s.span.start then some s else some b)
        none).map NamespaceScope.name := by
  rw [innermost?]
  congr 2
  funext best s
  cases best <;> rfl

theorem innermost?_fold
    (scopes : List NamespaceScope)
    (offset : Nat) :
    innermost? (scopes.map NamespaceScope.fold) offset =
      (innermost? scopes offset).map lowerAscii := by
  let nearer := fun (best : Option NamespaceScope) (s : NamespaceScope) =>
    best.elim (some s) fun b =>
      if b.span.start ≤ s.span.start then some s else some b
  have hNearer : ∀ (best : Option NamespaceScope) (s : NamespaceScope),
      nearer (best.map NamespaceScope.fold) s.fold =
        (nearer best s).map NamespaceScope.fold := by
    intro best s
    cases best with
    | none => rfl
    | some b =>
        dsimp only [nearer, Option.map_some, Option.elim_some]
        rw [apply_ite (Option.map NamespaceScope.fold)]
        rfl
  have hFound : ∀ around : List NamespaceScope,
      around.foldl (fun best s => nearer best s.fold)
          ((none : Option NamespaceScope).map NamespaceScope.fold) =
        (around.foldl nearer none).map NamespaceScope.fold :=
    fun _ => List.foldl_hom (Option.map NamespaceScope.fold) hNearer
  rw [innermost?_eq, innermost?_eq, List.filter_map, List.foldl_map]
  refine (congrArg (Option.map NamespaceScope.name) (hFound _)).trans ?_
  rw [Option.map_map, Option.map_map]
  rfl

theorem typeDeclarations_fold
    (scopes : List NamespaceScope)
    (masked : List Char) :
    typeDeclarations (scopes.map NamespaceScope.fold) (fold masked) =
      (typeDeclarations scopes masked).map TypeDeclaration.fold := by
  rw [typeDeclarations, numberedLines_fold, List.filterMap_map,
    typeDeclarations, List.map_filterMap]
  refine List.filterMap_congr fun (start, line) _ => ?_
  dsimp only [Function.comp_apply, Prod.map_apply, id]
  rw [typeLine?_fold]
  cases typeLine? line with
  | none => rfl
  | some found => simp [innermost?_fold, TypeDeclaration.fold]

theorem importLines_fold
    (masked : List Char) :
    importLines (fold masked) =
      (importLines masked).map (Prod.map id (Option.map lowerAscii)) := by
  rw [importLines, numberedLines_fold, List.filterMap_map, importLines,
    List.map_filterMap]
  refine List.filterMap_congr fun (start, line) _ => ?_
  dsimp only [Function.comp_apply, Prod.map_apply, id]
  rw [importLine?_fold, byteLength_fold]
  cases importLine? line <;> rfl

end VisualBasic

end Retarget
