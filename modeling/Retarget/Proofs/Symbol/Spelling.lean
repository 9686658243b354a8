import Mathlib.Data.List.Forall2
import Retarget.Source.Tree
import Retarget.Proofs.Symbol.Name
import Retarget.Proofs.Source.VisualBasic.Fold.Mention

/-
  This file describes names that are spelled again with other
  letter case.  Such names have the same segments up to
  letter case, and which of them are spelled alike may or may
  not be the same.

  Key definitions include:
    * `SpelledAlike`
    * `spellings`
    * `Respells`
    * `NameRespelled`
    * `SourceTree.spellings`

  Key statements include:
    * `forall₂_of_flatMap`
    * `splitLast_cases`
    * `NameRespelled.of_spellings`
    * `SourceTree.forall₂_declared`
-/

namespace Retarget

open Text

------------------------------------------------------------
-- Lists side by side
------------------------------------------------------------

section Lists

variable {α β γ δ : Type}
variable {R : α → β → Prop}
variable {S : γ → δ → Prop}

theorem forall₂_of_map_eq
    {f : α → γ}
    {g : β → γ}
    {xs : List α}
    {ys : List β}
    (h : xs.map f = ys.map g) :
    List.Forall₂ (fun x y => f x = g y) xs ys := by
  rwa [← List.forall₂_eq_eq_eq, List.forall₂_map_left_iff,
    List.forall₂_map_right_iff] at h

theorem forall₂_of_append
    {a b : List α}
    {c d : List β}
    (hLength : a.length = c.length)
    (h : List.Forall₂ R (a ++ b) (c ++ d)) :
    List.Forall₂ R a c ∧ List.Forall₂ R b d := by
  have hTake := List.forall₂_take_append _ c d h
  have hDrop := List.forall₂_drop_append _ c d h
  rw [← hLength] at hTake hDrop
  rw [List.take_left] at hTake
  rw [List.drop_left] at hDrop
  exact ⟨hTake, hDrop⟩

/- What is related piece by piece, where the pieces are as long. -/
theorem forall₂_of_flatMap
    {f : α → List γ}
    {g : β → List δ}
    {xs : List α}
    {ys : List β}
    (hLength : ∀ x y, R x y → (f x).length = (g y).length)
    (hBoth : List.Forall₂ R xs ys)
    (h : List.Forall₂ S (xs.flatMap f) (ys.flatMap g)) :
    List.Forall₂ (fun x y => R x y ∧ List.Forall₂ S (f x) (g y)) xs ys := by
  induction hBoth with
  | nil => exact List.Forall₂.nil
  | cons hFirst _ ih =>
      rw [List.flatMap_cons, List.flatMap_cons] at h
      rcases forall₂_of_append (hLength _ _ hFirst) h with ⟨hPieces, hRest⟩
      exact List.Forall₂.cons ⟨hFirst, hPieces⟩ (ih hRest)

theorem flatMap_eq_of_forall₂
    {f : α → List γ}
    {g : β → List γ}
    {xs : List α}
    {ys : List β}
    (h : List.Forall₂ (fun x y => f x = g y) xs ys) :
    xs.flatMap f = ys.flatMap g := by
  induction h with
  | nil => rfl
  | cons hFirst _ ih => rw [List.flatMap_cons, List.flatMap_cons, hFirst, ih]

/- The first of two lists that fit a test which tells none apart. -/
theorem rel_find?
    {p : α → Bool}
    {q : β → Bool}
    (hTest : ∀ x y, R x y → p x = q y)
    {xs : List α}
    {ys : List β}
    (h : List.Forall₂ R xs ys) :
    Option.Rel R (xs.find? p) (ys.find? q) := by
  induction h with
  | nil => exact Option.Rel.none
  | cons hFirst _ ih =>
      rw [List.find?_cons, List.find?_cons, hTest _ _ hFirst]
      split
      · exact Option.Rel.some hFirst
      · exact ih

end Lists

------------------------------------------------------------
-- Spellings
------------------------------------------------------------

/- Where one list spells two names alike, the other one does too. -/
def SpelledAlike (names others : List String) : Prop :=
  ∀ p ∈ names.zip others, ∀ q ∈ names.zip others, p.1 = q.1 ↔ p.2 = q.2

instance (names others : List String) :
    Decidable (SpelledAlike names others) := by
  unfold SpelledAlike
  infer_instance

/- The dotted names that a list of segments starts with. -/
def starts (parts : List String) : List String :=
  (List.range parts.length).map fun i => join "." (parts.take (i + 1))

/-
  The segments of a name.  Those in front of the last one
  count only if they are not empty.
-/
def segments (name : String) : List String :=
  match splitLast '.' name with
  | none => [name]
  | some (container, last) => SymbolTable.nameParts container ++ [last]

/- What a dotted name starts with, as written and by its segments. -/
def spellings (name : String) : List String :=
  starts (splitAt '.' name) ++ starts (segments name)

theorem dot_not_mem_of_lowerAscii_eq
    {s t : String}
    (h : lowerAscii s = lowerAscii t)
    (hDot : '.' ∉ s.toList) :
    '.' ∉ t.toList := by
  rwa [← mem_fold (by decide), ← toList_lowerAscii, ← h, toList_lowerAscii,
    mem_fold (by decide)]

theorem length_splitAt_of_lowerAscii_eq
    {s t : String}
    (h : lowerAscii s = lowerAscii t) :
    (splitAt '.' s).length = (splitAt '.' t).length := by
  have hPieces := congrArg (fun s => (splitAt '.' s).length) h
  simpa [splitAt_lowerAscii (x := '.') (by decide)] using hPieces

theorem starts_fold
    (parts : List String) :
    starts (parts.map lowerAscii) = (starts parts).map lowerAscii := by
  rw [starts, starts, List.length_map, List.map_map]
  refine List.map_congr_left fun i _ => ?_
  rw [Function.comp_apply, ← List.map_take, lowerAscii_join]

theorem SymbolTable.length_nameParts_of_lowerAscii_eq
    {s t : String}
    (h : lowerAscii s = lowerAscii t) :
    (nameParts s).length = (nameParts t).length := by
  have hParts := congrArg (fun s => (nameParts s).length) h
  simpa [nameParts_lowerAscii] using hParts

theorem splitLast_lowerAscii
    (name : String) :
    splitLast '.' (lowerAscii name) =
      (splitLast '.' name).map (Prod.map lowerAscii lowerAscii) := by
  cases hSplit : splitLast '.' name with
  | none =>
      rw [Option.map_none, splitLast_eq_none_iff, toList_lowerAscii,
        mem_fold (by decide)]
      exact splitLast_eq_none_iff.mp hSplit
  | some pieces =>
      obtain ⟨container, last⟩ := pieces
      rcases splitLast_eq_some_iff.mp hSplit with ⟨rfl, hDot⟩
      refine splitLast_eq_some_iff.mpr ⟨lowerAscii_dotted container last, ?_⟩
      rwa [toList_lowerAscii, mem_fold (by decide)]

/- Names that differ in letter case are cut at the same dot. -/
theorem splitLast_cases
    {name other : String}
    (h : lowerAscii name = lowerAscii other) :
    (splitLast '.' name = none ∧ splitLast '.' other = none) ∨
      ∃ container last otherContainer otherLast,
        splitLast '.' name = some (container, last) ∧
          splitLast '.' other = some (otherContainer, otherLast) ∧
          lowerAscii container = lowerAscii otherContainer ∧
          lowerAscii last = lowerAscii otherLast := by
  have hSplits := splitLast_lowerAscii name
  rw [h, splitLast_lowerAscii] at hSplits
  cases hSplit : splitLast '.' name with
  | none =>
      rw [hSplit, Option.map_none, Option.map_eq_none_iff] at hSplits
      exact Or.inl ⟨rfl, hSplits⟩
  | some pieces =>
      rw [hSplit, Option.map_some, Option.map_eq_some_iff] at hSplits
      rcases hSplits with ⟨otherPieces, hOther, hPieces⟩
      rcases Prod.mk.inj hPieces with ⟨hContainer, hLast⟩
      exact Or.inr ⟨_, _, _, _, rfl, hOther, hContainer.symm, hLast.symm⟩

theorem segments_append
    (container : String)
    {last : String}
    (h : '.' ∉ last.toList) :
    segments (container ++ "." ++ last) =
      SymbolTable.nameParts container ++ [last] := by
  rw [segments, splitLast_eq_some_iff.mpr ⟨rfl, h⟩]

theorem SymbolTable.nameParts_eq_segments
    (name : String) :
    nameParts name =
      if (lastPart name).isEmpty then (segments name).dropLast
      else segments name := by
  have hPiece : ∀ last : String, '.' ∉ last.toList →
      nameParts last = if last.isEmpty then [] else [last] := by
    intro last hDot
    rw [nameParts, splitAt_of_dot_not_mem hDot, List.filter_singleton]
    cases last.isEmpty <;> rfl
  rw [segments, lastPart]
  cases hSplit : splitLast '.' name with
  | none => exact hPiece name (splitLast_eq_none_iff.mp hSplit)
  | some pieces =>
      obtain ⟨container, last⟩ := pieces
      rcases splitLast_eq_some_iff.mp hSplit with ⟨rfl, hDot⟩
      dsimp only
      rw [nameParts_append, hPiece last hDot, List.dropLast_concat]
      split
      · exact List.append_nil _
      · rfl

theorem isEmpty_lastPart_of_lowerAscii_eq
    {name other : String}
    (h : lowerAscii name = lowerAscii other) :
    (lastPart name).isEmpty = (lastPart other).isEmpty := by
  rw [lastPart, lastPart]
  rcases splitLast_cases h with ⟨hSplit, hOther⟩ |
    ⟨_, last, _, otherLast, hSplit, hOther, -, hLast⟩
  · rw [hSplit, hOther]
    dsimp only
    rw [← isEmpty_lowerAscii, h, isEmpty_lowerAscii]
  · rw [hSplit, hOther]
    dsimp only
    rw [← isEmpty_lowerAscii, hLast, isEmpty_lowerAscii]

theorem segments_lowerAscii
    (name : String) :
    segments (lowerAscii name) = (segments name).map lowerAscii := by
  rw [segments, splitLast_lowerAscii, segments]
  cases splitLast '.' name with
  | none => rfl
  | some pieces => simp [SymbolTable.nameParts_lowerAscii]

theorem length_segments_of_lowerAscii_eq
    {s t : String}
    (h : lowerAscii s = lowerAscii t) :
    (segments s).length = (segments t).length := by
  have hSegments := congrArg (fun s => (segments s).length) h
  simpa [segments_lowerAscii] using hSegments

theorem spellings_fold
    (name : String) :
    spellings (lowerAscii name) = (spellings name).map lowerAscii := by
  rw [spellings, splitAt_lowerAscii (by decide), segments_lowerAscii,
    starts_fold, starts_fold, spellings, List.map_append]

theorem length_spellings_of_lowerAscii_eq
    {name other : String}
    (h : lowerAscii name = lowerAscii other) :
    (spellings name).length = (spellings other).length := by
  have hSpellings := congrArg (fun n => (spellings n).length) h
  simpa [spellings_fold] using hSpellings

/-
  A way of spelling names again: only letter case changes,
  and names that were spelled alike still are.
-/
structure Respells (P : String → String → Prop) : Prop where
  lowerAscii_eq : ∀ {a b}, P a b → lowerAscii a = lowerAscii b
  eq_iff : ∀ {a b c d}, P a b → P c d → (a = c ↔ b = d)

variable {P : String → String → Prop}

/-
  What two lists of segments start with is one name in two
  spellings, for each number of segments.
-/
def StartsRespelled
    (P : String → String → Prop)
    (parts others : List String) : Prop :=
  parts.length = others.length ∧
    ∀ i < parts.length,
      P (join "." (parts.take (i + 1))) (join "." (others.take (i + 1)))

namespace StartsRespelled

variable {parts others more otherMore : List String}

theorem of_starts
    (hLength : parts.length = others.length)
    (h : List.Forall₂ P (starts parts) (starts others)) :
    StartsRespelled P parts others := by
  rw [starts, starts, ← hLength, List.forall₂_map_left_iff,
    List.forall₂_map_right_iff, List.forall₂_same] at h
  exact ⟨hLength, fun i hi => h i (List.mem_range.mpr hi)⟩

theorem whole
    (h : StartsRespelled P parts others)
    (hSome : parts ≠ []) :
    P (join "." parts) (join "." others) := by
  have hPos := List.length_pos_iff.mpr hSome
  have hAll := h.2 (parts.length - 1) (Nat.sub_lt hPos Nat.one_pos)
  rwa [Nat.sub_add_cancel hPos, List.take_length, h.1,
    List.take_length] at hAll

theorem left
    (h : StartsRespelled P (parts ++ more) (others ++ otherMore))
    (hLength : parts.length = others.length) :
    StartsRespelled P parts others := by
  refine ⟨hLength, fun i hi => ?_⟩
  have hStart := h.2 i (by rw [List.length_append]; omega)
  rwa [List.take_append_of_le_length hi,
    List.take_append_of_le_length (hLength ▸ hi)] at hStart

theorem dropLast
    (h : StartsRespelled P parts others) :
    StartsRespelled P parts.dropLast others.dropLast := by
  refine ⟨by rw [List.length_dropLast, h.1, List.length_dropLast], ?_⟩
  intro i hi
  rw [List.length_dropLast] at hi
  have hStart := h.2 i (Nat.lt_of_lt_of_le hi (Nat.sub_le _ _))
  rwa [List.dropLast_eq_take, List.take_take, Nat.min_eq_left hi,
    List.dropLast_eq_take, List.take_take, ← h.1, Nat.min_eq_left hi]

end StartsRespelled

/- Names whose spellings are related one by one. -/
structure NameRespelled
    (P : String → String → Prop)
    (name other : String) : Prop where
  lowerAscii_eq : lowerAscii name = lowerAscii other
  written : StartsRespelled P (splitAt '.' name) (splitAt '.' other)
  segments : StartsRespelled P (segments name) (segments other)

namespace NameRespelled

variable {name other outer otherOuter last otherLast : String}

theorem of_spellings
    (hName : lowerAscii name = lowerAscii other)
    (h : List.Forall₂ P (spellings name) (spellings other)) :
    NameRespelled P name other := by
  have hWritten := length_splitAt_of_lowerAscii_eq hName
  have hStarts : (starts (splitAt '.' name)).length =
      (starts (splitAt '.' other)).length := by
    simpa [starts] using hWritten
  rcases forall₂_of_append hStarts h with ⟨hFirst, hLast⟩
  exact ⟨hName, .of_starts hWritten hFirst,
    .of_starts (length_segments_of_lowerAscii_eq hName) hLast⟩

theorem whole
    (h : NameRespelled P name other) :
    P name other := by
  have hWhole := h.written.whole (splitAt_ne_nil '.' name)
  rwa [join_splitAt, join_splitAt] at hWhole

/- The empty segments can be left out on both sides. -/
theorem nameParts
    (h : NameRespelled P name other) :
    StartsRespelled P (SymbolTable.nameParts name)
      (SymbolTable.nameParts other) := by
  rw [SymbolTable.nameParts_eq_segments, SymbolTable.nameParts_eq_segments,
    isEmpty_lastPart_of_lowerAscii_eq h.lowerAscii_eq]
  split
  · exact h.segments.dropLast
  · exact h.segments

theorem container
    (h : NameRespelled P (outer ++ "." ++ last)
      (otherOuter ++ "." ++ otherLast))
    (hOuter : lowerAscii outer = lowerAscii otherOuter) :
    P outer otherOuter := by
  have hWritten := h.written
  rw [splitAt_append, splitAt_append] at hWritten
  have hStart := (hWritten.left (length_splitAt_of_lowerAscii_eq hOuter)).whole
    (splitAt_ne_nil '.' outer)
  rwa [join_splitAt, join_splitAt] at hStart

end NameRespelled

------------------------------------------------------------
-- Declared names
------------------------------------------------------------

theorem TypeDeclaration.fullName_fold
    (d : TypeDeclaration) :
    d.fold.fullName = lowerAscii d.fullName := by
  rw [fullName, fold, fullName]
  cases d.scope with
  | none => rfl
  | some scope => exact (lowerAscii_dotted scope d.name).symm

/- The names that a symbol is entered under in another table. -/
def Symbol.spellings : Symbol → List String
  | .global => []
  | .declared name kind container =>
    if kind.isMember then
      Retarget.spellings container.fullName ++
        [container.fullName ++ "." ++ name,
          join "." (segments container.fullName ++ [name])]
    else Retarget.spellings (Symbol.declared name kind container).fullName

def SymbolTable.spellings (table : SymbolTable) : List String :=
  table.symbols.flatMap Symbol.spellings

namespace SourceTree

/- The names of the types and namespaces that a file declares. -/
def declared (tree : SourceTree) : List String :=
  tree.declarations.map TypeDeclaration.fullName ++
    tree.namespaces.map NamespaceScope.name

def spellings (tree : SourceTree) : List String :=
  tree.declared.flatMap Retarget.spellings

theorem forall₂_declared
    {tree other : SourceTree}
    (h : tree.parts.fold = other.parts.fold) :
    List.Forall₂ (fun n m => lowerAscii n = lowerAscii m)
      tree.declared other.declared := by
  have hDeclared : ∀ tree : SourceTree, tree.declared.map lowerAscii =
      tree.parts.fold.declarations.map TypeDeclaration.fullName ++
        tree.parts.fold.namespaces.map NamespaceScope.name := by
    intro tree
    have hTypes := fun d (_ : d ∈ tree.declarations) =>
      (TypeDeclaration.fullName_fold d).symm
    rw [declared, List.map_append, List.map_map, List.map_map,
      SourceParts.fold, List.map_map, List.map_map]
    exact congrArg₂ _ (List.map_congr_left hTypes) rfl
  refine forall₂_of_map_eq ?_
  rw [hDeclared, h, hDeclared]

end SourceTree

end Retarget
