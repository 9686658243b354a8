import Retarget.Source.Tree
import Retarget.Proofs.Dictionary
import Retarget.Proofs.Source.CSharp.Collector
import Retarget.Proofs.Source.VisualBasic.Parts

/-
  This file shows that what a source file reports about its
  text can be found again in it: a name by its span, and the
  places for new lines between characters.

  Key definitions include:
    * `SourceTree.Fits`
    * `SourceTree.IsClearAt`

  Key statements include:
    * `SourceTree.ofVisualBasic_fits`
    * `SourceTree.parseWith_fits`
    * `SourceTree.ofVisualBasic_isClearAt`
    * `SourceTree.ofVisualBasic_eq`
    * `SourceTree.nameAt?_eq_some`
    * `SourceTree.lineStart_endsLine`
    * `SourceTree.lineStart_eq_self`
    * `SourceTree.lineStart_isBoundary`
    * `SourceTree.importInsertionPoint_isBoundary`
-/

namespace Retarget

/-
  A search finds the one element that passes its test, if the
  elements of the list are told apart in pairs.
-/
theorem find?_eq_some_of_apart
    {α : Type}
    {R : α → α → Prop}
    {l : List α}
    {p : α → Bool}
    {a : α}
    (hApart : l.Pairwise R)
    (hSymm : ∀ x y, R x y → R y x)
    (ha : a ∈ l)
    (hPasses : p a = true)
    (hOnly : ∀ b ∈ l, p b = true → ¬R b a) :
    l.find? p = some a := by
  refine find?_eq_some_of_only ha hPasses fun b hb hMatch => ?_
  have : Std.Symm R := ⟨hSymm⟩
  by_contra hNe
  exact hOnly b hb hMatch (hApart.forall hb ha hNe)

end Retarget

namespace Retarget.SourceTree

open Text

/- The report about the file fits its text. -/
def Fits (tree : SourceTree) : Prop :=
  tree.parts.Fits tree.chars

/- No name that is missing in the text stands at the offset. -/
def IsClearAt (tree : SourceTree) (offset : Nat) : Prop :=
  ∀ name ∈ tree.names, name.span ≠ ⟨offset, offset⟩

variable {tree : SourceTree}

theorem ofVisualBasic_fits
    (path : Path)
    (text : String) :
    (ofVisualBasic path text).Fits :=
  VisualBasic.parts_fits text

/- Of C#, a file fits if the grammar respects its text. -/
theorem parseWith_fits
    [CSharp.Grammar]
    {language : Language}
    {text : String}
    (h : language = .cSharp → CSharp.Grammar.Respects text)
    (path : Path) :
    (parseWith language path text).Fits := by
  cases language with
  | cSharp => exact CSharp.parts_fits (h rfl)
  | visualBasic => exact ofVisualBasic_fits path text

/- A Visual Basic scan reports no name that is not there. -/
theorem ofVisualBasic_isClearAt
    (path : Path)
    (text : String)
    (offset : Nat) :
    (ofVisualBasic path text).IsClearAt offset := by
  intro name hName hEmpty
  have hSome :=
    (VisualBasic.mentions_pointsInto text.toList name hName).start_lt_stop
  rw [hEmpty] at hSome
  exact lt_irrefl offset hSome

/- A file whose report is known part by part. -/
theorem ofVisualBasic_eq
    {path : Path}
    {text : String}
    {chars : List Char}
    {parts : SourceParts}
    (hText : text = String.ofList chars)
    (h : let masked := VisualBasic.mask chars
      VisualBasic.mentions masked = parts.names ∧
        (VisualBasic.importLines masked).filterMap Prod.snd =
          parts.imports ∧
        (VisualBasic.importLines masked).map Prod.fst = parts.importSpans ∧
        VisualBasic.namespaceScopes masked = parts.namespaces ∧
        VisualBasic.typeDeclarations parts.namespaces masked =
          parts.declarations) :
    ofVisualBasic path text = ⟨path, .visualBasic, text, parts⟩ := by
  rcases h with ⟨hNames, hImports, hSpans, hScopes, hTypes⟩
  rw [ofVisualBasic, VisualBasic.parts, hText, String.toList_ofList]
  rw [hNames, hImports, hSpans, hScopes, hTypes]

------------------------------------------------------------
-- Names
------------------------------------------------------------

/- Either span of a name leads back to it and to no other. -/
theorem nameAt?_eq_some
    (hFits : tree.Fits)
    {name : NameNode}
    (hName : name ∈ tree.names)
    {span : Span}
    (hSpan : span = name.fullSpan ∨ span = name.span) :
    tree.nameAt? span = some name := by
  refine find?_eq_some_of_apart hFits.apart (fun _ _ => NameNode.IsApart.symm)
    hName ?_ ?_
  · rcases hSpan with rfl | rfl
    · simp
    · simp
  · intro other hOther hMatch hApart
    simp only [Bool.or_eq_true, beq_iff_eq] at hMatch
    rcases hMatch with rfl | rfl
    · exact hSpan.elim hApart.fullSpan_ne hApart.fullSpan_ne_span
    · exact hSpan.elim hApart.span_ne_fullSpan hApart.span_ne

------------------------------------------------------------
-- Lines
------------------------------------------------------------

theorem mem_countedFrom
    {n i : Nat}
    {c : Char}
    {cs : List Char}
    (h : (i, c) ∈ countedFrom n cs) :
    ∃ a b, a ++ c :: b = cs ∧ n + byteLength a = i := by
  induction cs generalizing n with
  | nil => cases h
  | cons d r ih =>
      rcases List.mem_cons.mp h with hFirst | hRest
      · cases hFirst
        exact ⟨[], r, rfl, rfl⟩
      · rcases ih hRest with ⟨a, b, rfl, hStart⟩
        exact ⟨d :: a, b, rfl, by rw [byteLength, ← hStart, Nat.add_assoc]⟩

/- The place behind a newline is between characters. -/
theorem isBoundary_newline
    (a b : List Char) :
    isBoundary (byteLength a + 1) (a ++ '\n' :: b) = true := by
  have hNewline : byteLength ['\n'] = 1 := by decide
  rw [← hNewline, ← byteLength_append, List.append_cons a '\n' b]
  exact isBoundary_byteLength _ b

/- Whole lines lie in front of the start of a line. -/
theorem lineStarts_endsLine
    (tree : SourceTree) :
    ∀ start ∈ tree.lineStarts,
      ∃ a b, a ++ b = tree.chars ∧ byteLength a = start ∧ EndsLine a := by
  intro start hStart
  rcases List.mem_cons.mp hStart with rfl | hLater
  · exact ⟨[], tree.chars, rfl, rfl, by simp [EndsLine]⟩
  · rcases List.mem_filterMap.mp hLater with ⟨⟨i, c⟩, hCounted, hNewline⟩
    rcases mem_countedFrom hCounted with ⟨a, b, hText, hOffset⟩
    simp only [Option.ite_none_right_eq_some, beq_iff_eq,
      Option.some.injEq] at hNewline
    rcases hNewline with ⟨rfl, rfl⟩
    refine ⟨a ++ ['\n'], b, by simp [← hText], ?_,
      by simp [EndsLine]⟩
    rw [byteLength_append, ← hOffset, Nat.zero_add]
    rfl

theorem lineStart_endsLine
    (tree : SourceTree)
    (offset : Nat) :
    ∃ a b, a ++ b = tree.chars ∧ byteLength a = tree.lineStart offset ∧
      EndsLine a := by
  unfold lineStart
  cases hLast : (tree.linesUpTo offset).getLast? with
  | none => exact ⟨[], tree.chars, rfl, rfl, by simp [EndsLine]⟩
  | some start =>
      exact tree.lineStarts_endsLine start
        ((List.takeWhile_sublist _).subset (List.mem_of_getLast? hLast))

theorem countedFrom_append
    (n : Nat)
    (a b : List Char) :
    countedFrom n (a ++ b) = countedFrom n a ++ countedFrom (n + byteLength a) b := by
  induction a generalizing n with
  | nil => rfl
  | cons c r ih => simp [countedFrom, byteLength, ih, Nat.add_assoc]

/- The starts of the lines behind some offset. -/
def startsFrom (n : Nat) (cs : List Char) : List Nat :=
  (countedFrom n cs).filterMap fun (i, c) =>
    if c == '\n' then some (i + 1) else none

theorem startsFrom_append
    (n : Nat)
    (a b : List Char) :
    startsFrom n (a ++ b) = startsFrom n a ++ startsFrom (n + byteLength a) b := by
  rw [startsFrom, countedFrom_append, List.filterMap_append]
  rfl

theorem lt_of_mem_startsFrom
    {n start : Nat}
    {cs : List Char}
    (h : start ∈ startsFrom n cs) :
    n < start ∧ start ≤ n + byteLength cs := by
  rcases List.mem_filterMap.mp h with ⟨⟨i, c⟩, hCounted, hNewline⟩
  rcases mem_countedFrom hCounted with ⟨a, b, rfl, rfl⟩
  simp only [Option.ite_none_right_eq_some, beq_iff_eq,
    Option.some.injEq] at hNewline
  rcases hNewline with ⟨rfl, rfl⟩
  have hNewline : Char.utf8Size '\n' = 1 := by decide
  rw [byteLength_append, byteLength, hNewline]
  omega

/- A line starts where whole lines lie in front. -/
theorem lineStart_eq_self
    {a b : List Char}
    (hChars : a ++ b = tree.chars)
    (hLine : EndsLine a) :
    tree.lineStart (byteLength a) = byteLength a := by
  have hStarts : tree.lineStarts =
      (0 :: startsFrom 0 a) ++ startsFrom (byteLength a) b := by
    rw [lineStarts, ← hChars, List.cons_append,
      ← Nat.zero_add (byteLength a), ← startsFrom_append]
    rfl
  have hUpTo : tree.linesUpTo (byteLength a) = 0 :: startsFrom 0 a := by
    rw [linesUpTo, hStarts, List.takeWhile_append_of_pos]
    · have hNone : (startsFrom (byteLength a) b).takeWhile
          (fun start => decide (start ≤ byteLength a)) = [] := by
        cases hBehind : startsFrom (byteLength a) b with
        | nil => rfl
        | cons start rest =>
            have hMem : start ∈ startsFrom (byteLength a) b := by
              rw [hBehind]
              exact List.mem_cons_self
            simp [(lt_of_mem_startsFrom hMem).1]
      rw [hNone, List.append_nil]
    · intro start hStart
      rcases List.mem_cons.mp hStart with rfl | hMem
      · simp
      · simpa using (lt_of_mem_startsFrom hMem).2
  rw [lineStart, hUpTo]
  rcases List.eq_nil_or_concat a with rfl | ⟨init, c, rfl⟩
  · rfl
  · have hNewline : c = '\n' := hLine c (by simp)
    subst hNewline
    rw [List.concat_eq_append, startsFrom_append, byteLength_append,
      Nat.zero_add, ← List.cons_append, List.getLast?_append]
    rfl

theorem lineStart_isBoundary
    (tree : SourceTree)
    (offset : Nat) :
    isBoundary (tree.lineStart offset) tree.chars = true := by
  rcases tree.lineStart_endsLine offset with ⟨a, b, hText, hStart, -⟩
  exact isBoundary_iff.mpr ⟨a, b, hText, hStart⟩

theorem importInsertionPoint_isBoundary
    (hFits : tree.Fits) :
    isBoundary tree.importInsertionPoint tree.chars = true := by
  unfold importInsertionPoint
  cases hEnd : tree.importEnd? with
  | none => exact isBoundary_zero _
  | some stop =>
      have hStop : isBoundary stop tree.chars = true := by
        rcases List.mem_map.mp (List.max?_mem hEnd) with ⟨s, hs, rfl⟩
        exact hFits.isImport s hs
      rcases isBoundary_iff.mp hStop with ⟨a, b, hText, rfl⟩
      have hFrom : tree.textFrom (byteLength a) = b := by
        rw [textFrom, ← hText, cutAt?_byteLength]
        rfl
      dsimp only
      rw [hFrom]
      split
      · rename_i before behind hCut
        rcases exists_cons_of_cutWhere? hCut with ⟨c, rest, rfl, hNewline⟩
        rw [← hText, ← append_of_cutWhere? hCut, eq_of_beq hNewline,
          ← List.append_assoc, ← byteLength_append]
        exact isBoundary_newline (a ++ before) rest
      · exact isBoundary_iff.mpr ⟨tree.chars, [], List.append_nil _, rfl⟩

end Retarget.SourceTree
