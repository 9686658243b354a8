import Retarget.Symbol.Table
import Retarget.Proofs.Rule.NameMatch
import Retarget.Proofs.Text.Fold
import Retarget.Proofs.Text.Separator

/-
  This file takes dotted names apart and puts them together.
  A name is its segments with dots between them, and the
  parts of a name are its segments that are not empty.

  Key statements include:
    * `Text.splitLast_eq_some_iff`
    * `byte_of_isNameSuffix`
    * `SymbolTable.nameParts_append`
    * `Symbol.fullName_declared`
-/

namespace Retarget

------------------------------------------------------------
-- Segments
------------------------------------------------------------

namespace Text

variable {s a b : String}

theorem splitLast_eq_some_iff :
    splitLast '.' s = some (a, b) ↔
      s = a ++ "." ++ b ∧ '.' ∉ b.toList := by
  constructor
  · intro h
    rcases Option.map_eq_some_iff.mp h with ⟨⟨x, y⟩, hCut, hPieces⟩
    rcases exists_cons_of_cutWhere? hCut with ⟨c, r, rfl, hDot⟩
    obtain rfl := beq_iff_eq.mp hDot
    have hText := congrArg List.reverse (append_of_cutWhere? hCut)
    rw [cutWhere?_eq] at hCut
    have hPiece : s.toList.reverse.takeWhile (!· == '.') = x := by
      split at hCut
      · exact congrArg Prod.fst (Option.some.inj hCut)
      · cases hCut
    cases hPieces
    refine ⟨String.toList_inj.mp (by simpa using hText.symm), ?_⟩
    rw [String.toList_ofList, List.mem_reverse, ← hPiece]
    exact dot_not_mem_takeWhile (by decide) _
  · rintro ⟨rfl, hDot⟩
    have hChars : (a ++ "." ++ b).toList.reverse =
        b.toList.reverse ++ '.' :: a.toList.reverse := by
      simp
    have hKept : ∀ c ∈ b.toList.reverse, (!(c == '.')) = true := by
      intro c hc
      rw [Bool.not_eq_true', beq_eq_false_iff_ne]
      rintro rfl
      exact hDot (List.mem_reverse.mp hc)
    rw [splitLast, cutWhere?_eq, hChars, if_pos (by simp),
      List.takeWhile_append_of_pos hKept, List.dropWhile_append_of_pos hKept]
    simp

theorem splitLast_eq_none_iff :
    splitLast '.' s = none ↔ '.' ∉ s.toList := by
  rw [splitLast, Option.map_eq_none_iff, cutWhere?_eq]
  simp

theorem splitAt_of_splitLast
    (h : splitLast '.' s = some (a, b)) :
    splitAt '.' s = splitAt '.' a ++ [b] := by
  rcases splitLast_eq_some_iff.mp h with ⟨rfl, hDot⟩
  exact splitAt_concat hDot a

end Text

/- The last segment is the whole name or stands behind a dot. -/
theorem eq_lastPart_or_append
    (name : String) :
    name = lastPart name ∨ ∃ front, name = front ++ "." ++ lastPart name := by
  unfold lastPart
  split
  · next hSplit => exact Or.inr ⟨_, (Text.splitLast_eq_some_iff.mp hSplit).1⟩
  · exact Or.inl rfl

/-
  In the bytes of a full name, what ends it like the last
  segment of a written name is all there is, or has a dot in
  front of it.
-/
theorem byte_of_isNameSuffix
    {written fullName : String}
    {language : Language}
    (h : isNameSuffix written fullName language = true) :
    let size := (lastPart written).toByteArray.data.toList.length
    fullName.toByteArray.data.toList.reverse[size]?.all (· == 46) = true := by
  rw [← Language.length_bytes_of_namesEqual (lastPart_of_isNameSuffix h)]
  rcases eq_lastPart_or_append fullName with hWhole | ⟨front, hFront⟩
  · rw [← hWhole]
    simp
  · generalize lastPart fullName = last at *
    have hDot : ".".toByteArray.data.toList = [46] := by decide
    rw [hFront, String.toByteArray_append, String.toByteArray_append]
    simp [hDot]

------------------------------------------------------------
-- Parts
------------------------------------------------------------

namespace SymbolTable

theorem nameParts_append
    (a b : String) :
    nameParts (a ++ "." ++ b) = nameParts a ++ nameParts b := by
  rw [nameParts, Text.splitAt_append, List.filter_append]
  rfl

theorem nameParts_of_isSegment
    {name : String}
    (h : IsSegment name) :
    nameParts name = [name] := by
  rw [nameParts, Text.splitAt_of_dot_not_mem h.2]
  simp [h.1]

theorem isSegment_of_mem_nameParts
    {name part : String}
    (h : part ∈ nameParts name) :
    IsSegment part := by
  rcases List.mem_filter.mp h with ⟨hPiece, hSome⟩
  exact ⟨by simpa using hSome, Text.dot_not_mem_of_mem_splitAt hPiece⟩

theorem nameParts_lowerAscii
    (name : String) :
    nameParts (Text.lowerAscii name) =
      (nameParts name).map Text.lowerAscii := by
  rw [nameParts, Text.splitAt_lowerAscii (by decide), List.filter_map, nameParts]
  congr 1
  exact List.filter_congr fun p _ => by simp [Text.isEmpty_lowerAscii]

end SymbolTable

------------------------------------------------------------
-- Symbols
------------------------------------------------------------

namespace Symbol

theorem childName_of_ne_global
    {container : Symbol}
    (h : container ≠ .global)
    (name : String) :
    SymbolTable.childName container name = container.fullName ++ "." ++ name := by
  cases container with
  | global => exact absurd rfl h
  | declared _ _ _ => rfl

theorem fullName_declared
    (name : String)
    (kind : SymbolKind)
    (container : Symbol) :
    (declared name kind container).fullName =
      SymbolTable.childName container name := by
  rw [fullName, path, List.reverse_cons, SymbolTable.childName]
  cases container with
  | global => simp [path, isGlobal, Text.join]
  | declared outer outerKind outermost =>
      rw [Text.join_concat (by simp [path])]
      rfl

end Symbol

end Retarget
