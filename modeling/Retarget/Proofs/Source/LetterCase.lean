import Mathlib.Data.List.TakeWhile
import Retarget.Source.Tree
import Retarget.Proofs.Source.VisualBasic.Fold.Mention

/-
  This file shows what a Visual Basic file has in whatever
  letter case: the places in its text, its imports and the
  namespaces around an offset.

  Key definitions include:
    * `SourceTree.fold`

  Key statements include:
    * `SourceTree.fold_ofVisualBasic`
    * `SourceTree.importInsertionPoint_fold`
    * `SourceTree.enclosingNamespaces_fold`
-/

namespace Retarget

open Text

namespace SourceTree

/- The file with small letters only. -/
def fold (tree : SourceTree) : SourceTree :=
  { tree with
    text := lowerAscii tree.text
    parts := tree.parts.fold }

/- Reading a file with small letters gives small letters. -/
theorem fold_ofVisualBasic
    (path : Path)
    (text : String) :
    (ofVisualBasic path text).fold =
      ofVisualBasic path (lowerAscii text) := by
  rw [ofVisualBasic, fold, ← VisualBasic.parts_fold]
  rfl

variable (tree : SourceTree)

theorem chars_fold :
    tree.fold.chars = Text.fold tree.chars :=
  toList_lowerAscii tree.text

------------------------------------------------------------
-- Places in the text
------------------------------------------------------------

theorem lineStarts_fold :
    tree.fold.lineStarts = tree.lineStarts := by
  rw [lineStarts, chars_fold, countedFrom_fold, List.filterMap_map, lineStarts]
  congr 2
  funext ⟨i, c⟩
  simp only [Function.comp_apply, Prod.map_apply, id,
    beq_lowerAsciiChar (x := '\n') (by decide)]

theorem lineStart_fold
    (offset : Nat) :
    tree.fold.lineStart offset = tree.lineStart offset := by
  rw [lineStart, linesUpTo, lineStarts_fold]
  rfl

theorem lineColumn_fold
    (offset : Nat) :
    tree.fold.lineColumn offset = tree.lineColumn offset := by
  rw [lineColumn, linesUpTo, lineStarts_fold, lineStart_fold]
  rfl

theorem textFrom_fold
    (offset : Nat) :
    tree.fold.textFrom offset = Text.fold (tree.textFrom offset) := by
  rw [textFrom, chars_fold, cutAt?_fold, textFrom]
  cases cutAt? offset tree.chars <;> rfl

theorem indentationAt_fold
    (offset : Nat) :
    tree.fold.indentationAt offset = tree.indentationAt offset := by
  rw [indentationAt, lineStart_fold, textFrom_fold,
    takeWhile_fold (apply_lowerAsciiChar (by decide)), fold_eq_self]
  · rfl
  · refine List.all_eq_true.mpr fun c hc => ?_
    have hBlank := List.mem_takeWhile_imp hc
    rw [Bool.or_eq_true, beq_iff_eq, beq_iff_eq] at hBlank
    rcases hBlank with rfl | rfl <;> decide

theorem importInsertionPoint_fold :
    tree.fold.importInsertionPoint = tree.importInsertionPoint := by
  have hEnd : tree.fold.importEnd? = tree.importEnd? := rfl
  have hLength : tree.fold.length = tree.length := by
    rw [length, chars_fold, byteLength_fold, length]
  rw [importInsertionPoint, hEnd, importInsertionPoint]
  cases tree.importEnd? with
  | none => rfl
  | some stop =>
      dsimp only
      rw [textFrom_fold, cutWhere?_fold (beq_lowerAsciiChar (by decide)),
        hLength]
      cases cutWhere? (· == '\n') (tree.textFrom stop) with
      | none => rfl
      | some cut => simp

------------------------------------------------------------
-- Namespaces and imports
------------------------------------------------------------

theorem enclosingNamespaces_fold
    (offset : Nat) :
    tree.fold.enclosingNamespaces offset =
      (tree.enclosingNamespaces offset).map lowerAscii := by
  have hNamespaces : tree.fold.namespaces =
      tree.namespaces.map NamespaceScope.fold := rfl
  have hAround : ∀ around : List NamespaceScope,
      (around.map NamespaceScope.fold).mergeSort
          (fun s t => s.span.start ≥ t.span.start) =
        (around.mergeSort fun s t => s.span.start ≥ t.span.start).map
          NamespaceScope.fold :=
    fun _ => (List.map_mergeSort (f := NamespaceScope.fold)
      fun _ _ _ _ => rfl).symm
  rw [enclosingNamespaces, hNamespaces, List.filter_map, hAround,
    List.map_map, enclosingNamespaces, List.map_map]
  rfl

theorem hasImport_fold
    (hLanguage : tree.language = .visualBasic)
    (target : String) :
    tree.fold.hasImport target = tree.hasImport target := by
  have hImports : tree.fold.imports = tree.imports.map lowerAscii := rfl
  have hOther : tree.fold.language = .visualBasic := hLanguage
  rw [hasImport, hImports, hOther, List.any_map, hasImport, hLanguage]
  congr 1
  funext i
  exact equalsIgnoringAsciiCase_lowerAscii i target

end SourceTree

end Retarget
