import Retarget.Proofs.Fix.Annotation
import Retarget.Proofs.Analysis.LetterCase

/-
  This file shows that letter case is irrelevant to what is
  reported about Visual Basic files and to how it is fixed,
  unless the files spell names alike that they did not spell
  alike before, or the other way round.

  Key definitions include:
    * `VisualBasic.Recased`
    * `VisualBasic.RecasedPart`

  Key statements include:
    * `Fixer.isExplained_respelled`
    * `Fixer.edits_respelled`
    * `VisualBasic.run_recased`
-/

namespace Retarget

open Text

------------------------------------------------------------
-- Comments
------------------------------------------------------------

namespace Fixer

variable {tree other : SourceTree}

/- Only a comment can explain the line below. -/
theorem explains_remark
    (line : String) :
    explains .visualBasic (VisualBasic.remark line) =
      explains .visualBasic line := by
  cases hRemark : VisualBasic.isRemark line with
  | true => rw [VisualBasic.remark, if_pos hRemark]
  | false =>
      have hLine : explains .visualBasic line =
          (VisualBasic.isRemark line && contains marker line) := rfl
      rw [VisualBasic.remark, if_neg (Bool.eq_false_iff.mp hRemark), hLine,
        hRemark, Bool.false_and]
      decide

/- The last line in front of a place where a line starts. -/
theorem exists_lastLine
    {a : List Char}
    (hEnds : EndsLine a)
    (hSome : a ≠ []) :
    ∃ before line : List Char,
      a = before ++ (line ++ ['\n']) ∧ EndsLine before ∧ '\n' ∉ line := by
  rcases List.eq_nil_or_concat a with rfl | ⟨init, c, rfl⟩
  · exact absurd rfl hSome
  · obtain rfl : c = '\n' := hEnds c (by simp)
    let isPart := fun c : Char => c != '\n'
    refine ⟨(init.reverse.dropWhile isPart).reverse,
      (init.reverse.takeWhile isPart).reverse, ?_, ?_, ?_⟩
    · rw [← List.append_assoc, ← List.reverse_append,
        List.takeWhile_append_dropWhile, List.reverse_reverse,
        List.concat_eq_append]
    · intro c hc
      rw [List.getLast?_reverse] at hc
      have hStop := List.head?_dropWhile_not isPart init.reverse
      rw [Option.mem_def.mp hc] at hStop
      simpa [isPart] using hStop
    · intro hNewline
      have hPart := List.mem_takeWhile_imp (List.mem_reverse.mp hNewline)
      cases hPart

theorem endsLine_of_fold_eq
    {a b : List Char}
    (h : Text.fold a = Text.fold b)
    (hEnds : EndsLine a) :
    EndsLine b := by
  intro c hc
  have hLast := congrArg List.getLast? h
  rw [Text.fold, Text.fold, List.getLast?_map, List.getLast?_map,
    Option.mem_def.mp hc, Option.map_some, Option.map_eq_some_iff] at hLast
  rcases hLast with ⟨d, hd, hSame⟩
  obtain rfl := hEnds d hd
  rw [← beq_iff_eq, ← beq_lowerAsciiChar (by decide), ← hSame]
  decide

/- The pieces of a text around one of its lines. -/
theorem splitOn_line
    {before line : List Char}
    (hEnds : EndsLine before)
    (hLine : '\n' ∉ line)
    (after : List Char) :
    (before ++ (line ++ ['\n']) ++ after).splitOn '\n' =
      (before.splitOn '\n').dropLast ++ line :: after.splitOn '\n' := by
  have hPiece : (line ++ '\n' :: after).splitOn '\n' =
      line :: after.splitOn '\n' := by
    rw [List.splitOn_append_cons_self, List.splitOn_eq_singleton hLine]
    rfl
  rcases List.eq_nil_or_concat before with rfl | ⟨init, c, rfl⟩
  · simpa using hPiece
  · obtain rfl : c = '\n' := hEnds c (by simp)
    have hText : init.concat '\n' ++ (line ++ ['\n']) ++ after =
        init ++ '\n' :: (line ++ '\n' :: after) := by
      simp
    have hBefore : (init.concat '\n').splitOn '\n' =
        init.splitOn '\n' ++ [[]] := by
      rw [List.concat_eq_append, List.splitOn_append_cons_self]
      rfl
    rw [hText, List.splitOn_append_cons_self, hPiece, hBefore,
      List.dropLast_concat]

/- Another spelling of a text has its lines at the same places. -/
theorem exists_line_of_fold_eq
    {before line after other : List Char}
    (hFold : Text.fold (before ++ (line ++ ['\n']) ++ after) = Text.fold other)
    (hEnds : EndsLine before)
    (hLine : '\n' ∉ line) :
    ∃ front last back : List Char,
      other = front ++ (last ++ ['\n']) ++ back ∧
        Text.fold before = Text.fold front ∧ Text.fold line = Text.fold last ∧
        EndsLine front ∧ '\n' ∉ last := by
  rw [fold_append, fold_append, fold_append, eq_comm] at hFold
  rcases List.map_eq_append_iff.mp hFold with ⟨start, back, rfl, hStart, -⟩
  rcases List.map_eq_append_iff.mp hStart with ⟨front, rest, rfl, hFront, hRest⟩
  rcases List.map_eq_append_iff.mp hRest with
    ⟨last, newline, rfl, hLast, hNewline⟩
  obtain rfl : newline = ['\n'] := by
    rw [← beq_iff_eq, ← beq_fold (by decide)]
    exact beq_iff_eq.mpr hNewline
  refine ⟨front, last, back, rfl, hFront.symm, hLast.symm,
    endsLine_of_fold_eq hFront.symm hEnds, ?_⟩
  rw [← mem_fold (by decide), show Text.fold last = _ from hLast,
    mem_fold (by decide)]
  exact hLine

/- The lines of a text around one of them, of which the comments are left. -/
theorem remarks_line
    {before line after : List Char}
    (hEnds : EndsLine before)
    (hLine : '\n' ∉ line)
    (hChars : tree.chars = before ++ (line ++ ['\n']) ++ after) :
    VisualBasic.remarks tree.text =
      ((before.splitOn '\n').dropLast.map String.ofList).map VisualBasic.remark ++
        VisualBasic.remark (String.ofList line) ::
          ((after.splitOn '\n').map String.ofList).map VisualBasic.remark := by
  rw [VisualBasic.remarks, splitAt, show tree.text.toList = _ from hChars,
    splitOn_line hEnds hLine, List.map_append, List.map_append]
  rfl

theorem isExplained_of_line
    {before line after : List Char}
    (hChars : tree.chars = before ++ (line ++ ['\n']) ++ after)
    (hBefore : EndsLine before)
    (hLine : '\n' ∉ line) :
    isExplained tree (byteLength (before ++ (line ++ ['\n']))) =
      explains tree.language (String.ofList line) := by
  have hText : (String.ofList line ++ "\n").toList = line ++ ['\n'] := by simp
  rw [← hText] at hChars ⊢
  exact isExplained_of_chars hChars hBefore (by rwa [String.toList_ofList])

/- A comment is found above a line in both spellings or in none. -/
theorem isExplained_respelled
    (h : tree.Respelled other)
    (offset : Nat) :
    isExplained tree (tree.lineStart offset) =
      isExplained other (other.lineStart offset) := by
  have hRemarks := h.remarks_eq
  have hStarts : other.lineStart offset = tree.lineStart offset := by
    rw [← other.lineStart_fold, ← h.fold_eq, tree.lineStart_fold]
  rcases tree.lineStart_endsLine offset with ⟨a, after, hChars, hStart, hEnds⟩
  rw [hStarts, ← hStart]
  by_cases hSome : a = []
  · subst hSome
    simp [isExplained, byteLength]
  · rcases exists_lastLine hEnds hSome with ⟨before, line, rfl, hBefore, hLine⟩
    have hText : Text.fold (before ++ (line ++ ['\n']) ++ after) =
        Text.fold other.chars := by
      rw [hChars, ← tree.chars_fold, h.fold_eq, other.chars_fold]
    rcases exists_line_of_fold_eq hText hBefore hLine with
      ⟨front, last, back, hOther, hFront, hLast, hEndsFront, hLastLine⟩
    have hSame : VisualBasic.remark (String.ofList line) =
        VisualBasic.remark (String.ofList last) := by
      rw [remarks_line hBefore hLine hChars.symm,
        remarks_line hEndsFront hLastLine hOther] at hRemarks
      refine (List.cons.inj (List.append_inj hRemarks ?_).2).1
      have hPieces := congrArg (fun cs => (cs.splitOn '\n').length) hFront
      simp only [splitOn_fold (x := '\n') (by decide), List.length_map] at hPieces
      simp [hPieces]
    have hLength : byteLength (before ++ (line ++ ['\n'])) =
        byteLength (front ++ (last ++ ['\n'])) := by
      rw [← byteLength_fold, fold_append, fold_append, hFront, hLast,
        ← fold_append, ← fold_append, byteLength_fold]
    rw [isExplained_of_line hChars.symm hBefore hLine, hLength,
      isExplained_of_line hOther hEndsFront hLastLine, h.isVisualBasic,
      h.otherIsVisualBasic, ← explains_remark, hSame, explains_remark]

------------------------------------------------------------
-- Edits
------------------------------------------------------------

theorem isInScope_respelled
    (h : tree.Respelled other)
    (target : String)
    (offset : Nat) :
    isInScope tree target offset = isInScope other target offset := by
  have hImport : tree.hasImport target = other.hasImport target := by
    rw [← tree.hasImport_fold h.isVisualBasic, h.fold_eq,
      other.hasImport_fold h.otherIsVisualBasic]
  have hSpaces : (tree.enclosingNamespaces offset).map lowerAscii =
      (other.enclosingNamespaces offset).map lowerAscii := by
    rw [← tree.enclosingNamespaces_fold, h.fold_eq,
      other.enclosingNamespaces_fold]
  have hInside := any_respelled
    (f := fun s => Language.visualBasic.namesEqual s target)
    (fun s => equalsIgnoringAsciiCase_lowerAscii s target) hSpaces
  rw [isInScope, hImport, h.isVisualBasic, hInside, isInScope,
    h.otherIsVisualBasic]

theorem renameEdits_respelled
    (h : tree.Respelled other)
    {node otherNode : NameNode}
    (hNode : node.fold = otherNode.fold)
    (newName : String) :
    renameEdits tree node newName = renameEdits other otherNode newName := by
  rcases NameNode.fold_eq_iff.mp hNode with ⟨-, hQualifier, -, -, hSpan, hFullSpan⟩
  have hSome := congrArg Option.isSome hQualifier
  rw [Option.isSome_map, Option.isSome_map] at hSome
  have hPlace : tree.importInsertionPoint = other.importInsertionPoint := by
    rw [← tree.importInsertionPoint_fold, h.fold_eq,
      other.importInsertionPoint_fold]
  simp only [renameEdits, hSome, hSpan, hFullSpan, isInScope_respelled h, hPlace,
    h.isVisualBasic, h.otherIsVisualBasic]

/- The name that is flagged gets one name in both spellings. -/
theorem rename_respelled
    (h : tree.Respelled other)
    {newName : NameNode → String}
    (hName : ∀ n m, n.Respelled m → newName n = newName m)
    (d : Diagnostic) :
    (do let node ← flaggedName tree d
        return renameEdits tree node (newName node)) =
      (do let node ← flaggedName other d
          return renameEdits other node (newName node)) := by
  have hPath : tree.path = other.path :=
    congrArg (fun tree => tree.path) h.fold_eq
  have hFound : Option.Rel NameNode.Respelled (tree.nameAt? d.location.span)
      (other.nameAt? d.location.span) := by
    refine rel_find? (fun n m hNode => ?_) h.names
    rcases NameNode.fold_eq_iff.mp hNode.fold_eq with
      ⟨-, -, -, -, hSpan, hFullSpan⟩
    rw [hSpan, hFullSpan]
  rw [flaggedName, flaggedName, hPath]
  generalize tree.nameAt? d.location.span = found at hFound ⊢
  generalize other.nameAt? d.location.span = otherFound at hFound ⊢
  cases hFound with
  | none => rfl
  | some hNode =>
      exact congrArg Except.ok
        ((renameEdits_respelled h hNode.fold_eq _).trans
          (by rw [hName _ _ hNode]))

theorem explainEdits_respelled
    (h : tree.Respelled other)
    (d : Diagnostic)
    (url : String) :
    explainEdits tree d url = explainEdits other d url := by
  have hStart : tree.lineStart d.location.span.start =
      other.lineStart d.location.span.start := by
    rw [← tree.lineStart_fold, h.fold_eq, other.lineStart_fold]
  have hIndentation : ∀ offset,
      tree.indentationAt offset = other.indentationAt offset := by
    intro offset
    rw [← tree.indentationAt_fold, h.fold_eq, other.indentationAt_fold]
  rw [explainEdits, isExplained_respelled h,
    hStart, hIndentation, h.isVisualBasic, explainEdits, h.otherIsVisualBasic]

/- A diagnostic has the same edits in both spellings. -/
theorem edits_respelled
    (h : tree.Respelled other)
    (fixer : Fixer)
    (d : Diagnostic) :
    fixer.edits tree d = fixer.edits other d := by
  have hExplain := explainEdits_respelled h d
  rw [edits, edits]
  refine congrArg d.fixHint.bind (funext fun hint => ?_)
  split
  · exact rename_respelled h (fun _ _ _ => rfl) d
  · refine rename_respelled h (fun n m hNode => ?_) d
    rw [attributeName, attributeName, hNode.hasSuffix_eq]
  · rw [hExplain]
  · rfl

end Fixer

------------------------------------------------------------
-- Texts
------------------------------------------------------------

namespace VisualBasic

/-
  Two texts that differ in letter case only, where no comment
  differs, and no name gets or loses the suffix of attribute
  types.
-/
structure Recased (text other : String) : Prop where
  lowerAscii_eq : lowerAscii text = lowerAscii other
  remarks_eq : remarks text = remarks other
  suffixes_eq : (parts text).suffixes = (parts other).suffixes

theorem Recased.respelled
    {text other : String}
    (h : Recased text other)
    (path : Path) :
    (SourceTree.ofVisualBasic path text).Respelled
      (.ofVisualBasic path other) where
  isVisualBasic := rfl
  fold_eq := by
    rw [SourceTree.fold_ofVisualBasic, h.lowerAscii_eq,
      SourceTree.fold_ofVisualBasic]
  remarks_eq := h.remarks_eq
  suffixes_eq := h.suffixes_eq

/- A part of a compilation, in which a source file may be recased. -/
inductive RecasedPart : Compilation.Part → Compilation.Part → Prop where
  | source
    (path : Path)
    {text other : String}
    (h : Recased text other) :
    RecasedPart (.source (.ofVisualBasic path text))
      (.source (.ofVisualBasic path other))
  | additional
    (file : AdditionalText) :
    RecasedPart (.additional file) (.additional file)
  | references
    (list : String) :
    RecasedPart (.references list) (.references list)

theorem RecasedPart.respelled
    {part other : Compilation.Part}
    (h : RecasedPart part other) :
    part.Respelled other := by
  cases h with
  | source path h => exact .source (h.respelled path)
  | additional file => exact .additional file
  | references list => exact .references list

/-
  Whatever a compilation of Visual Basic files is put
  together from, letter case does not matter to it: the same
  is reported, and each diagnostic is fixed in the same way.
  The symbols have to be told apart as before, for a table
  keeps names that differ in letter case.
-/
theorem run_recased
    {parts others : List Compilation.Part}
    (hParts : List.Forall₂ RecasedPart parts others)
    (hSpelled : SpelledAlike (parts.flatMap Compilation.Part.spellings)
      (others.flatMap Compilation.Part.spellings))
    (workers : Nat)
    (cancelled : Bool) :
    Analysis.run Analyzer.builtin (.ofParts parts) workers cancelled =
        Analysis.run Analyzer.builtin (.ofParts others) workers cancelled ∧
      List.Forall₂
        (fun tree other => ∀ (fixer : Fixer) (d : Diagnostic),
          fixer.edits tree d = fixer.edits other d)
        (Compilation.ofParts parts).trees (Compilation.ofParts others).trees := by
  rcases Compilation.ofParts_respelled (hParts.imp fun _ _ h => h.respelled)
    hSpelled with ⟨P, hP, h⟩
  exact ⟨Analysis.run_respelled hP h workers cancelled,
    h.trees.imp fun _ _ hTree => Fixer.edits_respelled hTree⟩

end VisualBasic

------------------------------------------------------------
-- Names that are told apart
------------------------------------------------------------

namespace LetterCase

def table : AdditionalText :=
  ⟨⟨"r.typemap"⟩, "B.X Z.Y\n"⟩

def mapping : TypeMapping :=
  ⟨"B.X", some "Z.Y"⟩

/- A class that is declared in two pieces, and a mention of it. -/
def together : String :=
  "Partial Class X\nEnd Class\nPartial Class X\nEnd Class\n" ++
    "Class C\n  Dim y As X\nEnd Class\n"

/- The same text with a small letter in the second piece. -/
def apart : String :=
  "Partial Class X\nEnd Class\nPartial Class x\nEnd Class\n" ++
    "Class C\n  Dim y As X\nEnd Class\n"

/- The same text, where no two names are spelled alike that were not before. -/
def swapped : String :=
  "PARTIAL Class x\nEND CLASS\npartial class X\nEnd Class\n" ++
    "Class c\n  DIM y as x\nend class\n"

/- An attribute with its suffix, and the same one in capital letters. -/
def suffixed : String :=
  "<XAttribute>\nClass C\nEnd Class\n"

def capital : String :=
  "<XATTRIBUTE>\nClass C\nEnd Class\n"

def file (text : String) : SourceTree :=
  .ofVisualBasic ⟨"a.vb"⟩ text

def parts (text : String) : List Compilation.Part :=
  [.additional table, .source (file text)]

def mention (name : String) : NameNode :=
  ⟨name, none, .simple, false, ⟨71, 72⟩, ⟨71, 72⟩⟩

def marked (name : String) : NameNode :=
  ⟨name, none, .attribute, false, ⟨1, 11⟩, ⟨1, 11⟩⟩

/- What the texts consist of. -/
theorem files_eq :
    file together = ⟨⟨"a.vb"⟩, .visualBasic, together,
      { names := [mention "X"]
        declarations := [⟨none, "X"⟩, ⟨none, "X"⟩, ⟨none, "C"⟩] }⟩ ∧
    file apart = ⟨⟨"a.vb"⟩, .visualBasic, apart,
      { names := [mention "X"]
        declarations := [⟨none, "X"⟩, ⟨none, "x"⟩, ⟨none, "C"⟩] }⟩ ∧
    file swapped = ⟨⟨"a.vb"⟩, .visualBasic, swapped,
      { names := [mention "x"]
        declarations := [⟨none, "x"⟩, ⟨none, "X"⟩, ⟨none, "c"⟩] }⟩ ∧
    file suffixed = ⟨⟨"a.vb"⟩, .visualBasic, suffixed,
      { names := [marked "XAttribute"], declarations := [⟨none, "C"⟩] }⟩ ∧
    file capital = ⟨⟨"a.vb"⟩, .visualBasic, capital,
      { names := [marked "XATTRIBUTE"], declarations := [⟨none, "C"⟩] }⟩ :=
  ⟨SourceTree.ofVisualBasic_eq String.ofList_append.symm (by decide +kernel),
    SourceTree.ofVisualBasic_eq String.ofList_append.symm (by decide +kernel),
    SourceTree.ofVisualBasic_eq String.ofList_append.symm (by decide +kernel),
    SourceTree.ofVisualBasic_eq rfl (by decide +kernel),
    SourceTree.ofVisualBasic_eq rfl (by decide +kernel)⟩

/- The texts differ in letter case only. -/
theorem recased :
    VisualBasic.Recased together apart ∧ VisualBasic.Recased apart swapped ∧
      lowerAscii suffixed = lowerAscii capital := by
  have hTexts :
      equalsIgnoringAsciiCase together apart = true ∧
      equalsIgnoringAsciiCase apart swapped = true ∧
      equalsIgnoringAsciiCase suffixed capital = true := by
    decide +kernel
  have hRemarks :
      VisualBasic.remarks together = VisualBasic.remarks apart ∧
      VisualBasic.remarks apart = VisualBasic.remarks swapped := by
    decide +kernel
  have hSuffixes : ∀ {text other : String},
      (file text).parts.suffixes = (file other).parts.suffixes →
      (VisualBasic.parts text).suffixes = (VisualBasic.parts other).suffixes :=
    id
  rw [← lowerAscii_eq_iff, ← lowerAscii_eq_iff, ← lowerAscii_eq_iff] at hTexts
  refine ⟨⟨hTexts.1, hRemarks.1, hSuffixes ?_⟩,
    ⟨hTexts.2.1, hRemarks.2, hSuffixes ?_⟩, hTexts.2.2⟩
  · rw [files_eq.1, files_eq.2.1]
    rfl
  · rw [files_eq.2.1, files_eq.2.2.1]
    rfl

def context (text : String) : NodeContext :=
  ⟨⟨file text, Compilation.declare .empty (file text)⟩, mention "X"⟩

def report : Diagnostic :=
  Mapping.report .types (context apart) mapping

def upgrade : Diagnostic :=
  Mapping.report .attributes
    ⟨⟨file suffixed, .empty⟩, marked "XAttribute"⟩
    ⟨"B.XAttribute", some "Z.YAttribute"⟩

/-
  Only in two spellings, the mention is found to be of no one
  type.  The suffix in capital letters is not found to be one.
-/
theorem outcomes_eq :
    (Mapping.flags .types (context together) (context together).resolution
          mapping = false ∧
        Mapping.flags .types (context apart) (context apart).resolution
          mapping = true) ∧
      (Fixer.attributeUpgrade.edits (file suffixed) upgrade).toOption =
        some [⟨⟨1, 11⟩, "YAttribute"⟩, .insertion 0 "Imports Z\n"] ∧
      (Fixer.attributeUpgrade.edits (file capital) upgrade).toOption =
        some [⟨⟨1, 11⟩, "Y"⟩, .insertion 0 "Imports Z\n"] := by
  simp only [context, upgrade, files_eq]
  decide +kernel

/- Whether the mention is reported depends on what it stands for. -/
theorem reports_eq
    {compilation : Compilation}
    (hAdditional : compilation.additional = [table])
    (text : String) :
    (Analyzer.builtin.flatMap fun a => a.reports compilation (context text)) =
      if Mapping.flags .types (context text) (context text).resolution mapping
      then [Mapping.report .types (context text) mapping] else [] := by
  have hLoad : TypeMap.load compilation.additional =
      TypeMap.extend TypeMap.builtin [mapping] := by
    rw [hAdditional]
    exact TypeMap.load_singleton (by decide) (by decide)
  have hFiles : ApiRule.ofFiles compilation.additional = [] := by
    rw [hAdditional]
    decide
  have hRules : ∀ rule ∈ ApiRule.builtin, ∀ t ∈ rule.targets,
      ApiAlert.isWrittenLike
        ⟨⟨⟨⟨""⟩, .visualBasic, "", {}⟩, .empty⟩, mention "X"⟩ t = false := by
    decide +kernel
  have hKey : Mapping.entryKey .types mapping =
      Mapping.writtenKey .types (mention "X").simpleName := by
    decide
  have hSize : (lastPart (mention "X").qualifiedName).toByteArray.data.toList.length =
      1 := by
    decide
  have hNode : (context text).node = mention "X" := rfl
  rw [Analyzer.flatMap_reports_builtin (c := context text) hFiles hRules rfl,
    Analyzer.reports_interopApi_eq_nil rfl, List.append_nil,
    Analyzer.reports_typeUpgrade, hLoad]
  exact Mapping.analyze_of_short rfl hKey (hNode ▸ hSize)

theorem run_eq
    {text : String}
    (hNames : (file text).names = [mention "X"]) :
    Analysis.run Analyzer.builtin (.ofParts (parts text)) 1 false =
      .ok (if Mapping.flags .types (context text) (context text).resolution
          mapping then [Mapping.report .types (context text) mapping] else []) := by
  let compilation := Compilation.ofParts (parts text)
  have hAll : ([file text].flatMap fun tree => tree.names.flatMap fun node =>
      Analyzer.builtin.flatMap fun a =>
        a.reports compilation ⟨compilation.model tree, node⟩) =
      if Mapping.flags .types (context text) (context text).resolution mapping
      then [Mapping.report .types (context text) mapping] else [] := by
    have hAdditional : compilation.additional = [table] := rfl
    rw [List.flatMap_singleton, hNames, List.flatMap_singleton]
    exact reports_eq hAdditional text
  rw [Analysis.run_builtin]
  refine congrArg _ ((congrArg Diagnostic.arrange hAll).trans ?_)
  split <;> simp [Diagnostic.arrange, Diagnostic.dropRepeats]

theorem run_apart :
    Analysis.run Analyzer.builtin (.ofParts (parts apart)) 1 false =
      .ok [report] := by
  rw [run_eq (congrArg SourceTree.names files_eq.2.1), outcomes_eq.1.2]
  rfl

/-
  A table keeps two spellings of a class, and so the second
  text is reported.  Where the suffix of an attribute is in
  capital letters, it is not kept.
-/
theorem run_ne_of_recased :
    (VisualBasic.Recased together apart ∧
      Analysis.run Analyzer.builtin (.ofParts (parts together)) 1 false =
        .ok [] ∧
      Analysis.run Analyzer.builtin (.ofParts (parts apart)) 1 false =
        .ok [report]) ∧
    lowerAscii suffixed = lowerAscii capital ∧
      Fixer.attributeUpgrade.edits (file suffixed) upgrade ≠
        Fixer.attributeUpgrade.edits (file capital) upgrade := by
  refine ⟨⟨recased.1, ?_, run_apart⟩, recased.2.2, ?_⟩
  · rw [run_eq (congrArg SourceTree.names files_eq.1), outcomes_eq.1.1]
    rfl
  · intro hSame
    have hTexts := congrArg Except.toOption hSame
    rw [outcomes_eq.2.1, outcomes_eq.2.2] at hTexts
    simp at hTexts

/- Where the spellings change places, the same is reported. -/
theorem run_recased_of_swapped :
    SpelledAlike ((parts apart).flatMap Compilation.Part.spellings)
      ((parts swapped).flatMap Compilation.Part.spellings) ∧
    Analysis.run Analyzer.builtin (.ofParts (parts swapped)) 1 false =
      .ok [report] ∧
    ∀ (fixer : Fixer) (d : Diagnostic),
      fixer.edits (file apart) d = fixer.edits (file swapped) d := by
  have hSpelled : SpelledAlike ((parts apart).flatMap Compilation.Part.spellings)
      ((parts swapped).flatMap Compilation.Part.spellings) := by
    rw [parts, parts, files_eq.2.1, files_eq.2.2.1]
    decide +kernel
  rcases VisualBasic.run_recased
    (.cons (.additional table) (.cons (.source ⟨"a.vb"⟩ recased.2.1) .nil))
    hSpelled 1 false with ⟨hRun, hEdits⟩
  rcases List.forall₂_cons.mp hEdits with ⟨hFile, -⟩
  exact ⟨hSpelled, hRun.symm.trans run_apart, hFile⟩

end LetterCase

end Retarget
