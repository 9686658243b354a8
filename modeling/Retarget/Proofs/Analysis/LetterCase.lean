import Retarget.Proofs.Analysis.FileOrder
import Retarget.Proofs.Symbol.LetterCase

/-
  This file shows that no analyzer counts letter case.  At a
  name in two spellings it reports the same, where both or
  neither of them ends in the suffix of attribute types.

  Key definitions include:
    * `NodeContext.Respelled`
    * `SourceTree.Respelled`
    * `Compilation.ofParts`
    * `Compilation.Respelled`

  Key statements include:
    * `attributeForms_respelled`
    * `NodeAnalyzer.analyze_respelled`
    * `Compilation.Respelled.add`
    * `Compilation.ofParts_respelled`
    * `Analysis.run_respelled`
-/

namespace Retarget

open Text

variable {P : String → String → Prop}

------------------------------------------------------------
-- Written names
------------------------------------------------------------

theorem isNameSuffix_lowerAscii
    (written fullName : String) :
    isNameSuffix (lowerAscii written) fullName .visualBasic =
      isNameSuffix written fullName .visualBasic := by
  have hSame : ∀ end_ : String,
      Language.visualBasic.namesEqual end_ (lowerAscii written) =
        Language.visualBasic.namesEqual end_ written := by
    intro end_
    rw [Language.namesEqual_comm, Language.namesEqual_comm _ end_]
    exact equalsIgnoringAsciiCase_lowerAscii written end_
  have hSome : lowerAscii written ≠ "" ↔ written ≠ "" := by
    rw [ne_eq, ne_eq, ← String.isEmpty_iff, isEmpty_lowerAscii,
      String.isEmpty_iff]
  rw [Bool.eq_iff_iff, isNameSuffix_iff, isNameSuffix_iff]
  simp only [hSome, hSame]

theorem attributeKey_lowerAscii
    (simpleName : String) :
    attributeKey (lowerAscii simpleName) = attributeKey simpleName := by
  rw [attributeKey, lower_lowerAscii]
  rfl

theorem NameNode.hasEnd_qualifiedName
    (node : NameNode) :
    hasEnd "Attribute" node.qualifiedName = hasEnd "Attribute" node.simpleName := by
  rw [qualifiedName]
  cases node.qualifier with
  | none => rfl
  | some qualifier => exact hasEnd_dotted (by decide) _ _

theorem attributeForms_respelled
    {written other : String}
    (hName : lowerAscii written = lowerAscii other)
    (hSuffix : hasEnd "Attribute" written = hasEnd "Attribute" other) :
    (attributeForms written).map lowerAscii =
      (attributeForms other).map lowerAscii := by
  rw [hasEnd_eq_isSome, hasEnd_eq_isSome] at hSuffix
  cases hStem : stripEnd? "Attribute" written with
  | none =>
      rw [hStem, Option.isSome_none, eq_comm, Option.isSome_eq_false_iff,
        Option.isNone_iff_eq_none] at hSuffix
      rw [attributeForms, hStem, attributeForms, hSuffix]
      simp [hName, lowerAscii_append]
  | some stem =>
      rw [hStem, Option.isSome_some, eq_comm, Option.isSome_iff_exists] at hSuffix
      rcases hSuffix with ⟨otherStem, hOther⟩
      have hStems : lowerAscii stem = lowerAscii otherStem := by
        rw [stripEnd?_eq_some_iff.mp hStem, stripEnd?_eq_some_iff.mp hOther,
          lowerAscii_append, lowerAscii_append] at hName
        have hChars := congrArg String.toList hName
        rw [String.toList_append, String.toList_append] at hChars
        exact String.toList_inj.mp (List.append_cancel_right hChars)
      have hDot : ∀ s, hasEnd "." (lowerAscii s) = hasEnd "." s :=
        hasEnd_lowerAscii (by decide)
      rw [attributeForms, hStem, attributeForms, hOther]
      dsimp only
      rw [← isEmpty_lowerAscii stem, ← hDot stem, hStems, hDot,
        isEmpty_lowerAscii]
      split <;> simp [hName, hStems, lowerAscii_append]

theorem any_respelled
    {f : String → Bool}
    (hf : ∀ name, f (lowerAscii name) = f name)
    {names others : List String}
    (hNames : names.map lowerAscii = others.map lowerAscii) :
    names.any f = others.any f := by
  have hFold : ∀ names : List String, names.any f = (names.map lowerAscii).any f := by
    intro names
    rw [List.any_map]
    congr 1
    funext name
    exact (hf name).symm
  rw [hFold, hNames, ← hFold]

------------------------------------------------------------
-- Names in their surroundings
------------------------------------------------------------

theorem Resolution.confirms_fold
    (r : Resolution)
    (m : NameMatcher)
    (otherwise : Bool) :
    r.fold.confirms m otherwise = r.confirms m otherwise := by
  cases r with
  | resolved s => exact m.matchesSymbol_fold s
  | errorType name => rfl
  | unresolved => rfl

theorem Resolution.confirmsOr_fold
    (r : Resolution)
    (m : NameMatcher)
    (isOpen : Bool) :
    r.fold.confirmsOr m isOpen = r.confirmsOr m isOpen := by
  cases r with
  | resolved s => exact m.matchesSymbol_fold s
  | errorType name => rfl
  | unresolved => rfl

theorem Location.inTree_fold
    (tree : SourceTree)
    (span : Span) :
    inTree tree.fold span = inTree tree span := by
  rw [inTree, tree.lineColumn_fold]
  rfl

/- Two spellings of a name, with the suffix of attribute types kept. -/
structure NameNode.Respelled (node other : NameNode) : Prop where
  fold_eq : node.fold = other.fold
  hasSuffix_eq :
    hasEnd "Attribute" node.simpleName = hasEnd "Attribute" other.simpleName

/- Such a name in two spellings of its file. -/
structure NodeContext.Respelled
    (P : String → String → Prop)
    (c other : NodeContext) : Prop where
  model : c.model.Respelled P other.model
  node : c.node.Respelled other.node

variable {c other : NodeContext}

namespace NodeContext.Respelled

theorem language_eq
    (h : c.Respelled P other) :
    c.language = .visualBasic :=
  h.model.isVisualBasic

theorem otherLanguage_eq
    (h : c.Respelled P other) :
    other.language = .visualBasic :=
  h.model.otherIsVisualBasic

theorem simpleName_eq
    (h : c.Respelled P other) :
    lowerAscii c.node.simpleName = lowerAscii other.node.simpleName :=
  (NameNode.fold_eq_iff.mp h.node.fold_eq).1

theorem qualifier_eq
    (h : c.Respelled P other) :
    c.node.qualifier.map lowerAscii = other.node.qualifier.map lowerAscii :=
  (NameNode.fold_eq_iff.mp h.node.fold_eq).2.1

theorem context_eq
    (h : c.Respelled P other) :
    c.node.context = other.node.context :=
  (NameNode.fold_eq_iff.mp h.node.fold_eq).2.2.1

theorem span_eq
    (h : c.Respelled P other) :
    c.node.span = other.node.span ∧ c.node.fullSpan = other.node.fullSpan :=
  (NameNode.fold_eq_iff.mp h.node.fold_eq).2.2.2.2

theorem isMemberAccess_eq
    (h : c.Respelled P other) :
    c.node.isMemberAccess = other.node.isMemberAccess := by
  rw [NameNode.isMemberAccess, h.context_eq, NameNode.isMemberAccess]

theorem isNone_eq
    (h : c.Respelled P other) :
    c.node.qualifier.isNone = other.node.qualifier.isNone := by
  have hQualifier := congrArg Option.isNone h.qualifier_eq
  rwa [Option.isNone_map, Option.isNone_map] at hQualifier

theorem qualifiedName_eq
    (h : c.Respelled P other) :
    lowerAscii c.node.qualifiedName = lowerAscii other.node.qualifiedName := by
  rw [← NameNode.qualifiedName_fold, h.node.fold_eq, NameNode.qualifiedName_fold]

theorem forms_eq
    (h : c.Respelled P other) :
    (attributeForms c.node.qualifiedName).map lowerAscii =
      (attributeForms other.node.qualifiedName).map lowerAscii := by
  refine attributeForms_respelled h.qualifiedName_eq ?_
  rw [NameNode.hasEnd_qualifiedName, h.node.hasSuffix_eq,
    NameNode.hasEnd_qualifiedName]

theorem attributeKey_eq
    (h : c.Respelled P other) :
    attributeKey c.node.simpleName = attributeKey other.node.simpleName := by
  rw [← attributeKey_lowerAscii, h.simpleName_eq, attributeKey_lowerAscii]

theorem namesEqual_eq
    (h : c.Respelled P other)
    (name : String) :
    c.language.namesEqual c.node.simpleName name =
      other.language.namesEqual other.node.simpleName name := by
  rw [h.language_eq, h.otherLanguage_eq, Language.namesEqual,
    ← equalsIgnoringAsciiCase_lowerAscii, h.simpleName_eq,
    equalsIgnoringAsciiCase_lowerAscii]
  rfl

theorem inTree_eq
    (h : c.Respelled P other)
    (span : Span) :
    Location.inTree c.tree span = Location.inTree other.tree span := by
  rw [← Location.inTree_fold, NodeContext.tree, h.model.tree_eq,
    Location.inTree_fold]
  rfl

theorem confirms_eq
    (hP : Respells P)
    (h : c.Respelled P other)
    (m : NameMatcher)
    (otherwise : Bool) :
    c.resolution.confirms m otherwise = other.resolution.confirms m otherwise := by
  have hResolution := h.model.fold_resolve hP h.node.fold_eq
  rw [← Resolution.confirms_fold, NodeContext.resolution, hResolution,
    Resolution.confirms_fold]
  rfl

theorem confirmsOr_eq
    (hP : Respells P)
    (h : c.Respelled P other)
    (m : NameMatcher)
    (isOpen : Bool) :
    c.resolution.confirmsOr m isOpen = other.resolution.confirmsOr m isOpen := by
  have hResolution := h.model.fold_resolve hP h.node.fold_eq
  rw [← Resolution.confirmsOr_fold, NodeContext.resolution, hResolution,
    Resolution.confirmsOr_fold]
  rfl

end NodeContext.Respelled

------------------------------------------------------------
-- Analyzers
------------------------------------------------------------

theorem ApiAlert.isWrittenLike_respelled
    (h : c.Respelled P other)
    (target : ApiTarget) :
    isWrittenLike c target = isWrittenLike other target := by
  have hForms := any_respelled
    (f := fun w => isNameSuffix w target.fullName .visualBasic)
    (fun w => isNameSuffix_lowerAscii w target.fullName) h.forms_eq
  rw [isWrittenLike, isWrittenLike, h.isMemberAccess_eq, h.namesEqual_eq,
    h.isNone_eq, h.language_eq, h.otherLanguage_eq, hForms]

theorem ApiAlert.report_respelled
    (h : c.Respelled P other)
    (e : Entry) :
    report c e = report other e := by
  rw [report, report, h.span_eq.1, h.span_eq.2, h.inTree_eq]

theorem ApiAlert.analyze_respelled
    (hP : Respells P)
    (h : c.Respelled P other)
    (index : NameIndex Entry) :
    analyze index c = analyze index other := by
  have hAll : ∀ reported es,
      reportAll c c.resolution reported es =
        reportAll other other.resolution reported es := by
    intro reported es
    induction es generalizing reported with
    | nil => rfl
    | cons e rest ih =>
        rw [reportAll, reportAll, ih, ih, flags, flags,
          isWrittenLike_respelled h, h.confirms_eq hP, report_respelled h]
  rw [analyze, analyze, h.attributeKey_eq]
  split
  · rfl
  · exact hAll [] _

namespace Mapping

theorem isImported_respelled
    (h : c.Respelled P other)
    (m : TypeMapping) :
    isImported c m = isImported other m := by
  have hImport : ∀ target, c.tree.hasImport target = other.tree.hasImport target := by
    intro target
    have hFold := other.tree.hasImport_fold h.otherLanguage_eq target
    rw [← c.tree.hasImport_fold h.language_eq, NodeContext.tree,
      h.model.tree_eq]
    exact hFold
  rw [isImported, funext hImport, isImported]

theorem writtenForms_respelled
    (h : c.Respelled P other)
    (mode : Mode) :
    (writtenForms mode c.node).map lowerAscii =
      (writtenForms mode other.node).map lowerAscii := by
  cases mode with
  | types => exact congrArg (fun name => [name]) h.qualifiedName_eq
  | attributes => exact h.forms_eq

theorem flags_respelled
    (hP : Respells P)
    (h : c.Respelled P other)
    (mode : Mode)
    (m : TypeMapping) :
    flags mode c c.resolution m = flags mode other other.resolution m := by
  have hForms := writtenForms_respelled h mode
  have hSpelled := any_respelled
    (f := fun w => Language.visualBasic.namesEqual w m.oldName)
    (fun w => equalsIgnoringAsciiCase_lowerAscii w m.oldName) hForms
  have hPlaced := any_respelled
    (f := fun w => isNameSuffix w m.oldName .visualBasic)
    (fun w => isNameSuffix_lowerAscii w m.oldName) hForms
  have hFlags : ∀ c : NodeContext, c.language = .visualBasic →
      flags mode c c.resolution m =
        let forms := writtenForms mode c.node
        let spelledOut := forms.any fun w =>
          Language.visualBasic.namesEqual w m.oldName
        (!c.node.isMemberAccess || spelledOut) &&
          (forms.any fun w => isNameSuffix w m.oldName .visualBasic) &&
          c.resolution.confirmsOr (.forType m.oldName)
            (spelledOut || (c.node.qualifier.isNone && isImported c m)) := by
    intro c hLanguage
    rw [← hLanguage]
    rfl
  rw [hFlags c h.language_eq, hFlags other h.otherLanguage_eq]
  dsimp only
  rw [hSpelled, hPlaced, h.isMemberAccess_eq, h.isNone_eq,
    isImported_respelled h, h.confirmsOr_eq hP]

theorem analyze_respelled
    (hP : Respells P)
    (h : c.Respelled P other)
    (mode : Mode)
    (index : NameIndex TypeMapping) :
    analyze mode index c = analyze mode index other := by
  have hKey : writtenKey mode c.node.simpleName =
      writtenKey mode other.node.simpleName := by
    cases mode with
    | types =>
        rw [writtenKey, ← lower_lowerAscii, h.simpleName_eq, lower_lowerAscii]
        rfl
    | attributes => exact h.attributeKey_eq
  have hPreferred : ∀ ms, preferred c ms = preferred other ms := by
    intro ms
    rw [preferred, preferred, funext (isImported_respelled h)]
  have hReport : report mode c = report mode other := by
    funext m
    rw [report, report, h.span_eq.2, h.inTree_eq]
  rw [analyze, analyze, h.context_eq, hKey]
  split
  · split
    · rfl
    · dsimp only
      rw [hPreferred, hReport, funext (flags_respelled hP h mode)]
  · rfl

end Mapping

theorem Interop.analyze_respelled
    (hP : Respells P)
    (h : c.Respelled P other)
    (apis : List InteropApi) :
    analyze apis c = analyze apis other := by
  have hQualifier := h.qualifier_eq
  rw [analyze, analyze, h.isMemberAccess_eq]
  split
  · cases hBefore : c.node.qualifier with
    | none =>
        rw [hBefore, Option.map_none, eq_comm, Option.map_eq_none_iff] at hQualifier
        rw [hQualifier]
    | some qualifier =>
        rw [hBefore, Option.map_some, eq_comm, Option.map_eq_some_iff] at hQualifier
        rcases hQualifier with ⟨otherQualifier, hOther, hSame⟩
        have hWritten : isWrittenLike c qualifier =
            isWrittenLike other otherQualifier := by
          funext api
          rw [isWrittenLike, h.namesEqual_eq, h.language_eq,
            ← isNameSuffix_lowerAscii, ← hSame, isNameSuffix_lowerAscii,
            isWrittenLike, h.otherLanguage_eq]
        rw [hOther]
        dsimp only
        rw [hWritten]
        cases apis.find? (isWrittenLike other otherQualifier) with
        | none => rfl
        | some api =>
            dsimp only
            rw [h.confirms_eq hP, h.span_eq.2, h.inTree_eq]
  · rfl

/- No analyzer tells two spellings of a name apart. -/
theorem NodeAnalyzer.analyze_respelled
    (hP : Respells P)
    (h : c.Respelled P other)
    (a : NodeAnalyzer) :
    a.analyze c = a.analyze other := by
  cases a with
  | alerts index => exact ApiAlert.analyze_respelled hP h index
  | mappings mode index => exact Mapping.analyze_respelled hP h mode index
  | interop apis => exact Interop.analyze_respelled hP h apis

------------------------------------------------------------
-- Files
------------------------------------------------------------

namespace VisualBasic

/- The line holds nothing but a comment. -/
def isRemark (line : String) : Bool :=
  hasStart Language.visualBasic.lineComment (trimStart line)

/- A line that holds nothing but a comment, or nothing at all. -/
def remark (line : String) : String :=
  if isRemark line then line else ""

/- The lines of a text, of which only the comments are left. -/
def remarks (text : String) : List String :=
  (splitAt '\n' text).map remark

end VisualBasic

/- Which of the names in a file end in the suffix of attribute types. -/
def SourceParts.suffixes (parts : SourceParts) : List Bool :=
  parts.names.map fun node => hasEnd "Attribute" node.simpleName

namespace SourceTree

/- Two spellings of a Visual Basic file, with comments and suffixes kept. -/
structure Respelled (tree other : SourceTree) : Prop where
  isVisualBasic : tree.language = .visualBasic
  fold_eq : tree.fold = other.fold
  remarks_eq :
    VisualBasic.remarks tree.text = VisualBasic.remarks other.text
  suffixes_eq : tree.parts.suffixes = other.parts.suffixes

namespace Respelled

variable {tree other : SourceTree}

theorem otherIsVisualBasic
    (h : tree.Respelled other) :
    other.language = .visualBasic :=
  (congrArg SourceTree.language h.fold_eq).symm.trans h.isVisualBasic

theorem names
    (h : tree.Respelled other) :
    List.Forall₂ NameNode.Respelled tree.names other.names := by
  have hNames : tree.names.map NameNode.fold = other.names.map NameNode.fold :=
    congrArg SourceTree.names h.fold_eq
  exact List.Forall₂.mp (fun _ _ => .mk) (forall₂_of_map_eq hNames)
    (forall₂_of_map_eq h.suffixes_eq)

theorem spellings
    (h : tree.Respelled other) :
    List.Forall₂ (fun n m => lowerAscii n = lowerAscii m)
      tree.spellings other.spellings := by
  have hParts : tree.parts.fold = other.parts.fold :=
    congrArg SourceTree.parts h.fold_eq
  refine List.rel_flatMap (forall₂_declared hParts) fun n m hName => ?_
  refine forall₂_of_map_eq ?_
  rw [← spellings_fold, hName, spellings_fold]

end Respelled

end SourceTree

------------------------------------------------------------
-- Compilations
------------------------------------------------------------

namespace Compilation

/- What a compilation is put together from. -/
inductive Part where
  | source (tree : SourceTree)
  | additional (file : AdditionalText)
  | references (list : String)

namespace Part

/- The names that a part adds to the symbols. -/
def spellings : Part → List String
  | source tree => tree.spellings
  | additional _ => []
  | references list => (SymbolTable.ofReferenceList list).spellings

/- Only a source file has another spelling. -/
inductive Respelled : Part → Part → Prop where
  | source
    {tree other : SourceTree}
    (hTree : tree.Respelled other) :
    Respelled (source tree) (source other)
  | additional
    (file : AdditionalText) :
    Respelled (additional file) (additional file)
  | references
    (list : String) :
    Respelled (references list) (references list)

theorem Respelled.spellings
    {part other : Part}
    (h : part.Respelled other) :
    List.Forall₂ (fun n m => lowerAscii n = lowerAscii m)
      part.spellings other.spellings := by
  cases h with
  | source hTree => exact hTree.spellings
  | additional file => exact List.Forall₂.nil
  | references list => exact List.forall₂_refl _

end Part

def add (c : Compilation) : Part → Compilation
  | .source tree => c.addTree tree
  | .additional file => c.addAdditional file
  | .references list => c.withReferences (.ofReferenceList list)

/- Put a compilation together, part by part. -/
def ofParts (parts : List Part) : Compilation :=
  parts.foldl add .empty

/- Compilations whose files and symbols are spelled in two ways. -/
structure Respelled
    (P : String → String → Prop)
    (c other : Compilation) : Prop where
  trees : List.Forall₂ SourceTree.Respelled c.trees other.trees
  additional_eq : c.additional = other.additional
  symbols : c.symbols.Respelled P other.symbols

variable {c other : Compilation}

theorem Respelled.add
    (hP : Respells P)
    (h : c.Respelled P other)
    {part otherPart : Part}
    (hPart : part.Respelled otherPart)
    (hSpelled : List.Forall₂ P part.spellings otherPart.spellings) :
    (c.add part).Respelled P (other.add otherPart) := by
  cases hPart with
  | source hTree =>
      exact ⟨List.rel_append h.trees (.cons hTree .nil), h.additional_eq,
        h.symbols.declare hP (congrArg SourceTree.parts hTree.fold_eq) hSpelled⟩
  | additional file =>
      exact ⟨h.trees, congrArg (· ++ [file]) h.additional_eq, h.symbols⟩
  | references list =>
      exact ⟨h.trees, h.additional_eq,
        h.symbols.merge hP (SymbolTable.ofReferenceList_isSound list)
          (List.forall₂_same.mp hSpelled)⟩

/- Parts that spell the same names alike make up alike compilations. -/
theorem ofParts_respelled
    {parts others : List Part}
    (hParts : List.Forall₂ Part.Respelled parts others)
    (hSpelled : SpelledAlike (parts.flatMap Part.spellings)
      (others.flatMap Part.spellings)) :
    ∃ P, Respells P ∧ (ofParts parts).Respelled P (ofParts others) := by
  let names := parts.flatMap Part.spellings
  let otherNames := others.flatMap Part.spellings
  have hLower : List.Forall₂ (fun n m => lowerAscii n = lowerAscii m)
      names otherNames :=
    List.rel_flatMap hParts fun _ _ hPart => hPart.spellings
  let P := fun n m => (n, m) ∈ names.zip otherNames
  have hP : Respells P :=
    ⟨List.forall₂_zip hLower, fun hFirst hLast => hSpelled _ hFirst _ hLast⟩
  have hAll : List.Forall₂ P names otherNames :=
    List.forall₂_iff_zip.mpr ⟨hLower.length_eq, id⟩
  have hBoth := forall₂_of_flatMap
    (fun _ _ hPart => hPart.spellings.length_eq) hParts hAll
  have hEmpty : Respelled P .empty .empty :=
    ⟨.nil, rfl, .empty_isSound, .empty_isSound, .nil⟩
  refine ⟨P, hP, List.rel_foldl ?_ hEmpty hBoth⟩
  intro c other h part otherPart hPart
  exact h.add hP hPart.1 hPart.2

end Compilation

namespace Analysis

variable {c other : Compilation}

theorem analyzeTree_respelled
    (hP : Respells P)
    (hSymbols : c.symbols.Respelled P other.symbols)
    {tree otherTree : SourceTree}
    (hTree : tree.Respelled otherTree)
    (analyzers : List NodeAnalyzer) :
    analyzeTree c analyzers tree = analyzeTree other analyzers otherTree := by
  have hModel : (c.model tree).Respelled P (other.model otherTree) :=
    ⟨hTree.isVisualBasic, hTree.fold_eq, hSymbols⟩
  refine flatMap_eq_of_forall₂ (hTree.names.imp fun node otherNode hNode => ?_)
  have hContext : NodeContext.Respelled P ⟨c.model tree, node⟩
      ⟨other.model otherTree, otherNode⟩ :=
    ⟨hModel, hNode⟩
  exact congrArg analyzers.flatMap
    (funext (NodeAnalyzer.analyze_respelled hP hContext))

/- Nothing is reported otherwise where only letter case differs. -/
theorem run_respelled
    (hP : Respells P)
    (h : c.Respelled P other)
    (workers : Nat)
    (cancelled : Bool) :
    run Analyzer.builtin c workers cancelled =
      run Analyzer.builtin other workers cancelled := by
  cases cancelled with
  | true => rw [run, run, if_pos rfl, if_pos rfl]
  | false =>
      have hStarted : ∀ a : Analyzer, a.start? c = a.start? other :=
        fun a => Analyzer.start?_congr h.additional_eq a
      rw [run_eq_arrange, run_eq_arrange]
      change Except.ok (Diagnostic.arrange (found Analyzer.builtin c)) =
        Except.ok (Diagnostic.arrange (found Analyzer.builtin other))
      rw [found, found, funext hStarted]
      refine congrArg (fun reports => Except.ok (Diagnostic.arrange reports)) ?_
      exact flatMap_eq_of_forall₂ (h.trees.imp fun _ _ hTree =>
        analyzeTree_respelled hP h.symbols hTree _)

end Analysis

end Retarget
