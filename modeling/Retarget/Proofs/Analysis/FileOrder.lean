import Retarget.Proofs.Source.Tree
import Retarget.Proofs.Symbol.Declaration
import Retarget.Proofs.Symbol.Resolution
import Retarget.Proofs.Analysis.Arrangement

/-
  This file shows when the order of the source files does
  not matter to a run.  The files then declare the same
  names in every order, no analyzer tells the tables apart,
  and the reports of a file are never mixed with another's.

  Key definitions include:
    * `Compilation.before`

  Key statements include:
    * `NodeAnalyzer.analyze_congr`
    * `Analysis.like_flatMap_perm`
    * `SymbolTable.settles_of_regular`
    * `Analysis.run_eq_of_perm`
-/

namespace Retarget

------------------------------------------------------------
-- Analyzers
------------------------------------------------------------

/- A resolution confirms through the symbol that it knows. -/
theorem Resolution.confirms_eq
    (r : Resolution)
    (m : NameMatcher)
    (otherwise : Bool) :
    r.confirms m otherwise = r.known?.elim otherwise m.matchesSymbol := by
  cases r <;> rfl

theorem Resolution.Agrees.confirms_congr
    {r other : Resolution}
    (h : r.Agrees other)
    (m : NameMatcher)
    (otherwise : Bool) :
    r.confirms m otherwise = other.confirms m otherwise := by
  rw [Resolution.Agrees] at h
  rw [Resolution.confirms_eq, Resolution.confirms_eq]
  generalize r.known? = known at h ⊢
  generalize other.known? = otherKnown at h ⊢
  cases h with
  | none => rfl
  | some hAlike => exact m.matchesSymbol_congr hAlike

/- What is known has to confirm a name, and an open name may count. -/
def Resolution.confirmsOr
    (r : Resolution)
    (m : NameMatcher)
    (isOpen : Bool) : Bool :=
  match r with
  | .unresolved => isOpen
  | known => known.confirms m true

/- Where an open name counts, it need not be told from an error. -/
theorem Resolution.Agrees.confirmsOr_congr
    {r other : Resolution}
    {isOpen : Bool}
    (h : r.Agrees other)
    (hOpen : isOpen = true ∨ (r = .unresolved ↔ other = .unresolved))
    (m : NameMatcher) :
    r.confirmsOr m isOpen = other.confirmsOr m isOpen := by
  have hKnown : ∀ r : Resolution, isOpen = true ∨ r ≠ .unresolved →
      r.confirmsOr m isOpen = r.confirms m true := by
    intro r hr
    cases r with
    | resolved s => rfl
    | errorType name => rfl
    | unresolved => exact hr.resolve_right fun hNe => hNe rfl
  by_cases hBoth : isOpen = true ∨ r ≠ .unresolved
  · have hOther : isOpen = true ∨ other ≠ .unresolved := by
      rcases hOpen with hTrue | hIff
      · exact Or.inl hTrue
      · exact hBoth.imp id (mt hIff.mpr)
    rw [hKnown r hBoth, hKnown other hOther, h.confirms_congr]
  · rcases not_or.mp hBoth with ⟨hClosed, hUnresolved⟩
    have hr := not_not.mp hUnresolved
    rw [hr, (hOpen.resolve_left hClosed).mp hr]

section Congr

variable (table other : SymbolTable)
variable (tree : SourceTree)
variable {node : NameNode}
variable {r another : Resolution}

theorem ApiAlert.flags_congr
    (h : r.Agrees another)
    (target : ApiTarget) :
    flags ⟨⟨tree, table⟩, node⟩ r target =
      flags ⟨⟨tree, other⟩, node⟩ another target := by
  rw [flags, flags, h.confirms_congr]
  rfl

theorem ApiAlert.reportAll_congr
    (h : r.Agrees another)
    (reported : List Nat)
    (es : List Entry) :
    reportAll ⟨⟨tree, table⟩, node⟩ r reported es =
      reportAll ⟨⟨tree, other⟩, node⟩ another reported es := by
  induction es generalizing reported with
  | nil => rfl
  | cons e rest ih =>
      rw [reportAll, reportAll, ih, ih, flags_congr table other tree h]
      rfl

/-
  Only for a member can the tables differ in whether a name
  is open, and a member is flagged only if it is spelled out.
-/
theorem Mapping.flags_congr
    (h : r.Agrees another)
    (hOpen : node.isMemberAccess = false →
      (r = .unresolved ↔ another = .unresolved))
    (mode : Mode)
    (m : TypeMapping) :
    flags mode ⟨⟨tree, table⟩, node⟩ r m =
      flags mode ⟨⟨tree, other⟩, node⟩ another m := by
  let forms := writtenForms mode node
  let spelledOut := forms.any fun w => tree.language.namesEqual w m.oldName
  let isPlaced := forms.any fun w => isNameSuffix w m.oldName tree.language
  let isOpen := spelledOut ||
    (node.qualifier.isNone && isImported ⟨⟨tree, table⟩, node⟩ m)
  change ((!node.isMemberAccess || spelledOut) && isPlaced &&
      r.confirmsOr (.forType m.oldName) isOpen) =
    ((!node.isMemberAccess || spelledOut) && isPlaced &&
      another.confirmsOr (.forType m.oldName) isOpen)
  by_cases hShown : (!node.isMemberAccess || spelledOut) = true
  · refine congrArg _ (h.confirmsOr_congr ?_ _)
    rw [Bool.or_eq_true, Bool.not_eq_true'] at hShown
    rcases hShown with hOther | hSpelled
    · exact Or.inr (hOpen hOther)
    · exact Or.inl (Bool.or_eq_true_iff.mpr (Or.inl hSpelled))
  · rw [Bool.eq_false_iff.mpr hShown]
    rfl

end Congr

theorem NodeAnalyzer.analyze_congr
    {table other : SymbolTable}
    (h : table.Alike other)
    (a : NodeAnalyzer)
    (tree : SourceTree)
    (node : NameNode) :
    a.analyze ⟨⟨tree, table⟩, node⟩ = a.analyze ⟨⟨tree, other⟩, node⟩ := by
  rcases SemanticModel.resolve_agrees h tree node with ⟨hAgrees, hOpen⟩
  cases a with
  | alerts index =>
      rw [analyze, analyze, ApiAlert.analyze, ApiAlert.analyze]
      dsimp only
      split
      · rfl
      · exact ApiAlert.reportAll_congr table other tree hAgrees _ _
  | mappings mode index =>
      have hFlags := funext
        (Mapping.flags_congr table other tree hAgrees hOpen mode)
      rw [analyze, analyze, Mapping.analyze, Mapping.analyze]
      dsimp only
      split
      · split
        · rfl
        · rw [NodeContext.resolution, NodeContext.resolution, hFlags]
          rfl
      · rfl
  | interop apis =>
      rw [analyze, analyze, Interop.analyze, Interop.analyze]
      dsimp only
      split
      · cases node.qualifier with
        | none => rfl
        | some qualifier =>
            dsimp only
            have hWritten :
                Interop.isWrittenLike ⟨⟨tree, table⟩, node⟩ qualifier =
                  Interop.isWrittenLike ⟨⟨tree, other⟩, node⟩ qualifier := rfl
            rw [hWritten]
            split
            · rw [NodeContext.resolution, NodeContext.resolution,
                hAgrees.confirms_congr]
              rfl
            · rfl
      · rfl

/- Only the added files decide what an analyzer starts with. -/
theorem Analyzer.start?_congr
    {c other : Compilation}
    (h : c.additional = other.additional)
    (a : Analyzer) :
    a.start? c = a.start? other := by
  cases a <;> simp only [start?, h]

------------------------------------------------------------
-- Reports of several files
------------------------------------------------------------

namespace Analysis

/- Two files of different paths are not told of in like reports. -/
theorem like_eq_nil_or
    {found others : List Diagnostic}
    {path other : Path}
    (hFound : ∀ x ∈ found, x.location.path = path)
    (hOthers : ∀ x ∈ others, x.location.path = other)
    (hDistinct : path.same other = false)
    (d : Diagnostic) :
    Diagnostic.like d found = [] ∨ Diagnostic.like d others = [] := by
  by_contra hBoth
  rcases not_or.mp hBoth with ⟨hSome, hOtherSome⟩
  rcases List.exists_mem_of_ne_nil _ hSome with ⟨x, hx⟩
  rcases List.exists_mem_of_ne_nil _ hOtherSome with ⟨y, hy⟩
  rcases Diagnostic.mem_like.mp hx with ⟨hxMem, hxLike⟩
  rcases Diagnostic.mem_like.mp hy with ⟨hyMem, hyLike⟩
  have hxPath := (Diagnostic.order_eq_eq_iff.mp hxLike).1
  have hyPath := (Diagnostic.order_eq_eq_iff.mp hyLike).1
  rw [hFound x hxMem] at hxPath
  rw [hOthers y hyMem] at hyPath
  exact Bool.eq_false_iff.mp hDistinct
    (beq_iff_eq.mpr (hxPath.symm.trans hyPath))

/-
  Where each file has a path of its own, the reports that
  the order cannot tell apart are all about one file.
-/
theorem like_flatMap_perm
    {trees others : List SourceTree}
    {f : SourceTree → List Diagnostic}
    (hPerm : trees.Perm others)
    (hDistinct : trees.Pairwise fun a b => a.path.same b.path = false)
    (hPath : ∀ tree ∈ trees, ∀ d ∈ f tree, d.location.path = tree.path)
    (d : Diagnostic) :
    Diagnostic.like d (trees.flatMap f) =
      Diagnostic.like d (others.flatMap f) := by
  have hAppend : ∀ found more : List Diagnostic,
      Diagnostic.like d (found ++ more) =
        Diagnostic.like d found ++ Diagnostic.like d more :=
    List.filter_append
  induction hPerm with
  | nil => rfl
  | cons tree hRest ih =>
      rw [List.flatMap_cons, List.flatMap_cons, hAppend, hAppend,
        ih (List.pairwise_cons.mp hDistinct).2
          fun t ht => hPath t (List.mem_cons_of_mem tree ht)]
  | swap a b rest =>
      rw [List.flatMap_cons, List.flatMap_cons, List.flatMap_cons,
        List.flatMap_cons, hAppend, hAppend, hAppend, hAppend,
        ← List.append_assoc, ← List.append_assoc]
      have hBlocks := like_eq_nil_or (hPath b (by simp)) (hPath a (by simp))
        ((List.pairwise_cons.mp hDistinct).1 a List.mem_cons_self) d
      rcases hBlocks with hNone | hNone <;> simp [hNone]
  | trans hFirst hLast ihFirst ihLast =>
      have hSymm : ∀ {a b : SourceTree}, a.path.same b.path = false →
          b.path.same a.path = false := by
        intro a b h
        rw [Path.same, beq_eq_false_iff_ne] at h ⊢
        exact h.symm
      rw [ihFirst hDistinct hPath]
      refine ihLast (hFirst.pairwise hDistinct hSymm) ?_
      exact fun t ht => hPath t (hFirst.mem_iff.mpr ht)

end Analysis

------------------------------------------------------------
-- Compilations
------------------------------------------------------------

namespace Compilation

/- What is known before any source file is added. -/
def before
    (references : String)
    (additional : List AdditionalText) : Compilation :=
  (additional.foldl addAdditional empty).withReferences
    (SymbolTable.ofReferenceList references)

theorem foldl_addAdditional
    (c : Compilation)
    (files : List AdditionalText) :
    files.foldl addAdditional c =
      { c with additional := c.additional ++ files } := by
  induction files generalizing c with
  | nil => simp
  | cons file rest ih =>
      rw [List.foldl_cons, ih]
      simp [addAdditional]

theorem before_eq
    (references : String)
    (additional : List AdditionalText) :
    before references additional =
      ⟨[], additional, .ofReferenceList references,
        SymbolTable.empty.merge (.ofReferenceList references)⟩ := by
  rw [before, foldl_addAdditional]
  rfl

theorem before_symbols_isSound
    (references : String)
    (additional : List AdditionalText) :
    (before references additional).symbols.IsSound := by
  rw [before_eq]
  exact SymbolTable.merge_isSound SymbolTable.IsSound.empty_isSound
    (SymbolTable.ofReferenceList_isSound references)

theorem foldl_addTree
    (c : Compilation)
    (trees : List SourceTree) :
    trees.foldl addTree c =
      { c with
        trees := c.trees ++ trees
        symbols := trees.foldl declare c.symbols } := by
  induction trees generalizing c with
  | nil => simp
  | cons tree rest ih =>
      rw [List.foldl_cons, ih]
      simp [addTree]

end Compilation

namespace SymbolTable

variable {base : SymbolTable}

/- Where no known name has an empty segment, no type is entered under one. -/
theorem typeParts_regular
    {name : String}
    (hBase : ∀ n ∈ base.names, ¬ HasGap n)
    (hName : lastPart name ≠ "") :
    "" ∉ base.typeParts name ∧ base.typeParts name ≠ [] := by
  rw [typeParts]
  rw [lastPart] at hName
  cases hSplit : Text.splitLast '.' name with
  | none =>
      rw [hSplit] at hName
      simpa using hName.symm
  | some pieces =>
      obtain ⟨container, last⟩ := pieces
      rw [hSplit] at hName
      have hOuter : "" ∉ nameParts container := fun hEmpty =>
        (isSegment_of_mem_nameParts hEmpty).1 rfl
      dsimp only at hName ⊢
      split
      · next hKnown =>
          have hRegular := hBase container hKnown
          rw [HasGap] at hRegular
          simp [hRegular, hName.symm]
      · simp [hOuter, hName.symm]

/-
  References whose names have no empty segment settle all
  types that have a name.
-/
theorem settles_of_regular
    {declared : List String}
    (hSound : base.IsSound)
    (hBase : ∀ n ∈ base.names, ¬ HasGap n)
    (hNames : ∀ n ∈ declared, lastPart n ≠ "") :
    base.Settles declared := by
  rintro n - container - hGap - other hOther rfl
  have hEntered := addType_entered hSound other
  rcases typeParts_regular hBase (hNames other hOther) with ⟨hParts, hSome⟩
  have hSymbol : (base.addType other).2 ≠ .global := by
    intro hGlobal
    have hPath := hEntered.path_eq
    rw [hGlobal] at hPath
    exact hSome hPath.symm
  rw [HasGap, Symbol.splitAt_fullName (hEntered.isSound.isNamed hEntered.knows)
    hSymbol, hEntered.path_eq] at hGap
  exact hParts hGap

/- In two orders of the files, names stand for alike symbols. -/
theorem foldl_declare_alike
    {trees others : List SourceTree}
    (hBase : base.IsSound)
    (hSettles : base.Settles (declaredNames trees))
    (hPerm : trees.Perm others) :
    (trees.foldl Compilation.declare base).Alike
      (others.foldl Compilation.declare base) := by
  have hDeclared : ∀ n, n ∈ declaredNames others → n ∈ declaredNames trees :=
    fun n hn => (hPerm.flatMap_right _).mem_iff.mpr hn
  have hOthers : base.Settles (declaredNames others) :=
    fun n hn container hContainer hGap hUnknown other hOther =>
      hSettles n (hDeclared n hn) container hContainer hGap hUnknown other
        (hDeclared other hOther)
  rcases grows_foldl_declare hBase hSettles with ⟨hGrows, hNames⟩
  rcases grows_foldl_declare hBase hOthers with ⟨hOtherGrows, hOtherNames⟩
  refine alike_of_extends hGrows.isSound hOtherGrows.isSound hGrows.isLonger
    hOtherGrows.isLonger fun n => ?_
  rw [hNames, hOtherNames]
  simp only [hPerm.mem_iff]

end SymbolTable

namespace Analysis

/-
  The order of source files with a path each does not matter,
  unless a type is entered under the name of a container that
  has an empty segment and that the references do not know.
-/
theorem run_eq_of_perm
    (references : String)
    (additional : List AdditionalText)
    {trees others : List SourceTree}
    (hPerm : trees.Perm others)
    (hDistinct : trees.Pairwise fun a b => a.path.same b.path = false)
    (hSettles :
      (Compilation.before references additional).symbols.Settles
        (SymbolTable.declaredNames trees))
    (workers : Nat)
    (cancelled : Bool) :
    let base := Compilation.before references additional
    run Analyzer.builtin (trees.foldl Compilation.addTree base)
        workers cancelled =
      run Analyzer.builtin (others.foldl Compilation.addTree base)
        workers cancelled := by
  intro base
  cases cancelled with
  | true => rw [run, run, if_pos rfl, if_pos rfl]
  | false =>
      have hAlike := SymbolTable.foldl_declare_alike
        (Compilation.before_symbols_isSound references additional) hSettles hPerm
      rw [run_eq_arrange, run_eq_arrange]
      refine congrArg _ (Diagnostic.arrange_eq_of_like fun d => ?_)
      let c := trees.foldl Compilation.addTree base
      let other := others.foldl Compilation.addTree base
      have hc : c = _ := Compilation.foldl_addTree base trees
      have hOther : other = _ := Compilation.foldl_addTree base others
      let started := Analyzer.builtin.filterMap fun a => a.start? c
      have hStarted : (Analyzer.builtin.filterMap fun a => a.start? other) =
          started := by
        refine congrArg (Analyzer.builtin.filterMap ·) (funext fun a => ?_)
        exact Analyzer.start?_congr (by rw [hc, hOther]) a
      have hReports : ∀ (a : NodeAnalyzer) tree node,
          a.analyze ⟨other.model tree, node⟩ = a.analyze ⟨c.model tree, node⟩ := by
        intro a tree node
        rw [hc, hOther]
        exact (NodeAnalyzer.analyze_congr hAlike a tree node).symm
      have hTree : analyzeTree other started = analyzeTree c started := by
        funext tree
        simp only [analyzeTree, hReports]
      have hTrees : c.trees = trees ∧ other.trees = others := by
        simp [hc, hOther, base, Compilation.before_eq]
      change Diagnostic.like d (c.trees.flatMap (analyzeTree c started)) =
        Diagnostic.like d (other.trees.flatMap (analyzeTree other _))
      rw [hStarted, hTree, hTrees.1, hTrees.2]
      refine like_flatMap_perm hPerm hDistinct (fun tree _ x hx => ?_) d
      rcases List.mem_flatMap.mp hx with ⟨node, -, hNode⟩
      rcases List.mem_flatMap.mp hNode with ⟨a, ha, hReport⟩
      exact (NodeAnalyzer.reported_of_mem ha hReport).path_eq

end Analysis

------------------------------------------------------------
-- A namespace that is continued on the next line
------------------------------------------------------------

/-
  Only its first line is read for its name, which ends in a
  dot.  The reference declares a type of that name.
-/
namespace Continued

def references : String :=
  "M:A..ctor\n"

def table : AdditionalText :=
  ⟨⟨"r.typemap"⟩, "B.A.X.Y Z.Y\n"⟩

def first : SourceTree :=
  .ofVisualBasic ⟨"a.vb"⟩
    "Namespace A. _\n  P\n  Class X\n  End Class\nEnd Namespace\n"

def second : SourceTree :=
  .ofVisualBasic ⟨"b.vb"⟩
    ("Namespace A. _\n  Q\n  Namespace X\n    Class Y\n    End Class\n" ++
      "  End Namespace\nEnd Namespace\n")

def third : SourceTree :=
  .ofVisualBasic ⟨"c.vb"⟩
    "Class C\n  Dim y As A.X.Y\nEnd Class\n"

/- The symbols of the reference. -/
def known : SymbolTable :=
  let outer := Symbol.declared "A" .nameSpace .global
  let type := Symbol.declared "" .type outer
  ⟨[("A", outer), ("A.", type), ("A..ctor", .declared "ctor" .method type)],
    ⟨[("a", ["A"]), ("a.", ["A."]), ("a..ctor", ["A..ctor"])]⟩⟩

theorem ofReferenceList_references :
    SymbolTable.ofReferenceList references = known := by
  decide

theorem before_symbols :
    (Compilation.before references [table]).symbols = known := by
  have hSorted : known.symbols.Pairwise fun a b =>
      (decide (SymbolTable.dotCount a.fullName ≤
        SymbolTable.dotCount b.fullName)) = true := by
    decide
  rw [Compilation.before_eq, ofReferenceList_references]
  dsimp only
  rw [SymbolTable.merge, List.mergeSort_of_pairwise hSorted]
  decide

/- A mention of one character, behind what qualifies it. -/
def mention (name : String) (qualifier : Option String) (start : Nat) : NameNode :=
  match qualifier with
  | none => ⟨name, none, .simple, false, ⟨start, start + 1⟩, ⟨start, start + 1⟩⟩
  | some outer =>
    ⟨name, outer, .qualified, false, ⟨start, start + 1⟩,
      ⟨start - (outer.length + 1), start + 1⟩⟩

/- The mention of the type that the second file seems to declare. -/
def target : NameNode :=
  mention "Y" (some "A.X") 23

/- The mentions that no rule is about. -/
def others : List NameNode :=
  [mention "P" none 17, mention "Q" none 17, mention "A" none 19,
    mention "X" (some "A") 21]

/- What the three files consist of. -/
theorem files_eq :
    first = ⟨⟨"a.vb"⟩, .visualBasic,
      "Namespace A. _\n  P\n  Class X\n  End Class\nEnd Namespace\n",
      { names := [mention "P" none 17]
        declarations := [⟨some "A.", "X"⟩]
        namespaces := [⟨"A.", ⟨0, 54⟩⟩] }⟩ ∧
    second = ⟨⟨"b.vb"⟩, .visualBasic,
      "Namespace A. _\n  Q\n  Namespace X\n    Class Y\n    End Class\n" ++
        "  End Namespace\nEnd Namespace\n",
      { names := [mention "Q" none 17]
        declarations := [⟨some "A..X", "Y"⟩]
        namespaces := [⟨"A..X", ⟨19, 74⟩⟩, ⟨"A.", ⟨0, 88⟩⟩] }⟩ ∧
    third = ⟨⟨"c.vb"⟩, .visualBasic,
      "Class C\n  Dim y As A.X.Y\nEnd Class\n",
      { names := [mention "A" none 19, mention "X" (some "A") 21, target]
        declarations := [⟨none, "C"⟩] }⟩ :=
  ⟨SourceTree.ofVisualBasic_eq rfl (by decide +kernel),
    SourceTree.ofVisualBasic_eq String.ofList_append.symm (by decide +kernel),
    SourceTree.ofVisualBasic_eq rfl (by decide +kernel)⟩

theorem names_eq :
    first.names = [mention "P" none 17] ∧
    second.names = [mention "Q" none 17] ∧
    third.names =
      [mention "A" none 19, mention "X" (some "A") 21, target] :=
  ⟨congrArg SourceTree.names files_eq.1,
    congrArg SourceTree.names files_eq.2.1,
    congrArg SourceTree.names files_eq.2.2⟩

def mapping : TypeMapping :=
  ⟨"B.A.X.Y", some "Z.Y"⟩

theorem load_table :
    TypeMap.load [table] = TypeMap.extend TypeMap.builtin [mapping] :=
  TypeMap.load_singleton (by decide) (by decide)

/- No target is written like one of the names. -/
theorem targets_apart :
    ∀ node ∈ target :: others, ∀ rule ∈ ApiRule.builtin, ∀ t ∈ rule.targets,
      ApiAlert.isWrittenLike ⟨⟨third, .empty⟩, node⟩ t = false := by
  decide +kernel

/- The names have a last segment of one byte. -/
theorem names_short :
    ∀ node ∈ target :: others,
      (lastPart node.qualifiedName).toByteArray.data.toList.length = 1 := by
  decide

section Reports

variable {compilation : Compilation}
variable {tree : SourceTree}
variable {symbols : SymbolTable}
variable {node : NameNode}

theorem reports_eq
    (hAdditional : compilation.additional = [table])
    (hLanguage : tree.language = .visualBasic)
    (hNode : node ∈ target :: others) :
    (Analyzer.builtin.flatMap fun a =>
        a.reports compilation ⟨⟨tree, symbols⟩, node⟩) =
      Mapping.analyze .types
        (NameIndex.ofEntries (Mapping.entryKey .types)
          (TypeMap.load [table]).mappings) ⟨⟨tree, symbols⟩, node⟩ := by
  have hFiles : ApiRule.ofFiles [table] = [] := by decide
  have hOther : ∀ node ∈ target :: others,
      node.isMemberAccess = false ∧ node.isAttribute = false := by
    decide
  rw [← hAdditional] at hFiles ⊢
  rw [Analyzer.flatMap_reports_builtin hFiles ?_ (hOther node hNode).2,
    Analyzer.reports_interopApi_eq_nil (hOther node hNode).1, List.append_nil,
    Analyzer.reports_typeUpgrade]
  intro rule hRule t ht
  have hWritten := targets_apart node hNode rule hRule t ht
  rwa [ApiAlert.isWrittenLike, NodeContext.language, NodeContext.tree,
    hLanguage]

theorem reports_others
    (hAdditional : compilation.additional = [table])
    (hLanguage : tree.language = .visualBasic)
    (hNode : node ∈ others) :
    (Analyzer.builtin.flatMap fun a =>
      a.reports compilation ⟨⟨tree, symbols⟩, node⟩) = [] := by
  have hAll := List.mem_cons_of_mem target hNode
  have hApart : ∀ node ∈ others,
      isNameSuffix node.qualifiedName mapping.oldName .visualBasic = false := by
    decide
  rw [reports_eq hAdditional hLanguage hAll, load_table]
  refine Mapping.analyze_eq_nil fun m hm => Bool.eq_false_iff.mpr fun hFlags => ?_
  obtain rfl := Mapping.eq_of_flags_of_short (names_short _ hAll) hm hFlags
  rcases Mapping.isNameSuffix_of_flags hFlags with ⟨w, hw, hSuffix⟩
  obtain rfl := List.mem_singleton.mp hw
  have hWritten : isNameSuffix node.qualifiedName mapping.oldName .visualBasic =
      true :=
    hLanguage ▸ hSuffix
  rw [hApart node hNode] at hWritten
  cases hWritten

def reports (compilation : Compilation) (tree : SourceTree) : List Diagnostic :=
  tree.names.flatMap fun node => Analyzer.builtin.flatMap fun a =>
    a.reports compilation ⟨compilation.model tree, node⟩

/- Of the three files, only the mention in the third can be reported. -/
theorem reports_files
    (hAdditional : compilation.additional = [table]) :
    reports compilation first = [] ∧ reports compilation second = [] ∧
      reports compilation third =
        Mapping.analyze .types
          (NameIndex.ofEntries (Mapping.entryKey .types)
            (TypeMap.load [table]).mappings)
          ⟨⟨third, compilation.symbols⟩, target⟩ := by
  have hOthers : ∀ tree : SourceTree, tree.language = .visualBasic →
      ∀ node ∈ others, (Analyzer.builtin.flatMap fun a =>
        a.reports compilation ⟨compilation.model tree, node⟩) = [] :=
    fun tree hLanguage node hNode =>
      reports_others hAdditional hLanguage hNode
  refine ⟨?_, ?_, ?_⟩
  · rw [reports, names_eq.1, List.flatMap_singleton]
    exact hOthers first rfl _ (by decide)
  · rw [reports, names_eq.2.1, List.flatMap_singleton]
    exact hOthers second rfl _ (by decide)
  · rw [reports, names_eq.2.2, List.flatMap_cons, List.flatMap_cons,
      List.flatMap_singleton,
      hOthers third rfl (mention "A" none 19) (by decide),
      hOthers third rfl (mention "X" (some "A") 21) (by decide)]
    exact reports_eq hAdditional rfl List.mem_cons_self

end Reports

def context (trees : List SourceTree) : NodeContext :=
  ⟨⟨third, trees.foldl Compilation.declare known⟩, target⟩

def report : Diagnostic :=
  Mapping.report .types (context []) mapping

/- Whether the mention is reported depends on what it stands for. -/
theorem analyze_eq
    (trees : List SourceTree) :
    Mapping.analyze .types
        (NameIndex.ofEntries (Mapping.entryKey .types)
          (TypeMap.load [table]).mappings) (context trees) =
      if Mapping.flags .types (context trees) (context trees).resolution mapping
      then [report] else [] := by
  have hKey : Mapping.entryKey .types mapping =
      Mapping.writtenKey .types target.simpleName := by
    decide
  have hNode : (context trees).node = target := rfl
  have hSize := names_short target List.mem_cons_self
  rw [load_table]
  exact Mapping.analyze_of_short rfl hKey (hNode ▸ hSize)

theorem run_eq
    {trees : List SourceTree}
    (hThird : ∀ f : SourceTree → List Diagnostic,
      f first = [] → f second = [] → trees.flatMap f = f third) :
    Analysis.run Analyzer.builtin
        (trees.foldl Compilation.addTree (.before references [table]))
        1 false =
      .ok (if Mapping.flags .types (context trees) (context trees).resolution
          mapping then [report] else []) := by
  have hFiles :
      trees.foldl Compilation.addTree (.before references [table]) =
        ⟨trees, [table], .ofReferenceList references,
          trees.foldl Compilation.declare known⟩ := by
    rw [Compilation.foldl_addTree, before_symbols, Compilation.before_eq]
    rfl
  generalize trees.foldl Compilation.addTree (.before references [table]) = c
    at hFiles ⊢
  have hTrees : c.trees = trees := by rw [hFiles]
  have hSymbols : c.symbols = trees.foldl Compilation.declare known := by
    rw [hFiles]
  rcases reports_files (show c.additional = [table] by rw [hFiles]) with
    ⟨hFirst, hSecond, hTarget⟩
  rw [hSymbols] at hTarget
  have hAll : trees.flatMap (reports c) = _ :=
    (hThird (reports c) hFirst hSecond).trans (hTarget.trans (analyze_eq trees))
  rw [Analysis.run_builtin, hTrees]
  refine congrArg _ ((congrArg Diagnostic.arrange hAll).trans ?_)
  split <;> simp [Diagnostic.arrange, Diagnostic.dropRepeats]

theorem flags_eq :
    Mapping.flags .types (context [first, second, third])
        (context [first, second, third]).resolution mapping = true ∧
      Mapping.flags .types (context [second, first, third])
        (context [second, first, third]).resolution mapping = false ∧
      Mapping.flags .types (context [first, third])
        (context [first, third]).resolution mapping = true := by
  simp only [context, files_eq]
  decide +kernel

/-
  Behind the first file, the second one declares its type in
  the namespace that the reference leads to, and the mention
  is taken for the old name.  In the other order the type has
  the name of the mention.
-/
theorem run_ne_of_perm :
    [first, second, third].Perm [second, first, third] ∧
    ([first, second, third].Pairwise fun a b => a.path.same b.path = false) ∧
    Analysis.run Analyzer.builtin
        ([first, second, third].foldl Compilation.addTree
          (.before references [table])) 1 false = .ok [report] ∧
    Analysis.run Analyzer.builtin
        ([second, first, third].foldl Compilation.addTree
          (.before references [table])) 1 false = .ok [] := by
  refine ⟨List.Perm.swap second first [third], by decide, ?_, ?_⟩
  · rw [run_eq fun f hFirst hSecond => by simp [hFirst, hSecond], flags_eq.1]
    rfl
  · rw [run_eq fun f hFirst hSecond => by simp [hFirst, hSecond], flags_eq.2.1]
    rfl

/- Without the second file, the mention is reported in every order. -/
theorem run_eq_of_perm_of_known :
    SymbolTable.declaredNames [first, third] = ["A..X", "C"] ∧
    Analysis.run Analyzer.builtin
        ([third, first].foldl Compilation.addTree
          (.before references [table])) 1 false = .ok [report] := by
  have hDeclared : SymbolTable.declaredNames [first, third] = ["A..X", "C"] := by
    simp only [files_eq]
    decide
  have hSettles : (Compilation.before references [table]).symbols.Settles
      (SymbolTable.declaredNames [first, third]) := by
    rw [before_symbols, hDeclared]
    intro n hn container hContainer hGap hUnknown
    have hFound : ∀ n ∈ ["A..X", "C"], ∀ container ∈ namespaceOf? n,
        known.find? container ≠ none := by
      decide
    exact absurd hUnknown (hFound n hn container hContainer)
  refine ⟨hDeclared, ?_⟩
  rw [← Analysis.run_eq_of_perm references [table]
    (List.Perm.swap third first []) (by decide) hSettles 1 false,
    run_eq fun f hFirst _ => by simp [hFirst], flags_eq.2.2]
  rfl

end Continued

end Retarget
