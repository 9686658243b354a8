import Retarget.Proofs.Source.LetterCase
import Retarget.Proofs.Symbol.Resolution
import Retarget.Proofs.Symbol.Respelling

/-
  This file shows that names in two spellings stand for the
  same symbols, up to letter case, where the tables of the
  symbols were filled alike.

  Key definitions include:
    * `Resolution.fold`
    * `SemanticModel.Respelled`

  Key statements include:
    * `SemanticModel.Respelled.lookup`
    * `SemanticModel.Respelled.bind`
    * `SemanticModel.Respelled.fold_resolve`
-/

namespace Retarget

open Text

variable {P : String → String → Prop}

def Resolution.fold : Resolution → Resolution
  | .resolved symbol => .resolved symbol.fold
  | .errorType name => .errorType (lowerAscii name)
  | .unresolved => .unresolved

theorem NameNode.fold_eq_iff
    {node other : NameNode} :
    node.fold = other.fold ↔
      lowerAscii node.simpleName = lowerAscii other.simpleName ∧
        node.qualifier.map lowerAscii = other.qualifier.map lowerAscii ∧
        node.context = other.context ∧ node.isGeneric = other.isGeneric ∧
        node.span = other.span ∧ node.fullSpan = other.fullSpan := by
  simp [fold]

theorem NameNode.qualifiedName_fold
    (node : NameNode) :
    node.fold.qualifiedName = lowerAscii node.qualifiedName := by
  rw [qualifiedName, fold, qualifiedName]
  cases node.qualifier with
  | none => rfl
  | some qualifier => exact (lowerAscii_dotted qualifier node.simpleName).symm

namespace SemanticModel

/- Two spellings of a Visual Basic file, with their tables. -/
structure Respelled
    (P : String → String → Prop)
    (model other : SemanticModel) : Prop where
  isVisualBasic : model.tree.language = .visualBasic
  tree_eq : model.tree.fold = other.tree.fold
  table : model.table.Respelled P other.table

------------------------------------------------------------
-- Names in scope
------------------------------------------------------------

theorem written_fold
    (qualifier : Option String)
    (name : String) :
    written (qualifier.map lowerAscii) (lowerAscii name) =
      lowerAscii (written qualifier name) := by
  cases qualifier with
  | none => rfl
  | some qualifier => exact (lowerAscii_dotted qualifier name).symm

theorem enclosingNames_fold
    (parts : List String) :
    enclosingNames (parts.map lowerAscii) =
      (enclosingNames parts).map lowerAscii := by
  rw [enclosingNames, enclosingNames, List.length_map, List.map_map]
  refine List.map_congr_left fun i _ => ?_
  rw [Function.comp_apply, ← List.map_take, lowerAscii_join]

theorem scopedNames_fold
    (tree : SourceTree)
    (table : SymbolTable)
    (written : String)
    (offset : Nat) :
    scopedNames ⟨tree.fold, table⟩ (lowerAscii written) offset =
      (scopedNames ⟨tree, table⟩ written offset).map lowerAscii := by
  have hOuter : ∀ spaces : List String,
      (spaces.map lowerAscii).flatMap (fun s => enclosingNames (splitAt '.' s)) =
        (spaces.flatMap fun s => enclosingNames (splitAt '.' s)).map lowerAscii := by
    intro spaces
    rw [List.flatMap_map, List.map_flatMap]
    refine List.flatMap_congr fun s _ => ?_
    rw [splitAt_lowerAscii (by decide), enclosingNames_fold]
  rw [scopedNames, tree.enclosingNamespaces_fold, hOuter, List.map_map, scopedNames, List.map_cons, List.map_map]
  refine congrArg (List.cons _) (List.map_congr_left fun s _ => ?_)
  exact (lowerAscii_dotted s written).symm

namespace Respelled

variable {model other : SemanticModel}
variable {name otherName : String}
variable {node otherNode : NameNode}

theorem otherIsVisualBasic
    (h : Respelled P model other) :
    other.tree.language = .visualBasic :=
  (congrArg SourceTree.language h.tree_eq).symm.trans h.isVisualBasic

theorem lookup
    (hP : Respells P)
    (h : Respelled P model other)
    (hName : lowerAscii name = lowerAscii otherName) :
    List.Forall₂ (Symbol.Respelled P) (model.lookup name)
      (other.lookup otherName) := by
  rw [SemanticModel.lookup, h.isVisualBasic, SemanticModel.lookup,
    h.otherIsVisualBasic, h.table.isSound.lookup_visualBasic,
    h.table.otherIsSound.lookup_visualBasic, List.forall₂_map_left_iff, List.forall₂_map_right_iff]
  have hKey : ∀ e o : String × Symbol, P e.1 o.1 ∧ e.2.Respelled P o.2 →
      (equalsIgnoringCase e.1 name = true ↔
        equalsIgnoringCase o.1 otherName = true) := by
    intro e o hEntry
    rw [equalsIgnoringCase, ← lower_lowerAscii, hP.lowerAscii_eq hEntry.1,
      lower_lowerAscii, ← lower_lowerAscii name, hName, lower_lowerAscii]
    exact Iff.rfl
  exact (List.rel_filter hKey h.table.entries).imp fun _ _ hEntry => hEntry.2

theorem keepNew
    (hP : Respells P)
    {kept others : List Symbol}
    (hKept : List.Forall₂ (Symbol.Respelled P) kept others)
    {s t : Symbol}
    (hNew : s.Respelled P t) :
    List.Forall₂ (Symbol.Respelled P) (SemanticModel.keepNew kept s)
      (SemanticModel.keepNew others t) := by
  have hKnown : (kept.any fun k => k.fullName == s.fullName) =
      others.any fun k => k.fullName == t.fullName := by
    induction hKept with
    | nil => rfl
    | cons hFirst _ ih =>
        have hSame := hP.eq_iff hFirst.fullName hNew.fullName
        rw [List.any_cons, List.any_cons, ih, Bool.eq_iff_iff,
          Bool.or_eq_true, Bool.or_eq_true, beq_iff_eq, beq_iff_eq, hSame]
  rw [SemanticModel.keepNew, hKnown, SemanticModel.keepNew]
  split
  · exact hKept
  · exact List.rel_append hKept (List.Forall₂.cons hNew List.Forall₂.nil)

theorem importedSymbols
    (hP : Respells P)
    (h : Respelled P model other)
    (hName : lowerAscii name = lowerAscii otherName) :
    List.Forall₂ (Symbol.Respelled P) (model.importedSymbols name)
      (other.importedSymbols otherName) := by
  have hImports : model.tree.imports.map lowerAscii =
      other.tree.imports.map lowerAscii :=
    congrArg (fun tree => tree.parts.imports) h.tree_eq
  have hFound : List.Forall₂ (Symbol.Respelled P)
      (model.tree.imports.flatMap fun i => model.lookup (i ++ "." ++ name))
      (other.tree.imports.flatMap fun i => other.lookup (i ++ "." ++ otherName)) := by
    refine List.rel_flatMap (forall₂_of_map_eq hImports) fun i j hImport => ?_
    refine h.lookup hP ?_
    rw [lowerAscii_dotted, hImport, hName, lowerAscii_dotted]
  have hKeep := fun kept others (hKept : List.Forall₂ (Symbol.Respelled P) kept others)
    s t hNew => keepNew hP hKept (s := s) (t := t) hNew
  exact List.rel_foldl hKeep List.Forall₂.nil hFound

/- The first names that are found are spellings of one name. -/
theorem firstFound
    (hP : Respells P)
    (h : Respelled P model other)
    {names others : List String}
    (hNames : names.map lowerAscii = others.map lowerAscii) :
    Option.Rel (List.Forall₂ (Symbol.Respelled P))
      (SemanticModel.firstFound model.table model.tree.language names)
      (SemanticModel.firstFound other.table other.tree.language others) := by
  have hBoth := forall₂_of_map_eq hNames
  clear hNames
  induction hBoth with
  | nil => exact Option.Rel.none
  | @cons name otherName rest otherRest hName _ ih =>
      have hNow := h.lookup hP hName
      rw [SemanticModel.lookup, SemanticModel.lookup] at hNow
      rw [SemanticModel.firstFound, SemanticModel.firstFound,
        List.findSome?_cons, List.findSome?_cons]
      generalize model.table.lookup name model.tree.language = found at hNow ⊢
      generalize other.table.lookup otherName other.tree.language =
        otherFound at hNow ⊢
      cases hNow with
      | nil => exact ih
      | cons hFirst hRest =>
          exact Option.Rel.some (List.Forall₂.cons hFirst hRest)

theorem bind
    (hP : Respells P)
    (h : Respelled P model other)
    {qualifier otherQualifier : Option String}
    (hName : lowerAscii (written qualifier name) =
      lowerAscii (written otherQualifier otherName))
    (offset : Nat) :
    List.Forall₂ (Symbol.Respelled P) (model.bind qualifier name offset)
      (other.bind otherQualifier otherName offset) := by
  have hScoped : (model.scopedNames (written qualifier name) offset).map lowerAscii =
      (other.scopedNames (written otherQualifier otherName) offset).map
        lowerAscii := by
    have hFold := scopedNames_fold model.tree model.table
      (written qualifier name) offset
    rw [h.tree_eq, hName, scopedNames_fold] at hFold
    exact hFold.symm
  have hFirst := h.firstFound hP hScoped
  rw [bind_eq, bind_eq]
  generalize SemanticModel.firstFound model.table _ _ = first at hFirst ⊢
  generalize SemanticModel.firstFound other.table _ _ = otherFirst at hFirst ⊢
  cases hFirst with
  | none => exact h.importedSymbols hP hName
  | some hFound => exact hFound

------------------------------------------------------------
-- Resolving
------------------------------------------------------------

theorem isEmpty_eq
    {found others : List Symbol}
    (h : List.Forall₂ (Symbol.Respelled P) found others) :
    found.isEmpty = others.isEmpty := by
  cases h <;> rfl

theorem fold_unique
    {found others : List Symbol}
    (hFound : List.Forall₂ (Symbol.Respelled P) found others)
    (hName : lowerAscii name = lowerAscii otherName) :
    (unique found name).fold = (unique others otherName).fold := by
  cases hFound with
  | nil => exact congrArg Resolution.errorType hName
  | cons hFirst hRest =>
      cases hRest with
      | nil => exact congrArg Resolution.resolved hFirst.fold_eq
      | cons _ _ => exact congrArg Resolution.errorType hName

theorem fold_resolveType
    (hP : Respells P)
    (h : Respelled P model other)
    (hNode : node.fold = otherNode.fold) :
    (model.resolveType node).fold = (other.resolveType otherNode).fold := by
  have hName := congrArg NameNode.qualifiedName hNode
  rw [NameNode.qualifiedName_fold, NameNode.qualifiedName_fold] at hName
  rcases NameNode.fold_eq_iff.mp hNode with ⟨-, -, hContext, hGeneric, hSpan, -⟩
  have hFound := h.bind hP hName node.span.start
  have hEmpty := isEmpty_eq hFound
  rw [resolveType, resolveType, ← hContext, ← hGeneric, ← hSpan, hEmpty]
  split
  · rfl
  · exact fold_unique hFound hName

theorem fold_resolveMember
    (hP : Respells P)
    (h : Respelled P model other)
    (hNode : node.fold = otherNode.fold) :
    (model.resolveMember node).fold = (other.resolveMember otherNode).fold := by
  have hName := congrArg NameNode.qualifiedName hNode
  rw [NameNode.qualifiedName_fold, NameNode.qualifiedName_fold] at hName
  rcases NameNode.fold_eq_iff.mp hNode with ⟨hSimple, hQualifier, -, -, hSpan, -⟩
  cases hBefore : node.qualifier with
  | none =>
      rw [hBefore, Option.map_none, eq_comm, Option.map_eq_none_iff] at hQualifier
      rw [resolveMember, hBefore, resolveMember, hQualifier]
  | some qualifier =>
      rw [hBefore, Option.map_some, eq_comm, Option.map_eq_some_iff] at hQualifier
      rcases hQualifier with ⟨otherQualifier, hOtherBefore, hSame⟩
      have hReceiver : List.Forall₂ (Symbol.Respelled P)
          (model.bind (receiverName qualifier).1 (receiverName qualifier).2
            node.span.start)
          (other.bind (receiverName otherQualifier).1
            (receiverName otherQualifier).2 node.span.start) := by
        refine h.bind hP ?_ node.span.start
        rw [written_receiverName, written_receiverName, hSame]
      rw [resolveMember_eq model hBefore, resolveMember_eq other hOtherBefore,
        ← hSpan]
      generalize model.bind _ _ _ = receivers at hReceiver ⊢
      generalize other.bind _ _ _ = otherReceivers at hReceiver ⊢
      cases hReceiver with
      | nil => rfl
      | @cons receiver otherReceiver rest otherRest hFirst hRest =>
          cases hRest with
          | cons _ _ => rfl
          | nil =>
              have hKind : receiver.kind = otherReceiver.kind := by
                rw [← receiver.kind_fold, hFirst.fold_eq, Symbol.kind_fold]
              have hMembers :
                  lowerAscii (receiver.fullName ++ "." ++ node.simpleName) =
                    lowerAscii
                      (otherReceiver.fullName ++ "." ++ otherNode.simpleName) := by
                rw [lowerAscii_dotted, hP.lowerAscii_eq hFirst.fullName,
                  hSimple, lowerAscii_dotted]
              have hFound := h.lookup hP hMembers
              dsimp only
              rw [← hKind]
              cases receiver.kind with
              | nameSpace => exact fold_unique hFound hName
              | type =>
                  dsimp only
                  generalize model.lookup _ = found at hFound ⊢
                  generalize other.lookup _ = others at hFound ⊢
                  cases hFound with
                  | nil => rfl
                  | cons hMember hOthers =>
                      cases hOthers with
                      | nil => exact congrArg Resolution.resolved hMember.fold_eq
                      | cons _ _ => rfl
              | _ => rfl

/- A name stands for the same symbol in both spellings. -/
theorem fold_resolve
    (hP : Respells P)
    (h : Respelled P model other)
    (hNode : node.fold = otherNode.fold) :
    (model.resolve node).fold = (other.resolve otherNode).fold := by
  have hName := congrArg NameNode.qualifiedName hNode
  rw [NameNode.qualifiedName_fold, NameNode.qualifiedName_fold] at hName
  rcases NameNode.fold_eq_iff.mp hNode with
    ⟨hSimple, hQualifier, hContext, -, hSpan, -⟩
  have hType := h.fold_resolveType hP hNode
  rw [resolve, resolve, ← hContext, ← hSpan]
  cases node.context with
  | memberAccess => exact h.fold_resolveMember hP hNode
  | imported => exact fold_unique (h.lookup hP hName) hName
  | «attribute» =>
      have hSuffixed : lowerAscii
            (written node.qualifier (node.simpleName ++ "Attribute")) =
          lowerAscii
            (written otherNode.qualifier (otherNode.simpleName ++ "Attribute")) := by
        rw [← written_fold, hQualifier, lowerAscii_append, hSimple,
          ← lowerAscii_append, written_fold]
      have hFound := h.bind hP hSuffixed node.span.start
      have hEmpty := isEmpty_eq hFound
      dsimp only
      rw [hEmpty]
      split
      · exact hType
      · exact fold_unique hFound hName
  | simple => exact hType
  | qualified => exact hType

end Respelled

end SemanticModel

end Retarget
