import Retarget.Fix.Edit
import Retarget.Analysis.Diagnostic
import Retarget.Analysis.Compilation

/-
  This file turns diagnostics into edits and applies those
  of all diagnostics to their files.

  Key definitions include:
    * `Fixer`
    * `Fixer.forDiagnostic?`
    * `Fixer.renameEdits`
    * `Fixer.edits`
    * `FixResult`
    * `Fixer.fixDocument`
    * `Fixer.fixAll`
-/

namespace Retarget

inductive Fixer where
  | typeUpgrade
  | attributeUpgrade
  | interopApi
  deriving Repr, DecidableEq, Inhabited

namespace Fixer

def name : Fixer → String
  | .typeUpgrade => "type-upgrade"
  | .attributeUpgrade => "attribute-upgrade"
  | .interopApi => "interop-api"

/- The diagnostic that a fixer is for. -/
def diagnosticId : Fixer → String
  | .typeUpgrade => typeUpgradeId
  | .attributeUpgrade => attributeUpgradeId
  | .interopApi => interopApiId

def all : List Fixer :=
  [.typeUpgrade, .attributeUpgrade, .interopApi]

def forDiagnostic? (id : String) : Option Fixer :=
  all.find? fun f => f.diagnosticId == id

------------------------------------------------------------
-- Renaming
------------------------------------------------------------

/- The name that a diagnostic flags. -/
def flaggedName
    (tree : SourceTree)
    (d : Diagnostic) : Except AnalysisError NameNode :=
  match tree.nameAt? d.location.span with
  | some node => .ok node
  | none =>
    .error (.unfixable d.id tree.path
      ("no name at " ++ toString d.location.span.start ++ ".." ++
        toString d.location.span.stop))

/- The namespace is imported, or the offset is inside it. -/
def isInScope (tree : SourceTree) (target : String) (offset : Nat) : Bool :=
  tree.hasImport target ||
    (tree.enclosingNamespaces offset).any fun s =>
      tree.language.namesEqual s target

/-
  Give a name the new full name.  A name with a qualifier
  keeps one; a name without gets none, and its new namespace
  is imported unless it is in scope.
-/
def renameEdits
    (tree : SourceTree)
    (node : NameNode)
    (newName : String) : List TextEdit :=
  if node.qualifier.isSome then [⟨node.fullSpan, newName⟩]
  else
    match Text.splitLast '.' newName with
    | none => [⟨node.fullSpan, newName⟩]
    | some (target, simple) =>
      let imports :=
        if isInScope tree target node.span.start then []
        else
          [.insertion tree.importInsertionPoint
            (tree.language.importDirective target ++ "\n")]
      ⟨node.fullSpan, simple⟩ :: imports

/-
  The new name of an attribute in the form that the old one
  is written in, with or without the suffix.
-/
def attributeName (node : NameNode) (newName : String) : String :=
  match Text.stripEnd? "Attribute" newName with
  | some stem =>
    if Text.hasEnd "Attribute" node.simpleName || Text.hasEnd "." stem ||
        stem.isEmpty then newName
    else stem
  | none => newName

------------------------------------------------------------
-- Explaining
------------------------------------------------------------

def marker : String :=
  "TODO " ++ interopApiId ++ ":"

/- The text of the line in front of a line's start. -/
def previousLine (tree : SourceTree) (lineStart : Nat) : String :=
  let before :=
    ((Text.cutAt? (lineStart - 1) tree.chars).map Prod.fst).getD []
  String.ofList (before.reverse.takeWhile (· != '\n')).reverse

/- The line before is a comment with the marker. -/
def isExplained (tree : SourceTree) (lineStart : Nat) : Bool :=
  let line := previousLine tree lineStart
  lineStart > 0 &&
    Text.hasStart tree.language.lineComment (Text.trimStart line) &&
    Text.contains marker line

/- A comment above the flagged line, unless there is one. -/
def explainEdits (tree : SourceTree) (d : Diagnostic) (url : String) :
    List TextEdit :=
  let lineStart := tree.lineStart d.location.span.start
  if isExplained tree lineStart then []
  else
    [.insertion lineStart
      (tree.indentationAt lineStart ++ tree.language.lineComment ++ " " ++
        marker ++ " " ++ d.message ++ " See " ++ url ++ "\n")]

------------------------------------------------------------
-- Edits
------------------------------------------------------------

/- The edits for one diagnostic; one that explains has none. -/
def edits
    (fixer : Fixer)
    (tree : SourceTree)
    (d : Diagnostic) : Except AnalysisError (List TextEdit) := do
  let hint ← d.fixHint
  match fixer, hint.kind, hint.newIdentifier with
  | .typeUpgrade, .replaceIdentifier, some newName =>
    let node ← flaggedName tree d
    return renameEdits tree node newName
  | .attributeUpgrade, .replaceAttribute, some newName =>
    let node ← flaggedName tree d
    return renameEdits tree node (attributeName node newName)
  | .interopApi, .explainOnly, _ =>
    return explainEdits tree d (hint.documentationUrl.getD "")
  | _, _, _ => return []

------------------------------------------------------------
-- Documents
------------------------------------------------------------

end Fixer

/- The fixed text of one file. -/
structure FixResult where
  path : Path
  text : String
  applied : Nat
  skipped : Nat
  deriving Repr, DecidableEq, Inhabited

def FixResult.isChanged (r : FixResult) : Bool :=
  r.applied > 0

namespace Fixer

/- The edits of the diagnostics that have a fixer. -/
def computed
    (tree : SourceTree)
    (ds : List Diagnostic) : List (Except AnalysisError (List TextEdit)) :=
  ds.filterMap fun d =>
    (forDiagnostic? d.id).map fun fixer => fixer.edits tree d

/-
  Fix the diagnostics of a file.  A diagnostic whose edits
  cannot be computed counts as skipped.
-/
def fixDocument (tree : SourceTree) (ds : List Diagnostic) : FixResult :=
  let results := computed tree (ds.filter fun d => d.location.path.same tree.path)
  let edits := results.flatMap fun r => r.toOption.getD []
  let failed := results.filter fun r => r.toOption.isNone
  let outcome := TextEdit.apply tree.text edits
  { path := tree.path
    text := outcome.text
    applied := outcome.applied
    skipped := outcome.skipped + failed.length }

/- The paths of some diagnostics in order, each of them once. -/
def paths (ds : List Diagnostic) : List Path :=
  ds.foldl (fun ps d => d.location.path.insertSorted ps) []

/- Fix every file that has diagnostics. -/
def fixAll
    (c : Compilation)
    (ds : List Diagnostic) : Except AnalysisError (List FixResult) :=
  (paths ds).mapM fun path =>
    let own := ds.filter fun d => d.location.path.same path
    match c.tree? path with
    | some tree => .ok (fixDocument tree own)
    | none =>
      .error (.unfixable ((own.head?.map Diagnostic.id).getD "") path
        "document is not part of the compilation")

end Fixer

end Retarget
