import Retarget.Symbol.Table
import Retarget.Source.Tree

/-
  This file defines what a name in a source file stands for.
  A name is looked up as written, then in the namespaces
  around it, and only then in the imported namespaces.

  Key definitions include:
    * `Resolution`
    * `SemanticModel`
    * `SemanticModel.bind`
    * `SemanticModel.resolve`
-/

namespace Retarget

inductive Resolution where
  | resolved (symbol : Symbol)
  /-
    A place where a type or namespace is expected, and no
    symbol or several symbols of that name.
  -/
  | errorType (name : String)
  /- Nothing is known about the name. -/
  | unresolved
  deriving Repr, DecidableEq

/- A source file with the symbols that its names can mean. -/
structure SemanticModel where
  tree : SourceTree
  table : SymbolTable
  deriving Repr

namespace SemanticModel

variable (model : SemanticModel)

def lookup (fullName : String) : List Symbol :=
  model.table.lookup fullName model.tree.language

/- The one symbol that was found, else an error. -/
def unique (found : List Symbol) (name : String) : Resolution :=
  match found with
  | [symbol] => .resolved symbol
  | _ => .errorType name

------------------------------------------------------------
-- Binding
------------------------------------------------------------

/- A dotted name and the names that it starts with, longest first. -/
def enclosingNames (parts : List String) : List String :=
  let n := parts.length
  (List.range n).map fun i => Text.join "." (parts.take (n - i))

def written (qualifier : Option String) (name : String) : String :=
  match qualifier with
  | some qualifier => qualifier ++ "." ++ name
  | none => name

/- The full names that a written name can have in scope. -/
def scopedNames (written : String) (offset : Nat) : List String :=
  let outer := (model.tree.enclosingNamespaces offset).flatMap fun s =>
    enclosingNames (Text.splitAt '.' s)
  written :: outer.map fun s => s ++ "." ++ written

/- What the imported namespaces hold under a written name. -/
def importedSymbols (written : String) : List Symbol :=
  let found := model.tree.imports.flatMap fun i =>
    model.lookup (i ++ "." ++ written)
  found.foldl
    (fun kept s =>
      if kept.any fun k => k.fullName == s.fullName then kept
      else kept ++ [s])
    []

/-
  The symbols that a written name can stand for at an offset.
  A name in scope hides the imported ones.
-/
def bind
    (qualifier : Option String)
    (name : String)
    (offset : Nat) : List Symbol :=
  let written := written qualifier name
  let inScope := (model.scopedNames written offset).findSome? fun n =>
    match model.lookup n with
    | [] => none
    | found => some found
  match inScope with
  | some found => found
  | none => model.importedSymbols written

------------------------------------------------------------
-- Resolving
------------------------------------------------------------

/-
  A simple name that nothing is found for may as well be a
  variable, so it is left open.
-/
def resolveType (node : NameNode) : Resolution :=
  let found := model.bind node.qualifier node.simpleName node.span.start
  if found.isEmpty && node.context == .simple && !node.isGeneric then
    .unresolved
  else unique found node.qualifiedName

/- A member of what the qualifier stands for. -/
def resolveMember (node : NameNode) : Resolution :=
  match node.qualifier with
  | none => .unresolved
  | some qualifier =>
    let (outer, name) :=
      match Text.splitLast '.' qualifier with
      | some (outer, name) => (some outer, name)
      | none => (none, qualifier)
    match model.bind outer name node.span.start with
    | [receiver] =>
      let found := model.lookup (receiver.fullName ++ "." ++ node.simpleName)
      match receiver.kind with
      | .nameSpace => unique found node.qualifiedName
      | .type =>
        match found with
        | [member] => .resolved member
        | _ => .unresolved
      | _ => .unresolved
    | _ => .unresolved

/-
  What a name stands for.  An attribute means the type whose
  name has the suffix, when there is one.
-/
def resolve (node : NameNode) : Resolution :=
  match node.context with
  | .memberAccess => model.resolveMember node
  | .imported => unique (model.lookup node.qualifiedName) node.qualifiedName
  | .attribute =>
    let suffixed := model.bind node.qualifier
      (node.simpleName ++ "Attribute") node.span.start
    if suffixed.isEmpty then model.resolveType node
    else unique suffixed node.qualifiedName
  | _ => model.resolveType node

end SemanticModel

end Retarget
