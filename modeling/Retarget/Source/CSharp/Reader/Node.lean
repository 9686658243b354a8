import Retarget.Source.CSharp.Syntax

/-
  This file defines the trees that the grammar rules build
  and the syntax trees that they stand for.  They hold what
  names live in; the name that a declaration introduces is
  no part of them, apart from the names of types and of
  namespaces.

  Key definitions include:
    * `CSharp.Reader.Node`
    * `CSharp.Reader.Node.syntaxNode`
    * `CSharp.Reader.insert`
-/

namespace Retarget.CSharp.Reader

------------------------------------------------------------
-- Trees
------------------------------------------------------------

/- An identifier as written. -/
structure Word where
  text : String
  span : Span
  deriving Repr, DecidableEq, Inhabited

inductive Node where
  | simple (word : Word)
  /- A name with type arguments. -/
  | generic (word : Word) (arguments : List Node)
  /- Two sides of a dot in the name of a type or namespace. -/
  | qualified (left right : Node)
  /- Two sides of a dot or an arrow in an expression. -/
  | member (left right : Node)
  /- A name behind an alias such as `global`. -/
  | aliased (start : Nat) (right : Node)
  | attribute (name : Node) (arguments : List Node)
  | using (span targetSpan : Span) (isAlias : Bool) (target : Node)
  | namespaceBlock (span nameSpan : Span) (body : List Node)
  /- A namespace that reaches to the end of the file. -/
  | namespaceFile (span nameSpan : Span)
  | typeDeclaration (name : Word) (body : List Node)
  | group (parts : List Node)
  deriving Repr, Inhabited

def Node.empty : Node :=
  .group []

------------------------------------------------------------
-- Syntax trees
------------------------------------------------------------

/- The span from the first to the last of some nodes with text. -/
def hull (nodes : List SyntaxNode) : Span :=
  let spans := (nodes.map SyntaxNode.span).filter fun s => !s.isEmpty
  ⟨(spans.map Span.start).min?.getD 0, (spans.map Span.stop).max?.getD 0⟩

def branch (kind : String) (children : List SyntaxNode) : SyntaxNode :=
  ⟨kind, none, true, hull children, children⟩

def leaf (kind : String) (span : Span) : SyntaxNode :=
  ⟨kind, none, true, span, []⟩

/- A mark, which has no name in the grammar. -/
def markNode (text : String) (span : Span) : SyntaxNode :=
  ⟨text, none, false, span, []⟩

def inField (field : String) (node : SyntaxNode) : SyntaxNode :=
  { node with field := some field }

/- The leaf of an identifier. -/
def Word.leaf (word : Word) : SyntaxNode :=
  Reader.leaf "identifier" word.span

namespace Node

mutual

def syntaxNode : Node → SyntaxNode
  | .simple word => word.leaf
  | .generic word arguments =>
    branch "generic_name"
      [word.leaf, branch "type_argument_list" (syntaxNodes arguments)]
  | .qualified left right =>
    branch "qualified_name"
      [inField "qualifier" left.syntaxNode, inField "name" right.syntaxNode]
  | .member left right =>
    branch "member_access_expression"
      [inField "expression" left.syntaxNode, inField "name" right.syntaxNode]
  | .aliased start right =>
    let name := right.syntaxNode
    { branch "alias_qualified_name" [inField "name" name] with
      span := ⟨start, name.span.stop⟩ }
  | .attribute name arguments =>
    branch "attribute"
      (inField "name" name.syntaxNode :: syntaxNodes arguments)
  | .using span targetSpan isAlias target =>
    let mark := if isAlias then [markNode "=" ⟨span.start, span.start⟩] else []
    let target := { target.syntaxNode with span := targetSpan }
    { branch "using_directive" (mark ++ [target]) with span := span }
  | .namespaceBlock span nameSpan body =>
    { branch "namespace_declaration"
        (inField "name" (leaf "qualified_name" nameSpan) ::
          syntaxNodes body) with
      span := span }
  | .namespaceFile span nameSpan =>
    { branch "file_scoped_namespace_declaration"
        [inField "name" (leaf "qualified_name" nameSpan)] with
      span := span }
  | .typeDeclaration name body =>
    branch "class_declaration"
      (inField "name" name.leaf :: syntaxNodes body)
  | .group parts => branch "block" (syntaxNodes parts)

def syntaxNodes : List Node → List SyntaxNode
  | [] => []
  | node :: rest => node.syntaxNode :: syntaxNodes rest

end

end Node

------------------------------------------------------------
-- Words between the nodes
------------------------------------------------------------

mutual

/- Put a leaf at its place in a tree. -/
def insert (new : SyntaxNode) : SyntaxNode → SyntaxNode
  | ⟨kind, field, isNamed, span, children⟩ =>
    ⟨kind, field, isNamed, span, insertAmong new children⟩

/-
  Put a leaf into the node that it stands in, or between the
  nodes that it stands between.
-/
def insertAmong (new : SyntaxNode) : List SyntaxNode → List SyntaxNode
  | [] => [new]
  | node :: rest =>
    if new.span.stop ≤ node.span.start then new :: node :: rest
    else if new.span.start < node.span.stop then insert new node :: rest
    else node :: insertAmong new rest

end

end Retarget.CSharp.Reader
