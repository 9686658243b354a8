import Retarget.Source.Span

/-
  This file defines what the two front ends report about a
  source file: the names it mentions, its imports, the types
  it declares and the namespaces around them.

  Key definitions include:
    * `NameContext`
    * `NameNode`
    * `NameNode.qualifiedName`
    * `TypeDeclaration`
    * `NamespaceScope`
    * `SourceParts`
-/

namespace Retarget

/- The place of a name in the syntax around it. -/
inductive NameContext where
  /- A name on its own, or the first part of a dotted name. -/
  | simple
  /- A later part of a dotted type or namespace name. -/
  | qualified
  /- A name after the dot of a member access. -/
  | memberAccess
  /- The name of an attribute. -/
  | attribute
  /- A part of an import directive. -/
  | imported
  deriving Repr, DecidableEq, Inhabited

def NameContext.title : NameContext → String
  | .simple => "Simple"
  | .qualified => "Qualified"
  | .memberAccess => "MemberAccess"
  | .attribute => "Attribute"
  | .imported => "Import"

/-
  A mention of a name.  The qualifier is the dotted text to
  its left when that consists of names only; the full span
  reaches from the start of the qualifier to the end of the
  name.
-/
structure NameNode where
  simpleName : String
  qualifier : Option String
  context : NameContext
  isGeneric : Bool
  span : Span
  fullSpan : Span
  deriving Repr, DecidableEq, Inhabited

namespace NameNode

/- The name with its qualifier as written. -/
def qualifiedName (node : NameNode) : String :=
  match node.qualifier with
  | some qualifier => qualifier ++ "." ++ node.simpleName
  | none => node.simpleName

def isMemberAccess (node : NameNode) : Bool :=
  node.context == .memberAccess

def isAttribute (node : NameNode) : Bool :=
  node.context == .attribute

end NameNode

/- A type declared in a source file, with its namespace. -/
structure TypeDeclaration where
  scope : Option String
  name : String
  deriving Repr, DecidableEq, Inhabited

def TypeDeclaration.fullName (d : TypeDeclaration) : String :=
  match d.scope with
  | some scope => scope ++ "." ++ d.name
  | none => d.name

/- A namespace and the text that it covers. -/
structure NamespaceScope where
  name : String
  span : Span
  deriving Repr, DecidableEq, Inhabited

/- All that a front end reports about one file. -/
structure SourceParts where
  names : List NameNode := []
  imports : List String := []
  importSpans : List Span := []
  declarations : List TypeDeclaration := []
  namespaces : List NamespaceScope := []
  deriving Repr, Inhabited

end Retarget
