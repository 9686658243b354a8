import Retarget.Text.Offset
import Retarget.Source.Name
import Retarget.Source.CSharp.Syntax

/-
  This file collects from a C# syntax tree what it says
  about names, imports, types and namespaces.

  A node is visited in several ways, as a part of a dotted
  name in another way than on its own.  `Visitor` holds all
  of them, and each is a definition over the visitors of the
  node's children.

  Key definitions include:
    * `CSharp.Collector`
    * `CSharp.Visitor`
    * `CSharp.Visitor.ofNode`
    * `CSharp.SyntaxNode.visitor`
    * `CSharp.parts`
-/

namespace Retarget.CSharp

------------------------------------------------------------
-- The text of nodes
------------------------------------------------------------

/- The text of a span, when it starts and ends between characters. -/
def text? (source : List Char) (span : Span) : Option String :=
  (Text.slice? span.start span.stop source).map String.ofList

def textOf (source : List Char) (span : Span) : String :=
  (text? source span).getD ""

/- A text without its blanks. -/
def compact (text : String) : String :=
  String.ofList (text.toList.filter fun c => !Text.isBlank c)

------------------------------------------------------------
-- Collected parts
------------------------------------------------------------

/-
  What has been collected so far, and the full names of the
  namespaces around, the innermost first.
-/
structure Collector where
  enclosing : List String := []
  parts : SourceParts := {}
  deriving Repr, Inhabited

namespace Collector

def addName (c : Collector) (name : NameNode) : Collector :=
  { c with parts := { c.parts with names := c.parts.names ++ [name] } }

/- Add an import directive; an alias brings in no namespace. -/
def addImport
    (c : Collector)
    (span : Span)
    (target : Option String) : Collector :=
  { c with
    parts :=
      { c.parts with
        imports := c.parts.imports ++ target.toList
        importSpans := c.parts.importSpans ++ [span] } }

def addType (c : Collector) (name : String) : Collector :=
  let type : TypeDeclaration := ⟨c.enclosing.head?, name⟩
  { c with
    parts := { c.parts with declarations := c.parts.declarations ++ [type] } }

/- Enter a namespace inside the one around. -/
def enter (c : Collector) (name : String) (span : Span) : Collector :=
  let fullName :=
    match c.enclosing.head? with
    | some outer => outer ++ "." ++ name
    | none => name
  { enclosing := fullName :: c.enclosing
    parts :=
      { c.parts with namespaces := c.parts.namespaces ++ [⟨fullName, span⟩] } }

def leave (c : Collector) : Collector :=
  { c with enclosing := c.enclosing.tail }

/-
  Add the name of an identifier.  The full span starts with
  the qualifier when that is a text of its own.
-/
def addIdentifier
    (c : Collector)
    (source : List Char)
    (identifier : Span)
    (qualifier : Option String)
    (qualifierStart : Option Nat)
    (context : NameContext)
    (isGeneric : Bool) : Collector :=
  let start :=
    match qualifier, qualifierStart with
    | some _, some start => start
    | _, _ => identifier.start
  c.addName
    { simpleName := textOf source identifier
      qualifier := qualifier
      context := context
      isGeneric := isGeneric
      span := identifier
      fullSpan := ⟨start, identifier.stop⟩ }

end Collector

------------------------------------------------------------
-- Kinds of nodes
------------------------------------------------------------

def typeDeclarationKinds : List String :=
  ["class_declaration", "struct_declaration", "interface_declaration",
    "enum_declaration", "record_declaration",
    "record_struct_declaration", "delegate_declaration"]

/- The kinds of what an import directive can name. -/
def importTargetKinds : List String :=
  ["identifier", "qualified_name", "alias_qualified_name"]

/- A node of this kind introduces a name, which is no mention of it. -/
def declaresName (kind : String) : Bool :=
  kind.endsWith "_declaration" ||
    ["variable_declarator", "parameter", "type_parameter",
      "local_function_statement", "catch_declaration",
      "labeled_statement"].contains kind

------------------------------------------------------------
-- Visitors
------------------------------------------------------------

abbrev Action := Collector → Collector

structure Visitor where
  kind : String
  field : Option String
  isNamed : Bool
  span : Span
  /-
    The dotted text of a node of names only; type arguments
    and aliases are left out.
  -/
  dotted? : Option String
  /- Collect from a node. -/
  visit : Action
  /- Collect from the nodes in a node. -/
  visitChildren : Action
  /-
    Collect each name of a dotted name.  The context is that
    of the last one.
  -/
  visitName : NameContext → Action
  /-
    Collect from the right side of a dot, behind a qualifier
    with a text and a start.
  -/
  visitRight : Option String → Option Nat → NameContext → Action
  deriving Inhabited

namespace Visitor

------------------------------------------------------------
-- Children
------------------------------------------------------------

def inField (name : String) (v : Visitor) : Bool :=
  v.field == some name

/- A node has a name in the grammar, and this one. -/
def isOfKind (kind : String) (v : Visitor) : Bool :=
  v.isNamed && v.kind == kind

def visitAll (nodes : List Visitor) : Action := fun c =>
  (nodes.filter Visitor.isNamed).foldl (fun c node => node.visit c) c

variable (source : List Char)
variable (kind : String)
variable (span : Span)
variable (children : List Visitor)

/- Visit the children but the one in the field of the name. -/
def visitUnnamed : Action :=
  visitAll (children.eraseP (inField "name"))

/-
  Visit the children but the one that a node of this kind
  introduces.
-/
def visitUndeclared : Action :=
  if declaresName kind then
    if children.any (inField "name") then visitUnnamed children
    else if kind == "variable_declarator" then
      visitAll (children.eraseP (isOfKind "identifier"))
    else visitAll children
  else visitAll children

------------------------------------------------------------
-- Names
------------------------------------------------------------

def dottedPair? (left right : String) : Option String := do
  let left ← (← children.find? (inField left)).dotted?
  let right ← (← children.find? (inField right)).dotted?
  return left ++ "." ++ right

def dottedOf? : Option String :=
  match kind with
  | "identifier" => text? source span
  | "generic_name" => do
    text? source (← children.find? (isOfKind "identifier")).span
  | "qualified_name" => dottedPair? children "qualifier" "name"
  | "member_access_expression" => dottedPair? children "expression" "name"
  | "alias_qualified_name" => do
    (← children.find? (inField "name")).dotted?
  | _ => none

def visitTypeArguments : Action := fun c =>
  match children.find? (isOfKind "type_argument_list") with
  | some arguments => arguments.visitChildren c
  | none => c

/- The name right of a dot, with what its left side gives it. -/
def visitRightOf (left : Option Visitor) (context : NameContext) : Action :=
  fun c =>
    match children.find? (inField "name") with
    | some name =>
      name.visitRight (left.bind dotted?) (left.map fun l => l.span.start)
        context c
    | none => c

/- The context of the parts left of a qualified name. -/
def leftContext : NameContext → NameContext
  | .imported => .imported
  | _ => .simple

/- The context of the part right of a dot in a type's name. -/
def rightContext : NameContext → NameContext
  | .simple => .qualified
  | context => context

def visitQualified (context : NameContext) : Action := fun c =>
  let left := children.find? (inField "qualifier")
  let c :=
    match left with
    | some qualifier => qualifier.visitName (leftContext context) c
    | none => c
  visitRightOf children left (rightContext context) c

def visitMemberAccess : Action := fun c =>
  let left := children.find? (inField "expression")
  let c :=
    match left with
    | some expression => expression.visit c
    | none => c
  visitRightOf children left .memberAccess c

/- A name with type arguments, perhaps behind a qualifier. -/
def visitGeneric
    (qualifier : Option String)
    (qualifierStart : Option Nat)
    (context : NameContext) : Action := fun c =>
  let c :=
    match children.find? (isOfKind "identifier") with
    | some identifier =>
      c.addIdentifier source identifier.span qualifier qualifierStart
        context true
    | none => c
  visitTypeArguments children c

/-
  Collect the names of a dotted name.  There are none when
  the kind is not that of a name.
-/
def visitNameOf? (context : NameContext) : Option Action :=
  match kind with
  | "identifier" => some fun c =>
    c.addIdentifier source span none none context false
  | "generic_name" => some (visitGeneric source children none none context)
  | "qualified_name" => some (visitQualified children context)
  | "member_access_expression" => some (visitMemberAccess children)
  | "alias_qualified_name" => some fun c =>
    match children.find? (inField "name") with
    | some name => name.visitName context c
    | none => c
  | _ => none

------------------------------------------------------------
-- Directives and declarations
------------------------------------------------------------

def visitAttribute : Action := fun c =>
  let c :=
    match children.find? (inField "name") with
    | some name => name.visitName .attribute c
    | none => c
  visitUnnamed children c

/- An import directive; what it imports is the last dotted name in it. -/
def visitUsing : Action := fun c =>
  let isAlias :=
    children.any (inField "name") ||
      children.any fun n => n.kind == "=" || n.kind == "name_equals"
  let targets := (children.eraseP (inField "name")).filter fun n =>
    n.isNamed && importTargetKinds.contains n.kind
  match targets.getLast? with
  | some target =>
    let imported :=
      if isAlias then none else some (compact (textOf source target.span))
    target.visitName .imported (c.addImport span imported)
  | none => c

/-
  A namespace.  One without a body of its own reaches to the
  end of the file and stays the one around what follows.
-/
def visitNamespace : Action := fun c =>
  match children.find? (inField "name") with
  | some name =>
    let isOpen := kind == "file_scoped_namespace_declaration"
    let stop := if isOpen then Text.byteLength source else span.stop
    let entered :=
      c.enter (compact (textOf source name.span)) ⟨span.start, stop⟩
    let visited := visitUnnamed children entered
    if kind == "namespace_declaration" then visited.leave else visited
  | none => visitAll children c

def visitType : Action := fun c =>
  match children.find? (inField "name") with
  | some name => visitUnnamed children (c.addType (textOf source name.span))
  | none => visitAll children c

------------------------------------------------------------
-- Nodes
------------------------------------------------------------

def visitOf : Action :=
  match kind with
  | "using_directive" => visitUsing source span children
  | "namespace_declaration" => visitNamespace source kind span children
  | "file_scoped_namespace_declaration" =>
    visitNamespace source kind span children
  | "attribute" => visitAttribute children
  | _ =>
    if typeDeclarationKinds.contains kind then visitType source children
    else
      (visitNameOf? source kind span children .simple).getD
        (visitUndeclared kind children)

/- The visitor of a node, made of the visitors of its children. -/
def ofNode (field : Option String) (isNamed : Bool) : Visitor :=
  let visit := visitOf source kind span children
  { kind := kind
    field := field
    isNamed := isNamed
    span := span
    dotted? := dottedOf? source kind span children
    visit := visit
    visitChildren := visitAll children
    visitName := fun context =>
      (visitNameOf? source kind span children context).getD visit
    visitRight := fun qualifier start context =>
      match kind with
      | "identifier" => fun c =>
        c.addIdentifier source span qualifier start context false
      | "generic_name" =>
        visitGeneric source children qualifier start context
      | _ => visit }

end Visitor

namespace SyntaxNode

mutual

def visitor (source : List Char) : SyntaxNode → Visitor
  | ⟨kind, field, isNamed, span, children⟩ =>
    .ofNode source kind span (visitors source children) field isNamed

def visitors (source : List Char) : List SyntaxNode → List Visitor
  | [] => []
  | node :: rest => visitor source node :: visitors source rest

end

end SyntaxNode

/- What the C# front end reports about a file. -/
def parts [Grammar] (text : String) : SourceParts :=
  (((Grammar.parse text).visitor text.toList).visit {}).parts

end Retarget.CSharp
