import Retarget.Xml.Token

/-
  This file defines the tree of an XML text.  Prefixes must
  be declared and no attribute may stand twice; afterwards
  elements are known by the last part of their names, and
  attributes with prefixes are left out.

  Key definitions include:
    * `Xml.Node`
    * `Xml.Node.attribute?`
    * `Xml.Node.text?`
    * `Xml.Node.descendants`
    * `Xml.Node.read?`
-/

namespace Retarget.Xml

------------------------------------------------------------
-- Nodes
------------------------------------------------------------

inductive Node where
  | element
      (name : String)
      (attributes : List (String × String))
      (children : List Node)
  | text (content : String)
  /- A comment or an instruction for a program. -/
  | aside
  deriving Repr, Inhabited

namespace Node

def isElement : Node → Bool
  | element .. => true
  | _ => false

/- The name of an element; other nodes have none. -/
def name : Node → String
  | element name .. => name
  | _ => ""

def children : Node → List Node
  | element _ _ children => children
  | _ => []

/- The children that are elements. -/
def elements (n : Node) : List Node :=
  n.children.filter isElement

def attribute? (n : Node) (name : String) : Option String :=
  match n with
  | element _ attributes _ =>
    (attributes.find? fun a => a.1 == name).map Prod.snd
  | _ => none

/- The text that an element starts with. -/
def text? (n : Node) : Option String :=
  match n.children with
  | text content :: _ => some content
  | _ => none

def child? (n : Node) (name : String) : Option Node :=
  n.elements.find? fun c => c.name == name

mutual

/- An element and all elements below it, in the order of the text. -/
def descendants : Node → List Node
  | element name attributes children =>
    element name attributes children :: childDescendants children
  | _ => []

def childDescendants : List Node → List Node
  | [] => []
  | c :: r => c.descendants ++ childDescendants r

end

end Node

------------------------------------------------------------
-- Namespaces
------------------------------------------------------------

/- The address of the prefix `xml`. -/
def xmlAddress : String :=
  "http://www.w3.org/XML/1998/namespace"

/- The address of the prefix `xmlns`. -/
def xmlnsAddress : String :=
  "http://www.w3.org/2000/xmlns/"

/- The prefixes in scope with their addresses. -/
abbrev Scope := List (String × String)

def Scope.address? (scope : Scope) (qualifier : String) : Option String :=
  (scope.find? fun e => e.1 == qualifier).map Prod.snd

/- Attributes that declare a namespace. -/
def isDeclaration (name : Name) : Bool :=
  name.qualifier == "xmlns" || name.simple == "xmlns"

/- The namespaces that a tag declares itself. -/
def declarations? : Scope → List (Name × String) → Option Scope
  | scope, [] => some scope
  | scope, (name, value) :: r =>
    if name.qualifier == "xmlns" then
      let isXml := value == xmlAddress
      if value == xmlnsAddress || (name.simple == "xml") != isXml ||
          (scope.address? name.simple).isSome then none
      else if isXml then declarations? scope r
      else declarations? (scope ++ [(name.simple, value)]) r
    else if name.simple == "xmlns" then
      if value == xmlAddress || value == xmlnsAddress then none
      else declarations? (scope ++ [("", value)]) r
    else declarations? scope r

/- The full name of an attribute; without a prefix it has no address. -/
def attributeName? (scope : Scope) (name : Name) :
    Option (Option String × String) :=
  if name.qualifier == "xml" then some (some xmlAddress, name.simple)
  else if name.qualifier == "" then some (none, name.simple)
  else (scope.address? name.qualifier).map fun a => (some a, name.simple)

/- No attribute stands twice. -/
def hasNoDouble : List (Option String × String) → Bool
  | [] => true
  | a :: r => !r.contains a && hasNoDouble r

/-
  The attributes of a tag that have no prefix, after a check
  of all of them.
-/
def attributesIn? (scope : Scope) (attributes : List (Name × String)) :
    Option (List (String × String)) := do
  let kept := attributes.filter fun a => !isDeclaration a.1
  let names ← kept.mapM fun a => attributeName? scope a.1
  if hasNoDouble names then
    return (kept.filter fun a => a.1.qualifier == "").map
      fun a => (a.1.simple, a.2)
  else none

------------------------------------------------------------
-- Building
------------------------------------------------------------

/- An element whose end has not come; its children are reversed. -/
structure OpenElement where
  name : Name
  attributes : List (String × String)
  scope : Scope
  children : List Node

namespace OpenElement

/- Text that directly follows a text belongs to it. -/
def addText (e : OpenElement) (content : String) : OpenElement :=
  match e.children with
  | .text before :: r => { e with children := .text (before ++ content) :: r }
  | r => { e with children := .text content :: r }

def addChild (e : OpenElement) (child : Node) : OpenElement :=
  { e with children := child :: e.children }

def toNode (e : OpenElement) : Node :=
  .element e.name.simple e.attributes e.children.reverse

end OpenElement

/- The open elements, the innermost first, and the closed root. -/
structure Building where
  stack : List OpenElement
  root : Option Node

namespace Building

def start : Building :=
  ⟨[], none⟩

/- The innermost element is complete. -/
def close? (b : Building) : Option Building :=
  match b.stack with
  | [] => none
  | [e] => some ⟨[], some e.toNode⟩
  | e :: parent :: r => some ⟨parent.addChild e.toNode :: r, none⟩

def open? (b : Building) (name : Name)
    (attributes : List (Name × String)) : Option Building := do
  if (b.stack.isEmpty && b.root.isSome) || name.qualifier == "xmlns" then none
  let outer := ((b.stack.head?).map OpenElement.scope).getD []
  let own ← declarations? [] attributes
  let scope := own ++ outer
  if name.qualifier != "" && (scope.address? name.qualifier).isNone then none
  let attributes ← attributesIn? scope attributes
  return { b with stack := ⟨name, attributes, scope, []⟩ :: b.stack }

/- Change the innermost open element, which must be there. -/
def inside? (b : Building) (f : OpenElement → OpenElement) : Option Building :=
  match b.stack with
  | [] => none
  | e :: r => some { b with stack := f e :: r }

def step? (b : Building) : Token → Option Building
  | .opening name attributes isClosed => do
    let b ← b.open? name attributes
    if isClosed then b.close? else return b
  | .closing name =>
    match b.stack with
    | e :: _ => if e.name = name then b.close? else none
    | [] => none
  | .text raw =>
    if b.stack.isEmpty && raw.all isXmlBlank then some b
    else do
      let content ← textValue? raw
      b.inside? fun e => e.addText content
  | .literal raw => b.inside? fun e => e.addText (literalValue raw)
  | .aside =>
    if b.stack.isEmpty then some b else b.inside? fun e => e.addChild .aside

end Building

/- The root element of an XML text. -/
def Node.read? (text : String) : Option Node := do
  let tokens ← Token.scan? text
  let building ← tokens.foldlM Building.step? Building.start
  if building.stack.isEmpty then building.root else none

end Retarget.Xml
