import Retarget.Source.CSharp.Reader.Rule

/-
  This file holds the rules for types and for the names of
  types and namespaces.

  Key definitions include:
    * `CSharp.Reader.typeName`
    * `CSharp.Reader.typeArguments`
    * `CSharp.Reader.typeRule`
-/

namespace Retarget.CSharp.Reader

open Rule

------------------------------------------------------------
-- Names
------------------------------------------------------------

/- Type arguments, or only their commas. -/
def typeArguments (self : Phrases) : Rule (List Node) := do
  mark "<"
  match ← attempt (do let _ ← many (mark ","); mark ">") with
  | some _ => return []
  | none =>
    let arguments ← commas (self .type)
    mark ">"
    return arguments

def simpleName (self : Phrases) : Rule Node := do
  let name ← identifier
  match ← attempt (typeArguments self) with
  | some arguments => return .generic name arguments
  | none => return .simple name

/- A name behind an alias and two colons. -/
def aliasedName (self : Phrases) : Rule Node := do
  let start ← start
  let _ ← identifier
  mark "::"
  return .aliased start (← simpleName self)

/- A dotted name of a type or a namespace. -/
def typeName (self : Phrases) : Rule Node := do
  let first ← oneOf [aliasedName self, simpleName self]
  let rest ← many (do mark "."; simpleName self)
  return rest.foldl Node.qualified first

------------------------------------------------------------
-- Types
------------------------------------------------------------

/- A tuple type; the names of its elements are reported. -/
def tupleType (self : Phrases) : Rule Node := do
  mark "("
  let elements ← commas do
    let type ← self .type
    match ← attempt identifier with
    | some name => return .group [type, .simple name]
    | none => return type
  mark ")"
  require (elements.length ≥ 2)
  return .group elements

def functionPointer (self : Phrases) : Rule Node := do
  word "delegate"
  mark "*"
  if ← optWord "unmanaged" then
    let _ ← attempt do
      mark "["
      let _ ← commas identifier
      mark "]"
  else
    let _ ← optWord "managed"
  mark "<"
  let parts ← commas do
    let _ ← many (wordOf ["ref", "readonly", "in", "out"])
    self .type
  mark ">"
  return .group parts

def refType (self : Phrases) : Rule Node := do
  let _ ← optWord "scoped"
  word "ref"
  let _ ← optWord "readonly"
  self .type

/- A type without what may follow it. -/
def typeCore (self : Phrases) : Rule Node :=
  oneOf
    [ (do wordOf predefinedTypes; return Node.empty),
      (do
        word "var"
        require (!(← nextIsMark "."))
        return Node.empty),
      tupleType self, refType self, functionPointer self,
      typeName self ]

def arrayRank : Rule Unit := do
  mark "["
  let _ ← many (mark ",")
  mark "]"

/- The token can be the first one of an operand. -/
def startsOperand (t : Token) : Bool :=
  match t.kind with
  | .number => true
  | .text => true
  | .interpolationOpen => true
  | .word =>
    if isReserved t.text then
      ["this", "base", "new", "typeof", "sizeof", "default",
        "checked", "unchecked", "true", "false", "null",
        "delegate", "stackalloc", "throw"].contains t.text ||
        predefinedTypes.contains t.text
    else
      !(queryWords.contains t.text ||
        ["when", "and", "or", "with"].contains t.text)
  | .mark =>
    ["(", "[", "-", "+", "!", "~", "++", "--", "&", "*", "^",
      ".."].contains t.text
  | _ => false

/-
  The marks behind a type.  In an operand a question mark
  belongs to the type only when no operand follows it.
-/
def typeSuffix (inOperand : Bool) : Rule Unit := do
  match ← attempt arrayRank with
  | some _ => return ()
  | none =>
    if inOperand then
      mark "?"
      require (!(← nextIs startsOperand) || (← nextIsMark "["))
    else
      match ← attempt (mark "?") with
      | some _ => return ()
      | none => mark "*"

def typeRule (self : Phrases) (inOperand : Bool) : Rule Node := do
  let core ← typeCore self
  match ← many (typeSuffix inOperand) with
  | [] => return core
  | _ => return .group [core]

end Retarget.CSharp.Reader
