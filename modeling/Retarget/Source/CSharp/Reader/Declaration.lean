import Retarget.Source.CSharp.Reader.Statement

/-
  This file holds the rules for everything outside bodies:
  imports, namespaces, types and their members, attributes
  and parameters.

  Key definitions include:
    * `CSharp.Reader.usingDirective`
    * `CSharp.Reader.namespaceDeclaration`
    * `CSharp.Reader.typeDeclaration`
    * `CSharp.Reader.memberRule`
    * `CSharp.Reader.unitRule`
-/

namespace Retarget.CSharp.Reader

open Rule

------------------------------------------------------------
-- Attributes and parameters
------------------------------------------------------------

/- An argument of an attribute; its name is a mention. -/
def attributeArgument (self : Phrases) : Rule Node := do
  let name ← opt (oneOf [label, (do
    let name ← identifier
    mark "="
    return .simple name)])
  return .group [name, ← self .expression]

def attributeRule (self : Phrases) : Rule Node := do
  let name ← typeName self
  let arguments ← attempt do
    mark "("
    let parts ← looseCommas (attributeArgument self)
    mark ")"
    return parts
  return .attribute name (arguments.getD [])

/- What a list of attributes is about. -/
def attributeTarget : Rule Unit := do
  let _ ← tokenIf fun t => t.kind == .word
  mark ":"

def attributeList (self : Phrases) : Rule Node := do
  mark "["
  let _ ← attempt attributeTarget
  let parts ← looseCommas (attributeRule self)
  mark "]"
  return .group parts

/- One or more lists of attributes. -/
def attributesRule (self : Phrases) : Rule Node := do
  let lists ← many (attributeList self)
  require (!lists.isEmpty)
  return .group lists

/- The name of a parameter array is a mention. -/
def parameter (self : Phrases) : Rule Node := do
  let attributes ← opt (self .attributes)
  let array ← optWord "params"
  let _ ← many (wordOf ["this", "ref", "out", "in", "readonly"])
  let _ ← attempt do
    word "scoped"
    require (← nextIs fun t => t.kind == .word)
  let typed ← attempt do
    let type ← self .type
    let name ← identifier
    return Node.group [type, if array then .simple name else Node.empty]
  match typed with
  | some typed => return .group [attributes, typed, ← opt (assigned self)]
  | none =>
    oneOf
      [ (do
          let _ ← identifier
          require (← nextIs fun t =>
            t.isMark "," || t.isMark ")" || t.isMark "]" || t.isMark "=")
          return .group [attributes, ← opt (assigned self)]),
        (do word "__arglist"; return Node.empty),
        self .type ]

def parametersRule (self : Phrases) : Rule Node := do
  mark "("
  let parts ← looseCommas (parameter self)
  mark ")"
  return .group parts

def indexParameters (self : Phrases) : Rule Node := do
  mark "["
  let parts ← looseCommas (parameter self)
  mark "]"
  return .group parts

------------------------------------------------------------
-- Imports and namespaces
------------------------------------------------------------

/-
  An import.  An alias for something that is no plain dotted
  name mentions nothing and counts as no import.
-/
def usingDirective (self : Phrases) : Rule Node := do
  let first ← start
  let _ ← optWord "global"
  word "using"
  let _ ← many (wordOf ["static", "unsafe"])
  let shorthand ← attempt do
    let _ ← identifier
    mark "="
  let nameStart ← start
  let target ← self .type
  let nameStop ← stop
  mark ";"
  let last ← stop
  let directive :=
    Node.using ⟨first, last⟩ ⟨nameStart, nameStop⟩ shorthand.isSome target
  match target with
  | .simple _ => return directive
  | .qualified _ _ => return directive
  | .aliased _ _ => return directive
  | _ => return Node.empty

def externAlias : Rule Node := do
  word "extern"
  word "alias"
  let name ← identifier
  mark ";"
  return .simple name

def namespaceDeclaration (self : Phrases) : Rule Node := do
  let first ← start
  word "namespace"
  let nameStart ← start
  let _ ← typeName self
  let nameStop ← stop
  if ← optMark ";" then
    return .namespaceFile ⟨first, ← stop⟩ ⟨nameStart, nameStop⟩
  else
    mark "\x7b"
    let parts ← many (oneOf [self .unit, strayToken])
    mark "\x7d"
    let _ ← optMark ";"
    return .namespaceBlock ⟨first, ← stop⟩ ⟨nameStart, nameStop⟩ parts

------------------------------------------------------------
-- Types
------------------------------------------------------------

/-
  Modifiers.  A contextual one counts only in front of
  another word, and `ref` only where a type is declared.
-/
def modifiers : Rule Unit := do
  let _ ← many <| oneOf
    [ (do
        wordOf ["public", "private", "protected", "internal",
          "static", "abstract", "sealed", "virtual", "override",
          "readonly", "extern", "unsafe", "volatile", "new",
          "const", "fixed"]
        return Node.empty),
      (do
        wordOf ["async", "partial", "required", "file"]
        require (← nextIs fun t => t.kind == .word || t.isMark "(")
        return Node.empty),
      (do
        word "ref"
        require ((← nextIsWord "struct") || (← nextIsWord "partial"))
        return Node.empty) ]

def baseList (self : Phrases) : Rule Node := do
  mark ":"
  grouped <| commas do
    let type ← self .type
    return .group [type, ← opt (arguments self)]

def members (self : Phrases) : Rule Node := do
  mark "\x7b"
  let parts ← many (oneOf [self .member, strayToken])
  mark "\x7d"
  let _ ← optMark ";"
  return .group parts

/- The keywords that start the declaration of a type. -/
def typeKeyword : Rule Unit := do
  let t ← tokenIf fun t =>
    t.kind == .word &&
      ["class", "struct", "interface", "record"].contains t.text
  if t.text == "record" then
    let _ ← attempt (wordOf ["class", "struct"])

def classDeclaration (self : Phrases) : Rule Node := do
  typeKeyword
  let name ← identifier
  let typeParameters ← opt (typeParameters self)
  let parameters ← opt (self .parameters)
  let bases ← opt (baseList self)
  let constraints ← constraints self
  let body ← oneOf [members self, (do mark ";"; return Node.empty)]
  return .typeDeclaration name
    [typeParameters, parameters, bases, constraints, body]

def enumMember (self : Phrases) : Rule Node := do
  let attributes ← opt (self .attributes)
  let _ ← identifier
  return .group [attributes, ← opt (assigned self)]

def enumDeclaration (self : Phrases) : Rule Node := do
  word "enum"
  let name ← identifier
  let bases ← opt (baseList self)
  mark "\x7b"
  let parts ← looseCommas (enumMember self)
  mark "\x7d"
  let _ ← optMark ";"
  return .typeDeclaration name (bases :: parts)

def delegateDeclaration (self : Phrases) : Rule Node := do
  word "delegate"
  let type ← self .type
  let name ← identifier
  let typeParameters ← opt (typeParameters self)
  let parameters ← self .parameters
  let constraints ← constraints self
  mark ";"
  return .typeDeclaration name
    [type, typeParameters, parameters, constraints]

def typeDeclaration (self : Phrases) : Rule Node := do
  let attributes ← opt (self .attributes)
  modifiers
  let declared ← oneOf
    [ classDeclaration self, enumDeclaration self,
      delegateDeclaration self ]
  return .group [attributes, declared]

------------------------------------------------------------
-- Members
------------------------------------------------------------

def accessor (self : Phrases) : Rule Node := do
  let attributes ← opt (self .attributes)
  modifiers
  wordOf ["get", "set", "init", "add", "remove"]
  return .group [attributes, ← body self]

def accessors (self : Phrases) : Rule Node := do
  mark "\x7b"
  let parts ← many (accessor self)
  mark "\x7d"
  return .group parts

/- The interface that a member implements, with its dot. -/
def explicitInterface (self : Phrases) : Rule Node := do
  let first ← oneOf [aliasedName self, simpleName self]
  mark "."
  let rest ← many do
    let part ← simpleName self
    mark "."
    return part
  return rest.foldl Node.qualified first

def operatorMember (self : Phrases) : Rule Node := do
  word "operator"
  let _ ← optWord "checked"
  let _ ← many (tokenIf fun t =>
    !t.isMark "(" && (t.kind == .mark || t.isWord "true" || t.isWord "false"))
  let parameters ← self .parameters
  return .group [parameters, ← body self]

def conversion (self : Phrases) : Rule Node := do
  wordOf ["implicit", "explicit"]
  let owner ← opt (explicitInterface self)
  word "operator"
  let _ ← optWord "checked"
  let type ← self .type
  let parameters ← self .parameters
  return .group [owner, type, parameters, ← body self]

def constructor (self : Phrases) : Rule Node := do
  let _ ← identifier
  let parameters ← self .parameters
  let chained ← opt do
    mark ":"
    wordOf ["base", "this"]
    arguments self
  return .group [parameters, chained, ← body self]

def destructor (self : Phrases) : Rule Node := do
  mark "~"
  let _ ← identifier
  let parameters ← self .parameters
  return .group [parameters, ← body self]

def indexer (self : Phrases) : Rule Node := do
  let owner ← opt (explicitInterface self)
  word "this"
  let parameters ← indexParameters self
  let body ← oneOf [accessors self, body self]
  return .group [owner, parameters, body]

def method (self : Phrases) : Rule Node := do
  let owner ← opt (explicitInterface self)
  let _ ← identifier
  let typeParameters ← opt (typeParameters self)
  let parameters ← self .parameters
  let constraints ← constraints self
  return .group
    [owner, typeParameters, parameters, constraints, ← body self]

def property (self : Phrases) : Rule Node := do
  let owner ← opt (explicitInterface self)
  let _ ← identifier
  oneOf
    [ (do
        let accessors ← accessors self
        let value ← opt do
          let value ← assigned self
          mark ";"
          return value
        return .group [owner, accessors, value]),
      (do
        mark "=>"
        let value ← self .expression
        mark ";"
        return .group [owner, value]) ]

def fields (self : Phrases) : Rule Node := do
  let declared ← commas (declarator self)
  mark ";"
  return .group declared

def event (self : Phrases) : Rule Node := do
  word "event"
  let type ← self .type
  return .group [type, ← oneOf [fields self, property self]]

/- A member that starts with its type. -/
def typedMember (self : Phrases) : Rule Node := do
  let type ← self .type
  return .group
    [ type,
      ← oneOf
          [ operatorMember self, indexer self, fields self,
            method self, property self ] ]

def memberRule (self : Phrases) : Rule Node :=
  oneOf
    [ (do mark ";"; return Node.empty),
      typeDeclaration self,
      (do
        let attributes ← opt (self .attributes)
        modifiers
        return .group
          [ attributes,
            ← oneOf
                [ event self, destructor self, conversion self,
                  constructor self, typedMember self ] ]) ]

------------------------------------------------------------
-- Compilation units
------------------------------------------------------------

def globalAttributes (self : Phrases) : Rule Node := do
  mark "["
  wordOf ["assembly", "module"]
  mark ":"
  let parts ← looseCommas (attributeRule self)
  mark "]"
  return .group parts

/- Something that stands directly in a file or a namespace. -/
def unitRule (self : Phrases) : Rule Node :=
  oneOf
    [ usingDirective self, externAlias, globalAttributes self,
      namespaceDeclaration self, typeDeclaration self,
      self .statement, self .member ]

end Retarget.CSharp.Reader
