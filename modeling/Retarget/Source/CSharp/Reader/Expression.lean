import Retarget.Source.CSharp.Reader.Type

/-
  This file holds the rules for expressions.  How tightly
  operators bind does not matter to the names in their
  operands, so an expression is read as a row of operands.

  Key definitions include:
    * `CSharp.Reader.primary`
    * `CSharp.Reader.operandRule`
    * `CSharp.Reader.expressionRule`
    * `CSharp.Reader.initializerRule`
-/

namespace Retarget.CSharp.Reader

open Rule

------------------------------------------------------------
-- Arguments and initializers
------------------------------------------------------------

/- A label in front of an argument. -/
def label : Rule Node := do
  let name ← identifier
  mark ":"
  return .simple name

/- The name of a variable that is declared in passing. -/
def designated : Rule Node := do
  let t ← tokenIf fun t =>
    t.isIdentifier && !queryWords.contains t.text &&
      !(["and", "or", "not", "when", "with"].contains t.text)
  return .simple ⟨t.text, t.span⟩

/- A row of variable names in parentheses. -/
def designations : Nat → Rule Node
  | 0 => failure
  | n + 1 => do
    mark "("
    let parts ← commas (oneOf [designated, designations n])
    mark ")"
    return .group parts

/- A type with the name of a variable. -/
def declaredInPassing (self : Phrases) : Rule Node := do
  require (!(← nextIsWord "await"))
  let type ← self .type
  let name ← oneOf [designated, designations 8]
  require (← nextIs fun t => t.isMark "," || t.isMark ")")
  return .group [type, name]

/- An argument; an outgoing one may declare its variable. -/
def argument (self : Phrases) : Rule Node := do
  let name ← opt label
  if ← optWord "out" then
    return .group
      [name, ← oneOf [declaredInPassing self, self .expression]]
  else
    let _ ← attempt (wordOf ["ref", "in"])
    return .group [name, ← self .expression]

def arguments (self : Phrases) : Rule Node := do
  mark "("
  let parts ← looseCommas (argument self)
  mark ")"
  return .group parts

def bracketed (self : Phrases) : Rule Node := do
  mark "["
  let parts ← looseCommas (argument self)
  mark "]"
  return .group parts

def initializerRule (self : Phrases) : Rule Node := do
  mark "\x7b"
  let parts ← looseCommas (oneOf [self .initializer, self .expression])
  mark "\x7d"
  return .group parts

/- What follows the equals sign of a variable or a member. -/
def assigned (self : Phrases) : Rule Node := do
  mark "="
  oneOf [self .initializer, self .expression]

------------------------------------------------------------
-- Objects
------------------------------------------------------------

def creation (self : Phrases) : Rule Node := do
  word "new"
  oneOf
    [ self .initializer,
      (do arrayRank; self .initializer),
      (do
        let values ← arguments self
        return .group [values, ← opt (self .initializer)]),
      (do
        let type ← typeCore self
        let _ ← attempt do
          mark "?"
          require (← nextIsMark "[")
        let values ← oneOf
          [ arguments self,
            grouped (many (oneOf [bracketed self, (do arrayRank; return Node.empty)])) ]
        return .group [type, values, ← opt (self .initializer)]) ]

def stackCreation (self : Phrases) : Rule Node := do
  word "stackalloc"
  let type ← opt (typeCore self)
  let size ← opt (bracketed self)
  return .group [type, size, ← opt (self .initializer)]

/- The parts of an interpolated string. -/
def interpolated (self : Phrases) : Rule Node := do
  ofKind .interpolationOpen
  let holes ← many do
    ofKind .holeOpen
    let value ← self .expression
    let width ← opt (do mark ","; self .expression)
    ofKind .holeClose
    return .group [value, width]
  ofKind .interpolationClose
  return .group holes

------------------------------------------------------------
-- Functions
------------------------------------------------------------

def functionBody (self : Phrases) : Rule Node := do
  mark "=>"
  oneOf [self .block, self .expression]

/- An anonymous function with a parameter list. -/
def lambda (self : Phrases) : Rule Node := do
  let parameters ← self .parameters
  return .group [parameters, ← functionBody self]

/- An anonymous function of one parameter, which is no mention. -/
def shortLambda (self : Phrases) : Rule Node := do
  let _ ← identifier
  functionBody self

def anonymousMethod (self : Phrases) : Rule Node := do
  word "delegate"
  let parameters ← opt (self .parameters)
  return .group [parameters, ← self .block]

------------------------------------------------------------
-- Queries
------------------------------------------------------------

/- A variable that ranges over the elements of a sequence. -/
def rangeVariable (self : Phrases) : Rule (Node × Node) := do
  match ← attempt (do let name ← identifier; word "in"; return name) with
  | some name => return (Node.empty, .simple name)
  | none =>
    let type ← self .type
    let name ← identifier
    word "in"
    return (type, .simple name)

/- The range variable of the clause is no mention. -/
def fromClause (self : Phrases) : Rule Node := do
  word "from"
  let (type, _) ← rangeVariable self
  return .group [type, ← self .expression]

def intoClause : Rule Node := do
  word "into"
  return .simple (← identifier)

def joinClause (self : Phrases) : Rule Node := do
  word "join"
  let (type, name) ← rangeVariable self
  let source ← self .expression
  word "on"
  let left ← self .expression
  word "equals"
  let right ← self .expression
  return .group [type, name, source, left, right, ← opt intoClause]

def queryClause (self : Phrases) : Rule Node :=
  oneOf
    [ fromClause self,
      (do
        word "let"
        let name ← identifier
        return .group [.simple name, ← assigned self]),
      (do word "where"; self .expression),
      joinClause self,
      (do
        word "orderby"
        grouped <| commas do
          let key ← self .expression
          let _ ← attempt (wordOf ["ascending", "descending"])
          return key),
      (do word "select"; self .expression),
      (do
        word "group"
        let value ← self .expression
        word "by"
        return .group [value, ← self .expression]),
      intoClause ]

def query (self : Phrases) : Rule Node := do
  let source ← fromClause self
  let clauses ← many (queryClause self)
  return .group (source :: clauses)

------------------------------------------------------------
-- Operands
------------------------------------------------------------

/- The token may follow the type arguments of an operand. -/
def followsArguments (t : Token) : Bool :=
  match t.kind with
  | .mark =>
    ["(", ")", "]", "\x7d", ":", ";", ",", ".", "?", "==", "!=",
      "|", "^", "&&", "||", "&", "[", ">", "\x7b", "=>"].contains t.text
  | .holeClose => true
  | .word => t.text == "is" || t.text == "as"
  | _ => false

/- A name in an expression, with or without type arguments. -/
def operandName (self : Phrases) : Rule Node := do
  let name ← identifier
  let arguments ← attempt do
    let arguments ← typeArguments self
    require ((← peek? 0).all followsArguments)
    return arguments
  match arguments with
  | some arguments => return .generic name arguments
  | none => return .simple name

/-
  The token may follow a cast.  After a type that could be an
  expression too, signs are operators.
-/
def followsCast (type : Node) (t : Token) : Bool :=
  let certain :=
    match type with
    | .group _ => true
    | _ => false
  if t.kind == .mark then
    if certain then startsOperand t
    else t.text == "(" || t.text == "~"
  else startsOperand t

def cast (self : Phrases) : Rule Node := do
  mark "("
  let type ← self .type
  mark ")"
  let negated :=
    (← nextIsMark "!") && (← peek? 1).any fun t =>
      t.kind == .word && startsOperand t || t.isMark "("
  require (negated || (← nextIs (followsCast type)))
  return .group [type, ← self .operand]

/-
  An expression or a row of them in parentheses.  A row may
  declare the variables that a tuple is taken apart into.
-/
def parenthesized (self : Phrases) : Rule Node := do
  mark "("
  let parts ← looseCommas do
    let name ← opt label
    let value ← oneOf [declaredInPassing self, self .expression]
    return .group [name, value]
  mark ")"
  return .group parts

/- An expression that starts with a word. -/
def wordOperand (self : Phrases) (arrows : Bool) : Rule Node := do
  let t ← tokenIf fun t => t.kind == .word
  let text := t.text
  let again : Rule Node := fun c => self .operand c
  let typed : Rule Node := do
    mark "("
    let type ← self .type
    mark ")"
    return .group [type]
  if text == "this" || text == "base" || text == "true" ||
      text == "false" || text == "null" then
    return Node.empty
  else if text == "default" then opt typed
  else if text == "typeof" || text == "sizeof" then typed
  else if text == "checked" || text == "unchecked" then arguments self
  else if text == "throw" || text == "ref" then again
  else if text == "static" then again
  else if predefinedTypes.contains text && isReserved text then
    if arrows && (← nextIsMark "(") &&
        (← afterBracketIs (·.isMark "=>")) then
      lambda self
    else return Node.empty
  else failure

/- A name that is a keyword in some places only. -/
def contextualOperand (self : Phrases) (arrows : Bool) : Rule Node := do
  let next ← peek? 1
  let here ← peek? 0
  let text := (here.map Token.text).getD ""
  if text == "await" && next.any startsOperand then
    word "await"
    self .operand
  else if text == "async" && arrows && next.any fun t =>
      t.isIdentifier || t.isMark "(" || t.isWord "delegate" ||
        t.isWord "static" then
    oneOf [(do word "async"; asyncBody), operandName self]
  else if text == "var" && next.any (·.isMark "(") then
    word "var"
    designations 8
  else failure
where
  asyncBody : Rule Node := do
    let _ ← optWord "static"
    oneOf
      [ anonymousMethod self, shortLambda self,
        (do
          require (← afterBracketIs (·.isMark "=>"))
          lambda self) ]

/- An operand without the marks in front of and behind it. -/
def primary (self : Phrases) (arrows : Bool) : Rule Node := do
  match ← peek? 0 with
  | none => failure
  | some t =>
    match t.kind with
    | .number =>
      ofKind .number
      return Node.empty
    | .text =>
      ofKind .text
      return Node.empty
    | .interpolationOpen => interpolated self
    | .mark =>
      if t.text == "(" then
        if arrows && (← afterBracketIs (·.isMark "=>")) then lambda self
        else oneOf [cast self, parenthesized self]
      else bracketed self
    | .word =>
      if isReserved t.text then
        oneOf
          [ creation self, stackCreation self, anonymousMethod self,
            wordOperand self arrows ]
      else
        let lambdas := if arrows then [shortLambda self] else []
        oneOf <|
          lambdas ++
            [ query self, contextualOperand self arrows,
              aliasedName self, operandName self ]
    | _ => failure

/- One arm of a switch expression. -/
def switchArm (self : Phrases) : Rule Node := do
  let pattern ← self .pattern
  let guard ← opt (do word "when"; self .guard)
  mark "=>"
  return .group [pattern, guard, ← self .expression]

/- What may stand behind an operand. -/
def suffix (self : Phrases) (left : Node) : Rule Node :=
  oneOf
    [ (do mark "."; return .member left (← operandName self)),
      (do mark "->"; return .member left (← operandName self)),
      (do return .group [left, ← arguments self]),
      (do return .group [left, ← bracketed self]),
      (do
        mark "?"
        mark "."
        return .group [left, ← operandName self]),
      (do
        let edge ← start
        mark "?"
        require ((← start) == edge + 1)
        return .group [left, ← bracketed self]),
      (do mark "!"; return .group [left]),
      (do mark "++"; return .group [left]),
      (do mark "--"; return .group [left]),
      (do
        word "switch"
        mark "\x7b"
        let arms ← looseCommas (switchArm self)
        mark "\x7d"
        return .group (left :: arms)),
      (do
        word "with"
        return .group [left, ← self .initializer]) ]

/- Apply suffixes as long as there are any. -/
def suffixes (self : Phrases) : Nat → Node → Rule Node
  | 0, left => return left
  | n + 1, left => do
    match ← attempt (suffix self left) with
    | some longer => suffixes self n longer
    | none => return left

def prefixMarks : List String :=
  ["+", "-", "!", "~", "++", "--", "&", "*", "^"]

def operandRule (self : Phrases) (arrows : Bool) : Rule Node := do
  if ← nextIs fun t => t.kind == .mark && prefixMarks.contains t.text then
    let _ ← tokenIf fun _ => true
    self (if arrows then .operand else .constant)
  else if ← nextIsMark ".." then
    mark ".."
    opt (self (if arrows then .operand else .constant))
  else
    let first ← primary self arrows
    suffixes self (← get).ahead.length first

------------------------------------------------------------
-- Operators
------------------------------------------------------------

def binaryMarks : List String :=
  ["+", "-", "*", "/", "%", "&", "|", "^", "&&", "||", "??", "==",
    "!=", "<", "<=", ">", ">=", "<<", "=", "+=", "-=", "*=", "/=",
    "%=", "&=", "|=", "^=", "<<=", "??="]

def binaryMark : Rule Unit := do
  let t ← tokenIf fun t => t.kind == .mark && binaryMarks.contains t.text
  if t.text == ">" then
    let _ ← many (tokenIf fun t => t.isMark ">" || t.isMark ">=")

/- One operator and what stands to its right. -/
def operation (self : Phrases) (arrows : Bool) : Rule Node :=
  let operand := self (if arrows then .operand else .constant)
  let whole := self (if arrows then .expression else .guard)
  oneOf
    [ (do word "is"; self .pattern),
      (do word "as"; self .operandType),
      (do
        mark "?"
        let yes ← self .expression
        mark ":"
        return .group [yes, ← whole]),
      (do
        mark "="
        self .initializer),
      (do binaryMark; operand),
      (do mark ".."; opt operand) ]

def expressionRule (self : Phrases) (arrows : Bool) : Rule Node := do
  let first ← self (if arrows then .operand else .constant)
  match ← many (operation self arrows) with
  | [] => return first
  | rest => return .group (first :: rest)

end Retarget.CSharp.Reader
