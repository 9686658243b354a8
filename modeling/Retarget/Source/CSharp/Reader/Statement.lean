import Retarget.Source.CSharp.Reader.Expression

/-
  This file holds the rules for statements.

  Key definitions include:
    * `CSharp.Reader.localVariables`
    * `CSharp.Reader.localFunction`
    * `CSharp.Reader.statementRule`
    * `CSharp.Reader.blockRule`
-/

namespace Retarget.CSharp.Reader

open Rule

------------------------------------------------------------
-- Local declarations
------------------------------------------------------------

/- A variable that is no mention, with its value. -/
def declarator (self : Phrases) : Rule Node := do
  let _ ← identifier
  let size ← opt (bracketed self)
  return .group [size, ← opt (assigned self)]

def localVariables (self : Phrases) : Rule Node := do
  let _ ← many (wordOf ["const", "static", "scoped"])
  require (!(← nextIsWord "await"))
  let type ← self .type
  let declared ← commas (declarator self)
  require (← nextIs fun t => t.isMark ";" || t.isMark ")")
  return .group (type :: declared)

/- Type parameters are no mentions, their attributes hold some. -/
def typeParameters (self : Phrases) : Rule Node := do
  mark "<"
  let attributes ← commas do
    let attributes ← opt (self .attributes)
    let _ ← attempt (wordOf ["in", "out"])
    let _ ← identifier
    return attributes
  mark ">"
  return .group attributes

def constraint (self : Phrases) : Rule Node :=
  oneOf
    [ (do
        wordOf ["class", "struct", "notnull", "unmanaged", "default"]
        let _ ← optMark "?"
        return Node.empty),
      (do word "new"; mark "("; mark ")"; return Node.empty),
      (do
        word "allows"
        word "ref"
        word "struct"
        return Node.empty),
      self .type ]

def constraints (self : Phrases) : Rule Node :=
  grouped <| many do
    word "where"
    let name ← identifier
    mark ":"
    return .group (.simple name :: (← commas (constraint self)))

/- The body of a function: a block, an expression or none. -/
def body (self : Phrases) : Rule Node :=
  oneOf
    [ self .block,
      (do
        mark "=>"
        let value ← self .expression
        mark ";"
        return value),
      (do mark ";"; return Node.empty) ]

def localFunction (self : Phrases) : Rule Node := do
  let attributes ← opt (self .attributes)
  let _ ← many do
    wordOf ["static", "async", "unsafe", "extern"]
    require (← nextIs fun t => t.kind == .word || t.isMark "(")
  require (!(← nextIsWord "await") && !(← nextIsWord "new"))
  let type ← self .type
  let _ ← identifier
  let typeParameters ← opt (typeParameters self)
  let parameters ← self .parameters
  let constraints ← constraints self
  return .group
    [attributes, type, typeParameters, parameters, constraints, ← body self]

------------------------------------------------------------
-- Statements
------------------------------------------------------------

def inParentheses (rule : Rule Node) : Rule Node := do
  mark "("
  let node ← rule
  mark ")"
  return node

/- Expressions between commas, perhaps none. -/
def expressions (self : Phrases) : Rule Node :=
  grouped (looseCommas (self .expression))

def ifStatement (self : Phrases) : Rule Node := do
  word "if"
  let condition ← inParentheses (self .expression)
  let yes ← self .statement
  let no ← opt (do word "else"; self .statement)
  return .group [condition, yes, no]

def forStatement (self : Phrases) : Rule Node := do
  word "for"
  mark "("
  let first ← oneOf [localVariables self, expressions self]
  mark ";"
  let condition ← opt (self .expression)
  mark ";"
  let next ← expressions self
  mark ")"
  return .group [first, condition, next, ← self .statement]

/- The variables of the loop are mentions. -/
def foreachStatement (self : Phrases) : Rule Node := do
  let _ ← optWord "await"
  word "foreach"
  mark "("
  let element ← oneOf
    [ (do
        let type ← self .type
        let name ← oneOf [designated, designations 8]
        require (← nextIsWord "in")
        return .group [type, name]),
      self .expression ]
  word "in"
  let source ← self .expression
  mark ")"
  return .group [element, source, ← self .statement]

def catchClause (self : Phrases) : Rule Node := do
  word "catch"
  let type ← opt <| inParentheses do
    let type ← self .type
    let _ ← attempt identifier
    return type
  let filter ← opt do
    word "when"
    inParentheses (self .expression)
  return .group [type, filter, ← self .block]

def tryStatement (self : Phrases) : Rule Node := do
  word "try"
  let first ← self .block
  let catches ← many (catchClause self)
  let last ← opt (do word "finally"; self .block)
  return .group (first :: catches ++ [last])

def switchLabel (self : Phrases) : Rule Node :=
  oneOf
    [ (do
        word "case"
        let pattern ← self .pattern
        let guard ← opt (do word "when"; self .expression)
        mark ":"
        return .group [pattern, guard]),
      (do word "default"; mark ":"; return Node.empty) ]

def switchStatement (self : Phrases) : Rule Node := do
  word "switch"
  let value ← oneOf
    [inParentheses (self .expression), arguments self]
  mark "\x7b"
  let parts ← many (oneOf [switchLabel self, self .statement])
  mark "\x7d"
  return .group (value :: parts)

/- The resource of a statement that releases it. -/
def resource (self : Phrases) : Rule Node :=
  inParentheses (oneOf [localVariables self, self .expression])

def usingStatement (self : Phrases) : Rule Node := do
  let _ ← optWord "await"
  word "using"
  oneOf
    [ (do
        let resource ← resource self
        return .group [resource, ← self .statement]),
      (do
        let declared ← localVariables self
        mark ";"
        return declared) ]

/- A keyword with an expression that may be missing. -/
def valueStatement (self : Phrases) (rule : Rule Unit) : Rule Node := do
  rule
  let value ← opt (self .expression)
  mark ";"
  return value

def gotoStatement (self : Phrases) : Rule Node := do
  word "goto"
  let target ← oneOf
    [ (do word "case"; self .expression),
      (do word "default"; return Node.empty),
      (do return .simple (← identifier)) ]
  mark ";"
  return target

/- The label is a mention. -/
def labelled (self : Phrases) : Rule Node := do
  let name ← label
  return .group [name, ← self .statement]

def keywordStatement (self : Phrases) (text : String) : Rule Node :=
  match text with
  | "if" => ifStatement self
  | "for" => forStatement self
  | "foreach" => foreachStatement self
  | "while" => do
    word "while"
    let condition ← inParentheses (self .expression)
    return .group [condition, ← self .statement]
  | "do" => do
    word "do"
    let body ← self .statement
    word "while"
    let condition ← inParentheses (self .expression)
    mark ";"
    return .group [body, condition]
  | "switch" => switchStatement self
  | "try" => tryStatement self
  | "using" => usingStatement self
  | "lock" => do
    word "lock"
    let value ← inParentheses (self .expression)
    return .group [value, ← self .statement]
  | "fixed" => do
    word "fixed"
    let value ← resource self
    return .group [value, ← self .statement]
  | "unsafe" => do
    word "unsafe"
    self .block
  | "checked" => do
    word "checked"
    self .block
  | "unchecked" => do
    word "unchecked"
    self .block
  | "return" => valueStatement self (word "return")
  | "throw" => valueStatement self (word "throw")
  | "break" => do
    word "break"
    mark ";"
    return Node.empty
  | "continue" => do
    word "continue"
    mark ";"
    return Node.empty
  | "goto" => gotoStatement self
  | "await" => oneOf [foreachStatement self, usingStatement self]
  | "yield" =>
    oneOf
      [ valueStatement self (do word "yield"; word "return"),
        (do word "yield"; word "break"; mark ";"; return Node.empty) ]
  | _ => failure

def statementRule (self : Phrases) : Rule Node := do
  match ← peek? 0 with
  | none => failure
  | some t =>
    if t.isMark "\x7b" then self .block
    else if t.isMark ";" then
      mark ";"
      return Node.empty
    else
      let keyword :=
        if t.kind == .word then [keywordStatement self t.text] else []
      oneOf <|
        keyword ++
          [ labelled self,
            (do
              let declared ← localVariables self
              mark ";"
              return declared),
            localFunction self,
            (do
              let value ← self .expression
              mark ";"
              return value) ]

/- Pass over a token that no rule takes. -/
def strayToken : Rule Node := do
  let t ← tokenIf fun t => !t.isMark "\x7d"
  if t.isIdentifier then return .simple ⟨t.text, t.span⟩
  else return Node.empty

def blockRule (self : Phrases) : Rule Node := do
  mark "\x7b"
  let parts ← many (oneOf [self .statement, strayToken])
  mark "\x7d"
  return .group parts

end Retarget.CSharp.Reader
