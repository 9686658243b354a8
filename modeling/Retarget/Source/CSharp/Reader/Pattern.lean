import Retarget.Source.CSharp.Reader.Expression

/-
  This file holds the rules for patterns.  A dotted name is
  a type when a variable or a list of parts follows it, and
  otherwise a constant.

  Key definitions include:
    * `CSharp.Reader.patternTerm`
    * `CSharp.Reader.patternRule`
-/

namespace Retarget.CSharp.Reader

open Rule

/- The name of a property, perhaps one reached through others. -/
def propertyLabel : Rule Node := do
  let first ← identifier
  let rest ← many (do mark "."; identifier)
  mark ":"
  return rest.foldl (fun left w => .member left (.simple w)) (.simple first)

def labelledPattern (self : Phrases) : Rule Node := do
  let name ← opt propertyLabel
  return .group [name, ← self .pattern]

/- Patterns between two marks. -/
def patternList
    (self : Phrases)
    (opening closing : String) : Rule Node := do
  mark opening
  let parts ← looseCommas (labelledPattern self)
  mark closing
  return .group parts

/- What makes a type in front of it a pattern of its own. -/
def patternParts (self : Phrases) : Rule Node := do
  let positions ← attempt (patternList self "(" ")")
  let properties ← attempt (patternList self "\x7b" "\x7d")
  require (positions.isSome || properties.isSome)
  let named ← opt designated
  return .group
    [positions.getD Node.empty, properties.getD Node.empty, named]

def typedPattern (self : Phrases) : Rule Node := do
  let type ← self .operandType
  match ← attempt (oneOf [designated, patternParts self]) with
  | some parts => return .group [type, parts]
  | none =>
    match type with
    | .group _ =>
      require (!(← nextIsMark "."))
      return type
    | _ => failure

def constantMarks : List String :=
  ["+", "-", "*", "/", "%", "<<", "|", "&", "^"]

def constantPattern (self : Phrases) : Rule Node := do
  let first ← self .constant
  let rest ← many do
    let _ ← tokenIf fun t => t.kind == .mark && constantMarks.contains t.text
    self .constant
  match rest with
  | [] => return first
  | _ => return .group (first :: rest)

def variablePattern : Rule Node := do
  word "var"
  oneOf [designated, designations 8]

def relationalPattern (self : Phrases) : Rule Node := do
  let _ ← tokenIf fun t =>
    t.kind == .mark && ["<", "<=", ">", ">="].contains t.text
  constantPattern self

def patternTerm (self : Phrases) : Nat → Rule Node
  | 0 => failure
  | n + 1 =>
    oneOf
      [ (do word "not"; patternTerm self n),
        (do
          word "_"
          require (!(← nextIsMark "."))
          return Node.empty),
        relationalPattern self,
        (do mark ".."; opt (self .pattern)),
        variablePattern,
        typedPattern self,
        patternParts self,
        (do
          let parts ← patternList self "[" "]"
          return .group [parts, ← opt designated]),
        constantPattern self ]

def patternRule (self : Phrases) : Rule Node := do
  let depth := (← get).ahead.length
  let first ← patternTerm self depth
  let rest ← many do
    wordOf ["and", "or"]
    patternTerm self depth
  match rest with
  | [] => return first
  | _ => return .group (first :: rest)

end Retarget.CSharp.Reader
