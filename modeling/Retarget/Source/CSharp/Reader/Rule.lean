import Retarget.Source.CSharp.Reader.Token
import Retarget.Source.CSharp.Reader.Node

/-
  This file defines grammar rules over tokens.  A rule reads
  a part of the tokens or refuses, and a refused rule leaves
  the tokens for another one.  The rules of the grammar call
  each other through a table of phrases, so that each rule
  is a definition of its own.

  Key definitions include:
    * `CSharp.Reader.Cursor`
    * `CSharp.Reader.Rule`
    * `CSharp.Reader.Phrase`
    * `CSharp.Reader.Rule.many`
    * `CSharp.Reader.Rule.identifier`
-/

namespace Retarget.CSharp.Reader

------------------------------------------------------------
-- Rules
------------------------------------------------------------

/- The tokens ahead and the end of the last token taken. -/
structure Cursor where
  ahead : List Token
  stop : Nat
  deriving Repr

abbrev Rule := StateT Cursor Option

/- The kinds of text that the rules are about. -/
inductive Phrase where
  | type
  /- A type where a question mark may belong to what follows. -/
  | operandType
  | expression
  /- An expression in front of an arrow that is not its own. -/
  | guard
  /- An expression without operators between its operands. -/
  | operand
  /- An operand in front of an arrow that is not its own. -/
  | constant
  | initializer
  | pattern
  | statement
  | block
  | parameters
  | attributes
  | member
  | unit
  deriving Repr, DecidableEq

/- The rules of all phrases. -/
abbrev Phrases := Phrase → Rule Node

------------------------------------------------------------
-- Words
------------------------------------------------------------

/- The words that are never names. -/
def reservedWords : List String :=
  ["abstract", "as", "base", "bool", "break", "byte", "case",
    "catch", "char", "checked", "class", "const", "continue",
    "decimal", "default", "delegate", "do", "double", "else",
    "enum", "event", "explicit", "extern", "false", "finally",
    "fixed", "float", "for", "foreach", "goto", "if", "implicit",
    "in", "int", "interface", "internal", "is", "lock", "long",
    "namespace", "new", "null", "object", "operator", "out",
    "override", "params", "private", "protected", "public",
    "readonly", "ref", "return", "sbyte", "sealed", "short",
    "sizeof", "stackalloc", "static", "string", "struct",
    "switch", "this", "throw", "true", "try", "typeof", "uint",
    "ulong", "unchecked", "unsafe", "ushort", "using", "virtual",
    "void", "volatile", "while"]

def predefinedTypes : List String :=
  ["bool", "byte", "char", "decimal", "double", "float", "int",
    "long", "nint", "nuint", "object", "sbyte", "short", "string",
    "uint", "ulong", "ushort", "void"]

/- The words that start a clause of a query. -/
def queryWords : List String :=
  ["ascending", "by", "descending", "equals", "from", "group",
    "into", "join", "let", "on", "orderby", "select", "where"]

def isReserved (text : String) : Bool :=
  reservedWords.contains text

def Token.isMark (t : Token) (text : String) : Bool :=
  t.kind == .mark && t.text == text

def Token.isWord (t : Token) (text : String) : Bool :=
  t.kind == .word && t.text == text

def Token.isIdentifier (t : Token) : Bool :=
  t.kind == .word && !isReserved t.text

namespace Rule

------------------------------------------------------------
-- Single tokens
------------------------------------------------------------

/- Take the next token if it passes a test. -/
def tokenIf (test : Token → Bool) : Rule Token := fun c =>
  match c.ahead with
  | t :: r => if test t then some (t, ⟨r, t.span.stop⟩) else none
  | [] => none

def mark (text : String) : Rule Unit := do
  let _ ← tokenIf (·.isMark text)

def word (text : String) : Rule Unit := do
  let _ ← tokenIf (·.isWord text)

def wordOf (texts : List String) : Rule Unit := do
  let _ ← tokenIf fun t => t.kind == .word && texts.contains t.text

def ofKind (kind : Token.Kind) : Rule Unit := do
  let _ ← tokenIf fun t => t.kind == kind

def identifier : Rule Word := do
  let t ← tokenIf Token.isIdentifier
  return ⟨t.text, t.span⟩

/- Look at tokens ahead without taking them. -/
def peek? (i : Nat) : Rule (Option Token) := fun c =>
  some (c.ahead[i]?, c)

def nextIs (test : Token → Bool) : Rule Bool := do
  return (← peek? 0).any test

def nextIsMark (text : String) : Rule Bool :=
  nextIs (·.isMark text)

def nextIsWord (text : String) : Rule Bool :=
  nextIs (·.isWord text)

/- Where the next token starts. -/
def start : Rule Nat := do
  match ← peek? 0 with
  | some t => return t.span.start
  | none => return (← get).stop

def stop : Rule Nat := do
  return (← get).stop

def require (b : Bool) : Rule Unit :=
  if b then pure () else failure

------------------------------------------------------------
-- Combined rules
------------------------------------------------------------

/- Apply a rule if it does not refuse. -/
def attempt {α : Type} (rule : Rule α) : Rule (Option α) := fun c =>
  match rule c with
  | some (a, c') => some (some a, c')
  | none => some (none, c)

/- A rule would not refuse here. -/
def ahead {α : Type} (rule : Rule α) : Rule Bool := fun c =>
  some ((rule c).isSome, c)

/- An optional part; without it there is nothing to report. -/
def opt (rule : Rule Node) : Rule Node := do
  return (← attempt rule).getD Node.empty

def optMark (text : String) : Rule Bool := do
  return (← attempt (mark text)).isSome

def optWord (text : String) : Rule Bool := do
  return (← attempt (word text)).isSome

/- Apply a rule until it refuses or takes nothing. -/
def manyUpTo {α : Type} (rule : Rule α) : Nat → Rule (List α)
  | 0 => pure []
  | n + 1 => fun c =>
    match rule c with
    | none => some ([], c)
    | some (a, c') =>
      if c'.ahead.length < c.ahead.length then
        match manyUpTo rule n c' with
        | some (rest, c'') => some (a :: rest, c'')
        | none => some ([a], c')
      else some ([], c)

def many {α : Type} (rule : Rule α) : Rule (List α) := fun c =>
  manyUpTo rule c.ahead.length c

/- A rule's parts between commas, at least one. -/
def commas {α : Type} (rule : Rule α) : Rule (List α) := do
  let first ← rule
  let rest ← many (do mark ","; rule)
  return first :: rest

/- Parts between commas, perhaps none, perhaps a last comma. -/
def looseCommas (rule : Rule Node) : Rule (List Node) := do
  match ← attempt rule with
  | none =>
    let _ ← optMark ","
    return []
  | some first =>
    let rest ← many (do mark ","; rule)
    let _ ← optMark ","
    return first :: rest

def grouped (rule : Rule (List Node)) : Rule Node := do
  return .group (← rule)

/- Take the first rule that does not refuse. -/
def oneOf : List (Rule Node) → Rule Node
  | [] => failure
  | rule :: rest => fun c =>
    match rule c with
    | some result => some result
    | none => oneOf rest c

/-
  The token behind the bracket that closes the one that
  comes next.
-/
def afterBracket : Nat → List Token → Option Token
  | _, [] => none
  | depth, t :: r =>
    if t.isMark "(" || t.isMark "[" || t.isMark "\x7b" then
      afterBracket (depth + 1) r
    else if t.isMark ")" || t.isMark "]" || t.isMark "\x7d" then
      if depth ≤ 1 then r.head? else afterBracket (depth - 1) r
    else afterBracket depth r

def afterBracketIs (test : Token → Bool) : Rule Bool := fun c =>
  some ((afterBracket 0 c.ahead).any test, c)

end Rule

end Retarget.CSharp.Reader
