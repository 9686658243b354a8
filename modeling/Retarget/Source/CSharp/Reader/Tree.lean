import Retarget.Source.CSharp.Reader.Pattern
import Retarget.Source.CSharp.Reader.Declaration

/-
  This file puts the rules of C# together and reads a whole
  file with them.  The program has no other grammar of C# at
  hand and runs with this one.

  Key definitions include:
    * `CSharp.Reader.phrases`
    * `CSharp.Reader.read`
    * `CSharp.Reader.syntaxTree`
-/

namespace Retarget.CSharp.Reader

open Rule

/- The rule of a phrase, over the rules of the phrases in it. -/
def ruleOf (self : Phrases) : Phrases
  | .type => typeRule self false
  | .operandType => typeRule self true
  | .expression => expressionRule self true
  | .guard => expressionRule self false
  | .operand => operandRule self true
  | .constant => operandRule self false
  | .initializer => initializerRule self
  | .pattern => patternRule self
  | .statement => statementRule self
  | .block => blockRule self
  | .parameters => parametersRule self
  | .attributes => attributesRule self
  | .member => memberRule self
  | .unit => unitRule self

/- The rules for text whose phrases nest up to some depth. -/
def phrases : Nat → Phrases
  | 0 => fun _ => failure
  | n + 1 => ruleOf (phrases n)

/- A token that stands outside everything. -/
def anyToken : Rule Node := do
  let t ← tokenIf fun _ => true
  if t.isIdentifier then return .simple ⟨t.text, t.span⟩
  else return Node.empty

/-
  Read all tokens of a file.  Every phrase in a phrase takes
  a token or is one of a few steps away from one that does.
-/
def read (tokens : List Token) : List Node :=
  let rule := phrases (8 * tokens.length + 16) .unit
  match (many (oneOf [rule, anyToken])).run ⟨tokens, 0⟩ with
  | some (nodes, _) => nodes
  | none => []

/-
  The tree of a text.  The words of preprocessor lines stand
  between the tokens of the other lines.
-/
def syntaxTree (text : String) : SyntaxNode :=
  let tokens := tokenize text
  let (words, tokens) := tokens.partition fun t => t.kind == .directiveWord
  let nodes := Node.syntaxNodes (read tokens)
  branch "compilation_unit" <|
    words.foldl (fun nodes word => insertAmong (leaf "identifier" word.span) nodes)
      nodes

end Retarget.CSharp.Reader

namespace Retarget.CSharp

instance : Grammar :=
  ⟨Reader.syntaxTree⟩

end Retarget.CSharp
