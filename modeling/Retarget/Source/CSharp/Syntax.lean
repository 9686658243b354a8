import Retarget.Source.Span

/-
  This file defines the concrete syntax trees of C#.  The
  library that parses C# is not part of this one, so what it
  makes of a text is a parameter.

  Key definitions include:
    * `CSharp.SyntaxNode`
    * `CSharp.Grammar`
-/

namespace Retarget.CSharp

/-
  A node of a tree, with the field of its parent that it
  stands in.  Marks and keywords are nodes too, they only
  have no name in the grammar.  A node that the grammar asks
  for and the text does not have takes up no text.
-/
structure SyntaxNode where
  kind : String
  field : Option String
  isNamed : Bool
  span : Span
  children : List SyntaxNode
  deriving Repr, Inhabited

/-
  A grammar makes a tree of every text, also of one that is
  not correct C#.
-/
class Grammar where
  parse : String → SyntaxNode

end Retarget.CSharp
