import Retarget.Path

/-
  This file defines the two source languages and what
  differs between them outside their grammars.

  Key definitions include:
    * `Language`
    * `Language.ofPath?`
    * `Language.namesEqual`
    * `Language.importDirective`

  Key statements include:
    * `Language.namesEqual_refl`
    * `Language.namesEqual_comm`
-/

namespace Retarget

inductive Language where
  | cSharp
  | visualBasic
  deriving Repr, DecidableEq, Inhabited

namespace Language

/- The language of a file, known by its extension. -/
def ofPath? (p : Path) : Option Language :=
  match p.lowerExtension? with
  | some "cs" => some .cSharp
  | some "vb" => some .visualBasic
  | _ => none

/-
  Names in C# count letter case, names in Visual Basic do
  not count the case of ASCII letters.
-/
def namesEqual (language : Language) (a b : String) : Bool :=
  match language with
  | .cSharp => a == b
  | .visualBasic => Text.equalsIgnoringAsciiCase a b

def title : Language → String
  | .cSharp => "C#"
  | .visualBasic => "Visual Basic"

/- What starts a comment that runs to the end of its line. -/
def lineComment : Language → String
  | .cSharp => "//"
  | .visualBasic => "'"

/- The directive that brings a namespace into scope. -/
def importDirective (language : Language) (target : String) : String :=
  match language with
  | .cSharp => "using " ++ target ++ ";"
  | .visualBasic => "Imports " ++ target

theorem namesEqual_refl
    (language : Language)
    (a : String) :
    language.namesEqual a a = true := by
  cases language
  · simp [namesEqual]
  · exact Text.equalsIgnoringAsciiCase_refl a

theorem namesEqual_comm
    (language : Language)
    (a b : String) :
    language.namesEqual a b = language.namesEqual b a := by
  cases language
  · exact Bool.beq_comm
  · exact Text.equalsIgnoringAsciiCase_comm a b

end Language

end Retarget
