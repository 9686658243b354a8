import Retarget.Symbol.Table
import Retarget.Text.Offset

/-
  This file decides whether symbols and written names are
  the ones that a rule is about.

  Key definitions include:
    * `NameMatcher`
    * `NameMatcher.forType`
    * `NameMatcher.forMember`
    * `NameMatcher.matchesSymbol`
    * `startsSegment?`
    * `isNameSuffix?`
    * `isNameSuffix`
    * `attributeForms`
-/

namespace Retarget

------------------------------------------------------------
-- Symbols
------------------------------------------------------------

/-
  The name of a namespace, a type or a member.  The parts of
  the container's name are kept from the innermost out, so
  that they can be compared on the way up from a symbol.
-/
structure NameMatcher where
  reversedParts : List String
  member : Option String
  deriving Repr, DecidableEq

namespace NameMatcher

def reversedPartsOf (fullName : String) : List String :=
  (SymbolTable.nameParts fullName).reverse

def forType (fullName : String) : NameMatcher :=
  ⟨reversedPartsOf fullName, none⟩

def forMember (owner member : String) : NameMatcher :=
  ⟨reversedPartsOf owner, some member⟩

/- The last part of the name is the member. -/
def forMemberName (fullName : String) : NameMatcher :=
  match Text.splitLast '.' fullName with
  | some (owner, member) => forMember owner member
  | none => forMember "" fullName

def isMember (m : NameMatcher) : Bool :=
  m.member.isSome

/-
  The parts name a symbol and all its containers, up to the
  global namespace.
-/
def matchesParts : List String → Symbol → Bool
  | [], symbol => symbol.isGlobal
  | _ :: _, .global => false
  | part :: rest, .declared name _ container =>
    Text.equalsIgnoringAsciiCase name part && matchesParts rest container

def matchesType (m : NameMatcher) (symbol : Symbol) : Bool :=
  !symbol.isMember && matchesParts m.reversedParts symbol

def matchesSymbol (m : NameMatcher) (symbol : Symbol) : Bool :=
  match m.member with
  | none => m.matchesType symbol
  | some member =>
    symbol.isMember && Text.equalsIgnoringAsciiCase symbol.name member &&
      symbol.container?.any m.matchesType

end NameMatcher

------------------------------------------------------------
-- Written names
------------------------------------------------------------

/-
  A byte offset is at the start of a name or behind a dot.
  There is no answer past the end of the name.
-/
def startsSegment? (offset : Nat) (name : List Char) : Option Bool := do
  if offset == 0 then return true
  else
    let last ← Text.distance? 1 offset
    let byte ← Text.byteAt? last name
    return byte == 46

/-
  A written name is the end of a full name, and the full name
  starts there or has a dot there.  The end has as many bytes
  as the written name; where it would start inside of a
  character there is no such end.
-/
def isNameSuffix?
    (written fullName : String)
    (language : Language) : Option Bool := do
  let full := fullName.toList
  let size := Text.byteLength written.toList
  if written.isEmpty || size > Text.byteLength full then return false
  else
    let split ← Text.distance? size (Text.byteLength full)
    match Text.cutAt? split full with
    | none => return false
    | some (_, ending) =>
      if language.namesEqual (String.ofList ending) written then
        startsSegment? split full
      else return false

def isNameSuffix
    (written fullName : String)
    (language : Language) : Bool :=
  (isNameSuffix? written fullName language).getD false

/- The part of a dotted name behind its last dot. -/
def lastPart (fullName : String) : String :=
  match Text.splitLast '.' fullName with
  | some (_, name) => name
  | none => fullName

/- The part of a dotted name in front of its last dot. -/
def namespaceOf? (fullName : String) : Option String :=
  (Text.splitLast '.' fullName).map Prod.fst

/-
  An attribute may be written with or without the suffix of
  its type's name.
-/
def attributeForms (written : String) : List String :=
  match Text.stripEnd? "Attribute" written with
  | some stem =>
    if !stem.isEmpty && !Text.hasEnd "." stem then [written, stem]
    else [written, written ++ "Attribute"]
  | none => [written, written ++ "Attribute"]

end Retarget
