import Retarget.Text.Basic

/-
  This file cuts an XML text into tags, texts and asides.
  A text with a fault in one of them has no tokens at all.

  Key definitions include:
    * `Xml.Name`
    * `Xml.Token`
    * `Xml.attributeValue?`
    * `Xml.textValue?`
    * `Xml.Token.scan?`
-/

namespace Retarget.Xml

------------------------------------------------------------
-- Characters
------------------------------------------------------------

def isXmlBlank (c : Char) : Bool :=
  c == ' ' || c == '\t' || c == '\n' || c == '\r'

/- The characters that may stand in an XML text at all. -/
def isXmlChar (c : Char) : Bool :=
  if c.toNat < 0x20 then isXmlBlank c
  else c.toNat != 0xFFFE && c.toNat != 0xFFFF

/- The characters beyond ASCII that may start a name. -/
def nameStartRanges : List (Nat × Nat) :=
  [(0xC0, 0xD6), (0xD8, 0xF6), (0xF8, 0x2FF), (0x370, 0x37D),
   (0x37F, 0x1FFF), (0x200C, 0x200D), (0x2070, 0x218F),
   (0x2C00, 0x2FEF), (0x3001, 0xD7FF), (0xF900, 0xFDCF),
   (0xFDF0, 0xFFFD), (0x10000, 0xEFFFF)]

/- The further characters beyond ASCII that a name may hold. -/
def nameExtraRanges : List (Nat × Nat) :=
  [(0xB7, 0xB7), (0x300, 0x36F), (0x203F, 0x2040)]

def inAny (ranges : List (Nat × Nat)) (c : Char) : Bool :=
  ranges.any fun (lo, hi) => lo ≤ c.toNat && c.toNat ≤ hi

def isNameStart (c : Char) : Bool :=
  if c.toNat ≤ 0x80 then
    Text.isAsciiLetter c || c == ':' || c == '_'
  else inAny nameStartRanges c

def isNameChar (c : Char) : Bool :=
  if c.toNat ≤ 0x80 then
    Text.isAsciiAlphanumeric c || c == ':' || c == '_' ||
      c == '-' || c == '.'
  else inAny nameStartRanges c || inAny nameExtraRanges c

------------------------------------------------------------
-- Names
------------------------------------------------------------

/- A name, with the prefix that stood before a colon. -/
structure Name where
  qualifier : String
  simple : String
  deriving Repr, DecidableEq, Inhabited

/- Read a name without regard to colons. -/
def plainName? (cs : List Char) : Option (String × List Char) :=
  match cs with
  | c :: r =>
    if isNameStart c then
      some (String.ofList (c :: r.takeWhile isNameChar),
        r.dropWhile isNameChar)
    else none
  | [] => none

/- Both parts of a name start like names, and one part is there. -/
def Name.ofParts? (qualifier simple : List Char) : Option Name :=
  if qualifier.head?.all isNameStart && simple.head?.any isNameStart then
    some ⟨String.ofList qualifier, String.ofList simple⟩
  else none

/- Read a name with at most one colon in it. -/
def name? (cs : List Char) : Option (Name × List Char) := do
  let whole := cs.takeWhile isNameChar
  let rest := cs.dropWhile isNameChar
  let name ←
    match whole.splitOn ':' with
    | [simple] => Name.ofParts? [] simple
    | [qualifier, simple] => Name.ofParts? qualifier simple
    | _ => none
  return (name, rest)

------------------------------------------------------------
-- References
------------------------------------------------------------

/- A character of a text, and whether a reference stood for it. -/
structure Piece where
  char : Char
  isReference : Bool
  deriving Repr, DecidableEq

def namedReference? : String → Option Char
  | "quot" => some '"'
  | "amp" => some '&'
  | "apos" => some (Char.ofNat 0x27)
  | "lt" => some '<'
  | "gt" => some '>'
  | _ => none

def hexDigit? (c : Char) : Option Nat :=
  if Text.isAsciiDigit c then some (c.toNat - '0'.toNat)
  else if 'a' ≤ c && c ≤ 'f' then some (c.toNat - 'a'.toNat + 10)
  else if 'A' ≤ c && c ≤ 'F' then some (c.toNat - 'A'.toNat + 10)
  else none

def numberOf (base : Nat) (digits : List Char) : Nat :=
  digits.foldl (fun n c => base * n + (hexDigit? c).getD 0) 0

/-
  The character with a number; a number without a character
  has the replacement character.
-/
def charOfDigits? (base : Nat) (digits : List Char) : Option Char :=
  let n := numberOf base digits
  if digits.isEmpty || n ≥ UInt32.size then none
  else
    let c := if n.isValidChar then Char.ofNat n else Char.ofNat 0xFFFD
    if isXmlChar c then some c else none

/- The character behind an ampersand, and what follows it. -/
def reference? (cs : List Char) : Option (Char × List Char) := do
  let (c, rest) ←
    match cs with
    | '#' :: 'x' :: r =>
      (charOfDigits? 16 (r.takeWhile fun c => (hexDigit? c).isSome)).map
        fun c => (c, r.dropWhile fun c => (hexDigit? c).isSome)
    | '#' :: r =>
      (charOfDigits? 10 (r.takeWhile Text.isAsciiDigit)).map
        fun c => (c, r.dropWhile Text.isAsciiDigit)
    | cs => do
      let (name, rest) ← plainName? cs
      pure (← namedReference? name, rest)
  match rest with
  | ';' :: rest => some (c, rest)
  | _ => none

/- Replace references; the number bounds the length. -/
def pieces? : Nat → List Char → Option (List Piece)
  | _, [] => some []
  | 0, _ :: _ => none
  | n + 1, '&' :: r => do
    let (c, rest) ← reference? r
    return ⟨c, true⟩ :: (← pieces? n rest)
  | n + 1, c :: r => do
    return ⟨c, false⟩ :: (← pieces? n r)

------------------------------------------------------------
-- Values
------------------------------------------------------------

/-
  Line ends and tabs that were written in an attribute
  become blanks; a line end of two characters is one blank.
-/
def blankLineEnds : List Piece → List Char
  | ⟨'\r', false⟩ :: ⟨'\n', false⟩ :: r => blankLineEnds (⟨'\n', false⟩ :: r)
  | ⟨c, false⟩ :: r =>
    (if isXmlBlank c then ' ' else c) :: blankLineEnds r
  | ⟨c, true⟩ :: r => c :: blankLineEnds r
  | [] => []
termination_by ps => ps.length

/-
  Line ends in a text become newlines.  A carriage return
  that touches a reference stays.
-/
def newlineEnds (afterReference : Bool) : List Piece → List Char
  | ⟨'\r', false⟩ :: ⟨'\n', false⟩ :: r => '\n' :: newlineEnds false r
  | [⟨'\r', false⟩] => if afterReference then ['\r'] else ['\n']
  | ⟨'\r', false⟩ :: ⟨c, false⟩ :: r =>
    '\n' :: newlineEnds false (⟨c, false⟩ :: r)
  | ⟨c, isReference⟩ :: r => c :: newlineEnds isReference r
  | [] => []
termination_by ps => ps.length

def attributeValue? (raw : List Char) : Option String :=
  (pieces? raw.length raw).map fun ps => String.ofList (blankLineEnds ps)

def textValue? (raw : List Char) : Option String :=
  (pieces? raw.length raw).map fun ps =>
    String.ofList (newlineEnds false ps)

/- The value of a text in which nothing is a reference. -/
def literalValue (raw : List Char) : String :=
  String.ofList (newlineEnds false (raw.map fun c => ⟨c, false⟩))

------------------------------------------------------------
-- Tokens
------------------------------------------------------------

inductive Token where
  | opening
      (name : Name)
      (attributes : List (Name × String))
      (isClosed : Bool)
  | closing (name : Name)
  /- A text whose references are not yet replaced. -/
  | text (raw : List Char)
  | literal (raw : List Char)
  /- A comment or an instruction for a program. -/
  | aside
  deriving Repr, DecidableEq

namespace Token

/- The characters up to a mark, which must be there. -/
def upTo? (mark : String) (cs : List Char) : Option (List Char × List Char) := do
  let (inner, rest) ← Text.findSub mark.toList cs
  if inner.all isXmlChar then some (inner, rest) else none

def skipBlanks (cs : List Char) : List Char :=
  cs.dropWhile isXmlBlank

/- The equals sign and the quoted value of an attribute. -/
def value? (cs : List Char) : Option (List Char × List Char) :=
  match skipBlanks cs with
  | '=' :: r =>
    match skipBlanks r with
    | q :: r =>
      if q == '"' || q == Char.ofNat 0x27 then
        let raw := r.takeWhile fun c => c != q && c != '<'
        match r.drop raw.length with
        | c :: rest =>
          if c == q && raw.all isXmlChar then some (raw, rest) else none
        | [] => none
      else none
    | [] => none
  | _ => none

/- The attributes of a tag up to its end, and whether it is closed. -/
def attributes? :
    Nat → List Char → Option (List (Name × String) × Bool × List Char)
  | 0, _ => none
  | n + 1, cs =>
    match skipBlanks cs with
    | '>' :: r => some ([], false, r)
    | '/' :: '>' :: r => some ([], true, r)
    | next => do
      if !cs.head?.any isXmlBlank then none
      let (name, rest) ← name? next
      let (raw, rest) ← value? rest
      let value ← attributeValue? raw
      let (others, isClosed, rest) ← attributes? n rest
      return ((name, value) :: others, isClosed, rest)

def opening? (cs : List Char) : Option (Token × List Char) := do
  let (name, rest) ← name? cs
  let (attributes, isClosed, rest) ← attributes? (rest.length + 1) rest
  return (.opening name attributes isClosed, rest)

def closing? (cs : List Char) : Option (Token × List Char) := do
  let (name, rest) ← name? cs
  match skipBlanks rest with
  | '>' :: rest => return (.closing name, rest)
  | _ => none

/- Two hyphens may not stand inside a comment, nor one at its end. -/
def comment? (cs : List Char) : Option (Token × List Char) := do
  let (inner, rest) ← upTo? "-->" cs
  if (Text.findSub ['-', '-'] inner).isSome || inner.getLast? == some '-' then
    none
  return (.aside, rest)

def instruction? (cs : List Char) : Option (Token × List Char) := do
  if ("xml ".toList.isPrefixOf? cs).isSome then none
  let (_, rest) ← plainName? cs
  let (_, rest) ← upTo? "?>" (skipBlanks rest)
  return (.aside, rest)

def literal? (cs : List Char) : Option (Token × List Char) := do
  let (inner, rest) ← upTo? "]]>" cs
  return (.literal inner, rest)

def text? (cs : List Char) : Option (Token × List Char) :=
  let raw := cs.takeWhile (· != '<')
  if raw.all isXmlChar && (Text.findSub "]]>".toList raw).isNone then
    some (.text raw, cs.drop raw.length)
  else none

/- The token at the start of a text that is not empty. -/
def next? (cs : List Char) : Option (Token × List Char) :=
  match cs with
  | '<' :: '!' :: '-' :: '-' :: r => comment? r
  | '<' :: '!' :: '[' :: 'C' :: 'D' :: 'A' :: 'T' :: 'A' :: '[' :: r =>
    literal? r
  | '<' :: '?' :: r => instruction? r
  | '<' :: '/' :: r => closing? r
  | '<' :: r => opening? r
  | cs => text? cs

/- All tokens; the number bounds how many there are. -/
def all? : Nat → List Char → Option (List Token)
  | _, [] => some []
  | 0, _ :: _ => none
  | n + 1, c :: r => do
    let (token, rest) ← next? (c :: r)
    return token :: (← all? n rest)

------------------------------------------------------------
-- Whole texts
------------------------------------------------------------

/- Blanks stand before an attribute, unless the end comes. -/
def declarationGap? (cs : List Char) : Option (List Char) :=
  match cs with
  | [] => some []
  | c :: _ =>
    if isXmlBlank c then some (skipBlanks cs)
    else if ("?>".toList.isPrefixOf? cs).isSome then some cs
    else none

/- Skip an attribute of the declaration, whatever its value. -/
def declared? (cs : List Char) : Option (List Char) := do
  let (_, rest) ← name? cs
  let (_, rest) ← value? rest
  return rest

def optional? (word : String) (cs : List Char) : Option (List Char) :=
  if (word.toList.isPrefixOf? cs).isSome then
    declared? cs >>= declarationGap?
  else some cs

/- Skip the declaration, of which only the start has been read. -/
def declaration? (cs : List Char) : Option (List Char) := do
  let cs ← declarationGap? cs
  if ("version".toList.isPrefixOf? cs).isNone then none
  let cs ← declared? cs >>= declarationGap?
  let cs ← optional? "encoding" cs
  let cs ←
    if ("standalone".toList.isPrefixOf? cs).isSome then declared? cs
    else some cs
  "?>".toList.isPrefixOf? (skipBlanks cs)

/- The text behind a byte order mark and a declaration. -/
def body? (cs : List Char) : Option (List Char) :=
  let cs :=
    match cs with
    | c :: r => if c.toNat == 0xFEFF then r else c :: r
    | [] => []
  if ("<?xml ".toList.isPrefixOf? cs).isSome then
    declaration? (cs.drop 5)
  else some cs

def scan? (text : String) : Option (List Token) := do
  let cs ← body? text.toList
  all? cs.length cs

end Token

end Retarget.Xml
