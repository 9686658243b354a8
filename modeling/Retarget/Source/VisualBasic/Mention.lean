import Retarget.Text.Case
import Retarget.Text.Offset
import Retarget.Source.Name

/-
  This file finds the names that a blanked Visual Basic text
  mentions.  The text is cut into words; a run of words with
  single dots between them is one dotted name.

  Key definitions include:
    * `VisualBasic.Token`
    * `VisualBasic.tokens`
    * `VisualBasic.Chain`
    * `VisualBasic.mentions`
-/

namespace Retarget.VisualBasic

open Text

------------------------------------------------------------
-- Words
------------------------------------------------------------

def keywords : List String :=
  ["addhandler", "addressof", "and", "andalso", "as", "boolean",
    "byref", "byte", "byval", "call", "case", "catch", "cbool",
    "cchar", "cdate", "cdbl", "cint", "class", "clng", "cobj",
    "const", "continue", "cstr", "ctype", "date", "decimal",
    "declare", "default", "delegate", "dim", "directcast", "do",
    "double", "each", "else", "elseif", "end", "enum", "erase",
    "error", "event", "exit", "false", "finally", "for", "friend",
    "function", "get", "gettype", "global", "handles", "if",
    "implements", "imports", "in", "inherits", "integer",
    "interface", "is", "isnot", "let", "lib", "like", "long",
    "loop", "me", "mod", "module", "mustinherit", "mustoverride",
    "mybase", "myclass", "namespace", "narrowing", "new", "next",
    "not", "nothing", "notinheritable", "notoverridable", "object",
    "of", "on", "operator", "option", "optional", "or", "orelse",
    "overloads", "overridable", "overrides", "paramarray",
    "partial", "private", "property", "protected", "public",
    "raiseevent", "readonly", "redim", "removehandler", "resume",
    "return", "sbyte", "select", "set", "shadows", "shared",
    "short", "single", "static", "step", "stop", "string",
    "structure", "sub", "synclock", "then", "throw", "to", "true",
    "try", "trycast", "typeof", "uinteger", "ulong", "ushort",
    "using", "when", "while", "widening", "with", "withevents",
    "writeonly", "xor", "async", "await", "iterator", "yield"]

/- The keywords in front of a name that is declared. -/
def declaringKeywords : List String :=
  ["class", "structure", "interface", "module", "enum", "sub",
    "function", "property", "event", "dim", "const", "delegate",
    "namespace", "operator"]

/- The keywords in front of the name of a type. -/
def typeKeywordsBefore : List String :=
  ["as", "new", "inherits", "implements", "of", "gettype", "is",
    "typeof"]

/-
  A word with its surroundings: the text between it and the
  word before, the line before it from its end to its start,
  and all the text behind it.  A word in brackets is never a
  keyword, and the brackets are part of its span.
-/
structure Token where
  text : String
  span : Span
  isKeyword : Bool
  gap : Option (List Char)
  lineBefore : List Char
  behind : List Char
  deriving Repr

def isLetter (c : Char) : Bool :=
  isAsciiLetter c || c == '_'

def isLetterOrDigit (c : Char) : Bool :=
  isAsciiAlphanumeric c || c == '_'

/- A word at the start of a text, with the text that it takes. -/
def wordAt? (cs : List Char) : Option (List Char × List Char) :=
  match cs with
  | [] => none
  | '[' :: c :: r =>
    if isLetter c then
      let name := c :: r.takeWhile isLetterOrDigit
      match r.dropWhile isLetterOrDigit with
      | ']' :: _ => some (name, '[' :: name ++ [']'])
      | _ => none
    else none
  | c :: r =>
    if isLetter c then
      let name := c :: r.takeWhile isLetterOrDigit
      some (name, name)
    else none

/-
  The words of a text.  `gap` collects the characters since
  the last word and `line` those of the line, each from the
  last one back; there is no gap before the first word.
-/
def tokensFrom : Nat → Nat → Option (List Char) → List Char → List Char → List Token
  | 0, _, _, _, _ => []
  | _ + 1, _, _, _, [] => []
  | n + 1, offset, gap, line, c :: r =>
    match wordAt? (c :: r) with
    | some (name, taken) =>
      let text := String.ofList name
      let stop := offset + byteLength taken
      let behind := (c :: r).drop taken.length
      let token : Token :=
        { text := text
          span := ⟨offset, stop⟩
          isKeyword := taken.length == name.length &&
            keywords.contains (lowerAscii text)
          gap := gap.map List.reverse
          lineBefore := line
          behind := behind }
      token :: tokensFrom n stop (some []) (taken.reverse ++ line) behind
    | none =>
      let line := if c == '\n' then [] else c :: line
      tokensFrom n (offset + c.utf8Size) (gap.map (c :: ·)) line r

def tokens (masked : List Char) : List Token :=
  tokensFrom (masked.length + 1) 0 none [] masked

------------------------------------------------------------
-- Surroundings
------------------------------------------------------------

namespace Token

/- The word before is on the same line. -/
def onSameLine (t : Token) : Bool :=
  t.gap.any fun g => !g.contains '\n'

/- Only a dot, perhaps with blanks around it, is between. -/
def followsDot (t : Token) : Bool :=
  t.onSameLine && t.gap.any fun g => trimChars g == ['.']

def dotFollows (t : Token) : Bool :=
  (t.behind.dropWhile fun c => c == ' ' || c == '\t').head? == some '.'

/- The line before the word ends with a dot. -/
def endsLineInDot (t : Token) : Bool :=
  (t.lineBefore.dropWhile isBlank).head? == some '.'

/-
  The dotted name that starts with the word is followed by
  the end of an attribute, its arguments or another one.
-/
def closesAttribute (t : Token) : Bool :=
  let rest := t.behind.dropWhile fun c =>
    isLetterOrDigit c || c == '.' || c == ' '
  rest.head?.any fun c => c == '(' || c == '>' || c == ','

/-
  Type arguments follow: an opening parenthesis and the
  letters of their keyword.
-/
def hasTypeArguments (t : Token) : Bool :=
  match t.behind.dropWhile isBlank with
  | '(' :: r =>
    ((r.dropWhile isBlank).take 2).map lowerAsciiChar == ['o', 'f']
  | _ => false

/- The context of the dotted name that starts with a word. -/
def chainContext (t : Token) (typePosition : Bool) : NameContext :=
  let lead := String.ofList (trimChars t.lineBefore.reverse)
  let lowered := lower lead
  if equalsIgnoringAsciiCase lead "imports" ||
      hasStart "imports " lowered then .imported
  else
    let opens :=
      hasEnd "<" lead || hasEnd "<assembly:" lowered ||
        hasEnd "<module:" lowered ||
        (hasEnd "," lead && contains "<" lead &&
          !contains ">" lead)
    if opens && t.closesAttribute then .attribute
    else if typePosition then .qualified
    else .simple

end Token

------------------------------------------------------------
-- Dotted names
------------------------------------------------------------

/- A dotted name being read; its words, the last one first. -/
structure Chain where
  words : List String
  start : Nat
  context : NameContext
  isDeclared : Bool
  deriving Repr

def Chain.text (chain : Chain) : String :=
  Text.join "." chain.words.reverse

def mention
    (t : Token)
    (chain : Option Chain)
    (context : NameContext) : NameNode :=
  { simpleName := t.text
    qualifier := chain.map Chain.text
    context := context
    isGeneric := t.hasTypeArguments
    span := t.span
    fullSpan := ⟨(chain.map Chain.start).getD t.span.start, t.span.stop⟩ }

/- The context of a word that continues a dotted name. -/
def continuedContext (chain : Chain) (t : Token) : NameContext :=
  match chain.context with
  | .attribute => if t.dotFollows then .qualified else .attribute
  | .qualified => .qualified
  | .imported => .imported
  | _ => .memberAccess

/- The context of the first word of a dotted name. -/
def firstContext (context : NameContext) (t : Token) : NameContext :=
  match context with
  | .attribute => if t.dotFollows then .simple else .attribute
  | .imported => .imported
  | _ => .simple

/-
  Read one word.  The answer is the dotted name that it
  leaves open and what it mentions, if anything.
-/
def readToken
    (chain : Option Chain)
    (previous : Option Token)
    (t : Token) : Option Chain × Option NameNode :=
  let opened := fun context isDeclared =>
    some (⟨[t.text], t.span.start, context, isDeclared⟩ : Chain)
  if t.isKeyword then (none, none)
  else
    match chain.filter fun _ => t.followsDot with
    | some chain =>
      let longer := some { chain with words := t.text :: chain.words }
      if chain.isDeclared then (longer, none)
      else
        (longer, some (mention t (some chain) (continuedContext chain t)))
    | none =>
      let keyword := (previous.filter fun p =>
        p.isKeyword && t.onSameLine).map fun p => lowerAscii p.text
      if keyword.any declaringKeywords.contains &&
          t.gap.any (fun g => g.all isBlank) then
        (opened .simple true, none)
      else if t.endsLineInDot then
        (opened .simple false, some (mention t none .memberAccess))
      else
        let context :=
          t.chainContext (keyword.any typeKeywordsBefore.contains)
        (opened context false,
          some (mention t none (firstContext context t)))

def readTokens
    (chain : Option Chain)
    (previous : Option Token) : List Token → List NameNode
  | [] => []
  | t :: rest =>
    let (chain, node) := readToken chain previous t
    node.toList ++ readTokens chain (some t) rest

/- The names that a blanked text mentions, in order. -/
def mentions (masked : List Char) : List NameNode :=
  readTokens none none (tokens masked)

end Retarget.VisualBasic
