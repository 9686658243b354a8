import Retarget.Text.Basic
import Retarget.Text.Word
import Retarget.Source.Span

/-
  This file cuts a C# text into tokens.  Blanks, comments
  and preprocessor lines lie between tokens; the symbols
  that conditions and warning pragmas mention are reported
  as tokens of a kind of their own.

  An interpolated string becomes an opening token, for each
  of its holes an opening token, the tokens of the hole and
  a closing token, and a closing token.

  Key definitions include:
    * `CSharp.Reader.Token`
    * `CSharp.Reader.Scanner`
    * `CSharp.Reader.Scanner.step`
    * `CSharp.Reader.tokenize`
-/

namespace Retarget.CSharp.Reader

open Text

------------------------------------------------------------
-- Tokens
------------------------------------------------------------

inductive Token.Kind where
  | word
  | number
  | text
  | mark
  | interpolationOpen
  | interpolationClose
  | holeOpen
  | holeClose
  /- A word of a preprocessor line. -/
  | directiveWord
  deriving Repr, DecidableEq, Inhabited

structure Token where
  kind : Token.Kind
  text : String
  span : Span
  deriving Repr, DecidableEq, Inhabited

------------------------------------------------------------
-- Character classes
------------------------------------------------------------

/- The blanks between tokens; a byte order mark is one. -/
def isSpace (c : Char) : Bool :=
  isBlank c || c.toNat == 0xFEFF

def isWordStart (c : Char) : Bool :=
  isAsciiLetter c || c == '_' || (c.toNat ≥ 0x80 && isWordChar c)

def isWordPart (c : Char) : Bool :=
  isWordStart c || isAsciiDigit c

------------------------------------------------------------
-- Lexical rules
------------------------------------------------------------

/-
  Each rule returns the characters that it takes; the rest
  follows them.
-/
abbrev Taken := List Char × List Char

/- Take a string up to its quote; a backslash escapes. -/
def takeEscaped (quote : Char) : List Char → Taken
  | [] => ([], [])
  | '\\' :: c :: r =>
    let (a, b) := takeEscaped quote r
    ('\\' :: c :: a, b)
  | c :: r =>
    if c == quote then ([c], r)
    else
      let (a, b) := takeEscaped quote r
      (c :: a, b)

/- Take a string up to its quote; a doubled quote is text. -/
def takeVerbatim : List Char → Taken
  | [] => ([], [])
  | '"' :: '"' :: r =>
    let (a, b) := takeVerbatim r
    ('"' :: '"' :: a, b)
  | '"' :: r => (['"'], r)
  | c :: r =>
    let (a, b) := takeVerbatim r
    (c :: a, b)

/-
  Take a raw string up to a run of quotes as long as the one
  that opened it; `run` counts the quotes just passed.
-/
def takeRaw (quotes : Nat) (run : Nat) : List Char → Taken
  | [] => ([], [])
  | c :: r =>
    if c == '"' then
      if run + 1 == quotes then
        let more := r.takeWhile (· == '"')
        (c :: more, r.drop more.length)
      else
        let (a, b) := takeRaw quotes (run + 1) r
        (c :: a, b)
    else
      let (a, b) := takeRaw quotes 0 r
      (c :: a, b)

def takeBlockComment : List Char → Taken
  | [] => ([], [])
  | '*' :: '/' :: r => (['*', '/'], r)
  | c :: r =>
    let (a, b) := takeBlockComment r
    (c :: a, b)

def takeWhile (p : Char → Bool) (cs : List Char) : Taken :=
  (cs.takeWhile p, cs.dropWhile p)

/- Take the code of a letter, four or eight digits long. -/
def takeLetterCode? : List Char → Option Taken
  | '\\' :: 'u' :: r => digits 'u' 4 r
  | '\\' :: 'U' :: r => digits 'U' 8 r
  | _ => none
where
  digits (mark : Char) (n : Nat) (r : List Char) : Option Taken :=
    let taken := r.take n
    if taken.length == n && taken.all isHexDigit then
      some ('\\' :: mark :: taken, r.drop n)
    else none
  isHexDigit (c : Char) : Bool :=
    isAsciiDigit c || ('a' ≤ c && c ≤ 'f') || ('A' ≤ c && c ≤ 'F')

/- Take a word, in which codes may stand for letters. -/
def takeWord : Nat → List Char → Taken
  | 0, cs => ([], cs)
  | n + 1, cs =>
    match takeLetterCode? cs with
    | some (code, rest) =>
      let (a, b) := takeWord n rest
      (code ++ a, b)
    | none =>
      match cs with
      | c :: r =>
        if isWordPart c then
          let (a, b) := takeWord n r
          (c :: a, b)
        else ([], cs)
      | [] => ([], [])

def startsWithDigit (cs : List Char) : Bool :=
  cs.head?.any isAsciiDigit

/-
  Take a number.  A dot belongs to it only in front of a
  digit, and so does a sign after the letter of an exponent;
  hexadecimal numbers have no exponent.
-/
def takeNumber (hexadecimal exponent : Bool) : List Char → Taken
  | [] => ([], [])
  | c :: r =>
    if isAsciiAlphanumeric c || c == '_' then
      let (a, b) :=
        takeNumber hexadecimal (!hexadecimal && (c == 'e' || c == 'E')) r
      (c :: a, b)
    else if startsWithDigit r &&
        (c == '.' || (exponent && (c == '+' || c == '-'))) then
      let (a, b) := takeNumber hexadecimal false r
      (c :: a, b)
    else ([], c :: r)

/- The marks of several characters, the longer ones first. -/
def longMarks : List String :=
  ["??=", "<<=", "=>", "->", "??", "::", "++", "--", "&&", "||",
    "==", "!=", "<=", "+=", "-=", "*=", "/=", "%=", "&=", "|=",
    "^=", "<<", ".."]

def takeMark : List Char → Taken
  | [] => ([], [])
  | '>' :: '=' :: '>' :: r => (['>'], '=' :: '>' :: r)
  | '>' :: '=' :: r => (['>', '='], r)
  | c :: r =>
    match longMarks.find? (fun m => m.toList.isPrefixOf (c :: r)) with
    | some m => (m.toList, (c :: r).drop m.length)
    | none => ([c], r)

------------------------------------------------------------
-- Interpolated strings
------------------------------------------------------------

/- How the text of an interpolated string is written. -/
inductive Style where
  | plain
  | verbatim
  | raw (quotes dollars : Nat)
  deriving Repr, DecidableEq

/- An open hole: its string's style and its open brackets. -/
structure Hole where
  style : Style
  depth : Nat
  deriving Repr, DecidableEq

inductive Piece.Ending where
  | hole
  | finish
  deriving Repr, DecidableEq

structure Piece where
  taken : List Char
  rest : List Char
  ending : Piece.Ending
  deriving Repr

def Piece.cons (c : Char) (p : Piece) : Piece :=
  { p with taken := c :: p.taken }

/-
  Take the text of a string up to its next hole or its end,
  the mark that ends the piece included.
-/
def takePiece (style : Style) : Nat → List Char → Piece
  | 0, cs => ⟨cs, [], .finish⟩
  | _ + 1, [] => ⟨[], [], .finish⟩
  | n + 1, c :: r =>
    match style with
    | .plain =>
      match c, r with
      | '\\', d :: r' => ((takePiece style n r').cons d).cons c
      | '{', '{' :: r' => ((takePiece style n r').cons '{').cons c
      | '{', _ => ⟨[c], r, .hole⟩
      | '"', _ => ⟨[c], r, .finish⟩
      | _, _ => (takePiece style n r).cons c
    | .verbatim =>
      match c, r with
      | '"', '"' :: r' => ((takePiece style n r').cons '"').cons c
      | '{', '{' :: r' => ((takePiece style n r').cons '{').cons c
      | '{', _ => ⟨[c], r, .hole⟩
      | '"', _ => ⟨[c], r, .finish⟩
      | _, _ => (takePiece style n r).cons c
    | .raw quotes dollars =>
      let run := (c :: r).takeWhile (· == c)
      let rest := (c :: r).dropWhile (· == c)
      if c == '"' && run.length ≥ quotes then ⟨run, rest, .finish⟩
      else if c == '{' && run.length ≥ dollars then ⟨run, rest, .hole⟩
      else
        let p := takePiece style n rest
        { p with taken := run ++ p.taken }

------------------------------------------------------------
-- Scanning
------------------------------------------------------------

/-
  The state between two tokens: what is left and where it
  starts, the open holes from the innermost out, the string
  whose text comes next, and whether only blanks have been
  seen on the line.
-/
structure Scanner where
  rest : List Char
  offset : Nat
  holes : List Hole
  inside : Option Style
  freshLine : Bool

namespace Scanner

def ofText (text : String) : Scanner :=
  ⟨text.toList, 0, [], none, true⟩

/- Move past some characters without a token. -/
def skip (s : Scanner) (taken : Taken) : Scanner :=
  let fresh :=
    if taken.1.all isSpace then
      s.freshLine || taken.1.contains '\n'
    else false
  { s with
    rest := taken.2
    offset := s.offset + byteLen taken.1
    freshLine := fresh }
where
  byteLen (cs : List Char) : Nat :=
    cs.foldl (fun n c => n + c.utf8Size) 0

/- Move past some characters, which make a token. -/
def emit
    (s : Scanner)
    (kind : Token.Kind)
    (taken : Taken) : List Token × Scanner :=
  let s' := s.skip taken
  ([⟨kind, String.ofList taken.1, ⟨s.offset, s'.offset⟩⟩], s')

/- The words of a preprocessor line from some offset on. -/
def lineWords : Nat → Nat → List Char → List Token
  | 0, _, _ => []
  | _ + 1, _, [] => []
  | n + 1, offset, c :: r =>
    let taken : Taken :=
      if isWordStart c then takeWhile isWordPart (c :: r)
      else if isAsciiDigit c then takeWhile isWordPart (c :: r)
      else ([c], r)
    let stop := offset + skip.byteLen taken.1
    let rest := lineWords n stop taken.2
    if isWordStart c then
      ⟨.directiveWord, String.ofList taken.1, ⟨offset, stop⟩⟩ :: rest
    else rest

/-
  A preprocessor line.  Conditions mention symbols, and
  warning pragmas mention the warnings that they switch.
-/
def directive (s : Scanner) : List Token × Scanner :=
  let line := takeWhile (fun c => c != '\n' && c != '\r') s.rest
  let code := cutComment line.1
  let words := lineWords (code.length + 1) s.offset code
  let mentioned :=
    match words with
    | first :: args =>
      if first.text == "if" || first.text == "elif" then
        args.filter fun w => w.text != "true" && w.text != "false"
      else if first.text == "pragma" then
        match args with
        | warning :: _ :: ids =>
          if warning.text == "warning" then ids else []
        | _ => []
      else []
    | [] => []
  (mentioned, { s.skip line with freshLine := false })
where
  cutComment : List Char → List Char
    | [] => []
    | '/' :: '/' :: _ => []
    | c :: r => c :: cutComment r

/- Open an interpolated string after its dollars and quotes. -/
def openString
    (s : Scanner)
    (opening : Nat)
    (style : Style) : List Token × Scanner :=
  let (tokens, s') :=
    s.emit .interpolationOpen (s.rest.take opening, s.rest.drop opening)
  (tokens, { s' with inside := some style })

/- The text of an interpolated string up to a hole or its end. -/
def stringText (s : Scanner) (style : Style) : List Token × Scanner :=
  let piece := takePiece style (s.rest.length + 1) s.rest
  let s' := { s.skip (piece.taken, piece.rest) with inside := none }
  match piece.ending with
  | .hole =>
    ([⟨.holeOpen, "\x7b", ⟨s.offset, s'.offset⟩⟩],
      { s' with holes := ⟨style, 0⟩ :: s.holes })
  | .finish =>
    ([⟨.interpolationClose, "\"", ⟨s.offset, s'.offset⟩⟩], s')

/- The braces that close a hole of a string. -/
def closingBraces : Style → Nat
  | .raw _ dollars => dollars
  | _ => 1

/- A mark outside strings, which may open or close brackets. -/
def mark (s : Scanner) : List Token × Scanner :=
  let taken := takeMark s.rest
  match s.holes, taken.1 with
  | hole :: outer, ['}'] =>
    if hole.depth == 0 then
      let n := closingBraces hole.style
      let (tokens, s') := s.emit .holeClose (s.rest.take n, s.rest.drop n)
      (tokens, { s' with holes := outer, inside := some hole.style })
    else
      let (tokens, s') := s.emit .mark taken
      (tokens, { s' with holes := { hole with depth := hole.depth - 1 } :: outer })
  | hole :: outer, [c] =>
    if c == ':' && hole.depth == 0 then
      ([], s.skip (takeWhile (· != '}') s.rest))
    else
      let (tokens, s') := s.emit .mark taken
      let depth :=
        if c == '(' || c == '[' || c == '{' then hole.depth + 1
        else if c == ')' || c == ']' then hole.depth - 1
        else hole.depth
      (tokens, { s' with holes := { hole with depth := depth } :: outer })
  | _, _ => s.emit .mark taken

/- Take a string literal and the encoding mark behind it. -/
def literal (s : Scanner) (opening : List Char) (body : Taken) : List Token × Scanner :=
  let encoding :=
    match body.2 with
    | 'u' :: '8' :: _ => 2
    | 'U' :: '8' :: _ => 2
    | _ => 0
  s.emit .text
    (opening ++ body.1 ++ body.2.take encoding, body.2.drop encoding)

/- Read one token or pass over what lies between tokens. -/
def step (s : Scanner) : List Token × Scanner :=
  match s.inside with
  | some style => s.stringText style
  | none =>
    match s.rest with
    | [] => ([], s)
    | '/' :: '/' :: _ =>
      ([], s.skip (takeWhile (fun c => c != '\n') s.rest))
    | '/' :: '*' :: r =>
      let (a, b) := takeBlockComment r
      ([], { s.skip ('/' :: '*' :: a, b) with freshLine := s.freshLine })
    | '@' :: '"' :: r => s.literal ['@', '"'] (takeVerbatim r)
    | '@' :: '$' :: '"' :: _ => s.openString 3 .verbatim
    | '$' :: '@' :: '"' :: _ => s.openString 3 .verbatim
    | '$' :: r =>
      let dollars := s.rest.takeWhile (· == '$')
      let quotes := (s.rest.dropWhile (· == '$')).takeWhile (· == '"')
      if quotes.length ≥ 3 then
        s.openString (dollars.length + quotes.length)
          (.raw quotes.length dollars.length)
      else if quotes.isEmpty then s.emit .mark (['$'], r)
      else s.openString 2 .plain
    | '"' :: r =>
      let quotes := s.rest.takeWhile (· == '"')
      if quotes.length ≥ 3 then
        s.literal quotes (takeRaw quotes.length 0 (s.rest.drop quotes.length))
      else s.literal ['"'] (takeEscaped '"' r)
    | '\'' :: r =>
      let (a, b) := takeEscaped '\'' r
      s.emit .text ('\'' :: a, b)
    | c :: r =>
      if isSpace c then ([], s.skip (takeWhile isSpace s.rest))
      else if c == '#' && s.freshLine then s.directive
      else if isWordStart c || (takeLetterCode? s.rest).isSome then
        s.emit .word (takeWord s.rest.length s.rest)
      else if c == '@' then
        let (a, b) := takeWord r.length r
        s.emit .word ('@' :: a, b)
      else if isAsciiDigit c then s.emit .number (number c r)
      else if c == '.' && startsWithDigit r then
        s.emit .number (number c r)
      else s.mark
where
  number (c : Char) (r : List Char) : Taken :=
    let hexadecimal := c == '0' && (r.head? == some 'x' || r.head? == some 'X')
    let (a, b) := takeNumber hexadecimal false r
    (c :: a, b)

/- Scan to the end of the text. -/
def run : Nat → Scanner → List Token
  | 0, _ => []
  | n + 1, s =>
    if s.rest.isEmpty && s.inside.isNone then []
    else
      let (tokens, s') := s.step
      tokens ++ run n s'

end Scanner

/-
  All tokens of a text.  Each step takes a character, or
  ends a string at the end of the text.
-/
def tokenize (text : String) : List Token :=
  Scanner.run (2 * text.length + 2) (Scanner.ofText text)

end Retarget.CSharp.Reader
