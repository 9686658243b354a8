import Retarget.Report.Value

/-
  This file defines the YAML text of values.  A text is
  written without quotes where it reads back as the same
  text; a text of several lines is written as a block.

  Key definitions include:
    * `Yaml.readsAsOther`
    * `Yaml.style`
    * `Yaml.textLines`
    * `Value.yaml`
-/

namespace Retarget

namespace Yaml

------------------------------------------------------------
-- Texts that read as something else
------------------------------------------------------------

def truthWords : List String :=
  ["y", "Y", "yes", "Yes", "YES", "n", "N", "no", "No", "NO",
   "true", "True", "TRUE", "false", "False", "FALSE",
   "on", "On", "ON", "off", "Off", "OFF"]

def nullWords : List String :=
  ["", "null", "Null", "NULL", "~"]

def infinityWords : List String :=
  [".inf", ".Inf", ".INF", "+.inf", "+.Inf", "+.INF",
   "-.inf", "-.Inf", "-.INF", ".nan", ".NaN", ".NAN"]

def dropSign : List Char → List Char
  | '+' :: r => r
  | '-' :: r => r
  | cs => cs

/- Digits with a zero in front of them that they do not need. -/
def hasExtraZero (cs : List Char) : Bool :=
  match dropSign cs with
  | '0' :: d :: r => (d :: r).all Text.isAsciiDigit
  | _ => false

/- The value of a digit in any base up to sixteen. -/
def digitValue (c : Char) : Nat :=
  if Text.isAsciiDigit c then c.toNat - '0'.toNat
  else if 'a' ≤ c && c ≤ 'f' then c.toNat - 'a'.toNat + 10
  else if 'A' ≤ c && c ≤ 'F' then c.toNat - 'A'.toNat + 10
  else 16

def numberIn (base : Nat) (cs : List Char) : Nat :=
  cs.foldl (fun n c => base * n + digitValue c) 0

/- An integer of up to 128 bits in one of the marked bases. -/
def isMarkedInteger (cs : List Char) : Bool :=
  let limit :=
    match cs with
    | '-' :: _ => Nat.pow 2 127 + 1
    | _ => Nat.pow 2 128
  let isIn := fun (base : Nat) (digits : List Char) =>
    !digits.isEmpty && digits.all (fun c => digitValue c < base) &&
      numberIn base digits < limit
  match dropSign cs with
  | '0' :: 'x' :: digits => isIn 16 digits
  | '0' :: 'o' :: digits => isIn 8 digits
  | '0' :: 'b' :: digits => isIn 2 digits
  | _ => false

/- The least number that is too great for a double. -/
def doubleLimit : Nat :=
  Nat.pow 2 1024 - Nat.pow 2 970

/-
  A decimal number, which is not too great for a double if
  its digits without the point are multiplied by a power of
  ten.
-/
def isFinite (digits : List Char) (exponent : Int) : Bool :=
  let digits := digits.dropWhile (· == '0')
  let length : Int := digits.length + exponent
  if digits.isEmpty || length < 309 then true
  else if length > 309 then false
  else
    let n := numberIn 10 digits
    if exponent ≥ 0 then n * Nat.pow 10 exponent.toNat < doubleLimit
    else n < doubleLimit * Nat.pow 10 exponent.natAbs

/- The exponent behind a number, or zero if there is none. -/
def exponent? : List Char → Option Int
  | [] => some 0
  | e :: r =>
    let digits := dropSign r
    if (e == 'e' || e == 'E') && !digits.isEmpty &&
        digits.all Text.isAsciiDigit then
      let n : Int := numberIn 10 digits
      some (if r.head? == some '-' then -n else n)
    else none

/- A decimal number that fits into a double. -/
def isDecimal (cs : List Char) : Bool :=
  let cs := dropSign cs
  let whole := cs.takeWhile Text.isAsciiDigit
  let rest := cs.dropWhile Text.isAsciiDigit
  let (fraction, rest) :=
    match rest with
    | '.' :: r =>
      (r.takeWhile Text.isAsciiDigit, r.dropWhile Text.isAsciiDigit)
    | r => ([], r)
  let digits := whole ++ fraction
  !digits.isEmpty &&
    (exponent? rest).any fun e => isFinite digits (e - fraction.length)

/- Without quotes the text would not be read as a text. -/
def readsAsOther (s : String) : Bool :=
  truthWords.contains s || nullWords.contains s ||
    infinityWords.contains s || hasExtraZero s.toList ||
    isMarkedInteger s.toList || isDecimal s.toList

------------------------------------------------------------
-- Shapes of texts
------------------------------------------------------------

def isBreak (c : Char) : Bool :=
  c == '\n' || c == '\r' || c.toNat == 0x85 || c.toNat == 0x2028 ||
    c.toNat == 0x2029

/- A blank, a line break, or the end of a text. -/
def isGap : Option Char → Bool
  | none => true
  | some c => c == ' ' || c == '\t' || c.toNat == 0 || isBreak c

/- The characters that are written as they are. -/
def isPlainChar (c : Char) : Bool :=
  let n := c.toNat
  n == 0x0A || (0x20 ≤ n && n ≤ 0x7E) ||
    (0xA0 ≤ n && n ≤ 0xFFFD && n != 0xFEFF)

/- A text that starts like this says something about a value. -/
def isIndicator (c : Char) : Bool :=
  "#,[]\x7b\x7d&*!|>'\"%@\x60".toList.contains c

/- The first character has a meaning of its own. -/
def startsWithIndicator : List Char → Bool
  | [] => false
  | c :: r =>
    isIndicator c ||
      ((c == '?' || c == ':' || c == '-') && isGap r.head?)

/- A colon in front of a gap or a hash behind one. -/
def hasIndicatorAfter (previous : Char) : List Char → Bool
  | [] => false
  | c :: r =>
    (c == ':' && isGap r.head?) || (c == '#' && isGap (some previous)) ||
      hasIndicatorAfter c r

/- The text has a meaning of its own where a value is expected. -/
def hasIndicator (cs : List Char) : Bool :=
  cs.take 3 == ['-', '-', '-'] || cs.take 3 == ['.', '.', '.'] ||
    startsWithIndicator cs ||
    match cs with
    | [] => false
    | c :: r => hasIndicatorAfter c r

/- Two neighbours of some kinds. -/
def hasPair (p q : Char → Bool) : List Char → Bool
  | a :: b :: r => (p a && q b) || hasPair p q (b :: r)
  | _ => false

def isSpace (c : Char) : Bool :=
  c == ' '

/- Some character is a control, or a space ends a line. -/
def needsEscapes (cs : List Char) : Bool :=
  !cs.all isPlainChar || hasPair isSpace isBreak cs

def hasSpaceAtEnd (cs : List Char) : Bool :=
  cs.getLast?.any isSpace

/- The text is on one line and means nothing else. -/
def isPlain (cs : List Char) : Bool :=
  !needsEscapes cs && !hasIndicator cs && !cs.any isBreak &&
    !hasSpaceAtEnd cs && !cs.head?.any isSpace

/- How a text is written. -/
inductive Style where
  | plain
  | singleQuoted
  | doubleQuoted
  | block
  deriving Repr, DecidableEq

/- Quotes that know no escapes will do. -/
def quotedStyle (cs : List Char) : Style :=
  if needsEscapes cs || hasPair isBreak isSpace cs then .doubleQuoted
  else .singleQuoted

def style (s : String) : Style :=
  let cs := s.toList
  if readsAsOther s then quotedStyle cs
  else if cs.contains '\n' then
    if needsEscapes cs || hasSpaceAtEnd cs then .doubleQuoted
    else .block
  else if isPlain cs then .plain
  else quotedStyle cs

------------------------------------------------------------
-- Quotes and blocks
------------------------------------------------------------

/- A quote inside single quotes is written twice. -/
def singleQuoted (cs : List Char) : String :=
  let body := cs.flatMap fun c => if c == '\'' then ['\'', '\''] else [c]
  "'" ++ String.ofList body ++ "'"

/- A number of hexadecimal digits. -/
def hexDigits (width n : Nat) : List Char :=
  let digits := (Nat.toDigits 16 n).map fun c =>
    if Text.isAsciiLower c then Char.ofNat (c.toNat - 32) else c
  List.replicate (width - digits.length) '0' ++ digits

/- The characters that have a short escape. -/
def shortEscape? (c : Char) : Option Char :=
  match c.toNat with
  | 0x00 => some '0'
  | 0x07 => some 'a'
  | 0x08 => some 'b'
  | 0x09 => some 't'
  | 0x0A => some 'n'
  | 0x0B => some 'v'
  | 0x0C => some 'f'
  | 0x0D => some 'r'
  | 0x1B => some 'e'
  | 0x22 => some '"'
  | 0x5C => some '\\'
  | 0x85 => some 'N'
  | 0x2028 => some 'L'
  | 0x2029 => some 'P'
  | _ => none

def escapeChar (c : Char) : List Char :=
  match shortEscape? c with
  | some e => ['\\', e]
  | none =>
    if isPlainChar c then [c]
    else if c.toNat ≤ 0xFF then ['\\', 'x'] ++ hexDigits 2 c.toNat
    else if c.toNat ≤ 0xFFFF then ['\\', 'u'] ++ hexDigits 4 c.toNat
    else ['\\', 'U'] ++ hexDigits 8 c.toNat

def doubleQuoted (cs : List Char) : String :=
  "\"" ++ String.ofList (cs.flatMap escapeChar) ++ "\""

/- What becomes of line breaks at the end of a block. -/
def blockEnd (cs : List Char) : String :=
  match cs.reverse with
  | '\n' :: '\n' :: _ => "+"
  | ['\n'] => "+"
  | '\n' :: _ => ""
  | _ => "-"

/- The head of a block tells its indentation if it has to. -/
def blockHead (cs : List Char) : String :=
  let hint := if cs.head?.any fun c => c == ' ' || c == '\n' then "2" else ""
  "|" ++ hint ++ blockEnd cs

/- The lines of a block; its last line break ends the last one. -/
def blockLines (s : String) : List String :=
  let lines := Text.splitAt '\n' s
  if s.toList.getLast? == some '\n' then lines.dropLast else lines

/- The lines of a text, of which all but the first are indented. -/
def textLines (s : String) : List String :=
  match style s with
  | .plain => [s]
  | .singleQuoted => [singleQuoted s.toList]
  | .doubleQuoted => [doubleQuoted s.toList]
  | .block => blockHead s.toList :: blockLines s

/- Empty lines are not indented. -/
def indent (line : String) : String :=
  if line.isEmpty then line else "  " ++ line

/- The first line follows a mark, the others are indented. -/
def hang (mark : String) : List String → List String
  | [] => []
  | line :: rest => (mark ++ line) :: rest.map indent

end Yaml

------------------------------------------------------------
-- Values in YAML
------------------------------------------------------------

namespace Value

/- A field whose value is on the line of its name, or below it. -/
def yamlField (name : String) (value : Value) (lines : List String) :
    List String :=
  let name := Text.join "" (Yaml.textLines name)
  match value with
  | .list (_ :: _) => (name ++ ":") :: lines
  | .record (_ :: _) => (name ++ ":") :: lines.map Yaml.indent
  | _ => Yaml.hang (name ++ ": ") lines

mutual

def yamlLines : Value → List String
  | .null => ["null"]
  | .flag b => [flagText b]
  | .number n => [numberText n]
  | .text s => Yaml.textLines s
  | .list [] => ["[]"]
  | .list (item :: rest) => yamlItems (item :: rest)
  | .record [] => ["\x7b\x7d"]
  | .record (field :: rest) => yamlFields (field :: rest)

def yamlItems : List Value → List String
  | [] => []
  | item :: rest => Yaml.hang "- " (yamlLines item) ++ yamlItems rest

def yamlFields : List (String × Value) → List String
  | [] => []
  | (name, value) :: rest =>
    yamlField name value (yamlLines value) ++ yamlFields rest

end

def yaml (v : Value) : String :=
  String.join (v.yamlLines.map (· ++ "\n"))

end Value

end Retarget
