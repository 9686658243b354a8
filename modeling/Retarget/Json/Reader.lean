import Retarget.Text.Basic
import Retarget.Dictionary

/-
  This file reads JSON texts straight into the types that
  they stand for, from the left to the right, so that the
  first fault of a text decides how reading it fails.

  A record may be written as an object of its fields or as
  an array of their values in order.

  Key definitions include:
    * `Json.ReadError`
    * `Json.Reader`
    * `Json.readText`
    * `Json.readArray`
    * `Json.readMap`
    * `Json.readRecord`
    * `Json.readWhole`
-/

namespace Retarget.Json

------------------------------------------------------------
-- Readers
------------------------------------------------------------

inductive ReadError where
  /- The text is no JSON, or not of the expected shape. -/
  | malformed
  /- A value that the type it is for does not have. -/
  | refused (reason : String)
  deriving Repr, DecidableEq

abbrev Reader := StateT (List Char) (Except ReadError)

def fail {α : Type} : Reader α :=
  throw .malformed

def isJsonBlank (c : Char) : Bool :=
  c == ' ' || c == '\t' || c == '\n' || c == '\r'

def skipBlanks : Reader Unit :=
  modify fun cs => cs.dropWhile isJsonBlank

/- The next character that is no blank, which is not taken. -/
def peek : Reader (Option Char) := do
  skipBlanks
  return (← get).head?

def next : Reader Char := do
  match ← get with
  | c :: r =>
    set r
    return c
  | [] => fail

/- Take a character that must come next. -/
def expect (c : Char) : Reader Unit := do
  skipBlanks
  if (← next) == c then return () else fail

/- Take a word such as `null`. -/
def readWord (word : String) : Reader Unit := do
  skipBlanks
  match word.toList.isPrefixOf? (← get) with
  | some rest => set rest
  | none => fail

------------------------------------------------------------
-- Texts
------------------------------------------------------------

def hexValue? (c : Char) : Option Nat :=
  if '0' ≤ c && c ≤ '9' then some (c.toNat - '0'.toNat)
  else if 'a' ≤ c && c ≤ 'f' then some (c.toNat - 'a'.toNat + 10)
  else if 'A' ≤ c && c ≤ 'F' then some (c.toNat - 'A'.toNat + 10)
  else none

/- Four hexadecimal digits, and what follows them. -/
def hexUnit? : List Char → Option (Nat × List Char)
  | a :: b :: c :: d :: r => do
    let n := 16 * (16 * (16 * (← hexValue? a) + (← hexValue? b)) +
      (← hexValue? c)) + (← hexValue? d)
    return (n, r)
  | _ => none

/-
  The character behind `\u`.  A high surrogate must be
  followed by a low one, and a low one may not stand alone.
-/
def unicodeEscape? (cs : List Char) : Option (Char × List Char) := do
  let (high, rest) ← hexUnit? cs
  if 0xD800 ≤ high && high < 0xDC00 then
    match rest with
    | '\\' :: 'u' :: rest =>
      let (low, rest) ← hexUnit? rest
      if 0xDC00 ≤ low && low < 0xE000 then
        let n := 0x10000 + (high - 0xD800) * 0x400 + (low - 0xDC00)
        return (Char.ofNat n, rest)
      else none
    | _ => none
  else if 0xDC00 ≤ high && high < 0xE000 then none
  else return (Char.ofNat high, rest)

def simpleEscape? : Char → Option Char
  | '"' => some '"'
  | '\\' => some '\\'
  | '/' => some '/'
  | 'b' => some '\x08'
  | 'f' => some '\x0c'
  | 'n' => some '\n'
  | 'r' => some '\r'
  | 't' => some '\t'
  | _ => none

/- The characters of a text behind its opening quote. -/
def textBody? : Nat → List Char → Option (List Char × List Char)
  | 0, _ => none
  | _ + 1, [] => none
  | _ + 1, '"' :: r => some ([], r)
  | n + 1, '\\' :: 'u' :: r => do
    let (c, r) ← unicodeEscape? r
    let (a, b) ← textBody? n r
    return (c :: a, b)
  | n + 1, '\\' :: e :: r => do
    let c ← simpleEscape? e
    let (a, b) ← textBody? n r
    return (c :: a, b)
  | n + 1, c :: r =>
    if c.toNat < 0x20 then none
    else do
      let (a, b) ← textBody? n r
      return (c :: a, b)

def readText : Reader String := do
  expect '"'
  let cs ← get
  match textBody? (cs.length + 1) cs with
  | some (body, rest) =>
    set rest
    return String.ofList body
  | none => fail

------------------------------------------------------------
-- Numbers
------------------------------------------------------------

def digitsOf (cs : List Char) : List Char × List Char :=
  (cs.takeWhile Text.isAsciiDigit, cs.dropWhile Text.isAsciiDigit)

/- A number is an integer unless it has a fraction or an exponent. -/
structure Numeral where
  negative : Bool
  digits : List Char
  isInteger : Bool

/- The digits in front of a point; no zero leads other digits. -/
def wholeDigits? (cs : List Char) : Option (List Char × List Char) :=
  match digitsOf cs with
  | ([], _) => none
  | ('0' :: _ :: _, _) => none
  | found => some found

/- Whether a fraction follows, and what is behind it. -/
def fractionTail? (cs : List Char) : Option (Bool × List Char) :=
  match cs with
  | '.' :: r =>
    match digitsOf r with
    | ([], _) => none
    | (_, r) => some (true, r)
  | cs => some (false, cs)

def dropSign : List Char → List Char
  | '+' :: r => r
  | '-' :: r => r
  | r => r

/- Whether an exponent follows, and what is behind it. -/
def exponentTail? (cs : List Char) : Option (Bool × List Char) :=
  match cs with
  | e :: r =>
    if e == 'e' || e == 'E' then
      match digitsOf (dropSign r) with
      | ([], _) => none
      | (_, r) => some (true, r)
    else some (false, e :: r)
  | [] => some (false, [])

def magnitude? (negative : Bool) (cs : List Char) :
    Option (Numeral × List Char) := do
  let (digits, cs) ← wholeDigits? cs
  let (fraction, cs) ← fractionTail? cs
  let (exponent, rest) ← exponentTail? cs
  return (⟨negative, digits, !(fraction || exponent)⟩, rest)

def numeral? (cs : List Char) : Option (Numeral × List Char) :=
  match cs with
  | '-' :: r => magnitude? true r
  | cs => magnitude? false cs

def natOfDigits (ds : List Char) : Nat :=
  ds.foldl (fun n d => 10 * n + (d.toNat - '0'.toNat)) 0

/- A natural number below a limit. -/
def readNat (limit : Nat) : Reader Nat := do
  skipBlanks
  match numeral? (← get) with
  | some (numeral, rest) =>
    let n := natOfDigits numeral.digits
    if numeral.negative || !numeral.isInteger || n ≥ limit then fail
    else
      set rest
      return n
  | none => fail

def readBool : Reader Bool := do
  match ← peek with
  | some 't' =>
    readWord "true"
    return true
  | _ =>
    readWord "false"
    return false

/- A value that may be missing. -/
def readOption {α : Type} (reader : Reader α) : Reader (Option α) := do
  match ← peek with
  | some 'n' =>
    readWord "null"
    return none
  | _ => return some (← reader)

------------------------------------------------------------
-- Arrays and objects
------------------------------------------------------------

/-
  Read the parts of an array or an object up to its closing
  bracket; commas stand between the parts only.
-/
def readParts
    {σ : Type}
    (closing : Char)
    (part : σ → Reader σ) : Nat → Bool → σ → Reader σ
  | 0, _, _ => fail
  | n + 1, isFirst, acc => do
    match ← peek with
    | some c =>
      if c == closing then
        expect closing
        return acc
      else if isFirst then
        readParts closing part n false (← part acc)
      else
        expect ','
        if (← peek) == some closing then fail
        else readParts closing part n false (← part acc)
    | none => fail

def readArray {α : Type} (element : Reader α) : Reader (List α) := do
  expect '['
  let n := (← get).length
  let found ← readParts ']'
    (fun acc => do return (← element) :: acc) (n + 1) true []
  return found.reverse

/- Read the fields of an object; the reader gets each name. -/
def readFields
    {σ : Type}
    (field : String → σ → Reader σ)
    (start : σ) : Reader σ := do
  expect '\x7b'
  let n := (← get).length
  readParts '\x7d'
    (fun acc => do
      let name ← readText
      expect ':'
      field name acc)
    (n + 1) true start

/- An object as a map; of equal names the last one counts. -/
def readMap {α : Type} (value : Reader α) : Reader (Dictionary α) :=
  readFields
    (fun name acc => do return acc.insert name (← value))
    Dictionary.empty

/- Pass over a value of any kind. -/
def skipValue : Nat → Reader Unit
  | 0 => fail
  | n + 1 => do
    match ← peek with
    | some '"' =>
      let _ ← readText
    | some '[' =>
      let _ ← readArray (skipValue n)
    | some '\x7b' => readFields (fun _ _ => skipValue n) ()
    | some 't' => readWord "true"
    | some 'f' => readWord "false"
    | some 'n' => readWord "null"
    | _ =>
      match numeral? (← get) with
      | some (_, rest) => set rest
      | none => fail

def skipAny : Reader Unit := do
  skipValue ((← get).length + 1)

------------------------------------------------------------
-- Records
------------------------------------------------------------

/- What was read of a record: its value and the fields it had. -/
structure Fields (σ : Type) where
  value : σ
  seen : List String
  isArray : Bool

/- All of some fields were there. -/
def Fields.require
    {σ : Type}
    (fields : Fields σ)
    (names : List String) : Reader σ :=
  if names.all fields.seen.contains then return fields.value
  else fail

/- The values of a record that is written as an array. -/
def readPositions
    {σ : Type}
    (field : String → σ → Reader σ) :
    List String → Bool → Fields σ → Reader (Fields σ)
  | [], _, acc => do
    expect ']'
    return acc
  | name :: rest, isFirst, acc => do
    if (← peek) == some ']' then
      expect ']'
      return acc
    else
      if !isFirst then expect ','
      let value ← field name acc.value
      readPositions field rest false
        { acc with value := value, seen := name :: acc.seen }

/-
  Read a record with some known fields, none of them twice;
  other fields are passed over.
-/
def readRecord
    {σ : Type}
    (names : List String)
    (field : String → σ → Reader σ)
    (start : σ) : Reader (Fields σ) := do
  if (← peek) == some '[' then
    expect '['
    readPositions field names true ⟨start, [], true⟩
  else
    readFields
      (fun name acc => do
        if names.contains name then
          if acc.seen.contains name then fail
          else
            return { acc with
              value := (← field name acc.value)
              seen := name :: acc.seen }
        else
          skipAny
          return acc)
      ⟨start, [], false⟩

/-
  Read one of some words, alone or as the only field of an
  object that says nothing more.
-/
def readChoice {α : Type} (choice : String → Option α) : Reader α := do
  let chosen := fun (word : String) =>
    match choice word with
    | some a => (return a : Reader α)
    | none => fail
  if (← peek) == some '\x7b' then
    expect '\x7b'
    let word ← readText
    let a ← chosen word
    expect ':'
    readWord "null"
    expect '\x7d'
    return a
  else chosen (← readText)

------------------------------------------------------------
-- Whole texts
------------------------------------------------------------

/- Read a text that holds one value and nothing else. -/
def readWhole {α : Type} (reader : Reader α) (text : String) :
    Except ReadError α := do
  let (value, rest) ← reader.run text.toList
  if rest.all isJsonBlank then return value else throw .malformed

end Retarget.Json
