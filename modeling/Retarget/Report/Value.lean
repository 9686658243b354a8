import Retarget.Dictionary

/-
  This file defines the values that reports are made of and
  their JSON text, which has one part on each line.

  Key definitions include:
    * `Value`
    * `Value.jsonLines`
    * `Value.json`
-/

namespace Retarget

/- A value whose records keep the order of their fields. -/
inductive Value where
  | null
  | flag (b : Bool)
  | number (n : Nat)
  | text (s : String)
  | list (items : List Value)
  | record (fields : List (String × Value))
  deriving Repr, Inhabited

namespace Value

def ofOption {α : Type} (f : α → Value) (o : Option α) : Value :=
  o.elim .null f

def ofTexts (texts : List String) : Value :=
  .list (texts.map .text)

def ofDictionary (d : Dictionary String) : Value :=
  .record (d.entries.map fun (name, s) => (name, .text s))

def numberText (n : Nat) : String :=
  toString n

def flagText (b : Bool) : String :=
  if b then "true" else "false"

------------------------------------------------------------
-- Texts in JSON
------------------------------------------------------------

/- Two hexadecimal digits. -/
def hexByte (n : Nat) : List Char :=
  let digits := Nat.toDigits 16 n
  if digits.length < 2 then '0' :: digits else digits

/- Quotes, backslashes and controls are escaped. -/
def escapeChar (c : Char) : List Char :=
  if c == '"' then ['\\', '"']
  else if c == '\\' then ['\\', '\\']
  else if c == '\x08' then ['\\', 'b']
  else if c == '\x0c' then ['\\', 'f']
  else if c == '\n' then ['\\', 'n']
  else if c == '\r' then ['\\', 'r']
  else if c == '\t' then ['\\', 't']
  else if c.toNat < 0x20 then ['\\', 'u', '0', '0'] ++ hexByte c.toNat
  else [c]

def jsonText (s : String) : String :=
  "\"" ++ String.ofList (s.toList.flatMap escapeChar) ++ "\""

------------------------------------------------------------
-- Values in JSON
------------------------------------------------------------

def indent (line : String) : String :=
  "  " ++ line

/- Put a mark behind the last line. -/
def endWith (mark : String) : List String → List String
  | [] => []
  | [line] => [line ++ mark]
  | line :: rest => line :: endWith mark rest

/- Put a mark in front of the first line. -/
def startWith (mark : String) : List String → List String
  | [] => []
  | line :: rest => (mark ++ line) :: rest

/- The lines of parts with commas between the parts. -/
def separate : List (List String) → List String
  | [] => []
  | [part] => part
  | part :: rest => endWith "," part ++ separate rest

/- Brackets stay on one line if there is nothing in them. -/
def enclose (opening closing : String) (parts : List (List String)) :
    List String :=
  if parts.isEmpty then [opening ++ closing]
  else [opening] ++ (separate parts).map indent ++ [closing]

mutual

def jsonLines : Value → List String
  | .null => ["null"]
  | .flag b => [flagText b]
  | .number n => [numberText n]
  | .text s => [jsonText s]
  | .list items => enclose "[" "]" (jsonItems items)
  | .record fields => enclose "\x7b" "\x7d" (jsonFields fields)

def jsonItems : List Value → List (List String)
  | [] => []
  | item :: rest => jsonLines item :: jsonItems rest

def jsonFields : List (String × Value) → List (List String)
  | [] => []
  | (name, value) :: rest =>
    startWith (jsonText name ++ ": ") (jsonLines value) ::
      jsonFields rest

end

def json (v : Value) : String :=
  Text.join "\n" v.jsonLines

end Value

end Retarget
