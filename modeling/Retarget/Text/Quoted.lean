import Retarget.Text.Printable

/-
  This file defines the quoted form of a text, in which
  messages show paths: double quotes around it, a backslash
  before quotes and backslashes, and the code point of every
  character that has no visible form.

  Key definitions include:
    * `Text.escapeChar`
    * `Text.quoted`
-/

namespace Retarget.Text

/- The lower-case hexadecimal digits of a number. -/
def hexDigits (n : Nat) : List Char :=
  Nat.toDigits 16 n

def escapeChar (c : Char) : List Char :=
  match c with
  | '\x00' => ['\\', '0']
  | '\t' => ['\\', 't']
  | '\n' => ['\\', 'n']
  | '\r' => ['\\', 'r']
  | '"' => ['\\', '"']
  | '\\' => ['\\', '\\']
  | c =>
    if isPrintable c && !extendsGrapheme c then [c]
    else ['\\', 'u', '\x7b'] ++ hexDigits c.toNat ++ ['\x7d']

def quoted (s : String) : String :=
  String.ofList (['"'] ++ s.toList.flatMap escapeChar ++ ['"'])

end Retarget.Text
