import Mathlib.Algebra.Field.Rat
import Retarget.Json.Reader

/-
  This file says which texts a JSON value has: blanks may
  stand around every part, a number and a string literal may
  be written in many ways.  Beyond what JSON allows, an array
  or an object that is not empty may have one more comma in
  front of its closing bracket; these commas are marked.

  Key definitions include:
    * `Json.Datum`
    * `Json.Mark`
    * `Json.spelled`
    * `Json.bare`
    * `Json.IsNumeral`
    * `Json.IsLiteral`
    * `Json.Phrase`
    * `Json.IsWritten`
    * `Json.IsText`

  Key statements include:
    * `Json.IsWritten.bared`
-/

namespace Retarget.Json

------------------------------------------------------------
-- Values
------------------------------------------------------------

/-
  The value of a JSON text.  A string is a list of units of
  UTF-16, since an escape may stand for any of them.
-/
inductive Datum where
  | null
  | flag (b : Bool)
  | number (q : ℚ)
  | text (units : List Nat)
  | array (items : List Datum)
  | object (fields : List (List Nat × Datum))

------------------------------------------------------------
-- Marked texts
------------------------------------------------------------

/- A character of a text, or a comma that JSON does not allow. -/
inductive Mark where
  | kept (c : Char)
  | extraComma
  deriving DecidableEq

/- A part of a text that has no extra comma. -/
def marks (cs : List Char) : List Mark :=
  cs.map .kept

/- The text with its extra commas. -/
def spelled (ms : List Mark) : List Char :=
  ms.map fun
    | .kept c => c
    | .extraComma => ','

/- The text without its extra commas. -/
def bare (ms : List Mark) : List Char :=
  ms.filterMap fun
    | .kept c => some c
    | .extraComma => none

section

variable {c : Char}
variable {cs ds : List Char}
variable {ms ns : List Mark}

@[simp] theorem marks_append :
    marks (cs ++ ds) = marks cs ++ marks ds :=
  List.map_append

@[simp] theorem marks_cons :
    marks (c :: cs) = .kept c :: marks cs :=
  rfl

@[simp] theorem marks_nil :
    marks [] = [] :=
  rfl

@[simp] theorem spelled_append :
    spelled (ms ++ ns) = spelled ms ++ spelled ns :=
  List.map_append

@[simp] theorem spelled_kept_cons :
    spelled (.kept c :: ms) = c :: spelled ms :=
  rfl

@[simp] theorem spelled_extraComma_cons :
    spelled (.extraComma :: ms) = ',' :: spelled ms :=
  rfl

@[simp] theorem spelled_nil :
    spelled [] = [] :=
  rfl

@[simp] theorem spelled_marks :
    spelled (marks cs) = cs := by
  induction cs with
  | nil => rfl
  | cons c r ih => rw [marks_cons, spelled_kept_cons, ih]

@[simp] theorem bare_append :
    bare (ms ++ ns) = bare ms ++ bare ns :=
  List.filterMap_append

@[simp] theorem bare_kept_cons :
    bare (.kept c :: ms) = c :: bare ms :=
  rfl

@[simp] theorem bare_extraComma_cons :
    bare (.extraComma :: ms) = bare ms :=
  rfl

@[simp] theorem bare_nil :
    bare [] = [] :=
  rfl

@[simp] theorem bare_marks :
    bare (marks cs) = cs := by
  induction cs with
  | nil => rfl
  | cons c r ih => rw [marks_cons, bare_kept_cons, ih]

/- A text without extra commas is what it is spelled as. -/
theorem bare_eq_spelled
    (h : Mark.extraComma ∉ ms) :
    bare ms = spelled ms := by
  induction ms with
  | nil => rfl
  | cons m r ih =>
      rw [List.mem_cons, not_or] at h
      rcases h with ⟨hFirst, hRest⟩
      cases m with
      | kept c => rw [bare_kept_cons, spelled_kept_cons, ih hRest]
      | extraComma => exact absurd rfl hFirst

end

------------------------------------------------------------
-- Numbers
------------------------------------------------------------

def IsDigitRun (ds : List Char) : Prop :=
  ds ≠ [] ∧ ∀ d ∈ ds, Text.isAsciiDigit d = true

/- The digits of a fraction, and the fraction with its point. -/
inductive IsFraction : List Char → List Char → Prop where
  | none : IsFraction [] []
  | point {ds : List Char}
      (h : IsDigitRun ds) :
      IsFraction ds ('.' :: ds)

inductive IsSign : Int → List Char → Prop where
  | none : IsSign 1 []
  | plus : IsSign 1 ['+']
  | minus : IsSign (-1) ['-']

inductive IsExponent : Int → List Char → Prop where
  | none : IsExponent 0 []
  | power {e : Char} {s : Int} {sign ds : List Char}
      (he : e = 'e' ∨ e = 'E')
      (hSign : IsSign s sign)
      (h : IsDigitRun ds) :
      IsExponent (s * natOfDigits ds) (e :: (sign ++ ds))

/- No zero stands in front of other digits of the whole part. -/
inductive IsMagnitude : ℚ → List Char → Prop where
  | mk {whole digits fraction exponent : List Char} {n : Int}
      (hWhole : IsDigitRun whole)
      (hZero : whole.head? = some '0' → whole = ['0'])
      (hFraction : IsFraction digits fraction)
      (hExponent : IsExponent n exponent) :
      IsMagnitude
        (natOfDigits (whole ++ digits) * 10 ^ (n - digits.length))
        (whole ++ fraction ++ exponent)

inductive IsNumeral : ℚ → List Char → Prop where
  | positive {q : ℚ} {cs : List Char}
      (h : IsMagnitude q cs) :
      IsNumeral q cs
  | negative {q : ℚ} {cs : List Char}
      (h : IsMagnitude q cs) :
      IsNumeral (-q) ('-' :: cs)

------------------------------------------------------------
-- String literals
------------------------------------------------------------

/- The units of UTF-16 that a character takes. -/
def unitsOf (c : Char) : List Nat :=
  if c.toNat < 0x10000 then [c.toNat]
  else
    [0xD800 + (c.toNat - 0x10000) / 0x400,
      0xDC00 + (c.toNat - 0x10000) % 0x400]

/- What stands between the quotes of a literal. -/
inductive IsLiteralBody : List Nat → List Char → Prop where
  | nil : IsLiteralBody [] []
  | plain {c : Char} {units : List Nat} {cs : List Char}
      (hQuote : c ≠ '"')
      (hEscape : c ≠ '\\')
      (hControl : 0x20 ≤ c.toNat)
      (h : IsLiteralBody units cs) :
      IsLiteralBody (unitsOf c ++ units) (c :: cs)
  | escape {e c : Char} {units : List Nat} {cs : List Char}
      (he : simpleEscape? e = some c)
      (h : IsLiteralBody units cs) :
      IsLiteralBody (unitsOf c ++ units) ('\\' :: e :: cs)
  | unit {n : Nat} {hex : List Char} {units : List Nat} {cs : List Char}
      (hHex : hexUnit? hex = some (n, []))
      (h : IsLiteralBody units cs) :
      IsLiteralBody (n :: units) ('\\' :: 'u' :: (hex ++ cs))

inductive IsLiteral : List Nat → List Char → Prop where
  | quoted {units : List Nat} {cs : List Char}
      (h : IsLiteralBody units cs) :
      IsLiteral units ('"' :: (cs ++ ['"']))

------------------------------------------------------------
-- Texts
------------------------------------------------------------

def IsBlanks (cs : List Char) : Prop :=
  ∀ c ∈ cs, isJsonBlank c = true

/- In front of a closing bracket: nothing, or an extra comma and blanks. -/
inductive IsEnding : List Mark → Prop where
  | none : IsEnding []
  | extraComma {b : List Char}
      (h : IsBlanks b) :
      IsEnding (.extraComma :: marks b)

/-
  The parts of a text that are written by rules.  An element
  is a value with blanks around it, a member is a name with
  its element; lists of them are not empty.
-/
inductive Phrase where
  | value (v : Datum)
  | element (v : Datum)
  | elements (vs : List Datum)
  | member (name : List Nat) (v : Datum)
  | members (fields : List (List Nat × Datum))

inductive IsWritten : Phrase → List Mark → Prop where
  | null :
      IsWritten (.value .null) (marks ['n', 'u', 'l', 'l'])
  | yes :
      IsWritten (.value (.flag true)) (marks ['t', 'r', 'u', 'e'])
  | no :
      IsWritten (.value (.flag false)) (marks ['f', 'a', 'l', 's', 'e'])
  | number {q : ℚ} {cs : List Char}
      (h : IsNumeral q cs) :
      IsWritten (.value (.number q)) (marks cs)
  | text {units : List Nat} {cs : List Char}
      (h : IsLiteral units cs) :
      IsWritten (.value (.text units)) (marks cs)
  | emptyArray {b : List Char}
      (hb : IsBlanks b) :
      IsWritten (.value (.array [])) (marks ('[' :: (b ++ [']'])))
  | array {vs : List Datum} {ms ending : List Mark}
      (h : IsWritten (.elements vs) ms)
      (hEnding : IsEnding ending) :
      IsWritten (.value (.array vs))
        (.kept '[' :: (ms ++ (ending ++ [.kept ']'])))
  | emptyObject {b : List Char}
      (hb : IsBlanks b) :
      IsWritten (.value (.object [])) (marks ('\x7b' :: (b ++ ['\x7d'])))
  | object {fields : List (List Nat × Datum)} {ms ending : List Mark}
      (h : IsWritten (.members fields) ms)
      (hEnding : IsEnding ending) :
      IsWritten (.value (.object fields))
        (.kept '\x7b' :: (ms ++ (ending ++ [.kept '\x7d'])))
  | element {v : Datum} {b b' : List Char} {ms : List Mark}
      (hb : IsBlanks b)
      (h : IsWritten (.value v) ms)
      (hb' : IsBlanks b') :
      IsWritten (.element v) (marks b ++ (ms ++ marks b'))
  | lastElement {v : Datum} {ms : List Mark}
      (h : IsWritten (.element v) ms) :
      IsWritten (.elements [v]) ms
  | nextElement {v : Datum} {vs : List Datum} {ms more : List Mark}
      (h : IsWritten (.element v) ms)
      (hMore : IsWritten (.elements vs) more) :
      IsWritten (.elements (v :: vs)) (ms ++ .kept ',' :: more)
  | member {name : List Nat} {v : Datum}
      {b b' cs : List Char} {ms : List Mark}
      (hb : IsBlanks b)
      (hName : IsLiteral name cs)
      (hb' : IsBlanks b')
      (h : IsWritten (.element v) ms) :
      IsWritten (.member name v)
        (marks (b ++ (cs ++ (b' ++ [':']))) ++ ms)
  | lastMember {name : List Nat} {v : Datum} {ms : List Mark}
      (h : IsWritten (.member name v) ms) :
      IsWritten (.members [(name, v)]) ms
  | nextMember {name : List Nat} {v : Datum}
      {fields : List (List Nat × Datum)} {ms more : List Mark}
      (h : IsWritten (.member name v) ms)
      (hMore : IsWritten (.members fields) more) :
      IsWritten (.members ((name, v) :: fields)) (ms ++ .kept ',' :: more)

/- A whole text of a value, its extra commas marked. -/
def IsText (v : Datum) (ms : List Mark) : Prop :=
  IsWritten (.element v) ms

theorem IsBlanks.append
    {b b' : List Char}
    (hb : IsBlanks b)
    (hb' : IsBlanks b') :
    IsBlanks (b ++ b') :=
  List.forall_mem_append.mpr ⟨hb, hb'⟩

/- More blanks may follow a part that ends in blanks. -/
theorem IsWritten.append_blanks
    {p : Phrase}
    {ms : List Mark}
    {b : List Char}
    (h : IsWritten p ms)
    (hPart : ∀ v, p ≠ .value v)
    (hb : IsBlanks b) :
    IsWritten p (ms ++ marks b) := by
  induction h with
  | element hFront hValue hBack _ =>
      simpa using IsWritten.element hFront hValue (hBack.append hb)
  | lastElement _ ih => exact .lastElement (ih (by simp))
  | nextElement h _ _ ihMore =>
      simpa using IsWritten.nextElement h (ihMore (by simp))
  | member hFront hName hBack _ ih =>
      simpa using IsWritten.member hFront hName hBack (ih (by simp))
  | lastMember _ ih => exact .lastMember (ih (by simp))
  | nextMember h _ _ ihMore =>
      simpa using IsWritten.nextMember h (ihMore (by simp))
  | _ => exact absurd rfl (hPart _)

/- The blanks behind an extra comma stay when the comma goes. -/
theorem IsEnding.isBlanks_bare
    {ending : List Mark}
    (h : IsEnding ending) :
    IsBlanks (bare ending) := by
  cases h with
  | none => exact List.forall_mem_nil _
  | extraComma hb => simpa using hb

/- Without its extra commas a text is one of the same value. -/
theorem IsWritten.bared
    {p : Phrase}
    {ms : List Mark}
    (h : IsWritten p ms) :
    IsWritten p (marks (bare ms)) := by
  induction h with
  | null => exact .null
  | yes => exact .yes
  | no => exact .no
  | number h => simpa using IsWritten.number h
  | text h => simpa using IsWritten.text h
  | emptyArray hb => simpa using IsWritten.emptyArray hb
  | array _ hEnding ih =>
      simpa using IsWritten.array
        (ih.append_blanks (by simp) hEnding.isBlanks_bare) .none
  | emptyObject hb => simpa using IsWritten.emptyObject hb
  | object _ hEnding ih =>
      simpa using IsWritten.object
        (ih.append_blanks (by simp) hEnding.isBlanks_bare) .none
  | element hb _ hb' ih => simpa using IsWritten.element hb ih hb'
  | lastElement _ ih => exact .lastElement ih
  | nextElement _ _ ih ihMore => simpa using IsWritten.nextElement ih ihMore
  | member hb hName hb' _ ih => simpa using IsWritten.member hb hName hb' ih
  | lastMember _ ih => exact .lastMember ih
  | nextMember _ _ ih ihMore => simpa using IsWritten.nextMember ih ihMore

end Retarget.Json
