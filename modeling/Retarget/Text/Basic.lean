/-
  This file defines the vocabulary for text that the rest
  of the library is written in.  The functions over
  `List Char` do the work; those over `String` are the
  public face.

  Key definitions include:
    * `Text.isBlank`
    * `Text.trim`
    * `Text.splitAt`
    * `Text.splitOnce`
    * `Text.join`
    * `Text.findSub`
    * `Text.replaceChar`
    * `Text.equalsIgnoringAsciiCase`

  Key statements include:
    * `Text.trim_eq_self_of_no_blank_ends`
    * `Text.append_of_cutWhere?`
    * `Text.exists_cons_of_cutWhere?`
-/

namespace Retarget.Text

------------------------------------------------------------
-- Character classes
------------------------------------------------------------

/-
  The white space of the Unicode standard.
-/
def isBlank (c : Char) : Bool :=
  let n := c.toNat
  (9 ≤ n && n ≤ 13) || n == 0x20 || n == 0x85 || n == 0xA0 ||
    n == 0x1680 || (0x2000 ≤ n && n ≤ 0x200A) || n == 0x2028 ||
    n == 0x2029 || n == 0x202F || n == 0x205F || n == 0x3000

/- The white space of the ASCII range, form feed included. -/
def isAsciiBlank (c : Char) : Bool :=
  c == ' ' || c == '\t' || c == '\n' || c == '\r' || c == '\x0c'

def isAsciiDigit (c : Char) : Bool :=
  '0' ≤ c && c ≤ '9'

def isAsciiLower (c : Char) : Bool :=
  'a' ≤ c && c ≤ 'z'

def isAsciiUpper (c : Char) : Bool :=
  'A' ≤ c && c ≤ 'Z'

def isAsciiLetter (c : Char) : Bool :=
  isAsciiLower c || isAsciiUpper c

def isAsciiAlphanumeric (c : Char) : Bool :=
  isAsciiLetter c || isAsciiDigit c

------------------------------------------------------------
-- Letter case of the ASCII range
------------------------------------------------------------

def lowerAsciiChar (c : Char) : Char :=
  if isAsciiUpper c then Char.ofNat (c.toNat + 32) else c

def lowerAscii (s : String) : String :=
  String.ofList (s.toList.map lowerAsciiChar)

/- Equality up to the case of the letters `A` to `Z`. -/
def equalsIgnoringAsciiCase (s t : String) : Bool :=
  s.toList.map lowerAsciiChar == t.toList.map lowerAsciiChar

theorem equalsIgnoringAsciiCase_refl
    (s : String) :
    equalsIgnoringAsciiCase s s = true := by
  simp [equalsIgnoringAsciiCase]

theorem equalsIgnoringAsciiCase_comm
    (s t : String) :
    equalsIgnoringAsciiCase s t =
      equalsIgnoringAsciiCase t s := by
  simp only [equalsIgnoringAsciiCase]
  exact Bool.beq_comm

------------------------------------------------------------
-- Trimming
------------------------------------------------------------

/- Drop the characters of a class from the end of a list. -/
def dropEndWhile
    (p : Char → Bool)
    (cs : List Char) : List Char :=
  (cs.reverse.dropWhile p).reverse

def trimChars (cs : List Char) : List Char :=
  dropEndWhile isBlank (cs.dropWhile isBlank)

def trimStart (s : String) : String :=
  String.ofList (s.toList.dropWhile isBlank)

def trimEnd (s : String) : String :=
  String.ofList (dropEndWhile isBlank s.toList)

/- Drop the blanks at both ends. -/
def trim (s : String) : String :=
  String.ofList (trimChars s.toList)

/- A text holds nothing but blanks. -/
def isBlankText (s : String) : Bool :=
  s.toList.all isBlank

/-
  Text that neither starts nor ends with a blank is not
  changed by trimming.
-/
theorem trim_eq_self_of_no_blank_ends
    (s : String)
    (hfirst : ∀ c ∈ s.toList.head?, isBlank c = false)
    (hlast : ∀ c ∈ s.toList.getLast?, isBlank c = false) :
    trim s = s := by
  have hs : s.toList.dropWhile isBlank = s.toList := by
    cases h : s.toList with
    | nil => rfl
    | cons c r =>
      have := hfirst c (by simp [h])
      simp [List.dropWhile, this]
  have he : s.toList.reverse.dropWhile isBlank = s.toList.reverse := by
    cases h : s.toList.reverse with
    | nil => rfl
    | cons c r =>
      have := hlast c (by
        rw [← List.head?_reverse, h]
        simp)
      simp [List.dropWhile, this]
  simp [trim, trimChars, dropEndWhile, hs, he]

------------------------------------------------------------
-- Cutting and joining
------------------------------------------------------------

/-
  The pieces between the occurrences of a separator; there
  is always at least one piece.
-/
def splitAt (sep : Char) (s : String) : List String :=
  (s.toList.splitOn sep).map String.ofList

/- The pieces between the characters of a class. -/
def splitWhere (p : Char → Bool) (s : String) : List String :=
  (s.toList.splitOnP p).map String.ofList

def join (sep : String) (parts : List String) : String :=
  String.intercalate sep parts

/- Cut a list in front of the first character of a class. -/
def cutWhere?
    (p : Char → Bool) :
    List Char → Option (List Char × List Char)
  | [] => none
  | c :: r =>
    if p c then some ([], c :: r)
    else (cutWhere? p r).map fun (a, b) => (c :: a, b)

/- The texts before and after the first separator. -/
def splitOnce (sep : Char) (s : String) : Option (String × String) :=
  (cutWhere? (· == sep) s.toList).map fun (a, b) =>
    (String.ofList a, String.ofList (b.drop 1))

/- The texts before and after the last separator. -/
def splitLast (sep : Char) (s : String) : Option (String × String) :=
  (cutWhere? (· == sep) s.toList.reverse).map fun (a, b) =>
    (String.ofList (b.drop 1).reverse, String.ofList a.reverse)

/- The text before the first separator, or all of it. -/
def before (sep : Char) (s : String) : String :=
  String.ofList (s.toList.takeWhile (· != sep))

def stripStart? (start s : String) : Option String :=
  (start.toList.isPrefixOf? s.toList).map String.ofList

def stripEnd? (ending s : String) : Option String :=
  (ending.toList.reverse.isPrefixOf? s.toList.reverse).map fun r =>
    String.ofList r.reverse

def hasStart (start s : String) : Bool :=
  start.toList.isPrefixOf s.toList

def hasEnd (ending s : String) : Bool :=
  ending.toList.isSuffixOf s.toList

/- The parts of a list around the first occurrence of another. -/
def findSub
    (sub : List Char) :
    List Char → Option (List Char × List Char)
  | [] => if sub.isEmpty then some ([], []) else none
  | c :: r =>
    match sub.isPrefixOf? (c :: r) with
    | some rest => some ([], rest)
    | none => (findSub sub r).map fun (a, b) => (c :: a, b)

/- The texts before and after the first occurrence of a text. -/
def splitOnceAt (sub s : String) : Option (String × String) :=
  (findSub sub.toList s.toList).map fun (a, b) =>
    (String.ofList a, String.ofList b)

def contains (sub s : String) : Bool :=
  (findSub sub.toList s.toList).isSome

/- Replace every occurrence of one character. -/
def replaceChar (old new : Char) (s : String) : String :=
  String.ofList (s.toList.map fun c => if c == old then new else c)

/-
  The lines of a text: a newline ends a line, a carriage
  return before it belongs to it, and no line follows the
  last newline.
-/
def lines (s : String) : List String :=
  let pieces := s.toList.splitOn '\n'
  let kept :=
    match pieces.getLast? with
    | some [] => pieces.dropLast
    | _ => pieces
  let ended := pieces.length - 1
  kept.mapIdx fun i line =>
    String.ofList <|
      if i < ended then
        match line.getLast? with
        | some '\r' => line.dropLast
        | _ => line
      else line

theorem splitAt_ne_nil
    (sep : Char)
    (s : String) :
    splitAt sep s ≠ [] := by
  simp [splitAt, List.splitOn, List.splitOnP_ne_nil]

/- A cut loses no character. -/
theorem append_of_cutWhere?
    {p : Char → Bool}
    {cs a b : List Char}
    (h : cutWhere? p cs = some (a, b)) :
    a ++ b = cs := by
  induction cs generalizing a b with
  | nil => simp [cutWhere?] at h
  | cons c r ih =>
    by_cases hc : p c
    · simp [cutWhere?, hc] at h
      simp [← h.1, ← h.2]
    · rw [cutWhere?, if_neg hc] at h
      obtain ⟨⟨x, y⟩, hxy, he⟩ := Option.map_eq_some_iff.1 h
      simp only [Prod.mk.injEq] at he
      simp [← he.1, ← he.2, ih hxy]

/- What follows a cut starts with a character that was asked for. -/
theorem exists_cons_of_cutWhere?
    {p : Char → Bool}
    {cs a b : List Char}
    (h : cutWhere? p cs = some (a, b)) :
    ∃ c r, b = c :: r ∧ p c = true := by
  induction cs generalizing a with
  | nil => simp [cutWhere?] at h
  | cons c r ih =>
    by_cases hc : p c
    · simp [cutWhere?, hc] at h
      exact ⟨c, r, h.2.symm, hc⟩
    · rw [cutWhere?, if_neg hc] at h
      obtain ⟨⟨x, y⟩, hxy, he⟩ := Option.map_eq_some_iff.1 h
      simp only [Prod.mk.injEq] at he
      exact ih (he.2 ▸ hxy)

------------------------------------------------------------
-- Order
------------------------------------------------------------

/- The order of texts by their code points. -/
def order (s t : String) : Ordering :=
  if s < t then .lt else if s = t then .eq else .gt

/- The sign of an order. -/
def orderSign : Ordering → Int
  | .lt => -1
  | .eq => 0
  | .gt => 1

end Retarget.Text
