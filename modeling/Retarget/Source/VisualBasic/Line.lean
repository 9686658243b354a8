import Retarget.Text.Offset
import Retarget.Text.Word
import Retarget.Source.Name

/-
  This file reads the declaration lines of a blanked Visual
  Basic text: imports, namespaces and types.  Keywords count
  in any letter case.

  Key definitions include:
    * `VisualBasic.numberedLines`
    * `VisualBasic.importLine?`
    * `VisualBasic.namespaceLine?`
    * `VisualBasic.typeLine?`
    * `VisualBasic.namespaceScopes`
-/

namespace Retarget.VisualBasic

open Text

------------------------------------------------------------
-- Letters in any case
------------------------------------------------------------

/-
  The lower-case ASCII letter that a character equals up to
  case; the Kelvin sign and the long s are letters too.
-/
def foldLetter (c : Char) : Char :=
  if c.toNat == 0x212A then 'k'
  else if c.toNat == 0x17F then 's'
  else lowerAsciiChar c

def startsName (c : Char) : Bool :=
  isAsciiLower (foldLetter c) || c == '_'

def isIndent (c : Char) : Bool :=
  c == ' ' || c == '\t'

/- Take a keyword, given in lower case. -/
def takeKeyword?
    (keyword : List Char)
    (cs : List Char) : Option (List Char) :=
  if (cs.take keyword.length).map foldLetter == keyword then
    some (cs.drop keyword.length)
  else none

/- Take the blanks between two words, at least one. -/
def takeIndent? : List Char → Option (List Char)
  | [] => none
  | c :: r => if isIndent c then some (r.dropWhile isIndent) else none

/- Take a name whose further characters pass a test. -/
def takeName?
    (p : Char → Bool) :
    List Char → Option (List Char × List Char)
  | [] => none
  | c :: r =>
    if startsName c then some (c :: r.takeWhile p, r.dropWhile p)
    else none

def takeDotted? : List Char → Option (List Char × List Char) :=
  takeName? fun c => isWordChar c || c == '.'

------------------------------------------------------------
-- Lines
------------------------------------------------------------

/- The lines of a text with the offsets at which they start. -/
def numberLines : Nat → List (List Char) → List (Nat × List Char)
  | _, [] => []
  | n, line :: rest =>
    (n, line) :: numberLines (n + byteLength line + 1) rest

def numberedLines (text : List Char) : List (Nat × List Char) :=
  numberLines 0 (text.splitOn '\n')

/- The name that stands behind a name and an equals sign. -/
def aliasTarget? (cs : List Char) : Option (List Char × List Char) := do
  let (_, rest) ← takeName? isWordChar cs
  match rest.dropWhile isIndent with
  | '=' :: rest => takeDotted? (rest.dropWhile isIndent)
  | _ => none

/-
  An import line brings in a namespace, unless it gives a
  name of its own to what it imports.
-/
def importLine? (line : List Char) : Option (Option String) := do
  let rest ← takeKeyword? "imports".toList (line.dropWhile isIndent)
  let rest ← takeIndent? rest
  match aliasTarget? rest with
  | some _ => return none
  | none =>
    let (target, _) ← takeDotted? rest
    return some (String.ofList target)

inductive NamespaceLine where
  | opening (name : String)
  | closing
  deriving Repr, DecidableEq

/- What follows the words that close a namespace. -/
def namespaceEnd? (start : List Char) : Option (List Char) := do
  let rest ← takeKeyword? "end".toList start
  let rest ← takeIndent? rest
  let rest ← takeKeyword? "namespace".toList rest
  if rest.head?.any isWordChar then none else some rest

/- The name of a namespace that is opened, and what follows. -/
def namespaceStart? (start : List Char) : Option (List Char × List Char) := do
  let rest ← takeKeyword? "namespace".toList start
  let rest ← takeIndent? rest
  takeDotted? rest

/- A namespace line with the characters that it consists of. -/
def namespaceLine? (line : List Char) :
    Option (NamespaceLine × List Char) :=
  let start := line.dropWhile isIndent
  let upTo := fun (rest : List Char) =>
    line.take (line.length - rest.length)
  match namespaceEnd? start with
  | some rest => some (.closing, upTo rest)
  | none =>
    (namespaceStart? start).map fun (name, rest) =>
      (.opening (String.ofList name), upTo rest)

def typeModifiers : List (List Char) :=
  ["public", "private", "friend", "protected", "partial",
    "mustinherit", "notinheritable", "shadows", "static"].map
    String.toList

def typeKeywords : List (List Char) :=
  ["class", "structure", "interface", "module", "enum"].map
    String.toList

/- Take one of some keywords and the blanks behind it. -/
def takeOneOf?
    (keywords : List (List Char))
    (cs : List Char) : Option (List Char) :=
  keywords.findSome? fun k => (takeKeyword? k cs).bind takeIndent?

def skipModifiers : Nat → List Char → List Char
  | 0, cs => cs
  | n + 1, cs =>
    match takeOneOf? typeModifiers cs with
    | some rest => skipModifiers n rest
    | none => cs

/- The name of the type that a line declares, and where it is. -/
def typeLine? (line : List Char) : Option (String × Nat) := do
  let start := skipModifiers line.length (line.dropWhile isIndent)
  let rest ← takeOneOf? typeKeywords start
  let (name, _) ← takeName? isWordChar rest
  let before := line.take (line.length - rest.length)
  return (String.ofList name, byteLength before)

------------------------------------------------------------
-- Reports
------------------------------------------------------------

/-
  Close and open namespaces line by line.  `opened` holds
  the open namespaces, the innermost first; a namespace that
  is not closed runs to the end of the text.
-/
def closeNamespaces
    (length : Nat)
    (opened : List (String × Nat)) :
    List (Nat × List Char) → List NamespaceScope
  | [] =>
    opened.reverse.map fun (name, start) => ⟨name, ⟨start, length⟩⟩
  | (start, line) :: rest =>
    match namespaceLine? line with
    | none => closeNamespaces length opened rest
    | some (.opening inner, _) =>
      let name :=
        match opened.head? with
        | some (outer, _) => outer ++ "." ++ inner
        | none => inner
      closeNamespaces length ((name, start) :: opened) rest
    | some (.closing, taken) =>
      match opened with
      | [] => closeNamespaces length [] rest
      | (name, opening) :: outer =>
        ⟨name, ⟨opening, start + byteLength taken⟩⟩ ::
          closeNamespaces length outer rest

def namespaceScopes (masked : List Char) : List NamespaceScope :=
  closeNamespaces (byteLength masked) [] (numberedLines masked)

/- The innermost namespace around an offset. -/
def innermost?
    (scopes : List NamespaceScope)
    (offset : Nat) : Option String :=
  let around := scopes.filter fun s => s.span.Contains offset
  let inner := around.foldl
    (fun (best : Option NamespaceScope) s =>
      match best with
      | some b => if b.span.start ≤ s.span.start then some s else some b
      | none => some s)
    none
  inner.map NamespaceScope.name

def typeDeclarations
    (scopes : List NamespaceScope)
    (masked : List Char) : List TypeDeclaration :=
  (numberedLines masked).filterMap fun (start, line) =>
    (typeLine? line).map fun (name, place) =>
      ⟨innermost? scopes (start + place), name⟩

/- The import lines: their spans and the namespaces they name. -/
def importLines (masked : List Char) : List (Span × Option String) :=
  (numberedLines masked).filterMap fun (start, line) =>
    (importLine? line).map fun target =>
      (⟨start, start + byteLength line⟩, target)

end Retarget.VisualBasic
