import Retarget.Dictionary
import Retarget.Text.Case
import Retarget.Source.Language

/-
  This file defines symbols and the table of the symbols
  that are known.  A symbol stands in a chain of containers
  that ends at the global namespace; the table finds it by
  its full name.

  Key definitions include:
    * `SymbolKind`
    * `Symbol`
    * `Symbol.fullName`
    * `SymbolTable`
    * `SymbolTable.enter`
    * `SymbolTable.addNamespace`
    * `SymbolTable.addType`
    * `SymbolTable.addMember`
    * `SymbolTable.lookup`
    * `SymbolTable.merge`
    * `SymbolTable.ofReferenceList`
-/

namespace Retarget

------------------------------------------------------------
-- Symbols
------------------------------------------------------------

inductive SymbolKind where
  | nameSpace
  | type
  | method
  | property
  | field
  | event
  deriving Repr, DecidableEq, Inhabited

def SymbolKind.title : SymbolKind → String
  | .nameSpace => "Namespace"
  | .type => "Type"
  | .method => "Method"
  | .property => "Property"
  | .field => "Field"
  | .event => "Event"

def SymbolKind.isMember : SymbolKind → Bool
  | .nameSpace => false
  | .type => false
  | _ => true

/- The global namespace, or a symbol in a container. -/
inductive Symbol where
  | global
  | declared (name : String) (kind : SymbolKind) (container : Symbol)
  deriving Repr, DecidableEq, Inhabited

namespace Symbol

def name : Symbol → String
  | .global => ""
  | .declared name _ _ => name

def kind : Symbol → SymbolKind
  | .global => .nameSpace
  | .declared _ kind _ => kind

def container? : Symbol → Option Symbol
  | .global => none
  | .declared _ _ container => some container

def isGlobal : Symbol → Bool
  | .global => true
  | .declared _ _ _ => false

def isMember (s : Symbol) : Bool :=
  s.kind.isMember

/- The names of a symbol and its containers, its own first. -/
def path : Symbol → List String
  | .global => []
  | .declared name _ container => name :: container.path

/- The names from the outermost container to the symbol. -/
def fullName (s : Symbol) : String :=
  Text.join "." s.path.reverse

end Symbol

------------------------------------------------------------
-- Tables
------------------------------------------------------------

/- Symbols by their full names, in the order of their arrival. -/
structure SymbolTable where
  entries : List (String × Symbol)
  /- The full names by their lower-case forms. -/
  folded : Dictionary (List String)
  deriving Repr, DecidableEq, Inhabited

namespace SymbolTable

def empty : SymbolTable :=
  ⟨[], .empty⟩

def size (table : SymbolTable) : Nat :=
  table.entries.length

def symbols (table : SymbolTable) : List Symbol :=
  table.entries.map Prod.snd

def find? (table : SymbolTable) (fullName : String) : Option Symbol :=
  (table.entries.find? fun e => e.1 == fullName).map Prod.snd

/- The full names of a lower-case form. -/
def foldedNames (table : SymbolTable) (key : String) : List String :=
  (table.folded.find? key).getD []

/-
  The symbols of a name in a language; a language that does
  not count letter case can find several.
-/
def lookup
    (table : SymbolTable)
    (fullName : String)
    (language : Language) : List Symbol :=
  match language with
  | .cSharp => (table.find? fullName).toList
  | .visualBasic =>
    (table.foldedNames (Text.lower fullName)).filterMap table.find?

/- The full name of a symbol in a container. -/
def childName (container : Symbol) (name : String) : String :=
  if container.isGlobal then name
  else container.fullName ++ "." ++ name

/- Enter a symbol under a full name that is not known yet. -/
def enter
    (table : SymbolTable)
    (fullName : String)
    (symbol : Symbol) : SymbolTable :=
  let key := Text.lower fullName
  { entries := table.entries ++ [(fullName, symbol)]
    folded := table.folded.insert key
      (table.foldedNames key ++ [fullName]) }

/-
  The symbol of a name in a container; a known symbol of that
  full name stays, whatever its kind.
-/
def child
    (table : SymbolTable)
    (container : Symbol)
    (name : String)
    (kind : SymbolKind) : SymbolTable × Symbol :=
  let fullName := childName container name
  match table.find? fullName with
  | some known => (table, known)
  | none =>
    let symbol := Symbol.declared name kind container
    (table.enter fullName symbol, symbol)

/- Walk along the parts of a namespace's name. -/
def addParts
    (table : SymbolTable)
    (container : Symbol) : List String → SymbolTable × Symbol
  | [] => (table, container)
  | part :: rest =>
    let (table, inner) := table.child container part .nameSpace
    addParts table inner rest

/- The parts of a dotted name that are not empty. -/
def nameParts (fullName : String) : List String :=
  (Text.splitAt '.' fullName).filter fun p => !p.isEmpty

def addNamespace
    (table : SymbolTable)
    (fullName : String) : SymbolTable × Symbol :=
  table.addParts .global (nameParts fullName)

/-
  Add a type; a container that is not known yet becomes a
  namespace.
-/
def addType
    (table : SymbolTable)
    (fullName : String) : SymbolTable × Symbol :=
  match Text.splitLast '.' fullName with
  | none => table.child .global fullName .type
  | some (container, name) =>
    match table.find? container with
    | some owner => table.child owner name .type
    | none =>
      let (table, owner) := table.addNamespace container
      table.child owner name .type

/- Add a member; an owner that is no known type is added. -/
def addMember
    (table : SymbolTable)
    (owner name : String)
    (kind : SymbolKind) : SymbolTable × Symbol :=
  match (table.find? owner).filter fun s => s.kind == .type with
  | some owner => table.child owner name kind
  | none =>
    let (table, owner) := table.addType owner
    table.child owner name kind

/- Add the name of a symbol of another table. -/
def addSymbol (table : SymbolTable) (symbol : Symbol) : SymbolTable :=
  match symbol.kind with
  | .nameSpace => (table.addNamespace symbol.fullName).1
  | .type => (table.addType symbol.fullName).1
  | kind =>
    match symbol.container? with
    | some owner => (table.addMember owner.fullName symbol.name kind).1
    | none => table

def dotCount (s : String) : Nat :=
  s.toList.count '.'

/- Add the symbols of another table, the shortest names first. -/
def merge (table other : SymbolTable) : SymbolTable :=
  let ordered := other.symbols.mergeSort fun a b =>
    dotCount a.fullName ≤ dotCount b.fullName
  ordered.foldl addSymbol table

------------------------------------------------------------
-- Reference lists
------------------------------------------------------------

/- The kind that a line of a reference list starts with. -/
def kindOfLetter? : String → Option SymbolKind
  | "N" => some .nameSpace
  | "T" => some .type
  | "M" => some .method
  | "P" => some .property
  | "F" => some .field
  | "E" => some .event
  | _ => none

/-
  The kind and the name on a line.  A name without a kind is
  a type, and a signature in parentheses does not count.
-/
def readReference (line : String) : SymbolKind × String :=
  let (kind, name) :=
    match Text.splitOnce ':' line with
    | some (letter, rest) =>
      match kindOfLetter? letter with
      | some kind => (kind, rest)
      | none => (.type, line)
    | none => (.type, line)
  (kind, Text.trim (Text.before '(' name))

/- Add one line; a member without an owner is left out. -/
def addReference (table : SymbolTable) (line : String) : SymbolTable :=
  let (kind, name) := readReference line
  match kind with
  | .nameSpace => (table.addNamespace name).1
  | .type => (table.addType name).1
  | kind =>
    match Text.splitLast '.' name with
    | some (owner, member) => (table.addMember owner member kind).1
    | none => table

/- Blank lines and lines that start with a number sign say nothing. -/
def isReference (line : String) : Bool :=
  !line.isEmpty && !Text.hasStart "#" line

def ofReferenceList (text : String) : SymbolTable :=
  (((Text.lines text).map Text.trim).filter isReference).foldl
    addReference empty

end SymbolTable

end Retarget
