import Retarget.Source.Language
import Retarget.Source.CSharp.Collector
import Retarget.Source.VisualBasic.Parts
import Retarget.Analysis.Error

/-
  This file defines a source file as the analyzers see it:
  its text, the lines of the text, and the report of the
  front end of its language.

  Key definitions include:
    * `SourceTree`
    * `SourceTree.ofVisualBasic`
    * `SourceTree.parse`
    * `SourceTree.lineColumn`
    * `SourceTree.importInsertionPoint`
    * `SourceTree.enclosingNamespaces`
    * `SourceTree.nameAt?`
-/

namespace Retarget

structure SourceTree where
  path : Path
  language : Language
  text : String
  parts : SourceParts
  deriving Repr, Inhabited

namespace SourceTree

------------------------------------------------------------
-- Reading
------------------------------------------------------------

def ofVisualBasic (path : Path) (text : String) : SourceTree :=
  ⟨path, .visualBasic, text, VisualBasic.parts text⟩

def parseWith
    [CSharp.Grammar]
    (language : Language)
    (path : Path)
    (text : String) : SourceTree :=
  match language with
  | .cSharp => ⟨path, .cSharp, text, CSharp.parts text⟩
  | .visualBasic => ofVisualBasic path text

/- Read a file in the language that its extension names. -/
def parse
    [CSharp.Grammar]
    (path : Path)
    (text : String) : Except AnalysisError SourceTree :=
  match Language.ofPath? path with
  | some language => .ok (parseWith language path text)
  | none =>
    .error (.unparsable path "not a C# or Visual Basic source file")

variable (tree : SourceTree)

def names : List NameNode :=
  tree.parts.names

def imports : List String :=
  tree.parts.imports

def declarations : List TypeDeclaration :=
  tree.parts.declarations

def namespaces : List NamespaceScope :=
  tree.parts.namespaces

def chars : List Char :=
  tree.text.toList

def length : Nat :=
  Text.byteLength tree.chars

------------------------------------------------------------
-- Places in the text
------------------------------------------------------------

/- The offsets at which lines start: at 0 and after newlines. -/
def lineStarts : List Nat :=
  0 :: (Text.countedFrom 0 tree.chars).filterMap fun (i, c) =>
    if c == '\n' then some (i + 1) else none

def linesUpTo (offset : Nat) : List Nat :=
  tree.lineStarts.takeWhile (· ≤ offset)

/- The start of the line that holds an offset. -/
def lineStart (offset : Nat) : Nat :=
  (tree.linesUpTo offset).getLast?.getD 0

/- The line and the column of an offset, each counted from one. -/
def lineColumn (offset : Nat) : Nat × Nat :=
  ((tree.linesUpTo offset).length, offset - tree.lineStart offset + 1)

/- The text from an offset on. -/
def textFrom (offset : Nat) : List Char :=
  ((Text.cutAt? offset tree.chars).map Prod.snd).getD []

/- The spaces and tabs at the start of an offset's line. -/
def indentationAt (offset : Nat) : String :=
  String.ofList <|
    (tree.textFrom (tree.lineStart offset)).takeWhile fun c =>
      c == ' ' || c == '\t'

/- The text of a span that lies in the text, else nothing. -/
def textAt (span : Span) : String :=
  String.ofList ((Text.slice? span.start span.stop tree.chars).getD [])

------------------------------------------------------------
-- Namespaces, imports and names
------------------------------------------------------------

/- The namespaces around an offset, the innermost first. -/
def enclosingNamespaces (offset : Nat) : List String :=
  let around := tree.namespaces.filter fun s => s.span.Contains offset
  (around.mergeSort fun s t => s.span.start ≥ t.span.start).map
    NamespaceScope.name

/- The end of the last import directive. -/
def importEnd? : Option Nat :=
  (tree.parts.importSpans.map Span.stop).max?

/-
  Where a new import goes: behind the line of the last one,
  or at the top of the file.
-/
def importInsertionPoint : Nat :=
  match tree.importEnd? with
  | none => 0
  | some stop =>
    match Text.cutWhere? (· == '\n') (tree.textFrom stop) with
    | some (before, _) => stop + Text.byteLength before + 1
    | none => tree.length

def hasImport (target : String) : Bool :=
  tree.imports.any fun i => tree.language.namesEqual i target

/- The first name with a span as its own or as its full span. -/
def nameAt? (span : Span) : Option NameNode :=
  tree.names.find? fun n => n.fullSpan == span || n.span == span

end SourceTree

end Retarget
