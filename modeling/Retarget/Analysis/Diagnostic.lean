import Retarget.Source.Tree
import Retarget.Analysis.FixHint

/-
  This file defines diagnostics, their places and the order
  in which they are reported.

  Key definitions include:
    * `Severity`
    * `Location`
    * `DiagnosticDescriptor`
    * `Diagnostic`
    * `Diagnostic.text`
    * `Diagnostic.le`
    * `Diagnostic.arrange`
-/

namespace Retarget

inductive Severity where
  | info
  | warning
  | error
  deriving Repr, DecidableEq, Inhabited

namespace Severity

def title : Severity → String
  | .info => "info"
  | .warning => "warning"
  | .error => "error"

def ofTitle? : String → Option Severity
  | "info" => some .info
  | "warning" => some .warning
  | "error" => some .error
  | _ => none

end Severity

------------------------------------------------------------
-- Places
------------------------------------------------------------

structure Location where
  path : Path
  span : Span
  line : Nat
  column : Nat
  deriving Repr, DecidableEq, Inhabited

namespace Location

def inTree (tree : SourceTree) (span : Span) : Location :=
  let (line, column) := tree.lineColumn span.start
  ⟨tree.path, span, line, column⟩

def text (l : Location) : String :=
  l.path.text ++ ":" ++ toString l.line ++ ":" ++ toString l.column

/- The same place, whatever the spelling of the path. -/
def same (a b : Location) : Bool :=
  a.path.same b.path && a.span == b.span && a.line == b.line &&
    a.column == b.column

end Location

------------------------------------------------------------
-- Diagnostics
------------------------------------------------------------

/- What an analyzer can report. -/
structure DiagnosticDescriptor where
  id : String
  title : String
  category : String
  severity : Severity
  deriving Repr, DecidableEq, Inhabited

structure Diagnostic where
  id : String
  message : String
  severity : Severity
  location : Location
  properties : Dictionary String
  deriving Repr, DecidableEq, Inhabited

namespace Diagnostic

def ofDescriptor
    (descriptor : DiagnosticDescriptor)
    (message : String)
    (location : Location)
    (hint : FixHint) : Diagnostic :=
  { id := descriptor.id
    message := message
    severity := descriptor.severity
    location := location
    properties := hint.toProperties }

def fixHint (d : Diagnostic) : Except AnalysisError FixHint :=
  FixHint.ofProperties d.id d.properties

/- The line that shows a diagnostic. -/
def text (d : Diagnostic) : String :=
  d.location.text ++ ": " ++ d.severity.title ++ " " ++ d.id ++ ": " ++
    d.message

------------------------------------------------------------
-- Order
------------------------------------------------------------

/- Diagnostics are ordered by file, start and id. -/
def order (a b : Diagnostic) : Ordering :=
  ((a.location.path.order b.location.path).then
    (compare a.location.span.start b.location.span.start)).then
    (Text.order a.id b.id)

def le (a b : Diagnostic) : Bool :=
  a.order b != .gt

def same (a b : Diagnostic) : Bool :=
  a.id == b.id && a.message == b.message && a.severity == b.severity &&
    a.location.same b.location && a.properties == b.properties

/- Drop each element that is the same as the one before it. -/
def dropRepeats : List Diagnostic → List Diagnostic
  | [] => []
  | [d] => [d]
  | a :: b :: r =>
    match dropRepeats (b :: r) with
    | [] => [a]
    | c :: r' => if a.same c then a :: r' else a :: c :: r'

/- Sort diagnostics and report each of them once. -/
def arrange (ds : List Diagnostic) : List Diagnostic :=
  dropRepeats (ds.mergeSort le)

end Diagnostic

end Retarget
