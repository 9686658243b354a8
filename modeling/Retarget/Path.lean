import Retarget.Text.Basic
import Retarget.Text.Case

/-
  This file defines slash-separated paths.  A path keeps its
  spelling; its components are what the spelling means:
  repeated and trailing slashes do not count, and a single
  dot counts only at the start of a relative path.

  Key definitions include:
    * `Path`
    * `Path.Component`
    * `Path.components`
    * `Path.order`
    * `Path.join`
    * `Path.parent?`
    * `Path.fileName?`
    * `Path.stripStart?`
    * `Path.normalize`
-/

namespace Retarget

------------------------------------------------------------
-- Paths and their components
------------------------------------------------------------

/- A path is kept as it was written. -/
structure Path where
  text : String
  deriving Repr, DecidableEq, Inhabited

namespace Path

inductive Component where
  | root
  | current
  | parent
  | normal (name : String)
  deriving Repr, DecidableEq, Inhabited

/-
  The segments of a spelling, without the slash that makes a
  path absolute.
-/
def segments (p : Path) : Bool × List String :=
  match p.text.toList with
  | '/' :: r => (true, (r.splitOn '/').map String.ofList)
  | cs => (false, (cs.splitOn '/').map String.ofList)

def isAbsolute (p : Path) : Bool :=
  p.segments.1

/- A segment that stands for no component inside a path. -/
def isIdle (s : String) : Bool :=
  s.isEmpty || s == "."

/- The component that a segment inside a path stands for. -/
def Component.ofSegment? (s : String) : Option Component :=
  if isIdle s then none
  else if s == ".." then some .parent
  else some (.normal s)

def components (p : Path) : List Component :=
  match p.segments with
  | (true, segs) => .root :: segs.filterMap Component.ofSegment?
  | (false, "." :: segs) =>
    .current :: segs.filterMap Component.ofSegment?
  | (false, segs) => segs.filterMap Component.ofSegment?

------------------------------------------------------------
-- Order and equality
------------------------------------------------------------

def Component.rank : Component → Nat
  | .root => 0
  | .current => 1
  | .parent => 2
  | .normal _ => 3

def Component.order (a b : Component) : Ordering :=
  match a, b with
  | .normal x, .normal y => Text.order x y
  | a, b => compare a.rank b.rank

/- Paths are ordered component by component. -/
def order (p q : Path) : Ordering :=
  List.compareLex Component.order p.components q.components

/- Two spellings of one path. -/
def same (p q : Path) : Bool :=
  p.components == q.components

def le (p q : Path) : Bool :=
  p.order q != .gt

/- Insert into a list that ascends, keeping one spelling of a path. -/
def insertSorted (p : Path) : List Path → List Path
  | [] => [p]
  | q :: r =>
    match p.order q with
    | .lt => p :: q :: r
    | .eq => q :: r
    | .gt => q :: insertSorted p r

def sort (ps : List Path) : List Path :=
  ps.mergeSort le

------------------------------------------------------------
-- Building and taking apart
------------------------------------------------------------

/- A path below another; an absolute path replaces the base. -/
def join (base rest : Path) : Path :=
  if rest.isAbsolute then rest
  else if base.text.isEmpty || Text.hasEnd "/" base.text then
    ⟨base.text ++ rest.text⟩
  else ⟨base.text ++ "/" ++ rest.text⟩

/- Extend a path by a file name. -/
def child (base : Path) (name : String) : Path :=
  base.join ⟨name⟩

def ofSegments (absolute : Bool) (segs : List String) : Path :=
  ⟨(if absolute then "/" else "") ++ Text.join "/" segs⟩

/-
  The segments up to the last one that counts.  A single dot
  at the start of a relative path counts.
-/
def dropIdleEnd (absolute : Bool) : List String → List String
  | [] => []
  | s :: r =>
    let rest := (r.reverse.dropWhile isIdle).reverse
    if !absolute && s == "." then s :: rest
    else if isIdle s && rest.isEmpty then []
    else s :: rest

/- The path without its last component. -/
def parent? (p : Path) : Option Path :=
  let (absolute, segs) := p.segments
  match dropIdleEnd absolute segs with
  | [] => none
  | kept =>
    some (ofSegments absolute (dropIdleEnd absolute kept.dropLast))

/- The last component, when it is a name. -/
def fileName? (p : Path) : Option String :=
  match p.components.getLast? with
  | some (.normal name) => some name
  | _ => none

def fileName (p : Path) : String :=
  p.fileName?.getD ""

/-
  Cut a file name at its last dot; a dot at the start is part
  of the name.
-/
def splitExtension (name : String) : String × Option String :=
  match Text.splitLast '.' name with
  | some ("", _) => (name, none)
  | some (stem, extension) => (stem, some extension)
  | none => (name, none)

def stem? (p : Path) : Option String :=
  p.fileName?.map fun name => (splitExtension name).1

def extension? (p : Path) : Option String :=
  p.fileName?.bind fun name => (splitExtension name).2

/- The last extension of a path in lower case. -/
def lowerExtension? (p : Path) : Option String :=
  p.extension?.map Text.lower

/- Every component of the first path starts the second. -/
def isStartOf (base p : Path) : Bool :=
  base.components.isPrefixOf p.components

/- Drop idle segments and then the segments of some components. -/
def dropComponents : Nat → List String → List String
  | 0, segs => segs.dropWhile isIdle
  | _ + 1, [] => []
  | n + 1, s :: r =>
    if isIdle s then dropComponents (n + 1) r
    else dropComponents n r

/- What remains of a path below one of its ancestors. -/
def stripStart? (base p : Path) : Option Path :=
  if base.isStartOf p then
    let (absolute, all) := p.segments
    let segs := dropIdleEnd absolute all
    match base.components with
    | [] => some (ofSegments absolute segs)
    | .root :: r => some (ofSegments false (dropComponents r.length segs))
    | .current :: r =>
      some (ofSegments false (dropComponents r.length (segs.drop 1)))
    | r => some (ofSegments false (dropComponents r.length segs))
  else none

------------------------------------------------------------
-- Folding
------------------------------------------------------------

/- The text of one component. -/
def Component.text : Component → String
  | .root => ""
  | .current => "."
  | .parent => ".."
  | .normal name => name

def ofComponents : List Component → Path
  | .root :: r => ofSegments true (r.map Component.text)
  | cs => ofSegments false (cs.map Component.text)

/-
  Walk one component further from a folded path, whose
  components are given from the last to the first.  Nothing
  lies above the root.
-/
def fold (walked : List Component) : Component → List Component
  | .current => walked
  | .parent =>
    match walked with
    | .normal _ :: r => r
    | .root :: r => .root :: r
    | r => .parent :: r
  | c => c :: walked

/- The path without single dots and without steps back. -/
def normalize (p : Path) : Path :=
  ofComponents (p.components.foldl fold []).reverse

end Path

end Retarget
