import Retarget.Dictionary
import Retarget.Rule.NameMatch
import Retarget.Analysis.Error

/-
  This file defines renamings of types and reads tables of
  them.  A line of a table holds an old name and a new one,
  or an old name alone when the type has no replacement.

  Key definitions include:
    * `TypeMapping`
    * `TypeMapping.parseTable`
    * `TypeMap`
    * `TypeMap.extend`
-/

namespace Retarget

------------------------------------------------------------
-- Renamings
------------------------------------------------------------

structure TypeMapping where
  oldName : String
  newName : Option String
  deriving Repr, DecidableEq, Inhabited

namespace TypeMapping

def simpleName (m : TypeMapping) : String :=
  lastPart m.oldName

def newSimpleName? (m : TypeMapping) : Option String :=
  m.newName.map lastPart

def newNamespace? (m : TypeMapping) : Option String :=
  m.newName.bind namespaceOf?

def isAttribute (m : TypeMapping) : Bool :=
  Text.hasEnd "Attribute" m.simpleName

------------------------------------------------------------
-- Tables
------------------------------------------------------------

/- The words of a line. -/
def columns (line : String) : List String :=
  (Text.splitWhere Text.isBlank line).filter fun w => !w.isEmpty

/-
  Read one line, given its number.  Blank lines and lines
  that start with a number sign say nothing.
-/
def parseLine
    (number : Nat)
    (line : String) : Except String (Option TypeMapping) :=
  let line := Text.trim line
  if line.isEmpty || Text.hasStart "#" line then .ok none
  else
    match columns line with
    | [old] => .ok (some ⟨old, none⟩)
    | [old, new] => .ok (some ⟨old, some new⟩)
    | words =>
      .error ("line " ++ toString number ++
        ": expected one or two columns, found " ++
        toString words.length)

def parseLines (number : Nat) :
    List String → Except String (List TypeMapping)
  | [] => .ok []
  | line :: rest => do
    let mapping ← parseLine number line
    return mapping.toList ++ (← parseLines (number + 1) rest)

def parseTable
    (path : Path)
    (text : String) : Except AnalysisError (List TypeMapping) :=
  match parseLines 1 (Text.lines text) with
  | .ok mappings => .ok mappings
  | .error details => .error (.mappingFile path details)

end TypeMapping

------------------------------------------------------------
-- Maps
------------------------------------------------------------

/- Renamings by old name; a later one replaces an earlier one. -/
abbrev TypeMap := Dictionary TypeMapping

namespace TypeMap

def extend (map : TypeMap) (mappings : List TypeMapping) : TypeMap :=
  mappings.foldl (fun map m => map.insert m.oldName m) map

def mappings (map : TypeMap) : List TypeMapping :=
  map.values

def attributes (map : TypeMap) : List TypeMapping :=
  (mappings map).filter TypeMapping.isAttribute

end TypeMap

end Retarget
