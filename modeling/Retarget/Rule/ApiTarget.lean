import Retarget.Json.Reader
import Retarget.Rule.NameMatch
import Retarget.Analysis.Error

/-
  This file defines the rules that warn about single APIs,
  and reads tables of them.  A table is a JSON array of
  rules in which arrays and objects may end with a comma.

  Key definitions include:
    * `TargetKind`
    * `ApiTarget`
    * `ApiRule`
    * `stripTrailingCommas`
    * `ApiRule.parseTable`
-/

namespace Retarget

open Json

------------------------------------------------------------
-- Rules
------------------------------------------------------------

inductive TargetKind where
  | nameSpace
  | type
  | member
  deriving Repr, DecidableEq, Inhabited

namespace TargetKind

def title : TargetKind → String
  | .nameSpace => "Namespace"
  | .type => "Type"
  | .member => "Member"

/- Read a kind in any letter case, blanks around it aside. -/
def parse (text : String) : Except String TargetKind :=
  match Text.lower (Text.trim text) with
  | "namespace" => .ok .nameSpace
  | "type" => .ok .type
  | "member" => .ok .member
  | other =>
    .error ("unknown syntax type '" ++ other ++
      "', expected Namespace, Type or Member")

end TargetKind

/- An API that a rule is about. -/
structure ApiTarget where
  fullName : String
  kind : TargetKind
  alertOnAmbiguous : Bool
  deriving Repr, DecidableEq, Inhabited

namespace ApiTarget

def simpleName (t : ApiTarget) : String :=
  lastPart t.fullName

def matcher (t : ApiTarget) : NameMatcher :=
  match t.kind with
  | .member => .forMemberName t.fullName
  | _ => .forType t.fullName

end ApiTarget

structure ApiRule where
  id : String
  targets : List ApiTarget
  message : String
  deriving Repr, DecidableEq, Inhabited

------------------------------------------------------------
-- Trailing commas
------------------------------------------------------------

/- Whether the scan is inside a string literal. -/
inductive LiteralState where
  | outside
  | inside
  | escaped
  deriving Repr, DecidableEq

/- The next character that is no blank closes a bracket. -/
def closesNext (cs : List Char) : Bool :=
  match cs.dropWhile Text.isBlank with
  | ']' :: _ => true
  | '}' :: _ => true
  | _ => false

/-
  Drop the commas in front of closing brackets; string
  literals are left alone.
-/
def stripCommas (state : LiteralState) : List Char → List Char
  | [] => []
  | c :: r =>
    match state with
    | .escaped => c :: stripCommas .inside r
    | .inside =>
      if c == '\\' then c :: stripCommas .escaped r
      else if c == '"' then c :: stripCommas .outside r
      else c :: stripCommas .inside r
    | .outside =>
      if c == '"' then c :: stripCommas .inside r
      else if c == ',' && closesNext r then stripCommas .outside r
      else c :: stripCommas .outside r

def stripTrailingCommas (text : String) : String :=
  String.ofList (stripCommas .outside text.toList)

------------------------------------------------------------
-- Reading tables
------------------------------------------------------------

def TargetKind.reader : Reader TargetKind := do
  match TargetKind.parse (← readText) with
  | .ok kind => return kind
  | .error reason => throw (.refused reason)

def ApiTarget.reader : Reader ApiTarget := do
  let fields ← readRecord
    ["FullName", "SyntaxType", "AlertOnAmbiguousMatch"]
    (fun name (t : ApiTarget) => do
      if name == "FullName" then
        return { t with fullName := (← readText) }
      else if name == "SyntaxType" then
        return { t with kind := (← TargetKind.reader) }
      else return { t with alertOnAmbiguous := (← readBool) })
    default
  fields.require ["FullName", "SyntaxType"]

def ApiRule.reader : Reader ApiRule := do
  let fields ← readRecord
    ["Id", "TargetSyntaxes", "Message"]
    (fun name (r : ApiRule) => do
      if name == "Id" then return { r with id := (← readText) }
      else if name == "TargetSyntaxes" then
        return { r with targets := (← readArray ApiTarget.reader) }
      else return { r with message := (← readText) })
    default
  fields.require ["Id", "TargetSyntaxes", "Message"]

namespace ApiRule

/- What is wrong with a rule that was read, if anything. -/
def defect? (rule : ApiRule) : Option String :=
  if Text.isBlankText rule.id then some "rule without an Id"
  else
    (rule.targets.find? fun t => Text.isBlankText t.fullName).map fun t =>
      "rule " ++ rule.id ++ " has a target without a FullName (" ++
        t.kind.title ++ ")"

/-
  Read a table.  The first fault of the text counts before
  the first defect of a rule.
-/
def parseTable
    (path : Path)
    (text : String) : Except AnalysisError (List ApiRule) :=
  match readWhole (readArray reader) (stripTrailingCommas text) with
  | .error (.refused reason) => .error (.mappingFile path reason)
  | .error .malformed => .error (.mappingFile path "invalid JSON")
  | .ok rules =>
    match rules.findSome? defect? with
    | some defect => .error (.mappingFile path defect)
    | none => .ok rules

end ApiRule

/- A path ends in an extension, up to the case of ASCII letters. -/
def hasExtension (path : Path) (extension : String) : Bool :=
  path.extension?.any (Text.equalsIgnoringAsciiCase extension)

end Retarget
