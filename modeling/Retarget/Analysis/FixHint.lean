import Retarget.Dictionary
import Retarget.Analysis.Error

/-
  This file defines what a diagnostic tells a fixer, and the
  bag of texts that it is carried in.

  Key definitions include:
    * `FixKind`
    * `FixHint`
    * `FixHint.toProperties`
    * `FixHint.ofProperties`
-/

namespace Retarget

/- The ids of the diagnostics that the analyzers report. -/
def typeUpgradeId : String := "UA0002"

def attributeUpgradeId : String := "UA0010"

def apiAlertBaseId : String := "UA0013"

def interopApiId : String := "UA0014"

------------------------------------------------------------
-- Kinds
------------------------------------------------------------

inductive FixKind where
  | replaceIdentifier
  | replaceAttribute
  | explainOnly
  deriving Repr, DecidableEq, Inhabited

namespace FixKind

def title : FixKind → String
  | .replaceIdentifier => "ReplaceIdentifier"
  | .replaceAttribute => "ReplaceAttribute"
  | .explainOnly => "ExplainOnly"

def ofTitle? : String → Option FixKind
  | "ReplaceIdentifier" => some .replaceIdentifier
  | "ReplaceAttribute" => some .replaceAttribute
  | "ExplainOnly" => some .explainOnly
  | _ => none

def unknownMessage (title : String) : String :=
  "unknown fix kind '" ++ title ++ "'"

/- The fix puts a new name in the place of the flagged one. -/
def replaces : FixKind → Bool
  | .explainOnly => false
  | _ => true

theorem ofTitle?_title
    (kind : FixKind) :
    ofTitle? kind.title = some kind := by
  cases kind <;> rfl

/- The kinds of a diagnostic; an unknown diagnostic has all. -/
def allowedFor (id : String) : List FixKind :=
  if id == typeUpgradeId then [.replaceIdentifier, .explainOnly]
  else if id == attributeUpgradeId then [.replaceAttribute, .explainOnly]
  else if id == interopApiId || Text.hasStart apiAlertBaseId id then
    [.explainOnly]
  else [.replaceIdentifier, .replaceAttribute, .explainOnly]

end FixKind

------------------------------------------------------------
-- Hints
------------------------------------------------------------

structure FixHint where
  kind : FixKind
  newIdentifier : Option String
  documentationUrl : Option String
  deriving Repr, DecidableEq, Inhabited

namespace FixHint

def kindKey : String := "FixKind"

def newIdentifierKey : String := "NewIdentifier"

def documentationUrlKey : String := "DocumentationUrl"

def replaceIdentifier (name : String) : FixHint :=
  ⟨.replaceIdentifier, some name, none⟩

def replaceAttribute (name : String) : FixHint :=
  ⟨.replaceAttribute, some name, none⟩

def explainOnly : FixHint :=
  ⟨.explainOnly, none, none⟩

def withDocumentationUrl (hint : FixHint) (url : String) : FixHint :=
  { hint with documentationUrl := some url }

def toProperties (hint : FixHint) : Dictionary String :=
  Dictionary.ofList <|
    [(kindKey, hint.kind.title)] ++
      (hint.newIdentifier.map fun n => (newIdentifierKey, n)).toList ++
      (hint.documentationUrl.map fun u => (documentationUrlKey, u)).toList

/- Refuse a value that is present where none belongs. -/
def refuse
    (id key : String)
    (value : Option String) : Except AnalysisError Unit :=
  match value with
  | some value => .error (.invalidProperty id key value)
  | none => .ok ()

/-
  Read the bag of a diagnostic.  A replacing hint has a name
  that is not empty, another has none; an alert has no link
  and a window-handle warning has one.
-/
def ofProperties
    (id : String)
    (properties : Dictionary String) : Except AnalysisError FixHint := do
  let kindText ←
    match properties.find? kindKey with
    | some text => Except.ok text
    | none => .error (.missingProperty id kindKey)
  let kind ←
    match (FixKind.ofTitle? kindText).filter
        (FixKind.allowedFor id).contains with
    | some kind => Except.ok kind
    | none => .error (.invalidProperty id kindKey kindText)
  let newIdentifier := properties.find? newIdentifierKey
  let documentationUrl := properties.find? documentationUrlKey
  if kind.replaces then
    if (newIdentifier.getD "").isEmpty then
      throw (.missingProperty id newIdentifierKey)
  else refuse id newIdentifierKey newIdentifier
  if Text.hasStart (apiAlertBaseId ++ "_") id then
    refuse id documentationUrlKey documentationUrl
  if id == interopApiId && documentationUrl.isNone then
    throw (.missingProperty id documentationUrlKey)
  return ⟨kind, newIdentifier, documentationUrl⟩

end FixHint

end Retarget
