import Retarget.Analysis.Diagnostic
import Retarget.Analysis.Compilation

/-
  This file defines the analyzers.  An analyzer is started on
  a compilation, where it loads its tables, and is then shown
  every name of every source file.

  Key definitions include:
    * `NodeContext`
    * `Resolution.confirms`
    * `ApiAlert.analyze`
    * `Mapping.analyze`
    * `Interop.analyze`
    * `Analyzer`
    * `Analyzer.start?`
    * `NodeAnalyzer.analyze`
-/

namespace Retarget

------------------------------------------------------------
-- Names in their surroundings
------------------------------------------------------------

/- A name with the model of the file that it is in. -/
structure NodeContext where
  model : SemanticModel
  node : NameNode

namespace NodeContext

def tree (c : NodeContext) : SourceTree :=
  c.model.tree

def language (c : NodeContext) : Language :=
  c.tree.language

def resolution (c : NodeContext) : Resolution :=
  c.model.resolve c.node

end NodeContext

/-
  A name that stands for a known symbol is flagged only for
  that symbol.
-/
def Resolution.confirms
    (resolution : Resolution)
    (matcher : NameMatcher)
    (otherwise : Bool) : Bool :=
  match resolution with
  | .resolved symbol => matcher.matchesSymbol symbol
  | _ => otherwise

def upgradeCategory : String := "Upgrade"

/- Entries by the key under which names look for them. -/
abbrev NameIndex (α : Type) := Dictionary (List α)

namespace NameIndex

variable {α : Type}

def add (index : NameIndex α) (key : String) (entry : α) : NameIndex α :=
  index.insert key ((index.find? key).getD [] ++ [entry])

def ofEntries (key : α → String) (entries : List α) : NameIndex α :=
  entries.foldl (fun index e => add index (key e) e) Dictionary.empty

def candidates (index : NameIndex α) (key : String) : List α :=
  (index.find? key).getD []

end NameIndex

/-
  The key of a name that may end in the suffix of attribute
  types: the name in lower case, without the suffix unless
  nothing else is left.
-/
def attributeKey (simpleName : String) : String :=
  let key := Text.lower simpleName
  match Text.stripEnd? "attribute" key with
  | some stem => if stem.isEmpty then key else stem
  | none => key

------------------------------------------------------------
-- Alerts about single APIs
------------------------------------------------------------

namespace ApiAlert

def diagnosticId (ruleId : String) : String :=
  apiAlertBaseId ++ "_" ++ ruleId

def descriptor (ruleId : String) : DiagnosticDescriptor :=
  { id := diagnosticId ruleId
    title := "Unsupported API: " ++ ruleId
    category := upgradeCategory
    severity := .warning }

/- A target with the rule that it belongs to and its number. -/
structure Entry where
  number : Nat
  rule : ApiRule
  target : ApiTarget
  deriving Repr

def entries (rules : List ApiRule) : List Entry :=
  (rules.zipIdx.flatMap fun (rule, i) =>
    rule.targets.map fun t => ⟨i, rule, t⟩)

def Entry.key (e : Entry) : String :=
  attributeKey e.target.simpleName

/-
  The name is written like the target.  A member is known by
  its own name, since what it is a member of is often an
  expression.
-/
def isWrittenLike (c : NodeContext) (target : ApiTarget) : Bool :=
  match target.kind with
  | .member =>
    c.node.isMemberAccess &&
      c.language.namesEqual c.node.simpleName target.simpleName
  | _ =>
    !(c.node.isMemberAccess && c.node.qualifier.isNone) &&
      (attributeForms c.node.qualifiedName).any fun w =>
        isNameSuffix w target.fullName c.language

/- The target is to be reported at the name. -/
def flags (c : NodeContext) (resolution : Resolution) (target : ApiTarget) : Bool :=
  isWrittenLike c target &&
    resolution.confirms target.matcher target.alertOnAmbiguous

def report (c : NodeContext) (e : Entry) : Diagnostic :=
  let span :=
    match e.target.kind with
    | .member => c.node.span
    | _ => c.node.fullSpan
  .ofDescriptor (descriptor e.rule.id) e.rule.message
    (.inTree c.tree span) .explainOnly

/- Report each rule once, for its first target that is flagged. -/
def reportAll
    (c : NodeContext)
    (resolution : Resolution)
    (reported : List Nat) : List Entry → List Diagnostic
  | [] => []
  | e :: rest =>
    if !reported.contains e.number && flags c resolution e.target then
      report c e :: reportAll c resolution (e.number :: reported) rest
    else reportAll c resolution reported rest

def analyze (index : NameIndex Entry) (c : NodeContext) : List Diagnostic :=
  match NameIndex.candidates index (attributeKey c.node.simpleName) with
  | [] => []
  | found => reportAll c c.resolution [] found

end ApiAlert

------------------------------------------------------------
-- Renamed types and attributes
------------------------------------------------------------

namespace Mapping

/- What names a renaming is looked for in. -/
inductive Mode where
  | types
  | attributes
  deriving Repr, DecidableEq

def Mode.descriptor : Mode → DiagnosticDescriptor
  | .types =>
    ⟨typeUpgradeId, "Types should be upgraded", upgradeCategory, .warning⟩
  | .attributes =>
    ⟨attributeUpgradeId, "Attributes should be upgraded",
      upgradeCategory, .warning⟩

/- The key of a renaming; an attribute's suffix does not count. -/
def entryKey (mode : Mode) (m : TypeMapping) : String :=
  let key := Text.lower m.simpleName
  match mode with
  | .types => key
  | .attributes => (Text.stripEnd? "attribute" key).getD key

/- The key of a written name. -/
def writtenKey (mode : Mode) (simpleName : String) : String :=
  match mode with
  | .types => Text.lower simpleName
  | .attributes => attributeKey simpleName

/- The names that a written name can stand for. -/
def writtenForms (mode : Mode) (node : NameNode) : List String :=
  match mode with
  | .types => [node.qualifiedName]
  | .attributes => attributeForms node.qualifiedName

/- Attribute names are the concern of one mode only. -/
def appliesTo (mode : Mode) (context : NameContext) : Bool :=
  match mode, context with
  | .attributes, .attribute => true
  | .attributes, _ => false
  | .types, .attribute => false
  | .types, .imported => false
  | .types, _ => true

def message (mode : Mode) (m : TypeMapping) : String :=
  let kind :=
    match mode with
    | .types => "Type"
    | .attributes => "Attribute"
  match m.newName with
  | some newName =>
    kind ++ " '" ++ m.oldName ++ "' should be replaced with '" ++
      newName ++ "'"
  | none =>
    kind ++ " '" ++ m.oldName ++
      "' has no replacement and should be removed"

def hint (mode : Mode) (m : TypeMapping) : FixHint :=
  match m.newName, mode with
  | some newName, .types => .replaceIdentifier newName
  | some newName, .attributes => .replaceAttribute newName
  | none, _ => .explainOnly

/- The namespace of the old name is imported. -/
def isImported (c : NodeContext) (m : TypeMapping) : Bool :=
  (namespaceOf? m.oldName).any c.tree.hasImport

/-
  The old name is to be reported at the name.  A dotted name
  in an expression counts only when it is the whole old name,
  and a name that nothing is known about only when it is the
  whole old name or its namespace is imported.
-/
def flags
    (mode : Mode)
    (c : NodeContext)
    (resolution : Resolution)
    (m : TypeMapping) : Bool :=
  let forms := writtenForms mode c.node
  let spelledOut := forms.any fun w => c.language.namesEqual w m.oldName
  (!c.node.isMemberAccess || spelledOut) &&
    (forms.any fun w => isNameSuffix w m.oldName c.language) &&
    match resolution with
    | .unresolved =>
      spelledOut || (c.node.qualifier.isNone && isImported c m)
    | known => known.confirms (.forType m.oldName) true

def report (mode : Mode) (c : NodeContext) (m : TypeMapping) : Diagnostic :=
  .ofDescriptor mode.descriptor (message mode m)
    (.inTree c.tree c.node.fullSpan) (hint mode m)

/- Renamings from an imported namespace come first. -/
def preferred (c : NodeContext) (ms : List TypeMapping) : List TypeMapping :=
  ms.filter (isImported c) ++ ms.filter fun m => !isImported c m

/- Report the first renaming that is flagged. -/
def analyze
    (mode : Mode)
    (index : NameIndex TypeMapping)
    (c : NodeContext) : List Diagnostic :=
  if appliesTo mode c.node.context then
    match NameIndex.candidates index (writtenKey mode c.node.simpleName) with
    | [] => []
    | found =>
      let resolution := c.resolution
      (((preferred c found).find? (flags mode c resolution)).map
        (report mode c)).toList
  else []

end Mapping

------------------------------------------------------------
-- Interop APIs
------------------------------------------------------------

/- An API that needs a window handle in a desktop program. -/
structure InteropApi where
  typeName : String
  member : String
  replacement : String
  deriving Repr, DecidableEq, Inhabited

namespace Interop

def documentationUrl : String :=
  "https://learn.microsoft.com/windows/apps/develop/ui-input/" ++
    "display-ui-objects#winrt-classes-that-use-iinitializewithwindow"

def builtin : List InteropApi :=
  [ ⟨"Windows.ApplicationModel.DataTransfer.DataTransferManager",
      "GetForCurrentView", "DataTransferManagerInterop.GetForWindow"⟩,
    ⟨"Windows.Graphics.Printing.PrintManager",
      "GetForCurrentView", "PrintManagerInterop.GetForWindow"⟩,
    ⟨"Windows.Media.PlayTo.PlayToManager",
      "GetForCurrentView", "PlayToManagerInterop.GetForWindow"⟩,
    ⟨"Windows.UI.ViewManagement.InputPane",
      "GetForCurrentView", "InputPaneInterop.GetForWindow"⟩,
    ⟨"Windows.UI.ViewManagement.UIViewSettings",
      "GetForCurrentView", "UIViewSettingsInterop.GetForWindow"⟩,
    ⟨"Windows.UI.ApplicationSettings.AccountsSettingsPane",
      "GetForCurrentView", "AccountsSettingsPaneInterop.GetForWindow"⟩,
    ⟨"Windows.Security.Authentication.Web.Core." ++
        "WebAuthenticationCoreManager",
      "RequestTokenAsync",
      "WebAuthenticationCoreManagerInterop." ++
        "RequestTokenForWindowAsync"⟩ ]

def descriptor : DiagnosticDescriptor :=
  ⟨interopApiId, "UWP APIs that need a window handle on the desktop",
    upgradeCategory, .warning⟩

def matcher (api : InteropApi) : NameMatcher :=
  .forMember api.typeName api.member

def message (api : InteropApi) : String :=
  api.typeName ++ "." ++ api.member ++
    " is bound to a CoreWindow and is not available to desktop apps." ++
    " Use " ++ api.replacement ++ " with the window handle instead."

def isWrittenLike
    (c : NodeContext)
    (qualifier : String)
    (api : InteropApi) : Bool :=
  c.language.namesEqual c.node.simpleName api.member &&
    isNameSuffix qualifier api.typeName c.language

/- Report the first API that is written like the name. -/
def analyze (apis : List InteropApi) (c : NodeContext) : List Diagnostic :=
  if c.node.isMemberAccess then
    match c.node.qualifier with
    | none => []
    | some qualifier =>
      match apis.find? (isWrittenLike c qualifier) with
      | some api =>
        if c.resolution.confirms (matcher api) true then
          [.ofDescriptor descriptor (message api)
            (.inTree c.tree c.node.fullSpan)
            (FixHint.explainOnly.withDocumentationUrl documentationUrl)]
        else []
      | none => []
  else []

end Interop

------------------------------------------------------------
-- Analyzers
------------------------------------------------------------

inductive Analyzer where
  /- Alerts, with rules in the place of the built-in ones. -/
  | apiAlert (rules : Option (List ApiRule))
  | typeUpgrade
  | attributeUpgrade
  | interopApi
  deriving Repr

/- An analyzer that has loaded its tables. -/
inductive NodeAnalyzer where
  | alerts (index : NameIndex ApiAlert.Entry)
  | mappings (mode : Mapping.Mode) (index : NameIndex TypeMapping)
  | interop (apis : List InteropApi)

namespace Analyzer

def name : Analyzer → String
  | .apiAlert _ => "api-alert"
  | .typeUpgrade => "type-upgrade"
  | .attributeUpgrade => "attribute-upgrade"
  | .interopApi => "interop-api"

/- Several files may be analyzed at the same time. -/
def isConcurrent : Analyzer → Bool
  | _ => true

/- All analyzers, with the rules that alerts are raised for. -/
def allWith (rules : Option (List ApiRule)) : List Analyzer :=
  [.apiAlert rules, .typeUpgrade, .attributeUpgrade, .interopApi]

/- The analyzers that run unless others are asked for. -/
def builtin : List Analyzer :=
  allWith none

/- The analyzer with a name. -/
def named? (rules : Option (List ApiRule)) (name : String) : Option Analyzer :=
  (allWith rules).find? fun a => a.name == name

def ownRules (rules : Option (List ApiRule)) : List ApiRule :=
  rules.getD ApiRule.builtin

def descriptors : Analyzer → List DiagnosticDescriptor
  | .apiAlert rules =>
    (ownRules rules).map fun r => ApiAlert.descriptor r.id
  | .typeUpgrade => [Mapping.Mode.types.descriptor]
  | .attributeUpgrade => [Mapping.Mode.attributes.descriptor]
  | .interopApi => [Interop.descriptor]

/- The renamings of a mode, in the order of their old names. -/
def startMapping
    (mode : Mapping.Mode)
    (mappings : List TypeMapping) : Option NodeAnalyzer :=
  if mappings.isEmpty then none
  else
    some (.mappings mode
      (NameIndex.ofEntries (Mapping.entryKey mode) mappings))

/- Load the tables; without any entries there is nothing to do. -/
def start? (analyzer : Analyzer) (c : Compilation) : Option NodeAnalyzer :=
  match analyzer with
  | .apiAlert rules =>
    let all := ownRules rules ++ ApiRule.ofFiles c.additional
    if all.isEmpty then none
    else
      some (.alerts
        (NameIndex.ofEntries ApiAlert.Entry.key (ApiAlert.entries all)))
  | .typeUpgrade =>
    startMapping .types (TypeMap.load c.additional).mappings
  | .attributeUpgrade =>
    startMapping .attributes (TypeMap.load c.additional).attributes
  | .interopApi => some (.interop Interop.builtin)

end Analyzer

/- What an analyzer reports at a name. -/
def NodeAnalyzer.analyze (a : NodeAnalyzer) (c : NodeContext) : List Diagnostic :=
  match a with
  | .alerts index => ApiAlert.analyze index c
  | .mappings mode index => Mapping.analyze mode index c
  | .interop apis => Interop.analyze apis c

end Retarget
