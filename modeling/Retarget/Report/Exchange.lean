import Retarget.Analysis.Diagnostic
import Retarget.Component.Basic
import Retarget.Framework.Moniker
import Retarget.Package.Version
import Retarget.Project.Reference
import Retarget.Report.Value
import Retarget.Rule.ApiTarget
import Retarget.Settings

/-
  This file defines how values of the library are passed to
  other programs, and how they are read back.

  Key definitions include:
    * `Exchange`
    * `Exchange.again`
    * `Moniker.exchange`
    * `PackageVersion.exchange`
    * `ComponentSet.exchange`
    * `ApiRule.exchange`
    * `Diagnostic.exchange`
-/

namespace Retarget

open Json (Reader readText readNat readOption readMap readRecord readChoice)

/- How the values of a type are written and read. -/
structure Exchange (α : Type) where
  write : α → Value
  read : Reader α

namespace Exchange

variable {α : Type}

/- What is written for the value that a JSON text stands for. -/
def again (e : Exchange α) (text : String) : Except Json.ReadError Value :=
  (Json.readWhole e.read text).map e.write

/- Values that are written as texts, some of which stand for none. -/
def ofText
    (text : α → String)
    (parse? : String → Option α)
    (refusal : String → String) : Exchange α where
  write := fun a => .text (text a)
  read := do
    let s ← readText
    match parse? s with
    | some a => return a
    | none => throw (.refused (refusal s))

/- Values with names. -/
def ofChoice
    (name : α → String)
    (ofName? : String → Option α) : Exchange α where
  write := fun a => .text (name a)
  read := readChoice ofName?

end Exchange

------------------------------------------------------------
-- Values that are texts
------------------------------------------------------------

def Moniker.exchange : Exchange Moniker :=
  .ofText Moniker.name Moniker.parse? Moniker.invalidMessage

def PackageVersion.exchange : Exchange PackageVersion :=
  .ofText PackageVersion.text PackageVersion.parse? fun s =>
    "'" ++ s ++ "' is not a valid version"

def ComponentSet.exchange : Exchange ComponentSet :=
  .ofText ComponentSet.text (fun s => (ComponentSet.parse s).toOption)
    fun s => "'" ++ s ++ "' names a component that is not known"

------------------------------------------------------------
-- Values that are choices
------------------------------------------------------------

def OutputType.exchange : Exchange OutputType :=
  .ofChoice OutputType.title OutputType.ofTitle?

def Channel.exchange : Exchange Channel :=
  .ofChoice Channel.name Channel.ofName?

def FixKind.exchange : Exchange FixKind :=
  .ofChoice FixKind.title FixKind.ofTitle?

def Severity.exchange : Exchange Severity :=
  .ofChoice Severity.title Severity.ofTitle?

------------------------------------------------------------
-- References
------------------------------------------------------------

def PackageReference.exchange : Exchange PackageReference where
  write := fun r =>
    .record [("name", .text r.name), ("version", .text r.version)]
  read := do
    let fields ← readRecord ["name", "version"]
      (fun name (r : PackageReference) => do
        if name == "name" then return { r with name := (← readText) }
        else return { r with version := (← readText) })
      default
    fields.require ["name", "version"]

/- The place may be left out where fields have names. -/
def AssemblyReference.exchange : Exchange AssemblyReference where
  write := fun r =>
    .record
      [("name", .text r.name),
       ("hint_path", Value.ofOption .text r.hintPath)]
  read := do
    let fields ← readRecord ["name", "hint_path"]
      (fun name (r : AssemblyReference) => do
        if name == "name" then return { r with name := (← readText) }
        else return { r with hintPath := (← readOption readText) })
      default
    fields.require <|
      if fields.isArray then ["name", "hint_path"] else ["name"]

------------------------------------------------------------
-- Rules
------------------------------------------------------------

def ApiTarget.exchange : Exchange ApiTarget where
  write := fun t =>
    .record
      [("FullName", .text t.fullName),
       ("SyntaxType", .text t.kind.title),
       ("AlertOnAmbiguousMatch", .flag t.alertOnAmbiguous)]
  read := ApiTarget.reader

def ApiRule.exchange : Exchange ApiRule where
  write := fun r =>
    .record
      [("Id", .text r.id),
       ("TargetSyntaxes", .list (r.targets.map ApiTarget.exchange.write)),
       ("Message", .text r.message)]
  read := ApiRule.reader

------------------------------------------------------------
-- Diagnostics
------------------------------------------------------------

/- A place in a text, which fits into a word. -/
def readOffset : Reader Nat :=
  readNat UInt64.size

def Span.exchange : Exchange Span where
  write := fun s =>
    .record [("start", .number s.start), ("end", .number s.stop)]
  read := do
    let fields ← readRecord ["start", "end"]
      (fun name (s : Span) => do
        if name == "start" then return { s with start := (← readOffset) }
        else return { s with stop := (← readOffset) })
      default
    fields.require ["start", "end"]

def Location.exchange : Exchange Location where
  write := fun l =>
    .record
      [("path", .text l.path.text),
       ("span", Span.exchange.write l.span),
       ("line", .number l.line),
       ("column", .number l.column)]
  read := do
    let fields ← readRecord ["path", "span", "line", "column"]
      (fun name (l : Location) => do
        match name with
        | "path" => return { l with path := ⟨← readText⟩ }
        | "span" => return { l with span := (← Span.exchange.read) }
        | "line" => return { l with line := (← readOffset) }
        | _ => return { l with column := (← readOffset) })
      default
    fields.require ["path", "span", "line", "column"]

/- The properties may be left out. -/
def Diagnostic.exchange : Exchange Diagnostic where
  write := fun d =>
    .record
      [("id", .text d.id),
       ("message", .text d.message),
       ("severity", Severity.exchange.write d.severity),
       ("location", Location.exchange.write d.location),
       ("properties", Value.ofDictionary d.properties)]
  read := do
    let fields ← readRecord
      ["id", "message", "severity", "location", "properties"]
      (fun name (d : Diagnostic) => do
        match name with
        | "id" => return { d with id := (← readText) }
        | "message" => return { d with message := (← readText) }
        | "severity" =>
          return { d with severity := (← Severity.exchange.read) }
        | "location" =>
          return { d with location := (← Location.exchange.read) }
        | _ => return { d with properties := (← readMap readText) })
      default
    fields.require ["id", "message", "severity", "location"]

end Retarget
