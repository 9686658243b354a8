import Retarget.Path.Table
import Retarget.Report.Exchange
import Retarget.Report.Yaml

/-
  This file defines the reports of the program and the forms
  that they are written in: two forms for machines and one
  for readers.

  Key definitions include:
    * `ReportFormat`
    * `Report`
    * `Report.toValue`
    * `Report.summary`
    * `Report.text`
-/

namespace Retarget

------------------------------------------------------------
-- Rows
------------------------------------------------------------

inductive ReportFormat where
  | json
  | yaml
  | human
  deriving Repr, DecidableEq, Inhabited

def ReportFormat.ofTitle? : String → Option ReportFormat
  | "json" => some .json
  | "yaml" => some .yaml
  | "human" => some .human
  | _ => none

/- What a project is built on. -/
structure ComponentsRow where
  project : Path
  components : ComponentSet
  deriving Repr, DecidableEq, Inhabited

/- What a project targets and what it should target. -/
structure FrameworkRow where
  project : Path
  current : List Moniker
  recommended : Moniker
  deriving Repr, DecidableEq, Inhabited

/- What became of the fixes of a file. -/
structure FixRow where
  path : Path
  applied : Nat
  skipped : Nat
  written : Bool
  deriving Repr, DecidableEq, Inhabited

/- The versions of a package above the one in use. -/
structure VersionRow where
  project : Path
  package : String
  current : String
  newer : List PackageVersion
  deriving Repr, DecidableEq, Inhabited

def VersionRow.latest? (row : VersionRow) : Option PackageVersion :=
  row.newer.getLast?

inductive Report where
  | components (rows : List ComponentsRow)
  | frameworks (rows : List FrameworkRow)
  | diagnostics (found : List Diagnostic)
  | fixes (rows : List FixRow)
  | versions (rows : List VersionRow)
  | settings (s : Settings)
  deriving Repr, Inhabited

------------------------------------------------------------
-- For machines
------------------------------------------------------------

def ComponentsRow.toValue (row : ComponentsRow) : Value :=
  .record
    [("project", .text row.project.text),
     ("components", ComponentSet.exchange.write row.components)]

def FrameworkRow.toValue (row : FrameworkRow) : Value :=
  .record
    [("project", .text row.project.text),
     ("current", .list (row.current.map Moniker.exchange.write)),
     ("recommended", Moniker.exchange.write row.recommended)]

def FixRow.toValue (row : FixRow) : Value :=
  .record
    [("path", .text row.path.text),
     ("applied", .number row.applied),
     ("skipped", .number row.skipped),
     ("written", .flag row.written)]

def VersionRow.toValue (row : VersionRow) : Value :=
  .record
    [("project", .text row.project.text),
     ("package", .text row.package),
     ("current_version", .text row.current),
     ("latest", Value.ofOption PackageVersion.exchange.write row.latest?),
     ("newer", .list (row.newer.map PackageVersion.exchange.write))]

def Report.toValue : Report → Value
  | .components rows => .list (rows.map ComponentsRow.toValue)
  | .frameworks rows => .list (rows.map FrameworkRow.toValue)
  | .diagnostics found => .list (found.map Diagnostic.exchange.write)
  | .fixes rows => .list (rows.map FixRow.toValue)
  | .versions rows => .list (rows.map VersionRow.toValue)
  | .settings s => Value.ofDictionary s.toDictionary

------------------------------------------------------------
-- For readers
------------------------------------------------------------

/- A title, underlined, and an empty line. -/
def header (title : String) : List String :=
  [title, String.ofList (List.replicate 42 '━'), ""]

def branch (text : String) : String :=
  "├─ " ++ text

def lastBranch (text : String) : String :=
  "└─ " ++ text

/- Branches below one line, of which the last one is marked. -/
def branches : List String → List String
  | [] => []
  | [text] => [lastBranch text]
  | text :: rest => branch text :: branches rest

def ComponentsRow.lines (row : ComponentsRow) : List String :=
  [row.project.text, lastBranch row.components.text, ""]

def FrameworkRow.lines (row : FrameworkRow) : List String :=
  [row.project.text,
   branch ("Current:     " ++ Text.join ";" (row.current.map Moniker.name)),
   lastBranch ("Recommended: " ++ row.recommended.name),
   ""]

/- A diagnostic, and below it the page that explains it. -/
def Diagnostic.lines (d : Diagnostic) : List String :=
  let url? := d.fixHint.toOption.bind FixHint.documentationUrl
  d.text :: (url?.map fun url => "  " ++ lastBranch url).toList

def FixRow.line (row : FixRow) : String :=
  let state := if row.written then "written" else "not written"
  row.path.text ++ ": " ++ toString row.applied ++ " applied, " ++
    toString row.skipped ++ " skipped (" ++ state ++ ")"

def VersionRow.line (row : VersionRow) : String :=
  let latest := row.latest?.elim "up to date" PackageVersion.text
  row.package ++ " " ++ row.current ++ " -> " ++ latest

/- The rows of each project, in the order of the projects. -/
def rowsByProject (rows : List VersionRow) : PathTable (List VersionRow) :=
  rows.foldl
    (fun t row =>
      t.insert row.project (((t.find? row.project).getD []) ++ [row]))
    PathTable.empty

def versionLines (rows : List VersionRow) : List String :=
  (rowsByProject rows).entries.flatMap fun (project, rows) =>
    [project.text] ++ branches (rows.map VersionRow.line) ++ [""]

def Report.lines : Report → List String
  | .components rows =>
    header "✓ Project Components" ++ rows.flatMap ComponentsRow.lines
  | .frameworks rows =>
    header "✓ Target Framework Recommendations" ++
      rows.flatMap FrameworkRow.lines
  | .diagnostics [] => ["✓ No upgrade issues found"]
  | .diagnostics found =>
    header ("⚠ " ++ toString found.length ++ " upgrade issue(s)") ++
      found.flatMap Diagnostic.lines
  | .fixes [] => header "✓ Code Fixes" ++ ["Nothing to fix"]
  | .fixes rows => header "✓ Code Fixes" ++ rows.map FixRow.line
  | .versions rows => header "✓ Package Versions" ++ versionLines rows
  | .settings s => s.lines

def Report.summary (report : Report) : String :=
  String.join (report.lines.map (· ++ "\n"))

------------------------------------------------------------
-- All forms
------------------------------------------------------------

def Report.text (format : ReportFormat) (report : Report) : String :=
  match format with
  | .json => report.toValue.json
  | .yaml => report.toValue.yaml
  | .human => report.summary

end Retarget
