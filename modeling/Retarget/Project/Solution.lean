import Retarget.Project.Basic

/-
  This file defines solutions, which list projects line by
  line.  Folders of a solution are no projects.

  Key definitions include:
    * `Solution`
    * `Solution.parse`
    * `Solution.load`
    * `Solution.projectPaths`
-/

namespace Retarget

structure SolutionEntry where
  name : String
  path : Path
  /- What kind of project the entry is, as a unique number. -/
  kind : String
  deriving Repr, DecidableEq, Inhabited

structure Solution where
  path : Path
  entries : List SolutionEntry
  deriving Repr, DecidableEq, Inhabited

namespace Solution

/- The kind of the folders of a solution. -/
def folderKind : String :=
  "2150E333-8FDC-42A3-9474-1A3956D46DE8"

def isKindChar (c : Char) : Bool :=
  Text.isAsciiDigit c || ('A' ≤ c && c ≤ 'F') ||
    ('a' ≤ c && c ≤ 'f') || c == '-'

------------------------------------------------------------
-- Lines
------------------------------------------------------------

/- What follows a mark, which must be there. -/
def after? (mark : String) (cs : List Char) : Option (List Char) :=
  mark.toList.isPrefixOf? cs

def skipBlanks (cs : List Char) : List Char :=
  cs.dropWhile Text.isBlank

/- A text in quotes, and what follows it. -/
def quoted? (cs : List Char) : Option (String × List Char) := do
  let cs ← after? "\"" cs
  let inner := cs.takeWhile (· != '"')
  let rest ← after? "\"" (cs.drop inner.length)
  return (String.ofList inner, rest)

/- The kind, the name and the path on a line of a project. -/
def line? (text : String) : Option (String × String × String) := do
  let cs ← after? "Project(\"\x7b" text.toList
  let kind := cs.takeWhile isKindChar
  if kind.isEmpty then none
  let cs ← after? "\x7d\")" (cs.drop kind.length)
  let cs ← after? "=" (skipBlanks cs)
  let (name, cs) ← quoted? (skipBlanks cs)
  let cs ← after? "," (skipBlanks cs)
  let (path, cs) ← quoted? (skipBlanks cs)
  let _ ← after? "," (skipBlanks cs)
  return (String.ofList kind, name, path)

def upperKind (kind : String) : String :=
  String.ofList <| kind.toList.map fun c =>
    if Text.isAsciiLower c then Char.ofNat (c.toNat - 32) else c

def entryOf? (directory : Path) (line : String) : Option SolutionEntry := do
  let (kind, name, path) ← line? (Text.trim line)
  if Text.equalsIgnoringAsciiCase kind folderKind then none
  return ⟨name, Project.resolve directory path, upperKind kind⟩

------------------------------------------------------------
-- Solutions
------------------------------------------------------------

def parse (path : Path) (text : String) : Solution :=
  let directory := path.parent?.getD ⟨""⟩
  ⟨path, (Text.lines text).filterMap (entryOf? directory)⟩

def load (files : FileView) (path : Path) : Except ProjectError Solution := do
  return parse path (← Project.readFile files path)

def projectExtensions : List String :=
  ["csproj", "vbproj", "fsproj"]

/- The paths of entries that are project files. -/
def projectPaths (s : Solution) : List Path :=
  (s.entries.map SolutionEntry.path).filter fun p =>
    p.extension?.any fun e =>
      projectExtensions.any (Text.equalsIgnoringAsciiCase e)

end Solution

end Retarget
