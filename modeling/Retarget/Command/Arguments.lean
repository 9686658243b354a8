import Retarget.Report.Basic

/-
  This file reads command lines: switches for every command,
  the name of a command, and the switches and operands of
  that command.

  Key definitions include:
    * `Switch`
    * `Given`
    * `CommandLine.scanUpTo`
    * `Command`
    * `Command.parse`
    * `Command.usage`
-/

namespace Retarget

------------------------------------------------------------
-- Switches
------------------------------------------------------------

/- Something that starts with a dash on a command line. -/
structure Switch where
  short : Option Char
  long : String
  takesValue : Bool
  isRepeatable : Bool
  accepts : String → Bool

namespace Switch

def flag (short : Option Char) (long : String) : Switch where
  short := short
  long := long
  takesValue := false
  isRepeatable := false
  accepts := fun _ => true

def value
    (short : Option Char)
    (long : String)
    (accepts : String → Bool) : Switch where
  short := short
  long := long
  takesValue := true
  isRepeatable := false
  accepts := accepts

/- A path is never empty. -/
def path (short : Char) (long : String) : Switch :=
  value (some short) long fun text => !text.isEmpty

def repeatable (s : Switch) : Switch :=
  { s with isRepeatable := true }

end Switch

------------------------------------------------------------
-- What is given
------------------------------------------------------------

/- Why a command line is not carried out. -/
inductive Refusal where
  | misused
  | helpWanted
  | versionWanted
  deriving Repr, DecidableEq

/- The switches that were given, with their values, and the rest. -/
structure Given where
  values : List (String × String)
  operands : List String
  deriving Repr, DecidableEq, Inhabited

namespace Given

def empty : Given :=
  ⟨[], []⟩

def has (g : Given) (long : String) : Bool :=
  g.values.any fun v => v.1 == long

def all (g : Given) (long : String) : List String :=
  (g.values.filter fun v => v.1 == long).map Prod.snd

def value? (g : Given) (long : String) : Option String :=
  (g.all long).head?

/- Add a switch that may be there; a help switch ends the reading. -/
def add (g : Given) (s : Switch) (value : String) : Except Refusal Given :=
  if s.long == "help" then .error .helpWanted
  else if s.long == "version" then .error .versionWanted
  else if !s.accepts value || (g.has s.long && !s.isRepeatable) then
    .error .misused
  else .ok { g with values := g.values ++ [(s.long, value)] }

/- Add an operand, which is a path, if there may be one more. -/
def addOperand (limit : Nat) (g : Given) (operand : String) :
    Except Refusal Given :=
  if g.operands.length < limit && !operand.isEmpty then
    .ok { g with operands := g.operands ++ [operand] }
  else .error .misused

end Given

------------------------------------------------------------
-- Scanning
------------------------------------------------------------

namespace CommandLine

/- A word that can be the value of the switch in front of it. -/
def isValueWord (word : String) : Bool :=
  !Text.hasStart "-" word || word == "-"

/- Give a switch the next word as its value. -/
def addNext (g : Given) (s : Switch) :
    List String → Except Refusal (Given × List String)
  | word :: rest =>
    if isValueWord word then do return (← g.add s word, rest)
    else .error .misused
  | [] => .error .misused

/- A long switch, whose value may follow an equals sign. -/
def addLong (switches : List Switch) (g : Given) (body : String)
    (rest : List String) : Except Refusal (Given × List String) :=
  let (name, attached) :=
    match Text.splitOnce '=' body with
    | some (name, value) => (name, some value)
    | none => (body, none)
  match switches.find? fun s => s.long == name with
  | none => .error .misused
  | some s =>
    match s.takesValue, attached with
    | true, some value => do return (← g.add s value, rest)
    | true, none => addNext g s rest
    | false, none => do return (← g.add s "", rest)
    | false, some _ => .error .misused

/- Short switches in one word; a value ends the word. -/
def addShort (switches : List Switch) (g : Given)
    (rest : List String) :
    List Char → Except Refusal (Given × List String)
  | [] => .ok (g, rest)
  | c :: cs =>
    match switches.find? fun s => s.short == some c with
    | none => .error .misused
    | some s =>
      if s.takesValue then
        match cs with
        | [] => addNext g s rest
        | '=' :: value => do return (← g.add s (String.ofList value), rest)
        | value => do return (← g.add s (String.ofList value), rest)
      else do addShort switches (← g.add s "") rest cs

/-
  Read switches up to a word for which `stops` holds, or to
  the end.  Words that are no switches are operands, and so
  is everything behind two dashes.  The number `n` bounds the
  words.
-/
def scanUpTo
    (switches : List Switch)
    (stops : String → Bool)
    (limit n : Nat)
    (g : Given)
    (words : List String) : Except Refusal (Given × List String) :=
  match n, words with
  | 0, words => .ok (g, words)
  | _ + 1, [] => .ok (g, [])
  | n + 1, word :: rest => do
    if word == "--" then
      return (← rest.foldlM (Given.addOperand limit) g, [])
    else if Text.hasStart "--" word then
      let (g, rest) ← addLong switches g
        (String.ofList (word.toList.drop 2)) rest
      scanUpTo switches stops limit n g rest
    else if Text.hasStart "-" word && word != "-" then
      let (g, rest) ← addShort switches g rest (word.toList.drop 1)
      scanUpTo switches stops limit n g rest
    else if stops word then
      return (g, word :: rest)
    else
      scanUpTo switches stops limit n (← g.addOperand limit word) rest

/- Switches in front of the name of a command, and the rest. -/
def scanFront (switches : List Switch) (words : List String) :
    Except Refusal (Given × List String) :=
  scanUpTo switches (fun _ => true) 0 (words.length + 1) .empty words

/- All that is there, with a limited number of operands. -/
def scan (switches : List Switch) (limit : Nat) (words : List String) :
    Except Refusal Given := do
  let (g, _) ← scanUpTo switches (fun _ => false) limit
    (words.length + 1) .empty words
  return g

end CommandLine

------------------------------------------------------------
-- Commands
------------------------------------------------------------

/- What is reported on, in what form and to which file. -/
structure Target where
  path : Path
  format : ReportFormat
  output : Option Path
  deriving Repr, DecidableEq, Inhabited

/- More input for an analysis. -/
structure RuleInputs where
  references : Option Path
  additional : List Path
  deriving Repr, DecidableEq, Inhabited

inductive Command where
  | components (target : Target)
  | frameworks (target : Target) (channel : Option Channel)
  | analyze (target : Target) (inputs : RuleInputs)
  | fix (target : Target) (inputs : RuleInputs) (dryRun : Bool)
  | versions (target : Target) (prerelease : Bool)
  | settings (format : ReportFormat)
  deriving Repr, DecidableEq, Inhabited

namespace Command

/- How the program is called. -/
def usage : String :=
  Text.join "\n"
    ["Usage: dotport <command> [path] [options]",
     "",
     "Commands:",
     "  components  Identify the components of each project",
     "  tfm         Recommend the target framework for each project",
     "  analyze     Report source code that needs changes",
     "  fix         Apply code fixes for what was reported",
     "  versions    Find newer versions of package references",
     "  config      Show the effective configuration",
     ""]

/- The switches that stand in front of a command or behind it. -/
def commonSwitches : List Switch :=
  [.value none "log-level" fun _ => true,
   .flag (some 'v') "verbose",
   .flag (some 'q') "quiet",
   .flag (some 'h') "help"]

def formatSwitch : Switch :=
  .value (some 'f') "format" fun text =>
    (ReportFormat.ofTitle? text).isSome

def outputSwitch : Switch :=
  .path 'o' "output"

def ruleSwitches : List Switch :=
  [.path 'r' "references", (Switch.path 'a' "additional-file").repeatable]

def channelSwitch : Switch :=
  .value (some 's') "support" fun text => (Channel.ofName? text).isSome

/- The switches of a command, if there is one of that name. -/
def switches? : String → Option (List Switch)
  | "components" => some [formatSwitch, outputSwitch]
  | "tfm" => some [formatSwitch, outputSwitch, channelSwitch]
  | "analyze" => some (ruleSwitches ++ [formatSwitch, outputSwitch])
  | "fix" => some (ruleSwitches ++ [.flag none "dry-run", formatSwitch])
  | "versions" => some [.flag none "prerelease", formatSwitch, outputSwitch]
  | "config" => some [formatSwitch]
  | _ => none

/- The most operands that a command takes. -/
def maxOperands (name : String) : Nat :=
  if name == "config" then 0 else 1

/- Only one of two switches that exclude each other is there. -/
def isConsistent (g : Given) : Bool :=
  !(g.has "verbose" && g.has "quiet")

def targetOf (g : Given) : Target where
  path := ⟨g.operands.head?.getD "."⟩
  format := ((g.value? "format").bind ReportFormat.ofTitle?).getD .human
  output := (g.value? "output").map Path.mk

def inputsOf (g : Given) : RuleInputs where
  references := (g.value? "references").map Path.mk
  additional := (g.all "additional-file").map Path.mk

def ofGiven (name : String) (g : Given) : Command :=
  let target := targetOf g
  match name with
  | "components" => .components target
  | "tfm" => .frameworks target ((g.value? "support").bind Channel.ofName?)
  | "analyze" => .analyze target (inputsOf g)
  | "fix" => .fix target (inputsOf g) (g.has "dry-run")
  | "versions" => .versions target (g.has "prerelease")
  | _ => .settings target.format

/- What stands behind the name of a command. -/
def parseNamed (name : String) (words : List String) :
    Except Refusal Command :=
  match switches? name with
  | none => .error .misused
  | some own => do
    let g ← CommandLine.scan (commonSwitches ++ own) (maxOperands name) words
    if isConsistent g then return ofGiven name g else throw .misused

/- What is asked about: everything, or a command by its name. -/
def refuseWithHelp : List String → Refusal
  | [] => .helpWanted
  | [name] =>
    if name == "help" || (switches? name).isSome then .helpWanted
    else .misused
  | _ => .misused

/- Read a whole command line. -/
def parse (words : List String) : Except Refusal Command := do
  let (g, rest) ← CommandLine.scanFront
    (commonSwitches ++ [.flag (some 'V') "version"]) words
  match rest with
  | "help" :: words => throw (refuseWithHelp words)
  | name :: words =>
    let command ← parseNamed name words
    if isConsistent g then return command else throw .misused
  | [] => throw .misused

end Command

end Retarget
