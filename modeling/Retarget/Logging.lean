import Retarget.Text.Case

/-
  This file defines how much is logged and in what form.

  Key definitions include:
    * `LogLevel`
    * `LogLevel.parse`
    * `LogFormat`
-/

namespace Retarget

inductive LogLevel where
  | trace
  | debug
  | info
  | warn
  | error
  deriving Repr, DecidableEq, Inhabited

def LogLevel.title : LogLevel → String
  | .trace => "TRACE"
  | .debug => "DEBUG"
  | .info => "INFO"
  | .warn => "WARN"
  | .error => "ERROR"

/- Read a level in any letter case; an unknown one is `info`. -/
def LogLevel.parse (text : String) : LogLevel :=
  match Text.lower text with
  | "trace" => .trace
  | "debug" => .debug
  | "warn" => .warn
  | "error" => .error
  | _ => .info

/- What a line of the log shows. -/
structure LogFormat where
  level : LogLevel
  asJson : Bool
  withTarget : Bool
  withLocation : Bool
  withThread : Bool
  deriving Repr, DecidableEq, Inhabited

namespace LogFormat

def ofLevel (level : LogLevel) : LogFormat where
  level := level
  asJson := false
  withTarget := true
  withLocation := false
  withThread := false

def standard : LogFormat :=
  ofLevel .info

/- Everything that a machine can make use of. -/
def production : LogFormat where
  level := .info
  asJson := true
  withTarget := true
  withLocation := true
  withThread := true

def development : LogFormat :=
  ofLevel .debug

/- The format for a purpose, if it has one of its own. -/
def forPurpose? : String → Option LogFormat
  | "production" => some production
  | "development" => some development
  | "default" => some standard
  | _ => none

end LogFormat

end Retarget
