import Retarget.Fault

/-
  This file defines why an analysis or a fix fails.

  Key definitions include:
    * `AnalysisError`
    * `AnalysisError.message`
    * `AnalysisError.ofFault`
-/

namespace Retarget

inductive AnalysisError where
  | unparsable (path : Path) (details : String)
  /- A file of rules or of renamings that cannot be used. -/
  | mappingFile (path : Path) (details : String)
  | missingProperty (id key : String)
  | invalidProperty (id key value : String)
  | unfixable (id : String) (path : Path) (details : String)
  | invalidArgument (name reason : String)
  | cancelled
  deriving Repr, DecidableEq

namespace AnalysisError

def message : AnalysisError → String
  | .unparsable path details =>
    "Failed to parse " ++ path.text ++ ": " ++ details
  | .mappingFile path details =>
    "Invalid mapping file " ++ path.text ++ ": " ++ details
  | .missingProperty id key =>
    "Diagnostic " ++ id ++ " is missing fix property '" ++ key ++ "'"
  | .invalidProperty id key value =>
    "Diagnostic " ++ id ++ " has invalid fix property '" ++ key ++
      "': " ++ value
  | .unfixable id path details =>
    "Cannot fix " ++ id ++ " in " ++ path.text ++ ": " ++ details
  | .invalidArgument name reason =>
    "Invalid argument '" ++ name ++ "': " ++ reason
  | .cancelled => "Analysis was cancelled"

def ofFault : Fault → AnalysisError
  | .invalidArgument name reason => .invalidArgument name reason
  | .cancelled => .cancelled
  | .unreadable path details => .unparsable path details

end AnalysisError

end Retarget
