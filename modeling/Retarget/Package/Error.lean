import Retarget.Fault

/-
  This file defines what can go wrong with packages.

  Key definitions include:
    * `PackageError`
    * `FeedError`
-/

namespace Retarget

inductive PackageError where
  | invalidArgument (name reason : String)
  | invalidVersion (text : String)
  /- A restore has to write the lock file first. -/
  | restoreRequired (project lockFile : Path)
  | unreadableLockFile (path : Path) (details : String)
  | malformedLockFile (path : Path)
  | cancelled
  deriving Repr, DecidableEq

namespace PackageError

def message : PackageError → String
  | invalidArgument name reason =>
    "Invalid argument '" ++ name ++ "': " ++ reason
  | invalidVersion text => "'" ++ text ++ "' is not a valid NuGet version"
  | restoreRequired project lockFile =>
    "Restore required for " ++ project.text ++ ": lock file " ++
      lockFile.text ++ " not found"
  | unreadableLockFile path details =>
    "Failed to read lock file " ++ path.text ++ ": " ++ details
  | malformedLockFile path => "Failed to read lock file " ++ path.text
  | cancelled => "Operation was cancelled"

/- A shared failure, as it is seen where packages are handled. -/
def ofFault : Fault → PackageError
  | .invalidArgument name reason => invalidArgument name reason
  | .cancelled => cancelled
  | .unreadable path details => unreadableLockFile path details

end PackageError

/- Go on unless the caller asked to stop. -/
def stopIfCancelled (cancelled : Bool) : Except PackageError Unit :=
  if cancelled then .error .cancelled else .ok ()

def requireName (name value : String) : Except PackageError Unit :=
  (requireNonEmpty name value).mapError PackageError.ofFault

/- Why a feed did not answer a question. -/
inductive FeedError where
  /- It makes sense to ask again. -/
  | transient (feed details : String)
  | notFound (feed package : String)
  | http (feed details : String) (status : Option Nat)
  | unexpected (feed : String)
  | cancelled
  deriving Repr, DecidableEq

namespace FeedError

def message : FeedError → String
  | transient feed details =>
    "Transient error from " ++ feed ++ ": " ++ details
  | notFound feed package =>
    "Package '" ++ package ++ "' not found on " ++ feed
  | http feed details _ => "HTTP error from " ++ feed ++ ": " ++ details
  | unexpected feed => "Unexpected response from " ++ feed
  | cancelled => "Registry query was cancelled"

def isTransient : FeedError → Bool
  | transient .. => true
  | _ => false

end FeedError

end Retarget
