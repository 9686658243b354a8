import Retarget.Path
import Retarget.Text.Case

/-
  This file defines what the rest of the library can see of
  files, wherever they are kept.

  Key definitions include:
    * `FileError`
    * `FileEntry`
    * `FileView`
    * `FileView.places`
    * `FileView.withSuffix`
-/

namespace Retarget

/- Why a file could not be used, with the reason behind it. -/
structure FileError where
  message : String
  cause : Option String
  deriving Repr, DecidableEq

/- The message with the reason behind it. -/
def FileError.chain (e : FileError) : String :=
  match e.cause with
  | some cause => e.message ++ ": " ++ cause
  | none => e.message

/- What a directory holds directly. -/
structure FileEntry where
  name : String
  path : Path
  isFile : Bool
  deriving Repr, DecidableEq

/-
  Files and directories as they are at one moment.  Only
  finitely many paths lead to a file that can be read, other
  spellings apart.
-/
structure FileView where
  isFile : Path → Bool
  isDirectory : Path → Bool
  read : Path → Except FileError String
  entries : Path → Except FileError (List FileEntry)
  isFinite :
    ∃ places : List (List Path.Component),
      ∀ path text, read path = .ok text → path.components ∈ places

namespace FileView

/- All paths that lead to a file that can be read. -/
noncomputable def places (view : FileView) : List (List Path.Component) :=
  view.isFinite.choose

theorem mem_places
    {view : FileView}
    {path : Path}
    {text : String}
    (h : view.read path = .ok text) :
    path.components ∈ view.places :=
  view.isFinite.choose_spec path text h

def contains (view : FileView) (path : Path) : Bool :=
  view.isFile path || view.isDirectory path

/-
  The files directly in a directory whose names have an
  ending, in the order of their paths.
-/
def withSuffix
    (view : FileView)
    (directory : Path)
    (suffix : String) : Except FileError (List Path) := do
  let entries ← view.entries directory
  let kept := entries.filter fun e =>
    e.isFile && Text.hasEnd (Text.lower suffix) (Text.lower e.name)
  return Path.sort (kept.map FileEntry.path)

end FileView

end Retarget
