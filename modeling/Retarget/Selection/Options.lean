import Retarget.Framework.Moniker
import Retarget.Settings

/-
  This file defines the frameworks that a selection can move
  a project to.

  Key definitions include:
    * `SelectionOptions`
    * `SelectionOptions.ofSettings`
-/

namespace Retarget

/- A setting that a selection cannot work with. -/
structure SettingError where
  setting : String
  value : String
  reason : String
  deriving Repr, DecidableEq

def SettingError.message (e : SettingError) : String :=
  "Invalid " ++ e.setting ++ " '" ++ e.value ++ "': " ++ e.reason

structure SelectionOptions where
  /- The framework of applications, without a platform. -/
  appBase : Moniker
  /- The platform version of projects that are made for it. -/
  windowsSdkVersion : FrameworkVersion
  deriving Repr, DecidableEq, Inhabited

namespace SelectionOptions

def appBaseOf (s : Settings) : Except SettingError Moniker :=
  let refuse := fun (reason : String) =>
    .error ⟨"app framework", s.appFramework, reason⟩
  match Moniker.parse? s.appFramework with
  | none => refuse (Moniker.invalidMessage s.appFramework)
  | some m =>
    if m.supportsPlatform then .ok m.withoutPlatform
    else refuse "must be .NET 5 or later"

def sdkVersionOf (s : Settings) : Except SettingError FrameworkVersion :=
  match FrameworkVersion.parseDotted? s.windowsSdkVersion with
  | some v => .ok v
  | none =>
    .error ⟨"Windows SDK version", s.windowsSdkVersion,
      "expected a dotted version such as 10.0.19041.0"⟩

def ofSettings (s : Settings) : Except SettingError SelectionOptions := do
  let appBase ← appBaseOf s
  return ⟨appBase, ← sdkVersionOf s⟩

end SelectionOptions

end Retarget
