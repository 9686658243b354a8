import Retarget.Text.Case
import Retarget.Framework.Version

/-
  This file defines target framework monikers: the family
  and version of a framework, with a platform where the
  framework has one.

  Key definitions include:
    * `FrameworkFamily`
    * `Moniker`
    * `Moniker.parse?`
    * `Moniker.parseLegacy?`
    * `Moniker.name`
    * `Moniker.supportsPlatform`
-/

namespace Retarget

inductive FrameworkFamily where
  | netFramework
  | netStandard
  | netCoreApp
  deriving Repr, DecidableEq, Inhabited

def FrameworkFamily.title : FrameworkFamily → String
  | .netFramework => "NetFramework"
  | .netStandard => "NetStandard"
  | .netCoreApp => "NetCoreApp"

structure Moniker where
  family : FrameworkFamily
  version : FrameworkVersion
  platform : Option String
  platformVersion : Option FrameworkVersion
  deriving Repr, DecidableEq, Inhabited

namespace Moniker

def ofFamily (family : FrameworkFamily) (version : FrameworkVersion) : Moniker :=
  ⟨family, version, none, none⟩

def netStandard20 : Moniker :=
  ofFamily .netStandard (.ofPair 2 0)

def netStandard21 : Moniker :=
  ofFamily .netStandard (.ofPair 2 1)

variable (m : Moniker)

def isNetCore : Bool :=
  m.family == .netCoreApp

def isNetStandard : Bool :=
  m.family == .netStandard

def isNetFramework : Bool :=
  m.family == .netFramework

def isWindows : Bool :=
  m.platform == some "windows"

/- Only .NET 5 and later have platforms. -/
def supportsPlatform : Bool :=
  m.isNetCore && m.version.major ≥ 5

def withPlatform (name : String) (version : Option FrameworkVersion) : Moniker :=
  { m with platform := some (Text.lower name), platformVersion := version }

def withPlatformVersion (version : FrameworkVersion) : Moniker :=
  { m with platformVersion := some version }

def withoutPlatform : Moniker :=
  { m with platform := none, platformVersion := none }

/- The same framework, however its versions were written. -/
def same (a b : Moniker) : Bool :=
  a.family == b.family && a.version.same b.version &&
    a.platform == b.platform &&
    match a.platformVersion, b.platformVersion with
    | some v, some w => v.same w
    | none, none => true
    | _, _ => false

------------------------------------------------------------
-- Names
------------------------------------------------------------

/- The two numbers that most names show. -/
def shortVersion : String :=
  toString m.version.major ++ "." ++ toString m.version.minor

def frameworkName : String :=
  match m.family with
  | .netFramework => "net" ++ m.version.compactText
  | .netStandard => "netstandard" ++ m.shortVersion
  | .netCoreApp =>
    if m.version.major ≥ 5 then "net" ++ m.shortVersion
    else "netcoreapp" ++ m.shortVersion

/- The platform with its version, unless that is zero. -/
def platformSuffix : String :=
  match m.platform with
  | none => ""
  | some platform =>
    let version := m.platformVersion.filter fun v => !v.isZero
    "-" ++ platform ++ ((version.map FrameworkVersion.text).getD "")

/- The short name, such as `net6.0-windows10.0.19041.0`. -/
def name : String :=
  m.frameworkName ++ m.platformSuffix

------------------------------------------------------------
-- Reading names
------------------------------------------------------------

/- Versions of `net` from five on belong to another family. -/
def ofNetVersion (version : FrameworkVersion) : Moniker :=
  if version.major ≥ 5 then ofFamily .netCoreApp version
  else ofFamily .netFramework version

def parseFramework? (text : String) : Option Moniker :=
  match Text.stripStart? "netstandard" text with
  | some rest =>
    (FrameworkVersion.parseDotted? rest).map (ofFamily .netStandard)
  | none =>
    match Text.stripStart? "netcoreapp" text with
    | some rest =>
      (FrameworkVersion.parseDotted? rest).map (ofFamily .netCoreApp)
    | none =>
      match Text.stripStart? "net" text with
      | some rest =>
        if rest.toList.contains '.' then
          (FrameworkVersion.parseDotted? rest).map ofNetVersion
        else (FrameworkVersion.parseCompact? rest).map ofNetVersion
      | none => none

/-
  Add a platform to a framework that has platforms: letters,
  and perhaps a version that starts with a digit.
-/
def parsePlatform? (text : String) : Option Moniker := do
  if !m.supportsPlatform then none
  else
    let cs := text.toList
    let letters := cs.takeWhile fun c => !Text.isAsciiDigit c
    let digits := cs.drop letters.length
    if letters.isEmpty || !letters.all Text.isAsciiLetter then none
    else
      let named := { m with platform := some (String.ofList letters) }
      if digits.isEmpty then return named
      else
        let version ← FrameworkVersion.parseDotted? (String.ofList digits)
        return { named with platformVersion := some version }

def dropVersionLetter (text : String) : String :=
  String.ofList (text.toList.dropWhile fun c => c == 'v' || c == 'V')

def familyOfIdentifier? : String → Option FrameworkFamily
  | ".netframework" => some .netFramework
  | ".netstandard" => some .netStandard
  | ".netcoreapp" => some .netCoreApp
  | _ => none

/- Read a long name, such as `.NETCoreApp,Version=v6.0`. -/
def parseLong? (text : String) : Option Moniker :=
  match Text.splitAt ',' text with
  | [] => none
  | identifier :: rest => do
    let version ← rest.findSome? fun s =>
      Text.stripStart? "Version=" (Text.trim s)
    let version ← FrameworkVersion.parseDotted? (dropVersionLetter version)
    let family ← familyOfIdentifier? (Text.lower (Text.trim identifier))
    return ofFamily family version

/- Read a short or a long name; letter case does not count. -/
def parse? (text : String) : Option Moniker :=
  let trimmed := Text.trim text
  if Text.hasStart "." trimmed then parseLong? trimmed
  else
    let lowered := Text.lower trimmed
    match Text.splitOnce '-' lowered with
    | some (framework, platform) => do
      (← parseFramework? framework).parsePlatform? platform
    | none => parseFramework? lowered

/- Read the version of a .NET Framework, such as `v4.7.2`. -/
def parseLegacy? (text : String) : Option Moniker :=
  (FrameworkVersion.parseDotted? (dropVersionLetter (Text.trim text))).map
    (ofFamily .netFramework)

/- What is said of a text that names no framework. -/
def invalidMessage (text : String) : String :=
  "'" ++ text ++ "' is not a recognized target framework moniker"

end Moniker

end Retarget
