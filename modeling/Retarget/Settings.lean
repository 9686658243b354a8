import Retarget.Text.Case
import Retarget.Text.Numeral
import Retarget.Dictionary

/-
  This file defines the settings of a run: which frameworks
  to recommend, where packages are found and how patiently
  they are asked for.  Variables of the environment override
  the defaults.

  Key definitions include:
    * `Channel`
    * `Settings`
    * `Settings.ofEnvironment`
    * `Settings.validate`
    * `Settings.appFramework`
    * `Settings.toDictionary`
    * `Settings.lines`
-/

namespace Retarget

------------------------------------------------------------
-- Release channels
------------------------------------------------------------

/- The releases that applications are moved to. -/
inductive Channel where
  | current
  | lts
  | preview
  deriving Repr, DecidableEq, Inhabited

def Channel.name : Channel → String
  | .current => "current"
  | .lts => "lts"
  | .preview => "preview"

/- The channel with exactly this name. -/
def Channel.ofName? : String → Option Channel
  | "current" => some .current
  | "lts" => some .lts
  | "preview" => some .preview
  | _ => none

/- Letter case does not count, and `current` has a second name. -/
def Channel.parse? (text : String) : Option Channel :=
  let lowered := Text.lower text
  if lowered == "sts" then some .current else Channel.ofName? lowered

------------------------------------------------------------
-- Settings
------------------------------------------------------------

structure Settings where
  channel : Channel
  currentFramework : String
  ltsFramework : String
  previewFramework : String
  windowsSdkVersion : String
  maxRetries : Nat
  retryDelayMs : Nat
  requestTimeoutSecs : Nat
  packageSources : List String
  logLevel : String
  deriving Repr, DecidableEq, Inhabited

/- What is wrong with settings. -/
inductive SettingsError where
  | unknownChannel (text : String)
  | outOfBounds (reason : String)
  | unreadable (field reason : String)
  deriving Repr, DecidableEq

def SettingsError.message : SettingsError → String
  | .unknownChannel text =>
    "Invalid TFM support level: " ++ text ++
      ". Valid options: current, lts, preview"
  | .outOfBounds reason => "Configuration validation failed: " ++ reason
  | .unreadable field reason =>
    "Failed to parse " ++ field ++ ": " ++ reason

namespace Settings

def standard : Settings where
  channel := .lts
  currentFramework := "net9.0"
  ltsFramework := "net8.0"
  previewFramework := "net10.0"
  windowsSdkVersion := "10.0.19041.0"
  maxRetries := 3
  retryDelayMs := 1000
  requestTimeoutSecs := 30
  packageSources := ["https://api.nuget.org/v3-flatcontainer/"]
  logLevel := "info"

/- The framework for applications on the chosen channel. -/
def appFramework (s : Settings) : String :=
  match s.channel with
  | .current => s.currentFramework
  | .lts => s.ltsFramework
  | .preview => s.previewFramework

def requestTimeoutMs (s : Settings) : Nat :=
  1000 * s.requestTimeoutSecs

------------------------------------------------------------
-- Variables
------------------------------------------------------------

/- A number below a limit, with blanks around it. -/
def numberVariable
    (environment : Dictionary String)
    (name : String)
    (limit : Nat)
    (fallback : Nat) : Except SettingsError Nat :=
  match environment.find? name with
  | none => .ok fallback
  | some value =>
    match Numeral.read limit (Text.trim value) with
    | .ok n => .ok n
    | .error fault => .error (.unreadable name fault.message)

/- The parts of a list with commas between them. -/
def listVariable (value : String) : List String :=
  ((Text.splitAt ',' value).map Text.trim).filter (!·.isEmpty)

/- The variables that settings are read from. -/
def variableNames : List String :=
  ["DOTPORT_TFM_SUPPORT", "DOTPORT_CURRENT_TFM", "DOTPORT_LTS_TFM",
   "DOTPORT_PREVIEW_TFM", "DOTPORT_WINDOWS_SDK_VERSION",
   "DOTPORT_MAX_RETRIES", "DOTPORT_RETRY_BASE_DELAY_MS",
   "DOTPORT_REQUEST_TIMEOUT", "DOTPORT_PACKAGE_SOURCES",
   "DOTPORT_LOG_LEVEL"]

/- The defaults, overridden by variables. -/
def ofEnvironment
    (environment : Dictionary String) : Except SettingsError Settings := do
  let text := fun (name fallback : String) =>
    (environment.find? name).getD fallback
  let channel ←
    match environment.find? "DOTPORT_TFM_SUPPORT" with
    | none => pure standard.channel
    | some value =>
      match Channel.parse? value with
      | some channel => pure channel
      | none => throw (.unknownChannel value)
  let maxRetries ← numberVariable environment
    "DOTPORT_MAX_RETRIES" UInt32.size standard.maxRetries
  let retryDelayMs ← numberVariable environment
    "DOTPORT_RETRY_BASE_DELAY_MS" UInt64.size standard.retryDelayMs
  let requestTimeoutSecs ← numberVariable environment
    "DOTPORT_REQUEST_TIMEOUT" UInt64.size standard.requestTimeoutSecs
  return {
    channel := channel
    currentFramework :=
      text "DOTPORT_CURRENT_TFM" standard.currentFramework
    ltsFramework := text "DOTPORT_LTS_TFM" standard.ltsFramework
    previewFramework :=
      text "DOTPORT_PREVIEW_TFM" standard.previewFramework
    windowsSdkVersion :=
      text "DOTPORT_WINDOWS_SDK_VERSION" standard.windowsSdkVersion
    maxRetries := maxRetries
    retryDelayMs := retryDelayMs
    requestTimeoutSecs := requestTimeoutSecs
    packageSources :=
      ((environment.find? "DOTPORT_PACKAGE_SOURCES").map
        listVariable).getD standard.packageSources
    logLevel := Text.lower (text "DOTPORT_LOG_LEVEL" standard.logLevel) }

------------------------------------------------------------
-- Validation
------------------------------------------------------------

/-
  A text looks like a framework of .NET 5 or later; what
  follows the version is not looked at.
-/
def looksLikeModernFramework (text : String) : Bool :=
  match Text.stripStart? "net" text with
  | none => false
  | some rest =>
    match Text.splitAt '.' (Text.before '-' rest) with
    | major :: minor :: _ =>
      (Numeral.read32? major).any (5 ≤ ·) &&
        (Numeral.read32? minor).isSome
    | _ => false

def logLevels : List String :=
  ["trace", "debug", "info", "warn", "error"]

/- Fail with a reason unless a condition holds. -/
def require (condition : Bool) (reason : String) :
    Except SettingsError Unit :=
  if condition then .ok () else .error (.outOfBounds reason)

def requireFramework (field value : String) :
    Except SettingsError Unit :=
  if looksLikeModernFramework value then .ok ()
  else
    .error <| .unreadable field <|
      "'" ++ value ++ "' is not a .NET target framework such as net8.0"

/- Check the settings; the first fault counts. -/
def validate (s : Settings) : Except SettingsError Unit := do
  require (1 ≤ s.maxRetries) "Max retries must be at least 1"
  require (s.maxRetries ≤ 10) "Max retries cannot exceed 10"
  require (1 ≤ s.retryDelayMs && s.retryDelayMs ≤ 60000)
    "Retry base delay must be between 1ms and 60s"
  require (1 ≤ s.requestTimeoutSecs)
    "Request timeout must be at least 1 second"
  require (s.requestTimeoutSecs ≤ 3600)
    "Request timeout cannot exceed 1 hour"
  require (!s.packageSources.isEmpty)
    "At least one package source is required"
  requireFramework "current_tfm_base" s.currentFramework
  requireFramework "lts_tfm_base" s.ltsFramework
  requireFramework "preview_tfm_base" s.previewFramework
  require (logLevels.contains s.logLevel) <|
    "Invalid log level: " ++ s.logLevel ++
      ". Valid options: trace, debug, info, warn, error"

------------------------------------------------------------
-- Showing
------------------------------------------------------------

/- The settings by name. -/
def toDictionary (s : Settings) : Dictionary String :=
  .ofList
    [("tfm_support", s.channel.name),
     ("current_tfm_base", s.currentFramework),
     ("lts_tfm_base", s.ltsFramework),
     ("preview_tfm_base", s.previewFramework),
     ("windows_sdk_version", s.windowsSdkVersion),
     ("max_retries", toString s.maxRetries),
     ("retry_base_delay_ms", toString s.retryDelayMs),
     ("request_timeout_secs", toString s.requestTimeoutSecs),
     ("package_sources", Text.join "," s.packageSources),
     ("log_level", s.logLevel)]

/- The settings for a reader, one on a line. -/
def lines (s : Settings) : List String :=
  ["Dotport Configuration:",
   "  TFM Support: " ++ s.channel.name,
   "  App TFM: " ++ s.appFramework,
   "  Windows SDK Version: " ++ s.windowsSdkVersion,
   "  Max Retries: " ++ toString s.maxRetries,
   "  Retry Base Delay: " ++ toString s.retryDelayMs ++ "ms",
   "  Request Timeout: " ++ toString s.requestTimeoutSecs ++ "s",
   "  Package Sources: " ++ Text.join ", " s.packageSources,
   "  Log Level: " ++ s.logLevel]

def summary (s : Settings) : String :=
  String.join (s.lines.map (· ++ "\n"))

end Settings

end Retarget
