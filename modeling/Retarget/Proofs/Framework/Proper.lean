import Retarget.Selection.Options
import Retarget.Proofs.Framework.Order
import Retarget.Proofs.Text.Separator

/-
  This file describes the frameworks that can be read: a
  platform stands on .NET 5 or later only, is written in
  small letters, and a platform version needs a platform.

  Key definitions include:
    * `Moniker.IsRead`
    * `Moniker.Proper`
    * `SelectionOptions.standard`

  Key statements include:
    * `Moniker.exists_of_parseFramework?`
    * `Moniker.exists_of_parsePlatform?`
    * `Moniker.exists_of_parseLong?`
    * `Moniker.IsRead.proper`
    * `SelectionOptions.appBase_of_ofSettings`
-/

namespace Retarget

namespace Moniker

variable {m : Moniker}
variable {text : String}

/-
  A framework that was read, from its name or from the
  version of a .NET Framework.
-/
def IsRead (m : Moniker) : Prop :=
  ∃ text : String,
    parse? text = some m ∨ parseLegacy? text = some m

/- What all frameworks have that are read from a name. -/
structure Proper (m : Moniker) : Prop where
  supports :
    m.platform.isSome = true → m.supportsPlatform = true
  lowered :
    ∀ p : String, m.platform = some p → Text.lower p = p
  versioned :
    m.platform = none → m.platformVersion = none

/- A framework without a platform and a platform version. -/
theorem Proper.of_platform_eq_none
    (hPlatform : m.platform = none)
    (hVersion : m.platformVersion = none) :
    m.Proper where
  supports := by simp [hPlatform]
  lowered := by simp [hPlatform]
  versioned := by simp [hVersion]

theorem Proper.isNetCore
    (h : m.Proper)
    (hPlatform : m.platform.isSome = true) :
    m.isNetCore = true :=
  isNetCore_of_supportsPlatform (h.supports hPlatform)

theorem supportsPlatform_of_isNetStandard
    (h : m.isNetStandard = true) :
    m.supportsPlatform = false := by
  rw [isNetStandard_iff] at h
  simp [supportsPlatform, isNetCore, h]

theorem Proper.platform_eq_none
    (h : m.Proper)
    (hStandard : m.isNetStandard = true) :
    m.platform = none := by
  cases hPlatform : m.platform with
  | none => rfl
  | some p =>
      have hSupports := h.supports (by simp [hPlatform])
      rw [supportsPlatform_of_isNetStandard hStandard]
        at hSupports
      cases hSupports

theorem Proper.platformVersionOrZero_eq_zero
    (h : m.Proper)
    (hNone : m.platform = none) :
    m.platformVersionOrZero = .zero := by
  simp [platformVersionOrZero, h.versioned hNone]

/- No platform gets in the way of using a .NET Standard. -/
theorem consumes_of_netStandard
    {x : Moniker}
    (hm : m.Proper)
    (hStandard : m.isNetStandard = true)
    (hUses : x.frameworkConsumes m = true) :
    x.consumes m = true := by
  rw [consumes_iff hm.isNetCore]
  exact
    ⟨hUses,
      platformConsumes_of_platform_eq_none
        (hm.platform_eq_none hStandard)⟩

------------------------------------------------------------
-- Reading
------------------------------------------------------------

theorem exists_ofNetVersion_eq
    (v : FrameworkVersion) :
    ∃ family, ofNetVersion v = ofFamily family v := by
  unfold ofNetVersion
  split <;> exact ⟨_, rfl⟩

/- A framework is a run of letters and a version, with dots or without. -/
theorem exists_of_parseFramework?
    (h : parseFramework? text = some m) :
    ∃ family start rest v,
      m = ofFamily family v ∧ text = start ++ rest ∧
        (∀ c ∈ start.toList, Text.isAsciiLetter c = true) ∧
        (FrameworkVersion.parseDotted? rest = some v ∨
          FrameworkVersion.parseCompact? rest = some v) := by
  unfold parseFramework? at h
  split at h
  · next rest hStart =>
      rcases Option.map_eq_some_iff.mp h with ⟨v, hRead, rfl⟩
      exact ⟨_, _, rest, v, rfl, Text.stripStart?_eq_some_iff.mp hStart,
        List.all_eq_true.mp rfl, Or.inl hRead⟩
  · split at h
    · next rest hStart =>
        rcases Option.map_eq_some_iff.mp h with ⟨v, hRead, rfl⟩
        exact ⟨_, _, rest, v, rfl, Text.stripStart?_eq_some_iff.mp hStart,
          List.all_eq_true.mp rfl, Or.inl hRead⟩
    · split at h
      · next rest hStart =>
          have hText := Text.stripStart?_eq_some_iff.mp hStart
          split at h
          · rcases Option.map_eq_some_iff.mp h with ⟨v, hRead, rfl⟩
            obtain ⟨family, hFamily⟩ := exists_ofNetVersion_eq v
            exact ⟨family, _, rest, v, hFamily, hText,
              List.all_eq_true.mp rfl, Or.inl hRead⟩
          · rcases Option.map_eq_some_iff.mp h with ⟨v, hRead, rfl⟩
            obtain ⟨family, hFamily⟩ := exists_ofNetVersion_eq v
            exact ⟨family, _, rest, v, hFamily, hText,
              List.all_eq_true.mp rfl, Or.inr hRead⟩
      · cases h

theorem parseFramework?_platform
    (h : parseFramework? text = some m) :
    m.platform = none ∧ m.platformVersion = none := by
  obtain ⟨family, start, rest, v, rfl, -⟩ := exists_of_parseFramework? h
  exact ⟨rfl, rfl⟩

/-
  A platform is a run of letters, and perhaps a version that
  starts with a digit.
-/
theorem exists_of_parsePlatform?
    {base : Moniker}
    (h : base.parsePlatform? text = some m) :
    base.supportsPlatform = true ∧
      ∃ p digits version,
        m = { base with platform := some p, platformVersion := version } ∧
          text = p ++ digits ∧ p.toList ≠ [] ∧
          (∀ c ∈ p.toList, Text.isAsciiLetter c = true) ∧
          (∀ c ∈ digits.toList.head?, Text.isAsciiDigit c = true) ∧
          (digits = "" ∧ version = base.platformVersion ∨
            digits ≠ "" ∧ version.isSome = true ∧
              FrameworkVersion.parseDotted? digits = version) := by
  unfold parsePlatform? at h
  split at h
  · cases h
  · next hSupports =>
      simp only [Bool.not_eq_true', Bool.not_eq_false] at hSupports
      dsimp only at h
      split at h
      · cases h
      · next hLetters =>
          simp only [Bool.or_eq_true, not_or, Bool.not_eq_true,
            Bool.not_eq_false', List.all_eq_true,
            List.isEmpty_eq_false_iff] at hLetters
          let letters := text.toList.takeWhile fun c => !Text.isAsciiDigit c
          let digits := text.toList.drop letters.length
          have hWhole : letters ++ digits = text.toList :=
            List.prefix_iff_eq_append.mp (List.takeWhile_prefix _)
          have hDropped :
              digits = text.toList.dropWhile fun c => !Text.isAsciiDigit c :=
            List.append_cancel_left
              (hWhole.trans List.takeWhile_append_dropWhile.symm)
          have hText : text = String.ofList letters ++ String.ofList digits := by
            rw [← String.ofList_append, hWhole, String.ofList_toList]
          have hHead : ∀ c ∈ digits.head?, Text.isAsciiDigit c = true := by
            intro c hc
            have hNot := List.head?_dropWhile_not
              (fun c => !Text.isAsciiDigit c) text.toList
            rw [← hDropped, Option.mem_def.mp hc] at hNot
            simpa using hNot
          have hEmpty : String.ofList digits = "" ↔ digits.isEmpty = true := by
            rw [String.ofList_eq_empty_iff, List.isEmpty_iff]
          refine ⟨hSupports, String.ofList letters, String.ofList digits, ?_⟩
          rw [String.toList_ofList, String.toList_ofList]
          split at h
          · next hNone =>
              cases h
              exact ⟨_, rfl, hText, hLetters.1, hLetters.2, hHead,
                Or.inl ⟨hEmpty.mpr hNone, rfl⟩⟩
          · next hSome =>
              rcases Option.bind_eq_some_iff.mp h with ⟨v, hRead, hResult⟩
              cases hResult
              exact ⟨_, rfl, hText, hLetters.1, hLetters.2, hHead,
                Or.inr ⟨fun hNone => hSome (hEmpty.mp hNone), rfl, hRead⟩⟩

/- Letters are read as a platform, and what follows them as its version. -/
theorem parsePlatform?_letters
    {base : Moniker}
    {p : String}
    (hSupports : base.supportsPlatform = true)
    (hSome : p.toList ≠ [])
    (hLetters : ∀ c ∈ p.toList, Text.isAsciiLetter c = true)
    (hDigit : ∀ c ∈ text.toList.head?, Text.isAsciiDigit c = true) :
    base.parsePlatform? (p ++ text) =
      if text = "" then some { base with platform := some p }
      else (FrameworkVersion.parseDotted? text).map fun v =>
        { base with platform := some p, platformVersion := some v } := by
  have hKept : ∀ c ∈ p.toList, (!Text.isAsciiDigit c) = true := by
    intro c hc
    rw [Text.isAsciiDigit_eq_false_of_isAsciiLetter (hLetters c hc)]
    rfl
  -- The letters end where the version starts, with a digit.
  have hTaken : ((p ++ text).toList.takeWhile fun c => !Text.isAsciiDigit c) =
      p.toList := by
    rw [String.toList_append, List.takeWhile_append_of_pos hKept]
    cases hChars : text.toList with
    | nil => simp
    | cons c rest => simp [hDigit c (by rw [hChars]; rfl)]
  have hDropped : (p ++ text).toList.drop p.toList.length = text.toList := by
    rw [String.toList_append, List.drop_left]
  have hAll : p.toList.all Text.isAsciiLetter = true :=
    List.all_eq_true.mpr hLetters
  have hEmpty : p.toList.isEmpty = false := List.isEmpty_eq_false_iff.mpr hSome
  rw [parsePlatform?, hSupports]
  dsimp only
  rw [hTaken, hDropped, hAll, hEmpty, String.ofList_toList,
    String.ofList_toList]
  by_cases hNone : text = ""
  · rw [hNone]
    rfl
  · have hMore : text.toList.isEmpty = false := by
      rw [List.isEmpty_eq_false_iff, ne_eq, String.toList_eq_nil_iff]
      exact hNone
    rw [hMore, if_neg hNone, Option.map_eq_bind]
    rfl

/- Reading a platform adds small letters to what supports them. -/
theorem parsePlatform?_proper
    {base : Moniker}
    (hLower : ∀ c ∈ text.toList, Text.isAsciiUpper c = false)
    (h : base.parsePlatform? text = some m) :
    m.Proper := by
  rcases exists_of_parsePlatform? h with
    ⟨hSupports, p, digits, version, rfl, rfl, -, hLetters, -, -⟩
  exact
    { supports := fun _ => hSupports
      lowered := by
        intro q hq
        cases hq
        refine Text.lower_eq_self fun c hc => ?_
        have hUpper : Text.isAsciiUpper c = false :=
          hLower c (by simp [hc])
        simpa [Text.isAsciiLetter, hUpper] using hLetters c hc
      versioned := by simp }

/- A long name shows a version in one of the parts behind the first. -/
theorem exists_of_parseLong?
    (h : parseLong? text = some m) :
    ∃ family version v,
      m = ofFamily family v ∧
        (Text.splitAt ',' text).tail.findSome? (fun s =>
          Text.stripStart? "Version=" (Text.trim s)) = some version ∧
        FrameworkVersion.parseDotted? (dropVersionLetter version) = some v := by
  unfold parseLong? at h
  split at h
  · cases h
  · next identifier rest hPieces =>
      rcases Option.bind_eq_some_iff.mp h with ⟨version, hVersion, h⟩
      rcases Option.bind_eq_some_iff.mp h with ⟨v, hRead, h⟩
      rcases Option.bind_eq_some_iff.mp h with ⟨family, -, h⟩
      cases h
      rw [hPieces]
      exact ⟨family, version, v, rfl, hVersion, hRead⟩

theorem parseLong?_proper
    (h : parseLong? text = some m) :
    m.Proper := by
  obtain ⟨family, version, v, rfl, -⟩ := exists_of_parseLong? h
  exact Proper.of_platform_eq_none rfl rfl

theorem parse?_proper
    (h : parse? text = some m) :
    m.Proper := by
  unfold parse? at h
  simp only at h
  split at h
  · exact parseLong?_proper h
  · split at h
    · next framework platform hSplit =>
        rcases Option.bind_eq_some_iff.mp h with
          ⟨base, _, hPlatform⟩
        refine parsePlatform?_proper ?_ hPlatform
        intro c hc
        apply Text.isAsciiUpper_of_mem_lower
        exact Text.subset_of_splitOnce hSplit hc
    · have hNone := parseFramework?_platform h
      exact Proper.of_platform_eq_none hNone.1 hNone.2

theorem IsRead.proper
    (h : m.IsRead) :
    m.Proper := by
  rcases h with ⟨text, hParse | hLegacy⟩
  · exact parse?_proper hParse
  · rcases Option.map_eq_some_iff.mp hLegacy with ⟨v, _, rfl⟩
    exact Proper.of_platform_eq_none rfl rfl

theorem proper_of_isRead
    {ms : List Moniker}
    (hRead : ∀ x ∈ ms, x.IsRead) :
    ∀ x ∈ ms, x.Proper := by
  intro x hx
  exact (hRead x hx).proper

end Moniker

------------------------------------------------------------
-- Settings
------------------------------------------------------------

/- What the standard settings select from. -/
def SelectionOptions.standard : SelectionOptions where
  appBase := .ofFamily .netCoreApp (.ofPair 8 0)
  windowsSdkVersion := ⟨10, 0, 19041, 0, 4⟩

theorem SelectionOptions.ofSettings_standard :
    SelectionOptions.ofSettings .standard = .ok .standard :=
  rfl

/- The settings are accepted if both of their parts are. -/
theorem SelectionOptions.ofSettings_eq_ok
    {s : Settings}
    {options : SelectionOptions}
    (h : SelectionOptions.ofSettings s = .ok options) :
    appBaseOf s = .ok options.appBase ∧
      sdkVersionOf s = .ok options.windowsSdkVersion := by
  unfold ofSettings at h
  cases hBase : appBaseOf s with
  | error e =>
      rw [hBase] at h
      cases h
  | ok base =>
      rw [hBase] at h
      cases hSdk : sdkVersionOf s with
      | error e =>
          rw [hSdk] at h
          cases h
      | ok version =>
          rw [hSdk] at h
          cases h
          exact ⟨rfl, rfl⟩

/- The framework of applications has platforms but names none. -/
theorem SelectionOptions.appBase_of_ofSettings
    {s : Settings}
    {options : SelectionOptions}
    (h : SelectionOptions.ofSettings s = .ok options) :
    options.appBase.supportsPlatform = true ∧
      options.appBase.platform = none ∧
        options.appBase.platformVersion = none := by
  have hBase := (ofSettings_eq_ok h).1
  unfold appBaseOf at hBase
  dsimp only at hBase
  split at hBase
  · cases hBase
  · split at hBase
    · next hSupports =>
        rw [← Except.ok.inj hBase]
        exact ⟨hSupports, rfl, rfl⟩
    · cases hBase

theorem SelectionOptions.parseDotted?_of_ofSettings
    {s : Settings}
    {options : SelectionOptions}
    (h : SelectionOptions.ofSettings s = .ok options) :
    FrameworkVersion.parseDotted? s.windowsSdkVersion =
      some options.windowsSdkVersion := by
  have hSdk := (ofSettings_eq_ok h).2
  unfold sdkVersionOf at hSdk
  split at hSdk
  · next hRead =>
      rw [hRead, Except.ok.inj hSdk]
  · cases hSdk

end Retarget
