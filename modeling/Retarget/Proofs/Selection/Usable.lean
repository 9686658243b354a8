import Retarget.Proofs.Framework.Digits
import Retarget.Proofs.Sequence
import Retarget.Selection.Options

/-
  This file compares the two checks of the framework names in
  the settings.  The light one looks at the first two numbers
  of a version; a selection reads the whole name, with blanks
  around it and in any letter case.  What the light check
  lets through is read exactly if the rest of the name is a
  version and a platform, and then it has platforms.

  Key definitions include:
    * `Settings.IsModernPair`
    * `Moniker.IsPlatform`
    * `Moniker.IsWhole`

  Key statements include:
    * `Settings.looksLikeModernFramework_iff`
    * `Settings.looksLikeModernFramework_trim`
    * `Settings.looksLikeModernFramework_lower`
    * `Moniker.isSome_parse?_iff`
    * `SelectionOptions.usable_of_validate`
-/

namespace Retarget

------------------------------------------------------------
-- The light check
------------------------------------------------------------

namespace Settings

variable {text major minor rest : String}
variable {c : Char}

/- The first numbers of a version of .NET 5 or later. -/
structure IsModernPair (major minor : String) : Prop where
  major : (Numeral.read32? major).any (5 ≤ ·) = true
  minor : (Numeral.read32? minor).isSome = true

/- A name as far as the light check looks at it. -/
def lightName (major minor : String) : String :=
  "net" ++ (major ++ "." ++ minor)

namespace IsModernPair

theorem exists_read32?
    (h : IsModernPair major minor) :
    ∃ n, Numeral.read32? major = some n ∧ 5 ≤ n := by
  have hMajor := h.major
  cases hRead : Numeral.read32? major with
  | none => simp [hRead] at hMajor
  | some n => exact ⟨n, rfl, by simpa [hRead] using hMajor⟩

theorem mem
    (h : IsModernPair major minor)
    (hc : c ∈ major.toList ∨ c ∈ minor.toList) :
    c = '+' ∨ Text.isAsciiDigit c = true := by
  have hMajor : FrameworkVersion.IsSigned major := by
    obtain ⟨n, hRead, -⟩ := h.exists_read32?
    exact Numeral.isSome_read32?_iff.mp (Option.isSome_of_eq_some hRead)
  have hMinor : FrameworkVersion.IsSigned minor :=
    Numeral.isSome_read32?_iff.mp h.minor
  rcases hc with hc | hc
  · exact (Numeral.eq_plus_or_mem_behindPlus hc).imp_right (hMajor.digits c)
  · exact (Numeral.eq_plus_or_mem_behindPlus hc).imp_right (hMinor.digits c)

theorem not_mem
    (h : IsModernPair major minor)
    (hPlus : c ≠ '+')
    (hDigit : Text.isAsciiDigit c = false) :
    c ∉ major.toList ∧ c ∉ minor.toList := by
  have hNone : ¬ (c = '+' ∨ Text.isAsciiDigit c = true) := by
    simp [hPlus, hDigit]
  exact ⟨fun hc => hNone (h.mem (Or.inl hc)),
    fun hc => hNone (h.mem (Or.inr hc))⟩

theorem mem_lightName
    (h : IsModernPair major minor)
    (hc : c ∈ (lightName major minor).toList) :
    Text.IsVisible c ∧ Text.isAsciiUpper c = false := by
  have hChar : c ∈ ['n', 'e', 't', '.', '+'] ∨ Text.isAsciiDigit c = true := by
    simp only [lightName, String.toList_append, List.mem_append] at hc
    rcases hc with hNet | (hMajor | hDot) | hMinor
    · exact Or.inl (List.mem_append_left ['.', '+'] hNet)
    · exact (h.mem (Or.inl hMajor)).imp_left fun hPlus => by simp [hPlus]
    · exact Or.inl (by simpa using Or.inr (Or.inr (Or.inr (Or.inl hDot))))
    · exact (h.mem (Or.inr hMinor)).imp_left fun hPlus => by simp [hPlus]
  rcases hChar with hMark | hDigit
  · simp only [List.mem_cons, List.not_mem_nil, or_false] at hMark
    rcases hMark with rfl | rfl | rfl | rfl | rfl <;> decide
  · refine ⟨Text.isVisible_of_isAsciiDigit hDigit, ?_⟩
    rw [Bool.eq_false_iff, ne_eq, Text.isAsciiUpper_iff]
    rw [Numeral.isAsciiDigit_iff] at hDigit
    omega

/- In front of a hyphen a dot is all that can follow the two numbers. -/
theorem exists_splitAt
    (h : IsModernPair major minor)
    (hRest : ∀ c ∈ rest.toList.head?, c = '.' ∨ c = '-') :
    ∃ more, Text.splitAt '.' (Text.before '-' (major ++ "." ++ minor ++ rest)) =
      major :: minor :: more := by
  have hHyphen : '-' ∉ (major ++ "." ++ minor).toList := by
    obtain ⟨hMajor, hMinor⟩ := h.not_mem (c := '-') (by decide) (by decide)
    simp [hMajor, hMinor]
  have hDot : ∀ c ∈ (Text.before '-' rest).toList.head?, c = '.' := by
    rw [Text.before, String.toList_ofList]
    intro c hc
    have hNot := List.mem_takeWhile_imp (List.mem_of_mem_head? hc)
    exact (Text.head?_of_prefix (List.takeWhile_prefix _) hRest c hc).resolve_right
      (bne_iff_ne.mp hNot)
  obtain ⟨hMajor, hMinor⟩ := h.not_mem (c := '.') (by decide) (by decide)
  obtain ⟨more, hPieces⟩ := Text.exists_splitAt_eq_cons hMinor hDot
  refine ⟨more, ?_⟩
  rw [Text.before_append_of_not_mem hHyphen, String.append_assoc,
    Text.splitAt_append, hPieces, Text.splitAt_of_dot_not_mem hMajor]
  rfl

theorem isAsciiLetter_eq_false
    (h : IsModernPair major minor)
    (rest : String) :
    ∀ c ∈ (major ++ rest).toList.head?, Text.isAsciiLetter c = false := by
  have hSome : major.toList ≠ [] := by
    intro hNil
    obtain ⟨n, hRead, -⟩ := h.exists_read32?
    rw [String.toList_eq_nil_iff.mp hNil] at hRead
    cases hRead
  intro c hc
  rw [String.toList_append, List.head?_append_of_ne_nil _ hSome] at hc
  rcases h.mem (Or.inl (List.mem_of_mem_head? hc)) with rfl | hDigit
  · rfl
  · exact Text.isAsciiLetter_eq_false_of_isAsciiDigit hDigit

end IsModernPair

/-
  The light check looks at two numbers, and at the character
  behind them: it is a dot or a hyphen, if there is one.
-/
theorem looksLikeModernFramework_iff :
    looksLikeModernFramework text = true ↔
      ∃ major minor rest, text = lightName major minor ++ rest ∧
        IsModernPair major minor ∧
        ∀ c ∈ rest.toList.head?, c = '.' ∨ c = '-' := by
  constructor
  · intro h
    unfold looksLikeModernFramework at h
    split at h
    · cases h
    · next behind hNet =>
        split at h
        · next major minor more hPieces =>
            obtain ⟨version, hVersion, hMore⟩ :=
              Text.exists_append_of_splitAt hPieces
            obtain ⟨tail, hBehind, hTail⟩ :=
              Text.exists_eq_before_append '-' behind
            rw [Bool.and_eq_true] at h
            refine ⟨major, minor, version ++ tail, ?_, ⟨h.1, h.2⟩, ?_⟩
            · rw [Text.stripStart?_eq_some_iff.mp hNet, hBehind, hVersion,
                lightName]
              simp only [String.append_assoc]
            · rw [String.toList_append, List.head?_append]
              cases hHead : version.toList.head? with
              | none => exact fun c hc => Or.inr (hTail c hc)
              | some c =>
                  rintro _ ⟨rfl⟩
                  exact Or.inl (hMore c hHead)
        · cases h
  · rintro ⟨major, minor, rest, rfl, hPair, hRest⟩
    obtain ⟨more, hPieces⟩ := hPair.exists_splitAt hRest
    rw [lightName, String.append_assoc, looksLikeModernFramework,
      Text.stripStart?_append]
    dsimp only
    rw [hPieces]
    exact Bool.and_eq_true_iff.mpr ⟨hPair.major, hPair.minor⟩

theorem looksLikeModernFramework_trim
    (h : looksLikeModernFramework text = true) :
    looksLikeModernFramework (Text.trim text) = true := by
  obtain ⟨major, minor, rest, rfl, hPair, hRest⟩ :=
    looksLikeModernFramework_iff.mp h
  rw [Text.trim_append (by simp [lightName])
    fun c hc => (hPair.mem_lightName hc).1]
  refine looksLikeModernFramework_iff.mpr ⟨major, minor, _, rfl, hPair, ?_⟩
  rw [Text.trimEnd, String.toList_ofList]
  exact Text.head?_of_prefix (Text.dropEndWhile_prefix _ _) hRest

theorem looksLikeModernFramework_lower
    (h : looksLikeModernFramework text = true) :
    looksLikeModernFramework (Text.lower text) = true := by
  obtain ⟨major, minor, rest, rfl, hPair, hRest⟩ :=
    looksLikeModernFramework_iff.mp h
  rw [Text.lower_append
    (fun c hc => (hPair.mem_lightName hc).1.2.trans (by decide))
    fun c hc => (hPair.mem_lightName hc).2]
  refine looksLikeModernFramework_iff.mpr ⟨major, minor, _, rfl, hPair, ?_⟩
  rw [String.toList_ofList]
  cases hChars : rest.toList with
  | nil => simp [Text.lowerChars]
  | cons c r =>
      have hFirst := hRest c (by rw [hChars]; rfl)
      rcases hFirst with rfl | rfl
      · rintro _ ⟨rfl⟩
        exact Or.inl rfl
      · rintro _ ⟨rfl⟩
        exact Or.inr rfl

/- The name of a framework in full form starts with a dot. -/
theorem hasStart_dot_of_looksLikeModernFramework
    (h : looksLikeModernFramework text = true) :
    Text.hasStart "." text = false := by
  obtain ⟨major, minor, rest, rfl, -, -⟩ := looksLikeModernFramework_iff.mp h
  rw [Text.hasStart, lightName, String.toList_append, String.toList_append]
  rfl

end Settings

namespace Moniker

variable {text version : String}
variable {v : FrameworkVersion}

/- A text with no letter behind `net` does not start with a longer word. -/
theorem stripStart?_net_append_eq_none
    (word : String)
    (hWord : ∃ c, word.toList.head? = some c ∧ Text.isAsciiLetter c = true)
    (h : ∀ c ∈ version.toList.head?, Text.isAsciiLetter c = false) :
    Text.stripStart? ("net" ++ word) ("net" ++ version) = none := by
  rw [Option.eq_none_iff_forall_ne_some]
  intro rest hRest
  have hVersion : version = word ++ rest := by
    simpa [String.append_assoc] using Text.stripStart?_eq_some_iff.mp hRest
  obtain ⟨c, hHead, hLetter⟩ := hWord
  have hFirst : Text.isAsciiLetter c = false := by
    apply h c
    rw [hVersion, String.toList_append]
    exact List.mem_head?_append_of_mem_head? hHead
  rw [hFirst] at hLetter
  cases hLetter

/-
  The text in front of the hyphen is the version of a
  framework that has platforms.
-/
theorem exists_parseFramework?_eq
    (h : Settings.looksLikeModernFramework text = true) :
    ∃ version, Text.before '-' text = "net" ++ version ∧
      parseFramework? (Text.before '-' text) =
        (FrameworkVersion.parseDotted? version).map (ofFamily .netCoreApp) ∧
      ∀ v, FrameworkVersion.parseDotted? version = some v → 5 ≤ v.major := by
  obtain ⟨major, minor, rest, rfl, hPair, hRest⟩ :=
    Settings.looksLikeModernFramework_iff.mp h
  obtain ⟨more, hPieces⟩ := hPair.exists_splitAt hRest
  obtain ⟨n, hMajor, hModern⟩ := hPair.exists_read32?
  let version := Text.before '-' (major ++ "." ++ minor ++ rest)
  have hFront : Text.before '-' (Settings.lightName major minor ++ rest) =
      "net" ++ version := by
    rw [Settings.lightName, String.append_assoc]
    exact Text.before_append_of_not_mem (by decide) _
  have hVersion : ∀ v, FrameworkVersion.parseDotted? version = some v →
      5 ≤ v.major := by
    intro v hRead
    rw [FrameworkVersion.major_of_parseDotted? hPieces hMajor hRead]
    exact hModern
  obtain ⟨behind, hBehind, -⟩ := Text.exists_append_of_splitAt hPieces
  have hText : version = major ++ "." ++ minor ++ behind := hBehind
  have hFirst : ∀ c ∈ version.toList.head?, Text.isAsciiLetter c = false := by
    rw [hText, String.append_assoc, String.append_assoc]
    exact hPair.isAsciiLetter_eq_false _
  have hDot : version.toList.contains '.' = true := by
    rw [hText]
    simp
  have hStandard : Text.stripStart? "netstandard" ("net" ++ version) = none :=
    stripStart?_net_append_eq_none "standard" ⟨'s', rfl, rfl⟩ hFirst
  have hCore : Text.stripStart? "netcoreapp" ("net" ++ version) = none :=
    stripStart?_net_append_eq_none "coreapp" ⟨'c', rfl, rfl⟩ hFirst
  refine ⟨version, hFront, ?_, hVersion⟩
  rw [hFront, parseFramework?, hStandard, hCore, Text.stripStart?_append]
  dsimp only
  rw [if_pos hDot]
  cases hRead : FrameworkVersion.parseDotted? version with
  | none => rfl
  | some v => exact congrArg some (if_pos (hVersion v hRead))

------------------------------------------------------------
-- Whole names
------------------------------------------------------------

variable {m base : Moniker}

/- Letters, and perhaps a version that starts with a digit. -/
def IsPlatform (text : String) : Prop :=
  ∃ letters version, text = letters ++ version ∧
    letters.toList ≠ [] ∧
    (∀ c ∈ letters.toList, Text.isAsciiLetter c = true) ∧
    (∀ c ∈ version.toList.head?, Text.isAsciiDigit c = true) ∧
    (version ≠ "" →
      FrameworkVersion.IsDotted FrameworkVersion.IsSigned version)

/-
  What the light check leaves open: all of the version is
  numbers, and a platform follows the first hyphen.
-/
structure IsWhole (text : String) : Prop where
  version : ∃ version, Text.before '-' text = "net" ++ version ∧
    FrameworkVersion.IsDotted FrameworkVersion.IsSigned version
  platform : ∀ framework platform,
    Text.splitOnce '-' text = some (framework, platform) → IsPlatform platform

theorem isSome_parsePlatform?_iff
    (hSupports : base.supportsPlatform = true) :
    (base.parsePlatform? text).isSome = true ↔ IsPlatform text := by
  constructor
  · intro h
    obtain ⟨m, hRead⟩ := Option.isSome_iff_exists.mp h
    obtain ⟨-, p, digits, version, -, hText, hSome, hLetters, hDigit, hVersion⟩ :=
      exists_of_parsePlatform? hRead
    refine ⟨p, digits, hText, hSome, hLetters, hDigit, fun hDigits => ?_⟩
    rcases hVersion with ⟨hNone, -⟩ | ⟨-, hVersion, hParsed⟩
    · exact absurd hNone hDigits
    · rw [← FrameworkVersion.isSome_parseDotted?_iff, hParsed]
      exact hVersion
  · rintro ⟨p, version, rfl, hSome, hLetters, hDigit, hVersion⟩
    rw [parsePlatform?_letters hSupports hSome hLetters hDigit]
    split
    · rfl
    · next hMore =>
        rw [Option.isSome_map, FrameworkVersion.isSome_parseDotted?_iff]
        exact hVersion hMore

theorem parse?_of_looksLikeModernFramework
    (h : Settings.looksLikeModernFramework text = true) :
    parse? text =
      match Text.splitOnce '-' (Text.lower (Text.trim text)) with
      | some (framework, platform) =>
        (parseFramework? framework).bind (·.parsePlatform? platform)
      | none => parseFramework? (Text.lower (Text.trim text)) := by
  have hStart := Settings.hasStart_dot_of_looksLikeModernFramework
    (Settings.looksLikeModernFramework_trim h)
  rw [parse?]
  dsimp only
  rw [if_neg (by rw [hStart]; exact Bool.false_ne_true)]
  cases Text.splitOnce '-' (Text.lower (Text.trim text)) <;> rfl

/-
  A name that the light check lets through is read as a
  version, and as a platform if there is a hyphen.
-/
theorem exists_parse?_eq
    (h : Settings.looksLikeModernFramework text = true) :
    ∃ version,
      Text.before '-' (Text.lower (Text.trim text)) = "net" ++ version ∧
      (∀ v, FrameworkVersion.parseDotted? version = some v → 5 ≤ v.major) ∧
      parse? text = (FrameworkVersion.parseDotted? version).bind fun v =>
        match Text.splitOnce '-' (Text.lower (Text.trim text)) with
        | some (_, platform) =>
          (ofFamily .netCoreApp v).parsePlatform? platform
        | none => some (ofFamily .netCoreApp v) := by
  obtain ⟨version, hFront, hFramework, hMajor⟩ := exists_parseFramework?_eq
    (Settings.looksLikeModernFramework_lower
      (Settings.looksLikeModernFramework_trim h))
  refine ⟨version, hFront, hMajor, ?_⟩
  rw [parse?_of_looksLikeModernFramework h]
  cases hSplit : Text.splitOnce '-' (Text.lower (Text.trim text)) with
  | none =>
      rw [Text.before_eq_self (Text.splitOnce_eq_none_iff.mp hSplit)] at hFramework
      dsimp only
      rw [hFramework, Option.map_eq_bind]
      rfl
  | some cut =>
      obtain ⟨hText, hHyphen⟩ := Text.append_of_splitOnce hSplit
      rw [hText, Text.before_append hHyphen] at hFramework
      dsimp only
      rw [hFramework, Option.bind_map]
      rfl

theorem supportsPlatform_ofFamily_netCoreApp
    (h : 5 ≤ v.major) :
    (ofFamily .netCoreApp v).supportsPlatform = true := by
  simp [supportsPlatform, ofFamily, isNetCore, h]

/-
  What the light check lets through is read exactly if the
  rest of it is a version and a platform.
-/
theorem isSome_parse?_iff
    (h : Settings.looksLikeModernFramework text = true) :
    (parse? text).isSome = true ↔ IsWhole (Text.lower (Text.trim text)) := by
  obtain ⟨version, hFront, hMajor, hParse⟩ := exists_parse?_eq h
  have hDotted : IsWhole (Text.lower (Text.trim text)) →
      (FrameworkVersion.parseDotted? version).isSome = true := by
    rintro ⟨⟨other, hOther, hDotted⟩, -⟩
    have hSame : version = other := by
      simpa using hFront.symm.trans hOther
    rw [FrameworkVersion.isSome_parseDotted?_iff, hSame]
    exact hDotted
  cases hRead : FrameworkVersion.parseDotted? version with
  | none =>
      rw [hRead] at hParse hDotted
      rw [hParse]
      exact iff_of_false (fun h => by cases h) fun hWhole => by
        cases hDotted hWhole
  | some v =>
      have hSupports := supportsPlatform_ofFamily_netCoreApp (hMajor v hRead)
      have hVersion : FrameworkVersion.IsDotted FrameworkVersion.IsSigned
          version :=
        FrameworkVersion.isSome_parseDotted?_iff.mp
          (Option.isSome_of_eq_some hRead)
      rw [hParse, hRead, Option.bind_some]
      cases hSplit : Text.splitOnce '-' (Text.lower (Text.trim text)) with
      | none =>
          refine iff_of_true rfl ⟨⟨version, hFront, hVersion⟩, ?_⟩
          intro framework platform hCut
          rw [hSplit] at hCut
          cases hCut
      | some cut =>
          refine (isSome_parsePlatform?_iff hSupports).trans ⟨fun hPlatform => ?_,
            fun hWhole => hWhole.platform cut.1 cut.2 hSplit⟩
          refine ⟨⟨version, hFront, hVersion⟩, fun framework platform hCut => ?_⟩
          obtain rfl := Option.some.inj (hSplit.symm.trans hCut)
          exact hPlatform

/- Whatever is read of such a name has platforms. -/
theorem supportsPlatform_of_parse?
    (h : Settings.looksLikeModernFramework text = true)
    (hRead : parse? text = some m) :
    m.supportsPlatform = true := by
  obtain ⟨version, -, hMajor, hParse⟩ := exists_parse?_eq h
  rw [hParse] at hRead
  rcases Option.bind_eq_some_iff.mp hRead with ⟨v, hVersion, hPlatform⟩
  have hSupports := supportsPlatform_ofFamily_netCoreApp (hMajor v hVersion)
  split at hPlatform
  · obtain ⟨-, _, _, _, rfl, -⟩ := exists_of_parsePlatform? hPlatform
    exact hSupports
  · cases hPlatform
    exact hSupports

end Moniker

------------------------------------------------------------
-- Valid settings
------------------------------------------------------------

namespace Settings

variable {s : Settings}

/- The frameworks of all channels. -/
def frameworks (s : Settings) : List String :=
  [s.currentFramework, s.ltsFramework, s.previewFramework]

theorem appFramework_mem
    (s : Settings) :
    s.appFramework ∈ s.frameworks := by
  unfold appFramework frameworks
  cases s.channel <;> simp

theorem looksLikeModernFramework_of_requireFramework
    {field value : String}
    (h : requireFramework field value = .ok ()) :
    looksLikeModernFramework value = true := by
  unfold requireFramework at h
  split at h
  · assumption
  · cases h

/- Valid settings pass the light check on every channel. -/
theorem looksLikeModernFramework_of_validate
    (h : s.validate = .ok ()) :
    ∀ base ∈ s.frameworks, looksLikeModernFramework base = true := by
  unfold validate at h
  obtain ⟨_, -, h⟩ := bind_eq_ok_iff.mp h
  obtain ⟨_, -, h⟩ := bind_eq_ok_iff.mp h
  obtain ⟨_, -, h⟩ := bind_eq_ok_iff.mp h
  obtain ⟨_, -, h⟩ := bind_eq_ok_iff.mp h
  obtain ⟨_, -, h⟩ := bind_eq_ok_iff.mp h
  obtain ⟨_, -, h⟩ := bind_eq_ok_iff.mp h
  obtain ⟨_, hCurrent, h⟩ := bind_eq_ok_iff.mp h
  obtain ⟨_, hLts, h⟩ := bind_eq_ok_iff.mp h
  obtain ⟨_, hPreview, -⟩ := bind_eq_ok_iff.mp h
  intro base hBase
  simp only [frameworks, List.mem_cons, List.not_mem_nil, or_false] at hBase
  rcases hBase with rfl | rfl | rfl
  · exact looksLikeModernFramework_of_requireFramework hCurrent
  · exact looksLikeModernFramework_of_requireFramework hLts
  · exact looksLikeModernFramework_of_requireFramework hPreview

end Settings

namespace SelectionOptions

open Moniker

variable {s : Settings}
variable {m : Moniker}
variable {v : FrameworkVersion}

theorem ofSettings_of_parse?
    (hSdk : FrameworkVersion.parseDotted? s.windowsSdkVersion = some v)
    (hRead : parse? s.appFramework = some m)
    (hSupports : m.supportsPlatform = true) :
    ofSettings s = .ok ⟨m.withoutPlatform, v⟩ := by
  have hBase : appBaseOf s = .ok m.withoutPlatform := by
    unfold appBaseOf
    dsimp only
    rw [hRead]
    exact if_pos hSupports
  have hVersion : sdkVersionOf s = .ok v := by
    rw [sdkVersionOf, hSdk]
  rw [ofSettings, hBase, hVersion]
  rfl

theorem ofSettings_of_parse?_eq_none
    (hRead : parse? s.appFramework = none) :
    ofSettings s =
      .error ⟨"app framework", s.appFramework,
        invalidMessage s.appFramework⟩ := by
  have hBase : appBaseOf s = .error ⟨"app framework", s.appFramework,
      invalidMessage s.appFramework⟩ := by
    unfold appBaseOf
    dsimp only
    rw [hRead]
  rw [ofSettings, hBase]
  rfl

/-
  The frameworks of valid settings are read exactly if they
  are whole, and then they have platforms.  On a channel
  with such a framework a selection can start; on any other
  one its name is refused.
-/
theorem usable_of_validate
    (h : s.validate = .ok ()) :
    (∀ base ∈ s.frameworks,
      ((parse? base).isSome = true ↔
        IsWhole (Text.lower (Text.trim base))) ∧
      ∀ m, parse? base = some m → m.supportsPlatform = true) ∧
    ∀ channel v,
      FrameworkVersion.parseDotted? s.windowsSdkVersion = some v →
      let chosen := { s with channel := channel }
      (IsWhole (Text.lower (Text.trim chosen.appFramework)) →
        ∃ m, parse? chosen.appFramework = some m ∧
          ofSettings chosen = .ok ⟨m.withoutPlatform, v⟩) ∧
      (¬ IsWhole (Text.lower (Text.trim chosen.appFramework)) →
        ofSettings chosen =
          .error ⟨"app framework", chosen.appFramework,
            invalidMessage chosen.appFramework⟩) := by
  have hLight := Settings.looksLikeModernFramework_of_validate h
  refine ⟨fun base hBase => ⟨isSome_parse?_iff (hLight base hBase),
    fun m hRead => supportsPlatform_of_parse? (hLight base hBase) hRead⟩, ?_⟩
  intro channel v hSdk chosen
  have hChosen : Settings.looksLikeModernFramework chosen.appFramework = true :=
    hLight _ chosen.appFramework_mem
  rw [← isSome_parse?_iff hChosen]
  constructor
  · intro hSome
    obtain ⟨m, hRead⟩ := Option.isSome_iff_exists.mp hSome
    exact ⟨m, hRead, ofSettings_of_parse? hSdk hRead
      (supportsPlatform_of_parse? hChosen hRead)⟩
  · intro hNone
    exact ofSettings_of_parse?_eq_none (Option.not_isSome_iff_eq_none.mp hNone)

/- A platform and blanks are read, and a number that is none is not. -/
theorem usable_of_validate_of_unfinished :
    let s : Settings :=
      { Settings.standard with
        currentFramework := "net9.0.1-Windows10.0 "
        ltsFramework := "net8.0.x" }
    let m : Moniker :=
      ⟨.netCoreApp, ⟨9, 0, 1, 0, 3⟩, some "windows", some (.ofPair 10 0)⟩
    s.validate = .ok () ∧
      parse? "net9.0.1-Windows10.0 " = some m ∧ m.supportsPlatform = true ∧
      ofSettings { s with channel := .current } =
        .ok ⟨m.withoutPlatform, ⟨10, 0, 19041, 0, 4⟩⟩ ∧
      ofSettings { s with channel := .lts } =
        .error ⟨"app framework", "net8.0.x", invalidMessage "net8.0.x"⟩ := by
  intro s m
  have hValid : s.validate = .ok () := by decide +kernel
  have hSdk : FrameworkVersion.parseDotted? s.windowsSdkVersion =
      some ⟨10, 0, 19041, 0, 4⟩ := by
    decide +kernel
  have hCurrent : parse? s.currentFramework = some m := by decide +kernel
  have hLts : parse? s.ltsFramework = none := by decide +kernel
  obtain ⟨hRead, hSettings⟩ := usable_of_validate hValid
  obtain ⟨hWhole, hSupports⟩ := hRead s.currentFramework (by simp [Settings.frameworks])
  obtain ⟨hOpen, -⟩ := hRead s.ltsFramework (by simp [Settings.frameworks])
  obtain ⟨m', hRead', hOk⟩ := (hSettings .current _ hSdk).1
    (hWhole.mp (Option.isSome_of_eq_some hCurrent))
  obtain rfl : m = m' := Option.some.inj (hCurrent.symm.trans hRead')
  refine ⟨hValid, hCurrent, hSupports m hCurrent, hOk, ?_⟩
  refine (hSettings .lts _ hSdk).2 fun hLtsWhole => ?_
  have hSome := hOpen.mpr hLtsWhole
  rw [hLts] at hSome
  cases hSome

/-
  Valid settings can name a framework that is not read, and
  then no selection starts.
-/
theorem not_forall_usable :
    ¬ ∀ s : Settings, s.validate = .ok () →
      (∀ base ∈ s.frameworks, ∃ m, parse? base = some m ∧
        m.supportsPlatform = true) ∧
      ∀ channel v,
        FrameworkVersion.parseDotted? s.windowsSdkVersion = some v →
          ∃ options, ofSettings { s with channel := channel } = .ok options := by
  intro h
  let s : Settings := { Settings.standard with ltsFramework := "net8.0.x" }
  have hValid : s.validate = .ok () := by decide +kernel
  have hNone : parse? s.ltsFramework = none := by decide +kernel
  obtain ⟨m, hRead, -⟩ := (h s hValid).1 s.ltsFramework (by simp [Settings.frameworks])
  rw [hNone] at hRead
  cases hRead

end SelectionOptions

end Retarget
