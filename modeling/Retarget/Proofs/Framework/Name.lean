import Retarget.Proofs.Framework.Same
import Retarget.Proofs.Framework.VersionText

/-
  This file shows what is read back from the name of a
  framework.  A name shows two numbers of the versions of
  .NET Standard and .NET Core and leaves out a platform
  version of zero, and it runs the digits of a .NET Framework
  together.

  Key definitions include:
    * `Moniker.IsWritten`
    * `Moniker.shortened`
    * `Moniker.IsCompact`
    * `Moniker.IsShort`

  Key statements include:
    * `Moniker.IsWritten.of_parse?`
    * `Moniker.exists_parseFramework?_frameworkName`
    * `Moniker.parsePlatform?_append`
    * `Moniker.IsWritten.exists_parse?_name`
    * `Moniker.name_reread`
-/

namespace Retarget.Moniker

variable {m base : Moniker}
variable {text rest p : String}
variable {c : Char}

------------------------------------------------------------
-- The characters of a name
------------------------------------------------------------

/- The characters that the name of a framework is made of. -/
def isNameChar (c : Char) : Bool :=
  Text.isAsciiLower c || Text.isAsciiDigit c || c == '.' || c == '-'

theorem isNameChar_of_isAsciiDigit
    (h : Text.isAsciiDigit c = true) :
    isNameChar c = true := by
  simp [isNameChar, h]

theorem isNameChar_of_isAsciiLower
    (h : Text.isAsciiLower c = true) :
    isNameChar c = true := by
  simp [isNameChar, h]

theorem isVisible_of_isNameChar
    (h : isNameChar c = true) :
    Text.IsVisible c := by
  rw [isNameChar, Bool.or_eq_true, Bool.or_eq_true, Bool.or_eq_true,
    beq_iff_eq, beq_iff_eq] at h
  rcases h with ((hLower | hDigit) | rfl) | rfl
  · exact Text.isVisible_of_isAsciiLetter (by simp [Text.isAsciiLetter, hLower])
  · exact Text.isVisible_of_isAsciiDigit hDigit
  · decide
  · decide

theorem isAsciiUpper_eq_false_of_isNameChar
    (h : isNameChar c = true) :
    Text.isAsciiUpper c = false := by
  rw [isNameChar, Bool.or_eq_true, Bool.or_eq_true, Bool.or_eq_true,
    beq_iff_eq, beq_iff_eq, Text.isAsciiLower_iff,
    Numeral.isAsciiDigit_iff] at h
  rw [Bool.eq_false_iff, ne_eq, Text.isAsciiUpper_iff]
  rcases h with ((hLower | hDigit) | rfl) | rfl
  · omega
  · omega
  · decide
  · decide

/- A text of such characters is read as it is. -/
theorem parse?_eq_of_isNameChar
    (hChars : ∀ c ∈ text.toList, isNameChar c = true)
    (hStart : Text.hasStart "." text = false) :
    parse? text =
      match Text.splitOnce '-' text with
      | some (framework, platform) =>
        (parseFramework? framework).bind (·.parsePlatform? platform)
      | none => parseFramework? text := by
  have hTrim : Text.trim text = text :=
    Text.trim_eq_self fun c hc => isVisible_of_isNameChar (hChars c hc)
  have hLower : Text.lower text = text :=
    Text.lower_eq_self_of_ascii
      (fun c hc => (isVisible_of_isNameChar (hChars c hc)).2.trans (by decide))
      fun c hc => isAsciiUpper_eq_false_of_isNameChar (hChars c hc)
  rw [parse?, hTrim, hStart, hLower]
  rfl

------------------------------------------------------------
-- What was read
------------------------------------------------------------

/- A framework whose versions dotted numbers can stand for. -/
structure IsWritten (m : Moniker) : Prop extends m.Proper where
  version : m.version.IsWritten
  platform : ∀ p, m.platform = some p →
    p.toList ≠ [] ∧ ∀ c ∈ p.toList, Text.isAsciiLower c = true
  platformVersion : ∀ v, m.platformVersion = some v → v.IsWritten

theorem isWritten_version_of_parseFramework?
    (h : parseFramework? text = some m) :
    m.version.IsWritten := by
  obtain ⟨family, start, rest, v, rfl, -, -, hDotted | hCompact⟩ :=
    exists_of_parseFramework? h
  · exact .of_parseDotted? hDotted
  · exact .of_parseCompact? hCompact

theorem isWritten_of_platform_eq_none
    (hVersion : m.version.IsWritten)
    (hNone : m.platform = none ∧ m.platformVersion = none) :
    m.IsWritten where
  toProper := .of_platform_eq_none hNone.1 hNone.2
  version := hVersion
  platform := by simp [hNone.1]
  platformVersion := by simp [hNone.2]

theorem IsWritten.of_parseLong?
    (h : parseLong? text = some m) :
    m.IsWritten := by
  obtain ⟨family, version, v, rfl, -, hRead⟩ := exists_of_parseLong? h
  exact isWritten_of_platform_eq_none (.of_parseDotted? hRead) ⟨rfl, rfl⟩

/- Every framework that is read from a name is written that way. -/
theorem IsWritten.of_parse?
    (h : parse? text = some m) :
    m.IsWritten := by
  have hProper := parse?_proper h
  unfold parse? at h
  dsimp only at h
  split at h
  · exact .of_parseLong? h
  · split at h
    · next framework platform hSplit =>
        rcases Option.bind_eq_some_iff.mp h with ⟨base, hBase, hRead⟩
        rcases exists_of_parsePlatform? hRead with
          ⟨-, p, digits, version, rfl, rfl, hSome, hLetters, -, hVersion⟩
        rw [(parseFramework?_platform hBase).2] at hVersion
        have hWritten : base.version.IsWritten :=
          isWritten_version_of_parseFramework? hBase
        refine ⟨hProper, hWritten, ?_, ?_⟩
        · intro q hq
          cases hq
          refine ⟨hSome, fun c hc => ?_⟩
          have hUpper : Text.isAsciiUpper c = false :=
            Text.isAsciiUpper_of_mem_lower
              (Text.subset_of_splitOnce hSplit (by simp [hc]))
          simpa [Text.isAsciiLetter, hUpper] using hLetters c hc
        · intro v hv
          rcases hVersion with ⟨-, hNone⟩ | ⟨-, -, hDigits⟩
          · cases hNone.symm.trans hv
          · exact .of_parseDotted? (hDigits.trans hv)
    · exact isWritten_of_platform_eq_none
        (isWritten_version_of_parseFramework? h) (parseFramework?_platform h)

------------------------------------------------------------
-- Reading the parts of a name
------------------------------------------------------------

theorem parseFramework?_netStandard
    (rest : String) :
    parseFramework? ("netstandard" ++ rest) =
      (FrameworkVersion.parseDotted? rest).map (ofFamily .netStandard) := by
  rw [parseFramework?, Text.stripStart?_append]

theorem parseFramework?_netCoreApp
    (hRest : 's' ∉ rest.toList) :
    parseFramework? ("netcoreapp" ++ rest) =
      (FrameworkVersion.parseDotted? rest).map (ofFamily .netCoreApp) := by
  -- The longer start has a letter that the text does not have.
  have hStandard : Text.stripStart? "netstandard" ("netcoreapp" ++ rest) = none :=
    Text.stripStart?_eq_none (c := 's') (by decide)
      (by simpa using hRest)
  rw [parseFramework?, hStandard, Text.stripStart?_append]

theorem parseFramework?_net
    (hStandard : 's' ∉ rest.toList)
    (hCore : 'c' ∉ rest.toList) :
    parseFramework? ("net" ++ rest) =
      (if rest.toList.contains '.' then
          FrameworkVersion.parseDotted? rest
        else FrameworkVersion.parseCompact? rest).map ofNetVersion := by
  have hNoStandard : Text.stripStart? "netstandard" ("net" ++ rest) = none :=
    Text.stripStart?_eq_none (c := 's') (by decide) (by simpa using hStandard)
  have hNoCore : Text.stripStart? "netcoreapp" ("net" ++ rest) = none :=
    Text.stripStart?_eq_none (c := 'c') (by decide) (by simpa using hCore)
  rw [parseFramework?, hNoStandard, hNoCore, Text.stripStart?_append]
  dsimp only
  split <;> rfl

theorem mem_shortVersion
    (h : c ∈ m.shortVersion.toList) :
    c = '.' ∨ Text.isAsciiDigit c = true := by
  rw [shortVersion, String.toList_append, String.toList_append, List.mem_append,
    List.mem_append] at h
  rcases h with (hMajor | hDot) | hMinor
  · exact Or.inr (Numeral.isAsciiDigit_of_mem_toString hMajor)
  · exact Or.inl (by simpa using hDot)
  · exact Or.inr (Numeral.isAsciiDigit_of_mem_toString hMinor)

/- No letter is in what follows the letters of a name. -/
theorem not_mem_shortVersion
    (hDot : c ≠ '.')
    (hDigit : Text.isAsciiDigit c = false) :
    c ∉ m.shortVersion.toList := by
  intro h
  rcases mem_shortVersion h with hc | hc
  · exact hDot hc
  · rw [hDigit] at hc
    cases hc

theorem not_mem_compactText
    {v : FrameworkVersion}
    (hDigit : Text.isAsciiDigit c = false) :
    c ∉ v.compactText.toList := by
  intro h
  rw [FrameworkVersion.mem_compactText h] at hDigit
  cases hDigit

/-
  What the name of a framework shows of it: two numbers of
  the version, but for .NET Framework, and no platform
  version of zero.
-/
def shortened (m : Moniker) : Moniker :=
  { m with
    version :=
      if m.isNetFramework then m.version
      else .ofPair m.version.major m.version.minor
    platformVersion := m.platformVersion.filter fun v => !v.isZero }

/- A .NET Framework that its digits tell from all others. -/
def IsCompact (m : Moniker) : Prop :=
  m.version.major < 5 ∧ ∀ n ∈ m.version.numbers, n < 10

theorem parseFramework?_frameworkName_of_netStandard
    (h : m.IsWritten)
    (hFamily : m.family = .netStandard) :
    parseFramework? m.frameworkName =
      some (ofFamily .netStandard (.ofPair m.version.major m.version.minor)) := by
  have hName : m.frameworkName = "netstandard" ++ m.shortVersion := by
    rw [frameworkName, hFamily]
  rw [hName, parseFramework?_netStandard, shortVersion,
    h.version.parseDotted?_pair]
  rfl

theorem parseFramework?_frameworkName_of_netCoreApp
    (h : m.IsWritten)
    (hFamily : m.family = .netCoreApp) :
    parseFramework? m.frameworkName =
      some (ofFamily .netCoreApp (.ofPair m.version.major m.version.minor)) := by
  have hPair : FrameworkVersion.parseDotted? m.shortVersion =
      some (.ofPair m.version.major m.version.minor) :=
    h.version.parseDotted?_pair
  have hDot : m.shortVersion.toList.contains '.' = true := by
    simp [shortVersion]
  by_cases hNet : m.version.major ≥ 5
  · have hName : m.frameworkName = "net" ++ m.shortVersion := by
      rw [frameworkName, hFamily]
      exact if_pos hNet
    rw [hName, parseFramework?_net (not_mem_shortVersion (by decide) rfl)
      (not_mem_shortVersion (by decide) rfl), if_pos hDot, hPair]
    exact congrArg some (if_pos hNet)
  · have hName : m.frameworkName = "netcoreapp" ++ m.shortVersion := by
      rw [frameworkName, hFamily]
      exact if_neg hNet
    rw [hName, parseFramework?_netCoreApp
      (not_mem_shortVersion (by decide) rfl), hPair]
    rfl

theorem exists_parseFramework?_frameworkName_of_netFramework
    (hFamily : m.family = .netFramework)
    (hCompact : m.IsCompact) :
    ∃ v, parseFramework? m.frameworkName = some (ofFamily .netFramework v) ∧
      v.numbers = m.version.numbers := by
  have hName : m.frameworkName = "net" ++ m.version.compactText := by
    rw [frameworkName, hFamily]
  obtain ⟨v, hRead, hNumbers⟩ :=
    FrameworkVersion.exists_parseCompact?_compactText hCompact.2
  have hDot : ¬ m.version.compactText.toList.contains '.' = true := by
    rw [List.contains_iff_mem]
    exact not_mem_compactText rfl
  have hMajor : ¬ v.major ≥ 5 := by
    rw [FrameworkVersion.major_eq hNumbers]
    exact Nat.not_le_of_lt hCompact.1
  refine ⟨v, ?_, hNumbers⟩
  rw [hName, parseFramework?_net (not_mem_compactText rfl)
    (not_mem_compactText rfl), if_neg hDot, hRead]
  exact congrArg some (if_neg hMajor)

/- A framework is read back, as far as its name shows it. -/
theorem exists_parseFramework?_frameworkName
    (h : m.IsWritten)
    (hCompact : m.isNetFramework = true → m.IsCompact) :
    ∃ v, parseFramework? m.frameworkName = some (ofFamily m.family v) ∧
      v.numbers = m.shortened.version.numbers := by
  cases hFamily : m.family with
  | netStandard =>
      refine ⟨_, parseFramework?_frameworkName_of_netStandard h hFamily, ?_⟩
      simp [shortened, isNetFramework, hFamily]
  | netCoreApp =>
      refine ⟨_, parseFramework?_frameworkName_of_netCoreApp h hFamily, ?_⟩
      simp [shortened, isNetFramework, hFamily]
  | netFramework =>
      have hFramework : m.isNetFramework = true := by
        simp [isNetFramework, hFamily]
      simpa [shortened, hFramework] using
        exists_parseFramework?_frameworkName_of_netFramework hFamily
          (hCompact hFramework)

/- Letters and a version are read as a platform. -/
theorem parsePlatform?_append
    {version : Option FrameworkVersion}
    (hSupports : base.supportsPlatform = true)
    (hNone : base.platformVersion = none)
    (hSome : p.toList ≠ [])
    (hLetters : ∀ c ∈ p.toList, Text.isAsciiLetter c = true)
    (hVersion : ∀ v, version = some v → v.IsWritten) :
    base.parsePlatform? (p ++ (version.map FrameworkVersion.text).getD "") =
      some { base with platform := some p, platformVersion := version } := by
  cases version with
  | none =>
      rw [Option.map_none, Option.getD_none,
        parsePlatform?_letters hSupports hSome hLetters (by simp),
        if_pos rfl, hNone]
  | some v =>
      have hWritten := hVersion v rfl
      obtain ⟨c, rest, hText, hDigit⟩ := hWritten.exists_text_eq_cons
      have hMore : v.text ≠ "" := fun hEmpty => by simp [hEmpty] at hText
      rw [Option.map_some, Option.getD_some,
        parsePlatform?_letters hSupports hSome hLetters (by simpa [hText]),
        if_neg hMore, hWritten.parseDotted?_text, Option.map_some]

------------------------------------------------------------
-- Reading a name
------------------------------------------------------------

theorem exists_frameworkName_eq
    (m : Moniker) :
    ∃ start ending, m.frameworkName = "net" ++ (start ++ ending) ∧
      (∀ c ∈ start.toList, Text.isAsciiLower c = true) ∧
      ∀ c ∈ ending.toList, c = '.' ∨ Text.isAsciiDigit c = true := by
  unfold frameworkName
  cases m.family with
  | netFramework =>
      exact ⟨"", m.version.compactText, by simp, by simp,
        fun c hc => Or.inr (FrameworkVersion.mem_compactText hc)⟩
  | netStandard =>
      refine ⟨"standard", m.shortVersion, ?_, List.all_eq_true.mp rfl,
        fun c hc => mem_shortVersion hc⟩
      rw [← String.append_assoc]
      rfl
  | netCoreApp =>
      dsimp only
      split
      · exact ⟨"", m.shortVersion, by simp, by simp,
          fun c hc => mem_shortVersion hc⟩
      · refine ⟨"coreapp", m.shortVersion, ?_, List.all_eq_true.mp rfl,
          fun c hc => mem_shortVersion hc⟩
        rw [← String.append_assoc]
        rfl

theorem mem_frameworkName
    (h : c ∈ m.frameworkName.toList) :
    isNameChar c = true ∧ c ≠ '-' := by
  obtain ⟨start, ending, hName, hStart, hEnding⟩ := m.exists_frameworkName_eq
  have hNet : ∀ c ∈ "net".toList, Text.isAsciiLower c = true :=
    List.all_eq_true.mp rfl
  have hLower : ∀ c, Text.isAsciiLower c = true → isNameChar c = true ∧ c ≠ '-' := by
    intro c hc
    refine ⟨isNameChar_of_isAsciiLower hc, ?_⟩
    rintro rfl
    exact absurd hc (by decide)
  rw [hName, String.toList_append, String.toList_append, List.mem_append,
    List.mem_append] at h
  rcases h with hc | hc | hc
  · exact hLower c (hNet c hc)
  · exact hLower c (hStart c hc)
  · rcases hEnding c hc with rfl | hDigit
    · decide
    · refine ⟨isNameChar_of_isAsciiDigit hDigit, ?_⟩
      rintro rfl
      exact absurd hDigit (by decide)

theorem hyphen_not_mem_frameworkName
    (m : Moniker) :
    '-' ∉ m.frameworkName.toList :=
  fun h => (mem_frameworkName h).2 rfl

theorem hasStart_dot_name
    (m : Moniker) :
    Text.hasStart "." m.name = false := by
  obtain ⟨start, ending, hName, -, -⟩ := m.exists_frameworkName_eq
  rw [Text.hasStart, name, hName, String.toList_append, String.toList_append]
  rfl

theorem platformSuffix_of_eq_some
    (h : m.platform = some p) :
    m.platformSuffix =
      "-" ++ (p ++ (m.shortened.platformVersion.map FrameworkVersion.text).getD "") := by
  rw [platformSuffix, h, ← String.append_assoc]
  rfl

theorem IsWritten.shortened_platformVersion
    (h : m.IsWritten) :
    ∀ v, m.shortened.platformVersion = some v → v.IsWritten :=
  fun v hv => h.platformVersion v (Option.eq_some_of_filter_eq_some hv)

theorem IsWritten.isNameChar_of_mem_name
    (h : m.IsWritten)
    (hc : c ∈ m.name.toList) :
    isNameChar c = true := by
  rw [name, String.toList_append, List.mem_append] at hc
  rcases hc with hc | hc
  · exact (mem_frameworkName hc).1
  · cases hPlatform : m.platform with
    | none => simp [platformSuffix, hPlatform] at hc
    | some p =>
        rw [platformSuffix_of_eq_some hPlatform, String.toList_append,
          String.toList_append, List.mem_append, List.mem_append] at hc
        rcases hc with hc | hc | hc
        · obtain rfl : c = '-' := by simpa using hc
          rfl
        · exact isNameChar_of_isAsciiLower ((h.platform p hPlatform).2 c hc)
        · cases hVersion : m.shortened.platformVersion with
          | none => simp [hVersion] at hc
          | some v =>
              rw [hVersion] at hc
              rcases FrameworkVersion.mem_text hc with rfl | hDigit
              · rfl
              · exact isNameChar_of_isAsciiDigit hDigit

theorem shortened_major
    (m : Moniker) :
    m.shortened.version.major = m.version.major := by
  unfold shortened
  dsimp only
  split <;> rfl

theorem supportsPlatform_ofFamily
    {v : FrameworkVersion}
    (hNumbers : v.numbers = m.shortened.version.numbers) :
    (ofFamily m.family v).supportsPlatform = m.supportsPlatform := by
  have hMajor : v.major = m.version.major :=
    (FrameworkVersion.major_eq hNumbers).trans m.shortened_major
  rw [supportsPlatform, supportsPlatform, ofFamily]
  dsimp only
  rw [hMajor]
  rfl

/-
  The name of a framework is read as what it shows of the
  framework.
-/
theorem IsWritten.exists_parse?_name
    (h : m.IsWritten)
    (hCompact : m.isNetFramework = true → m.IsCompact) :
    ∃ v, v.numbers = m.shortened.version.numbers ∧
      parse? m.name = some { m.shortened with version := v } := by
  obtain ⟨v, hRead, hNumbers⟩ := exists_parseFramework?_frameworkName h hCompact
  refine ⟨v, hNumbers, ?_⟩
  rw [parse?_eq_of_isNameChar (fun _ => h.isNameChar_of_mem_name)
    m.hasStart_dot_name]
  cases hPlatform : m.platform with
  | none =>
      have hName : m.name = m.frameworkName := by
        simp [name, platformSuffix, hPlatform]
      rw [hName, Text.splitOnce_eq_none_iff.mpr m.hyphen_not_mem_frameworkName]
      dsimp only
      rw [hRead]
      simp [shortened, ofFamily, hPlatform, h.versioned hPlatform]
  | some p =>
      have hPlaced : m.platform.isSome = true := by simp [hPlatform]
      have hSupports : (ofFamily m.family v).supportsPlatform = true := by
        rw [supportsPlatform_ofFamily hNumbers]
        exact h.supports hPlaced
      have hLetters : ∀ c ∈ p.toList, Text.isAsciiLetter c = true := by
        intro c hc
        simp [Text.isAsciiLetter, (h.platform p hPlatform).2 c hc]
      have hName : m.name = m.frameworkName ++ String.singleton '-' ++
          (p ++ (m.shortened.platformVersion.map FrameworkVersion.text).getD "") := by
        rw [name, platformSuffix_of_eq_some hPlatform, ← String.append_assoc]
        rfl
      rw [hName, Text.splitOnce_append m.hyphen_not_mem_frameworkName]
      dsimp only
      rw [hRead, Option.bind_some, parsePlatform?_append hSupports rfl
        (h.platform p hPlatform).1 hLetters h.shortened_platformVersion]
      simp [shortened, ofFamily, hPlatform]

------------------------------------------------------------
-- What a name keeps
------------------------------------------------------------

/- A framework that its name shows in full. -/
structure IsShort (m : Moniker) : Prop where
  version : m.isNetFramework = false →
    m.version.build = 0 ∧ m.version.revision = 0
  platformVersion : ∀ v, m.platformVersion = some v → v.isZero = false

theorem shortened_version_same_iff :
    m.shortened.version.same m.version = true ↔
      (m.isNetFramework = false →
        m.version.build = 0 ∧ m.version.revision = 0) := by
  rw [FrameworkVersion.same, beq_iff_eq]
  unfold shortened
  cases m.isNetFramework with
  | true => simp
  | false =>
      simp only [Bool.false_eq_true, if_false, FrameworkVersion.ofPair,
        FrameworkVersion.numbers, List.cons.injEq, and_true, true_and,
        forall_const]
      exact and_congr eq_comm eq_comm

theorem shortened_platformVersion_same_iff :
    (m.shortened.platformVersion.isSome = m.platformVersion.isSome ∧
      m.shortened.platformVersionOrZero.le m.platformVersionOrZero = true ∧
      m.platformVersionOrZero.le m.shortened.platformVersionOrZero = true) ↔
      ∀ v, m.platformVersion = some v → v.isZero = false := by
  cases hSome : m.platformVersion with
  | none => simp [shortened, platformVersionOrZero, hSome, FrameworkVersion.le_refl]
  | some v =>
      cases hZero : v.isZero with
      | true => simp [shortened, hSome, hZero, Option.filter_some]
      | false =>
          have hKept : m.shortened.platformVersion = some v := by
            simp [shortened, hSome, hZero, Option.filter_some]
          simp [platformVersionOrZero, hKept, hSome, hZero,
            FrameworkVersion.le_refl]

theorem same_shortened_iff :
    m.shortened.same m = true ↔ m.IsShort := by
  rw [same_iff, frameworkConsumes_and_iff, shortened_version_same_iff,
    shortened_platformVersion_same_iff]
  constructor
  · rintro ⟨⟨-, hVersion⟩, -, hPlatformVersion⟩
    exact ⟨hVersion, hPlatformVersion⟩
  · rintro ⟨hVersion, hPlatformVersion⟩
    exact ⟨⟨rfl, hVersion⟩, rfl, hPlatformVersion⟩

theorem same_of_numbers
    {v : FrameworkVersion}
    (h : v.numbers = m.version.numbers) :
    same { m with version := v } m = true := by
  rw [same_iff, frameworkConsumes_and_iff, FrameworkVersion.same, beq_iff_eq]
  exact ⟨⟨rfl, h⟩, rfl, rfl, FrameworkVersion.le_refl _,
    FrameworkVersion.le_refl _⟩

/-
  The name of a framework can be read, and what is read is
  the framework as its name shows it.  That is the framework
  itself if no more than two numbers of its version count,
  and its platform version is not zero.
-/
theorem name_reread
    (hRead : parse? text = some m)
    (hCompact : m.isNetFramework = true → m.IsCompact) :
    ∃ other, parse? m.name = some other ∧
      other.same m.shortened = true ∧
      (other.same m = true ↔ m.IsShort) := by
  obtain ⟨v, hNumbers, hName⟩ :=
    (IsWritten.of_parse? hRead).exists_parse?_name hCompact
  -- How many numbers were written differs, and does not count.
  have hSame : same { m.shortened with version := v } m.shortened = true :=
    same_of_numbers hNumbers
  refine ⟨_, hName, hSame, ?_⟩
  rw [← same_shortened_iff]
  constructor
  · exact same_trans (same_symm hSame)
  · exact same_trans hSame

/- A long name is read, and its digits run together. -/
theorem name_reread_of_long :
    let m := ofFamily .netFramework ⟨4, 7, 2, 0, 3⟩
    parse? ".NETFramework,Version=v4.7.2" = some m ∧ m.IsCompact ∧
      ∃ other, parse? "net472" = some other ∧
        other.same m.shortened = true ∧
        (other.same m = true ↔ m.IsShort) := by
  have hRead : parse? ".NETFramework,Version=v4.7.2" =
      some (ofFamily .netFramework ⟨4, 7, 2, 0, 3⟩) := by
    decide +kernel
  have hCompact : (ofFamily .netFramework ⟨4, 7, 2, 0, 3⟩).IsCompact :=
    ⟨by decide, by decide⟩
  have hName : (ofFamily .netFramework ⟨4, 7, 2, 0, 3⟩).name = "net472" := by
    decide +kernel
  refine ⟨hRead, hCompact, ?_⟩
  rw [← hName]
  exact name_reread hRead fun _ => hCompact

/- A platform version of zero is lost with the name. -/
theorem not_forall_same_of_name :
    ¬ ∀ (text : String) (m : Moniker), parse? text = some m →
      ∃ other, parse? m.name = some other ∧ other.same m = true := by
  intro h
  let m : Moniker := ⟨.netCoreApp, .ofPair 6 0, some "windows", some .zero⟩
  have hRead : parse? "net6.0-windows0.0" = some m := by decide +kernel
  have hName : parse? m.name = some { m with platformVersion := none } := by
    decide +kernel
  obtain ⟨other, hOther, hSame⟩ := h _ m hRead
  rw [hName] at hOther
  cases hOther
  exact absurd hSame (by decide)

end Retarget.Moniker
