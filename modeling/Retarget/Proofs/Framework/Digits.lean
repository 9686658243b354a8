import Retarget.Proofs.Framework.Proper
import Retarget.Proofs.Framework.VersionText

/-
  This file shows which characters a version can have in the
  texts that frameworks and settings are read from: digits in
  one to four pieces with dots between them, where each piece
  may stand behind one plus sign.

  Key definitions include:
    * `FrameworkVersion.IsDotted`
    * `FrameworkVersion.IsReading`
    * `Moniker.versionText?`
    * `Moniker.platformVersionText?`

  Key statements include:
    * `FrameworkVersion.isSome_parseDotted?_iff`
    * `FrameworkVersion.isDotted_isRun_iff`
    * `Moniker.isReading_of_parse?`
    * `FrameworkVersion.digits_of_read`
-/

namespace Retarget

namespace FrameworkVersion

variable {v : FrameworkVersion}
variable {ns : List Nat}
variable {text : String}
variable {c : Char}

------------------------------------------------------------
-- Pieces of a version
------------------------------------------------------------

/- The digits of a number of 32 bits. -/
def IsRun (s : String) : Prop :=
  Numeral.IsDigits UInt32.size s.toList

/- The same, bare or behind one plus sign. -/
def IsSigned (s : String) : Prop :=
  Numeral.IsDigits UInt32.size (Numeral.behindPlus s)

/-
  One to four pieces of a kind with dots between them; a text
  always has a first piece.
-/
structure IsDotted (IsPiece : String → Prop) (text : String) : Prop where
  atMost : (Text.splitAt '.' text).length ≤ 4
  pieces : ∀ s ∈ Text.splitAt '.' text, IsPiece s

theorem isSome_ofNumbers?_iff :
    (ofNumbers? ns).isSome = true ↔ ns ≠ [] ∧ ns.length ≤ 4 := by
  rcases ns with _ | ⟨a, _ | ⟨b, _ | ⟨c, _ | ⟨d, _ | ⟨e, rest⟩⟩⟩⟩⟩ <;>
    simp [ofNumbers?]

/- The versions that are read are up to four numerals. -/
theorem isSome_parseDotted?_iff :
    (parseDotted? text).isSome = true ↔ IsDotted IsSigned text := by
  have hPieces : ((Text.splitAt '.' text).mapM Numeral.read32?).isSome = true ↔
      ∀ s ∈ Text.splitAt '.' text, IsSigned s := by
    rw [Numeral.isSome_mapM_iff]
    exact forall₂_congr fun _ _ => Numeral.isSome_read32?_iff
  cases hRead : (Text.splitAt '.' text).mapM Numeral.read32? with
  | none =>
      rw [hRead] at hPieces
      have hNone : parseDotted? text = none := by
        rw [parseDotted?, hRead]
        rfl
      rw [hNone]
      constructor
      · intro h
        cases h
      · intro h
        exact hPieces.mpr h.pieces
  | some ns =>
      rw [hRead] at hPieces
      have hLength := Numeral.length_of_mapM hRead
      have hSome : ns ≠ [] := by
        rw [← List.length_pos_iff, hLength, List.length_pos_iff]
        exact Text.splitAt_ne_nil '.' text
      have hNumbers : parseDotted? text = ofNumbers? ns := by
        rw [parseDotted?, hRead]
        rfl
      rw [hNumbers, isSome_ofNumbers?_iff, hLength]
      constructor
      · rintro ⟨-, hAtMost⟩
        exact ⟨hAtMost, hPieces.mp rfl⟩
      · intro h
        exact ⟨hSome, h.atMost⟩

------------------------------------------------------------
-- The characters of a version
------------------------------------------------------------

theorem IsDotted.mem
    (h : IsDotted IsSigned text)
    (hc : c ∈ text.toList) :
    c = '.' ∨ c = '+' ∨ Text.isAsciiDigit c = true := by
  rw [← Text.join_splitAt text] at hc
  rcases Text.mem_join hc with hDot | ⟨s, hs, hPiece⟩
  · exact Or.inl hDot
  · exact Or.inr ((Numeral.eq_plus_or_mem_behindPlus hPiece).imp_right
      ((h.pieces s hs).digits c))

theorem IsDotted.isAsciiLetter_eq_false
    (h : IsDotted IsSigned text)
    (hc : c ∈ text.toList) :
    Text.isAsciiLetter c = false := by
  rcases h.mem hc with rfl | rfl | hDigit
  · rfl
  · rfl
  · exact Text.isAsciiLetter_eq_false_of_isAsciiDigit hDigit

theorem isSigned_of_isRun
    {s : String}
    (h : IsRun s) :
    IsSigned s := by
  rw [IsSigned, Numeral.behindPlus_eq_self (h.not_mem rfl)]
  exact h

/- The pieces are digits alone if no plus sign is in the text. -/
theorem isDotted_isRun_iff :
    IsDotted IsRun text ↔ IsDotted IsSigned text ∧ '+' ∉ text.toList := by
  constructor
  · intro h
    refine ⟨⟨h.atMost, fun s hs => isSigned_of_isRun (h.pieces s hs)⟩, ?_⟩
    intro hPlus
    rw [← Text.join_splitAt text] at hPlus
    rcases Text.mem_join hPlus with hDot | ⟨s, hs, hMem⟩
    · cases hDot
    · exact (h.pieces s hs).not_mem rfl hMem
  · rintro ⟨h, hPlus⟩
    refine ⟨h.atMost, fun s hs => ?_⟩
    have hSigned : IsSigned s := h.pieces s hs
    rw [IsSigned, Numeral.behindPlus_eq_self fun hMem =>
      hPlus (Text.subset_of_mem_splitAt hs hMem)] at hSigned
    exact hSigned

/- Digits that run together are one piece. -/
theorem isDotted_of_parseCompact?
    (h : parseCompact? text = some v) :
    IsDotted IsRun text := by
  unfold parseCompact? at h
  split at h
  · next hAll =>
      have hDigits := List.all_eq_true.mp hAll
      obtain ⟨hSome, hAtMost⟩ : text.toList.map Numeral.digitValue ≠ [] ∧
          (text.toList.map Numeral.digitValue).length ≤ 4 := by
        rw [← isSome_ofNumbers?_iff, h]
        rfl
      rw [ne_eq, List.map_eq_nil_iff] at hSome
      rw [List.length_map] at hAtMost
      have hPieces : Text.splitAt '.' text = [text] :=
        Text.splitAt_of_dot_not_mem fun hDot =>
          absurd (hDigits '.' hDot) (by decide)
      have hBound : Nat.ofDigitChars 10 text.toList 0 < UInt32.size :=
        calc Nat.ofDigitChars 10 text.toList 0
          _ < (0 + 1) * 10 ^ text.toList.length :=
            Numeral.ofDigitChars_lt hDigits
          _ ≤ 1 * 10 ^ 4 :=
            Nat.mul_le_mul_left 1 (Nat.pow_le_pow_right (by decide) hAtMost)
          _ < UInt32.size := by decide
      constructor
      · rw [hPieces]
        exact Nat.le_add_left 1 3
      · rw [hPieces]
        intro s hs
        rw [List.mem_singleton.mp hs]
        exact ⟨hSome, hDigits, hBound⟩
  · cases h

------------------------------------------------------------
-- What a version was read from
------------------------------------------------------------

/- A version that was read, with dots or without. -/
structure IsReading (v : FrameworkVersion) (text : String) : Prop where
  isDotted : IsDotted IsSigned text
  read : parseDotted? text = some v ∨ parseCompact? text = some v

theorem isReading_of_parseDotted?
    (h : parseDotted? text = some v) :
    v.IsReading text where
  isDotted := isSome_parseDotted?_iff.mp (Option.isSome_of_eq_some h)
  read := Or.inl h

theorem isReading_of_parseCompact?
    (h : parseCompact? text = some v) :
    v.IsReading text where
  isDotted := (isDotted_isRun_iff.mp (isDotted_of_parseCompact? h)).1
  read := Or.inr h

end FrameworkVersion

namespace Moniker

open FrameworkVersion

variable {m : Moniker}
variable {text : String}

------------------------------------------------------------
-- Versions in names
------------------------------------------------------------

/- What follows the letters that a text starts with. -/
def behindLetters (text : String) : String :=
  String.ofList (text.toList.dropWhile Text.isAsciiLetter)

/-
  The text of the version in the name of a framework: a part
  of a long name, and else what follows the letters in front
  of the first hyphen.
-/
def versionText? (text : String) : Option String :=
  let trimmed := Text.trim text
  if Text.hasStart "." trimmed then
    ((Text.splitAt ',' trimmed).tail.findSome? fun s =>
      Text.stripStart? "Version=" (Text.trim s)).map dropVersionLetter
  else some (behindLetters (Text.before '-' (Text.lower trimmed)))

/-
  The text of the platform version: what follows the letters
  behind the first hyphen, if anything does.
-/
def platformVersionText? (text : String) : Option String :=
  let trimmed := Text.trim text
  if Text.hasStart "." trimmed then none
  else do
    let (_, platform) ← Text.splitOnce '-' (Text.lower trimmed)
    let version := behindLetters platform
    if version = "" then none else return version

theorem behindLetters_append
    {start rest : String}
    (hStart : ∀ c ∈ start.toList, Text.isAsciiLetter c = true)
    (hRest : ∀ c ∈ rest.toList.head?, Text.isAsciiLetter c = false) :
    behindLetters (start ++ rest) = rest := by
  rw [behindLetters, String.toList_append,
    List.dropWhile_append_of_pos hStart]
  have hKept : rest.toList.dropWhile Text.isAsciiLetter = rest.toList := by
    cases hChars : rest.toList with
    | nil => rfl
    | cons c others =>
        have hFirst := hRest c (by simp [hChars])
        rw [List.dropWhile_cons, hFirst]
        rfl
  rw [hKept, String.ofList_toList]

theorem isReading_of_parseFramework?
    (h : parseFramework? text = some m) :
    m.version.IsReading (behindLetters text) := by
  obtain ⟨family, start, rest, v, rfl, rfl, hStart, hRead⟩ :=
    exists_of_parseFramework? h
  have hReading : v.IsReading rest := by
    rcases hRead with hDotted | hCompact
    · exact isReading_of_parseDotted? hDotted
    · exact isReading_of_parseCompact? hCompact
  rw [behindLetters_append hStart fun c hc =>
    hReading.isDotted.isAsciiLetter_eq_false (List.mem_of_mem_head? hc)]
  exact hReading

/- A platform version is what follows the letters of the platform. -/
theorem isReading_of_parsePlatform?
    {base : Moniker}
    (hNone : base.platformVersion = none)
    (h : base.parsePlatform? text = some m) :
    m.version = base.version ∧
      Option.Rel IsReading m.platformVersion
        (if behindLetters text = "" then none
          else some (behindLetters text)) := by
  obtain ⟨-, p, digits, version, rfl, rfl, -, hLetters, hDigit, hVersion⟩ :=
    exists_of_parsePlatform? h
  rw [behindLetters_append hLetters fun c hc =>
    Text.isAsciiLetter_eq_false_of_isAsciiDigit (hDigit c hc)]
  refine ⟨rfl, ?_⟩
  rcases hVersion with ⟨hEmpty, rfl⟩ | ⟨hSome, hVersion, hRead⟩
  · rw [if_pos hEmpty, hNone]
    exact Option.Rel.none
  · obtain ⟨v, rfl⟩ := Option.isSome_iff_exists.mp hVersion
    rw [if_neg hSome]
    exact Option.Rel.some (isReading_of_parseDotted? hRead)

/- The versions of a framework are read from the texts in its name. -/
theorem isReading_of_parse?
    (h : parse? text = some m) :
    (∃ version, versionText? text = some version ∧
      m.version.IsReading version) ∧
      Option.Rel IsReading m.platformVersion (platformVersionText? text) := by
  unfold parse? at h
  unfold versionText? platformVersionText?
  dsimp only at h ⊢
  split at h
  · next hLong =>
      obtain ⟨family, version, v, rfl, hVersion, hRead⟩ :=
        exists_of_parseLong? h
      rw [if_pos hLong, if_pos hLong, hVersion]
      exact ⟨⟨_, rfl, isReading_of_parseDotted? hRead⟩, Option.Rel.none⟩
  · next hShort =>
      rw [if_neg hShort, if_neg hShort]
      split at h
      · next framework platform hSplit =>
          rcases Option.bind_eq_some_iff.mp h with ⟨base, hBase, hPlatform⟩
          obtain ⟨hText, hFront⟩ := Text.append_of_splitOnce hSplit
          obtain ⟨hVersion, hReading⟩ := isReading_of_parsePlatform?
            (parseFramework?_platform hBase).2 hPlatform
          rw [hSplit]
          refine ⟨⟨_, rfl, ?_⟩, hReading⟩
          rw [hVersion, hText, Text.before_append hFront]
          exact isReading_of_parseFramework? hBase
      · next hSplit =>
          rw [hSplit, (parseFramework?_platform h).2,
            Text.before_eq_self (Text.splitOnce_eq_none_iff.mp hSplit)]
          exact ⟨⟨_, rfl, isReading_of_parseFramework? h⟩, Option.Rel.none⟩

end Moniker

namespace FrameworkVersion

open Moniker

/-
  A text is a version with dots if it is one to four numerals,
  each of which may stand behind a plus sign, and these are
  digits alone if no plus sign is in the text.  From such texts
  all versions are read: those of frameworks and of platforms,
  the version of a .NET Framework, and that of the settings.
-/
theorem digits_of_read
    (text : String) :
    ((parseDotted? text).isSome = true ↔ IsDotted IsSigned text) ∧
      (IsDotted IsRun text ↔
        IsDotted IsSigned text ∧ '+' ∉ text.toList) ∧
      (∀ m, parse? text = some m →
        (∃ version, versionText? text = some version ∧
          m.version.IsReading version) ∧
          Option.Rel IsReading m.platformVersion
            (platformVersionText? text)) ∧
      (∀ m, parseLegacy? text = some m →
        m.version.IsReading (dropVersionLetter (Text.trim text))) ∧
      (∀ settings options, settings.windowsSdkVersion = text →
        SelectionOptions.ofSettings settings = .ok options →
          options.windowsSdkVersion.IsReading text) := by
  refine ⟨isSome_parseDotted?_iff, isDotted_isRun_iff,
    fun m => isReading_of_parse?, ?_, ?_⟩
  · intro m hLegacy
    rcases Option.map_eq_some_iff.mp hLegacy with ⟨v, hRead, rfl⟩
    exact isReading_of_parseDotted? hRead
  · rintro settings options rfl hOptions
    exact isReading_of_parseDotted?
      (SelectionOptions.parseDotted?_of_ofSettings hOptions)

/- Plus signs are read in names and in the settings. -/
theorem digits_of_read_of_plus :
    let m : Moniker :=
      ⟨.netCoreApp, .ofPair 6 0, some "windows", some ⟨10, 0, 3, 0, 3⟩⟩
    let settings : Settings :=
      { Settings.standard with windowsSdkVersion := "+10.+0" }
    parse? " Net+6.0-Windows10.+0.03" = some m ∧
      m.version.IsReading "+6.0" ∧ ¬ IsDotted IsRun "+6.0" ∧
      Option.Rel IsReading m.platformVersion (some "10.+0.03") ∧
      (ofPair 4 8).IsReading "4.+8" ∧
      SelectionOptions.ofSettings settings =
        .ok { SelectionOptions.standard with windowsSdkVersion := ofPair 10 0 } ∧
      (ofPair 10 0).IsReading "+10.+0" := by
  intro m settings
  have hRead : parse? " Net+6.0-Windows10.+0.03" = some m := by
    decide +kernel
  have hVersion : versionText? " Net+6.0-Windows10.+0.03" = some "+6.0" := by
    decide +kernel
  have hPlatform :
      platformVersionText? " Net+6.0-Windows10.+0.03" = some "10.+0.03" := by
    decide +kernel
  have hLegacy : parseLegacy? "v4.+8" =
      some (.ofFamily .netFramework (.ofPair 4 8)) := by
    decide +kernel
  have hText : dropVersionLetter (Text.trim "v4.+8") = "4.+8" := by
    decide +kernel
  have hSettings : SelectionOptions.ofSettings settings =
      .ok { SelectionOptions.standard with windowsSdkVersion := ofPair 10 0 } := by
    decide +kernel
  obtain ⟨⟨version, hSome, hReading⟩, hPlatformReading⟩ :=
    (digits_of_read " Net+6.0-Windows10.+0.03").2.2.1 m hRead
  obtain rfl : "+6.0" = version := Option.some.inj (hVersion.symm.trans hSome)
  rw [hPlatform] at hPlatformReading
  have hLegacyReading := (digits_of_read "v4.+8").2.2.2.1 _ hLegacy
  rw [hText] at hLegacyReading
  refine ⟨hRead, hReading, ?_, hPlatformReading, hLegacyReading, hSettings,
    (digits_of_read "+10.+0").2.2.2.2 settings _ rfl hSettings⟩
  rw [(digits_of_read "+6.0").2.1]
  exact fun h => h.2 (by decide)

/- A version with plus signs is read, though it is no run of digits. -/
theorem not_forall_isSome_iff_isRun :
    ¬ ∀ text : String,
      (parseDotted? text).isSome = true ↔ IsDotted IsRun text := by
  intro h
  have hRead : (parseDotted? "+4.+8").isSome = true := by decide +kernel
  have hDotted : IsDotted IsRun "+4.+8" := (h "+4.+8").mp hRead
  exact (isDotted_isRun_iff.mp hDotted).2 (by decide)

end FrameworkVersion

end Retarget
