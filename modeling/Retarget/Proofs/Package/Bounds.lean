import Retarget.Proofs.Package.Floor

/-
  This file shows what a range that was read is bounded by.
  Its bounds are versions that can be read back.  Only the
  floor of a prerelease float need not be one: its label is
  what is written in front of the star, whatever that is.

  Key definitions include:
    * `VersionRange.startLabel`
    * `VersionRange.IsRead`
    * `VersionRange.IsBound`

  Key statements include:
    * `PackageVersion.parse?_text_iff`
    * `VersionRange.isRead_of_parse?`
    * `VersionRange.prereleaseFloor_isWritten_iff`
    * `VersionRange.bounds_reread`
-/

namespace Retarget

namespace PackageVersion

variable {v : PackageVersion}
variable {text : String}

/- A version is read back exactly if a text can stand for it. -/
theorem parse?_text_iff :
    parse? v.text = some v ↔ v.IsWritten :=
  ⟨.of_parse?, fun h => h.parse?_text⟩

/- A text without a hyphen has no label. -/
theorem label_eq_none_of_parse?
    (hHyphen : '-' ∉ text.toList)
    (h : parse? text = some v) :
    v.label = none := by
  have hCore : '-' ∉ (Text.before '+' (Text.trim text)).toList := by
    rw [Text.before, String.toList_ofList]
    intro hMem
    exact hHyphen
      (Text.trim_subset text ((List.takeWhile_sublist _).subset hMem))
  rw [parse?, Text.splitOnce_eq_none_iff.mpr hCore] at h
  rcases ofParts?_eq_some_iff.mp h with ⟨-, -, -, hLabel, -⟩
  exact hLabel

end PackageVersion

namespace VersionRange

variable {r : VersionRange}
variable {base : PackageVersion}
variable {text numbers label start : String}

------------------------------------------------------------
-- What is read as a range
------------------------------------------------------------

/- The label in front of a star, without the dots at its end. -/
def startLabel (start : String) : String :=
  String.ofList (Text.dropEndWhile (· == '.') start.toList)

/-
  A text stands for bounds that are in order, for a version
  whose last number floats, or for the start of a label.
-/
inductive IsRead (text : String) : VersionRange → Prop
  | bounds
      {min max : Option PackageVersion}
      {isMinInclusive isMaxInclusive : Bool}
      (hMin : ∀ v ∈ min, v.IsWritten)
      (hMax : ∀ v ∈ max, v.IsWritten)
      (hBounds : areBounds min max = true) :
      IsRead text
        ⟨min, isMinInclusive, max, isMaxInclusive, none, text⟩
  | number
      {v : PackageVersion}
      {part : FloatingPart}
      (hWritten : v.IsWritten)
      (hPart : part ≠ .prerelease) :
      IsRead text (floating text v part)
  | prerelease
      {digits start : String}
      {base : PackageVersion}
      (hText : text = digits ++ "-" ++ start ++ "*")
      (hHyphen : '-' ∉ digits.toList)
      (hBase : PackageVersion.parse? digits = some base) :
      IsRead text
        (floating text (prereleaseFloor base start) .prerelease)

theorem isWritten_of_bound?
    {bound : Option PackageVersion}
    (h : bound? text = some bound) :
    ∀ v ∈ bound, v.IsWritten := by
  unfold bound? at h
  dsimp only at h
  split at h
  · cases h
    simp
  · rcases Option.map_eq_some_iff.mp h with ⟨v, hRead, rfl⟩
    rintro w ⟨⟩
    exact .of_parse? hRead

theorem isRead_of_interval?
    (h : interval? text = some r) :
    IsRead text r := by
  unfold interval? at h
  dsimp only at h
  split at h
  · cases h
  · split at h
    · split at h
      · rcases Option.bind_eq_some_iff.mp h with ⟨v, hRead, h⟩
        cases h
        have hWritten : ∀ w ∈ some v, w.IsWritten := by
          rintro w ⟨⟩
          exact .of_parse? hRead
        exact .bounds hWritten hWritten (PackageVersion.le_refl v)
      · cases h
    · rcases Option.bind_eq_some_iff.mp h with ⟨min, hMin, h⟩
      rcases Option.bind_eq_some_iff.mp h with ⟨max, hMax, h⟩
      split at h
      · next hBounds =>
          cases h
          exact .bounds (isWritten_of_bound? hMin) (isWritten_of_bound? hMax)
            hBounds
      · cases h

theorem isRead_of_prereleaseFloat?
    (hSplit : Text.splitOnce '-' text = some (numbers, label))
    (h : prereleaseFloat? text numbers label = some r) :
    IsRead text r := by
  unfold prereleaseFloat? at h
  rcases Option.bind_eq_some_iff.mp h with ⟨start, hStart, h⟩
  rw [Text.stripEnd?_eq_some_iff] at hStart
  dsimp only at h
  split at h
  · cases h
  · rcases Option.bind_eq_some_iff.mp h with ⟨base, hBase, h⟩
    cases h
    rcases Text.append_of_splitOnce hSplit with ⟨hText, hHyphen⟩
    refine .prerelease ?_ hHyphen hBase
    rw [hText, hStart, ← String.append_assoc]
    rfl

theorem isRead_of_numberFloat?
    (h : numberFloat? text = some r) :
    IsRead text r := by
  unfold numberFloat? at h
  rcases Option.bind_eq_some_iff.mp h with ⟨floor, -, h⟩
  dsimp only at h
  split at h
  · cases h
  · rcases Option.bind_eq_some_iff.mp h with ⟨part, hPart, h⟩
    rcases Option.bind_eq_some_iff.mp h with ⟨v, hRead, h⟩
    cases h
    refine .number (.of_parse? hRead) ?_
    rintro rfl
    unfold partAfter? at hPart
    split at hPart <;> cases hPart

theorem isRead_of_float?
    (h : float? text = some r) :
    IsRead text r := by
  unfold float? at h
  split at h
  · cases h
    have hZero : PackageVersion.parse? "0.0.0" = some (.ofNumbers 0 0 0 0) := by
      decide
    exact .number (.of_parse? hZero) (by decide)
  · split at h
    · next hSplit => exact isRead_of_prereleaseFloat? hSplit h
    · exact isRead_of_numberFloat? h

/- Every range that is read is of one of the three forms. -/
theorem isRead_of_parse?
    (h : parse? text = some r) :
    IsRead (Text.trim text) r := by
  unfold parse? at h
  dsimp only at h
  split at h
  · cases h
  · split at h
    · exact isRead_of_interval? h
    · split at h
      · exact isRead_of_float? h
      · rcases Option.map_eq_some_iff.mp h with ⟨v, hRead, rfl⟩
        refine .bounds ?_ (by simp [atLeast]) rfl
        rintro w ⟨⟩
        exact .of_parse? hRead

------------------------------------------------------------
-- Bounds
------------------------------------------------------------

/- The version bounds the range from below or from above. -/
def IsBound (r : VersionRange) (v : PackageVersion) : Prop :=
  r.min = some v ∨ r.max = some v

theorem prereleaseFloor_numbers
    (base : PackageVersion)
    (start : String) :
    (prereleaseFloor base start).numbers = base.numbers := by
  unfold prereleaseFloor
  split <;> simp

/- The label of a floor is the start of one, or the lowest label. -/
theorem prereleaseFloor_label
    (base : PackageVersion)
    (start : String) :
    (prereleaseFloor base start).label =
      if start = "" then some "0"
      else if startLabel start = "" then none
      else some (startLabel start) := by
  by_cases hEmpty : start = ""
  · subst hEmpty
    rfl
  · have hFull : ¬start.isEmpty = true := mt String.isEmpty_iff.mp hEmpty
    have hFloor : prereleaseFloor base start =
        base.withLabel (startLabel start) :=
      if_neg hFull
    rw [hFloor, if_neg hEmpty]
    split
    · next hDots =>
        rw [hDots]
        rfl
    · next hSome => exact base.withLabel_label hSome

theorem prereleaseFloor_isPrerelease_iff :
    (prereleaseFloor base start).isPrerelease = true ↔
      (start = "" ∨ startLabel start ≠ "") := by
  rw [PackageVersion.isPrerelease, prereleaseFloor_label]
  by_cases hEmpty : start = ""
  · simp [hEmpty]
  · by_cases hDots : startLabel start = ""
    · simp [hEmpty, hDots]
    · simp [hEmpty, hDots]

/- The start of a label makes a version if it is a label itself. -/
theorem prereleaseFloor_isWritten_iff
    (hBase : base.IsWritten) :
    (prereleaseFloor base start).IsWritten ↔
      (start = "" ∨ startLabel start = "" ∨
        PackageVersion.isLabel (startLabel start) = true) := by
  have hBounded : ∀ n ∈ (prereleaseFloor base start).numbers,
      n < UInt64.size := by
    rw [prereleaseFloor_numbers]
    exact hBase.bounded
  have hLabelled : (prereleaseFloor base start).IsWritten ↔
      (prereleaseFloor base start).label.all PackageVersion.isLabel = true :=
    ⟨fun h => h.labelled, fun h => ⟨hBounded, h⟩⟩
  rw [hLabelled, prereleaseFloor_label]
  by_cases hEmpty : start = ""
  · have hZero : PackageVersion.isLabel "0" = true := by decide
    simp [hEmpty, hZero]
  · by_cases hDots : startLabel start = ""
    · simp [hEmpty, hDots]
    · simp [hEmpty, hDots]

/-
  The bounds of a range are read back from their texts, but
  for the floor of a prerelease float.  That floor is read
  back exactly if the start of its label is empty, or only
  dots, or a label when the dots at its end are dropped.  It
  is a prerelease unless the start is only dots.
-/
theorem bounds_reread
    (h : parse? text = some r) :
    (r.float ≠ some .prerelease →
      ∀ v, r.IsBound v → PackageVersion.parse? v.text = some v) ∧
    (r.float = some .prerelease →
      ∃ digits start base floor,
        Text.trim text = digits ++ "-" ++ start ++ "*" ∧
        '-' ∉ digits.toList ∧
        PackageVersion.parse? digits = some base ∧
        (∀ v, r.IsBound v ↔ v = floor) ∧
        floor.numbers = base.numbers ∧
        (floor.isPrerelease = true ↔
          (start = "" ∨ startLabel start ≠ "")) ∧
        (PackageVersion.parse? floor.text = some floor ↔
          (start = "" ∨ startLabel start = "" ∨
            PackageVersion.isLabel (startLabel start) = true))) := by
  cases isRead_of_parse? h with
  | bounds hMin hMax =>
      refine ⟨fun _ v hBound => ?_, nofun⟩
      rcases hBound with hBound | hBound
      · exact (hMin v hBound).parse?_text
      · exact (hMax v hBound).parse?_text
  | number hWritten hPart =>
      refine ⟨fun _ v hBound => ?_, fun hFloat => absurd ?_ hPart⟩
      · rcases hBound with hBound | hBound
        · cases hBound
          exact hWritten.parse?_text
        · cases hBound
      · exact Option.some.inj hFloat
  | @prerelease digits start base hText hHyphen hBase =>
      refine ⟨fun hFloat => absurd rfl hFloat, fun _ => ?_⟩
      refine ⟨digits, start, base, prereleaseFloor base start, hText, hHyphen,
        hBase, fun v => ?_, prereleaseFloor_numbers base start,
        prereleaseFloor_isPrerelease_iff, ?_⟩
      · simp [IsBound, floating, eq_comm]
      · rw [PackageVersion.parse?_text_iff]
        exact prereleaseFloor_isWritten_iff (.of_parse? hBase)

/- The bounds of an interval, and the start of a label. -/
theorem bounds_reread_of_label :
    let first : PackageVersion := ⟨2, 0, 0, 0, some "rc"⟩
    let interval : VersionRange :=
      ⟨some (.ofNumbers 1 0 0 0), true, some first, false, none, "[1,2.0-rc)"⟩
    let floor : PackageVersion := ⟨2, 0, 0, 0, some "beta"⟩
    let float := floating "2.0-beta..*" floor .prerelease
    parse? " [1,2.0-rc) " = some interval ∧
      interval.float ≠ some .prerelease ∧
      interval.IsBound first ∧
      PackageVersion.parse? first.text = some first ∧
      parse? "2.0-beta..*" = some float ∧
      float.float = some .prerelease ∧
      ∃ digits start,
        "2.0-beta..*" = digits ++ "-" ++ start ++ "*" ∧
        (PackageVersion.parse? floor.text = some floor ↔
          (start = "" ∨ startLabel start = "" ∨
            PackageVersion.isLabel (startLabel start) = true)) := by
  intro first interval floor float
  have hInterval : parse? " [1,2.0-rc) " = some interval := by
    decide +kernel
  have hPart : interval.float ≠ some .prerelease := by decide
  have hBound : interval.IsBound first := Or.inr rfl
  have hFloat : parse? "2.0-beta..*" = some float := by
    decide +kernel
  have hTrim : Text.trim "2.0-beta..*" = "2.0-beta..*" := by
    decide +kernel
  obtain ⟨digits, start, _, other, hText, -, -, hOnly, -, -, hReread⟩ :=
    (bounds_reread hFloat).2 rfl
  obtain rfl : floor = other := (hOnly floor).mp (Or.inl rfl)
  rw [hTrim] at hText
  exact ⟨hInterval, hPart, hBound,
    (bounds_reread hInterval).1 hPart first hBound, hFloat, rfl,
    digits, start, hText, hReread⟩

/-
  A label with a character that labels do not have is not
  read back, and of a label that is only a dot nothing stays.
-/
theorem bounds_not_reread :
    let floor : PackageVersion := ⟨1, 0, 0, 0, some "b_c"⟩
    let bare : PackageVersion := .ofNumbers 1 0 0 0
    parse? "1.0.0-b_c*" =
        some (floating "1.0.0-b_c*" floor .prerelease) ∧
      PackageVersion.parse? floor.text = none ∧
      parse? "1.0.0-.*" = some (floating "1.0.0-.*" bare .prerelease) ∧
      bare.isPrerelease = false := by
  decide +kernel

end VersionRange

end Retarget
