import Retarget.Proofs.Selection.Raising

/-
  This file describes the framework that a selection starts
  to raise: a .NET Standard for libraries, and for all other
  projects one that comes from the options.

  Key definitions include:
    * `SelectionFilter.Candidate`
    * `SelectionInput.tentative`
    * `SelectionInput.isLibrary`
    * `SelectionInput.targeting`
    * `SelectionInput.referringTo`

  Key statements include:
    * `SelectionInput.select_eq`
    * `SelectionInput.tentative_of_isLibrary`
    * `SelectionInput.tentative_of_not_isLibrary`
    * `SelectionInput.tentative_candidate`
-/

namespace Retarget

open Moniker SelectionFilter

------------------------------------------------------------
-- The .NET Standard of a library
------------------------------------------------------------

namespace SelectionFilter

variable {m : Moniker}
variable {input : SelectionInput}

theorem mem_of_highestVersion?
    {ms : List Moniker}
    (h : highestVersion? ms = some m) :
    m ∈ ms := by
  induction ms generalizing m with
  | nil => cases h
  | cons x ms ih =>
      unfold highestVersion? at h
      split at h
      · cases h
        simp
      · next best hBest =>
          split at h <;> cases h
          · simp
          · exact List.mem_cons_of_mem x (ih hBest)

/- Keeping a standard goes over to a higher one, if any. -/
theorem keepStandard_cases
    (input : SelectionInput)
    (m : Moniker) :
    keepStandard input m = m ∨
      (keepStandard input m ∈ input.frameworks ∧
        (keepStandard input m).isNetStandard = true ∧
        m.consumes (keepStandard input m) = false) := by
  unfold keepStandard
  split
  · next current hCurrent =>
      split
      · next hLess =>
          right
          rcases List.mem_filter.mp
              (mem_of_highestVersion? hCurrent) with
            ⟨hMem, hStandard⟩
          refine ⟨hMem, hStandard, ?_⟩
          rw [← isAtLeast_eq_consumes, isAtLeast]
          simpa using hLess
      · exact Or.inl rfl
  · exact Or.inl rfl

theorem keepStandard_isNetStandard
    (input : SelectionInput) :
    (keepStandard input netStandard20).isNetStandard = true := by
  rcases keepStandard_cases input netStandard20 with h | h
  · rw [h]
    rfl
  · exact h.2.1

------------------------------------------------------------
-- Frameworks that a selection can come to
------------------------------------------------------------

/-
  A .NET Core or .NET Standard that names a platform only if
  it has platforms.
-/
structure Candidate (m : Moniker) : Prop where
  proper : m.Proper
  modern : isModern m = true

theorem netStandard20_candidate :
    Candidate netStandard20 where
  proper := Proper.of_platform_eq_none rfl rfl
  modern := rfl

theorem Candidate.of_supportsPlatform
    (hm : m.Proper)
    (hSupports : m.supportsPlatform = true) :
    Candidate m where
  proper := hm
  modern := by
    simp [isModern, isNetCore_of_supportsPlatform hSupports]

theorem keepStandard_candidate
    (hFrameworks : ∀ f ∈ input.frameworks, f.Proper)
    (hm : Candidate m) :
    Candidate (keepStandard input m) := by
  rcases keepStandard_cases input m with
    hSame | ⟨hMem, hStandard, _⟩
  · rw [hSame]
    exact hm
  · exact
      { proper := hFrameworks _ hMem
        modern := by simp [isModern, hStandard] }

theorem keepStandard_proper
    (hFrameworks : ∀ f ∈ input.frameworks, f.Proper) :
    (keepStandard input netStandard20).Proper :=
  (keepStandard_candidate hFrameworks
    netStandard20_candidate).proper

theorem moveApplications_candidate
    {settings : Settings}
    (hOptions :
      SelectionOptions.ofSettings settings = .ok input.options)
    (hm : Candidate m) :
    Candidate (moveApplications input m) := by
  rcases SelectionOptions.appBase_of_ofSettings hOptions with
    ⟨hSupports, hPlatform, hVersion⟩
  unfold moveApplications
  split
  · exact
      Candidate.of_supportsPlatform
        (Proper.of_platform_eq_none hPlatform hVersion) hSupports
  · exact hm

theorem moveDesktop_candidate
    {settings : Settings}
    (hOptions :
      SelectionOptions.ofSettings settings = .ok input.options)
    (hm : Candidate m) :
    Candidate (moveDesktop input m) := by
  have hSupports :=
    (SelectionOptions.appBase_of_ofSettings hOptions).1
  have hWindows : Text.lower "windows" = "windows" := by
    apply Text.lower_eq_self
    simp [Text.isAsciiLower]
  unfold moveDesktop
  split
  · have hDesktop :
        (input.options.appBase.withPlatform "windows"
          (windowsVersion? input)).Proper :=
      { supports := by simp [hSupports]
        lowered := by
          intro p hp
          cases hp
          rw [hWindows, hWindows]
        versioned := by simp [withPlatform] }
    exact
      Candidate.of_supportsPlatform hDesktop (by simp [hSupports])
  · exact hm

theorem raiseAll_candidate
    (hDependencies : ∀ d ∈ input.dependencies, d.Proper)
    (hm : Candidate m) :
    Candidate (raiseAll input.dependencies m) := by
  have hProper :
      ∀ d ∈ input.dependencies.filter isModern, d.Proper := by
    intro d hd
    exact hDependencies d (List.mem_filter.mp hd).1
  exact
    { proper := foldl_raise_proper hm.proper hProper
      modern :=
        foldl_raise_isModern hm.modern hProper
          fun d hd => (List.mem_filter.mp hd).2 }

end SelectionFilter

------------------------------------------------------------
-- The tentative framework
------------------------------------------------------------

namespace SelectionInput

variable {input : SelectionInput}

/- The framework after the filters that look at the project. -/
def tentative (input : SelectionInput) : Moniker :=
  moveDesktop input
    (moveApplications input (keepStandard input netStandard20))

/- A project that is neither a program nor for web or desktop. -/
def isLibrary (input : SelectionInput) : Bool :=
  !(input.components.isWeb || input.outputType.isExecutable) &&
    !needsWindows input

/- The project when it targets nothing but one framework. -/
def targeting (input : SelectionInput) (m : Moniker) :
    SelectionInput :=
  { input with frameworks := [m] }

/- The project when it refers to others, or in another order. -/
def referringTo (input : SelectionInput) (ds : List Moniker) :
    SelectionInput :=
  { input with dependencies := ds }

@[simp] theorem targeting_isLibrary
    (input : SelectionInput)
    (m : Moniker) :
    (input.targeting m).isLibrary = input.isLibrary :=
  rfl

/- A selection raises the tentative framework twice. -/
theorem select_eq
    (input : SelectionInput) :
    input.select =
      keepHighest input.frameworks
        (raiseAll input.dependencies input.tentative) :=
  rfl

theorem tentative_of_isLibrary
    (h : input.isLibrary = true) :
    input.tentative = keepStandard input netStandard20 := by
  unfold isLibrary at h
  unfold tentative moveDesktop moveApplications
  simp only [Bool.and_eq_true, Bool.not_eq_true'] at h
  rw [if_neg (by simp [h.2]), if_neg (by simp [h.1])]

/- Only for a library do the frameworks of the project count. -/
theorem tentative_of_not_isLibrary
    (h : input.isLibrary = false) :
    input.tentative =
      moveDesktop input input.options.appBase := by
  unfold isLibrary at h
  unfold tentative moveDesktop moveApplications
  cases hWindows : needsWindows input with
  | true => rfl
  | false =>
      simp only [hWindows, Bool.not_false, Bool.and_true,
        Bool.not_eq_false'] at h
      rw [if_neg (by simp), if_pos h, if_neg (by simp)]

theorem targeting_tentative
    (h : input.isLibrary = false)
    (m : Moniker) :
    (input.targeting m).tentative = input.tentative := by
  rw [tentative_of_not_isLibrary h,
    tentative_of_not_isLibrary (by simp [h])]
  rfl

theorem tentative_isModern
    {settings : Settings}
    (hOptions :
      SelectionOptions.ofSettings settings = .ok input.options) :
    isModern input.tentative = true := by
  have hCore : input.options.appBase.isNetCore = true :=
    isNetCore_of_supportsPlatform
      (SelectionOptions.appBase_of_ofSettings hOptions).1
  unfold isModern
  cases hLibrary : input.isLibrary with
  | true =>
      rw [tentative_of_isLibrary hLibrary,
        keepStandard_isNetStandard]
      simp
  | false =>
      rw [tentative_of_not_isLibrary hLibrary]
      unfold moveDesktop
      split
      · rw [← withoutPlatform_isNetCore,
          withPlatform_withoutPlatform,
          withoutPlatform_isNetCore, hCore]
        simp
      · simp [hCore]

theorem tentative_candidate
    {settings : Settings}
    (hOptions :
      SelectionOptions.ofSettings settings = .ok input.options)
    (hFrameworks : ∀ f ∈ input.frameworks, f.Proper) :
    Candidate input.tentative :=
  moveDesktop_candidate hOptions
    (moveApplications_candidate hOptions
      (keepStandard_candidate hFrameworks
        netStandard20_candidate))

theorem tentative_proper
    {settings : Settings}
    (hOptions :
      SelectionOptions.ofSettings settings = .ok input.options)
    (hFrameworks : ∀ f ∈ input.frameworks, f.Proper) :
    input.tentative.Proper :=
  (tentative_candidate hOptions hFrameworks).proper

end SelectionInput

end Retarget
