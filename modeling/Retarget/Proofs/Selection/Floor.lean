import Retarget.Proofs.Selection.Targets

/-
  This file says how far down a selection can go for
  programs, web projects and desktop projects.  The filters
  that come last raise the framework for applications, until
  they meet another platform.  They then go over to the
  framework of that platform and raise this one.

  Key definitions include:
    * `SelectionFilter.floorFrom`
    * `SelectionFilter.Above`
    * `SelectionFilter.StandardsInReach`
    * `SelectionInput.demands`
    * `SelectionInput.floor`

  Key statements include:
    * `SelectionFilter.raise_above`
    * `SelectionFilter.foldl_raise_above`
    * `SelectionInput.select_not_below_floor`
-/

namespace Retarget

open Moniker

namespace SelectionFilter

variable {base m d : Moniker}
variable {ds : List Moniker}

------------------------------------------------------------
-- One step
------------------------------------------------------------

/-
  A framework that has platforms is not lowered, except for
  a .NET Standard that it does not implement.
-/
theorem raise_frameworkConsumes_left
    (hSupports : m.supportsPlatform = true)
    (hd : d.Proper)
    (hModern : isModern d = true)
    (hAgrees : m.Agrees d)
    (hReach :
      d.isNetStandard = true →
        d.version.le (.ofPair 2 1) = true ∨
          m.platform.isSome = true) :
    (raise m d).frameworkConsumes m = true := by
  have hBase := raise_withoutPlatform hd hAgrees
  split at hBase
  · rw [frameworkConsumes_congr hBase rfl]
    exact frameworkConsumes_refl m
  · next hRight =>
      push Not at hRight
      rw [frameworkConsumes_congr hBase rfl]
      cases hStandard : d.isNetStandard with
      | false =>
          have hCore : d.isNetCore = true := by
            simpa [isModern, hStandard] using hModern
          have hmCore := isNetCore_of_supportsPlatform hSupports
          rcases frameworkConsumes_total_of_netCore hmCore
              hCore with
            hmd | hdm
          · exact absurd hmd hRight.1
          · exact hdm
      | true =>
          -- The framework implements `d`, or keeps its platform.
          rcases hReach hStandard with hLow | hPlatform
          · rw [← frameworkConsumes_iff_of_supportsPlatform
              hSupports hStandard] at hLow
            exact absurd hLow hRight.1
          · exact
              absurd (supportsPlatform_of_isNetStandard hStandard)
                (hRight.2 hPlatform)

/- A framework with platforms that is not below another one. -/
structure Above (base m : Moniker) : Prop where
  supports : m.supportsPlatform = true
  uses : m.frameworkConsumes base = true

/-
  A step stays above what it was above, or goes over to
  another platform and is above that framework.
-/
theorem raise_above
    (h : Above base m)
    (hd : d.Proper)
    (hModern : isModern d = true)
    (hReach :
      d.isNetStandard = true →
        d.version.le (.ofPair 2 1) = true ∨
          m.platform.isSome = true) :
    Above (if m.Agrees d then base else d) (raise m d) := by
  by_cases hAgrees : m.Agrees d
  · have hKeeps :=
      raise_frameworkConsumes_left h.supports hd hModern hAgrees
        hReach
    rw [if_pos hAgrees]
    exact
      { supports :=
          supportsPlatform_of_frameworkConsumes hKeeps h.supports
        uses := frameworkConsumes_trans hKeeps h.uses }
  · rcases not_agrees_iff.mp hAgrees with ⟨_, q, _, hq, _⟩
    rw [if_neg hAgrees, raise_eq_of_not_agrees hd hAgrees]
    exact
      { supports := hd.supports (by simp [hq])
        uses := frameworkConsumes_refl d }

------------------------------------------------------------
-- A whole list
------------------------------------------------------------

/-
  What raising for a list does not fall below: the base,
  unless there is another platform to go over to; then the
  framework of the last such platform.
-/
def floorFrom (base m : Moniker) : List Moniker → Moniker
  | [] => base
  | d :: ds =>
    floorFrom (if m.Agrees d then base else d) (raise m d) ds

/-
  Each .NET Standard above 2.1, which no framework with
  platforms implements, comes after some platform.
-/
def StandardsInReach (m : Moniker) (ds : List Moniker) : Prop :=
  ∀ (before after : List Moniker) (d : Moniker),
    ds = before ++ d :: after →
      d.isNetStandard = true →
        d.version.le (.ofPair 2 1) = true ∨
          ∃ e ∈ m :: before, e.platform.isSome = true

theorem StandardsInReach.of_forall
    (hLow :
      ∀ d ∈ ds, d.isNetStandard = true →
        d.version.le (.ofPair 2 1) = true) :
    StandardsInReach m ds := by
  intro before after d hSplit hStandard
  exact Or.inl (hLow d (by simp [hSplit]) hStandard)

theorem StandardsInReach.head
    (h : StandardsInReach m (d :: ds)) :
    d.isNetStandard = true →
      d.version.le (.ofPair 2 1) = true ∨
        m.platform.isSome = true := by
  intro hStandard
  simpa using h [] ds d rfl hStandard

/- A platform is still there after a step. -/
theorem StandardsInReach.tail
    (h : StandardsInReach m (d :: ds))
    (hd : d.Proper) :
    StandardsInReach (raise m d) ds := by
  intro before after s hSplit hStandard
  rcases h (d :: before) after s (by rw [hSplit]; rfl)
      hStandard with
    hLow | ⟨e, he, hPlatform⟩
  · exact Or.inl hLow
  · right
    rcases List.mem_cons.mp he with rfl | he
    · exact
        ⟨raise e d, by simp,
          raise_platform_isSome_of_left d hPlatform⟩
    · rcases List.mem_cons.mp he with rfl | he
      · exact
          ⟨raise m e, by simp,
            raise_platform_isSome_of_right hd hPlatform⟩
      · exact ⟨e, List.mem_cons_of_mem _ he, hPlatform⟩

theorem foldl_raise_above
    (h : Above base m)
    (hProper : ∀ d ∈ ds, d.Proper)
    (hModern : ∀ d ∈ ds, isModern d = true)
    (hReach : StandardsInReach m ds) :
    Above (floorFrom base m ds) (ds.foldl raise m) := by
  induction ds generalizing base m with
  | nil => exact h
  | cons d ds ih =>
      have hd : d.Proper := hProper d (by simp)
      have hStep :=
        raise_above h hd (hModern d (by simp)) hReach.head
      rw [List.foldl_cons, floorFrom]
      apply ih hStep
      · intro e he
        exact hProper e (by simp [he])
      · intro e he
        exact hModern e (by simp [he])
      · exact hReach.tail hd

/- Without different platforms the base stays the floor. -/
theorem floorFrom_of_raisable
    (h : Raisable m ds) :
    floorFrom base m ds = base := by
  induction ds generalizing m with
  | nil => rfl
  | cons d ds ih =>
      rw [floorFrom, if_pos h.head.2]
      exact ih h.tail

end SelectionFilter

------------------------------------------------------------
-- The whole selection
------------------------------------------------------------

namespace SelectionInput

open SelectionFilter

variable {settings : Settings}
variable {input : SelectionInput}

/-
  All that a selection raises the tentative framework for:
  the references that count, and the highest target.
-/
def demands (input : SelectionInput) : List Moniker :=
  input.dependencies.filter isModern ++
    (highestModern? input.frameworks).toList

/- The framework below which a selection does not go. -/
def floor (input : SelectionInput) : Moniker :=
  floorFrom input.options.appBase input.tentative input.demands

theorem select_eq_foldl_raise
    (input : SelectionInput) :
    input.select = input.demands.foldl raise input.tentative := by
  rw [select_eq, demands, List.foldl_append]
  unfold keepHighest raiseAll
  cases highestModern? input.frameworks <;> rfl

theorem mem_of_mem_demands
    {d : Moniker}
    (h : d ∈ input.demands) :
    (d ∈ input.dependencies ∨ d ∈ input.frameworks) ∧
      isModern d = true := by
  rcases List.mem_append.mp h with hReference | hTarget
  · rcases List.mem_filter.mp hReference with ⟨hMem, hModern⟩
    exact ⟨Or.inl hMem, hModern⟩
  · rcases List.mem_filter.mp
        (highestModern?_mem (Option.mem_toList.mp hTarget)) with
      ⟨hMem, hModern⟩
    exact ⟨Or.inr hMem, hModern⟩

theorem demands_proper
    (hFrameworks : ∀ f ∈ input.frameworks, f.Proper)
    (hDependencies : ∀ d ∈ input.dependencies, d.Proper) :
    ∀ d ∈ input.demands, d.Proper := by
  intro d hd
  rcases (mem_of_mem_demands hd).1 with hReference | hTarget
  · exact hDependencies d hReference
  · exact hFrameworks d hTarget

theorem isLibrary_eq_false
    (hApplication :
      input.outputType.isExecutable = true ∨
        input.components.isWeb = true ∨
          input.components.containsAny
            [.windowsDesktop, .winUI] = true) :
    input.isLibrary = false := by
  unfold isLibrary needsWindows
  rcases hApplication with h | h | h <;> simp [h]

/- Applications start from the framework for applications. -/
theorem tentative_above
    (hOptions :
      SelectionOptions.ofSettings settings = .ok input.options)
    (hLibrary : input.isLibrary = false) :
    Above input.options.appBase input.tentative := by
  have hSupports :=
    (SelectionOptions.appBase_of_ofSettings hOptions).1
  have hBase :
      input.tentative.withoutPlatform =
        input.options.appBase.withoutPlatform := by
    rw [tentative_of_not_isLibrary hLibrary]
    unfold moveDesktop
    split <;> rfl
  constructor
  · rw [← withoutPlatform_supportsPlatform, hBase]
    exact hSupports
  · rw [frameworkConsumes_congr hBase rfl]
    exact frameworkConsumes_refl _

/-
  What is selected for an application is, platforms aside,
  not less than the framework of the last platform that had
  to be gone over to; without one, it is not less than the
  framework for applications.
-/
theorem select_not_below_floor
    (hOptions :
      SelectionOptions.ofSettings settings = .ok input.options)
    (hFrameworks : ∀ f ∈ input.frameworks, f.IsRead)
    (hRead : ∀ d ∈ input.dependencies, d.IsRead)
    (hApplication :
      input.outputType.isExecutable = true ∨
        input.components.isWeb = true ∨
          input.components.containsAny
            [.windowsDesktop, .winUI] = true)
    (hReach : StandardsInReach input.tentative input.demands) :
    input.select.withoutPlatform.compare
        input.floor.withoutPlatform ≠ .lt ∧
      (AgreeAll (input.tentative :: input.demands) →
        input.select.withoutPlatform.compare
          input.options.appBase ≠ .lt) := by
  have hProper :=
    demands_proper (proper_of_isRead hFrameworks)
      (proper_of_isRead hRead)
  have hAbove : Above input.floor input.select := by
    rw [select_eq_foldl_raise]
    apply foldl_raise_above _ hProper _ hReach
    · exact
        tentative_above hOptions (isLibrary_eq_false hApplication)
    · intro d hd
      exact (mem_of_mem_demands hd).2
  simp only [compare_ne_lt_iff]
  refine ⟨hAbove.uses, ?_⟩
  intro hAgree
  have hFloor : input.floor = input.options.appBase :=
    floorFrom_of_raisable ⟨hProper, hAgree⟩
  have hPlain :
      input.options.appBase.withoutPlatform =
        input.options.appBase := by
    rcases SelectionOptions.appBase_of_ofSettings hOptions with
      ⟨_, hPlatform, hVersion⟩
    exact
      eq_of_withoutPlatform rfl hPlatform.symm hVersion.symm
  have hUses := hAbove.uses
  rw [hFloor, frameworkConsumes, hPlain] at hUses
  exact hUses

theorem select_not_below_floor_of_windows :
    let net472 : Moniker :=
      .ofFamily .netFramework ⟨4, 7, 2, 0, 3⟩
    let net90 : Moniker := .ofFamily .netCoreApp (.ofPair 9 0)
    let net60Windows : Moniker :=
      ⟨.netCoreApp, .ofPair 6 0, some "windows", none⟩
    let input : SelectionInput :=
      ⟨[net472, net90], .exe, .empty,
        [netStandard21, net60Windows], .standard⟩
    SelectionOptions.ofSettings .standard = .ok input.options ∧
      (∀ f ∈ input.frameworks, f.IsRead) ∧
      (∀ d ∈ input.dependencies, d.IsRead) ∧
      input.outputType.isExecutable = true ∧
      StandardsInReach input.tentative input.demands ∧
      AgreeAll (input.tentative :: input.demands) ∧
      input.select.withoutPlatform.compare
          input.floor.withoutPlatform ≠ .lt ∧
      input.select.withoutPlatform.compare
          input.options.appBase ≠ .lt := by
  intro net472 net90 net60Windows input
  have hFrameworks : ∀ f ∈ input.frameworks, f.IsRead := by
    intro f hf
    simp only [input, List.mem_cons, List.not_mem_nil,
      or_false] at hf
    rcases hf with rfl | rfl
    · exact ⟨"net472", Or.inl (by decide)⟩
    · exact ⟨"net9.0", Or.inl (by decide)⟩
  have hRead : ∀ d ∈ input.dependencies, d.IsRead := by
    intro d hd
    simp only [input, List.mem_cons, List.not_mem_nil,
      or_false] at hd
    rcases hd with rfl | rfl
    · exact ⟨"netstandard2.1", Or.inl (by decide)⟩
    · exact ⟨"net6.0-windows", Or.inl (by decide)⟩
  have hOptions := SelectionOptions.ofSettings_standard
  have hReach :
      StandardsInReach input.tentative input.demands :=
    StandardsInReach.of_forall (by decide)
  have hAgree :
      AgreeAll (input.tentative :: input.demands) := by decide
  rcases select_not_below_floor hOptions hFrameworks hRead
      (Or.inl rfl) hReach with
    ⟨hFloor, hBase⟩
  exact
    ⟨hOptions, hFrameworks, hRead, rfl, hReach, hAgree, hFloor,
      hBase hAgree⟩

/-
  Without a platform, a .NET Standard that is out of reach
  takes the place of the framework for applications.
-/
example :
    let net80 : Moniker := .ofFamily .netCoreApp (.ofPair 8 0)
    let netStandard30 : Moniker :=
      .ofFamily .netStandard (.ofPair 3 0)
    raise net80 netStandard30 = netStandard30 ∧
      netStandard30.compare net80 = .lt := by
  decide

/- A desktop project that refers to a project for Android. -/
def desktopOnAndroid : SelectionInput :=
  ⟨[.ofFamily .netFramework ⟨4, 7, 2, 0, 3⟩], .library,
    .ofList [.windowsDesktop],
    [⟨.netCoreApp, .ofPair 6 0, some "android", none⟩],
    .standard⟩

/-
  It goes over to Android, and with that from .NET 8 down to
  .NET 6.
-/
theorem select_desktopOnAndroid_below :
    SelectionOptions.ofSettings .standard =
        .ok desktopOnAndroid.options ∧
      (∀ f ∈ desktopOnAndroid.frameworks, f.IsRead) ∧
      (∀ d ∈ desktopOnAndroid.dependencies, d.IsRead) ∧
      desktopOnAndroid.components.containsAny
          [.windowsDesktop, .winUI] = true ∧
      ¬ desktopOnAndroid.select.withoutPlatform.compare
          desktopOnAndroid.options.appBase ≠ .lt := by
  refine
    ⟨SelectionOptions.ofSettings_standard, ?_, ?_, by decide,
      by decide⟩
  · intro f hf
    rw [List.mem_singleton.mp hf]
    exact ⟨"net472", Or.inl (by decide)⟩
  · intro d hd
    rw [List.mem_singleton.mp hd]
    exact ⟨"net6.0-android", Or.inl (by decide)⟩

end SelectionInput

end Retarget
