import Retarget.Proofs.Selection.Targets

/-
  This file shows that a selection looks past every .NET
  Framework and ends at a .NET Core or .NET Standard, which
  names a platform only if it has platforms.  Each filter
  does so, and hence any number of filters in a row.

  Key definitions include:
    * `SelectionInput.SameModern`
    * `withoutNetFramework`

  Key statements include:
    * `SelectionFilter.apply_candidate`
    * `SelectionFilter.apply_congr`
    * `SelectionInput.foldl_apply_candidate`
    * `SelectionInput.foldl_apply_congr`
    * `SelectionInput.select_modern`
-/

namespace Retarget

open Moniker

------------------------------------------------------------
-- Single filters
------------------------------------------------------------

namespace SelectionFilter

variable {settings : Settings}
variable {input : SelectionInput}
variable {m : Moniker}

/- A framework is either modern or a .NET Framework. -/
theorem isModern_eq
    (m : Moniker) :
    isModern m = !m.isNetFramework := by
  unfold isModern isNetCore isNetStandard isNetFramework
  cases m.family <;> rfl

/- The modern frameworks include every .NET Standard. -/
theorem filter_isNetStandard
    (ms : List Moniker) :
    ms.filter isNetStandard =
      (ms.filter isModern).filter isNetStandard := by
  rw [List.filter_filter]
  congr 1
  funext m
  cases hStandard : m.isNetStandard <;>
    simp [isModern, hStandard]

theorem keepHighest_candidate
    (hFrameworks : ∀ f ∈ input.frameworks, f.Proper)
    (hm : Candidate m) :
    Candidate (keepHighest input.frameworks m) where
  proper := keepHighest_proper hm.proper hFrameworks
  modern := keepHighest_isModern hm.modern hFrameworks

/- No filter leaves the frameworks that can be selected. -/
theorem apply_candidate
    (hOptions :
      SelectionOptions.ofSettings settings = .ok input.options)
    (hFrameworks : ∀ f ∈ input.frameworks, f.Proper)
    (hDependencies : ∀ d ∈ input.dependencies, d.Proper)
    (filter : SelectionFilter)
    (hm : Candidate m) :
    Candidate (filter.apply input m) := by
  cases filter with
  | standardBaseline =>
      exact keepStandard_candidate hFrameworks hm
  | executableAndWeb =>
      exact moveApplications_candidate hOptions hm
  | windowsDesktop => exact moveDesktop_candidate hOptions hm
  | dependencies => exact raiseAll_candidate hDependencies hm
  | noDowngrade => exact keepHighest_candidate hFrameworks hm

end SelectionFilter

/-
  Two projects are the same to a selection if they differ in
  nothing but .NET Frameworks.
-/
structure SelectionInput.SameModern (a b : SelectionInput) :
    Prop where
  frameworks :
    a.frameworks.filter SelectionFilter.isModern =
      b.frameworks.filter SelectionFilter.isModern
  dependencies :
    a.dependencies.filter SelectionFilter.isModern =
      b.dependencies.filter SelectionFilter.isModern
  outputType : a.outputType = b.outputType
  components : a.components = b.components
  options : a.options = b.options

namespace SelectionFilter

variable {a b : SelectionInput}

theorem keepStandard_congr
    (h : a.SameModern b)
    (m : Moniker) :
    keepStandard a m = keepStandard b m := by
  unfold keepStandard
  rw [filter_isNetStandard a.frameworks, h.frameworks,
    ← filter_isNetStandard b.frameworks]

theorem moveApplications_congr
    (h : a.SameModern b)
    (m : Moniker) :
    moveApplications a m = moveApplications b m := by
  unfold moveApplications
  rw [h.components, h.outputType, h.options]

theorem moveDesktop_congr
    (h : a.SameModern b)
    (m : Moniker) :
    moveDesktop a m = moveDesktop b m := by
  unfold moveDesktop needsWindows windowsVersion?
  rw [h.components, h.outputType, h.options]

theorem raiseAll_congr
    (h : a.SameModern b)
    (m : Moniker) :
    raiseAll a.dependencies m = raiseAll b.dependencies m := by
  unfold raiseAll
  rw [h.dependencies]

theorem keepHighest_congr
    (h : a.SameModern b)
    (m : Moniker) :
    keepHighest a.frameworks m = keepHighest b.frameworks m := by
  unfold keepHighest highestModern?
  rw [h.frameworks]

/- No filter sees a .NET Framework. -/
theorem apply_congr
    (h : a.SameModern b)
    (filter : SelectionFilter)
    (m : Moniker) :
    filter.apply a m = filter.apply b m := by
  cases filter with
  | standardBaseline => exact keepStandard_congr h m
  | executableAndWeb => exact moveApplications_congr h m
  | windowsDesktop => exact moveDesktop_congr h m
  | dependencies => exact raiseAll_congr h m
  | noDowngrade => exact keepHighest_congr h m

end SelectionFilter

------------------------------------------------------------
-- Filters in a row
------------------------------------------------------------

/- Some frameworks without the .NET Frameworks among them. -/
def withoutNetFramework (ms : List Moniker) : List Moniker :=
  ms.filter fun m => !m.isNetFramework

theorem withoutNetFramework_eq
    (ms : List Moniker) :
    withoutNetFramework ms =
      ms.filter SelectionFilter.isModern := by
  unfold withoutNetFramework
  congr 1
  funext m
  exact (SelectionFilter.isModern_eq m).symm

namespace SelectionInput

open SelectionFilter

variable {settings : Settings}
variable {input : SelectionInput}
variable {m : Moniker}

/- However many filters are applied, and in whatever order. -/
theorem foldl_apply_candidate
    (hOptions :
      SelectionOptions.ofSettings settings = .ok input.options)
    (hFrameworks : ∀ f ∈ input.frameworks, f.Proper)
    (hDependencies : ∀ d ∈ input.dependencies, d.Proper)
    (filters : List SelectionFilter)
    (hm : Candidate m) :
    Candidate
      (filters.foldl (fun m f => f.apply input m) m) := by
  induction filters generalizing m with
  | nil => exact hm
  | cons f filters ih =>
      exact
        ih (apply_candidate hOptions hFrameworks hDependencies f
          hm)

theorem foldl_apply_congr
    {a b : SelectionInput}
    (h : a.SameModern b)
    (filters : List SelectionFilter)
    (m : Moniker) :
    filters.foldl (fun m f => f.apply a m) m =
      filters.foldl (fun m f => f.apply b m) m := by
  induction filters generalizing m with
  | nil => rfl
  | cons f filters ih =>
      rw [List.foldl_cons, List.foldl_cons, apply_congr h f m]
      exact ih _

/-
  The framework selected is a modern one, carries what
  platform it names, and does not depend on the .NET
  Frameworks among the targets and the references.
-/
theorem select_modern
    (hOptions :
      SelectionOptions.ofSettings settings = .ok input.options)
    (hFrameworks : ∀ f ∈ input.frameworks, f.IsRead)
    (hRead : ∀ d ∈ input.dependencies, d.IsRead) :
    input.select.isNetFramework = false ∧
      (input.select.platform.isSome = true →
        input.select.supportsPlatform = true) ∧
      ∀ frameworks dependencies : List Moniker,
        withoutNetFramework frameworks =
            withoutNetFramework input.frameworks →
          withoutNetFramework dependencies =
              withoutNetFramework input.dependencies →
            SelectionInput.select
                { input with
                  frameworks := frameworks
                  dependencies := dependencies } =
              input.select := by
  have hSelect : Candidate input.select :=
    foldl_apply_candidate hOptions (proper_of_isRead hFrameworks)
      (proper_of_isRead hRead) SelectionFilter.all
      netStandard20_candidate
  refine ⟨?_, hSelect.proper.supports, ?_⟩
  · simpa [isModern_eq] using hSelect.modern
  · intro frameworks dependencies hTargets hReferences
    apply foldl_apply_congr
    rw [withoutNetFramework_eq, withoutNetFramework_eq]
      at hTargets hReferences
    exact
      { frameworks := hTargets
        dependencies := hReferences
        outputType := rfl
        components := rfl
        options := rfl }

theorem select_modern_of_windows :
    let net48 : Moniker :=
      .ofFamily .netFramework ⟨4, 8, 0, 0, 2⟩
    let net60Windows : Moniker :=
      ⟨.netCoreApp, .ofPair 6 0, some "windows", none⟩
    let input : SelectionInput :=
      ⟨[net48, netStandard21], .library, .empty,
        [net60Windows], .standard⟩
    SelectionOptions.ofSettings .standard = .ok input.options ∧
      (∀ f ∈ input.frameworks, f.IsRead) ∧
      (∀ d ∈ input.dependencies, d.IsRead) ∧
      input.select.isNetFramework = false ∧
      input.select.platform.isSome = true ∧
      input.select.supportsPlatform = true ∧
      SelectionInput.select
          { input with
            frameworks := [netStandard21]
            dependencies := [net48, net60Windows, net48] } =
        input.select := by
  intro net48 net60Windows input
  have hFrameworks : ∀ f ∈ input.frameworks, f.IsRead := by
    intro f hf
    simp only [input, List.mem_cons, List.not_mem_nil,
      or_false] at hf
    rcases hf with rfl | rfl
    · exact ⟨"net48", Or.inl (by decide)⟩
    · exact ⟨"netstandard2.1", Or.inl (by decide)⟩
  have hRead : ∀ d ∈ input.dependencies, d.IsRead := by
    intro d hd
    rw [List.mem_singleton.mp hd]
    exact ⟨"net6.0-windows", Or.inl (by decide)⟩
  have hOptions := SelectionOptions.ofSettings_standard
  have hPlatform : input.select.platform.isSome = true := by
    decide
  rcases select_modern hOptions hFrameworks hRead with
    ⟨hModern, hSupports, hSame⟩
  exact
    ⟨hOptions, hFrameworks, hRead, hModern, hPlatform,
      hSupports hPlatform, hSame _ _ (by decide) (by decide)⟩

end SelectionInput

end Retarget
