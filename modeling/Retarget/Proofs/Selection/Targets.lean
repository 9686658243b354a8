import Retarget.Proofs.Selection.Tentative

/-
  This file says when a selection never goes below what a
  project targets already.  The last filter looks at one of
  the targets only, so one of them must be able to use all
  of the others.

  Key definitions include:
    * `SelectionFilter.HasHighest`

  Key statements include:
    * `SelectionFilter.highestModern?_consumes`
    * `SelectionFilter.keepHighest_consumes`
    * `SelectionInput.select_not_below_targets_iff`
-/

namespace Retarget

open Moniker

namespace SelectionFilter

variable {m h g : Moniker}
variable {ms frameworks : List Moniker}

------------------------------------------------------------
-- The highest target
------------------------------------------------------------

theorem greater_eq
    (x y : Moniker) :
    greater x y = if x.consumes y = true then x else y := by
  unfold greater
  rw [compare_eq]
  cases x.consumes y with
  | false => rfl
  | true => cases y.consumes x <;> rfl

theorem foldl_greater_mem
    (m : Moniker)
    (ms : List Moniker) :
    ms.foldl greater m ∈ m :: ms := by
  induction ms generalizing m with
  | nil => simp
  | cons n ms ih =>
      rw [List.foldl_cons]
      rcases List.mem_cons.mp (ih (greater m n)) with h | h
      · rw [h, greater_eq]
        split <;> simp
      · simp [h]

/-
  A greatest framework is found wherever it stands: it stays
  once it is there, and one that takes its place is greatest
  as well.
-/
theorem foldl_greater_consumes
    (hg : g ∈ m :: ms)
    (hGreatest : ∀ y ∈ m :: ms, g.consumes y = true) :
    ∀ y ∈ m :: ms, (ms.foldl greater m).consumes y = true := by
  induction ms generalizing m g with
  | nil =>
      have hEq : g = m := by simpa using hg
      rw [← hEq] at hGreatest ⊢
      exact hGreatest
  | cons n ms ih =>
      rw [List.foldl_cons, greater_eq]
      split
      · next hUses =>
          -- If `n` was the greatest, now `m` is.
          have hRest :
              ∃ g' ∈ m :: ms,
                ∀ y ∈ m :: n :: ms, g'.consumes y = true := by
            by_cases hEq : g = n
            · rw [hEq] at hGreatest
              refine ⟨m, by simp, ?_⟩
              intro y hy
              exact consumes_trans hUses (hGreatest y hy)
            · refine ⟨g, ?_, hGreatest⟩
              simpa [hEq] using hg
          rcases hRest with ⟨g', hMem, hAll⟩
          have hFold :=
            ih hMem (fun y hy => hAll y (by
              rcases List.mem_cons.mp hy with rfl | hy <;>
                simp [*]))
          intro y hy
          exact consumes_trans (hFold g' hMem) (hAll y hy)
      · next hNot =>
          have hMem : g ∈ n :: ms := by
            rcases List.mem_cons.mp hg with hEq | hMem
            · rw [hEq] at hGreatest
              exact absurd (hGreatest n (by simp)) hNot
            · exact hMem
          have hFold :=
            ih hMem (fun y hy =>
              hGreatest y (List.mem_cons_of_mem m hy))
          intro y hy
          exact consumes_trans (hFold g hMem) (hGreatest y hy)

theorem highestModern?_mem
    (hSome : highestModern? frameworks = some h) :
    h ∈ frameworks.filter isModern := by
  unfold highestModern? at hSome
  split at hSome
  · cases hSome
  · next m r hCons =>
      cases hSome
      rw [hCons]
      exact foldl_greater_mem m r

theorem highestModern?_isSome
    (hNe : frameworks.filter isModern ≠ []) :
    ∃ h, highestModern? frameworks = some h := by
  unfold highestModern?
  split
  · next hNil => exact absurd hNil hNe
  · exact ⟨_, rfl⟩

theorem highestModern?_consumes
    (hSome : highestModern? frameworks = some h)
    (hg : g ∈ frameworks.filter isModern)
    (hGreatest :
      ∀ f ∈ frameworks.filter isModern, g.consumes f = true) :
    ∀ f ∈ frameworks.filter isModern, h.consumes f = true := by
  unfold highestModern? at hSome
  split at hSome
  · cases hSome
  · next m r hCons =>
      cases hSome
      rw [hCons] at hg hGreatest ⊢
      exact foldl_greater_consumes hg hGreatest

------------------------------------------------------------
-- Raising for the highest target
------------------------------------------------------------

/-
  Raising succeeds for all that a framework with platforms
  can come to use: every .NET Core, but no .NET Standard
  above 2.1.
-/
theorem raise_consumes
    (hm : m.Proper)
    (hh : h.Proper)
    (hModern : isModern h = true)
    (hStandard :
      h.isNetStandard = true →
        h.version.le (.ofPair 2 1) = true) :
    (raise m h).consumes h = true := by
  by_cases hAgrees : m.Agrees h
  · rw [consumes_iff hh.isNetCore]
    refine ⟨?_, raise_platformConsumes_right hh hAgrees⟩
    apply raise_frameworkConsumes_right hh hAgrees
    intro hPlatform hNot
    have hSupports := hm.supports hPlatform
    rw [isModern, Bool.or_eq_true] at hModern
    rcases hModern with hCore | hStd
    · exact
        frameworkConsumes_of_supportsPlatform_eq_false
          hSupports hCore hNot
    · rw [frameworkConsumes_iff_of_supportsPlatform
        hSupports hStd]
      exact hStandard hStd
  · rcases raise_cases m h with
      ⟨hConsumes, hRaise⟩ | ⟨_, hIs, _⟩ | ⟨_, _, hRaise⟩
    · rw [hRaise]
      exact hConsumes
    · exact absurd hIs hAgrees
    · rw [hRaise]
      exact consumes_refl h

/-
  From a framework without a platform, raising goes no
  higher than the target.
-/
theorem consumes_raise_of_frameworkConsumes_eq_false
    (hm : m.Proper)
    (hh : h.Proper)
    (hNone : m.platform = none)
    (hNot : m.frameworkConsumes h = false) :
    h.consumes (raise m h) = true := by
  have hAgrees : m.Agrees h :=
    Agrees.of_platform_eq_none_left hNone
  rw [consumes_iff (raise_proper hm hh).isNetCore]
  constructor
  · have hBase := raise_withoutPlatform hh hAgrees
    rw [if_neg (by simp [hNot, hNone])] at hBase
    rw [frameworkConsumes_congr rfl hBase]
    exact frameworkConsumes_refl h
  · apply platformConsumes_raise hm hh hAgrees
    · exact platformConsumes_of_platform_eq_none hNone
    · exact platformConsumes_refl h

/- The last filter raises for a target, or not at all. -/
theorem keepHighest_cases
    (frameworks : List Moniker)
    (m : Moniker) :
    keepHighest frameworks m = m ∨
      ∃ f ∈ frameworks, isModern f = true ∧
        keepHighest frameworks m = raise m f := by
  unfold keepHighest
  cases hSome : highestModern? frameworks with
  | none => exact Or.inl rfl
  | some f =>
      rcases List.mem_filter.mp (highestModern?_mem hSome) with
        ⟨hMem, hModern⟩
      exact Or.inr ⟨f, hMem, hModern, rfl⟩

theorem keepHighest_proper
    (hm : m.Proper)
    (hProper : ∀ f ∈ frameworks, f.Proper) :
    (keepHighest frameworks m).Proper := by
  rcases keepHighest_cases frameworks m with
    hSame | ⟨f, hf, _, hRaise⟩
  · rw [hSame]
    exact hm
  · rw [hRaise]
    exact raise_proper hm (hProper f hf)

theorem keepHighest_isModern
    (hm : isModern m = true)
    (hProper : ∀ f ∈ frameworks, f.Proper) :
    isModern (keepHighest frameworks m) = true := by
  rcases keepHighest_cases frameworks m with
    hSame | ⟨f, hf, hModern, hRaise⟩
  · rw [hSame]
    exact hm
  · rw [hRaise]
    exact raise_isModern (hProper f hf) hm hModern

/-
  One of the targets can use all of them, and a framework
  for applications can use it.
-/
def HasHighest (frameworks : List Moniker) : Prop :=
  ∃ g ∈ frameworks.filter isModern,
    (g.isNetStandard = true →
        g.version.le (.ofPair 2 1) = true) ∧
      ∀ f ∈ frameworks.filter isModern, g.consumes f = true

instance (frameworks : List Moniker) :
    Decidable (HasHighest frameworks) :=
  inferInstanceAs
    (Decidable
      (∃ g ∈ frameworks.filter isModern,
        (g.isNetStandard = true →
            g.version.le (.ofPair 2 1) = true) ∧
          ∀ f ∈ frameworks.filter isModern,
            g.consumes f = true))

theorem keepHighest_consumes
    (hm : m.Proper)
    (hProper : ∀ f ∈ frameworks, f.Proper)
    (hHighest : HasHighest frameworks) :
    ∀ f ∈ frameworks.filter isModern,
      (keepHighest frameworks m).consumes f = true := by
  rcases hHighest with ⟨g, hg, hStandard, hGreatest⟩
  have hNe : frameworks.filter isModern ≠ [] :=
    List.ne_nil_of_mem hg
  rcases highestModern?_isSome hNe with ⟨h, hSome⟩
  have hMem := highestModern?_mem hSome
  have hAll := highestModern?_consumes hSome hg hGreatest
  have hhStandard :
      h.isNetStandard = true →
        h.version.le (.ofPair 2 1) = true := by
    intro hStd
    have hUses := frameworkConsumes_of_consumes (hAll g hg)
    have hgStd := isNetStandard_of_frameworkConsumes hUses hStd
    exact
      FrameworkVersion.le_trans
        ((frameworkConsumes_iff_of_netStandard hgStd hStd).mp
          (frameworkConsumes_of_consumes (hGreatest h hMem)))
        (hStandard hgStd)
  have hKeep : keepHighest frameworks m = raise m h := by
    simp [keepHighest, hSome]
  have hUses : (raise m h).consumes h = true :=
    raise_consumes hm
      (hProper h (List.mem_filter.mp hMem).1)
      (List.mem_filter.mp hMem).2 hhStandard
  intro f hf
  rw [hKeep]
  exact consumes_trans hUses (hAll f hf)

/- One of some .NET Standards can use all of them. -/
theorem exists_consumes_all_of_isNetStandard
    (hNe : ms ≠ [])
    (hProper : ∀ f ∈ ms, f.Proper)
    (hStandard : ∀ f ∈ ms, f.isNetStandard = true) :
    ∃ g ∈ ms, ∀ f ∈ ms, g.consumes f = true := by
  have hComparable := Comparable.of_netStandard hStandard
  rcases hComparable.exists_greatest hNe with ⟨g, hg, hAll⟩
  refine ⟨g, hg, ?_⟩
  intro f hf
  exact
    consumes_of_netStandard (hProper f hf) (hStandard f hf)
      (hAll f hf)

/-
  If raising a .NET Standard for one of the targets is
  enough, one of them is the greatest.
-/
theorem exists_consumes_all_of_raise
    (hm : m.Proper)
    (hmStandard : m.isNetStandard = true)
    (hProper : ∀ f ∈ ms, f.Proper)
    (hh : h ∈ ms)
    (hUses : ∀ f ∈ ms, (raise m h).consumes f = true) :
    ∃ g ∈ ms, ∀ f ∈ ms, g.consumes f = true := by
  have hNone := hm.platform_eq_none hmStandard
  have hAgrees : m.Agrees h :=
    Agrees.of_platform_eq_none_left hNone
  cases hFramework : m.frameworkConsumes h with
  | true =>
      have hBase := raise_withoutPlatform (hProper h hh) hAgrees
      rw [if_pos (Or.inl hFramework)] at hBase
      apply exists_consumes_all_of_isNetStandard
        (List.ne_nil_of_mem hh) hProper
      intro f hf
      have hmf := frameworkConsumes_of_consumes (hUses f hf)
      rw [frameworkConsumes_congr hBase rfl] at hmf
      exact isNetStandard_of_frameworkConsumes hmf hmStandard
  | false =>
      refine ⟨h, hh, ?_⟩
      intro f hf
      exact
        consumes_trans
          (consumes_raise_of_frameworkConsumes_eq_false hm
            (hProper h hh) hNone hFramework)
          (hUses f hf)

/-
  A framework with a platform keeps to .NET Core when it is
  raised for a .NET Standard.
-/
theorem le_of_raise_consumes
    (hm : m.Proper)
    (hPlatform : m.platform.isSome = true)
    (hh : h.Proper)
    (hhStandard : h.isNetStandard = true)
    (hgStandard : g.isNetStandard = true)
    (hUses : (raise m h).consumes g = true) :
    g.version.le (.ofPair 2 1) = true := by
  have hNone := hh.platform_eq_none hhStandard
  have hBase :=
    raise_withoutPlatform hh
      (Agrees.of_platform_eq_none_right (x := m) hNone)
  rw [if_pos (Or.inr
    ⟨hPlatform, supportsPlatform_of_isNetStandard hhStandard⟩)]
    at hBase
  have hmg := frameworkConsumes_of_consumes hUses
  rw [frameworkConsumes_congr hBase rfl] at hmg
  exact
    (frameworkConsumes_iff_of_supportsPlatform
      (hm.supports hPlatform) hgStandard).mp hmg

end SelectionFilter

------------------------------------------------------------
-- The whole selection
------------------------------------------------------------

namespace SelectionInput

open SelectionFilter

variable {settings : Settings}
variable {options : SelectionOptions}
variable {frameworks : List Moniker}

theorem raiseAll_proper
    {input : SelectionInput}
    (hOptions :
      SelectionOptions.ofSettings settings = .ok input.options)
    (hFrameworks : ∀ f ∈ input.frameworks, f.Proper)
    (hDependencies : ∀ d ∈ input.dependencies, d.Proper) :
    (raiseAll input.dependencies input.tentative).Proper :=
  (raiseAll_candidate hDependencies
    (tentative_candidate hOptions hFrameworks)).proper

/- A project with nothing but its targets and its output. -/
def ofTargets (frameworks : List Moniker) (outputType : OutputType)
    (options : SelectionOptions) : SelectionInput :=
  ⟨frameworks, outputType, .empty, [], options⟩

theorem ofTargets_select
    {outputType : OutputType}
    {h : Moniker}
    (hSome : highestModern? frameworks = some h) :
    (ofTargets frameworks outputType options).select =
      raise (ofTargets frameworks outputType options).tentative
        h := by
  rw [select_eq]
  simp [ofTargets, raiseAll, keepHighest, hSome]

/- A library shows that one of the targets must be the greatest. -/
theorem exists_consumes_all_of_library
    (hProper : ∀ f ∈ frameworks, f.Proper)
    (hNe : frameworks.filter isModern ≠ [])
    (hUses :
      ∀ f ∈ frameworks.filter isModern,
        (ofTargets frameworks .library options).select.consumes
          f = true) :
    ∃ g ∈ frameworks.filter isModern,
      ∀ f ∈ frameworks.filter isModern, g.consumes f = true := by
  have hTentative :
      (ofTargets frameworks .library options).tentative =
        keepStandard (ofTargets frameworks .library options)
          netStandard20 :=
    tentative_of_isLibrary rfl
  rcases highestModern?_isSome hNe with ⟨h, hSome⟩
  rw [ofTargets_select hSome, hTentative] at hUses
  exact
    exists_consumes_all_of_raise (keepStandard_proper hProper)
      (keepStandard_isNetStandard _)
      (fun f hf => hProper f (List.mem_filter.mp hf).1)
      (highestModern?_mem hSome) hUses

/- A desktop program shows that it must not be too high. -/
theorem le_of_desktop
    {g : Moniker}
    (hOptions :
      SelectionOptions.ofSettings settings = .ok options)
    (hProper : ∀ f ∈ frameworks, f.Proper)
    (hg : g ∈ frameworks.filter isModern)
    (hGreatest :
      ∀ f ∈ frameworks.filter isModern, g.consumes f = true)
    (hStandard : g.isNetStandard = true)
    (hUses :
      (ofTargets frameworks .winExe options).select.consumes g =
        true) :
    g.version.le (.ofPair 2 1) = true := by
  have hTentative :
      (ofTargets frameworks .winExe options).tentative.Proper :=
    tentative_proper hOptions hProper
  rcases highestModern?_isSome (List.ne_nil_of_mem hg) with
    ⟨h, hSome⟩
  have hMem := highestModern?_mem hSome
  have hhStandard : h.isNetStandard = true :=
    isNetStandard_of_frameworkConsumes
      (frameworkConsumes_of_consumes (hGreatest h hMem))
      hStandard
  rw [ofTargets_select hSome] at hUses
  exact
    le_of_raise_consumes hTentative rfl
      (hProper h (List.mem_filter.mp hMem).1) hhStandard
      hStandard hUses

/-
  Whatever else a project is made of, the framework selected
  is not less than any .NET Core or .NET Standard that it
  targets exactly if there is none or one of them is highest.
-/
theorem select_not_below_targets_iff
    (hOptions :
      SelectionOptions.ofSettings settings = .ok options)
    (hRead : ∀ f ∈ frameworks, f.IsRead) :
    (∀ (outputType : OutputType)
        (components : ComponentSet)
        (dependencies : List Moniker),
        (∀ d ∈ dependencies, d.IsRead) →
          ∀ f ∈ frameworks, isModern f = true →
            (SelectionInput.mk frameworks outputType components
              dependencies options).select.compare f ≠ .lt) ↔
      frameworks.filter isModern = [] ∨
        HasHighest frameworks := by
  have hProper := proper_of_isRead hRead
  simp only [compare_ne_lt_iff]
  constructor
  · intro hKept
    by_cases hNil : frameworks.filter isModern = []
    · exact Or.inl hNil
    · right
      have hUses :
          ∀ outputType : OutputType,
            ∀ f ∈ frameworks.filter isModern,
              (ofTargets frameworks outputType
                options).select.consumes f = true := by
        intro outputType f hf
        rcases List.mem_filter.mp hf with ⟨hMem, hModern⟩
        exact
          hKept outputType .empty [] (by simp) f hMem hModern
      rcases exists_consumes_all_of_library hProper hNil
          (hUses .library) with
        ⟨g, hg, hGreatest⟩
      refine ⟨g, hg, ?_, hGreatest⟩
      intro hStandard
      exact
        le_of_desktop hOptions hProper hg hGreatest hStandard
          (hUses .winExe g hg)
  · intro hHighest outputType components dependencies hDeps
      f hf hModern
    have hMem : f ∈ frameworks.filter isModern :=
      List.mem_filter.mpr ⟨hf, hModern⟩
    rcases hHighest with hNil | hHighest
    · rw [hNil] at hMem
      cases hMem
    · rw [select_eq]
      apply keepHighest_consumes _ hProper hHighest f hMem
      exact
        raiseAll_proper hOptions hProper (proper_of_isRead hDeps)

theorem select_not_below_targets_of_windows :
    let frameworks : List Moniker :=
      [netStandard21,
        ⟨.netCoreApp, .ofPair 8 0, some "windows", none⟩,
        .ofFamily .netCoreApp (.ofPair 6 0)]
    SelectionOptions.ofSettings .standard = .ok .standard ∧
      (∀ f ∈ frameworks, f.IsRead) ∧
      HasHighest frameworks ∧
      ∀ (outputType : OutputType)
        (components : ComponentSet)
        (dependencies : List Moniker),
        (∀ d ∈ dependencies, d.IsRead) →
          ∀ f ∈ frameworks, isModern f = true →
            (SelectionInput.mk frameworks outputType components
              dependencies .standard).select.compare f ≠ .lt := by
  intro frameworks
  have hRead : ∀ f ∈ frameworks, f.IsRead := by
    intro f hf
    simp only [frameworks, List.mem_cons, List.not_mem_nil,
      or_false] at hf
    rcases hf with rfl | rfl | rfl
    · exact ⟨"netstandard2.1", Or.inl (by decide)⟩
    · exact ⟨"net8.0-windows", Or.inl (by decide)⟩
    · exact ⟨"net6.0", Or.inl (by decide)⟩
  have hHighest : HasHighest frameworks := by decide
  have hOptions := SelectionOptions.ofSettings_standard
  exact
    ⟨hOptions, hRead, hHighest,
      (select_not_below_targets_iff hOptions hRead).mpr
        (Or.inr hHighest)⟩

/-
  .NET 8 and .NET 6 for Windows cannot use each other, but
  .NET 8 for Windows can use both.
-/
def coreAndWindows : List Moniker :=
  [.ofFamily .netCoreApp (.ofPair 8 0),
    ⟨.netCoreApp, .ofPair 6 0, some "windows", none⟩]

theorem isRead_of_mem_coreAndWindows
    {f : Moniker}
    (h : f ∈ coreAndWindows) :
    f.IsRead := by
  simp only [coreAndWindows, List.mem_cons, List.not_mem_nil,
    or_false] at h
  rcases h with rfl | rfl
  · exact ⟨"net8.0", Or.inl (by decide)⟩
  · exact ⟨"net6.0-windows", Or.inl (by decide)⟩

/- A library for the two goes down to .NET 6 for Windows. -/
theorem select_below_coreAndWindows :
    let input : SelectionInput :=
      ⟨coreAndWindows, .library, .empty, [], .standard⟩
    SelectionOptions.ofSettings .standard = .ok input.options ∧
      (∀ f ∈ input.frameworks, f.IsRead) ∧
      (∃ u : Moniker,
        ∀ f ∈ input.frameworks, u.consumes f = true) ∧
      ¬ ∀ f ∈ input.frameworks, isModern f = true →
        input.select.compare f ≠ .lt := by
  intro input
  refine
    ⟨SelectionOptions.ofSettings_standard,
      fun f hf => isRead_of_mem_coreAndWindows hf, ?_,
      by decide⟩
  exact
    ⟨⟨.netCoreApp, .ofPair 8 0, some "windows", none⟩,
      by decide⟩

end SelectionInput

end Retarget
