import Retarget.Proofs.Selection.Raising

/-
  This file says when the framework that is raised for some
  dependencies can use all of them.  Two frameworks of which
  neither can use the other are the obstacle: raising for
  the second one then gives up the first one.

  Key definitions include:
    * `SelectionFilter.HasGreatest`

  Key statements include:
    * `SelectionFilter.foldl_raise_consumes_iff`
    * `SelectionFilter.dependencies_consumable_iff`
-/

namespace Retarget.SelectionFilter

open Moniker

variable {m : Moniker}
variable {ds : List Moniker}

------------------------------------------------------------
-- Greatest frameworks
------------------------------------------------------------

/-
  One of the frameworks at hand could, platforms aside, use
  all of the others, and carries the platform of the start
  if there is one.
-/
def HasGreatest (m : Moniker) (ds : List Moniker) : Prop :=
  ∃ g ∈ m :: ds,
    (m.platform.isSome = true →
        g = m ∨ g.supportsPlatform = true) ∧
      ∀ d ∈ ds, g.frameworkConsumes d = true

instance (m : Moniker) (ds : List Moniker) :
    Decidable (HasGreatest m ds) :=
  inferInstanceAs
    (Decidable
      (∃ g ∈ m :: ds,
        (m.platform.isSome = true →
            g = m ∨ g.supportsPlatform = true) ∧
          ∀ d ∈ ds, g.frameworkConsumes d = true))

/- Raising reaches a greatest framework if there is one. -/
theorem foldl_raise_frameworkConsumes_of_hasGreatest
    (h : Raisable m ds)
    (hGreatest : HasGreatest m ds) :
    ∀ d ∈ ds, (ds.foldl raise m).frameworkConsumes d = true := by
  rcases hGreatest with ⟨g, hg, hCarries, hAll⟩
  intro d hd
  by_cases hStart : g = m
  · subst hStart
    have hEnd :=
      foldl_raise_withoutPlatform_of_forall h
        (fun y hy => Or.inl (hAll y hy))
    rw [frameworkConsumes_congr hEnd rfl]
    exact hAll d hd
  · have hMem : g ∈ ds := by
      rcases List.mem_cons.mp hg with hEq | hMem
      · exact absurd hEq hStart
      · exact hMem
    have hUses :=
      foldl_raise_frameworkConsumes h hMem
        (fun y hy => Or.inl (hAll y hy)) (by
          intro hPlatform
          rcases hCarries hPlatform with hEq | hSupports
          · exact absurd hEq hStart
          · exact hSupports)
    exact frameworkConsumes_trans hUses (hAll d hd)

/-
  Raising gives a framework that can use all the others
  exactly if one of those at hand could.
-/
theorem foldl_raise_consumes_iff
    (h : Raisable m ds) :
    (∀ d ∈ ds, (ds.foldl raise m).consumes d = true) ↔
      HasGreatest m ds := by
  constructor
  · intro hUses
    have hFramework :
        ∀ d ∈ ds,
          (ds.foldl raise m).frameworkConsumes d = true := by
      intro d hd
      exact frameworkConsumes_of_consumes (hUses d hd)
    rcases (reached_foldl_raise h).framework with
      hSame | ⟨g, hg, hSame, hSupports⟩
    · refine ⟨m, by simp, fun _ => Or.inl rfl, ?_⟩
      intro d hd
      rw [← frameworkConsumes_congr hSame rfl]
      exact hFramework d hd
    · refine
        ⟨g, by simp [hg], fun hp => Or.inr (hSupports hp), ?_⟩
      intro d hd
      rw [← frameworkConsumes_congr hSame rfl]
      exact hFramework d hd
  · intro hGreatest d hd
    rw [consumes_iff (h.proper d hd).isNetCore]
    exact
      ⟨foldl_raise_frameworkConsumes_of_hasGreatest h hGreatest
          d hd,
        foldl_raise_platformConsumes h hd⟩

------------------------------------------------------------
-- The filter for dependencies
------------------------------------------------------------

theorem raisable_of_isRead
    (hRead : ∀ d ∈ ds, d.IsRead)
    (hAgree : AgreeAll (m :: ds.filter isModern)) :
    Raisable m (ds.filter isModern) where
  proper := by
    intro d hd
    exact (hRead d (List.mem_filter.mp hd |>.1)).proper
  agree := hAgree

/-
  After the filter for dependencies, a framework can use
  every .NET Core and .NET Standard dependency exactly if
  one of the frameworks at hand could, platforms aside.
-/
theorem dependencies_consumable_iff
    {input : SelectionInput}
    {m : Moniker}
    (hRead : ∀ d ∈ input.dependencies, d.IsRead)
    (hAgree :
      AgreeAll (m :: input.dependencies.filter isModern)) :
    (∀ d ∈ input.dependencies, isModern d = true →
        (dependencies.apply input m).isAtLeast d = true) ↔
      HasGreatest m (input.dependencies.filter isModern) := by
  have hRaisable := raisable_of_isRead hRead hAgree
  rw [← foldl_raise_consumes_iff hRaisable]
  simp only [isAtLeast_eq_consumes, List.mem_filter, and_imp]
  exact Iff.rfl

theorem dependencies_consumable_iff_of_windows :
    let net60Windows : Moniker :=
      ⟨.netCoreApp, .ofPair 6 0, some "windows", none⟩
    let net70 : Moniker := .ofFamily .netCoreApp (.ofPair 7 0)
    let input : SelectionInput :=
      { (default : SelectionInput) with
        dependencies := [net60Windows, net70, netStandard21] }
    (∀ d ∈ input.dependencies, d.IsRead) ∧
      AgreeAll
        (netStandard20 :: input.dependencies.filter isModern) ∧
      HasGreatest netStandard20
        (input.dependencies.filter isModern) ∧
      ∀ d ∈ input.dependencies, isModern d = true →
        (dependencies.apply input netStandard20).isAtLeast d =
          true := by
  intro net60Windows net70 input
  have hRead : ∀ d ∈ input.dependencies, d.IsRead := by
    intro d hd
    simp only [input, List.mem_cons, List.not_mem_nil,
      or_false] at hd
    rcases hd with rfl | rfl | rfl
    · exact ⟨"net6.0-windows", Or.inl (by decide)⟩
    · exact ⟨"net7.0", Or.inl (by decide)⟩
    · exact ⟨"netstandard2.1", Or.inl (by decide)⟩
  have hAgree :
      AgreeAll
        (netStandard20 :: input.dependencies.filter isModern) := by
    decide
  have hGreatest :
      HasGreatest netStandard20
        (input.dependencies.filter isModern) := by
    decide
  exact
    ⟨hRead, hAgree, hGreatest,
      (dependencies_consumable_iff hRead hAgree).mpr hGreatest⟩

/-
  .NET Core 2.1 and .NET Standard 2.1 cannot use each other,
  but .NET Core 3.0 can use both.
-/
def coreAndStandard : List Moniker :=
  [.ofFamily .netCoreApp (.ofPair 2 1), netStandard21]

theorem isRead_of_mem_coreAndStandard
    {d : Moniker}
    (h : d ∈ coreAndStandard) :
    d.IsRead := by
  simp only [coreAndStandard, List.mem_cons, List.not_mem_nil,
    or_false] at h
  rcases h with rfl | rfl
  · exact ⟨"netcoreapp2.1", Or.inl (by decide)⟩
  · exact ⟨"netstandard2.1", Or.inl (by decide)⟩

/-
  Raised for the two, a framework ends at the second one and
  can no longer use the first one.
-/
theorem coreAndStandard_not_consumable :
    let input : SelectionInput :=
      { (default : SelectionInput) with
        dependencies := coreAndStandard }
    (∀ d ∈ input.dependencies, d.IsRead) ∧
      AgreeAll
        (netStandard20 :: input.dependencies.filter isModern) ∧
      isModern netStandard20 = true ∧
      (∃ u : Moniker,
        ∀ d ∈ input.dependencies, u.isAtLeast d = true) ∧
      ¬ ∀ d ∈ input.dependencies, isModern d = true →
        (dependencies.apply input netStandard20).isAtLeast d =
          true := by
  intro input
  refine
    ⟨fun d hd => isRead_of_mem_coreAndStandard hd, by decide,
      by decide, ?_, by decide⟩
  exact ⟨.ofFamily .netCoreApp (.ofPair 3 0), by decide⟩

end Retarget.SelectionFilter
