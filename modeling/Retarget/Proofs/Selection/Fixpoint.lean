import Retarget.Proofs.Selection.Targets

/-
  This file shows that a project which moves to the framework
  selected for it stays there: from the selected framework
  alone, the same one is selected again.

  Key statements include:
    * `SelectionFilter.raise_raise_name`
    * `SelectionFilter.raise_foldl_raise_again`
    * `SelectionInput.select_select_name`
-/

namespace Retarget

open Moniker

namespace SelectionFilter

variable {m m' d h r : Moniker}
variable {ds frameworks : List Moniker}

------------------------------------------------------------
-- Raising twice
------------------------------------------------------------

theorem raise_self
    (m : Moniker) :
    raise m m = m :=
  raise_of_consumes (consumes_refl m)

/- Raising for what raising has given leads to the same name. -/
theorem raise_raise_name
    (hm : m.Proper)
    (hd : d.Proper) :
    (raise m (raise m d)).name = (raise m d).name := by
  rcases raise_cases m d with
    ⟨_, hRaise⟩ | ⟨hNot, hAgrees, hRaise⟩ | ⟨_, _, hRaise⟩
  · rw [hRaise, raise_self]
  · rw [hRaise]
    rcases raise_cases m (m.join d) with
      ⟨hUses, hAgain⟩ | ⟨_, _, hAgain⟩ | ⟨_, _, hAgain⟩
    · rw [hAgain]
      exact
        (join_name_of_consumes hm hd hAgrees hNot hUses).symm
    · rw [hAgain, join_join hm hd]
    · rw [hAgain]
  · rw [hRaise, hRaise]

------------------------------------------------------------
-- Raising a .NET Standard
------------------------------------------------------------

/- A .NET Core takes the place of a .NET Standard. -/
theorem raise_of_core
    (hm : m.Proper)
    (hmStandard : m.isNetStandard = true)
    (hd : d.Proper)
    (hdCore : d.isNetCore = true) :
    (raise m d).withoutPlatform = d.withoutPlatform ∧
      (raise m d).platform = d.platform ∧
      (raise m d).platformVersion =
        d.platform.map fun _ => d.platformVersionOrZero := by
  have hNone := hm.platform_eq_none hmStandard
  have hNot :=
    frameworkConsumes_eq_false_of_netStandard_netCore
      hmStandard hdCore
  have hRaise : raise m d = m.join d :=
    raise_of_agrees (consumes_eq_false_of_frameworkConsumes hNot)
      (Agrees.of_platform_eq_none_left hNone)
  have hPlatform : (m.join d).platform = d.platform := by
    rw [join_platform, hNone, Option.none_or]
    cases hp : d.platform with
    | none => rfl
    | some p => simp [hd.lowered p hp]
  have hMerged :
      mergedPlatformVersion m d = d.platformVersionOrZero := by
    unfold mergedPlatformVersion platformVersionOrZero
    rw [hm.versioned hNone]
    cases d.platformVersion <;> rfl
  rw [hRaise]
  refine ⟨?_, hPlatform, ?_⟩
  · rw [join_withoutPlatform hd.supports]
    simp [hNot, hNone]
  · rw [join_platformVersion, hPlatform, hMerged]

/- It does not show which .NET Standard it was. -/
theorem raise_eq_of_core
    (hm : m.Proper)
    (hmStandard : m.isNetStandard = true)
    (hm' : m'.Proper)
    (hmStandard' : m'.isNetStandard = true)
    (hd : d.Proper)
    (hdCore : d.isNetCore = true) :
    raise m d = raise m' d := by
  rcases raise_of_core hm hmStandard hd hdCore with
    ⟨hBase, hPlatform, hVersion⟩
  rcases raise_of_core hm' hmStandard' hd hdCore with
    ⟨hBase', hPlatform', hVersion'⟩
  exact
    eq_of_withoutPlatform (hBase.trans hBase'.symm)
      (hPlatform.trans hPlatform'.symm)
      (hVersion.trans hVersion'.symm)

theorem foldl_raise_eq_of_core
    (hm : m.Proper)
    (hmStandard : m.isNetStandard = true)
    (hm' : m'.Proper)
    (hmStandard' : m'.isNetStandard = true)
    (hProper : ∀ y ∈ ds, y.Proper)
    (hModern : ∀ y ∈ ds, isModern y = true)
    (hd : d ∈ ds)
    (hdCore : d.isNetCore = true) :
    ds.foldl raise m = ds.foldl raise m' := by
  induction ds generalizing m m' with
  | nil => cases hd
  | cons e ds ih =>
      have he : e.Proper := hProper e (by simp)
      rw [List.foldl_cons, List.foldl_cons]
      cases heCore : e.isNetCore with
      | true =>
          rw [raise_eq_of_core hm hmStandard hm' hmStandard' he
            heCore]
      | false =>
          have heStandard : e.isNetStandard = true := by
            simpa [isModern, heCore] using hModern e (by simp)
          have hMem : d ∈ ds := by
            rcases List.mem_cons.mp hd with rfl | hMem
            · rw [hdCore] at heCore
              cases heCore
            · exact hMem
          apply ih
          · exact raise_proper hm he
          · exact raise_isNetStandard he hmStandard heStandard
          · exact raise_proper hm' he
          · exact raise_isNetStandard he hmStandard' heStandard
          · intro y hy
            exact hProper y (by simp [hy])
          · intro y hy
            exact hModern y (by simp [hy])
          · exact hMem

/- Among .NET Standards, raising gives the highest one. -/
theorem foldl_raise_consumes_of_isNetStandard
    (hProper : ∀ y ∈ m :: ds, y.Proper)
    (hStandard : ∀ y ∈ m :: ds, y.isNetStandard = true) :
    ∀ y ∈ m :: ds, (ds.foldl raise m).consumes y = true := by
  have hNone : ∀ y ∈ m :: ds, y.platform = none := by
    intro y hy
    exact (hProper y hy).platform_eq_none (hStandard y hy)
  have hRaisable : Raisable m ds := by
    constructor
    · intro y hy
      exact hProper y (by simp [hy])
    · intro x hx y _
      exact Agrees.of_platform_eq_none_left (hNone x hx)
  have hComparable := Comparable.of_netStandard hStandard
  intro y hy
  apply consumes_of_netStandard (hProper y hy) (hStandard y hy)
  rcases List.mem_cons.mp hy with rfl | hMem
  · exact
      foldl_raise_frameworkConsumes_start hRaisable
        (hNone y (by simp)) hComparable
  · exact
      foldl_raise_frameworkConsumes_of_comparable hRaisable
        (hNone m (by simp)) hComparable.tail y hMem

/- What is above all that was raised for is not raised again. -/
theorem foldl_raise_of_consumes_foldl_raise
    (hProper : ∀ y ∈ m :: ds, y.Proper)
    (hStandard : ∀ y ∈ m :: ds, y.isNetStandard = true)
    (hAbove : r.consumes (ds.foldl raise m) = true) :
    r.consumes m = true ∧ ds.foldl raise r = r := by
  have hUses : ∀ y ∈ m :: ds, r.consumes y = true := by
    intro y hy
    exact
      consumes_trans hAbove
        (foldl_raise_consumes_of_isNetStandard hProper hStandard
          y hy)
  refine ⟨hUses m (by simp), ?_⟩
  apply foldl_raise_of_forall_consumes
  intro y hy
  exact hUses y (List.mem_cons_of_mem m hy)

/- What stays a .NET Standard is not lower than before. -/
theorem raise_consumes_of_isNetStandard
    (hm : m.Proper)
    (hmStandard : m.isNetStandard = true)
    (hd : d.Proper)
    (hStandard : (raise m d).isNetStandard = true) :
    (raise m d).consumes m = true := by
  have hNone := hm.platform_eq_none hmStandard
  have hBase :=
    raise_withoutPlatform (m := m) hd
      (Agrees.of_platform_eq_none_left hNone)
  apply consumes_of_netStandard hm hmStandard
  split at hBase
  · rw [frameworkConsumes_congr hBase rfl]
    exact frameworkConsumes_refl m
  · next hNot =>
      have hdStandard : d.isNetStandard = true := by
        rw [← withoutPlatform_isNetStandard, ← hBase]
        exact hStandard
      rw [frameworkConsumes_congr hBase rfl]
      rcases frameworkConsumes_total_of_netStandard
          hmStandard hdStandard with hmd | hdm
      · exact absurd (Or.inl hmd) hNot
      · exact hdm

------------------------------------------------------------
-- Selecting twice
------------------------------------------------------------

/-
  A library may start from another .NET Standard the second
  time.  No .NET Core shows it, and a .NET Standard that has
  been selected is the start itself.
-/
theorem raise_foldl_raise_again
    (hm : m.Proper)
    (hmStandard : m.isNetStandard = true)
    (hm' : m'.Proper)
    (hmStandard' : m'.isNetStandard = true)
    (hProper : ∀ y ∈ ds, y.Proper)
    (hModern : ∀ y ∈ ds, isModern y = true)
    (hr : r.Proper)
    (hrModern : isModern r = true)
    (hKept :
      r.isNetStandard = true → r.consumes m = true →
        m' = r ∨ m' = m)
    (hAbove :
      r.isNetStandard = true →
        (ds.foldl raise m).isNetStandard = true →
          r.consumes (ds.foldl raise m) = true) :
    raise (ds.foldl raise m') r = r ∨
      raise (ds.foldl raise m') r =
        raise (ds.foldl raise m) r := by
  by_cases hCore : ∃ d ∈ ds, d.isNetCore = true
  · rcases hCore with ⟨d, hd, hdCore⟩
    rw [foldl_raise_eq_of_core hm' hmStandard' hm hmStandard
      hProper hModern hd hdCore]
    exact Or.inr rfl
  · have hStandard : ∀ y ∈ ds, y.isNetStandard = true := by
      intro y hy
      have hyModern := hModern y hy
      rw [isModern, Bool.or_eq_true] at hyModern
      rcases hyModern with hyCore | hyStandard
      · exact absurd ⟨y, hy, hyCore⟩ hCore
      · exact hyStandard
    have hEnd :=
      foldl_raise_isNetStandard hmStandard hProper hStandard
    have hEnd' :=
      foldl_raise_isNetStandard hmStandard' hProper hStandard
    cases hrStandard : r.isNetStandard with
    | false =>
        have hrCore : r.isNetCore = true := by
          simpa [isModern, hrStandard] using hrModern
        right
        exact
          raise_eq_of_core (foldl_raise_proper hm' hProper) hEnd'
            (foldl_raise_proper hm hProper) hEnd hr hrCore
    | true =>
        have hAllProper : ∀ y ∈ m :: ds, y.Proper := by
          intro y hy
          rcases List.mem_cons.mp hy with rfl | hy
          · exact hm
          · exact hProper y hy
        have hAllStandard :
            ∀ y ∈ m :: ds, y.isNetStandard = true := by
          intro y hy
          rcases List.mem_cons.mp hy with rfl | hy
          · exact hmStandard
          · exact hStandard y hy
        rcases foldl_raise_of_consumes_foldl_raise hAllProper
            hAllStandard (hAbove hrStandard hEnd) with
          ⟨hUses, hStays⟩
        rcases hKept hrStandard hUses with rfl | rfl
        · left
          rw [hStays, raise_self]
        · exact Or.inr rfl

theorem raise_keepHighest_name
    (hm : m.Proper)
    (hProper : ∀ f ∈ frameworks, f.Proper) :
    (raise m (keepHighest frameworks m)).name =
      (keepHighest frameworks m).name := by
  rcases keepHighest_cases frameworks m with
    hSame | ⟨f, hf, _, hRaise⟩
  · rw [hSame, raise_self]
  · rw [hRaise]
    exact raise_raise_name hm (hProper f hf)

theorem keepHighest_consumes_of_isNetStandard
    (hm : m.Proper)
    (hmStandard : m.isNetStandard = true)
    (hProper : ∀ f ∈ frameworks, f.Proper)
    (hStandard :
      (keepHighest frameworks m).isNetStandard = true) :
    (keepHighest frameworks m).consumes m = true := by
  rcases keepHighest_cases frameworks m with
    hSame | ⟨f, hf, _, hRaise⟩
  · rw [hSame]
    exact consumes_refl m
  · rw [hRaise] at hStandard ⊢
    exact
      raise_consumes_of_isNetStandard hm hmStandard
        (hProper f hf) hStandard

theorem keepHighest_singleton
    (hModern : isModern r = true) :
    keepHighest [r] m = raise m r := by
  simp [keepHighest, highestModern?, hModern]

theorem keepStandard_singleton
    {input : SelectionInput}
    (hStandard : r.isNetStandard = true) :
    keepStandard (input.targeting r) m =
      if m.consumes r = true then m else r := by
  rw [← isAtLeast_eq_consumes, isAtLeast]
  cases hCompare : m.compare r <;>
    simp [keepStandard, SelectionInput.targeting,
      highestVersion?, hStandard, hCompare]

/- The second start is the framework selected, or the first start. -/
theorem keepStandard_again
    {input : SelectionInput}
    (hStandard : r.isNetStandard = true)
    (hUses :
      r.consumes (keepStandard input netStandard20) = true) :
    keepStandard (input.targeting r) netStandard20 = r ∨
      keepStandard (input.targeting r) netStandard20 =
        keepStandard input netStandard20 := by
  rw [keepStandard_singleton hStandard]
  split
  · next hBelow =>
      right
      rcases keepStandard_cases input netStandard20 with
        hSame | ⟨_, _, hNot⟩
      · exact hSame.symm
      · rw [consumes_trans hBelow hUses] at hNot
        cases hNot
  · exact Or.inl rfl

end SelectionFilter

------------------------------------------------------------
-- The whole selection
------------------------------------------------------------

namespace SelectionInput

open SelectionFilter

variable {settings : Settings}
variable {input : SelectionInput}

/- The references of a library lead to what they led to before. -/
theorem raise_raiseAll_again
    (hLibrary : input.isLibrary = true)
    (hFrameworks : ∀ f ∈ input.frameworks, f.Proper)
    (hDependencies : ∀ d ∈ input.dependencies, d.Proper)
    (hSelect : input.select.Proper)
    (hModern : isModern input.select = true) :
    raise (raiseAll input.dependencies
          (input.targeting input.select).tentative)
        input.select = input.select ∨
      raise (raiseAll input.dependencies
          (input.targeting input.select).tentative)
        input.select =
        raise (raiseAll input.dependencies input.tentative)
          input.select := by
  have hFirst := tentative_of_isLibrary hLibrary
  have hSecond :
      (input.targeting input.select).tentative =
        keepStandard (input.targeting input.select)
          netStandard20 :=
    tentative_of_isLibrary (by simp [hLibrary])
  have hStart := keepStandard_proper hFrameworks
  have hStart' :
      (keepStandard (input.targeting input.select)
        netStandard20).Proper := by
    apply keepStandard_proper
    intro f hf
    rw [List.mem_singleton.mp hf]
    exact hSelect
  have hDsProper :
      ∀ d ∈ input.dependencies.filter isModern, d.Proper := by
    intro d hd
    exact hDependencies d (List.mem_filter.mp hd).1
  rw [hSecond, hFirst]
  apply raise_foldl_raise_again hStart
    (keepStandard_isNetStandard input) hStart'
    (keepStandard_isNetStandard _) hDsProper
    (fun d hd => (List.mem_filter.mp hd).2) hSelect hModern
  · exact keepStandard_again
  · intro hStandard hRaised
    rw [select_eq, hFirst] at hStandard ⊢
    exact
      keepHighest_consumes_of_isNetStandard
        (foldl_raise_proper hStart hDsProper) hRaised
        hFrameworks hStandard

/-
  A project that targets nothing but the framework selected
  for it gets that framework again.
-/
theorem select_select_name
    (hOptions :
      SelectionOptions.ofSettings settings = .ok input.options)
    (hFrameworks : ∀ f ∈ input.frameworks, f.IsRead)
    (hRead : ∀ d ∈ input.dependencies, d.IsRead) :
    (input.targeting input.select).select.name =
      input.select.name := by
  have hProper := proper_of_isRead hFrameworks
  have hDependencies := proper_of_isRead hRead
  have hRaised :
      (raiseAll input.dependencies input.tentative).Proper :=
    raiseAll_proper hOptions hProper hDependencies
  have hRaisedModern :
      isModern (raiseAll input.dependencies input.tentative) =
        true := by
    apply foldl_raise_isModern (tentative_isModern hOptions)
    · intro d hd
      exact hDependencies d (List.mem_filter.mp hd).1
    · intro d hd
      exact (List.mem_filter.mp hd).2
  have hSelect : input.select.Proper :=
    keepHighest_proper hRaised hProper
  have hModern : isModern input.select = true :=
    keepHighest_isModern hRaisedModern hProper
  have hName :
      (raise (raiseAll input.dependencies input.tentative)
        input.select).name = input.select.name :=
    raise_keepHighest_name hRaised hProper
  have hAgain :
      (input.targeting input.select).select =
        raise (raiseAll input.dependencies
          (input.targeting input.select).tentative)
          input.select := by
    rw [select_eq]
    exact keepHighest_singleton hModern
  rw [hAgain]
  cases hLibrary : input.isLibrary with
  | false =>
      rw [targeting_tentative hLibrary]
      exact hName
  | true =>
      rcases raise_raiseAll_again hLibrary hProper hDependencies
          hSelect hModern with
        hSame | hSame
      · rw [hSame]
      · rw [hSame]
        exact hName

theorem select_select_name_of_windows :
    let net48 : Moniker :=
      .ofFamily .netFramework ⟨4, 8, 0, 0, 2⟩
    let net60Windows : Moniker :=
      ⟨.netCoreApp, .ofPair 6 0, some "windows", none⟩
    let input : SelectionInput :=
      ⟨[net48, netStandard21], .library, .empty,
        [net60Windows, net48], .standard⟩
    SelectionOptions.ofSettings .standard = .ok input.options ∧
      (∀ f ∈ input.frameworks, f.IsRead) ∧
      (∀ d ∈ input.dependencies, d.IsRead) ∧
      (input.targeting input.select).select.name =
        input.select.name := by
  intro net48 net60Windows input
  have hNet48 : net48.IsRead :=
    ⟨"net48", Or.inl (by decide)⟩
  have hFrameworks : ∀ f ∈ input.frameworks, f.IsRead := by
    intro f hf
    simp only [input, List.mem_cons, List.not_mem_nil,
      or_false] at hf
    rcases hf with rfl | rfl
    · exact hNet48
    · exact ⟨"netstandard2.1", Or.inl (by decide)⟩
  have hRead : ∀ d ∈ input.dependencies, d.IsRead := by
    intro d hd
    simp only [input, List.mem_cons, List.not_mem_nil,
      or_false] at hd
    rcases hd with rfl | rfl
    · exact ⟨"net6.0-windows", Or.inl (by decide)⟩
    · exact hNet48
  have hOptions := SelectionOptions.ofSettings_standard
  exact
    ⟨hOptions, hFrameworks, hRead,
      select_select_name hOptions hFrameworks hRead⟩

end SelectionInput

end Retarget
