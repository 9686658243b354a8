import Retarget.Proofs.Framework.Same
import Retarget.Proofs.Selection.Raising

/-
  This file shows when raising for others in any order gives
  the same framework.  The platform that is reached never
  depends on the order.

  Key definitions include:
    * `SelectionFilter.OrderFree`

  Key statements include:
    * `SelectionFilter.raise_same`
    * `SelectionFilter.foldl_raise_same`
    * `SelectionFilter.foldl_raise_same_of_orderFree`
-/

namespace Retarget.SelectionFilter

open Moniker

variable {m m' d g : Moniker}
variable {ds order : List Moniker}

------------------------------------------------------------
-- Raising the same framework
------------------------------------------------------------

theorem raise_same
    (hd : d.Proper)
    (h : m.same m' = true) :
    (raise m d).same (raise m' d) = true := by
  have hConsumes := consumes_congr_of_same h d
  have hAgrees : m.Agrees d ↔ m'.Agrees d := by
    unfold Agrees
    rw [(same_iff.mp h).2.1]
  rcases raise_cases m d with
    ⟨hUses, hRaise⟩ | ⟨hUses, hIs, hRaise⟩ |
      ⟨hUses, hNot, hRaise⟩
  · rw [hRaise, raise_of_consumes (hConsumes ▸ hUses)]
    exact h
  · rw [hRaise,
      raise_of_agrees (hConsumes ▸ hUses) (hAgrees.mp hIs)]
    exact join_same h hd.supports
  · rw [hRaise,
      raise_of_not_agrees (hConsumes ▸ hUses)
        (fun hIs => hNot (hAgrees.mpr hIs))]
    exact same_refl d

------------------------------------------------------------
-- Platforms
------------------------------------------------------------

/- From the first merge on, platforms have a version. -/
theorem foldl_raise_platformVersion_isSome
    (h : Raisable m ds)
    (hd : d ∈ ds)
    (hNot : m.consumes d = false) :
    (ds.foldl raise m).platformVersion.isSome =
      (ds.foldl raise m).platform.isSome := by
  have hJoin :
      ∀ x y : Moniker,
        (x.join y).platformVersion.isSome =
          (x.join y).platform.isSome := by
    intro x y
    rw [join_platformVersion]
    simp
  induction ds with
  | nil => cases hd
  | cons e ds ih =>
      rw [List.foldl_cons]
      rcases raise_cases m e with
        ⟨hUses, hRaise⟩ | ⟨_, _, hRaise⟩ | ⟨_, hApart, _⟩
      · rw [hRaise]
        have hMem : d ∈ ds := by
          rcases List.mem_cons.mp hd with rfl | hMem
          · rw [hUses] at hNot
            cases hNot
          · exact hMem
        have hTail := h.tail
        rw [hRaise] at hTail
        exact ih hTail hMem
      · apply foldl_raise_induction
          (fun x =>
            x.platformVersion.isSome = x.platform.isSome)
          h.tail
        · rw [hRaise]
          exact hJoin m e
        · intro x y _ _ hAgrees hx
          rcases raise_cases x y with
            ⟨_, hStep⟩ | ⟨_, _, hStep⟩ | ⟨_, hApart, _⟩
          · rw [hStep]
            exact hx
          · rw [hStep]
            exact hJoin x y
          · exact absurd hAgrees hApart
      · exact absurd h.head.2 hApart

/- The platform that is reached depends on no order. -/
theorem foldl_raise_platformConsumes_foldl_raise
    (hm : m.Proper)
    (hOrder : Raisable m order)
    (h : Raisable m ds)
    (hSubset : ∀ d ∈ ds, d ∈ order) :
    (order.foldl raise m).platformConsumes
      (ds.foldl raise m) = true := by
  apply platformConsumes_foldl_raise h hm
  · exact
      foldl_raise_platformConsumes_of_left hOrder hm
        (platformConsumes_refl m)
  · intro y hy
    exact foldl_raise_platformConsumes hOrder (hSubset y hy)

/-
  Raising in another order gives the same if it gives the
  same apart from the platforms.
-/
theorem foldl_raise_same
    (hm : m.Proper)
    (h : Raisable m ds)
    (hPerm : order.Perm ds)
    (hUses :
      (order.foldl raise m).frameworkConsumes
        (ds.foldl raise m) = true)
    (hUsed :
      (ds.foldl raise m).frameworkConsumes
        (order.foldl raise m) = true) :
    (order.foldl raise m).same (ds.foldl raise m) = true := by
  have hOrder := h.perm hPerm
  by_cases hAll : ∀ d ∈ ds, m.consumes d = true
  · have hAllOrder : ∀ d ∈ order, m.consumes d = true := by
      intro d hd
      exact hAll d (hPerm.mem_iff.mp hd)
    rw [foldl_raise_of_forall_consumes hAll,
      foldl_raise_of_forall_consumes hAllOrder]
    exact same_refl m
  · push Not at hAll
    rcases hAll with ⟨d, hd, hMissed⟩
    have hNot : m.consumes d = false := by simpa using hMissed
    have hDs : (ds.foldl raise m).Proper :=
      foldl_raise_proper hm h.proper
    have hFold : (order.foldl raise m).Proper :=
      foldl_raise_proper hm hOrder.proper
    have hxy :
        (order.foldl raise m).platformConsumes
          (ds.foldl raise m) = true :=
      foldl_raise_platformConsumes_foldl_raise hm hOrder h
        (fun y hy => hPerm.mem_iff.mpr hy)
    have hyx :
        (ds.foldl raise m).platformConsumes
          (order.foldl raise m) = true :=
      foldl_raise_platformConsumes_foldl_raise hm h hOrder
        (fun y hy => hPerm.mem_iff.mp hy)
    apply same_of_consumes hFold hDs
    · rw [consumes_iff hDs.isNetCore]
      exact ⟨hUses, hxy⟩
    · rw [consumes_iff hFold.isNetCore]
      exact ⟨hUsed, hyx⟩
    · rw [foldl_raise_platformVersion_isSome hOrder
          (hPerm.mem_iff.mpr hd) hNot,
        foldl_raise_platformVersion_isSome h hd hNot,
        Bool.eq_iff_iff]
      exact
        ⟨platform_isSome_of_platformConsumes hyx,
          platform_isSome_of_platformConsumes hxy⟩

------------------------------------------------------------
-- When the order is free
------------------------------------------------------------

/-
  Raising starts with a platform, or one of the frameworks
  at hand could, platforms aside, use all of the others, or
  one with a platform could use every .NET Core.
-/
def OrderFree (m : Moniker) (ds : List Moniker) : Prop :=
  m.platform.isSome = true ∨
    ∃ g ∈ m :: ds,
      (∀ d ∈ ds, g.frameworkConsumes d = true) ∨
        (g.platform.isSome = true ∧
          ∀ c ∈ m :: ds, c.isNetCore = true →
            g.frameworkConsumes c = true)

instance (m : Moniker) (ds : List Moniker) :
    Decidable (OrderFree m ds) :=
  inferInstanceAs
    (Decidable
      (m.platform.isSome = true ∨
        ∃ g ∈ m :: ds,
          (∀ d ∈ ds, g.frameworkConsumes d = true) ∨
            (g.platform.isSome = true ∧
              ∀ c ∈ m :: ds, c.isNetCore = true →
                g.frameworkConsumes c = true)))

theorem OrderFree.perm
    (hPerm : order.Perm ds)
    (hFree : OrderFree m order) :
    OrderFree m ds := by
  have hCons := hPerm.cons m
  refine hFree.imp_right ?_
  rintro ⟨g, hg, hAll⟩
  refine ⟨g, hCons.mem_iff.mp hg, ?_⟩
  rcases hAll with hGreatest | ⟨hPlatform, hCore⟩
  · left
    intro d hd
    exact hGreatest d (hPerm.mem_iff.mpr hd)
  · refine Or.inr ⟨hPlatform, ?_⟩
    intro c hc
    exact hCore c (hCons.mem_iff.mpr hc)

theorem exists_greatest_supportsPlatform
    (ds : List Moniker)
    (hSupports : m.supportsPlatform = true) :
    ∃ g ∈ m :: ds.filter supportsPlatform,
      ∀ y ∈ m :: ds.filter supportsPlatform,
        g.frameworkConsumes y = true := by
  have hComparable :
      Comparable (m :: ds.filter supportsPlatform) := by
    apply Comparable.of_netCore
    intro y hy
    apply isNetCore_of_supportsPlatform
    rcases List.mem_cons.mp hy with rfl | hy
    · exact hSupports
    · exact (List.mem_filter.mp hy).2
  exact hComparable.exists_greatest (by simp)

/-
  With a platform to begin with, the greatest one that
  carries platforms is reached.
-/
theorem foldl_raise_reaches_of_platform
    (h : Raisable m ds)
    (hPlatform : m.platform.isSome = true)
    (hg : g ∈ m :: ds.filter supportsPlatform)
    (hGreatest :
      ∀ y ∈ m :: ds.filter supportsPlatform,
        g.frameworkConsumes y = true) :
    (ds.foldl raise m).frameworkConsumes g = true ∧
      g.frameworkConsumes (ds.foldl raise m) = true := by
  have hOthers :
      ∀ y ∈ ds,
        g.frameworkConsumes y = true ∨
          y.supportsPlatform = false := by
    intro y hy
    cases hSupports : y.supportsPlatform with
    | true =>
        have hMem : y ∈ ds.filter supportsPlatform :=
          List.mem_filter.mpr ⟨hy, hSupports⟩
        exact Or.inl (hGreatest y (List.mem_cons_of_mem m hMem))
    | false => exact Or.inr rfl
  constructor
  · rcases List.mem_cons.mp hg with rfl | hMem
    · have hEnd :=
        foldl_raise_withoutPlatform_of_forall h (by
          intro y hy
          exact (hOthers y hy).imp_right (And.intro hPlatform))
      rw [frameworkConsumes_congr hEnd rfl]
      exact frameworkConsumes_refl g
    · rcases List.mem_filter.mp hMem with ⟨hMem, hSupports⟩
      apply foldl_raise_frameworkConsumes h hMem
      · intro y hy
        exact
          (hOthers y hy).imp_right
            (And.intro (Or.inl hPlatform))
      · intro _
        exact hSupports
  · rcases (reached_foldl_raise h).framework with
      hEnd | ⟨d, hd, hEnd, hCarries⟩
    · rw [frameworkConsumes_congr rfl hEnd]
      exact hGreatest m (by simp)
    · rw [frameworkConsumes_congr rfl hEnd]
      apply hGreatest d
      exact
        List.mem_cons_of_mem m
          (List.mem_filter.mpr ⟨hd, hCarries hPlatform⟩)

/- One that can use all of the others is reached. -/
theorem foldl_raise_reaches_of_greatest
    (h : Raisable m ds)
    (hNone : m.platform = none)
    (hStart : ¬ ∀ d ∈ ds, m.frameworkConsumes d = true)
    (hg : g ∈ ds)
    (hGreatest : ∀ d ∈ ds, g.frameworkConsumes d = true) :
    (ds.foldl raise m).frameworkConsumes g = true ∧
      g.frameworkConsumes (ds.foldl raise m) = true := by
  have hUses :=
    foldl_raise_frameworkConsumes h hg
      (fun y hy => Or.inl (hGreatest y hy)) (by simp [hNone])
  refine ⟨hUses, ?_⟩
  rcases (reached_foldl_raise h).framework with
    hEnd | ⟨d, hd, hEnd, _⟩
  · rw [frameworkConsumes_congr hEnd rfl] at hUses
    apply absurd _ hStart
    intro d hd
    exact frameworkConsumes_trans hUses (hGreatest d hd)
  · rw [frameworkConsumes_congr rfl hEnd]
    exact hGreatest d hd

/-
  One with a platform that can use every .NET Core is
  reached: the platform rules out all .NET Standards.
-/
theorem foldl_raise_reaches_of_core
    (hm : m.Proper)
    (h : Raisable m ds)
    (hNone : m.platform = none)
    (hg : g ∈ ds)
    (hPlatform : g.platform.isSome = true)
    (hGreatest :
      ∀ c ∈ m :: ds, c.isNetCore = true →
        g.frameworkConsumes c = true) :
    (ds.foldl raise m).frameworkConsumes g = true ∧
      g.frameworkConsumes (ds.foldl raise m) = true := by
  have hFold : (ds.foldl raise m).Proper :=
    foldl_raise_proper hm h.proper
  have hCore : (ds.foldl raise m).isNetCore = true :=
    hFold.isNetCore
      (platform_isSome_of_platformConsumes
        (foldl_raise_platformConsumes h hg) hPlatform)
  constructor
  · apply foldl_raise_frameworkConsumes h hg
    · intro y hy
      cases hyCore : y.isNetCore with
      | true =>
          exact
            Or.inl
              (hGreatest y (List.mem_cons_of_mem m hy) hyCore)
      | false =>
          refine Or.inr ⟨Or.inr hPlatform, ?_⟩
          simp [supportsPlatform, hyCore]
    · simp [hNone]
  · rcases (reached_foldl_raise h).framework with
      hEnd | ⟨d, hd, hEnd, _⟩
    · rw [frameworkConsumes_congr rfl hEnd]
      apply hGreatest m (by simp)
      rw [← withoutPlatform_isNetCore, ← hEnd]
      exact hCore
    · rw [frameworkConsumes_congr rfl hEnd]
      apply hGreatest d (by simp [hd])
      rw [← withoutPlatform_isNetCore, ← hEnd]
      exact hCore

/- What is reached then, is reached in every order. -/
theorem exists_reached_of_orderFree
    (hm : m.Proper)
    (h : Raisable m ds)
    (hFree : OrderFree m ds) :
    ∃ g : Moniker, ∀ order : List Moniker, order.Perm ds →
      (order.foldl raise m).frameworkConsumes g = true ∧
        g.frameworkConsumes (order.foldl raise m) = true := by
  by_cases hPlatform : m.platform.isSome = true
  · rcases exists_greatest_supportsPlatform ds
        (hm.supports hPlatform) with
      ⟨g, hg, hAll⟩
    refine ⟨g, ?_⟩
    intro order hPerm
    have hCons := (hPerm.filter supportsPlatform).cons m
    apply foldl_raise_reaches_of_platform (h.perm hPerm) hPlatform
    · exact hCons.mem_iff.mpr hg
    · intro y hy
      exact hAll y (hCons.mem_iff.mp hy)
  · have hNone : m.platform = none := by simpa using hPlatform
    rcases hFree with hIs | ⟨g, hg, hAll⟩
    · exact absurd hIs hPlatform
    · by_cases hStart : ∀ d ∈ ds, m.frameworkConsumes d = true
      · refine ⟨m, ?_⟩
        intro order hPerm
        have hEnd :=
          foldl_raise_withoutPlatform_of_forall (h.perm hPerm)
            (fun y hy =>
              Or.inl (hStart y (hPerm.mem_iff.mp hy)))
        rw [frameworkConsumes_congr hEnd rfl,
          frameworkConsumes_congr rfl hEnd]
        exact
          ⟨frameworkConsumes_refl m, frameworkConsumes_refl m⟩
      · refine ⟨g, ?_⟩
        intro order hPerm
        have hMem : g ≠ m → g ∈ order := by
          intro hNe
          rcases List.mem_cons.mp hg with hEq | hMem
          · exact absurd hEq hNe
          · exact hPerm.mem_iff.mpr hMem
        rcases hAll with hGreatest | ⟨hgPlatform, hGreatest⟩
        · apply foldl_raise_reaches_of_greatest
            (h.perm hPerm) hNone
          · intro hUses
            apply hStart
            intro d hd
            exact hUses d (hPerm.mem_iff.mpr hd)
          · apply hMem
            rintro rfl
            exact hStart hGreatest
          · intro d hd
            exact hGreatest d (hPerm.mem_iff.mp hd)
        · apply foldl_raise_reaches_of_core hm
            (h.perm hPerm) hNone _ hgPlatform
          · intro c hc
            exact hGreatest c ((hPerm.cons m).mem_iff.mp hc)
          · apply hMem
            rintro rfl
            exact hPlatform hgPlatform

theorem foldl_raise_same_of_orderFree
    (hm : m.Proper)
    (h : Raisable m ds)
    (hFree : OrderFree m ds)
    (hPerm : order.Perm ds) :
    (order.foldl raise m).same (ds.foldl raise m) = true := by
  rcases exists_reached_of_orderFree hm h hFree with ⟨g, hg⟩
  rcases hg order hPerm with ⟨hUses, hUsed⟩
  rcases hg ds (List.Perm.refl ds) with ⟨hUses', hUsed'⟩
  exact
    foldl_raise_same hm h hPerm
      (frameworkConsumes_trans hUses hUsed')
      (frameworkConsumes_trans hUses' hUsed)

end Retarget.SelectionFilter
