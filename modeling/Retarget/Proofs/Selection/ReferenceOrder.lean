import Retarget.Proofs.Selection.Dependencies
import Retarget.Proofs.Selection.OrderFree
import Retarget.Proofs.Selection.Targets

/-
  This file says exactly when the order of the references of
  a project does not matter for a selection.  Where it does,
  two orders are given that end at different frameworks.

  Key definitions include:
    * `SelectionFilter.Parts`

  Key statements include:
    * `SelectionFilter.foldl_raise_standard_or`
    * `SelectionFilter.orderFree_of_foldl_raise_same`
    * `SelectionInput.select_same_of_perm_iff`
-/

namespace Retarget

open Moniker

namespace SelectionFilter

variable {m c p : Moniker}
variable {ds ps cs ss l : List Moniker}

------------------------------------------------------------
-- Two orders
------------------------------------------------------------

/-
  Without platforms, raising for the .NET Core frameworks
  first ends at a .NET Standard, unless a .NET Core at hand
  could use all of them.
-/
theorem foldl_raise_standard_or
    (h : Raisable m (cs ++ ss))
    (hModern : isModern m = true)
    (hNone : m.platform = none)
    (hPlain : ∀ y ∈ cs, y.platform = none)
    (hCore : ∀ y ∈ cs, y.isNetCore = true)
    (hStandard : ∀ y ∈ ss, y.isNetStandard = true) :
    ((cs ++ ss).foldl raise m).isNetStandard = true ∨
      ∃ g ∈ m :: cs, g.isNetCore = true ∧
        ∀ d ∈ cs ++ ss, g.frameworkConsumes d = true := by
  have hMiddle : (cs.foldl raise m).platform = none :=
    foldl_raise_platform_eq_none h.left hNone hPlain
  have hUsesCore :=
    foldl_raise_frameworkConsumes_of_comparable h.left hNone
      (Comparable.of_netCore hCore)
  have hUsesStandard :=
    foldl_raise_frameworkConsumes_of_comparable h.right hMiddle
      (Comparable.of_netStandard hStandard)
  rw [List.foldl_append]
  rcases (reached_foldl_raise h.right).framework with
    hEnd | ⟨s, hs, hEnd, _⟩
  · -- What was reached first is kept, so it can use the rest.
    have hStart :
        ∃ g ∈ m :: cs,
          (cs.foldl raise m).withoutPlatform =
            g.withoutPlatform := by
      rcases (reached_foldl_raise h.left).framework with
        hSame | ⟨e, he, hSame, _⟩
      · exact ⟨m, by simp, hSame⟩
      · exact ⟨e, by simp [he], hSame⟩
    rcases hStart with ⟨g, hg, hSame⟩
    have hUses :
        ∀ d ∈ cs ++ ss, g.frameworkConsumes d = true := by
      intro d hd
      rcases List.mem_append.mp hd with hc | hs
      · rw [← frameworkConsumes_congr hSame rfl]
        exact hUsesCore d hc
      · rw [← frameworkConsumes_congr (hEnd.trans hSame) rfl]
        exact hUsesStandard d hs
    have hgModern :
        g.isNetCore = true ∨ g.isNetStandard = true := by
      rcases List.mem_cons.mp hg with rfl | hMem
      · exact Bool.or_eq_true_iff.mp hModern
      · exact Or.inl (hCore g hMem)
    rcases hgModern with hgCore | hgStandard
    · exact Or.inr ⟨g, hg, hgCore, hUses⟩
    · left
      rw [← withoutPlatform_isNetStandard, hEnd, hSame]
      exact hgStandard
  · left
    rw [← withoutPlatform_isNetStandard, hEnd]
    exact hStandard s hs

/- Raising for .NET Core first keeps what a .NET Core can use. -/
theorem foldl_raise_frameworkConsumes_of_core
    (h : Raisable m ps)
    (hNone : m.platform = none)
    (hCore : ∀ y ∈ ps, y.isNetCore = true)
    (hc : c ∈ m :: ps)
    (hcCore : c.isNetCore = true) :
    (ps.foldl raise m).frameworkConsumes c = true := by
  rcases List.mem_cons.mp hc with rfl | hMem
  · have hAllCore : ∀ y ∈ c :: ps, y.isNetCore = true := by
      intro y hy
      rcases List.mem_cons.mp hy with rfl | hy
      · exact hcCore
      · exact hCore y hy
    exact
      foldl_raise_frameworkConsumes_start h hNone
        (Comparable.of_netCore hAllCore)
  · exact
      foldl_raise_frameworkConsumes_of_comparable h hNone
        (Comparable.of_netCore hCore) c hMem

/- With a platform, every .NET Core can be used in the end. -/
theorem foldl_raise_frameworkConsumes_of_platform
    (hm : m.Proper)
    (h : Raisable m l)
    (hPlatform : m.platform.isSome = true)
    (hc : c ∈ m :: l)
    (hcCore : c.isNetCore = true) :
    (l.foldl raise m).frameworkConsumes c = true := by
  have hSupports := hm.supports hPlatform
  rcases exists_greatest_supportsPlatform l hSupports with
    ⟨g, hg, hAll⟩
  have hUses :=
    (foldl_raise_reaches_of_platform h hPlatform hg hAll).1
  have hgc : g.frameworkConsumes c = true := by
    rcases List.mem_cons.mp hc with rfl | hMem
    · exact hAll c (by simp)
    · cases hcSupports : c.supportsPlatform with
      | true =>
          apply hAll c
          exact
            List.mem_cons_of_mem m
              (List.mem_filter.mpr ⟨hMem, hcSupports⟩)
      | false =>
          exact
            frameworkConsumes_trans (hAll m (by simp))
              (frameworkConsumes_of_supportsPlatform_eq_false
                hSupports hcCore hcSupports)
  exact frameworkConsumes_trans hUses hgc

------------------------------------------------------------
-- What follows if they agree
------------------------------------------------------------

/-
  Frameworks sorted into the ones with a platform, the other
  .NET Core ones, and the .NET Standard ones.
-/
structure Parts (ps cs ss : List Moniker) : Prop where
  platform : ∀ y ∈ ps, y.platform.isSome = true
  core : ∀ y ∈ cs, y.isNetCore = true
  plain : ∀ y ∈ cs, y.platform = none
  standard : ∀ y ∈ ss, y.isNetStandard = true

theorem exists_parts
    (hDs : ∀ d ∈ ds, isModern d = true) :
    ∃ ps cs ss : List Moniker,
      Parts ps cs ss ∧ (ps ++ (cs ++ ss)).Perm ds := by
  have hOuter :=
    List.filter_append_perm (fun d => d.platform.isSome) ds
  have hInner :=
    List.filter_append_perm isNetCore
      (ds.filter fun d => !d.platform.isSome)
  refine ⟨_, _, _, ?_, (hInner.append_left _).trans hOuter⟩
  refine ⟨?_, ?_, ?_, ?_⟩
  · intro y hy
    exact (List.mem_filter.mp hy).2
  · intro y hy
    exact (List.mem_filter.mp hy).2
  · intro y hy
    rcases List.mem_filter.mp hy with ⟨hy, _⟩
    simpa using (List.mem_filter.mp hy).2
  · intro y hy
    rcases List.mem_filter.mp hy with ⟨hy, hNotCore⟩
    have hModern := hDs y (List.mem_filter.mp hy).1
    rw [isModern, Bool.or_eq_true] at hModern
    rcases hModern with hCore | hStandard
    · rw [hCore] at hNotCore
      cases hNotCore
    · exact hStandard

/- Without platforms, one can use all if two orders agree. -/
theorem exists_greatest_of_same
    (h : Raisable m (cs ++ ss))
    (hModern : isModern m = true)
    (hNone : m.platform = none)
    (hParts : Parts [] cs ss)
    (hSame :
      ((ss ++ cs).foldl raise m).same
        ((cs ++ ss).foldl raise m) = true) :
    ∃ g ∈ m :: (cs ++ ss),
      ∀ d ∈ cs ++ ss, g.frameworkConsumes d = true := by
  rcases foldl_raise_standard_or h hModern hNone hParts.plain
      hParts.core hParts.standard with
    hEnd | ⟨g, hg, _, hAll⟩
  · have hSwap : Raisable m (ss ++ cs) :=
      h.perm List.perm_append_comm
    have hMiddle : (ss.foldl raise m).platform = none := by
      apply foldl_raise_platform_eq_none hSwap.left hNone
      intro y hy
      have hyProper := h.proper y (List.mem_append_right cs hy)
      exact hyProper.platform_eq_none (hParts.standard y hy)
    have hUses :=
      foldl_raise_frameworkConsumes_of_comparable hSwap.right
        hMiddle (Comparable.of_netCore hParts.core)
    rw [← List.foldl_append] at hUses
    have hStandard :
        ((ss ++ cs).foldl raise m).isNetStandard = true := by
      have hFamily :=
        (frameworkConsumes_and_iff.mp (same_iff.mp hSame).1).1
      rw [isNetStandard_iff] at hEnd ⊢
      exact hFamily.trans hEnd
    have hAllStandard :
        ∀ y ∈ cs ++ ss, y.isNetStandard = true := by
      intro y hy
      rcases List.mem_append.mp hy with hc | hs
      · exact
          isNetStandard_of_frameworkConsumes (hUses y hc)
            hStandard
      · exact hParts.standard y hs
    by_cases hNil : cs ++ ss = []
    · refine ⟨m, by simp, ?_⟩
      simp [hNil]
    · have hComparable := Comparable.of_netStandard hAllStandard
      rcases hComparable.exists_greatest hNil with ⟨g, hg, hAll⟩
      exact ⟨g, List.mem_cons_of_mem m hg, hAll⟩
  · refine ⟨g, ?_, hAll⟩
    rcases List.mem_cons.mp hg with rfl | hMem
    · simp
    · simp [hMem]

/- With the platforms first, every .NET Core can be used. -/
theorem foldl_raise_frameworkConsumes_of_platform_first
    (hm : m.Proper)
    (h : Raisable m (ps ++ l))
    (hNone : m.platform = none)
    (hPlatform : ∀ y ∈ ps, y.platform.isSome = true)
    (hp : p ∈ ps)
    (hc : c ∈ m :: (ps ++ l))
    (hcCore : c.isNetCore = true) :
    ((ps ++ l).foldl raise m).frameworkConsumes c = true := by
  have hPsProper : ∀ y ∈ ps, y.Proper := h.left.proper
  have hFirst : (ps.foldl raise m).Proper :=
    foldl_raise_proper hm hPsProper
  have hFirstPlatform :
      (ps.foldl raise m).platform.isSome = true :=
    platform_isSome_of_platformConsumes
      (foldl_raise_platformConsumes h.left hp) (hPlatform p hp)
  rw [List.foldl_append]
  rw [← List.cons_append] at hc
  rcases List.mem_append.mp hc with hStart | hMem
  · have hKept :
        (ps.foldl raise m).frameworkConsumes c = true := by
      apply foldl_raise_frameworkConsumes_of_core h.left hNone
        _ hStart hcCore
      intro y hy
      exact (hPsProper y hy).isNetCore (hPlatform y hy)
    have hUses :=
      foldl_raise_frameworkConsumes_of_platform hFirst h.right
        hFirstPlatform List.mem_cons_self
        (hFirst.isNetCore hFirstPlatform)
    exact frameworkConsumes_trans hUses hKept
  · exact
      foldl_raise_frameworkConsumes_of_platform hFirst h.right
        hFirstPlatform (List.mem_cons_of_mem _ hMem) hcCore

/-
  With the platforms last, raising ends at one of them,
  unless a .NET Core could use all of the others.
-/
theorem foldl_raise_platform_last_or
    (h : Raisable m ((cs ++ ss) ++ ps))
    (hModern : isModern m = true)
    (hNone : m.platform = none)
    (hParts : Parts ps cs ss)
    (hp : p ∈ ps)
    (hGreatest : ∀ y ∈ ps, p.frameworkConsumes y = true) :
    p.frameworkConsumes (((cs ++ ss) ++ ps).foldl raise m) =
        true ∨
      ∃ g ∈ m :: cs, g.isNetCore = true ∧
        ∀ d ∈ cs ++ ss, g.frameworkConsumes d = true := by
  rcases foldl_raise_standard_or h.left hModern hNone
      hParts.plain hParts.core hParts.standard with
    hStandard | hCore
  · left
    have hMiddle : ((cs ++ ss).foldl raise m).platform = none :=
      foldl_raise_platform_eq_none h.left hNone (by
        intro y hy
        rcases List.mem_append.mp hy with hc | hs
        · exact hParts.plain y hc
        · exact
            (h.left.proper y hy).platform_eq_none
              (hParts.standard y hs))
    have hUses :=
      foldl_raise_frameworkConsumes h.right hp
        (fun y hy => Or.inl (hGreatest y hy)) (by
          rw [hMiddle]
          simp)
    rw [List.foldl_append]
    rcases (reached_foldl_raise h.right).framework with
      hEnd | ⟨q, hq, hEnd, _⟩
    · rw [frameworkConsumes_congr hEnd rfl] at hUses
      have hpStandard :=
        isNetStandard_of_frameworkConsumes hUses hStandard
      have hpProper : p.Proper :=
        h.proper p (List.mem_append_right (cs ++ ss) hp)
      have hpPlatform := hParts.platform p hp
      rw [hpProper.platform_eq_none hpStandard]
        at hpPlatform
      cases hpPlatform
    · rw [frameworkConsumes_congr rfl hEnd]
      exact hGreatest q hq
  · exact Or.inr hCore

/- With platforms, the order is free if two orders agree. -/
theorem orderFree_of_same_of_platform
    (hm : m.Proper)
    (h : Raisable m (ps ++ (cs ++ ss)))
    (hModern : isModern m = true)
    (hNone : m.platform = none)
    (hParts : Parts ps cs ss)
    (hNe : ps ≠ [])
    (hSame :
      (((cs ++ ss) ++ ps).foldl raise m).same
        ((ps ++ (cs ++ ss)).foldl raise m) = true) :
    OrderFree m (ps ++ (cs ++ ss)) := by
  have hCore : ∀ y ∈ ps, y.isNetCore = true := by
    intro y hy
    exact (h.left.proper y hy).isNetCore (hParts.platform y hy)
  have hComparable := Comparable.of_netCore hCore
  rcases hComparable.exists_greatest hNe with ⟨p, hp, hAll⟩
  have hpMem : p ∈ m :: (ps ++ (cs ++ ss)) := by simp [hp]
  right
  rcases foldl_raise_platform_last_or
      (h.perm List.perm_append_comm) hModern hNone hParts hp
      hAll with
    hLast | ⟨g, hg, hgCore, hgAll⟩
  · refine ⟨p, hpMem, Or.inr ⟨hParts.platform p hp, ?_⟩⟩
    intro c hc hcCore
    have hFirst :=
      foldl_raise_frameworkConsumes_of_platform_first hm h hNone
        hParts.platform hp hc hcCore
    exact
      frameworkConsumes_trans hLast
        (frameworkConsumes_trans (same_iff.mp hSame).1.1 hFirst)
  · rcases frameworkConsumes_total_of_netCore hgCore
        (hCore p hp) with
      hgp | hpg
    · refine ⟨g, ?_, Or.inl ?_⟩
      · rcases List.mem_cons.mp hg with rfl | hMem
        · simp
        · simp [hMem]
      · intro d hd
        rcases List.mem_append.mp hd with hdp | hdl
        · exact frameworkConsumes_trans hgp (hAll d hdp)
        · exact hgAll d hdl
    · refine ⟨p, hpMem, Or.inl ?_⟩
      intro d hd
      rcases List.mem_append.mp hd with hdp | hdl
      · exact hAll d hdp
      · exact frameworkConsumes_trans hpg (hgAll d hdl)

/- If all orders agree, the order is free. -/
theorem orderFree_of_foldl_raise_same
    (hm : m.Proper)
    (h : Raisable m ds)
    (hModern : isModern m = true)
    (hDs : ∀ d ∈ ds, isModern d = true)
    (hSame :
      ∀ order : List Moniker, order.Perm ds →
        (order.foldl raise m).same (ds.foldl raise m) = true) :
    OrderFree m ds := by
  by_cases hPlatform : m.platform.isSome = true
  · exact Or.inl hPlatform
  · have hNone : m.platform = none := by simpa using hPlatform
    rcases exists_parts hDs with ⟨ps, cs, ss, hParts, hPerm⟩
    have hSorted := h.perm hPerm
    have hAgree :
        ∀ order : List Moniker,
          order.Perm (ps ++ (cs ++ ss)) →
            (order.foldl raise m).same
              ((ps ++ (cs ++ ss)).foldl raise m) = true := by
      intro order hOrder
      exact
        same_trans (hSame order (hOrder.trans hPerm))
          (same_symm (hSame _ hPerm))
    apply OrderFree.perm hPerm
    by_cases hNil : ps = []
    · rw [hNil, List.nil_append] at hSorted hAgree ⊢
      rw [hNil] at hParts
      rcases exists_greatest_of_same hSorted hModern hNone hParts
          (hAgree (ss ++ cs) List.perm_append_comm) with
        ⟨g, hg, hAll⟩
      exact Or.inr ⟨g, hg, Or.inl hAll⟩
    · exact
        orderFree_of_same_of_platform hm hSorted hModern hNone
          hParts hNil (hAgree _ List.perm_append_comm)

/-
  All orders lead to the same framework exactly if the order
  is free.
-/
theorem foldl_raise_same_iff
    (hm : m.Proper)
    (h : Raisable m ds)
    (hModern : isModern m = true)
    (hDs : ∀ d ∈ ds, isModern d = true) :
    (∀ order : List Moniker, order.Perm ds →
        (order.foldl raise m).same (ds.foldl raise m) = true) ↔
      OrderFree m ds := by
  constructor
  · exact orderFree_of_foldl_raise_same hm h hModern hDs
  · intro hFree order hPerm
    exact foldl_raise_same_of_orderFree hm h hFree hPerm

theorem keepHighest_same
    {frameworks : List Moniker}
    {m' : Moniker}
    (hProper : ∀ f ∈ frameworks, f.Proper)
    (h : m.same m' = true) :
    (keepHighest frameworks m).same
      (keepHighest frameworks m') = true := by
  unfold keepHighest
  cases hSome : highestModern? frameworks with
  | none => exact h
  | some f =>
      have hMem := highestModern?_mem hSome
      exact
        raise_same (hProper f (List.mem_filter.mp hMem).1) h

end SelectionFilter

------------------------------------------------------------
-- The whole selection
------------------------------------------------------------

namespace SelectionInput

open SelectionFilter

/- Any order of what counts is the order of some references. -/
theorem exists_perm_filter_eq
    {dependencies order : List Moniker}
    (hPerm : order.Perm (dependencies.filter isModern)) :
    ∃ all : List Moniker,
      all.Perm dependencies ∧ all.filter isModern = order := by
  refine ⟨order ++ dependencies.filter (!isModern ·), ?_, ?_⟩
  · exact
      (hPerm.append_right _).trans
        (List.filter_append_perm isModern dependencies)
  · have hKeep : order.filter isModern = order := by
      rw [List.filter_eq_self]
      intro d hd
      exact (List.mem_filter.mp (hPerm.mem_iff.mp hd)).2
    rw [List.filter_append, hKeep, List.filter_filter]
    simp

/-
  The references can be taken in any order exactly if the
  order is free for those that count.
-/
theorem select_same_of_perm_iff
    {settings : Settings}
    {input : SelectionInput}
    (hOptions :
      SelectionOptions.ofSettings settings = .ok input.options)
    (hFrameworks : ∀ f ∈ input.frameworks, f.IsRead)
    (hRead : ∀ d ∈ input.dependencies, d.IsRead)
    (hAgree : AgreeAll (input.tentative :: input.dependencies)) :
    (∀ order : List Moniker, order.Perm input.dependencies →
        (SelectionFilter.dependencies.apply
            (input.referringTo order) input.tentative).same
          (SelectionFilter.dependencies.apply input
            input.tentative) = true ∧
        (input.referringTo order).select.same input.select =
          true) ↔
      OrderFree input.tentative
        (input.dependencies.filter isModern) := by
  have hProper := proper_of_isRead hFrameworks
  have hm : input.tentative.Proper :=
    tentative_proper hOptions hProper
  have hRaisable :
      Raisable input.tentative
        (input.dependencies.filter isModern) := by
    apply raisable_of_isRead hRead
    apply hAgree.subset
    intro d hd
    rcases List.mem_cons.mp hd with rfl | hd
    · simp
    · exact
        List.mem_cons_of_mem _ (List.mem_filter.mp hd).1
  rw [← foldl_raise_same_iff hm hRaisable
    (tentative_isModern hOptions)
    (fun d hd => (List.mem_filter.mp hd).2)]
  constructor
  · intro hSame order hPerm
    rcases exists_perm_filter_eq hPerm with ⟨all, hAll, rfl⟩
    exact (hSame all hAll).1
  · intro hSame order hPerm
    have hRaised := hSame _ (hPerm.filter isModern)
    exact ⟨hRaised, keepHighest_same hProper hRaised⟩

theorem select_same_of_perm_of_windows :
    let net48 : Moniker :=
      .ofFamily .netFramework ⟨4, 8, 0, 0, 2⟩
    let net60Windows : Moniker :=
      ⟨.netCoreApp, .ofPair 6 0, some "windows", none⟩
    let input : SelectionInput :=
      ⟨[net48], .library, .empty,
        [netStandard21, net60Windows, netStandard20, net48],
        .standard⟩
    SelectionOptions.ofSettings .standard = .ok input.options ∧
      (∀ f ∈ input.frameworks, f.IsRead) ∧
      (∀ d ∈ input.dependencies, d.IsRead) ∧
      AgreeAll (input.tentative :: input.dependencies) ∧
      OrderFree input.tentative
        (input.dependencies.filter isModern) ∧
      ∀ order : List Moniker, order.Perm input.dependencies →
        (SelectionFilter.dependencies.apply
            (input.referringTo order) input.tentative).same
          (SelectionFilter.dependencies.apply input
            input.tentative) = true ∧
        (input.referringTo order).select.same input.select =
          true := by
  intro net48 net60Windows input
  have hNet48 : net48.IsRead :=
    ⟨"net48", Or.inl (by decide)⟩
  have hFrameworks : ∀ f ∈ input.frameworks, f.IsRead := by
    intro f hf
    rw [List.mem_singleton.mp hf]
    exact hNet48
  have hRead : ∀ d ∈ input.dependencies, d.IsRead := by
    intro d hd
    simp only [input, List.mem_cons, List.not_mem_nil,
      or_false] at hd
    rcases hd with rfl | rfl | rfl | rfl
    · exact ⟨"netstandard2.1", Or.inl (by decide)⟩
    · exact ⟨"net6.0-windows", Or.inl (by decide)⟩
    · exact ⟨"netstandard2.0", Or.inl (by decide)⟩
    · exact hNet48
  have hAgree :
      AgreeAll (input.tentative :: input.dependencies) := by
    decide
  have hFree :
      OrderFree input.tentative
        (input.dependencies.filter isModern) := by
    decide
  have hOptions := SelectionOptions.ofSettings_standard
  exact
    ⟨hOptions, hFrameworks, hRead, hAgree, hFree,
      (select_same_of_perm_iff hOptions hFrameworks hRead
        hAgree).mpr hFree⟩

/-
  Of .NET Core 2.1 and .NET Standard 2.1, the one that is
  referred to last is selected.
-/
theorem select_reverse_coreAndStandard :
    let net472 : Moniker :=
      .ofFamily .netFramework ⟨4, 7, 2, 0, 3⟩
    let input : SelectionInput :=
      ⟨[net472], .library, .empty, coreAndStandard, .standard⟩
    SelectionOptions.ofSettings .standard = .ok input.options ∧
      (∀ f ∈ input.frameworks, f.IsRead) ∧
      (∀ d ∈ input.dependencies, d.IsRead) ∧
      AgreeAll (input.tentative :: input.dependencies) ∧
      coreAndStandard.reverse.Perm input.dependencies ∧
      (SelectionFilter.dependencies.apply
          (input.referringTo coreAndStandard.reverse)
          input.tentative).same
        (SelectionFilter.dependencies.apply input
          input.tentative) = false ∧
      (input.referringTo coreAndStandard.reverse).select.same
        input.select = false := by
  intro net472 input
  refine
    ⟨SelectionOptions.ofSettings_standard, ?_,
      fun d hd => isRead_of_mem_coreAndStandard hd, by decide,
      List.reverse_perm _, by decide, by decide⟩
  intro f hf
  rw [List.mem_singleton.mp hf]
  exact ⟨"net472", Or.inl (by decide)⟩

end SelectionInput

end Retarget
