import Retarget.Selection.Filter
import Retarget.Proofs.Framework.Merge

/-
  This file describes how a framework is raised for others:
  what one step does to the framework and to its platform,
  and what is left of that after a whole list.

  Key definitions include:
    * `SelectionFilter.Raisable`
    * `SelectionFilter.Reached`

  Key statements include:
    * `SelectionFilter.raise_withoutPlatform`
    * `SelectionFilter.raise_frameworkConsumes_right`
    * `SelectionFilter.reached_foldl_raise`
    * `SelectionFilter.foldl_raise_frameworkConsumes`
    * `SelectionFilter.foldl_raise_platformConsumes`
-/

namespace Retarget.SelectionFilter

open Moniker

variable {m d g u y : Moniker}
variable {ds es : List Moniker}

------------------------------------------------------------
-- One step
------------------------------------------------------------

theorem raise_of_consumes
    (h : m.consumes d = true) :
    raise m d = m := by
  unfold raise
  rw [isAtLeast_eq_consumes, if_pos h]

theorem raise_of_agrees
    (h : m.consumes d = false)
    (hAgrees : m.Agrees d) :
    raise m d = m.join d := by
  unfold raise
  rw [isAtLeast_eq_consumes, if_neg (by simp [h]),
    merge_of_agrees hAgrees]

theorem raise_of_not_agrees
    (h : m.consumes d = false)
    (hAgrees : ¬ m.Agrees d) :
    raise m d = d := by
  unfold raise
  rw [isAtLeast_eq_consumes, if_neg (by simp [h]),
    merge_of_not_agrees hAgrees]

/- A step stays, merges, or goes over to the other side. -/
theorem raise_cases
    (m d : Moniker) :
    (m.consumes d = true ∧ raise m d = m) ∨
      (m.consumes d = false ∧ m.Agrees d ∧
        raise m d = m.join d) ∨
      (m.consumes d = false ∧ ¬ m.Agrees d ∧
        raise m d = d) := by
  cases hConsumes : m.consumes d with
  | true =>
      exact Or.inl ⟨rfl, raise_of_consumes hConsumes⟩
  | false =>
      by_cases hAgrees : m.Agrees d
      · exact
          Or.inr (Or.inl
            ⟨rfl, hAgrees, raise_of_agrees hConsumes hAgrees⟩)
      · exact
          Or.inr (Or.inr
            ⟨rfl, hAgrees,
              raise_of_not_agrees hConsumes hAgrees⟩)

theorem raise_proper
    (hm : m.Proper)
    (hd : d.Proper) :
    (raise m d).Proper := by
  rcases raise_cases m d with
    ⟨_, hRaise⟩ | ⟨_, _, hRaise⟩ | ⟨_, _, hRaise⟩ <;>
      rw [hRaise]
  · exact hm
  · exact join_proper hm hd
  · exact hd

/-
  Apart from platforms, a step goes over to the other side
  unless the framework can use it, or has a platform that
  the other side cannot carry.
-/
theorem raise_withoutPlatform
    (hd : d.Proper)
    (hAgrees : m.Agrees d) :
    (raise m d).withoutPlatform =
      if m.frameworkConsumes d = true ∨
          (m.platform.isSome = true ∧
            d.supportsPlatform = false) then
        m.withoutPlatform
      else d.withoutPlatform := by
  rcases raise_cases m d with
    ⟨hConsumes, hRaise⟩ | ⟨_, _, hRaise⟩ | ⟨_, hNot, _⟩
  · rw [hRaise,
      if_pos (Or.inl (frameworkConsumes_of_consumes hConsumes))]
  · rw [hRaise, join_withoutPlatform hd.supports]
  · exact absurd hAgrees hNot

/-
  A step leads above the other side, if that carries the
  platform or can be used as it is.
-/
theorem raise_frameworkConsumes_right
    (hd : d.Proper)
    (hAgrees : m.Agrees d)
    (hCarries :
      m.platform.isSome = true → d.supportsPlatform = false →
        m.frameworkConsumes d = true) :
    (raise m d).frameworkConsumes d = true := by
  have hStep := raise_withoutPlatform hd hAgrees
  split at hStep
  · next hLeft =>
      rw [frameworkConsumes_congr hStep rfl]
      rcases hLeft with hUses | ⟨hPlatform, hNot⟩
      · exact hUses
      · exact hCarries hPlatform hNot
  · rw [frameworkConsumes_congr hStep rfl]
    exact frameworkConsumes_refl d

theorem raise_withoutPlatform_cases
    (m : Moniker)
    (hd : d.Proper) :
    (raise m d).withoutPlatform = m.withoutPlatform ∨
      (raise m d).withoutPlatform = d.withoutPlatform := by
  by_cases hAgrees : m.Agrees d
  · rw [raise_withoutPlatform hd hAgrees]
    split
    · exact Or.inl rfl
    · exact Or.inr rfl
  · rcases raise_cases m d with
      ⟨_, hRaise⟩ | ⟨_, hIs, _⟩ | ⟨_, _, hRaise⟩
    · exact Or.inl (by rw [hRaise])
    · exact absurd hIs hAgrees
    · exact Or.inr (by rw [hRaise])

theorem raise_isModern
    (hd : d.Proper)
    (hmModern : isModern m = true)
    (hdModern : isModern d = true) :
    isModern (raise m d) = true := by
  unfold isModern at *
  rw [← withoutPlatform_isNetCore,
    ← withoutPlatform_isNetStandard]
  rcases raise_withoutPlatform_cases m hd with h | h
  · rw [h]
    exact hmModern
  · rw [h]
    exact hdModern

theorem raise_isNetStandard
    (hd : d.Proper)
    (hmStandard : m.isNetStandard = true)
    (hdStandard : d.isNetStandard = true) :
    (raise m d).isNetStandard = true := by
  rw [← withoutPlatform_isNetStandard]
  rcases raise_withoutPlatform_cases m hd with h | h
  · rw [h]
    exact hmStandard
  · rw [h]
    exact hdStandard

/- A step keeps the platform that there is. -/
theorem raise_platform_isSome
    (hAgrees : m.Agrees d) :
    (raise m d).platform.isSome = true ↔
      m.platform.isSome = true ∨
        (m.consumes d = false ∧ d.platform.isSome = true) := by
  rcases raise_cases m d with
    ⟨hConsumes, hRaise⟩ | ⟨hConsumes, _, hRaise⟩ | ⟨_, hNot, _⟩
  · simp [hRaise, hConsumes]
  · simp [hRaise, hConsumes, join_platform]
  · exact absurd hAgrees hNot

/- A platform is never given up without another one. -/
theorem raise_platform_isSome_of_left
    (d : Moniker)
    (h : m.platform.isSome = true) :
    (raise m d).platform.isSome = true := by
  by_cases hAgrees : m.Agrees d
  · exact (raise_platform_isSome hAgrees).mpr (Or.inl h)
  · rcases not_agrees_iff.mp hAgrees with ⟨p, q, _, hq, _⟩
    rcases raise_cases m d with
      ⟨_, hRaise⟩ | ⟨_, hIs, _⟩ | ⟨_, _, hRaise⟩
    · rw [hRaise]
      exact h
    · exact absurd hIs hAgrees
    · simp [hRaise, hq]

theorem raise_platform_isSome_of_right
    (hd : d.Proper)
    (h : d.platform.isSome = true) :
    (raise m d).platform.isSome = true := by
  rcases raise_cases m d with
    ⟨hUses, hRaise⟩ | ⟨hNot, hAgrees, _⟩ | ⟨_, _, hRaise⟩
  · rw [consumes_iff hd.isNetCore] at hUses
    rw [hRaise]
    exact platform_isSome_of_platformConsumes hUses.2 h
  · exact (raise_platform_isSome hAgrees).mpr (Or.inr ⟨hNot, h⟩)
  · rw [hRaise]
    exact h

/- Another platform is a reason to go over to it. -/
theorem raise_eq_of_not_agrees
    (hd : d.Proper)
    (hAgrees : ¬ m.Agrees d) :
    raise m d = d := by
  rcases not_agrees_iff.mp hAgrees with ⟨p, q, hp, hq, hNe⟩
  have hNot : m.consumes d = false := by
    cases hUses : m.consumes d with
    | false => rfl
    | true =>
        rw [consumes_iff hd.isNetCore,
          platformConsumes_iff_of_platform_eq_some hq, hp]
          at hUses
        exact absurd (Option.some.inj hUses.2.1) hNe
  exact raise_of_not_agrees hNot hAgrees

theorem raise_agrees
    (hy : y.Proper)
    (hAgrees : m.Agrees d)
    (hm : m.Agrees y)
    (hd : d.Agrees y) :
    (raise m d).Agrees y := by
  rcases raise_cases m d with
    ⟨_, hRaise⟩ | ⟨_, _, hRaise⟩ | ⟨_, hNot, _⟩
  · rw [hRaise]
    exact hm
  · rw [hRaise]
    intro p hp q hq
    rw [Option.mem_def, join_platform, Option.map_eq_some_iff] at hp
    rcases hp with ⟨r, hr, rfl⟩
    have hEq : r = q := by
      rw [Option.or_eq_some_iff] at hr
      rcases hr with hmp | ⟨_, hdp⟩
      · exact hm r hmp q hq
      · exact hd r hdp q hq
    rw [hEq, hy.lowered q hq]
  · exact absurd hAgrees hNot

theorem raise_platformConsumes_of_left
    (hy : y.Proper)
    (hAgrees : m.Agrees d)
    (h : m.platformConsumes y = true) :
    (raise m d).platformConsumes y = true := by
  rcases raise_cases m d with
    ⟨_, hRaise⟩ | ⟨_, _, hRaise⟩ | ⟨_, hNot, _⟩
  · rw [hRaise]
    exact h
  · rw [hRaise]
    exact platformConsumes_join_left hy.lowered h
  · exact absurd hAgrees hNot

theorem raise_platformConsumes_right
    (hd : d.Proper)
    (hAgrees : m.Agrees d) :
    (raise m d).platformConsumes d = true := by
  rcases raise_cases m d with
    ⟨hConsumes, hRaise⟩ | ⟨_, _, hRaise⟩ | ⟨_, hNot, _⟩
  · rw [hRaise]
    exact ((consumes_iff hd.isNetCore).mp hConsumes).2
  · rw [hRaise]
    exact platformConsumes_join_right hAgrees hd.lowered
  · exact absurd hAgrees hNot

theorem platformConsumes_raise
    (hm : m.Proper)
    (hd : d.Proper)
    (hAgrees : m.Agrees d)
    (hum : u.platformConsumes m = true)
    (hud : u.platformConsumes d = true) :
    u.platformConsumes (raise m d) = true := by
  rcases raise_cases m d with
    ⟨_, hRaise⟩ | ⟨_, _, hRaise⟩ | ⟨_, hNot, _⟩
  · rw [hRaise]
    exact hum
  · rw [hRaise]
    exact platformConsumes_join hm hd hum hud
  · exact absurd hAgrees hNot

------------------------------------------------------------
-- A whole list
------------------------------------------------------------

theorem foldl_raise_proper
    (hm : m.Proper)
    (hProper : ∀ y ∈ ds, y.Proper) :
    (ds.foldl raise m).Proper := by
  apply List.foldlRecOn ds raise hm
  intro x hx d hd
  exact raise_proper hx (hProper d hd)

theorem foldl_raise_isModern
    (hm : isModern m = true)
    (hProper : ∀ y ∈ ds, y.Proper)
    (hModern : ∀ y ∈ ds, isModern y = true) :
    isModern (ds.foldl raise m) = true := by
  apply List.foldlRecOn (motive := fun x => isModern x = true)
    ds raise hm
  intro x hx d hd
  exact raise_isModern (hProper d hd) hx (hModern d hd)

theorem foldl_raise_isNetStandard
    (hm : m.isNetStandard = true)
    (hProper : ∀ y ∈ ds, y.Proper)
    (hStandard : ∀ y ∈ ds, y.isNetStandard = true) :
    (ds.foldl raise m).isNetStandard = true := by
  apply List.foldlRecOn
    (motive := fun x => x.isNetStandard = true) ds raise hm
  intro x hx d hd
  exact raise_isNetStandard (hProper d hd) hx (hStandard d hd)

theorem foldl_raise_of_forall_consumes
    (hAll : ∀ d ∈ ds, m.consumes d = true) :
    ds.foldl raise m = m := by
  induction ds with
  | nil => rfl
  | cons d ds ih =>
      rw [List.foldl_cons,
        raise_of_consumes (hAll d (by simp))]
      apply ih
      intro y hy
      exact hAll y (by simp [hy])

/-
  Some frameworks can be met without giving up a platform:
  no two of them, or of them and the start, name different
  ones.
-/
structure Raisable (m : Moniker) (ds : List Moniker) : Prop where
  proper : ∀ y ∈ ds, y.Proper
  agree : AgreeAll (m :: ds)

theorem Raisable.head
    (h : Raisable m (d :: ds)) :
    d.Proper ∧ m.Agrees d :=
  ⟨h.proper d (by simp), h.agree m (by simp) d (by simp)⟩

/- What is left can be met after a step. -/
theorem Raisable.tail
    (h : Raisable m (d :: ds)) :
    Raisable (raise m d) ds := by
  have hProper : ∀ y ∈ ds, y.Proper := by
    intro y hy
    exact h.proper y (by simp [hy])
  have hRaise : ∀ y ∈ ds, (raise m d).Agrees y := by
    intro y hy
    apply raise_agrees (hProper y hy)
    · exact h.agree m (by simp) d (by simp)
    · exact h.agree m (by simp) y (by simp [hy])
    · exact h.agree d (by simp) y (by simp [hy])
  refine ⟨hProper, ?_⟩
  intro x hx z hz
  rcases List.mem_cons.mp hx with rfl | hx
  · rcases List.mem_cons.mp hz with rfl | hz
    · exact Agrees.refl _
    · exact hRaise z hz
  · rcases List.mem_cons.mp hz with rfl | hz
    · exact (hRaise x hx).symm
    · exact h.agree x (by simp [hx]) z (by simp [hz])

theorem Raisable.left
    (h : Raisable m (ds ++ es)) :
    Raisable m ds where
  proper := by
    intro y hy
    exact h.proper y (List.mem_append_left es hy)
  agree := by
    apply h.agree.subset
    intro y hy
    exact List.mem_append_left es hy

/- What is left can be met after the first part of a list. -/
theorem Raisable.right
    (h : Raisable m (ds ++ es)) :
    Raisable (ds.foldl raise m) es := by
  induction ds generalizing m with
  | nil => exact h
  | cons d ds ih => exact ih h.tail

theorem Raisable.perm
    (h : Raisable m ds)
    (hPerm : es.Perm ds) :
    Raisable m es where
  proper := by
    intro y hy
    exact h.proper y (hPerm.mem_iff.mp hy)
  agree := by
    apply h.agree.subset
    intro y hy
    exact (hPerm.cons m).mem_iff.mp hy

/- What every step keeps, raising for a whole list keeps. -/
theorem foldl_raise_induction
    (P : Moniker → Prop)
    (h : Raisable m ds)
    (hm : P m)
    (hStep :
      ∀ x d : Moniker,
        d ∈ ds → d.Proper → x.Agrees d → P x → P (raise x d)) :
    P (ds.foldl raise m) := by
  induction ds generalizing m with
  | nil => exact hm
  | cons d ds ih =>
      rcases h.head with ⟨hd, hAgrees⟩
      rw [List.foldl_cons]
      apply ih h.tail (hStep m d (by simp) hd hAgrees hm)
      intro x e he
      exact hStep x e (by simp [he])

/-
  Where raising can end: at the start or at one of the
  others, which then carries the platform of the start.
-/
structure Reached (m : Moniker) (ds : List Moniker)
    (x : Moniker) : Prop where
  platform :
    m.platform.isSome = true → x.platform.isSome = true
  framework :
    x.withoutPlatform = m.withoutPlatform ∨
      ∃ d ∈ ds,
        x.withoutPlatform = d.withoutPlatform ∧
          (m.platform.isSome = true → d.supportsPlatform = true)

theorem reached_foldl_raise
    (h : Raisable m ds) :
    Reached m ds (ds.foldl raise m) := by
  apply foldl_raise_induction (Reached m ds) h
  · exact ⟨id, Or.inl rfl⟩
  · intro x d hMem hd hAgrees hx
    constructor
    · intro hPlatform
      exact raise_platform_isSome_of_left d (hx.platform hPlatform)
    · rw [raise_withoutPlatform hd hAgrees]
      split
      · exact hx.framework
      · next hRight =>
          push Not at hRight
          refine Or.inr ⟨d, hMem, rfl, ?_⟩
          intro hPlatform
          simpa using hRight.2 (hx.platform hPlatform)

theorem foldl_raise_platform_eq_none
    (h : Raisable m ds)
    (hNone : m.platform = none)
    (hAll : ∀ y ∈ ds, y.platform = none) :
    (ds.foldl raise m).platform = none := by
  apply foldl_raise_induction (fun x => x.platform = none) h hNone
  intro x d hMem _ hAgrees hx
  have hStep := raise_platform_isSome hAgrees
  simpa [hx, hAll d hMem] using hStep

/-
  Apart from platforms, raising for frameworks that can be
  used already, or that cannot carry the platform, changes
  nothing.
-/
theorem foldl_raise_withoutPlatform_of_forall
    (h : Raisable m ds)
    (hAll :
      ∀ y ∈ ds,
        m.frameworkConsumes y = true ∨
          (m.platform.isSome = true ∧
            y.supportsPlatform = false)) :
    (ds.foldl raise m).withoutPlatform = m.withoutPlatform := by
  have hRun :=
    foldl_raise_induction
      (fun x =>
        (m.platform.isSome = true → x.platform.isSome = true) ∧
          x.withoutPlatform = m.withoutPlatform)
      h ⟨id, rfl⟩ (by
        intro x d hMem hd hAgrees hx
        constructor
        · intro hPlatform
          exact raise_platform_isSome_of_left d (hx.1 hPlatform)
        · rw [raise_withoutPlatform hd hAgrees, if_pos]
          · exact hx.2
          · rcases hAll d hMem with hUses | hCarried
            · left
              rw [frameworkConsumes_congr hx.2 rfl]
              exact hUses
            · exact Or.inr ⟨hx.1 hCarried.1, hCarried.2⟩)
  exact hRun.2

/- What is greatest for the rest is not lost once it is reached. -/
theorem foldl_raise_raise_frameworkConsumes
    (h : Raisable m (g :: ds))
    (hGreatest :
      ∀ y ∈ ds,
        g.frameworkConsumes y = true ∨
          ((m.platform.isSome = true ∨
              g.platform.isSome = true) ∧
            y.supportsPlatform = false))
    (hCarries :
      m.platform.isSome = true → g.supportsPlatform = true) :
    (ds.foldl raise (raise m g)).frameworkConsumes g = true := by
  rcases h.head with ⟨hg, hAgrees⟩
  have hUses : (raise m g).frameworkConsumes g = true := by
    apply raise_frameworkConsumes_right hg hAgrees
    intro hPlatform hNot
    rw [hCarries hPlatform] at hNot
    cases hNot
  have hPlatform :
      m.platform.isSome = true ∨ g.platform.isSome = true →
        (raise m g).platform.isSome = true := by
    rintro (hmp | hgp)
    · exact raise_platform_isSome_of_left g hmp
    · exact raise_platform_isSome_of_right hg hgp
  have hEnd :=
    foldl_raise_withoutPlatform_of_forall h.tail (by
      intro y hy
      rcases hGreatest y hy with hgy | ⟨hSome, hNot⟩
      · exact Or.inl (frameworkConsumes_trans hUses hgy)
      · exact Or.inr ⟨hPlatform hSome, hNot⟩)
  rw [frameworkConsumes_congr hEnd rfl]
  exact hUses

/-
  Apart from platforms, the result can use each one of the
  others that is greatest: from there on nothing changes it.
  With a platform, only what carries platforms counts.
-/
theorem foldl_raise_frameworkConsumes
    (h : Raisable m ds)
    (hg : g ∈ ds)
    (hGreatest :
      ∀ y ∈ ds,
        g.frameworkConsumes y = true ∨
          ((m.platform.isSome = true ∨
              g.platform.isSome = true) ∧
            y.supportsPlatform = false))
    (hCarries :
      m.platform.isSome = true → g.supportsPlatform = true) :
    (ds.foldl raise m).frameworkConsumes g = true := by
  induction ds generalizing m with
  | nil => cases hg
  | cons d ds ih =>
      rcases h.head with ⟨hd, hAgrees⟩
      rcases List.forall_mem_cons.mp hGreatest with
        ⟨hFirst, hRest⟩
      rw [List.foldl_cons]
      rcases List.mem_cons.mp hg with rfl | hg
      · exact foldl_raise_raise_frameworkConsumes h hRest hCarries
      · apply ih h.tail hg
        · intro y hy
          rcases hRest y hy with hgy | ⟨hSome, hNot⟩
          · exact Or.inl hgy
          · exact
              Or.inr ⟨hSome.imp_left
                (raise_platform_isSome_of_left d), hNot⟩
        · intro hPlatform
          rcases (raise_platform_isSome hAgrees).mp hPlatform with
            hmp | ⟨_, hdp⟩
          · exact hCarries hmp
          · have hSupports := hd.supports hdp
            rcases hFirst with hgd | ⟨_, hNot⟩
            · exact
                supportsPlatform_of_frameworkConsumes hgd
                  hSupports
            · rw [hSupports] at hNot
              cases hNot

/-
  Without a platform to begin with, the result can use all
  of the others if any two of them compare.
-/
theorem foldl_raise_frameworkConsumes_of_comparable
    (h : Raisable m ds)
    (hNone : m.platform = none)
    (hComparable : Comparable ds) :
    ∀ d ∈ ds, (ds.foldl raise m).frameworkConsumes d = true := by
  intro d hd
  rcases hComparable.exists_greatest
      (List.ne_nil_of_mem hd) with
    ⟨g, hg, hAll⟩
  have hUses :=
    foldl_raise_frameworkConsumes h hg
      (fun y hy => Or.inl (hAll y hy)) (by simp [hNone])
  exact frameworkConsumes_trans hUses (hAll d hd)

/- The start can be used in the end if it compares, too. -/
theorem foldl_raise_frameworkConsumes_start
    (h : Raisable m ds)
    (hNone : m.platform = none)
    (hComparable : Comparable (m :: ds)) :
    (ds.foldl raise m).frameworkConsumes m = true := by
  by_cases hAll : ∀ y ∈ ds, m.frameworkConsumes y = true
  · have hEnd :=
      foldl_raise_withoutPlatform_of_forall h
        (fun y hy => Or.inl (hAll y hy))
    rw [frameworkConsumes_congr hEnd rfl]
    exact frameworkConsumes_refl m
  · push Not at hAll
    rcases hAll with ⟨y, hy, hNot⟩
    have hUses :=
      foldl_raise_frameworkConsumes_of_comparable h hNone
        hComparable.tail y hy
    rcases hComparable m (by simp) y (by simp [hy]) with
      hmy | hym
    · exact absurd hmy hNot
    · exact frameworkConsumes_trans hUses hym

theorem foldl_raise_platformConsumes_of_left
    (h : Raisable m ds)
    (hy : y.Proper)
    (hUses : m.platformConsumes y = true) :
    (ds.foldl raise m).platformConsumes y = true := by
  apply foldl_raise_induction
    (fun x => x.platformConsumes y = true) h hUses
  intro x d _ _ hAgrees hx
  exact raise_platformConsumes_of_left hy hAgrees hx

/- Raising never loses a platform, whatever the order. -/
theorem foldl_raise_platformConsumes
    (h : Raisable m ds)
    (hy : y ∈ ds) :
    (ds.foldl raise m).platformConsumes y = true := by
  induction ds generalizing m with
  | nil => cases hy
  | cons d ds ih =>
      rcases h.head with ⟨hd, hAgrees⟩
      rw [List.foldl_cons]
      rcases List.mem_cons.mp hy with rfl | hy
      · exact
          foldl_raise_platformConsumes_of_left h.tail hd
            (raise_platformConsumes_right hd hAgrees)
      · exact ih h.tail hy

/- Raising adds no more of a platform than there is. -/
theorem platformConsumes_foldl_raise
    (h : Raisable m ds)
    (hm : m.Proper)
    (hum : u.platformConsumes m = true)
    (hu : ∀ y ∈ ds, u.platformConsumes y = true) :
    u.platformConsumes (ds.foldl raise m) = true := by
  have hRun :=
    foldl_raise_induction
      (fun x => x.Proper ∧ u.platformConsumes x = true)
      h ⟨hm, hum⟩ (by
        intro x d hMem hd hAgrees hx
        exact
          ⟨raise_proper hx.1 hd,
            platformConsumes_raise hx.1 hd hAgrees hx.2
              (hu d hMem)⟩)
  exact hRun.2

end Retarget.SelectionFilter
