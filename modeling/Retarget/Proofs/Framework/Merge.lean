import Mathlib.Tactic.Push
import Retarget.Proofs.Framework.Proper

/-
  This file describes what merging two frameworks gives: the
  framework of one side, and the platform that is the least
  one above both sides.

  Key definitions include:
    * `Moniker.Agrees`
    * `Moniker.AgreeAll`
    * `Moniker.join`

  Key statements include:
    * `Moniker.merge_of_agrees`
    * `Moniker.join_withoutPlatform`
    * `Moniker.platformConsumes_join`
    * `Moniker.join_join`
-/

namespace Retarget.Moniker

variable {x y z : Moniker}

------------------------------------------------------------
-- Agreeing on a platform
------------------------------------------------------------

/- Two frameworks do not name different platforms. -/
def Agrees (x y : Moniker) : Prop :=
  ∀ p ∈ x.platform, ∀ q ∈ y.platform, p = q

instance (x y : Moniker) : Decidable (x.Agrees y) :=
  inferInstanceAs
    (Decidable (∀ p ∈ x.platform, ∀ q ∈ y.platform, p = q))

/- No two of some frameworks name different platforms. -/
def AgreeAll (ms : List Moniker) : Prop :=
  ∀ x ∈ ms, ∀ y ∈ ms, x.Agrees y

instance (ms : List Moniker) : Decidable (AgreeAll ms) :=
  inferInstanceAs (Decidable (∀ x ∈ ms, ∀ y ∈ ms, x.Agrees y))

theorem Agrees.refl
    (x : Moniker) :
    x.Agrees x := by
  intro p hp q hq
  exact Option.some.inj (hp.symm.trans hq)

theorem Agrees.symm
    (h : x.Agrees y) :
    y.Agrees x := by
  intro p hp q hq
  exact (h q hq p hp).symm

theorem Agrees.of_platform_eq_none_left
    (h : x.platform = none) :
    x.Agrees y := by
  intro p hp
  rw [h] at hp
  cases hp

theorem Agrees.of_platform_eq_none_right
    (h : y.platform = none) :
    x.Agrees y :=
  Agrees.symm (Agrees.of_platform_eq_none_left h)

theorem not_agrees_iff :
    ¬ x.Agrees y ↔
      ∃ p q : String,
        x.platform = some p ∧ y.platform = some q ∧ p ≠ q := by
  unfold Agrees
  push Not
  constructor
  · rintro ⟨p, hp, q, hq, hNe⟩
    exact ⟨p, q, hp, hq, hNe⟩
  · rintro ⟨p, q, hp, hq, hNe⟩
    exact ⟨p, hp, q, hq, hNe⟩

theorem AgreeAll.subset
    {ms ns : List Moniker}
    (h : AgreeAll ms)
    (hSubset : ∀ x ∈ ns, x ∈ ms) :
    AgreeAll ns := by
  intro x hx y hy
  exact h x (hSubset x hx) y (hSubset y hy)

------------------------------------------------------------
-- Merging frameworks that agree
------------------------------------------------------------

/- The framework that a merged platform is put on. -/
def carrier (x y : Moniker) : Moniker :=
  if (mergedBase x y).supportsPlatform then mergedBase x y
  else if x.platform.isSome then x.withoutPlatform
  else y.withoutPlatform

/- What two frameworks merge to unless their platforms differ. -/
def join (x y : Moniker) : Moniker :=
  match x.platform.or y.platform with
  | some p =>
    (carrier x y).withPlatform p
      (some (mergedPlatformVersion x y))
  | none => mergedBase x y

theorem merge_of_agrees
    (h : x.Agrees y) :
    x.merge y = .ok (x.join y) := by
  unfold merge join carrier
  cases hx : x.platform with
  | none =>
      cases hy : y.platform with
      | none => rfl
      | some q => simp
  | some p =>
      cases hy : y.platform with
      | none => simp
      | some q =>
          have hEq := h p hx q hy
          simp [hEq]

theorem merge_of_not_agrees
    (h : ¬ x.Agrees y) :
    x.merge y = .error ⟨x, y⟩ := by
  rcases not_agrees_iff.mp h with ⟨p, q, hx, hy, hNe⟩
  unfold merge
  simp [hx, hy, hNe]

theorem mergedBase_eq
    (x y : Moniker) :
    mergedBase x y =
      if x.frameworkConsumes y = true then x.withoutPlatform
      else y.withoutPlatform := by
  unfold mergedBase frameworkConsumes
  rw [compare_eq]
  cases x.withoutPlatform.consumes y.withoutPlatform with
  | false => rfl
  | true =>
      cases y.withoutPlatform.consumes x.withoutPlatform <;> rfl

/-
  The framework of the right side is taken unless the left
  side can use it, or has a platform that it cannot carry.
-/
theorem join_withoutPlatform
    (hy : y.platform.isSome = true →
      y.supportsPlatform = true) :
    (x.join y).withoutPlatform =
      if x.frameworkConsumes y = true ∨
          (x.platform.isSome = true ∧
            y.supportsPlatform = false) then
        x.withoutPlatform
      else y.withoutPlatform := by
  unfold join carrier
  rw [mergedBase_eq]
  by_cases hConsumes : x.frameworkConsumes y = true
  · have hCarrier :
        y.platform.isSome = true →
          x.supportsPlatform = true := by
      intro hPlatform
      exact supportsPlatform_of_frameworkConsumes hConsumes
        (hy hPlatform)
    cases hxp : x.platform <;> cases hyp : y.platform <;>
      simp_all
  · cases hxp : x.platform <;> cases hyp : y.platform <;>
      cases hSupports : y.supportsPlatform <;> simp_all

theorem join_platform
    (x y : Moniker) :
    (x.join y).platform =
      (x.platform.or y.platform).map Text.lower := by
  unfold join
  cases x.platform.or y.platform with
  | none =>
      rw [mergedBase_eq]
      simp only
      split <;> rfl
  | some p => rfl

/- Merged frameworks have a platform and its version, or neither. -/
theorem join_platformVersion
    (x y : Moniker) :
    (x.join y).platformVersion =
      (x.join y).platform.map
        fun _ => mergedPlatformVersion x y := by
  unfold join
  cases x.platform.or y.platform with
  | none =>
      rw [mergedBase_eq]
      simp only
      split <;> rfl
  | some p => rfl

------------------------------------------------------------
-- The merged platform
------------------------------------------------------------

theorem platformVersionOrZero_le_merged_left
    (x y : Moniker) :
    x.platformVersionOrZero.le (mergedPlatformVersion x y) =
      true := by
  unfold platformVersionOrZero mergedPlatformVersion
  cases x.platformVersion <;> cases y.platformVersion <;>
    simp [FrameworkVersion.le_refl, FrameworkVersion.zero_le,
      FrameworkVersion.le_max_left]

theorem platformVersionOrZero_le_merged_right
    (x y : Moniker) :
    y.platformVersionOrZero.le (mergedPlatformVersion x y) =
      true := by
  unfold platformVersionOrZero mergedPlatformVersion
  cases x.platformVersion <;> cases y.platformVersion <;>
    simp [FrameworkVersion.le_refl, FrameworkVersion.zero_le,
      FrameworkVersion.le_max_right]

theorem mergedPlatformVersion_le
    {v : FrameworkVersion}
    (hx : x.platformVersionOrZero.le v = true)
    (hy : y.platformVersionOrZero.le v = true) :
    (mergedPlatformVersion x y).le v = true := by
  unfold platformVersionOrZero at hx hy
  unfold mergedPlatformVersion
  cases hxv : x.platformVersion <;>
    cases hyv : y.platformVersion <;>
      simp_all [FrameworkVersion.max_le]

theorem platformConsumes_iff_of_platform_eq_some
    {p : String}
    (h : y.platform = some p) :
    x.platformConsumes y = true ↔
      x.platform = some p ∧
        y.platformVersionOrZero.le x.platformVersionOrZero =
          true := by
  unfold platformConsumes
  rw [h]
  cases x.platform <;> simp

theorem platform_isSome_of_platformConsumes
    (h : x.platformConsumes y = true)
    (hPlatform : y.platform.isSome = true) :
    x.platform.isSome = true := by
  rcases Option.isSome_iff_exists.mp hPlatform with ⟨p, hp⟩
  rw [platformConsumes_iff_of_platform_eq_some hp] at h
  simp [h.1]

theorem join_platformVersionOrZero
    (h : (x.join y).platform.isSome = true) :
    (x.join y).platformVersionOrZero =
      mergedPlatformVersion x y := by
  unfold platformVersionOrZero
  rw [join_platformVersion]
  cases hp : (x.join y).platform with
  | none => simp [hp] at h
  | some p => rfl

/- Merging loses no platform of the left side. -/
theorem platformConsumes_join_left
    (hz : ∀ p : String, z.platform = some p → Text.lower p = p)
    (h : x.platformConsumes z = true) :
    (x.join y).platformConsumes z = true := by
  cases hzp : z.platform with
  | none => exact platformConsumes_of_platform_eq_none hzp
  | some p =>
      rw [platformConsumes_iff_of_platform_eq_some hzp] at h ⊢
      have hPlatform : (x.join y).platform = some p := by
        simp [join_platform, h.1, hz p hzp]
      refine ⟨hPlatform, ?_⟩
      rw [join_platformVersionOrZero (by simp [hPlatform])]
      exact
        FrameworkVersion.le_trans h.2
          (platformVersionOrZero_le_merged_left x y)

/- Merging loses no platform of the right side. -/
theorem platformConsumes_join_right
    (hAgrees : x.Agrees y)
    (hy : ∀ p : String, y.platform = some p → Text.lower p = p) :
    (x.join y).platformConsumes y = true := by
  cases hyp : y.platform with
  | none => exact platformConsumes_of_platform_eq_none hyp
  | some q =>
      have hPlatform : (x.join y).platform = some q := by
        cases hxp : x.platform with
        | none => simp [join_platform, hxp, hyp, hy q hyp]
        | some p =>
            have hEq := hAgrees p hxp q hyp
            subst hEq
            simp [join_platform, hxp, hy p hyp]
      rw [platformConsumes_iff_of_platform_eq_some hyp]
      refine ⟨hPlatform, ?_⟩
      rw [join_platformVersionOrZero (by simp [hPlatform])]
      exact platformVersionOrZero_le_merged_right x y

/- The merged platform is the least one above both sides. -/
theorem platformConsumes_join
    (hx : x.Proper)
    (hy : y.Proper)
    (hzx : z.platformConsumes x = true)
    (hzy : z.platformConsumes y = true) :
    z.platformConsumes (x.join y) = true := by
  have hZero :
      ∀ m : Moniker, m.Proper → z.platformConsumes m = true →
        m.platformVersionOrZero.le z.platformVersionOrZero =
          true := by
    intro m hm hzm
    cases hmp : m.platform with
    | none =>
        rw [hm.platformVersionOrZero_eq_zero hmp]
        exact FrameworkVersion.zero_le _
    | some p =>
        rw [platformConsumes_iff_of_platform_eq_some hmp] at hzm
        exact hzm.2
  cases hPlatform : (x.join y).platform with
  | none => exact platformConsumes_of_platform_eq_none hPlatform
  | some p =>
      rw [platformConsumes_iff_of_platform_eq_some hPlatform,
        join_platformVersionOrZero (by simp [hPlatform])]
      refine
        ⟨?_, mergedPlatformVersion_le (hZero x hx hzx)
          (hZero y hy hzy)⟩
      rw [join_platform] at hPlatform
      cases hxp : x.platform with
      | some q =>
          rw [platformConsumes_iff_of_platform_eq_some hxp]
            at hzx
          rw [hxp] at hPlatform
          simp only [Option.some_or, Option.map_some,
            Option.some.injEq] at hPlatform
          rw [hzx.1, ← hPlatform, hx.lowered q hxp]
      | none =>
          cases hyp : y.platform with
          | none => simp [hxp, hyp] at hPlatform
          | some q =>
              rw [platformConsumes_iff_of_platform_eq_some hyp]
                at hzy
              rw [hxp, hyp] at hPlatform
              simp only [Option.none_or, Option.map_some,
                Option.some.injEq] at hPlatform
              rw [hzy.1, ← hPlatform, hy.lowered q hyp]

------------------------------------------------------------
-- Proper frameworks
------------------------------------------------------------

/- Merging proper frameworks gives a proper one. -/
theorem join_proper
    (hx : x.Proper)
    (hy : y.Proper) :
    (x.join y).Proper where
  supports := by
    intro hPlatform
    rw [join_platform, Option.isSome_map, Option.isSome_or,
      Bool.or_eq_true] at hPlatform
    rw [← withoutPlatform_supportsPlatform,
      join_withoutPlatform hy.supports]
    split
    · next hLeft =>
        rw [withoutPlatform_supportsPlatform]
        rcases hLeft with hConsumes | hCarried
        · rcases hPlatform with hxp | hyp
          · exact hx.supports hxp
          · exact
              supportsPlatform_of_frameworkConsumes hConsumes
                (hy.supports hyp)
        · exact hx.supports hCarried.1
    · next hRight =>
        rw [withoutPlatform_supportsPlatform]
        push Not at hRight
        rcases hPlatform with hxp | hyp
        · simpa using hRight.2 hxp
        · exact hy.supports hyp
  lowered := by
    intro p hp
    rw [join_platform, Option.map_eq_some_iff] at hp
    rcases hp with ⟨q, hq, rfl⟩
    have hLower : Text.lower q = q := by
      rw [Option.or_eq_some_iff] at hq
      rcases hq with hxp | ⟨_, hyp⟩
      · exact hx.lowered q hxp
      · exact hy.lowered q hyp
    rw [hLower, hLower]
  versioned := by
    intro h
    rw [join_platformVersion, h]
    rfl

------------------------------------------------------------
-- Merging twice
------------------------------------------------------------

theorem eq_of_withoutPlatform
    (hBase : x.withoutPlatform = y.withoutPlatform)
    (hPlatform : x.platform = y.platform)
    (hVersion : x.platformVersion = y.platformVersion) :
    x = y := by
  cases x
  cases y
  simp_all [withoutPlatform]

theorem mergedPlatformVersion_merged
    (h : z.platformVersion = some (mergedPlatformVersion x y)) :
    mergedPlatformVersion x z = mergedPlatformVersion x y := by
  unfold mergedPlatformVersion at h ⊢
  rw [h]
  cases x.platformVersion <;> cases y.platformVersion <;>
    simp [FrameworkVersion.max_max_left,
      FrameworkVersion.max_self]

/- What a merge has given, merging once more does not change. -/
theorem join_join
    (hx : x.Proper)
    (hy : y.Proper) :
    x.join (x.join y) = x.join y := by
  have hJoin := join_proper hx hy
  have hPlatform :
      (x.join (x.join y)).platform = (x.join y).platform := by
    cases hxp : x.platform with
    | some p => simp [join_platform, hxp]
    | none =>
        rw [join_platform, hxp, Option.none_or]
        cases hp : (x.join y).platform with
        | none => rfl
        | some p => simp [hJoin.lowered p hp]
  apply eq_of_withoutPlatform _ hPlatform
  · rw [join_platformVersion, hPlatform]
    cases hp : (x.join y).platform with
    | none => simp [join_platformVersion, hp]
    | some p =>
        have hVersion :
            (x.join y).platformVersion =
              some (mergedPlatformVersion x y) := by
          simp [join_platformVersion, hp]
        simp [hVersion, mergedPlatformVersion_merged hVersion]
  · have hBase := join_withoutPlatform (x := x) hy.supports
    rw [join_withoutPlatform hJoin.supports]
    split
    · next hLeft =>
        have hUses : x.frameworkConsumes (x.join y) = true := by
          rcases hLeft with hUses | ⟨hxp, hNot⟩
          · exact hUses
          · have hSupports :=
              hJoin.supports (by simp [join_platform, hxp])
            rw [hSupports] at hNot
            cases hNot
        split at hBase
        · exact hBase.symm
        · next hRight =>
            rw [frameworkConsumes_congr rfl hBase] at hUses
            exact absurd (Or.inl hUses) hRight
    · rfl

/- A platform version of zero does not show in a name. -/
theorem name_congr
    (hBase : x.withoutPlatform = y.withoutPlatform)
    (hPlatform : x.platform = y.platform)
    (hVersion :
      (x.platformVersion.filter fun v => !v.isZero) =
        y.platformVersion.filter fun v => !v.isZero) :
    x.name = y.name := by
  have hFramework : x.frameworkName = y.frameworkName := by
    change
      x.withoutPlatform.frameworkName =
        y.withoutPlatform.frameworkName
    rw [hBase]
  unfold name platformSuffix
  rw [hFramework, hPlatform, hVersion]

/-
  A merge that is needed only for the framework, and then
  fails to raise it, still has the same name.
-/
theorem join_name_of_consumes
    (hx : x.Proper)
    (hy : y.Proper)
    (hAgrees : x.Agrees y)
    (hNot : x.consumes y = false)
    (hUses : x.consumes (x.join y) = true) :
    (x.join y).name = x.name := by
  have hJoin := join_proper hx hy
  have hBase := join_withoutPlatform (x := x) hy.supports
  rw [consumes_iff hJoin.isNetCore] at hUses
  have hFits : x.platformConsumes y = true :=
    platformConsumes_trans hUses.2
      (platformConsumes_join_right hAgrees hy.lowered)
  have hMissed : x.frameworkConsumes y = false := by
    cases hFramework : x.frameworkConsumes y with
    | false => rfl
    | true =>
        rw [(consumes_iff hy.isNetCore).mpr
          ⟨hFramework, hFits⟩] at hNot
        cases hNot
  -- So the platform of `x` is what keeps the merge at `x`.
  have hCarried :
      x.platform.isSome = true ∧ y.supportsPlatform = false := by
    split at hBase
    · next hLeft => simpa [hMissed] using hLeft
    · rw [frameworkConsumes_congr rfl hBase, hMissed] at hUses
      cases hUses.1
  rw [if_pos (Or.inr hCarried)] at hBase
  have hNone : y.platform = none := by
    cases hyp : y.platform with
    | none => rfl
    | some q =>
        rw [hy.supports (by simp [hyp])] at hCarried
        cases hCarried.2
  have hPlatform : (x.join y).platform = x.platform := by
    rw [join_platform, hNone, Option.or_none]
    cases hxp : x.platform with
    | none => rfl
    | some p => simp [hx.lowered p hxp]
  apply name_congr hBase hPlatform
  rw [join_platformVersion, hPlatform]
  rcases Option.isSome_iff_exists.mp hCarried.1 with ⟨p, hp⟩
  rw [hp]
  unfold mergedPlatformVersion
  rw [hy.versioned hNone]
  cases x.platformVersion with
  | some v => rfl
  | none => rfl

end Retarget.Moniker
