import Retarget.Proofs.Framework.Merge

/-
  This file describes frameworks that are the same but for
  how their versions were written: they use each other, and
  nothing that is done with them tells them apart.

  Key statements include:
    * `Moniker.same_iff`
    * `Moniker.consumes_and_iff`
    * `Moniker.same_of_consumes`
    * `Moniker.same_trans`
    * `Moniker.consumes_congr_of_same`
    * `Moniker.join_same`
-/

namespace Retarget.Moniker

variable {x y z : Moniker}

------------------------------------------------------------
-- An equivalence
------------------------------------------------------------

theorem frameworkConsumes_of_le
    (hFamily : x.family = y.family)
    (hVersion : y.version.le x.version = true) :
    x.frameworkConsumes y = true := by
  unfold frameworkConsumes consumes
  cases hy : y.family <;>
    simp [hFamily, hy, hVersion, platformConsumes]

/- The same family and version is using each other. -/
theorem frameworkConsumes_and_iff :
    (x.frameworkConsumes y = true ∧
        y.frameworkConsumes x = true) ↔
      x.family = y.family ∧
        x.version.same y.version = true := by
  constructor
  · rintro ⟨hxy, hyx⟩
    exact same_of_frameworkConsumes hxy hyx
  · rw [FrameworkVersion.same_iff_le]
    rintro ⟨hFamily, hxy, hyx⟩
    exact
      ⟨frameworkConsumes_of_le hFamily hyx,
        frameworkConsumes_of_le hFamily.symm hxy⟩

theorem same_iff :
    x.same y = true ↔
      (x.frameworkConsumes y = true ∧
          y.frameworkConsumes x = true) ∧
        x.platform = y.platform ∧
        x.platformVersion.isSome = y.platformVersion.isSome ∧
        x.platformVersionOrZero.le y.platformVersionOrZero =
          true ∧
        y.platformVersionOrZero.le x.platformVersionOrZero =
          true := by
  rw [frameworkConsumes_and_iff]
  unfold same platformVersionOrZero
  cases x.platformVersion <;> cases y.platformVersion <;>
    simp [FrameworkVersion.same_iff_le, FrameworkVersion.le_refl,
      and_assoc]

/- The platforms fit both ways if they are the same. -/
theorem platformConsumes_and_iff
    (hx : x.Proper)
    (hy : y.Proper) :
    (x.platformConsumes y = true ∧
        y.platformConsumes x = true) ↔
      x.platform = y.platform ∧
        x.platformVersionOrZero.same y.platformVersionOrZero =
          true := by
  rw [FrameworkVersion.same_iff_le]
  cases hyp : y.platform with
  | some p =>
      rw [platformConsumes_iff_of_platform_eq_some hyp]
      constructor
      · rintro ⟨⟨hxp, hLe⟩, hyx⟩
        rw [platformConsumes_iff_of_platform_eq_some hxp] at hyx
        exact ⟨hxp, hyx.2, hLe⟩
      · rintro ⟨hxp, hLe, hGe⟩
        rw [platformConsumes_iff_of_platform_eq_some hxp]
        exact ⟨⟨hxp, hGe⟩, hyp, hLe⟩
  | none =>
      constructor
      · rintro ⟨_, hyx⟩
        have hxp : x.platform = none := by
          cases hxp : x.platform with
          | none => rfl
          | some p =>
              have hSome :=
                platform_isSome_of_platformConsumes hyx
                  (by simp [hxp])
              simp [hyp] at hSome
        rw [hx.platformVersionOrZero_eq_zero hxp,
          hy.platformVersionOrZero_eq_zero hyp]
        exact
          ⟨hxp, FrameworkVersion.le_refl _,
            FrameworkVersion.le_refl _⟩
      · rintro ⟨hxp, _⟩
        exact
          ⟨platformConsumes_of_platform_eq_none hyp,
            platformConsumes_of_platform_eq_none hxp⟩

/-
  Frameworks use each other if they are the same, where no
  platform version counts as zero.
-/
theorem consumes_and_iff
    (hx : x.Proper)
    (hy : y.Proper) :
    (x.consumes y = true ∧ y.consumes x = true) ↔
      x.family = y.family ∧
        x.version.same y.version = true ∧
        x.platform = y.platform ∧
        x.platformVersionOrZero.same y.platformVersionOrZero =
          true := by
  rw [consumes_iff hy.isNetCore, consumes_iff hx.isNetCore,
    and_and_and_comm, frameworkConsumes_and_iff,
    platformConsumes_and_iff hx hy, and_assoc]

theorem same_of_consumes
    (hx : x.Proper)
    (hy : y.Proper)
    (hxy : x.consumes y = true)
    (hyx : y.consumes x = true)
    (hSome :
      x.platformVersion.isSome = y.platformVersion.isSome) :
    x.same y = true := by
  rcases (consumes_and_iff hx hy).mp ⟨hxy, hyx⟩ with
    ⟨hFamily, hVersion, hPlatform, hZero⟩
  rw [same_iff]
  exact
    ⟨frameworkConsumes_and_iff.mpr ⟨hFamily, hVersion⟩,
      hPlatform, hSome, FrameworkVersion.same_iff_le.mp hZero⟩

theorem same_refl
    (x : Moniker) :
    x.same x = true := by
  rw [same_iff]
  exact
    ⟨⟨frameworkConsumes_refl x, frameworkConsumes_refl x⟩, rfl,
      rfl, FrameworkVersion.le_refl _,
      FrameworkVersion.le_refl _⟩

theorem same_symm
    (h : x.same y = true) :
    y.same x = true := by
  rw [same_iff] at h ⊢
  rcases h with ⟨⟨hxy, hyx⟩, hPlatform, hSome, hLe, hGe⟩
  exact ⟨⟨hyx, hxy⟩, hPlatform.symm, hSome.symm, hGe, hLe⟩

theorem same_trans
    (hxy : x.same y = true)
    (hyz : y.same z = true) :
    x.same z = true := by
  rw [same_iff] at hxy hyz ⊢
  rcases hxy with ⟨⟨hxy, hyx⟩, hPlatform, hSome, hLe, hGe⟩
  rcases hyz with ⟨⟨hyz, hzy⟩, hPlatform', hSome', hLe', hGe'⟩
  exact
    ⟨⟨frameworkConsumes_trans hxy hyz,
        frameworkConsumes_trans hzy hyx⟩,
      hPlatform.trans hPlatform', hSome.trans hSome',
      FrameworkVersion.le_trans hLe hLe',
      FrameworkVersion.le_trans hGe' hGe⟩

------------------------------------------------------------
-- Congruence
------------------------------------------------------------

theorem consumes_of_same
    (h : x.same y = true) :
    x.consumes y = true := by
  rw [same_iff] at h
  rcases h with ⟨⟨hxy, _⟩, hPlatform, _, _, hGe⟩
  have hFits : x.platformConsumes y = true := by
    unfold platformConsumes
    rw [hPlatform]
    cases y.platform with
    | none => rfl
    | some p => simp [hGe]
  rw [consumes_eq, hxy, hFits]
  simp

theorem consumes_congr_of_same
    (h : x.same y = true)
    (z : Moniker) :
    x.consumes z = y.consumes z := by
  rw [Bool.eq_iff_iff]
  constructor
  · exact consumes_trans (consumes_of_same (same_symm h))
  · exact consumes_trans (consumes_of_same h)

theorem frameworkConsumes_congr_of_same
    (h : x.same y = true)
    (z : Moniker) :
    x.frameworkConsumes z = y.frameworkConsumes z := by
  rw [same_iff] at h
  rw [Bool.eq_iff_iff]
  constructor
  · exact frameworkConsumes_trans h.1.2
  · exact frameworkConsumes_trans h.1.1

/- Merging the same with something gives the same. -/
theorem join_same
    (h : x.same y = true)
    (hz : z.platform.isSome = true →
      z.supportsPlatform = true) :
    (x.join z).same (y.join z) = true := by
  have hUses := frameworkConsumes_congr_of_same h z
  rw [same_iff] at h
  rcases h with ⟨⟨hxy, hyx⟩, hPlatform, _, hLe, hGe⟩
  have hJoined :
      (x.join z).platform = (y.join z).platform := by
    rw [join_platform, join_platform, hPlatform]
  have hMerged :
      ∀ {u v : Moniker},
        u.platformVersionOrZero.le v.platformVersionOrZero =
            true →
          (mergedPlatformVersion u z).le
            (mergedPlatformVersion v z) = true := by
    intro u v huv
    apply mergedPlatformVersion_le
    · exact
        FrameworkVersion.le_trans huv
          (platformVersionOrZero_le_merged_left v z)
    · exact platformVersionOrZero_le_merged_right v z
  have hBase :
      (x.join z).frameworkConsumes (y.join z) = true ∧
        (y.join z).frameworkConsumes (x.join z) = true := by
    have hLeft := join_withoutPlatform (x := x) hz
    have hRight := join_withoutPlatform (x := y) hz
    rw [← hUses, ← hPlatform] at hRight
    split at hLeft
    · next hKeep =>
        rw [if_pos hKeep] at hRight
        rw [frameworkConsumes_congr hLeft hRight,
          frameworkConsumes_congr hRight hLeft]
        exact ⟨hxy, hyx⟩
    · next hMove =>
        rw [if_neg hMove] at hRight
        rw [frameworkConsumes_congr hLeft hRight,
          frameworkConsumes_congr hRight hLeft]
        exact ⟨frameworkConsumes_refl z, frameworkConsumes_refl z⟩
  rw [same_iff]
  refine ⟨hBase, hJoined, ?_, ?_⟩
  · rw [join_platformVersion, join_platformVersion, hJoined]
    simp
  · unfold platformVersionOrZero
    rw [join_platformVersion, join_platformVersion, hJoined]
    cases (y.join z).platform with
    | none =>
        exact
          ⟨FrameworkVersion.le_refl _,
            FrameworkVersion.le_refl _⟩
    | some p => exact ⟨hMerged hLe, hMerged hGe⟩

end Retarget.Moniker
