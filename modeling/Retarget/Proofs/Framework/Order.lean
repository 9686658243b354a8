import Retarget.Framework.Compatibility
import Retarget.Proofs.Framework.Version

/-
  This file shows that consuming is a preorder of
  frameworks, and splits it into the framework itself and
  the platform.

  Key definitions include:
    * `Moniker.frameworkConsumes`
    * `Moniker.Comparable`

  Key statements include:
    * `Moniker.compare_eq`
    * `Moniker.consumes_trans`
    * `Moniker.frameworkConsumes_of_consumes`
    * `Moniker.Comparable.exists_greatest`
-/

namespace Retarget

------------------------------------------------------------
-- Consuming
------------------------------------------------------------

namespace Moniker

variable {x y z : Moniker}

/-
  A framework can use another one, whatever platforms the
  two have.
-/
def frameworkConsumes (x y : Moniker) : Bool :=
  x.withoutPlatform.consumes y.withoutPlatform

/-
  The order follows from what can be used alone: the rule
  for a .NET Standard and a .NET Framework adds nothing.
-/
theorem compare_eq
    (x y : Moniker) :
    x.compare y =
      if x.consumes y = true then
        (if y.consumes x = true then .eq else .gt)
      else .lt := by
  unfold compare
  split
  · next hFamilies =>
      simp only [isNetStandard, isNetFramework,
        Bool.and_eq_true, beq_iff_eq] at hFamilies
      simp [consumes, hFamilies.1, hFamilies.2]
  · cases x.consumes y <;> cases y.consumes x <;> rfl

theorem isAtLeast_eq_consumes
    (x y : Moniker) :
    x.isAtLeast y = x.consumes y := by
  unfold isAtLeast
  rw [compare_eq]
  cases x.consumes y <;> cases y.consumes x <;> rfl

theorem compare_ne_lt_iff :
    x.compare y ≠ .lt ↔ x.consumes y = true := by
  rw [← isAtLeast_eq_consumes]
  simp [isAtLeast]

theorem platformConsumes_refl
    (x : Moniker) :
    x.platformConsumes x = true := by
  unfold platformConsumes
  cases x.platform with
  | none => rfl
  | some p => simp [FrameworkVersion.le_refl]

theorem platformConsumes_of_platform_eq_none
    (h : y.platform = none) :
    x.platformConsumes y = true := by
  simp [platformConsumes, h]

theorem platformConsumes_trans
    (hxy : x.platformConsumes y = true)
    (hyz : y.platformConsumes z = true) :
    x.platformConsumes z = true := by
  unfold platformConsumes at *
  cases hx : x.platform <;> cases hy : y.platform <;>
    cases hz : z.platform <;>
      simp only [hx, hy, hz, Bool.and_eq_true, beq_iff_eq,
        Bool.false_eq_true] at *
  exact
    ⟨hxy.1.trans hyz.1,
      FrameworkVersion.le_trans hyz.2 hxy.2⟩

/- A later .NET Core implements no lower standard. -/
theorem maxNetStandard?_mono_of_netCoreApp
    (hx : x.family = .netCoreApp)
    (hy : y.family = .netCoreApp)
    (hVersion : y.version.le x.version = true)
    {v : FrameworkVersion}
    (hMax : y.maxNetStandard? = some v) :
    ∃ w, x.maxNetStandard? = some w ∧ v.le w = true := by
  have hMajor := FrameworkVersion.major_le_of_le hVersion
  unfold maxNetStandard? at *
  rw [hy] at hMax
  rw [hx]
  simp only at hMax ⊢
  split at hMax
  · cases hMax
    split
    · exact ⟨_, rfl, by decide⟩
    · split <;> exact ⟨_, rfl, by decide⟩
  · split at hMax
    · cases hMax
      rw [if_neg (by omega)]
      split <;> exact ⟨_, rfl, by decide⟩
    · cases hMax
      rw [if_neg (by omega), if_neg (by omega)]
      exact ⟨_, rfl, by decide⟩

/- A later .NET Framework implements no lower standard. -/
theorem maxNetStandard?_mono_of_netFramework
    (hx : x.family = .netFramework)
    (hy : y.family = .netFramework)
    (hVersion : y.version.le x.version = true)
    {v : FrameworkVersion}
    (hMax : y.maxNetStandard? = some v) :
    ∃ w, x.maxNetStandard? = some w ∧ v.le w = true := by
  unfold maxNetStandard? at *
  rw [hy] at hMax
  rw [hx]
  have hReach :
      ∀ u : FrameworkVersion,
        u.le y.version = true → u.le x.version = true := by
    intro u hu
    exact FrameworkVersion.le_trans hu hVersion
  simp only at hMax ⊢
  split at hMax
  · next h61 =>
      cases hMax
      exact ⟨_, if_pos (hReach _ h61), by decide⟩
  · split at hMax
    · next h60 =>
        cases hMax
        rw [if_pos (hReach _ h60)]
        split <;> exact ⟨_, rfl, by decide⟩
    · split at hMax
      · next h51 =>
          cases hMax
          rw [if_pos (hReach _ h51)]
          split
          · exact ⟨_, rfl, by decide⟩
          · split <;> exact ⟨_, rfl, by decide⟩
      · split at hMax
        · next h50 =>
            cases hMax
            rw [if_pos (hReach _ h50)]
            split
            · exact ⟨_, rfl, by decide⟩
            · split
              · exact ⟨_, rfl, by decide⟩
              · split <;> exact ⟨_, rfl, by decide⟩
        · cases hMax

theorem consumes_refl
    (x : Moniker) :
    x.consumes x = true := by
  unfold consumes
  cases x.family <;>
    simp [FrameworkVersion.le_refl, platformConsumes_refl]

/-
  What a framework can use, it can use together with all
  that this can use.
-/
theorem consumes_trans
    (hxy : x.consumes y = true)
    (hyz : y.consumes z = true) :
    x.consumes z = true := by
  cases hx : x.family <;> cases hy : y.family <;>
    cases hz : z.family <;>
      simp only [consumes, consumes.implements, hx, hy, hz,
        Bool.and_eq_true, Bool.false_eq_true,
        Option.any_eq_true] at hxy hyz ⊢
  case netFramework.netFramework.netFramework =>
    exact FrameworkVersion.le_trans hyz hxy
  case netFramework.netFramework.netStandard =>
    rcases hyz with ⟨v, hMax, hVersion⟩
    rcases maxNetStandard?_mono_of_netFramework
        hx hy hxy hMax with
      ⟨w, hMax', hLe⟩
    exact ⟨w, hMax', FrameworkVersion.le_trans hVersion hLe⟩
  case netFramework.netStandard.netStandard =>
    rcases hxy with ⟨v, hMax, hVersion⟩
    exact ⟨v, hMax, FrameworkVersion.le_trans hyz hVersion⟩
  case netStandard.netStandard.netStandard =>
    exact FrameworkVersion.le_trans hyz hxy
  case netCoreApp.netStandard.netStandard =>
    rcases hxy with ⟨v, hMax, hVersion⟩
    exact ⟨v, hMax, FrameworkVersion.le_trans hyz hVersion⟩
  case netCoreApp.netCoreApp.netStandard =>
    rcases hyz with ⟨v, hMax, hVersion⟩
    rcases maxNetStandard?_mono_of_netCoreApp
        hx hy hxy.1 hMax with
      ⟨w, hMax', hLe⟩
    exact ⟨w, hMax', FrameworkVersion.le_trans hVersion hLe⟩
  case netCoreApp.netCoreApp.netCoreApp =>
    exact
      ⟨FrameworkVersion.le_trans hyz.1 hxy.1,
        platformConsumes_trans hxy.2 hyz.2⟩

------------------------------------------------------------
-- Frameworks without their platforms
------------------------------------------------------------

@[simp] theorem withoutPlatform_family
    (x : Moniker) :
    x.withoutPlatform.family = x.family :=
  rfl

@[simp] theorem withoutPlatform_version
    (x : Moniker) :
    x.withoutPlatform.version = x.version :=
  rfl

@[simp] theorem withoutPlatform_platform
    (x : Moniker) :
    x.withoutPlatform.platform = none :=
  rfl

@[simp] theorem withoutPlatform_platformVersion
    (x : Moniker) :
    x.withoutPlatform.platformVersion = none :=
  rfl

@[simp] theorem withoutPlatform_withoutPlatform
    (x : Moniker) :
    x.withoutPlatform.withoutPlatform = x.withoutPlatform :=
  rfl

@[simp] theorem withPlatform_withoutPlatform
    (x : Moniker)
    (p : String)
    (v : Option FrameworkVersion) :
    (x.withPlatform p v).withoutPlatform = x.withoutPlatform :=
  rfl

@[simp] theorem withoutPlatform_maxNetStandard?
    (x : Moniker) :
    x.withoutPlatform.maxNetStandard? = x.maxNetStandard? :=
  rfl

@[simp] theorem withoutPlatform_supportsPlatform
    (x : Moniker) :
    x.withoutPlatform.supportsPlatform = x.supportsPlatform :=
  rfl

@[simp] theorem withPlatform_supportsPlatform
    (x : Moniker)
    (p : String)
    (v : Option FrameworkVersion) :
    (x.withPlatform p v).supportsPlatform = x.supportsPlatform :=
  rfl

@[simp] theorem withoutPlatform_isNetCore
    (x : Moniker) :
    x.withoutPlatform.isNetCore = x.isNetCore :=
  rfl

@[simp] theorem withoutPlatform_isNetStandard
    (x : Moniker) :
    x.withoutPlatform.isNetStandard = x.isNetStandard :=
  rfl

theorem isNetCore_iff :
    x.isNetCore = true ↔ x.family = .netCoreApp := by
  simp [isNetCore]

theorem isNetStandard_iff :
    x.isNetStandard = true ↔ x.family = .netStandard := by
  simp [isNetStandard]

theorem isNetCore_of_supportsPlatform
    (h : x.supportsPlatform = true) :
    x.isNetCore = true := by
  simp only [supportsPlatform, Bool.and_eq_true] at h
  exact h.1

theorem frameworkConsumes_refl
    (x : Moniker) :
    x.frameworkConsumes x = true :=
  consumes_refl _

theorem frameworkConsumes_trans
    (hxy : x.frameworkConsumes y = true)
    (hyz : y.frameworkConsumes z = true) :
    x.frameworkConsumes z = true :=
  consumes_trans hxy hyz

/- Only the framework itself counts. -/
theorem frameworkConsumes_congr
    {x' y' : Moniker}
    (hx : x.withoutPlatform = x'.withoutPlatform)
    (hy : y.withoutPlatform = y'.withoutPlatform) :
    x.frameworkConsumes y = x'.frameworkConsumes y' := by
  unfold frameworkConsumes
  rw [hx, hy]

/- The platforms count between two .NET Core frameworks only. -/
theorem consumes_eq
    (x y : Moniker) :
    x.consumes y =
      (x.frameworkConsumes y &&
        (!y.isNetCore || x.platformConsumes y)) := by
  have hFree :
      x.withoutPlatform.platformConsumes y.withoutPlatform =
        true := by
    simp [platformConsumes]
  cases hx : x.family <;> cases hy : y.family <;>
    simp [frameworkConsumes, consumes, consumes.implements,
      isNetCore, hx, hy, hFree]

theorem frameworkConsumes_of_consumes
    (h : x.consumes y = true) :
    x.frameworkConsumes y = true := by
  rw [consumes_eq, Bool.and_eq_true] at h
  exact h.1

theorem consumes_eq_false_of_frameworkConsumes
    (h : x.frameworkConsumes y = false) :
    x.consumes y = false := by
  rw [consumes_eq, h]
  rfl

/-
  A framework uses another one when it does so without
  their platforms and when the platforms fit.
-/
theorem consumes_iff
    (hPlatform : y.platform.isSome = true → y.isNetCore = true) :
    x.consumes y = true ↔
      x.frameworkConsumes y = true ∧
        x.platformConsumes y = true := by
  rw [consumes_eq, Bool.and_eq_true]
  cases hCore : y.isNetCore with
  | true => simp
  | false =>
      have hNone : y.platform = none := by
        cases hp : y.platform with
        | none => rfl
        | some p =>
            rw [hPlatform (by simp [hp])] at hCore
            cases hCore
      have hFits : x.platformConsumes y = true := by
        simp [platformConsumes, hNone]
      simp [hFits]

------------------------------------------------------------
-- Families
------------------------------------------------------------

/- Only .NET Core uses .NET Core. -/
theorem isNetCore_of_frameworkConsumes
    (h : x.frameworkConsumes y = true)
    (hy : y.isNetCore = true) :
    x.isNetCore = true := by
  rw [isNetCore_iff] at hy ⊢
  cases hx : x.family <;>
    simp [frameworkConsumes, consumes, hx, hy] at h ⊢

/- .NET Standard uses .NET Standard only. -/
theorem isNetStandard_of_frameworkConsumes
    (h : x.frameworkConsumes y = true)
    (hx : x.isNetStandard = true) :
    y.isNetStandard = true := by
  rw [isNetStandard_iff] at hx ⊢
  cases hy : y.family <;>
    simp [frameworkConsumes, consumes, hx, hy] at h ⊢

theorem frameworkConsumes_eq_false_of_netStandard_netCore
    (hx : x.isNetStandard = true)
    (hy : y.isNetCore = true) :
    x.frameworkConsumes y = false := by
  rw [isNetStandard_iff] at hx
  rw [isNetCore_iff] at hy
  simp [frameworkConsumes, consumes, hx, hy]

theorem frameworkConsumes_iff_of_netCore
    (hx : x.isNetCore = true)
    (hy : y.isNetCore = true) :
    x.frameworkConsumes y = true ↔
      y.version.le x.version = true := by
  rw [isNetCore_iff] at hx hy
  simp [frameworkConsumes, consumes, platformConsumes, hx, hy]

theorem frameworkConsumes_iff_of_netStandard
    (hx : x.isNetStandard = true)
    (hy : y.isNetStandard = true) :
    x.frameworkConsumes y = true ↔
      y.version.le x.version = true := by
  rw [isNetStandard_iff] at hx hy
  simp [frameworkConsumes, consumes, hx, hy]

theorem frameworkConsumes_total_of_netCore
    (hx : x.isNetCore = true)
    (hy : y.isNetCore = true) :
    x.frameworkConsumes y = true ∨
      y.frameworkConsumes x = true := by
  rw [frameworkConsumes_iff_of_netCore hx hy,
    frameworkConsumes_iff_of_netCore hy hx]
  exact FrameworkVersion.le_total _ _

theorem frameworkConsumes_total_of_netStandard
    (hx : x.isNetStandard = true)
    (hy : y.isNetStandard = true) :
    x.frameworkConsumes y = true ∨
      y.frameworkConsumes x = true := by
  rw [frameworkConsumes_iff_of_netStandard hx hy,
    frameworkConsumes_iff_of_netStandard hy hx]
  exact FrameworkVersion.le_total _ _

/- What uses a framework with platforms has them, too. -/
theorem supportsPlatform_of_frameworkConsumes
    (h : x.frameworkConsumes y = true)
    (hy : y.supportsPlatform = true) :
    x.supportsPlatform = true := by
  have hyCore := isNetCore_of_supportsPlatform hy
  have hxCore := isNetCore_of_frameworkConsumes h hyCore
  have hMajor :=
    FrameworkVersion.major_le_of_le
      ((frameworkConsumes_iff_of_netCore hxCore hyCore).mp h)
  simp only [supportsPlatform, Bool.and_eq_true,
    decide_eq_true_eq] at hy ⊢
  exact ⟨hxCore, by omega⟩

/- A framework with platforms uses each that is too low for them. -/
theorem frameworkConsumes_of_supportsPlatform_eq_false
    (hx : x.supportsPlatform = true)
    (hy : y.isNetCore = true)
    (hLow : y.supportsPlatform = false) :
    x.frameworkConsumes y = true := by
  have hxCore := isNetCore_of_supportsPlatform hx
  rw [frameworkConsumes_iff_of_netCore hxCore hy]
  simp only [supportsPlatform, hy, hxCore, Bool.true_and,
    decide_eq_true_eq, decide_eq_false_iff_not] at hx hLow
  apply FrameworkVersion.le_of_major_lt
  omega

/- The frameworks with platforms implement .NET Standard 2.1. -/
theorem frameworkConsumes_iff_of_supportsPlatform
    (hx : x.supportsPlatform = true)
    (hy : y.isNetStandard = true) :
    x.frameworkConsumes y = true ↔
      y.version.le (.ofPair 2 1) = true := by
  simp only [supportsPlatform, Bool.and_eq_true,
    decide_eq_true_eq, isNetCore_iff] at hx
  have hMax : x.maxNetStandard? = some (.ofPair 2 1) := by
    unfold maxNetStandard?
    rw [hx.1]
    simp only
    rw [if_neg (by omega), if_neg (by omega)]
  rw [isNetStandard_iff] at hy
  simp [frameworkConsumes, consumes, consumes.implements,
    hx.1, hy, hMax]

/-
  Frameworks that use each other are the same but for how
  their versions were written.
-/
theorem same_of_frameworkConsumes
    (hxy : x.frameworkConsumes y = true)
    (hyx : y.frameworkConsumes x = true) :
    x.family = y.family ∧
      x.version.same y.version = true := by
  rw [FrameworkVersion.same_iff_le]
  unfold frameworkConsumes consumes at hxy hyx
  cases hx : x.family <;> cases hy : y.family <;>
    simp_all

------------------------------------------------------------
-- Frameworks that compare
------------------------------------------------------------

/- Of any two frameworks, one can use the other. -/
def Comparable (ms : List Moniker) : Prop :=
  ∀ x ∈ ms, ∀ y ∈ ms,
    x.frameworkConsumes y = true ∨ y.frameworkConsumes x = true

theorem Comparable.tail
    {ms : List Moniker}
    (h : Comparable (x :: ms)) :
    Comparable ms := by
  intro y hy z hz
  exact h y (by simp [hy]) z (by simp [hz])

theorem Comparable.of_netCore
    {ms : List Moniker}
    (h : ∀ x ∈ ms, x.isNetCore = true) :
    Comparable ms := by
  intro x hx y hy
  exact frameworkConsumes_total_of_netCore (h x hx) (h y hy)

theorem Comparable.of_netStandard
    {ms : List Moniker}
    (h : ∀ x ∈ ms, x.isNetStandard = true) :
    Comparable ms := by
  intro x hx y hy
  exact frameworkConsumes_total_of_netStandard (h x hx) (h y hy)

/- Some of those that compare, if any, can use all of them. -/
theorem Comparable.exists_greatest
    {ms : List Moniker}
    (h : Comparable ms)
    (hNe : ms ≠ []) :
    ∃ g ∈ ms, ∀ y ∈ ms, g.frameworkConsumes y = true := by
  induction ms with
  | nil => exact absurd rfl hNe
  | cons x ms ih =>
      by_cases hNil : ms = []
      · rw [hNil]
        refine ⟨x, by simp, ?_⟩
        intro y hy
        rw [List.mem_singleton.mp hy]
        exact frameworkConsumes_refl x
      · rcases ih h.tail hNil with ⟨g, hg, hAll⟩
        rcases h x (by simp) g (by simp [hg]) with
          hUses | hUsed
        · refine ⟨x, by simp, ?_⟩
          intro y hy
          rcases List.mem_cons.mp hy with rfl | hy
          · exact frameworkConsumes_refl y
          · exact frameworkConsumes_trans hUses (hAll y hy)
        · refine ⟨g, by simp [hg], ?_⟩
          intro y hy
          rcases List.mem_cons.mp hy with rfl | hy
          · exact hUsed
          · exact hAll y hy

end Moniker

end Retarget
