import Retarget.Proofs.Framework.Same

/-
  This file shows that merging two frameworks which compare,
  platforms aside, and which do not name different platforms
  gives their least upper bound, in either order.

  Key definitions include:
    * `Moniker.IsLeastUpper`

  Key statements include:
    * `Moniker.join_isLeastUpper`
    * `Moniker.join_comm`
    * `Moniker.merge_eq_error_iff`
    * `Moniker.merge_least_upper`
-/

namespace Retarget.Moniker

variable {x y m n : Moniker}

------------------------------------------------------------
-- Least upper bounds
------------------------------------------------------------

/-
  A framework that can use two others, and that everything
  which can use these two can use.
-/
structure IsLeastUpper (x y m : Moniker) : Prop where
  left : m.consumes x = true
  right : m.consumes y = true
  least :
    ∀ c : Moniker, c.consumes x = true → c.consumes y = true →
      c.consumes m = true

theorem IsLeastUpper.symm
    (h : IsLeastUpper x y m) :
    IsLeastUpper y x m where
  left := h.right
  right := h.left
  least := by
    intro c hy hx
    exact h.least c hx hy

/- Least upper bounds of the same frameworks use each other. -/
theorem IsLeastUpper.consumes
    (hm : IsLeastUpper x y m)
    (hn : IsLeastUpper x y n) :
    m.consumes n = true :=
  hn.least m hm.left hm.right

------------------------------------------------------------
-- Merging frameworks that compare
------------------------------------------------------------

theorem join_platformVersion_isSome
    (x y : Moniker) :
    (x.join y).platformVersion.isSome =
      (x.platform.isSome || y.platform.isSome) := by
  simp [join_platformVersion, join_platform]

section

variable (hx : x.Proper)
variable (hy : y.Proper)
variable
  (hComparable :
    x.frameworkConsumes y = true ∨ y.frameworkConsumes x = true)

include hx hy hComparable

/- The higher of two frameworks carries the merged platform. -/
theorem join_withoutPlatform_of_comparable :
    (x.join y).withoutPlatform =
      if x.frameworkConsumes y = true then x.withoutPlatform
      else y.withoutPlatform := by
  rw [join_withoutPlatform hy.supports]
  by_cases hUses : x.frameworkConsumes y = true
  · rw [if_pos (Or.inl hUses), if_pos hUses]
  · have hUsed : y.frameworkConsumes x = true :=
      hComparable.resolve_left hUses
    have hCarries :
        ¬ (x.platform.isSome = true ∧
            y.supportsPlatform = false) := by
      rintro ⟨hPlatform, hNot⟩
      have hSupports :=
        supportsPlatform_of_frameworkConsumes hUsed
          (hx.supports hPlatform)
      rw [hNot] at hSupports
      cases hSupports
    rw [if_neg (not_or.mpr ⟨hUses, hCarries⟩), if_neg hUses]

/- Platforms aside, what is above both is above the higher one. -/
theorem frameworkConsumes_join_iff
    {c : Moniker} :
    c.frameworkConsumes (x.join y) = true ↔
      c.frameworkConsumes x = true ∧
        c.frameworkConsumes y = true := by
  have hBase :=
    join_withoutPlatform_of_comparable hx hy hComparable
  split at hBase
  · next hUses =>
      rw [frameworkConsumes_congr rfl hBase]
      constructor
      · intro hcx
        exact ⟨hcx, frameworkConsumes_trans hcx hUses⟩
      · exact And.left
  · next hNot =>
      have hUsed := hComparable.resolve_left hNot
      rw [frameworkConsumes_congr rfl hBase]
      constructor
      · intro hcy
        exact ⟨frameworkConsumes_trans hcy hUsed, hcy⟩
      · exact And.right

theorem join_isLeastUpper
    (hAgrees : x.Agrees y) :
    IsLeastUpper x y (x.join y) := by
  have hJoin := join_proper hx hy
  have hAbove :=
    (frameworkConsumes_join_iff hx hy hComparable).mp
      (frameworkConsumes_refl (x.join y))
  constructor
  · rw [consumes_iff hx.isNetCore]
    exact
      ⟨hAbove.1,
        platformConsumes_join_left hx.lowered
          (platformConsumes_refl x)⟩
  · rw [consumes_iff hy.isNetCore]
    exact
      ⟨hAbove.2, platformConsumes_join_right hAgrees hy.lowered⟩
  · intro c hcx hcy
    rw [consumes_iff hx.isNetCore] at hcx
    rw [consumes_iff hy.isNetCore] at hcy
    rw [consumes_iff hJoin.isNetCore,
      frameworkConsumes_join_iff hx hy hComparable]
    exact
      ⟨⟨hcx.1, hcy.1⟩, platformConsumes_join hx hy hcx.2 hcy.2⟩

/- Both orders give a least upper bound, hence the same one. -/
theorem join_comm
    (hAgrees : x.Agrees y) :
    (x.join y).same (y.join x) = true := by
  have hxy := join_isLeastUpper hx hy hComparable hAgrees
  have hyx :=
    join_isLeastUpper hy hx hComparable.symm hAgrees.symm
  apply same_of_consumes (join_proper hx hy) (join_proper hy hx)
  · exact hxy.consumes hyx.symm
  · exact hyx.consumes hxy.symm
  · rw [join_platformVersion_isSome, join_platformVersion_isSome,
      Bool.or_comm]

end

------------------------------------------------------------
-- Merging
------------------------------------------------------------

/- Merging fails only for frameworks with different platforms. -/
theorem merge_eq_error_iff
    {e : PlatformMismatch} :
    x.merge y = .error e ↔ e = ⟨x, y⟩ ∧ ¬ x.Agrees y := by
  by_cases hAgrees : x.Agrees y
  · simp [merge_of_agrees hAgrees, hAgrees]
  · rw [merge_of_not_agrees hAgrees]
    simp [hAgrees, eq_comm]

/-
  Merging gives the least framework above both sides, and
  refuses two sides that name different platforms.
-/
theorem merge_least_upper
    (hx : x.IsRead)
    (hy : y.IsRead) :
    (x.Agrees y →
        x.withoutPlatform.consumes y.withoutPlatform = true ∨
          y.withoutPlatform.consumes x.withoutPlatform = true →
        ∃ m n : Moniker,
          x.merge y = .ok m ∧
            y.merge x = .ok n ∧
            m.same n = true ∧
            IsLeastUpper x y m) ∧
      ∀ e : PlatformMismatch,
        x.merge y = .error e ↔
          e = ⟨x, y⟩ ∧
            ∃ p q : String,
              x.platform = some p ∧ y.platform = some q ∧
                p ≠ q := by
  have hxProper := hx.proper
  have hyProper := hy.proper
  constructor
  · intro hAgrees hComparable
    exact
      ⟨x.join y, y.join x, merge_of_agrees hAgrees,
        merge_of_agrees hAgrees.symm,
        join_comm hxProper hyProper hComparable hAgrees,
        join_isLeastUpper hxProper hyProper hComparable hAgrees⟩
  · intro e
    rw [merge_eq_error_iff, not_agrees_iff]

/-
  The platform of one side and the version of the other, and
  two platforms that cannot be merged.
-/
theorem merge_least_upper_of_windows :
    let net60Windows : Moniker :=
      ⟨.netCoreApp, .ofPair 6 0, some "windows",
        some ⟨10, 0, 17763, 0, 4⟩⟩
    let net80 : Moniker := .ofFamily .netCoreApp (.ofPair 8 0)
    let net60Android : Moniker :=
      ⟨.netCoreApp, .ofPair 6 0, some "android", none⟩
    net60Windows.IsRead ∧
      net80.IsRead ∧
      net60Android.IsRead ∧
      net60Windows.Agrees net80 ∧
      net80.withoutPlatform.consumes
          net60Windows.withoutPlatform = true ∧
      (∃ m n : Moniker,
        net60Windows.merge net80 = .ok m ∧
          net80.merge net60Windows = .ok n ∧
          m.same n = true ∧
          IsLeastUpper net60Windows net80 m) ∧
      net60Windows.merge net60Android =
        .error ⟨net60Windows, net60Android⟩ := by
  intro net60Windows net80 net60Android
  have hWindows : net60Windows.IsRead :=
    ⟨"net6.0-windows10.0.17763.0", Or.inl (by decide)⟩
  have hNet80 : net80.IsRead := ⟨"net8.0", Or.inl (by decide)⟩
  have hAndroid : net60Android.IsRead :=
    ⟨"net6.0-android", Or.inl (by decide)⟩
  have hAgrees : net60Windows.Agrees net80 := by decide
  have hUsed :
      net80.withoutPlatform.consumes
        net60Windows.withoutPlatform = true := by decide
  refine
    ⟨hWindows, hNet80, hAndroid, hAgrees, hUsed,
      (merge_least_upper hWindows hNet80).1 hAgrees
        (Or.inr hUsed), ?_⟩
  apply ((merge_least_upper hWindows hAndroid).2 _).mpr
  exact ⟨rfl, "windows", "android", rfl, rfl, by decide⟩

end Retarget.Moniker
