import Retarget.Proofs.Framework.Compare

/-
  This file shows how .NET Standard and .NET Framework
  compare.  A .NET Standard is always less, but a .NET
  Framework is the greater one only over the standards that
  it implements: a table tells the first framework for each
  of four standards.

  Key definitions include:
    * `StandardSupport`
    * `Moniker.standardSupport`
    * `Moniker.Implements`

  Key statements include:
    * `Moniker.maxNetStandard?_eq_find?`
    * `Moniker.consumes_netStandard_iff`
    * `Moniker.compare_netStandard_netFramework`
-/

namespace Retarget

/- The first .NET Framework that implements a .NET Standard. -/
structure StandardSupport where
  standard : FrameworkVersion
  since : FrameworkVersion
  deriving Repr, DecidableEq

namespace Moniker

variable {f s : Moniker}
variable {row other : StandardSupport}

------------------------------------------------------------
-- Support of standards
------------------------------------------------------------

/- The standards that get a first framework, the highest one first. -/
def standardSupport : List StandardSupport :=
  [⟨.ofPair 2 0, ⟨4, 6, 1, 0, 3⟩⟩,
   ⟨.ofPair 1 3, .ofPair 4 6⟩,
   ⟨.ofPair 1 2, ⟨4, 5, 1, 0, 3⟩⟩,
   ⟨.ofPair 1 1, .ofPair 4 5⟩]

/-
  A .NET Framework implements a .NET Standard that is not
  above one whose first framework it has reached.
-/
def Implements (f s : Moniker) : Prop :=
  ∃ row ∈ standardSupport,
    row.since.le f.version = true ∧ s.version.le row.standard = true

instance (f s : Moniker) : Decidable (f.Implements s) :=
  inferInstanceAs (Decidable (∃ row ∈ standardSupport,
    row.since.le f.version = true ∧ s.version.le row.standard = true))

theorem isNetFramework_iff :
    f.isNetFramework = true ↔ f.family = .netFramework := by
  simp [isNetFramework]

theorem standardSupport_descends :
    standardSupport.Pairwise fun row other =>
      other.standard.le row.standard = true := by
  decide

theorem maxNetStandard?_eq_find?
    (hf : f.isNetFramework = true) :
    f.maxNetStandard? =
      (standardSupport.find? fun row => row.since.le f.version).map
        StandardSupport.standard := by
  unfold maxNetStandard?
  rw [isNetFramework_iff.mp hf]
  -- How many numbers were written does not count in the order.
  have hPair : ∀ a b : Nat,
      (⟨a, b, 0, 0, 3⟩ : FrameworkVersion).le f.version =
        (FrameworkVersion.ofPair a b).le f.version :=
    fun _ _ => rfl
  simp only [standardSupport, List.find?_cons, List.find?_nil, hPair]
  cases (⟨4, 6, 1, 0, 3⟩ : FrameworkVersion).le f.version <;>
    cases (FrameworkVersion.ofPair 4 6).le f.version <;>
      cases (⟨4, 5, 1, 0, 3⟩ : FrameworkVersion).le f.version <;>
        cases (FrameworkVersion.ofPair 4 5).le f.version <;> rfl

/- The first standard that is found is the highest one. -/
theorem standard_le_of_find?
    (hFound :
      (standardSupport.find? fun row => row.since.le f.version) = some row)
    (hOther : other ∈ standardSupport)
    (hReached : other.since.le f.version = true) :
    other.standard.le row.standard = true := by
  obtain ⟨-, above, below, hSplit, hAbove⟩ :=
    List.find?_eq_some_iff_append.mp hFound
  have hDescends := standardSupport_descends
  rw [hSplit] at hOther hDescends
  rcases List.mem_append.mp hOther with hMissed | hRest
  · have hNot := hAbove other hMissed
    rw [hReached] at hNot
    cases hNot
  · rcases List.mem_cons.mp hRest with rfl | hBelow
    · exact FrameworkVersion.le_refl _
    · exact (List.pairwise_cons.mp
        (List.pairwise_append.mp hDescends).2.1).1 other hBelow

theorem consumes_netStandard_iff
    (hf : f.isNetFramework = true)
    (hs : s.isNetStandard = true) :
    f.consumes s = true ↔ f.Implements s := by
  have hUses : f.consumes s =
      f.maxNetStandard?.any fun v => s.version.le v := by
    simp [consumes, consumes.implements, isNetFramework_iff.mp hf,
      isNetStandard_iff.mp hs]
  rw [hUses, maxNetStandard?_eq_find? hf, Option.any_map]
  constructor
  · intro h
    rcases (Option.any_eq_true _ _).mp h with ⟨row, hFound, hLe⟩
    exact ⟨row, List.mem_of_find?_eq_some hFound,
      by simpa using List.find?_some hFound, hLe⟩
  · rintro ⟨other, hOther, hReached, hLe⟩
    cases hFound : standardSupport.find? fun row => row.since.le f.version with
    | none =>
        have hMissed := List.find?_eq_none.mp hFound other hOther
        exact absurd hReached hMissed
    | some row =>
        exact FrameworkVersion.le_trans hLe
          (standard_le_of_find? hFound hOther hReached)

------------------------------------------------------------
-- Comparing
------------------------------------------------------------

/- No .NET Standard can use a .NET Framework. -/
theorem consumes_eq_false_of_netStandard_netFramework
    (hs : s.isNetStandard = true)
    (hf : f.isNetFramework = true) :
    s.consumes f = false := by
  simp [consumes, isNetFramework_iff.mp hf, isNetStandard_iff.mp hs]

/-
  A .NET Standard is less than every .NET Framework.  The
  other way round the .NET Framework is the greater one if it
  implements the standard, and else it is less as well.
-/
theorem compare_netStandard_netFramework
    (hs : s.isNetStandard = true)
    (hf : f.isNetFramework = true) :
    s.compare f = .lt ∧
      (f.compare s = .gt ↔ f.Implements s) ∧
      (f.compare s = .lt ↔ ¬ f.Implements s) := by
  have hNever := consumes_eq_false_of_netStandard_netFramework hs hf
  rw [← consumes_netStandard_iff hf hs]
  refine ⟨?_, ?_, ?_⟩
  · rw [compare_eq, hNever]
    rfl
  · rw [compare_eq_gt_iff, hNever]
    simp
  · rw [compare_eq, hNever]
    cases f.consumes s <;> simp

/-
  The .NET Framework 4.8 is greater than .NET Standard 2.0
  and less than 2.1, and 4.0 is less than all standards.
-/
theorem compare_netStandard_netFramework_of_net48 :
    let net48 : Moniker := .ofFamily .netFramework (.ofPair 4 8)
    let net40 : Moniker := .ofFamily .netFramework (.ofPair 4 0)
    let netStandard10 : Moniker := .ofFamily .netStandard (.ofPair 1 0)
    parse? "net48" = some net48 ∧
      parse? "net40" = some net40 ∧
      parse? "netstandard2.0" = some netStandard20 ∧
      parse? "netstandard2.1" = some netStandard21 ∧
      parse? "netstandard1.0" = some netStandard10 ∧
      netStandard20.compare net48 = .lt ∧
      net48.compare netStandard20 = .gt ∧
      netStandard21.compare net48 = .lt ∧
      net48.compare netStandard21 = .lt ∧
      netStandard10.compare net40 = .lt ∧
      net40.compare netStandard10 = .lt := by
  intro net48 net40 netStandard10
  obtain ⟨hBelow20, hAbove20, -⟩ :=
    compare_netStandard_netFramework (s := netStandard20) (f := net48) rfl rfl
  obtain ⟨hBelow21, -, hLess21⟩ :=
    compare_netStandard_netFramework (s := netStandard21) (f := net48) rfl rfl
  obtain ⟨hBelow10, -, hLess10⟩ :=
    compare_netStandard_netFramework (s := netStandard10) (f := net40) rfl rfl
  refine ⟨by decide, by decide, by decide, by decide, by decide,
    hBelow20, hAbove20.mpr ?_, hBelow21, hLess21.mpr ?_, hBelow10,
    hLess10.mpr ?_⟩ <;> decide

/- Two frameworks of the two families can each be less than the other. -/
theorem not_forall_netFramework_gt :
    ¬ ∀ s f : Moniker, s.IsRead → f.IsRead →
      s.isNetStandard = true → f.isNetFramework = true →
        s.compare f = .lt ∧ f.compare s = .gt := by
  intro h
  let net48 : Moniker := .ofFamily .netFramework (.ofPair 4 8)
  have hRead21 : netStandard21.IsRead :=
    ⟨"netstandard2.1", Or.inl (by decide)⟩
  have hRead48 : net48.IsRead := ⟨"net48", Or.inl (by decide)⟩
  have hGreater := (h netStandard21 net48 hRead21 hRead48 rfl rfl).2
  have hLess : net48.compare netStandard21 = .lt := by decide
  rw [hLess] at hGreater
  cases hGreater

end Moniker

end Retarget
