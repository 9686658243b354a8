import Retarget.Proofs.Package.Bounds

/-
  This file shows which ranges hold a version.  There is a
  first version, and next to each version but the last one
  comes another: a prerelease is followed by the one with a
  further zero in its label, and any other version by the
  first prerelease of the next numbers.  So a range is empty
  exactly if its bounds leave no room.

  Key definitions include:
    * `PackageVersion.lowest`
    * `PackageVersion.next?`
    * `PackageVersion.IsNext`
    * `VersionRange.first?`
    * `VersionRange.isEmpty`

  Key statements include:
    * `PackageVersion.isNextNumbers_of_nextNumbers?`
    * `PackageVersion.isNext_of_next?`
    * `PackageVersion.le_of_next?_eq_none`
    * `VersionRange.exists_satisfies_iff`
    * `VersionRange.satisfiable_iff`
-/

namespace Retarget

namespace PackageVersion

variable {u v w : PackageVersion}
variable {a b : String}
variable {ns ms ks : List Nat}

------------------------------------------------------------
-- The next numbers
------------------------------------------------------------

/-
  Count up the last number that can be counted up, and start
  again from zero behind it.
-/
def nextNumbers? : List Nat → Option (List Nat)
  | [] => none
  | n :: rest =>
    match nextNumbers? rest with
    | some later => some (n :: later)
    | none =>
      if n + 1 < UInt64.size then
        some ((n + 1) :: List.replicate rest.length 0)
      else none

/- Numbers that cannot be counted up are the last ones. -/
theorem isLE_of_nextNumbers?_eq_none
    (h : nextNumbers? ns = none)
    (hLength : ks.length = ns.length)
    (hBounded : ∀ k ∈ ks, k < UInt64.size) :
    (List.compareLex compare ks ns).isLE = true := by
  induction ns generalizing ks with
  | nil =>
      rw [List.length_eq_zero_iff.mp hLength]
      rfl
  | cons n rest ih =>
      cases ks with
      | nil => cases hLength
      | cons k more =>
          rcases List.forall_mem_cons.mp hBounded with ⟨hFirst, hMore⟩
          rw [nextNumbers?] at h
          split at h
          · cases h
          · next hRest =>
              split at h
              · cases h
              · next hLast =>
                  rw [List.compareLex_cons_cons, Ordering.isLE_then_iff_and,
                    Nat.isLE_compare]
                  have hLe : k ≤ n := by omega
                  exact ⟨hLe, Or.inr (ih hRest (by simpa using hLength) hMore)⟩

/- Of the numbers after the given ones these come first. -/
structure IsNextNumbers (ns ms : List Nat) : Prop where
  length_eq : ms.length = ns.length
  bounded : ∀ m ∈ ms, m < UInt64.size
  less : List.compareLex compare ns ms = .lt
  least : ∀ ks : List Nat, ks.length = ns.length →
    (∀ k ∈ ks, k < UInt64.size) → List.compareLex compare ns ks = .lt →
    (List.compareLex compare ms ks).isLE = true

theorem IsNextNumbers.cons
    {n : Nat}
    (hFirst : n < UInt64.size)
    (h : IsNextNumbers ns ms) :
    IsNextNumbers (n :: ns) (n :: ms) where
  length_eq := by simp [h.length_eq]
  bounded := List.forall_mem_cons.mpr ⟨hFirst, h.bounded⟩
  less := by
    rw [List.compareLex_cons_cons, Nat.compare_eq_eq.mpr rfl, Ordering.eq_then]
    exact h.less
  least := by
    intro ks hLength hBounded hLess
    cases ks with
    | nil => cases hLength
    | cons k more =>
        rw [List.compareLex_cons_cons] at hLess ⊢
        cases hOrder : compare n k with
        | lt => rfl
        | eq =>
            rw [hOrder, Ordering.eq_then] at hLess
            rw [Ordering.eq_then]
            exact h.least more (by simpa using hLength)
              (List.forall_mem_cons.mp hBounded).2 hLess
        | gt =>
            rw [hOrder] at hLess
            cases hLess

/- A number is counted up where the numbers behind it are the last ones. -/
theorem isNextNumbers_succ
    {n : Nat}
    (hLast : nextNumbers? ns = none)
    (hNext : n + 1 < UInt64.size) :
    IsNextNumbers (n :: ns) ((n + 1) :: List.replicate ns.length 0) where
  length_eq := by simp
  bounded := by
    refine List.forall_mem_cons.mpr ⟨hNext, fun m hm => ?_⟩
    rw [List.eq_of_mem_replicate hm]
    decide
  less := by
    rw [List.compareLex_cons_cons, Nat.compare_eq_lt.mpr (Nat.lt_succ_self n)]
    rfl
  least := by
    intro ks hLength hBounded hLess
    cases ks with
    | nil => cases hLength
    | cons k more =>
        have hMore : more.length = ns.length := by simpa using hLength
        have hRest := isLE_of_nextNumbers?_eq_none hLast hMore
          (List.forall_mem_cons.mp hBounded).2
        have hFirst : n < k := by
          rw [List.compareLex_cons_cons] at hLess
          cases hOrder : compare n k with
          | lt => exact Nat.compare_eq_lt.mp hOrder
          | eq =>
              rw [hOrder, Ordering.eq_then] at hLess
              rw [Std.OrientedCmp.gt_of_lt hLess] at hRest
              cases hRest
          | gt =>
              rw [hOrder] at hLess
              cases hLess
        rw [List.compareLex_cons_cons, Ordering.isLE_then_iff_and,
          Nat.isLE_compare, ← hMore]
        exact ⟨hFirst, Or.inr (compareLex_replicate_zero more)⟩

theorem isNextNumbers_of_nextNumbers?
    (hBounded : ∀ n ∈ ns, n < UInt64.size)
    (h : nextNumbers? ns = some ms) :
    IsNextNumbers ns ms := by
  induction ns generalizing ms with
  | nil => cases h
  | cons n rest ih =>
      rcases List.forall_mem_cons.mp hBounded with ⟨hFirst, hRest⟩
      rw [nextNumbers?] at h
      split at h
      · next hLater =>
          cases h
          exact (ih hRest hLater).cons hFirst
      · next hLast =>
          split at h
          · next hNext =>
              cases h
              exact isNextNumbers_succ hLast hNext
          · cases h

------------------------------------------------------------
-- The next label
------------------------------------------------------------

theorem splitAt_dotZero
    (a : String) :
    Text.splitAt '.' (a ++ ".0") = Text.splitAt '.' a ++ ["0"] := by
  have hText : a ++ ".0" = a ++ "." ++ "0" := by
    rw [String.append_assoc]
    rfl
  rw [hText, Text.splitAt_concat (by decide)]

theorem isLabel_dotZero
    (h : isLabel a = true) :
    isLabel (a ++ ".0") = true := by
  rw [isLabel, splitAt_dotZero, List.all_append, Bool.and_eq_true]
  exact ⟨h, by decide⟩

theorem labelOrder_dotZero
    (a : String) :
    labelOrder a (a ++ ".0") = .lt := by
  have hMore : List.compareLex identifierOrder
      (Text.splitAt '.' a ++ []) (Text.splitAt '.' a ++ ["0"]) = .lt := by
    rw [compareLex_append_left]
    rfl
  rwa [List.append_nil, ← splitAt_dotZero] at hMore

/- A zero comes before everything else that can follow. -/
theorem isLE_compareLex_concat_zero
    {as bs : List String}
    (h : List.compareLex identifierOrder as bs = .lt) :
    (List.compareLex identifierOrder (as ++ ["0"]) bs).isLE = true := by
  induction as generalizing bs with
  | nil =>
      cases bs with
      | nil => cases h
      | cons b rest => exact compareLex_concat [] rest (identifierOrder_zero b)
  | cons a as ih =>
      cases bs with
      | nil => cases h
      | cons b rest =>
          rw [List.compareLex_cons_cons] at h
          rw [List.cons_append, List.compareLex_cons_cons]
          cases hOrder : identifierOrder a b with
          | lt => rfl
          | eq =>
              rw [hOrder, Ordering.eq_then] at h
              rw [Ordering.eq_then]
              exact ih h
          | gt =>
              rw [hOrder] at h
              cases h

theorem labelOrder_dotZero_le
    (h : labelOrder a b = .lt) :
    (labelOrder (a ++ ".0") b).isLE = true := by
  rw [labelOrder, splitAt_dotZero]
  exact isLE_compareLex_concat_zero h

/- A label follows the lowest one, or none does. -/
theorem labelsOrder_zero
    (label : Option String) :
    (labelsOrder (some "0") label).isLE = true := by
  cases label with
  | none => rfl
  | some a => exact labelOrder_zero a

------------------------------------------------------------
-- The next version
------------------------------------------------------------

def lowest : PackageVersion :=
  ⟨0, 0, 0, 0, some "0"⟩

/- The version right after another one, unless that is the last. -/
def next? (v : PackageVersion) : Option PackageVersion :=
  match v.label with
  | some label => some (v.withLabel (label ++ ".0"))
  | none =>
    match nextNumbers? v.numbers with
    | some [a, b, c, d] => some ⟨a, b, c, d, some "0"⟩
    | _ => none

theorem isWritten_lowest :
    lowest.IsWritten := by
  have hRead : parse? "0-0" = some lowest := by decide
  exact .of_parse? hRead

theorem lowest_le
    (w : PackageVersion) :
    lowest.le w = true := by
  rw [le_iff_isLE, order, Ordering.isLE_then_iff_and]
  exact ⟨compareLex_replicate_zero w.numbers, Or.inr (labelsOrder_zero w.label)⟩

theorem order_eq_lt_iff :
    v.order w = .lt ↔
      List.compareLex compare v.numbers w.numbers = .lt ∨
        v.numbers = w.numbers ∧ labelsOrder v.label w.label = .lt := by
  rw [order, Ordering.then_eq_lt]
  exact or_congr_right (and_congr_left' Std.LawfulEqCmp.compare_eq_iff_eq)

/- Of the versions after the given one this comes first. -/
structure IsNext (v u : PackageVersion) : Prop where
  isWritten : u.IsWritten
  less : v.lt u = true
  least : ∀ w, w.IsWritten → v.lt w = true → u.le w = true

theorem isNext_withLabel
    (hWritten : v.IsWritten)
    (hLabel : v.label = some a) :
    v.IsNext (v.withLabel (a ++ ".0")) := by
  have hSome : a ++ ".0" ≠ "" := by simp
  have hNext := v.withLabel_label hSome
  have hNumbers := v.withLabel_numbers (a ++ ".0")
  have hValid : isLabel a = true := by
    simpa [hLabel] using hWritten.labelled
  refine ⟨⟨?_, ?_⟩, ?_, fun w _ hLess => ?_⟩
  · rw [hNumbers]
    exact hWritten.bounded
  · rw [hNext]
    exact isLabel_dotZero hValid
  · rw [lt_iff, order_eq_lt_iff, hNumbers, hNext, hLabel]
    exact Or.inr ⟨rfl, labelOrder_dotZero a⟩
  · rw [lt_iff, order_eq_lt_iff, hLabel] at hLess
    rcases hLess with hLess | ⟨hSame, hLess⟩
    · rw [le_iff_isLE, order, hNumbers, hLess]
      rfl
    · refine le_of_numbers_eq (hNumbers.trans hSame) ?_
      rw [hNext]
      cases hOther : w.label with
      | none => rfl
      | some b =>
          rw [hOther] at hLess
          exact labelOrder_dotZero_le hLess

theorem isNext_of_numbers
    (hLabel : v.label = none)
    (h : IsNextNumbers v.numbers u.numbers)
    (hZero : u.label = some "0") :
    v.IsNext u := by
  refine ⟨⟨h.bounded, ?_⟩, ?_, fun w hw hLess => ?_⟩
  · rw [hZero]
    decide
  · rw [lt_iff, order_eq_lt_iff]
    exact Or.inl h.less
  · rw [lt_iff, order_eq_lt_iff, hLabel] at hLess
    -- Nothing with the same numbers comes after a version without a label.
    have hNumbers : List.compareLex compare v.numbers w.numbers = .lt := by
      rcases hLess with hLess | ⟨-, hLess⟩
      · exact hLess
      · cases hOther : w.label <;> rw [hOther] at hLess <;> cases hLess
    rw [le_iff_isLE, order, Ordering.isLE_then_iff_and, hZero]
    exact ⟨h.least w.numbers rfl hw.bounded hNumbers,
      Or.inr (labelsOrder_zero w.label)⟩

theorem isNext_of_next?
    (hWritten : v.IsWritten)
    (h : v.next? = some u) :
    v.IsNext u := by
  unfold next? at h
  split at h
  · next hLabel =>
      cases h
      exact isNext_withLabel hWritten hLabel
  · next hLabel =>
      split at h
      · next hNumbers =>
          cases h
          exact isNext_of_numbers hLabel
            (isNextNumbers_of_nextNumbers? hWritten.bounded hNumbers) rfl
      · cases h

/- Only the last version is not followed by another one. -/
theorem le_of_next?_eq_none
    (hWritten : v.IsWritten)
    (h : v.next? = none)
    (hOther : w.IsWritten) :
    w.le v = true := by
  unfold next? at h
  split at h
  · cases h
  · next hLabel =>
      have hNone : nextNumbers? v.numbers = none := by
        refine Option.eq_none_iff_forall_ne_some.mpr fun ms hms => ?_
        have hFour :=
          (isNextNumbers_of_nextNumbers? hWritten.bounded hms).length_eq
        rw [hms] at h
        rcases ms with _ | ⟨a, _ | ⟨b, _ | ⟨c, _ | ⟨d, _ | ⟨e, rest⟩⟩⟩⟩⟩
        case cons.cons.cons.cons.nil => cases h
        all_goals simp [numbers] at hFour
      rw [le_iff_isLE, order, Ordering.isLE_then_iff_and, hLabel]
      refine ⟨isLE_of_nextNumbers?_eq_none hNone rfl hOther.bounded, Or.inr ?_⟩
      cases w.label <;> rfl

end PackageVersion

namespace VersionRange

variable {r : VersionRange}
variable {u v w : PackageVersion}
variable {text : String}

------------------------------------------------------------
-- The first version of a range
------------------------------------------------------------

def isAboveMin (r : VersionRange) (v : PackageVersion) : Bool :=
  r.min.all fun w => if r.isMinInclusive then w.le v else w.lt v

def isBelowMax (r : VersionRange) (v : PackageVersion) : Bool :=
  r.max.all fun w => if r.isMaxInclusive then v.le w else v.lt w

theorem satisfies_eq
    (r : VersionRange)
    (v : PackageVersion) :
    r.satisfies v = (r.isAboveMin v && r.isBelowMax v) :=
  rfl

/- Of the versions above the lower bound this comes first. -/
def first? (r : VersionRange) : Option PackageVersion :=
  match r.min with
  | none => some .lowest
  | some v => if r.isMinInclusive then some v else v.next?

theorem isAboveMin_iff
    (hMin : ∀ v ∈ r.min, v.IsWritten)
    (hWritten : w.IsWritten) :
    r.isAboveMin w = true ↔ ∃ u, r.first? = some u ∧ u.le w = true := by
  rw [isAboveMin, first?]
  cases hSome : r.min with
  | none => simp [PackageVersion.lowest_le]
  | some v =>
      have hBound := hMin v hSome
      cases r.isMinInclusive with
      | true => simp
      | false =>
          simp only [Option.all_some, Bool.false_eq_true, if_false]
          constructor
          · intro hLess
            cases hNext : v.next? with
            | some u =>
                exact ⟨u, rfl, (PackageVersion.isNext_of_next? hBound hNext).least
                  w hWritten hLess⟩
            | none =>
                have hLe := PackageVersion.le_of_next?_eq_none hBound hNext
                  hWritten
                have hSelf := PackageVersion.lt_of_lt_of_le hLess hLe
                rw [PackageVersion.lt_iff_le_and_same, PackageVersion.same_iff.mpr
                  Std.ReflCmp.compare_self] at hSelf
                cases hSelf.2
          · rintro ⟨u, hNext, hLe⟩
            exact PackageVersion.lt_of_lt_of_le
              (PackageVersion.isNext_of_next? hBound hNext).less hLe

theorem isWritten_of_first?
    (hMin : ∀ v ∈ r.min, v.IsWritten)
    (h : r.first? = some u) :
    u.IsWritten := by
  rw [first?] at h
  split at h
  · cases h
    exact PackageVersion.isWritten_lowest
  · next v hSome =>
      split at h
      · cases h
        exact hMin _ hSome
      · exact (PackageVersion.isNext_of_next? (hMin v hSome) h).isWritten

theorem isBelowMax_of_le
    (hLe : u.le w = true)
    (h : r.isBelowMax w = true) :
    r.isBelowMax u = true := by
  rw [isBelowMax] at h ⊢
  cases hSome : r.max with
  | none => rfl
  | some x =>
      rw [hSome, Option.all_some] at h
      rw [Option.all_some]
      cases hInclusive : r.isMaxInclusive with
      | true =>
          rw [hInclusive] at h
          exact PackageVersion.le_trans hLe h
      | false =>
          rw [hInclusive] at h
          exact PackageVersion.lt_of_le_of_lt hLe h

/- A range holds a version if it holds the first one it could hold. -/
theorem exists_satisfies_iff
    (hMin : ∀ v ∈ r.min, v.IsWritten) :
    (∃ w, w.IsWritten ∧ r.satisfies w = true) ↔
      ∃ u, r.first? = some u ∧ r.isBelowMax u = true := by
  simp only [satisfies_eq, Bool.and_eq_true]
  constructor
  · rintro ⟨w, hWritten, hAbove, hBelow⟩
    rcases (isAboveMin_iff hMin hWritten).mp hAbove with ⟨u, hFirst, hLe⟩
    exact ⟨u, hFirst, isBelowMax_of_le hLe hBelow⟩
  · rintro ⟨u, hFirst, hBelow⟩
    have hWritten := isWritten_of_first? hMin hFirst
    exact ⟨u, hWritten, (isAboveMin_iff hMin hWritten).mpr
      ⟨u, hFirst, PackageVersion.le_refl u⟩, hBelow⟩

------------------------------------------------------------
-- Empty ranges
------------------------------------------------------------

/-
  The bounds of a range leave no room.  They are the same and
  one of them is excluded, or both are excluded and nothing
  comes between them, or nothing comes before the first or
  after the last version.
-/
def isEmpty (r : VersionRange) : Bool :=
  match r.min, r.max with
  | none, none => false
  | none, some w => !r.isMaxInclusive && w.same .lowest
  | some v, none => !r.isMinInclusive && v.next?.isNone
  | some v, some w =>
    !(r.isMinInclusive && r.isMaxInclusive) && v.same w ||
      !(r.isMinInclusive || r.isMaxInclusive) && v.next?.any w.same

theorem exists_first?_iff_of_above
    {v : PackageVersion}
    (hMin : r.min = some v)
    (hMax : r.max = none) :
    (∃ u, r.first? = some u ∧ r.isBelowMax u = true) ↔ r.isEmpty = false := by
  simp only [isBelowMax, isEmpty, first?, hMin, hMax, Option.all_none,
    and_true]
  cases r.isMinInclusive with
  | true => simp
  | false => simp [← Option.isSome_iff_exists, Option.isSome_iff_ne_none]

theorem exists_first?_iff_of_below
    {w : PackageVersion}
    (hMin : r.min = none)
    (hMax : r.max = some w) :
    (∃ u, r.first? = some u ∧ r.isBelowMax u = true) ↔ r.isEmpty = false := by
  simp only [isBelowMax, isEmpty, first?, hMin, hMax, Option.all_some,
    Option.some.injEq, exists_eq_left']
  cases r.isMaxInclusive with
  | true => simp [PackageVersion.lowest_le]
  | false =>
      simp [PackageVersion.lt_iff_le_and_same, PackageVersion.lowest_le,
        PackageVersion.same_comm w]

/- Between two bounds there is the one after the first bound, or nothing. -/
theorem exists_first?_iff_of_between
    {v w : PackageVersion}
    (hFirst : v.IsWritten)
    (hLast : w.IsWritten)
    (hMin : r.min = some v)
    (hMax : r.max = some w)
    (hOrder : v.le w = true) :
    (∃ u, r.first? = some u ∧ r.isBelowMax u = true) ↔ r.isEmpty = false := by
  simp only [isBelowMax, isEmpty, first?, hMin, hMax, Option.all_some]
  have hLess : v.lt w = true ↔ v.same w = false := by
    rw [PackageVersion.lt_iff_le_and_same, hOrder]
    simp
  cases r.isMinInclusive with
  | true =>
      cases r.isMaxInclusive with
      | true => simp [hOrder]
      | false => simp [hLess]
  | false =>
      cases hNext : v.next? with
      | none =>
          have hSame : v.same w = true := PackageVersion.same_iff_le.mpr
            ⟨hOrder, PackageVersion.le_of_next?_eq_none hFirst hNext hLast⟩
          simp [hSame]
      | some u =>
          have h := PackageVersion.isNext_of_next? hFirst hNext
          have hAfter : u.le w = true ↔ v.same w = false := by
            rw [← hLess]
            exact ⟨PackageVersion.lt_of_lt_of_le h.less, h.least w hLast⟩
          cases r.isMaxInclusive with
          | true => simp [hAfter]
          | false =>
              simp [PackageVersion.lt_iff_le_and_same, hAfter,
                PackageVersion.same_comm w]

/- A range that is read holds a version unless its bounds leave no room. -/
theorem satisfiable_iff
    (h : parse? text = some r) :
    (∃ s v, PackageVersion.parse? s = some v ∧ r.satisfies v = true) ↔
      r.isEmpty = false := by
  have hVersions : (∃ s v, PackageVersion.parse? s = some v ∧
      r.satisfies v = true) ↔ ∃ w, w.IsWritten ∧ r.satisfies w = true := by
    constructor
    · rintro ⟨s, v, hRead, hHolds⟩
      exact ⟨v, .of_parse? hRead, hHolds⟩
    · rintro ⟨w, hWritten, hHolds⟩
      exact ⟨w.text, w, hWritten.parse?_text, hHolds⟩
  rw [hVersions]
  cases isRead_of_parse? h with
  | @bounds min max _ _ hMin hMax hBounds =>
      rw [exists_satisfies_iff hMin]
      cases min with
      | none =>
          cases max with
          | none => cases hBounds
          | some w => exact exists_first?_iff_of_below rfl rfl
      | some v =>
          cases max with
          | none => exact exists_first?_iff_of_above rfl rfl
          | some w =>
              exact exists_first?_iff_of_between (hMin v rfl) (hMax w rfl) rfl
                rfl hBounds
  | number hWritten =>
      refine iff_of_true ⟨_, hWritten, ?_⟩ rfl
      rw [satisfies_floating]
      exact PackageVersion.le_refl _
  | @prerelease digits start base _ hHyphen hBase =>
      -- The floor need not be a version, and the base comes after it.
      refine iff_of_true ⟨base, .of_parse? hBase, ?_⟩ rfl
      rw [satisfies_floating]
      refine PackageVersion.le_of_numbers_eq
        (prereleaseFloor_numbers base start) ?_
      rw [PackageVersion.label_eq_none_of_parse? hHyphen hBase]
      cases (prereleaseFloor base start).label <;> rfl

/- Between a label and the same one with a zero more there is nothing. -/
theorem satisfiable_iff_of_adjacent :
    let first : PackageVersion := ⟨1, 0, 0, 0, some "a"⟩
    let last : PackageVersion := ⟨1, 0, 0, 0, some "A.00"⟩
    let between : VersionRange :=
      ⟨some first, false, some last, false, none, "(1.0-a,1.0-A.00)"⟩
    let upTo : VersionRange :=
      ⟨some first, false, some last, true, none, "(1.0-a,1.0-A.00]"⟩
    parse? "(1.0-a,1.0-A.00)" = some between ∧
      (¬∃ s v, PackageVersion.parse? s = some v ∧
        between.satisfies v = true) ∧
      parse? "(1.0-a,1.0-A.00]" = some upTo ∧
      ∃ s v, PackageVersion.parse? s = some v ∧
        upTo.satisfies v = true := by
  intro first last between upTo
  have hBetween : parse? "(1.0-a,1.0-A.00)" = some between := by
    decide +kernel
  have hUpTo : parse? "(1.0-a,1.0-A.00]" = some upTo := by
    decide +kernel
  refine ⟨hBetween, ?_, hUpTo, ?_⟩
  · rw [satisfiable_iff hBetween]
    decide +kernel
  · rw [satisfiable_iff hUpTo]
    decide +kernel

/- A single version between its own bounds, both of them excluded. -/
theorem not_satisfiable_between_equals :
    let bound : PackageVersion := .ofNumbers 1 0 0 0
    let range : VersionRange :=
      ⟨some bound, false, some bound, false, none, "(1.0,1.0)"⟩
    parse? "(1.0,1.0)" = some range ∧
      ∀ s v, PackageVersion.parse? s = some v →
        range.satisfies v = false := by
  intro bound range
  refine ⟨by decide +kernel, fun s v _ => ?_⟩
  rw [satisfies_eq, Bool.and_eq_false_iff]
  cases hAbove : range.isAboveMin v with
  | false => exact Or.inl rfl
  | true =>
      have hAfter : bound.lt v = true := hAbove
      rw [PackageVersion.lt_iff_le_and_same] at hAfter
      refine Or.inr (Bool.eq_false_iff.mpr fun hBelow => ?_)
      have hBefore : v.lt bound = true := hBelow
      rw [PackageVersion.lt_iff_le_and_same] at hBefore
      have hSame := PackageVersion.same_iff_le.mpr ⟨hAfter.1, hBefore.1⟩
      rw [hAfter.2] at hSame
      cases hSame

end VersionRange

end Retarget
