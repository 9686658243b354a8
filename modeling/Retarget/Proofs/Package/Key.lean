import Retarget.Proofs.Package.Order
import Retarget.Proofs.Package.Precedence
import Retarget.Proofs.Text.Fold

/-
  This file compares versions that are the same with versions
  that have the same key.  The order reads an identifier as a
  number where it can, and the key keeps its digits, so two
  numerals of one number are told apart by the key alone.

  Key definitions include:
    * `PackageVersion.identifiers`
    * `PackageVersion.respelled`

  Key statements include:
    * `PackageVersion.lower_eq_iff_of_isIdentifier`
    * `PackageVersion.lower_eq_iff_of_isLabel`
    * `PackageVersion.key_eq_iff_same`
-/

namespace Retarget.PackageVersion

variable {v w : PackageVersion}
variable {a b s t : String}
variable {as bs : List String}

/- What the label of a version consists of; nothing without one. -/
def identifiers (v : PackageVersion) : List String :=
  v.label.elim [] (Text.splitAt '.')

/- Two numerals of one number of 64 bits, with other leading zeros. -/
def respelled (a b : String) : Bool :=
  isShort a && numeral? a == numeral? b && a != b

------------------------------------------------------------
-- Identifiers
------------------------------------------------------------

/- A numeral has no letters. -/
theorem lower_eq_self_of_isShort
    (h : isShort s = true) :
    Text.lower s = s := by
  have hDigit : ∀ c ∈ s.toList, 48 ≤ c.toNat ∧ c.toNat ≤ 57 := by
    intro c hc
    rw [isShort, numeral?] at h
    split at h
    · next hDigits =>
        exact Numeral.isAsciiDigit_iff.mp (List.all_eq_true.mp hDigits c hc)
    · cases h
  refine Text.lower_eq_self_of_ascii (fun c hc => ?_) (fun c hc => ?_)
  · have hRange := hDigit c hc
    omega
  · have hRange := hDigit c hc
    rw [Bool.eq_false_iff, ne_eq, Text.isAsciiUpper_iff]
    omega

/- Only a number is of equal rank with a number. -/
theorem numeral?_eq_of_order_eq
    (ha : IsIdentifier a)
    (hb : IsIdentifier b)
    (h : identifierOrder a b = .eq) :
    numeral? a = numeral? b := by
  have hRank := identifierPrecedence_of_order_eq ha hb h
  rw [identifierPrecedence] at hRank
  cases hm : numeral? a with
  | none =>
      cases hn : numeral? b with
      | none => rfl
      | some n =>
          rw [hm, hn] at hRank
          cases hRank
  | some m =>
      cases hn : numeral? b with
      | none =>
          rw [hm, hn] at hRank
          cases hRank
      | some n =>
          rw [hm, hn] at hRank
          rw [Nat.compare_eq_eq.mp hRank]

/-
  Identifiers have the same lower-case form if the order does
  not tell them apart, unless they are numerals of one number.
-/
theorem lower_eq_iff_of_isIdentifier
    (ha : IsIdentifier a)
    (hb : IsIdentifier b) :
    Text.lower a = Text.lower b ↔
      identifierOrder a b = .eq ∧ respelled a b = false := by
  by_cases hNumber : numeral? a = numeral? b
  · have hOrder := identifierOrder_eq_ite ha hb
    have hAlike : isShort a = isShort b := by rw [isShort, hNumber, isShort]
    rw [respelled, hNumber, beq_self_eq_true, Bool.and_true]
    cases hShort : isShort a with
    | true =>
        -- Both are read as the same number, and they are their own forms.
        have hEqual : identifierOrder a b = .eq := by
          rw [hOrder, overflows, hShort, identifierPrecedence, hNumber]
          cases hn : numeral? b with
          | none => simp [isShort, hNumber, hn] at hShort
          | some n => simp
        rw [hEqual, lower_eq_self_of_isShort hShort,
          lower_eq_self_of_isShort (hAlike ▸ hShort)]
        simp
    | false =>
        have hTexts : identifierOrder a b =
            Text.order (Text.lower a) (Text.lower b) := by
          rw [hOrder, overflows, ← hAlike, hShort, identifierPrecedence, hNumber]
          cases hn : numeral? b with
          | none => simp
          | some n =>
              have hLarge : isLong b = true := by
                rw [isShort, hNumber, hn] at hShort
                rw [isLong, hn]
                simpa using hShort
              simp [hLarge]
        rw [hTexts, Dictionary.order_eq_iff]
        simp
  · constructor
    · intro hSame
      rw [← numeral?_lower ha, hSame, numeral?_lower hb] at hNumber
      exact absurd rfl hNumber
    · exact fun h => absurd (numeral?_eq_of_order_eq ha hb h.1) hNumber

theorem map_lower_eq_iff
    (has : ∀ a ∈ as, IsIdentifier a)
    (hbs : ∀ b ∈ bs, IsIdentifier b) :
    as.map Text.lower = bs.map Text.lower ↔
      List.compareLex identifierOrder as bs = .eq ∧
        ∀ p ∈ as.zip bs, respelled p.1 p.2 = false := by
  induction as generalizing bs with
  | nil => cases bs <;> simp [List.compareLex]
  | cons a as ih =>
      cases bs with
      | nil => simp [List.compareLex]
      | cons b bs =>
          rcases List.forall_mem_cons.mp has with ⟨ha, hRest⟩
          rcases List.forall_mem_cons.mp hbs with ⟨hb, hOthers⟩
          rw [List.map_cons, List.map_cons, List.cons.injEq, ih hRest hOthers,
            lower_eq_iff_of_isIdentifier ha hb, List.compareLex_cons_cons,
            List.zip_cons_cons, List.forall_mem_cons, Ordering.then_eq_eq]
          tauto

------------------------------------------------------------
-- Labels
------------------------------------------------------------

theorem isIdentifier_of_isLabel
    (h : isLabel s = true) :
    ∀ p ∈ Text.splitAt '.' s, IsIdentifier p :=
  IsWritten.isIdentifier (v := ⟨0, 0, 0, 0, some s⟩)
    ⟨by simp [numbers, UInt64.size], h⟩ rfl

theorem toNat_lt_of_isTextChar
    {c : Char}
    (h : isTextChar c = true) :
    c.toNat < 0x80 := by
  rw [isTextChar, Bool.or_eq_true, beq_iff_eq] at h
  rcases h with hLabel | rfl
  · exact toNat_lt_of_isLabelChar hLabel
  · decide

/- The lower-case form of a label is made of those of its identifiers. -/
theorem splitAt_lower
    (h : isLabel s = true) :
    Text.splitAt '.' (Text.lower s) = (Text.splitAt '.' s).map Text.lower := by
  rw [Text.lower_eq_lowerAscii fun c hc =>
      toNat_lt_of_isTextChar (isTextChar_of_mem_label h hc),
    Text.splitAt_lowerAscii (by decide)]
  refine List.map_congr_left fun p hp => (Text.lower_eq_lowerAscii ?_).symm
  intro c hc
  exact toNat_lt_of_isLabelChar ((isIdentifier_of_isLabel h p hp).isLabelChar c hc)

theorem lower_eq_iff_of_isLabel
    (ha : isLabel a = true)
    (hb : isLabel b = true) :
    Text.lower a = Text.lower b ↔
      labelOrder a b = .eq ∧
        ∀ p ∈ (Text.splitAt '.' a).zip (Text.splitAt '.' b),
          respelled p.1 p.2 = false := by
  rw [labelOrder, ← map_lower_eq_iff (isIdentifier_of_isLabel ha)
    (isIdentifier_of_isLabel hb), ← splitAt_lower ha, ← splitAt_lower hb,
    Text.splitAt_inj]

------------------------------------------------------------
-- Versions
------------------------------------------------------------

theorem order_eq_eq_iff :
    v.order w = .eq ↔
      v.numbers = w.numbers ∧ labelsOrder v.label w.label = .eq := by
  rw [order, Ordering.then_eq_eq]
  exact and_congr_left' Std.LawfulEqCmp.compare_eq_iff_eq

/-
  Of versions that were read, those that have the same key are
  the same.  Those that are the same have the same key unless
  their labels have, at some place, two numerals of one number.
-/
theorem key_eq_iff_same
    (hv : parse? s = some v)
    (hw : parse? t = some w) :
    v.key = w.key ↔
      v.same w = true ∧
        ∀ p ∈ v.identifiers.zip w.identifiers, respelled p.1 p.2 = false := by
  have hLabel := (IsWritten.of_parse? hv).labelled
  have hOther := (IsWritten.of_parse? hw).labelled
  rw [key, key, Prod.mk.injEq, same_iff, order_eq_eq_iff, and_assoc,
    identifiers, identifiers]
  refine and_congr_right' ?_
  cases ha : v.label <;> cases hb : w.label
  case some.some a b =>
    rw [ha] at hLabel
    rw [hb] at hOther
    rw [Option.map_some, Option.map_some, Option.some.injEq]
    exact lower_eq_iff_of_isLabel hLabel hOther
  all_goals simp [labelsOrder]

/- One release candidate, in small and in capital letters. -/
def candidate : PackageVersion :=
  ⟨1, 0, 0, 0, some "rc.1"⟩

def shouted : PackageVersion :=
  ⟨1, 0, 0, 0, some "RC.1"⟩

/- The same one, with a zero in front of its number. -/
def padded : PackageVersion :=
  ⟨1, 0, 0, 0, some "RC.01"⟩

theorem parse?_candidate :
    parse? "1.0-rc.1" = some candidate := by
  decide

theorem key_eq_of_candidate :
    parse? "1.0-rc.1" = some candidate ∧
    parse? "1.0.0-RC.1" = some shouted ∧
    candidate.same shouted = true ∧
    candidate.key = shouted.key := by
  have hShouted : parse? "1.0.0-RC.1" = some shouted := by
    decide
  have hSame : candidate.same shouted = true := by
    decide
  refine ⟨parse?_candidate, hShouted, hSame, ?_⟩
  exact (key_eq_iff_same parse?_candidate hShouted).mpr ⟨hSame, by decide⟩

/- The zero does not count for the order, and it counts for the key. -/
theorem key_ne_of_padded :
    parse? "1.0-rc.1" = some candidate ∧
    parse? "1.0.0-RC.01" = some padded ∧
    candidate.same padded = true ∧
    candidate.key ≠ padded.key :=
  ⟨parse?_candidate, by decide, by decide, by decide⟩

end Retarget.PackageVersion
