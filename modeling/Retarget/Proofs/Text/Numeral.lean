import Mathlib.Algebra.Group.Nat.Defs
import Retarget.Text.Numeral

/-
  This file shows which texts are read as numbers: the runs
  of digits below the limit, bare or behind one plus sign.
  So a number is read back from its decimal numeral.

  Key definitions include:
    * `Numeral.IsDigits`
    * `Numeral.behindPlus`

  Key statements include:
    * `Numeral.readDigits_eq_ok_iff`
    * `Numeral.read_eq_ok_iff`
    * `Numeral.read_toString`
    * `Numeral.isSome_read32?_iff`
    * `Numeral.read64?_eq_some_iff`
-/

namespace Retarget.Numeral

open Text

variable {limit acc n : Nat}
variable {c : Char}
variable {cs : List Char}
variable {s : String}

------------------------------------------------------------
-- Runs of digits
------------------------------------------------------------

theorem isAsciiDigit_iff :
    isAsciiDigit c = true ↔ 48 ≤ c.toNat ∧ c.toNat ≤ 57 := by
  simp only [isAsciiDigit, Bool.and_eq_true, decide_eq_true_eq,
    Char.le_def, UInt32.le_iff_toNat_le]
  exact Iff.rfl

theorem isAsciiDigit_eq_isDigit
    (c : Char) :
    isAsciiDigit c = c.isDigit :=
  rfl

theorem le_ofDigitChars
    (acc : Nat)
    (cs : List Char) :
    acc ≤ Nat.ofDigitChars 10 cs acc := by
  induction cs generalizing acc with
  | nil => exact Nat.le_refl acc
  | cons c r ih =>
      rw [Nat.ofDigitChars_cons]
      have hMore := ih (10 * acc + (c.toNat - '0'.toNat))
      omega

theorem digitValue_lt
    (h : isAsciiDigit c = true) :
    digitValue c < 10 := by
  rw [isAsciiDigit_iff] at h
  have hZero : '0'.toNat = 48 := rfl
  rw [digitValue, hZero]
  omega

theorem ofDigitChars_lt
    (hDigits : ∀ c ∈ cs, isAsciiDigit c = true) :
    Nat.ofDigitChars 10 cs acc < (acc + 1) * 10 ^ cs.length := by
  induction cs generalizing acc with
  | nil => simp
  | cons c r ih =>
      rcases List.forall_mem_cons.mp hDigits with ⟨hFirst, hRest⟩
      have hValue : digitValue c < 10 := digitValue_lt hFirst
      rw [Nat.ofDigitChars_cons]
      calc Nat.ofDigitChars 10 r (10 * acc + digitValue c)
        _ < (10 * acc + digitValue c + 1) * 10 ^ r.length := ih hRest
        _ ≤ ((acc + 1) * 10) * 10 ^ r.length :=
          Nat.mul_le_mul_right _ (by omega)
        _ = (acc + 1) * 10 ^ (c :: r).length := by
          rw [List.length_cons, Nat.mul_assoc, Nat.pow_succ']

/- Digits are read as the number that they are the numeral of. -/
theorem readDigits_eq
    (hDigits : ∀ c ∈ cs, isAsciiDigit c = true)
    (hLimit : Nat.ofDigitChars 10 cs acc < limit) :
    readDigits limit acc cs = .ok (Nat.ofDigitChars 10 cs acc) := by
  induction cs generalizing acc with
  | nil => rfl
  | cons c r ih =>
      rcases List.forall_mem_cons.mp hDigits with ⟨hFirst, hRest⟩
      rw [Nat.ofDigitChars_cons] at hLimit ⊢
      have hNext : 10 * acc + digitValue c < limit :=
        Nat.lt_of_le_of_lt (le_ofDigitChars _ r) hLimit
      rw [readDigits, if_pos hFirst]
      dsimp only
      rw [if_pos hNext]
      exact ih hRest hLimit

/- What is read as a number is a numeral below the limit. -/
theorem readDigits_eq_ok_iff
    (hAcc : acc < limit) :
    readDigits limit acc cs = .ok n ↔
      (∀ c ∈ cs, isAsciiDigit c = true) ∧
        Nat.ofDigitChars 10 cs acc = n ∧ n < limit := by
  constructor
  · intro h
    have hLimit := readDigits_lt hAcc h
    induction cs generalizing acc with
    | nil =>
        cases h
        exact ⟨by simp, rfl, hLimit⟩
    | cons c r ih =>
        rw [readDigits] at h
        split at h
        · next hFirst =>
            dsimp only at h
            split at h
            · next hNext =>
                rcases ih hNext h with ⟨hRest, hValue, -⟩
                exact ⟨List.forall_mem_cons.mpr ⟨hFirst, hRest⟩, hValue, hLimit⟩
            · cases h
        · cases h
  · rintro ⟨hDigits, rfl, hLimit⟩
    exact readDigits_eq hDigits hLimit

------------------------------------------------------------
-- The texts that are read
------------------------------------------------------------

/- The digits of a number below the limit, zeros before them included. -/
structure IsDigits (limit : Nat) (cs : List Char) : Prop where
  ne_nil : cs ≠ []
  digits : ∀ c ∈ cs, isAsciiDigit c = true
  bounded : Nat.ofDigitChars 10 cs 0 < limit

theorem IsDigits.not_mem
    (h : IsDigits limit cs)
    (hOther : isAsciiDigit c = false) :
    c ∉ cs := by
  intro hc
  rw [h.digits c hc] at hOther
  cases hOther

/- A numeral without the plus sign that it may start with. -/
def behindPlus (s : String) : List Char :=
  match s.toList with
  | '+' :: rest => rest
  | cs => cs

theorem behindPlus_eq_self
    (h : '+' ∉ s.toList) :
    behindPlus s = s.toList := by
  unfold behindPlus
  split
  · next hPlus => simp [hPlus] at h
  · rfl

theorem eq_plus_or_mem_behindPlus
    (h : c ∈ s.toList) :
    c = '+' ∨ c ∈ behindPlus s := by
  unfold behindPlus
  split
  · next hPlus =>
      rw [hPlus] at h
      exact List.mem_cons.mp h
  · exact Or.inr h

/- What is read are digits, bare or behind one plus sign. -/
theorem read_eq_ok_iff
    (hLimit : 0 < limit) :
    read limit s = .ok n ↔
      IsDigits limit (behindPlus s) ∧
        Nat.ofDigitChars 10 (behindPlus s) 0 = n := by
  have hRun : ∀ cs : List Char, cs ≠ [] →
      (readDigits limit 0 cs = .ok n ↔
        IsDigits limit cs ∧ Nat.ofDigitChars 10 cs 0 = n) := by
    intro cs hSome
    rw [readDigits_eq_ok_iff hLimit]
    constructor
    · rintro ⟨hDigits, rfl, hBound⟩
      exact ⟨⟨hSome, hDigits, hBound⟩, rfl⟩
    · rintro ⟨hDigits, rfl⟩
      exact ⟨hDigits.digits, rfl, hDigits.bounded⟩
  have hNone : ∀ {cs : List Char} {fault : Fault}, ¬ IsDigits limit cs →
      ((.error fault : Except Fault Nat) = .ok n ↔
        IsDigits limit cs ∧ Nat.ofDigitChars 10 cs 0 = n) := by
    intro cs fault hNot
    constructor
    · intro h
      cases h
    · exact fun h => absurd h.1 hNot
  unfold read behindPlus
  generalize s.toList = cs
  split
  · exact hNone fun h => h.ne_nil rfl
  · exact hNone fun h => h.ne_nil rfl
  · exact hNone fun h => h.not_mem (c := '-') rfl List.mem_cons_self
  · next rest hBare =>
      exact hRun rest hBare
  · next hEmpty _ _ hBare =>
      split
      · exact (hBare _ rfl).elim
      · exact hRun _ hEmpty

theorem toOption_read_eq_some_iff
    (hLimit : 0 < limit) :
    (read limit s).toOption = some n ↔
      IsDigits limit (behindPlus s) ∧
        Nat.ofDigitChars 10 (behindPlus s) 0 = n := by
  rw [← read_eq_ok_iff hLimit]
  cases read limit s <;> simp [Except.toOption]

theorem isSome_read32?_iff :
    (read32? s).isSome = true ↔ IsDigits UInt32.size (behindPlus s) := by
  rw [Option.isSome_iff_exists]
  constructor
  · rintro ⟨n, hRead⟩
    exact ((toOption_read_eq_some_iff (by decide)).mp hRead).1
  · intro h
    exact ⟨_, (toOption_read_eq_some_iff (by decide)).mpr ⟨h, rfl⟩⟩

/- A number that was read lies below the limit. -/
theorem lt_of_toOption_read
    (hLimit : 0 < limit)
    (h : (read limit s).toOption = some n) :
    n < limit := by
  rcases (toOption_read_eq_some_iff hLimit).mp h with ⟨hDigits, rfl⟩
  exact hDigits.bounded

theorem lt_of_read32?
    (h : read32? s = some n) :
    n < UInt32.size :=
  lt_of_toOption_read (by decide) h

theorem lt_of_read64?
    (h : read64? s = some n) :
    n < UInt64.size :=
  lt_of_toOption_read (by decide) h

/- A text without a plus sign is read as the number of its digits. -/
theorem read64?_eq_some_iff
    (hSome : s.toList ≠ [])
    (hPlus : '+' ∉ s.toList) :
    read64? s = some n ↔
      (∀ c ∈ s.toList, isAsciiDigit c = true) ∧
        Nat.ofDigitChars 10 s.toList 0 = n ∧ n < UInt64.size := by
  rw [read64?, read64, toOption_read_eq_some_iff (by decide),
    behindPlus_eq_self hPlus]
  constructor
  · rintro ⟨hDigits, rfl⟩
    exact ⟨hDigits.digits, rfl, hDigits.bounded⟩
  · rintro ⟨hDigits, rfl, hBound⟩
    exact ⟨⟨hSome, hDigits, hBound⟩, rfl⟩

------------------------------------------------------------
-- Numerals
------------------------------------------------------------

theorem toList_toString
    (n : Nat) :
    (toString n).toList = Nat.toDigits 10 n := by
  rw [Nat.toString_eq_repr, Nat.toList_repr]

theorem toString_ne_empty
    (n : Nat) :
    (toString n).toList ≠ [] := by
  rw [toList_toString]
  exact Nat.toDigits_ne_nil

theorem isAsciiDigit_of_mem_toString
    (h : c ∈ (toString n).toList) :
    isAsciiDigit c = true := by
  rw [toList_toString] at h
  rw [isAsciiDigit_eq_isDigit]
  exact Nat.isDigit_of_mem_toDigits (by decide) (by decide) h

theorem read_of_isAsciiDigit
    (hSome : s.toList ≠ [])
    (hDigits : ∀ c ∈ s.toList, isAsciiDigit c = true) :
    read limit s = readDigits limit 0 s.toList := by
  have hFirst : ∀ c ∈ s.toList, c ≠ '+' ∧ c ≠ '-' := by
    intro c hc
    have hDigit := hDigits c hc
    constructor <;> rintro rfl <;> exact absurd hDigit (by decide)
  unfold read
  split
  · next hEmpty => exact absurd hEmpty hSome
  · next hPlus => simp [hPlus] at hFirst
  · next hMinus => simp [hMinus] at hFirst
  · next hPlus => simp [hPlus] at hFirst
  · rfl

/- A number below the limit is read back from its numeral. -/
theorem read_toString
    (h : n < limit) :
    read limit (toString n) = .ok n := by
  have hValue : Nat.ofDigitChars 10 (toString n).toList 0 = n := by
    rw [toList_toString]
    exact Nat.ofDigitChars_toDigits (by decide) (by decide)
  have hDigits : ∀ c ∈ (toString n).toList, isAsciiDigit c = true :=
    fun _ => isAsciiDigit_of_mem_toString
  rw [read_of_isAsciiDigit (toString_ne_empty n) hDigits,
    readDigits_eq hDigits (by rw [hValue]; exact h), hValue]

theorem read32?_toString
    (h : n < UInt32.size) :
    read32? (toString n) = some n := by
  rw [read32?, read32, read_toString h]
  rfl

theorem read64?_toString
    (h : n < UInt64.size) :
    read64? (toString n) = some n := by
  rw [read64?, read64, read_toString h]
  rfl

end Retarget.Numeral
