import Retarget.Text.Case

/-
  This file shows that lower-casing leaves no capital letter
  of the ASCII range and keeps the small ones, that it does
  not count the case of ASCII letters, and what it makes of a
  text that ASCII characters are added to.

  Key definitions include:
    * `Text.IsAscii`

  Key statements include:
    * `Text.isAsciiUpper_of_mem_lower`
    * `Text.dot_mem_lower_iff`
    * `Text.lower_eq_self`
    * `Text.lower_congr`
    * `Text.lower_eq_lowerAscii`
    * `Text.exists_lower_append`
-/

namespace Retarget.Text

------------------------------------------------------------
-- Letters of the ASCII range
------------------------------------------------------------

theorem isAsciiUpper_iff
    {c : Char} :
    isAsciiUpper c = true ↔ 65 ≤ c.toNat ∧ c.toNat ≤ 90 := by
  simp only [isAsciiUpper, Bool.and_eq_true, decide_eq_true_eq,
    Char.le_def, UInt32.le_iff_toNat_le]
  exact Iff.rfl

theorem isAsciiLower_iff
    {c : Char} :
    isAsciiLower c = true ↔ 97 ≤ c.toNat ∧ c.toNat ≤ 122 := by
  simp only [isAsciiLower, Bool.and_eq_true, decide_eq_true_eq,
    Char.le_def, UInt32.le_iff_toNat_le]
  exact Iff.rfl

/- A number stands for the character of that code or for none. -/
theorem toNat_ofNat_cases
    (n : Nat) :
    (Char.ofNat n).toNat = n ∨ (Char.ofNat n).toNat = 0 := by
  unfold Char.ofNat
  by_cases hValid : n.isValidChar
  · rw [dif_pos hValid]
    exact Or.inl rfl
  · rw [dif_neg hValid]
    exact Or.inr rfl

/- A number outside the capitals stands for none of them. -/
theorem isAsciiUpper_ofNat
    {n : Nat}
    (h : n < 65 ∨ 90 < n) :
    isAsciiUpper (Char.ofNat n) = false := by
  have hToNat := toNat_ofNat_cases n
  rw [Bool.eq_false_iff, ne_eq, isAsciiUpper_iff]
  omega

theorem isAsciiUpper_lowerAsciiChar
    (c : Char) :
    isAsciiUpper (lowerAsciiChar c) = false := by
  unfold lowerAsciiChar
  split
  · next hUpper =>
      rw [isAsciiUpper_iff] at hUpper
      exact isAsciiUpper_ofNat (Or.inr (by omega))
  · next hOther => simpa using hOther

------------------------------------------------------------
-- Capital letters after lower-casing
------------------------------------------------------------

/-
  The lower-case forms of letters outside ASCII lie behind
  the capital letters.
-/
theorem lowerCaseTable_shift :
    ∀ entry ∈ lowerCaseTable, 90 < (entry.1 : Int) + entry.2.2.2 := by
  decide +kernel

/-
  Lower-casing takes a letter outside ASCII behind the
  capital letters, or to no letter at all.
-/
theorem lowerChar_cases
    {c d : Char}
    (h : d ∈ lowerChar c) :
    d = lowerAsciiChar c ∨ d.toNat = 0 ∨ 90 < d.toNat := by
  unfold lowerChar at h
  split at h
  · exact Or.inl (List.mem_singleton.mp h)
  · next hAscii =>
      refine Or.inr ?_
      split at h
      · simp only [List.mem_cons, List.not_mem_nil, or_false] at h
        rcases h with rfl | rfl <;> decide
      · simp only at h
        split at h
        · next lo hi step shift hEntry =>
            have hMem := List.mem_of_find?_eq_some hEntry
            have hRange := List.find?_some hEntry
            simp only [Bool.and_eq_true, decide_eq_true_eq]
              at hRange
            have hShift := lowerCaseTable_shift _ hMem
            simp only at hShift
            rw [List.mem_singleton] at h
            subst h
            have hToNat := toNat_ofNat_cases (c.toNat + shift).toNat
            omega
        · rw [List.mem_singleton] at h
          subst h
          omega

theorem isAsciiUpper_of_mem_lowerChar
    {c d : Char}
    (h : d ∈ lowerChar c) :
    isAsciiUpper d = false := by
  rcases lowerChar_cases h with rfl | hOther
  · exact isAsciiUpper_lowerAsciiChar c
  · rw [Bool.eq_false_iff, ne_eq, isAsciiUpper_iff]
    omega

theorem isAsciiUpper_of_mem_lowerChars
    {seen cs : List Char}
    {d : Char}
    (h : d ∈ lowerChars seen cs) :
    isAsciiUpper d = false := by
  induction cs generalizing seen with
  | nil => simp [lowerChars] at h
  | cons c r ih =>
      rw [lowerChars, List.mem_append] at h
      rcases h with hForm | hRest
      · split at hForm
        · split at hForm <;>
            rw [List.mem_singleton] at hForm <;>
              subst hForm <;> decide
        · exact isAsciiUpper_of_mem_lowerChar hForm
      · exact ih hRest

/- A lower-cased text has no capital letter of ASCII. -/
theorem isAsciiUpper_of_mem_lower
    {s : String}
    {d : Char}
    (h : d ∈ (lower s).toList) :
    isAsciiUpper d = false := by
  rw [lower, String.toList_ofList] at h
  exact isAsciiUpper_of_mem_lowerChars h

------------------------------------------------------------
-- Dots
------------------------------------------------------------

theorem dot_mem_lowerChar_iff
    {c : Char} :
    '.' ∈ lowerChar c ↔ c = '.' := by
  constructor
  · intro h
    rcases lowerChar_cases h with hSame | hZero | hBehind
    · unfold lowerAsciiChar at hSame
      split at hSame
      · next hUpper =>
          rw [isAsciiUpper_iff] at hUpper
          have hDot := congrArg Char.toNat hSame
          rw [show '.'.toNat = 46 from rfl] at hDot
          have hToNat := toNat_ofNat_cases (c.toNat + 32)
          omega
      · exact hSame.symm
    · exact absurd hZero (by decide)
    · exact absurd hBehind (by decide)
  · rintro rfl
    decide

theorem dot_mem_lowerChars_iff
    {seen cs : List Char} :
    '.' ∈ lowerChars seen cs ↔ '.' ∈ cs := by
  induction cs generalizing seen with
  | nil => rfl
  | cons c r ih =>
      rw [lowerChars, List.mem_append, List.mem_cons, ih]
      refine or_congr_left ?_
      split
      · next hSigma =>
          obtain rfl := beq_iff_eq.mp hSigma
          split <;> decide
      · rw [dot_mem_lowerChar_iff, eq_comm]

/- Lower-casing neither adds nor removes dots. -/
theorem dot_mem_lower_iff
    {s : String} :
    '.' ∈ (lower s).toList ↔ '.' ∈ s.toList := by
  rw [lower, String.toList_ofList, dot_mem_lowerChars_iff]

------------------------------------------------------------
-- Small letters
------------------------------------------------------------

theorem lowerChar_of_isAsciiLower
    {c : Char}
    (h : isAsciiLower c = true) :
    lowerChar c = [c] := by
  rw [isAsciiLower_iff] at h
  have hUpper : isAsciiUpper c = false := by
    rw [Bool.eq_false_iff, ne_eq, isAsciiUpper_iff]
    omega
  rw [lowerChar_ascii c (by omega)]
  simp [lowerAsciiChar, hUpper]

theorem lowerChars_of_isAsciiLower
    {seen cs : List Char}
    (h : ∀ c ∈ cs, isAsciiLower c = true) :
    lowerChars seen cs = cs := by
  induction cs generalizing seen with
  | nil => rfl
  | cons c r ih =>
      have hc := h c List.mem_cons_self
      have hr : ∀ d ∈ r, isAsciiLower d = true := by
        intro d hd
        exact h d (List.mem_cons_of_mem c hd)
      have hSigma : (c == capitalSigma) = false := by
        rw [beq_eq_false_iff_ne]
        rintro rfl
        revert hc
        decide
      rw [lowerChars, ih hr]
      simp [hSigma, lowerChar_of_isAsciiLower hc]

/- Lower-casing keeps a text of small letters. -/
theorem lower_eq_self
    {s : String}
    (h : ∀ c ∈ s.toList, isAsciiLower c = true) :
    lower s = s := by
  rw [lower, lowerChars_of_isAsciiLower h,
    String.ofList_toList]

------------------------------------------------------------
-- Texts that differ in the case of ASCII letters
------------------------------------------------------------

theorem equalsIgnoringAsciiCase_iff
    {s t : String} :
    equalsIgnoringAsciiCase s t = true ↔
      s.toList.map lowerAsciiChar = t.toList.map lowerAsciiChar := by
  rw [equalsIgnoringAsciiCase, beq_iff_eq]

theorem toNat_ofNat
    {n : Nat}
    (h : n < 0xD800) :
    (Char.ofNat n).toNat = n := by
  have hValid : n.isValidChar := Or.inl (by omega)
  rw [Char.ofNat, dif_pos hValid]
  rfl

/-
  A property of characters does not count the case of ASCII
  letters if it is the same for each of them and its capital.
-/
theorem eq_of_lowerAsciiChar_eq
    {α : Type}
    {f : Char → α}
    (hCapitals : ∀ n < 26, f (Char.ofNat (65 + n)) = f (Char.ofNat (97 + n)))
    {c d : Char}
    (h : lowerAsciiChar c = lowerAsciiChar d) :
    f c = f d := by
  have hLower : ∀ c : Char, f c = f (lowerAsciiChar c) := by
    intro c
    unfold lowerAsciiChar
    split
    · next hUpper =>
        rw [isAsciiUpper_iff] at hUpper
        have hLetter := hCapitals (c.toNat - 65) (by omega)
        have hSelf : 65 + (c.toNat - 65) = c.toNat := by omega
        have hSmall : 97 + (c.toNat - 65) = c.toNat + 32 := by omega
        rwa [hSelf, hSmall, Char.ofNat_toNat] at hLetter
    · rfl
  rw [hLower c, h, ← hLower d]

theorem isCased_congr
    {c d : Char}
    (h : lowerAsciiChar c = lowerAsciiChar d) :
    inRanges casedRanges c.toNat = inRanges casedRanges d.toNat :=
  eq_of_lowerAsciiChar_eq (f := fun c => inRanges casedRanges c.toNat)
    (by decide) h

theorem caseIgnorableRanges_apart :
    ∀ r ∈ caseIgnorableRanges,
      (r.2 < 65 ∨ 90 < r.1) ∧ (r.2 < 97 ∨ 122 < r.1) := by
  decide +kernel

theorem isCaseIgnorable_congr
    {c d : Char}
    (h : lowerAsciiChar c = lowerAsciiChar d) :
    inRanges caseIgnorableRanges c.toNat =
      inRanges caseIgnorableRanges d.toNat := by
  have hLetter : ∀ n, (65 ≤ n ∧ n ≤ 90) ∨ (97 ≤ n ∧ n ≤ 122) →
      inRanges caseIgnorableRanges n = false := by
    intro n hn
    rw [inRanges, List.any_eq_false]
    intro r hr hIn
    have hApart := caseIgnorableRanges_apart r hr
    simp only [Bool.and_eq_true, decide_eq_true_eq] at hIn
    omega
  refine eq_of_lowerAsciiChar_eq
    (f := fun c => inRanges caseIgnorableRanges c.toNat) ?_ h
  intro n hn
  simp only [toNat_ofNat (show 65 + n < 0xD800 by omega),
    toNat_ofNat (show 97 + n < 0xD800 by omega)]
  rw [hLetter _ (Or.inl (by omega)), hLetter _ (Or.inr (by omega))]

theorem isCapitalSigma_congr
    {c d : Char}
    (h : lowerAsciiChar c = lowerAsciiChar d) :
    (c == capitalSigma) = (d == capitalSigma) :=
  eq_of_lowerAsciiChar_eq (f := fun c => c == capitalSigma)
    (by decide) h

theorem lowerChar_congr
    {c d : Char}
    (h : lowerAsciiChar c = lowerAsciiChar d) :
    lowerChar c = lowerChar d :=
  eq_of_lowerAsciiChar_eq (by decide) h

theorem meetsCased_congr
    {cs ds : List Char}
    (h : cs.map lowerAsciiChar = ds.map lowerAsciiChar) :
    meetsCased cs = meetsCased ds := by
  induction cs generalizing ds with
  | nil =>
      obtain rfl : ds = [] := by simpa using h
      rfl
  | cons c r ih =>
      cases ds with
      | nil => simp at h
      | cons d r' =>
          rw [List.map_cons, List.map_cons, List.cons.injEq] at h
          simp only [meetsCased, isCased_congr h.1,
            isCaseIgnorable_congr h.1, ih h.2]

theorem lowerChars_congr
    {seen seen' cs ds : List Char}
    (hSeen : seen.map lowerAsciiChar = seen'.map lowerAsciiChar)
    (h : cs.map lowerAsciiChar = ds.map lowerAsciiChar) :
    lowerChars seen cs = lowerChars seen' ds := by
  induction cs generalizing seen seen' ds with
  | nil =>
      obtain rfl : ds = [] := by simpa using h
      rfl
  | cons c r ih =>
      cases ds with
      | nil => simp at h
      | cons d r' =>
          rw [List.map_cons, List.map_cons, List.cons.injEq] at h
          have hRest : lowerChars (c :: seen) r = lowerChars (d :: seen') r' :=
            ih (by simp [h.1, hSeen]) h.2
          simp only [lowerChars, isCapitalSigma_congr h.1, lowerChar_congr h.1,
            meetsCased_congr hSeen, meetsCased_congr h.2, hRest]

/- Lower-casing does not count the case of ASCII letters. -/
theorem lower_congr
    {s t : String}
    (h : equalsIgnoringAsciiCase s t = true) :
    lower s = lower t := by
  rw [lower, lower, lowerChars_congr rfl (equalsIgnoringAsciiCase_iff.mp h)]

------------------------------------------------------------
-- Empty texts
------------------------------------------------------------

theorem lowerChar_ne_nil
    (c : Char) :
    lowerChar c ≠ [] := by
  unfold lowerChar
  split
  · simp
  · split
    · simp
    · simp only
      split <;> simp

theorem lower_eq_empty_iff
    {s : String} :
    lower s = "" ↔ s = "" := by
  constructor
  · intro h
    have hChars : lowerChars [] s.toList = [] := by
      simpa [lower] using congrArg String.toList h
    cases hText : s.toList with
    | nil => simpa using hText
    | cons c r =>
        rw [hText, lowerChars, List.append_eq_nil_iff] at hChars
        have hForm := hChars.1
        split at hForm
        · split at hForm <;> cases hForm
        · exact absurd hForm (lowerChar_ne_nil c)
  · rintro rfl
    rfl

------------------------------------------------------------
-- Texts of ASCII characters
------------------------------------------------------------

theorem lowerChars_append
    {cs : List Char}
    (hAscii : ∀ c ∈ cs, c.toNat < 0x80)
    (seen behind : List Char) :
    lowerChars seen (cs ++ behind) =
      cs.map lowerAsciiChar ++ lowerChars (cs.reverse ++ seen) behind := by
  induction cs generalizing seen with
  | nil => rfl
  | cons c r ih =>
      rcases List.forall_mem_cons.mp hAscii with ⟨hFirst, hRest⟩
      have hSigma : (c == capitalSigma) = false := by
        rw [beq_eq_false_iff_ne]
        rintro rfl
        revert hFirst
        decide
      simp [lowerChars, hSigma, lowerChar_ascii c hFirst, ih hRest]

theorem lowerChars_ascii
    {seen cs : List Char}
    (h : ∀ c ∈ cs, c.toNat < 0x80) :
    lowerChars seen cs = cs.map lowerAsciiChar := by
  simpa [lowerChars] using lowerChars_append h seen []

def IsAscii (s : String) : Prop :=
  ∀ c ∈ s.toList, c.toNat < 0x80

instance (s : String) : Decidable (IsAscii s) :=
  List.decidableBAll (fun c : Char => c.toNat < 0x80) s.toList

theorem lower_eq_lowerAscii
    {s : String}
    (h : IsAscii s) :
    lower s = lowerAscii s := by
  rw [lower, lowerChars_ascii h, lowerAscii]

theorem IsAscii.of_lowerAscii_eq
    {s t : String}
    (hs : IsAscii s)
    (h : lowerAscii s = lowerAscii t) :
    IsAscii t := by
  intro c hc
  have hMem : lowerAsciiChar c ∈ (lowerAscii s).toList := by
    rw [h, lowerAscii, String.toList_ofList]
    exact List.mem_map_of_mem hc
  rw [lowerAscii, String.toList_ofList] at hMem
  rcases List.mem_map.mp hMem with ⟨d, hd, hSame⟩
  have hRange := eq_of_lowerAsciiChar_eq
    (f := fun c => decide (c.toNat < 0x80)) (by decide) hSame
  rw [decide_eq_true (hs d hd)] at hRange
  exact of_decide_eq_true hRange.symm

/- Among these texts the two notions of letter case agree. -/
theorem IsAscii.lowerAscii_eq_of_lower_eq
    {s t : String}
    (hs : IsAscii s)
    (ht : IsAscii t)
    (h : lower s = lower t) :
    lowerAscii s = lowerAscii t := by
  rwa [lower_eq_lowerAscii hs, lower_eq_lowerAscii ht] at h

/- Small letters of the ASCII range stay as they are. -/
theorem lower_append
    {s : String}
    (hAscii : ∀ c ∈ s.toList, c.toNat < 0x80)
    (hUpper : ∀ c ∈ s.toList, isAsciiUpper c = false)
    (t : String) :
    lower (s ++ t) =
      s ++ String.ofList (lowerChars s.toList.reverse t.toList) := by
  have hKept : ∀ c ∈ s.toList, lowerAsciiChar c = c := by
    intro c hc
    rw [lowerAsciiChar, hUpper c hc]
    rfl
  rw [lower, String.toList_append, lowerChars_append hAscii,
    List.map_congr_left hKept, List.map_id', List.append_nil,
    String.ofList_append, String.ofList_toList]

theorem lower_eq_self_of_ascii
    {s : String}
    (hAscii : ∀ c ∈ s.toList, c.toNat < 0x80)
    (hUpper : ∀ c ∈ s.toList, isAsciiUpper c = false) :
    lower s = s := by
  simpa [lowerChars] using lower_append hAscii hUpper ""

/-
  What follows can change the form of the last letters, and
  never how many characters they have.
-/
theorem exists_lowerChars_append
    (seen cs behind : List Char) :
    ∃ front, front.length = (lowerChars seen cs).length ∧
      lowerChars seen (cs ++ behind) =
        front ++ lowerChars (cs.reverse ++ seen) behind := by
  induction cs generalizing seen with
  | nil => exact ⟨[], rfl, rfl⟩
  | cons c r ih =>
      rcases ih (c :: seen) with ⟨front, hLength, hFront⟩
      have hBehind : (c :: r).reverse ++ seen = r.reverse ++ c :: seen := by
        simp
      rw [List.cons_append, lowerChars, lowerChars, hFront, hBehind,
        ← List.append_assoc]
      refine ⟨_, ?_, rfl⟩
      rw [List.length_append, List.length_append, hLength]
      congr 1
      split
      · split <;> split <;> rfl
      · rfl

theorem exists_lower_append
    (s : String)
    {t : String}
    (h : ∀ c ∈ t.toList, c.toNat < 0x80) :
    ∃ front, front.length = (lower s).length ∧
      lower (s ++ t) = front ++ lowerAscii t := by
  rcases exists_lowerChars_append [] s.toList t.toList with
    ⟨front, hLength, hFront⟩
  refine ⟨String.ofList front, ?_, ?_⟩
  · simpa [lower] using hLength
  · rw [lower, String.toList_append, hFront, lowerChars_ascii h, lowerAscii]
    simp

end Retarget.Text
