import Retarget.Framework.Version
import Retarget.Proofs.Text.Separator

/-
  This file shows that the version of a framework is read back
  from its text.  Without the dots its numbers are read back
  if each of them is a single digit.

  Key definitions include:
    * `FrameworkVersion.IsWritten`
    * `FrameworkVersion.compactNumbers`

  Key statements include:
    * `FrameworkVersion.ofNumbers?_eq_some_iff`
    * `FrameworkVersion.IsWritten.parseDotted?_text`
    * `FrameworkVersion.IsWritten.parseDotted?_pair`
    * `FrameworkVersion.exists_parseCompact?_compactText`
-/

namespace Retarget.FrameworkVersion

variable {v w : FrameworkVersion}
variable {ns : List Nat}
variable {text : String}

/-
  A version that dotted numbers can stand for: those that are
  not shown are zero.
-/
structure IsWritten (v : FrameworkVersion) : Prop where
  bounded : ∀ n ∈ v.numbers, n < UInt32.size
  shown : 2 ≤ v.shown ∧ v.shown ≤ 4
  hidden : (v.numbers.take v.shown).rightpad 4 0 = v.numbers

theorem eq_of_numbers
    (hNumbers : v.numbers = w.numbers)
    (hShown : v.shown = w.shown) :
    v = w := by
  cases v
  cases w
  simp_all [numbers]

theorem major_eq
    (h : v.numbers = w.numbers) :
    v.major = w.major := by
  simpa [numbers] using congrArg List.head? h

/- Numbers that are left out are zero, and two are shown at least. -/
theorem ofNumbers?_eq_some_iff :
    ofNumbers? ns = some v ↔
      ns ≠ [] ∧ v.numbers = ns.rightpad 4 0 ∧ v.shown = Nat.max ns.length 2 := by
  constructor
  · intro h
    unfold ofNumbers? at h
    split at h <;> cases h
    all_goals exact ⟨List.cons_ne_nil _ _, rfl, rfl⟩
  · rintro ⟨hSome, hPadded, hShown⟩
    have hLength : ns.length ≤ 4 := by
      have hLengths := congrArg List.length hPadded
      simp only [numbers, List.length_rightpad, List.length_cons,
        List.length_nil] at hLengths
      omega
    have hRead : ∀ w, ofNumbers? ns = some w → w.numbers = ns.rightpad 4 0 →
        w.shown = Nat.max ns.length 2 → ofNumbers? ns = some v := by
      intro w hw hNumbers hCount
      rw [hw, eq_of_numbers (hNumbers.trans hPadded.symm)
        (hCount.trans hShown.symm)]
    rcases ns with _ | ⟨a, _ | ⟨b, _ | ⟨c, _ | ⟨d, _ | ⟨e, rest⟩⟩⟩⟩⟩
    · exact absurd rfl hSome
    · exact hRead _ rfl rfl rfl
    · exact hRead _ rfl rfl rfl
    · exact hRead _ rfl rfl rfl
    · exact hRead _ rfl rfl rfl
    · simp only [List.length_cons] at hLength
      omega

theorem isWritten_of_ofNumbers?
    (hBounded : ∀ n ∈ ns, n < UInt32.size)
    (h : ofNumbers? ns = some v) :
    v.IsWritten := by
  have hNumbers := (ofNumbers?_eq_some_iff.mp h).2.1
  refine ⟨fun n hn => ?_, ?_, ?_⟩
  · rw [hNumbers] at hn
    rcases List.mem_append.mp hn with hRead | hZero
    · exact hBounded n hRead
    · rw [List.eq_of_mem_replicate hZero]
      decide
  · unfold ofNumbers? at h
    split at h <;> cases h
    all_goals exact ⟨by simp, by simp⟩
  · unfold ofNumbers? at h
    split at h <;> cases h
    all_goals rfl

theorem IsWritten.of_parseDotted?
    (h : parseDotted? text = some v) :
    v.IsWritten := by
  rcases Option.bind_eq_some_iff.mp h with ⟨ns, hRead, hNumbers⟩
  exact isWritten_of_ofNumbers?
    (Numeral.forall_of_mapM (fun _ _ => Numeral.lt_of_read32?) hRead) hNumbers

/- The first piece of a version is its first number. -/
theorem major_of_parseDotted?
    {major : String}
    {more : List String}
    {n : Nat}
    (hPieces : Text.splitAt '.' text = major :: more)
    (hMajor : Numeral.read32? major = some n)
    (h : parseDotted? text = some v) :
    v.major = n := by
  rcases Option.bind_eq_some_iff.mp h with ⟨ns, hRead, hNumbers⟩
  rw [hPieces, List.mapM_cons, hMajor] at hRead
  rcases Option.bind_eq_some_iff.mp hRead with ⟨first, hFirst, hMore⟩
  cases hFirst
  rcases Option.bind_eq_some_iff.mp hMore with ⟨others, -, hAll⟩
  cases hAll
  have hPadded := (ofNumbers?_eq_some_iff.mp hNumbers).2.1
  have hHead := congrArg List.head? hPadded
  simpa [numbers, List.rightpad] using hHead

theorem IsWritten.of_parseCompact?
    (h : parseCompact? text = some v) :
    v.IsWritten := by
  unfold parseCompact? at h
  split at h
  · next hDigits =>
      refine isWritten_of_ofNumbers? (fun n hn => ?_) h
      rcases List.mem_map.mp hn with ⟨c, hc, rfl⟩
      have hSmall := Numeral.digitValue_lt (List.all_eq_true.mp hDigits c hc)
      have hSize : UInt32.size = 4294967296 := rfl
      omega
  · cases h

------------------------------------------------------------
-- Numbers with dots between them
------------------------------------------------------------

theorem parseDotted?_join
    (hSome : ns ≠ [])
    (hBounded : ∀ n ∈ ns, n < UInt32.size) :
    parseDotted? (Text.join "." (ns.map toString)) = ofNumbers? ns := by
  rw [parseDotted?, Numeral.mapM_splitAt_join hSome fun n hn =>
    Numeral.read32?_toString (hBounded n hn)]
  rfl

/- A version is read back from its text. -/
theorem IsWritten.parseDotted?_text
    (h : v.IsWritten) :
    parseDotted? v.text = some v := by
  rcases h.shown with ⟨hAtLeast, hAtMost⟩
  have hLength : (v.numbers.take v.shown).length = v.shown := by
    simp only [numbers, List.length_take, List.length_cons, List.length_nil]
    omega
  have hSome : v.numbers.take v.shown ≠ [] := by
    rw [← List.length_pos_iff, hLength]
    omega
  rw [FrameworkVersion.text, parseDotted?_join hSome fun n hn =>
    h.bounded n (List.mem_of_mem_take hn), ofNumbers?_eq_some_iff]
  refine ⟨hSome, h.hidden.symm, ?_⟩
  rw [hLength]
  exact (Nat.max_eq_left hAtLeast).symm

/- The two numbers that most names show. -/
theorem IsWritten.parseDotted?_pair
    (h : v.IsWritten) :
    parseDotted? (toString v.major ++ "." ++ toString v.minor) =
      some (ofPair v.major v.minor) := by
  have hJoin : Text.join "." ([v.major, v.minor].map toString) =
      toString v.major ++ "." ++ toString v.minor :=
    Text.join_concat (List.cons_ne_nil (toString v.major) []) _
  have hBounded : ∀ n ∈ [v.major, v.minor], n < UInt32.size := fun n hn =>
    h.bounded n (List.mem_of_mem_take (i := 2) hn)
  rw [← hJoin, parseDotted?_join (List.cons_ne_nil _ _) hBounded]
  rfl

/- The text of a version starts with a digit. -/
theorem IsWritten.exists_text_eq_cons
    (h : v.IsWritten) :
    ∃ c rest, v.text.toList = c :: rest ∧ Text.isAsciiDigit c = true := by
  have hShown : v.numbers.take v.shown =
      v.major :: v.numbers.tail.take (v.shown - 1) := by
    rw [← List.take_succ_cons, Nat.sub_add_cancel (Nat.le_of_succ_le h.shown.1)]
    rfl
  obtain ⟨c, rest, hMajor⟩ :=
    List.exists_cons_of_ne_nil (Numeral.toString_ne_empty v.major)
  have hDigit : Text.isAsciiDigit c = true :=
    Numeral.isAsciiDigit_of_mem_toString (hMajor ▸ List.mem_cons_self)
  obtain ⟨ending, hJoin⟩ := Text.exists_join_cons (toString v.major)
    ((v.numbers.tail.take (v.shown - 1)).map toString)
  refine ⟨c, rest ++ ending.toList, ?_, hDigit⟩
  rw [text, hShown, List.map_cons, hJoin, String.toList_append, hMajor,
    List.cons_append]

theorem mem_text
    {c : Char}
    (h : c ∈ v.text.toList) :
    c = '.' ∨ Text.isAsciiDigit c = true := by
  refine (Text.mem_join h).imp_right ?_
  rintro ⟨s, hs, hc⟩
  rcases List.mem_map.mp hs with ⟨n, -, rfl⟩
  exact Numeral.isAsciiDigit_of_mem_toString hc

------------------------------------------------------------
-- Digits that run together
------------------------------------------------------------

/- The numbers that stay when the dots are left out. -/
def compactNumbers (v : FrameworkVersion) : List Nat :=
  [v.major, v.minor] ++
    ([v.build, v.revision].reverse.dropWhile (· == 0)).reverse

theorem compactText_eq
    (v : FrameworkVersion) :
    v.compactText = String.join (v.compactNumbers.map toString) :=
  rfl

theorem compactNumbers_ne_nil
    (v : FrameworkVersion) :
    v.compactNumbers ≠ [] :=
  List.cons_ne_nil _ _

/- Only zeros are left out. -/
theorem rightpad_compactNumbers
    (v : FrameworkVersion) :
    v.compactNumbers.rightpad 4 0 = v.numbers := by
  obtain ⟨a, b, c, d, shown⟩ := v
  by_cases hRevision : d = 0
  · by_cases hBuild : c = 0
    · simp [compactNumbers, numbers, hRevision, hBuild, List.rightpad]
    · simp [compactNumbers, numbers, hRevision, hBuild, List.rightpad]
  · simp [compactNumbers, numbers, hRevision, List.rightpad]

theorem compactNumbers_subset
    (v : FrameworkVersion) :
    v.compactNumbers ⊆ v.numbers := by
  rw [← v.rightpad_compactNumbers]
  exact List.subset_append_left _ _

theorem mem_compactText
    {c : Char}
    (h : c ∈ v.compactText.toList) :
    Text.isAsciiDigit c = true := by
  rw [compactText_eq, String.toList_join, List.mem_flatMap] at h
  rcases h with ⟨s, hs, hc⟩
  rcases List.mem_map.mp hs with ⟨n, -, rfl⟩
  exact Numeral.isAsciiDigit_of_mem_toString hc

/- Numbers of one digit each are told apart without dots. -/
theorem map_digitValue_join
    (h : ∀ n ∈ ns, n < 10) :
    (String.join (ns.map toString)).toList.map Numeral.digitValue = ns := by
  induction ns with
  | nil => rfl
  | cons n rest ih =>
      rcases List.forall_mem_cons.mp h with ⟨hFirst, hRest⟩
      rw [List.map_cons, String.join_cons, String.toList_append,
        Numeral.toList_toString, Nat.toDigits_of_lt_base hFirst,
        List.map_append, ih hRest, List.map_singleton, Numeral.digitValue,
        Nat.toNat_digitChar_of_lt_ten hFirst]
      simp

theorem exists_parseCompact?_compactText
    (h : ∀ n ∈ v.numbers, n < 10) :
    ∃ w, parseCompact? v.compactText = some w ∧ w.numbers = v.numbers := by
  have hDigits : v.compactText.toList.all Text.isAsciiDigit = true :=
    List.all_eq_true.mpr fun _ => mem_compactText
  have hRead : parseCompact? v.compactText = ofNumbers? v.compactNumbers := by
    rw [parseCompact?, if_pos hDigits, compactText_eq,
      map_digitValue_join fun n hn => h n (v.compactNumbers_subset hn)]
  rw [hRead]
  let w : FrameworkVersion :=
    { v with shown := Nat.max v.compactNumbers.length 2 }
  refine ⟨w, ofNumbers?_eq_some_iff.mpr ⟨v.compactNumbers_ne_nil, ?_, rfl⟩, rfl⟩
  exact v.rightpad_compactNumbers.symm

end Retarget.FrameworkVersion
