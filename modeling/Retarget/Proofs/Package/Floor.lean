import Retarget.Package.Reference
import Retarget.Proofs.Package.Key

/-
  This file shows that the floor of a floating range bounds
  all versions that its star can stand for.  The floor of a
  prerelease float is a label that has been cut off, so the
  order has to put every label that goes on from there at
  the floor or above it.

  Key definitions include:
    * `FloatingText`
    * `FloatingText.Matches`
    * `FloatingText.floor?`

  Key statements include:
    * `PackageVersion.identifierOrder_append`
    * `PackageVersion.labelOrder_append`
    * `VersionRange.prereleaseFloor_le`
    * `FloatingText.floor?_le`
    * `FloatingText.floor_bounds`
-/

namespace Retarget

------------------------------------------------------------
-- Texts that go on
------------------------------------------------------------

namespace Text

theorem order_append
    (s t : String) :
    (order s (s ++ t)).isLE = true := by
  cases hChars : t.toList with
  | nil =>
      rw [String.toList_eq_nil_iff.mp hChars, String.append_empty, order,
        if_neg (lt_irrefl s), if_pos rfl]
      rfl
  | cons c r =>
      have hLess : s < s ++ t := by
        have hMore : s.toList ++ [] < s.toList ++ c :: r :=
          List.append_left_lt (List.nil_lt_cons c r)
        rwa [List.append_nil, ← hChars, ← String.toList_append,
          ← String.lt_iff_toList_lt] at hMore
      rw [order, if_pos hLess]
      rfl

theorem join_append_cons
    (last first : String)
    (back : List String) :
    join "." ((last ++ first) :: back) = last ++ join "." (first :: back) := by
  cases back with
  | nil => simp [join]
  | cons b rest =>
      simp only [join, String.intercalate_cons_cons, String.append_assoc]

/- Where two texts meet, a last piece and a first one become one. -/
theorem exists_splitAt_append
    (s t : String) :
    ∃ front last first back,
      splitAt '.' s = front ++ [last] ∧ splitAt '.' t = first :: back ∧
        splitAt '.' (s ++ t) = front ++ (last ++ first) :: back := by
  rcases List.eq_nil_or_concat (splitAt '.' s) with hNone | ⟨front, last, hs⟩
  · exact absurd hNone (splitAt_ne_nil '.' s)
  · rw [List.concat_eq_append] at hs
    rcases List.exists_cons_of_ne_nil (splitAt_ne_nil '.' t) with
      ⟨first, back, ht⟩
    refine ⟨front, last, first, back, hs, ht, ?_⟩
    have hJoin : join "." (front ++ (last ++ first) :: back) = s ++ t := by
      rw [← join_splitAt s, ← join_splitAt t, hs, ht]
      by_cases hFront : front = []
      · rw [hFront, List.nil_append, List.nil_append, join_append_cons]
        simp [join]
      · rw [join_concat hFront, String.append_assoc, ← join_append_cons, join,
          String.intercalate_append_of_ne_nil hFront (by simp)]
        rfl
    have hDots : ∀ n ∈ front ++ (last ++ first) :: back, '.' ∉ n.toList := by
      have hLeft : ∀ n ∈ front ++ [last], '.' ∉ n.toList := fun n hn =>
        dot_not_mem_of_mem_splitAt (hs ▸ hn)
      have hRight : ∀ n ∈ first :: back, '.' ∉ n.toList := fun n hn =>
        dot_not_mem_of_mem_splitAt (ht ▸ hn)
      simp only [List.mem_append, List.mem_cons, List.not_mem_nil, or_false]
        at hLeft hRight ⊢
      rintro n (hn | rfl | hn)
      · exact hLeft n (Or.inl hn)
      · rw [String.toList_append, List.mem_append]
        exact not_or.mpr
          ⟨hLeft last (Or.inr rfl), hRight first (Or.inl rfl)⟩
      · exact hRight n (Or.inr hn)
    rw [← hJoin, splitAt_join hDots (by simp)]

end Text

------------------------------------------------------------
-- Labels that go on
------------------------------------------------------------

namespace PackageVersion

variable {a b : String}
variable {v w : PackageVersion}

theorem compareLex_append_left
    {α : Type}
    {cmp : α → α → Ordering}
    [Std.ReflCmp cmp]
    (front as bs : List α) :
    List.compareLex cmp (front ++ as) (front ++ bs) =
      List.compareLex cmp as bs := by
  induction front with
  | nil => rfl
  | cons x rest ih =>
      have hSelf : cmp x x = .eq := Std.ReflCmp.compare_self
      rw [List.cons_append, List.cons_append, List.compareLex_cons_cons, hSelf,
        Ordering.eq_then, ih]

/- A text that has an identifier goes on does not come before it. -/
theorem compareLex_concat
    (front back : List String)
    (h : (identifierOrder a b).isLE = true) :
    (List.compareLex identifierOrder (front ++ [a]) (front ++ b :: back)).isLE =
      true := by
  rw [compareLex_append_left, List.compareLex_cons_cons,
    Ordering.isLE_then_iff_and]
  refine ⟨h, Or.inr ?_⟩
  cases back with
  | nil => rfl
  | cons c rest => rfl

/- A numeral that goes on is a greater number or no number. -/
theorem identifierOrder_append
    (ha : a.toList ≠ [])
    (hChars : ∀ c ∈ (a ++ b).toList, isLabelChar c = true) :
    (identifierOrder a (a ++ b)).isLE = true := by
  rw [String.toList_append] at hChars
  have hSome : (a ++ b).toList ≠ [] := by simp [ha]
  have hPlus : '+' ∉ (a ++ b).toList := by
    rw [String.toList_append]
    exact fun hMem => absurd (hChars '+' hMem) (by decide)
  have hPlusFirst : '+' ∉ a.toList := fun hMem =>
    hPlus (by rw [String.toList_append]; exact List.mem_append_left _ hMem)
  have hLower : Text.lower (a ++ b) = Text.lower a ++ Text.lower b := by
    have hAscii : ∀ c ∈ a.toList ++ b.toList, c.toNat < 0x80 := fun c hc =>
      toNat_lt_of_isLabelChar (hChars c hc)
    rw [Text.lower_eq_lowerAscii fun c hc =>
        hAscii c (String.toList_append ▸ hc),
      Text.lower_eq_lowerAscii fun c hc =>
        hAscii c (List.mem_append_left _ hc),
      Text.lower_eq_lowerAscii fun c hc =>
        hAscii c (List.mem_append_right _ hc), Text.lowerAscii_append]
  have hGrows : Nat.ofDigitChars 10 a.toList 0 ≤
      Nat.ofDigitChars 10 (a ++ b).toList 0 := by
    rw [String.toList_append, Nat.ofDigitChars_append]
    exact Numeral.le_ofDigitChars _ _
  unfold identifierOrder
  cases hm : Numeral.read64? a with
  | some m =>
      cases hn : Numeral.read64? (a ++ b) with
      | none => rfl
      | some n =>
          rw [Numeral.read64?_eq_some_iff ha hPlusFirst] at hm
          rw [Numeral.read64?_eq_some_iff hSome hPlus] at hn
          rw [hm.2.1, hn.2.1] at hGrows
          exact Nat.isLE_compare.mpr hGrows
  | none =>
      cases hn : Numeral.read64? (a ++ b) with
      | none =>
          dsimp only
          rw [hLower]
          exact Text.order_append _ _
      | some n =>
          -- What goes on to a number is a number itself.
          rw [Numeral.read64?_eq_some_iff hSome hPlus] at hn
          rcases hn with ⟨hDigits, rfl, hShort⟩
          have hRead := (Numeral.read64?_eq_some_iff ha hPlusFirst).mpr
            ⟨fun c hc => hDigits c (by
              rw [String.toList_append]
              exact List.mem_append_left _ hc), rfl,
              Nat.lt_of_le_of_lt hGrows hShort⟩
          rw [hm] at hRead
          cases hRead

/- A label that goes on does not come before what it starts with. -/
theorem labelOrder_append
    (hSome : a ≠ "")
    (hDot : ∀ c ∈ a.toList.getLast?, c ≠ '.')
    (hLabel : isLabel (a ++ b) = true) :
    (labelOrder a (a ++ b)).isLE = true := by
  rcases Text.exists_splitAt_append a b with
    ⟨front, last, first, back, ha, -, hBoth⟩
  have hIdentifier : IsIdentifier (last ++ first) :=
    isIdentifier_of_isLabel hLabel _ (by rw [hBoth]; simp)
  have hLast : last.toList ≠ [] := by
    intro hNil
    rw [String.toList_eq_nil_iff] at hNil
    have hText := Text.join_splitAt a
    rw [ha, hNil] at hText
    by_cases hFront : front = []
    · rw [hFront] at hText
      exact hSome (hText.symm.trans (by simp [Text.join]))
    · rw [Text.join_concat hFront, String.append_empty] at hText
      exact hDot '.' (by simp [← hText]) rfl
  rw [labelOrder, ha, hBoth]
  exact compareLex_concat front back
    (identifierOrder_append hLast hIdentifier.isLabelChar)

/- No identifier comes before a zero. -/
theorem identifierOrder_zero
    (s : String) :
    (identifierOrder "0" s).isLE = true := by
  have hRead : Numeral.read64? "0" = some 0 := by decide
  rw [identifierOrder, hRead]
  cases Numeral.read64? s with
  | none => rfl
  | some n => exact Nat.isLE_compare.mpr (Nat.zero_le n)

/- No label comes before the lowest identifier. -/
theorem labelOrder_zero
    (a : String) :
    (labelOrder "0" a).isLE = true := by
  have hZero : Text.splitAt '.' "0" = ["0"] := by decide
  rcases List.exists_cons_of_ne_nil (Text.splitAt_ne_nil '.' a) with
    ⟨first, back, ha⟩
  rw [labelOrder, ha, hZero]
  exact compareLex_concat [] back (identifierOrder_zero first)

------------------------------------------------------------
-- Versions
------------------------------------------------------------

theorem le_of_numbers_eq
    (hNumbers : v.numbers = w.numbers)
    (hLabels : (labelsOrder v.label w.label).isLE = true) :
    v.le w = true := by
  have hSelf : List.compareLex compare w.numbers w.numbers = .eq :=
    Std.ReflCmp.compare_self
  rw [le_iff_isLE, order, hNumbers, hSelf]
  exact hLabels

@[simp]
theorem withLabel_numbers
    (v : PackageVersion)
    (label : String) :
    (v.withLabel label).numbers = v.numbers := by
  simp only [withLabel, numbers]

theorem withLabel_label
    (v : PackageVersion)
    {label : String}
    (hSome : label ≠ "") :
    (v.withLabel label).label = some label := by
  have hFull : ¬label.isEmpty = true := by
    rwa [String.isEmpty_iff]
  simp only [withLabel, if_neg hFull]

theorem compareLex_replicate_zero
    (ns : List Nat) :
    (List.compareLex compare (List.replicate ns.length 0) ns).isLE = true := by
  induction ns with
  | nil => rfl
  | cons n rest ih =>
      rw [List.length_cons, List.replicate_succ, List.compareLex_cons_cons,
        Ordering.isLE_then_iff_and]
      exact ⟨Nat.isLE_compare.mpr (Nat.zero_le n), Or.inr ih⟩

/- Zeros behind the first numbers make the lowest version. -/
theorem le_of_isPrefix
    {ns : List Nat}
    (hNumbers : v.numbers = ns.rightpad 4 0)
    (hPrefix : ns <+: w.numbers)
    (hLabels : v.label = w.label) :
    v.le w = true := by
  rcases hPrefix with ⟨rest, hRest⟩
  have hLength : 4 - ns.length = rest.length := by
    have hFour := congrArg List.length hRest
    simp only [List.length_append, numbers, List.length_cons,
      List.length_nil] at hFour
    omega
  have hSame : (labelsOrder w.label w.label).isLE = true := by
    cases w.label with
    | none => rfl
    | some label =>
        have hSelf : labelOrder label label = .eq := Std.ReflCmp.compare_self
        rw [labelsOrder, hSelf]
        rfl
  rw [le_iff_isLE, order, hLabels, hNumbers, ← hRest, List.rightpad, hLength,
    compareLex_append_left, Ordering.isLE_then_iff_and]
  exact ⟨compareLex_replicate_zero rest, Or.inr hSame⟩

end PackageVersion

------------------------------------------------------------
-- Floors
------------------------------------------------------------

namespace VersionRange

variable {v w : PackageVersion}

theorem satisfies_floating
    (text : String)
    (floor : PackageVersion)
    (part : FloatingPart)
    (v : PackageVersion) :
    (floating text floor part).satisfies v = floor.le v := by
  simp [satisfies, floating]

/- No label starts with a dot. -/
theorem start_ne_dots
    {start label : String}
    (hSome : start ≠ "")
    (hValid : PackageVersion.isLabel label = true)
    (hStart : start.toList <+: label.toList) :
    ¬∀ c ∈ start.toList, c = '.' := by
  intro hDots
  rcases hStart with ⟨rest, hRest⟩
  cases hChars : start.toList with
  | nil => exact hSome (String.toList_eq_nil_iff.mp hChars)
  | cons c more =>
      rw [hChars] at hDots hRest
      obtain rfl := hDots c List.mem_cons_self
      have hLabel : label = "" ++ "." ++ String.ofList (more ++ rest) := by
        apply String.toList_inj.mp
        simp [← hRest]
      have hFirst : "" ∈ Text.splitAt '.' label := by
        rw [hLabel, Text.splitAt_append]
        exact List.mem_append_left _ (by decide)
      exact (PackageVersion.isIdentifier_of_isLabel hValid "" hFirst).ne_nil rfl

/-
  The floor of a prerelease float is not above the versions
  of its numbers whose labels go on from its start.
-/
theorem prereleaseFloor_le
    {start label : String}
    (hNumbers : w.numbers = v.numbers)
    (hLabel : w.label = some label)
    (hValid : PackageVersion.isLabel label = true)
    (hStart : start.toList <+: label.toList) :
    (prereleaseFloor v start).le w = true := by
  unfold prereleaseFloor
  split
  · refine PackageVersion.le_of_numbers_eq (by simp [hNumbers]) ?_
    rw [v.withLabel_label (by decide), hLabel]
    exact PackageVersion.labelOrder_zero label
  · next hSome =>
      rw [String.isEmpty_iff] at hSome
      let kept := Text.dropEndWhile (· == '.') start.toList
      have hPrefix : kept <+: start.toList := by
        rw [← List.reverse_suffix]
        simpa [kept, Text.dropEndWhile] using List.dropWhile_suffix (· == '.')
      rcases hPrefix.trans hStart with ⟨rest, hRest⟩
      have hWhole : String.ofList kept ++ String.ofList rest = label := by
        rw [← String.ofList_append, hRest, String.ofList_toList]
      have hKept : String.ofList kept ≠ "" := by
        intro hNone
        refine start_ne_dots hSome hValid hStart fun c hc => ?_
        have hAll : start.toList.reverse.dropWhile (· == '.') = [] := by
          simpa [kept, Text.dropEndWhile] using hNone
        exact beq_iff_eq.mp
          (List.dropWhile_eq_nil_iff.mp hAll c (List.mem_reverse.mpr hc))
      have hDot : ∀ c ∈ (String.ofList kept).toList.getLast?, c ≠ '.' := by
        intro c hc
        rw [String.toList_ofList] at hc
        change c ∈ (start.toList.reverse.dropWhile _).reverse.getLast? at hc
        rw [List.getLast?_reverse] at hc
        have hNot := List.head?_dropWhile_not (· == '.') start.toList.reverse
        rw [Option.mem_def.mp hc] at hNot
        simpa using hNot
      refine PackageVersion.le_of_numbers_eq (by simp [hNumbers]) ?_
      rw [v.withLabel_label hKept, hLabel, ← hWhole]
      exact PackageVersion.labelOrder_append hKept hDot (hWhole ▸ hValid)

end VersionRange

------------------------------------------------------------
-- Texts of floating ranges
------------------------------------------------------------

/-
  A star on its own, behind some numbers, or behind the start
  of a label.
-/
inductive FloatingText where
  | all
  | numbers (digits : String)
  | prerelease (digits start : String)
  deriving Repr, DecidableEq

namespace FloatingText

def text : FloatingText → String
  | .all => "*"
  | .numbers digits => digits ++ ".*"
  | .prerelease digits start => digits ++ "-" ++ start ++ "*"

def isNumbersChar (c : Char) : Bool :=
  Text.isAsciiDigit c || c == '.'

/-
  Numbers are written with digits and dots, and the start of
  a label with the characters of labels.
-/
def IsSpelled : FloatingText → Prop
  | .all => True
  | .numbers digits => ∀ c ∈ digits.toList, isNumbersChar c = true
  | .prerelease digits start =>
    (∀ c ∈ digits.toList, isNumbersChar c = true) ∧
      ∀ c ∈ start.toList, PackageVersion.isTextChar c = true

/-
  The star can stand for the rest of the version: it has the
  numbers that are written in front of it, or its label goes
  on from there.
-/
def Matches (form : FloatingText) (v : PackageVersion) : Prop :=
  match form with
  | .all => v.label = none
  | .numbers digits =>
    v.label = none ∧
      ∃ ns, (Text.splitAt '.' digits).mapM PackageVersion.number? = some ns ∧
        ns <+: v.numbers
  | .prerelease digits start =>
    (∃ base, PackageVersion.parse? digits = some base ∧
      v.numbers = base.numbers) ∧
      ∃ label, v.label = some label ∧ start.toList <+: label.toList

/- The version that a floating range starts from. -/
def floor? : FloatingText → Option PackageVersion
  | .all => some (.ofNumbers 0 0 0 0)
  | .numbers digits => PackageVersion.parse? digits
  | .prerelease digits start =>
    (PackageVersion.parse? digits).map fun base =>
      VersionRange.prereleaseFloor base start

variable {form : FloatingText}
variable {r : VersionRange}
variable {v floor : PackageVersion}

------------------------------------------------------------
-- Numbers
------------------------------------------------------------

theorem isTextChar_of_isNumbersChar
    {c : Char}
    (h : isNumbersChar c = true) :
    PackageVersion.isTextChar c = true := by
  rw [isNumbersChar, Bool.or_eq_true, beq_iff_eq] at h
  rcases h with hDigit | rfl
  · exact PackageVersion.isTextChar_of_isAsciiDigit hDigit
  · rfl

theorem not_mem_of_isNumbersChar
    {digits : String}
    (h : ∀ c ∈ digits.toList, isNumbersChar c = true)
    {c : Char}
    (hOther : isNumbersChar c = false) :
    c ∉ digits.toList := by
  intro hMem
  rw [h c hMem] at hOther
  cases hOther

/- A text of digits and dots is read as numbers. -/
theorem parse?_of_isNumbersChar
    {digits : String}
    (h : ∀ c ∈ digits.toList, isNumbersChar c = true) :
    PackageVersion.parse? digits = PackageVersion.ofParts? digits none := by
  have hTrim : Text.trim digits = digits :=
    Text.trim_eq_self fun c hc =>
      PackageVersion.isVisible_of_isTextChar (isTextChar_of_isNumbersChar (h c hc))
  have hPlus := not_mem_of_isNumbersChar h (c := '+') (by decide)
  have hHyphen := not_mem_of_isNumbersChar h (c := '-') (by decide)
  rw [PackageVersion.parse?, hTrim, Text.before_eq_self hPlus,
    Text.splitOnce_eq_none_iff.mpr hHyphen]

/- The floor is not above a version that the star can stand for. -/
theorem floor?_le
    (hSpelled : form.IsSpelled)
    (hFloor : form.floor? = some floor)
    (hWritten : v.IsWritten)
    (hMatches : form.Matches v) :
    floor.le v = true := by
  cases form with
  | all =>
      cases hFloor
      have hZeros : (PackageVersion.ofNumbers 0 0 0 0).numbers =
          [].rightpad 4 0 := rfl
      exact PackageVersion.le_of_isPrefix hZeros List.nil_prefix hMatches.symm
  | numbers digits =>
      rcases hMatches with ⟨hLabel, ns, hNumbers, hPrefix⟩
      rw [floor?, parse?_of_isNumbersChar hSpelled] at hFloor
      rcases PackageVersion.ofParts?_eq_some_iff.mp hFloor with
        ⟨others, hOthers, -, hNone, -, hPadded⟩
      obtain rfl := Option.some.inj (hNumbers.symm.trans hOthers)
      exact PackageVersion.le_of_isPrefix hPadded hPrefix
        (hNone.trans hLabel.symm)
  | prerelease digits start =>
      rcases hMatches with ⟨⟨base, hBase, hNumbers⟩, label, hLabel, hStart⟩
      rw [floor?, Option.map_eq_some_iff] at hFloor
      rcases hFloor with ⟨other, hOther, rfl⟩
      obtain rfl := Option.some.inj (hBase.symm.trans hOther)
      have hValid := hWritten.labelled
      rw [hLabel] at hValid
      exact VersionRange.prereleaseFloor_le hNumbers hLabel hValid hStart

------------------------------------------------------------
-- Reading
------------------------------------------------------------

theorem mem_text
    (hSpelled : form.IsSpelled)
    {c : Char}
    (hc : c ∈ form.text.toList) :
    c = '*' ∨ PackageVersion.isTextChar c = true := by
  cases form with
  | all => exact Or.inl (by simpa [text] using hc)
  | numbers digits =>
      simp only [text, String.toList_append, List.mem_append] at hc
      rcases hc with hNumber | hEnd
      · exact Or.inr (isTextChar_of_isNumbersChar (hSpelled c hNumber))
      · have hEither : c = '.' ∨ c = '*' := by simpa using hEnd
        rcases hEither with rfl | rfl
        · exact Or.inr rfl
        · exact Or.inl rfl
  | prerelease digits start =>
      simp only [text, String.toList_append, List.mem_append] at hc
      rcases hc with ((hNumber | hHyphen) | hStart) | hStar
      · exact Or.inr (isTextChar_of_isNumbersChar (hSpelled.1 c hNumber))
      · have hChar : c = '-' := by simpa using hHyphen
        exact Or.inr (hChar ▸ rfl)
      · exact Or.inr (hSpelled.2 c hStart)
      · exact Or.inl (by simpa using hStar)

theorem trim_text
    (hSpelled : form.IsSpelled) :
    Text.trim form.text = form.text := by
  refine Text.trim_eq_self fun c hc => ?_
  rcases mem_text hSpelled hc with rfl | hChar
  · decide
  · exact PackageVersion.isVisible_of_isTextChar hChar

theorem star_mem_text
    (form : FloatingText) :
    '*' ∈ form.text.toList := by
  cases form <;> simp [text]

theorem not_mem_text
    (hSpelled : form.IsSpelled)
    {c : Char}
    (hStar : c ≠ '*')
    (hChar : PackageVersion.isTextChar c = false) :
    c ∉ form.text.toList := by
  intro hMem
  rcases mem_text hSpelled hMem with rfl | hText
  · exact hStar rfl
  · rw [hChar] at hText
    cases hText

/- A text with a star is neither an interval nor a single version. -/
theorem parse?_eq_float?
    (hSpelled : form.IsSpelled) :
    VersionRange.parse? form.text = VersionRange.float? form.text := by
  have hEmpty : form.text.isEmpty = false := by
    rw [String.isEmpty_eq_false_iff]
    intro hNone
    have hStar := star_mem_text form
    rw [hNone] at hStar
    cases hStar
  have hSquare : Text.hasStart "[" form.text = false :=
    Text.hasStart_eq_false List.mem_cons_self
      (not_mem_text hSpelled (by decide) (by decide))
  have hRound : Text.hasStart "(" form.text = false :=
    Text.hasStart_eq_false List.mem_cons_self
      (not_mem_text hSpelled (by decide) (by decide))
  have hStar : VersionRange.hasStar form.text = true := by
    rw [VersionRange.hasStar, List.contains_eq_mem, decide_eq_true_eq]
    exact star_mem_text form
  rw [VersionRange.parse?, trim_text hSpelled, hEmpty, hSquare, hRound, hStar]
  rfl

/- What stands in front of the first hyphen and behind it. -/
def halves? : FloatingText → Option (String × String)
  | .all => none
  | .numbers _ => none
  | .prerelease digits start => some (digits, start ++ "*")

theorem splitOnce_text
    (hSpelled : form.IsSpelled) :
    Text.splitOnce '-' form.text = form.halves? := by
  cases form with
  | all => decide
  | numbers digits =>
      have hHyphen := not_mem_of_isNumbersChar hSpelled (c := '-') (by decide)
      rw [halves?, Text.splitOnce_eq_none_iff]
      simpa [text] using hHyphen
  | prerelease digits start =>
      have hHyphen := not_mem_of_isNumbersChar hSpelled.1 (c := '-') (by decide)
      have hText : text (.prerelease digits start) =
          digits ++ String.singleton '-' ++ (start ++ "*") := by
        rw [text, String.append_assoc, String.append_assoc,
          String.append_assoc]
        rfl
      rw [hText, Text.splitOnce_append hHyphen, halves?]

theorem text_ne_star
    (hOther : form ≠ .all) :
    ¬(form.text == "*") = true := by
  rw [beq_iff_eq]
  intro hSame
  have hLength := congrArg (List.length ∘ String.toList) hSame
  cases form with
  | all => exact hOther rfl
  | numbers digits => simp [text] at hLength
  | prerelease digits start =>
      simp [text] at hLength
      omega

/- A range that is read from the text floats above its floor. -/
theorem eq_floating_of_parse?
    (hSpelled : form.IsSpelled)
    (h : VersionRange.parse? form.text = some r) :
    ∃ floor part,
      form.floor? = some floor ∧ r = .floating form.text floor part := by
  rw [parse?_eq_float? hSpelled, VersionRange.float?,
    splitOnce_text hSpelled] at h
  cases form with
  | all =>
      cases h
      exact ⟨_, _, rfl, rfl⟩
  | numbers digits =>
      have hOther : FloatingText.numbers digits ≠ .all := nofun
      rw [if_neg (text_ne_star hOther), halves?] at h
      rcases Option.bind_eq_some_iff.mp h with ⟨stem, hStem, h⟩
      rw [Text.stripEnd?_eq_some_iff, text, String.append_left_inj] at hStem
      subst hStem
      dsimp only at h
      split at h
      · cases h
      · rcases Option.bind_eq_some_iff.mp h with ⟨part, -, h⟩
        rcases Option.bind_eq_some_iff.mp h with ⟨floor, hFloor, h⟩
        cases h
        exact ⟨floor, part, hFloor, rfl⟩
  | prerelease digits start =>
      have hOther : FloatingText.prerelease digits start ≠ .all := nofun
      rw [if_neg (text_ne_star hOther), halves?] at h
      rcases Option.bind_eq_some_iff.mp h with ⟨stem, hStem, h⟩
      rw [Text.stripEnd?_eq_some_iff, String.append_left_inj] at hStem
      subst hStem
      dsimp only at h
      split at h
      · cases h
      · rcases Option.bind_eq_some_iff.mp h with ⟨base, hBase, h⟩
        cases h
        refine ⟨_, _, ?_, rfl⟩
        rw [floor?, hBase]
        rfl

/- No version is written with a star. -/
theorem parse?_text
    (hSpelled : form.IsSpelled) :
    PackageVersion.parse? form.text = none := by
  have hPlus : '+' ∉ form.text.toList :=
    not_mem_text hSpelled (by decide) (by decide)
  rw [PackageVersion.parse?, trim_text hSpelled, Text.before_eq_self hPlus,
    splitOnce_text hSpelled]
  cases form with
  | all => decide
  | numbers digits =>
      have hPieces : Text.splitAt '.' (text (.numbers digits)) =
          Text.splitAt '.' digits ++ ["*"] := by
        have hText : text (.numbers digits) = digits ++ "." ++ "*" := by
          rw [text, String.append_assoc]
          rfl
        rw [hText, Text.splitAt_concat (by decide)]
      have hStar : PackageVersion.number? "*" = none := by decide
      rw [halves?]
      dsimp only
      rw [PackageVersion.ofParts?, hPieces, List.mapM_append]
      simp [hStar]
  | prerelease digits start =>
      rw [halves?, Option.eq_none_iff_forall_ne_some]
      intro v hRead
      rcases PackageVersion.ofParts?_eq_some_iff.mp hRead with
        ⟨-, -, hLabel, -⟩
      have hStar := PackageVersion.isTextChar_of_mem_label (c := '*') hLabel
        (by simp)
      cases hStar

/-
  The floor of a floating range is what a reference with that
  text means.  The range holds its floor, and every version
  that its star can stand for.
-/
theorem floor_bounds
    (hSpelled : form.IsSpelled)
    (h : VersionRange.parse? form.text = some r) :
    (∀ s v, PackageVersion.parse? s = some v → form.Matches v →
      r.satisfies v = true) ∧
    ∀ ref : PackageReference, ref.version = form.text →
      ∃ floor, r.min = some floor ∧ ref.version? = some floor ∧
        r.satisfies floor = true := by
  rcases eq_floating_of_parse? hSpelled h with ⟨floor, part, hFloor, rfl⟩
  refine ⟨fun s v hRead hMatches => ?_, fun ref hRef => ?_⟩
  · rw [VersionRange.satisfies_floating]
    exact floor?_le hSpelled hFloor (.of_parse? hRead) hMatches
  · refine ⟨floor, rfl, ?_, ?_⟩
    · rw [PackageReference.version?, PackageReference.range?, hRef,
        parse?_text hSpelled, h]
      rfl
    · rw [VersionRange.satisfies_floating]
      exact PackageVersion.le_refl floor

/- A numeral can go on until it is too long to be a number. -/
theorem floor_bounds_of_numeral :
    let form : FloatingText :=
      .prerelease "1.0.0" "rc.18446744073709551615"
    let floor : PackageVersion :=
      ⟨1, 0, 0, 0, some "rc.18446744073709551615"⟩
    let range := VersionRange.floating form.text floor .prerelease
    let later : PackageVersion :=
      ⟨1, 0, 0, 0, some "rc.184467440737095516150"⟩
    form.IsSpelled ∧
      VersionRange.parse? form.text = some range ∧
      form.Matches later ∧
      range.satisfies later = true ∧
      PackageReference.version? ⟨"Json", form.text⟩ = some floor ∧
      range.satisfies floor = true := by
  intro form floor range later
  have hSpelled : form.IsSpelled :=
    ⟨List.all_eq_true.mp (by decide +kernel),
      List.all_eq_true.mp (by decide +kernel)⟩
  have hRange : VersionRange.parse? form.text = some range := by
    decide +kernel
  have hLater : PackageVersion.parse? later.text = some later := by
    decide +kernel
  have hMatches : form.Matches later :=
    ⟨⟨.ofNumbers 1 0 0 0, by decide +kernel, rfl⟩, _, rfl,
      by decide +kernel⟩
  have hBounds := floor_bounds hSpelled hRange
  rcases hBounds.2 ⟨"Json", form.text⟩ rfl with
    ⟨v, hFloor, hVersion, hHolds⟩
  cases hFloor
  exact ⟨hSpelled, hRange, hMatches, hBounds.1 _ later hLater hMatches,
    hVersion, hHolds⟩

end FloatingText

end Retarget
