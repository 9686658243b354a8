import Retarget.Package.Range
import Retarget.Proofs.Text.Separator

/-
  This file shows that versions and ranges of packages are
  read back from their texts.  The text of a version that was
  read is in its shortest form already, and a range keeps the
  text that it was read from.

  Key definitions include:
    * `PackageVersion.IsWritten`

  Key statements include:
    * `PackageVersion.ofParts?_eq_some_iff`
    * `PackageVersion.parse?_text`
    * `VersionRange.parse?_trim`
    * `VersionRange.text_eq_of_parse?`
-/

namespace Retarget

------------------------------------------------------------
-- Versions
------------------------------------------------------------

namespace PackageVersion

variable {v w : PackageVersion}
variable {ns : List Nat}
variable {numberText text : String}
variable {label : Option String}
variable {c : Char}

/- A version that a text can stand for. -/
structure IsWritten (v : PackageVersion) : Prop where
  bounded : ∀ n ∈ v.numbers, n < UInt64.size
  labelled : v.label.all isLabel = true

/- Numbers that are left out are zero. -/
theorem ofParts?_eq_some_iff :
    ofParts? numberText label = some v ↔
      ∃ ns, (Text.splitAt '.' numberText).mapM number? = some ns ∧
        label.all isLabel = true ∧ v.label = label ∧
        ns ≠ [] ∧ v.numbers = ns.rightpad 4 0 := by
  constructor
  · intro h
    rcases Option.bind_eq_some_iff.mp h with ⟨ns, hNumbers, h⟩
    dsimp only at h
    split at h
    · cases h
    · next hLabel =>
        refine ⟨ns, hNumbers, by simpa using hLabel, ?_⟩
        split at h <;> cases h
        all_goals exact ⟨rfl, List.cons_ne_nil _ _, rfl⟩
  · rintro ⟨ns, hNumbers, hLabel, rfl, hSome, hPadded⟩
    have hLength : ns.length ≤ 4 := by
      have hLengths := congrArg List.length hPadded
      simp only [numbers, List.length_rightpad, List.length_cons,
        List.length_nil] at hLengths
      omega
    rw [ofParts?, hNumbers, hLabel]
    obtain ⟨a, b, c, d, label⟩ := v
    rcases ns with _ | ⟨a', _ | ⟨b', _ | ⟨c', _ | ⟨d', _ | ⟨e, rest⟩⟩⟩⟩⟩
    · exact absurd rfl hSome
    · cases hPadded
      rfl
    · cases hPadded
      rfl
    · cases hPadded
      rfl
    · cases hPadded
      rfl
    · simp only [List.length_cons] at hLength
      omega

theorem number?_toString
    {n : Nat}
    (h : n < UInt64.size) :
    number? (toString n) = some n := by
  have hDigits : (toString n).toList.all Text.isAsciiDigit = true :=
    List.all_eq_true.mpr fun _ => Numeral.isAsciiDigit_of_mem_toString
  rw [number?, if_pos hDigits, Numeral.read64?_toString h]

theorem lt_of_number?
    {s : String}
    {n : Nat}
    (h : number? s = some n) :
    n < UInt64.size := by
  rw [number?] at h
  split at h
  · exact Numeral.lt_of_read64? h
  · cases h

theorem isWritten_of_ofParts?
    (h : ofParts? numberText label = some v) :
    v.IsWritten := by
  rcases ofParts?_eq_some_iff.mp h with
    ⟨ns, hNumbers, hLabel, rfl, -, hPadded⟩
  refine ⟨?_, hLabel⟩
  rw [hPadded]
  intro n hn
  rcases List.mem_append.mp hn with hRead | hZero
  · exact Numeral.forall_of_mapM (fun _ _ => lt_of_number?) hNumbers n hRead
  · rw [List.eq_of_mem_replicate hZero]
    decide

theorem IsWritten.of_parse?
    (h : parse? text = some v) :
    v.IsWritten := by
  unfold parse? at h
  dsimp only at h
  split at h
  · exact isWritten_of_ofParts? h
  · exact isWritten_of_ofParts? h

------------------------------------------------------------
-- The text of a version
------------------------------------------------------------

/- The numbers that the text of a version shows. -/
def shown (v : PackageVersion) : List Nat :=
  if v.revision > 0 then v.numbers else v.numbers.take 3

def shownText (v : PackageVersion) : String :=
  Text.join "." (v.shown.map toString)

theorem text_eq
    (v : PackageVersion) :
    v.text = v.shownText ++ v.label.elim "" fun label => "-" ++ label :=
  rfl

theorem shown_subset
    (v : PackageVersion) :
    v.shown ⊆ v.numbers := by
  unfold shown
  split
  · exact List.Subset.refl _
  · exact List.take_subset 3 v.numbers

theorem shown_ne_nil
    (v : PackageVersion) :
    v.shown ≠ [] := by
  unfold shown
  split <;> simp [numbers]

/- Only a zero is not shown. -/
theorem rightpad_shown
    (v : PackageVersion) :
    v.shown.rightpad 4 0 = v.numbers := by
  unfold shown
  split
  · rfl
  · next hZero =>
      have hRevision : v.revision = 0 := by omega
      simp [numbers, hRevision, List.rightpad]

/- The characters that the text of a version is made of. -/
def isTextChar (c : Char) : Bool :=
  isLabelChar c || c == '.'

theorem isTextChar_of_isAsciiDigit
    (h : Text.isAsciiDigit c = true) :
    isTextChar c = true := by
  simp [isTextChar, isLabelChar, Text.isAsciiAlphanumeric, h]

theorem mem_shownText
    (h : c ∈ v.shownText.toList) :
    c = '.' ∨ Text.isAsciiDigit c = true := by
  refine (Text.mem_join h).imp_right ?_
  rintro ⟨s, hs, hc⟩
  rcases List.mem_map.mp hs with ⟨n, -, rfl⟩
  exact Numeral.isAsciiDigit_of_mem_toString hc

theorem isTextChar_of_mem_label
    {label : String}
    (hLabel : isLabel label = true)
    (h : c ∈ label.toList) :
    isTextChar c = true := by
  rw [← Text.join_splitAt label] at h
  rcases Text.mem_join h with rfl | ⟨s, hs, hc⟩
  · rfl
  · have hIdentifier := List.all_eq_true.mp hLabel s hs
    rw [Bool.and_eq_true, List.all_eq_true] at hIdentifier
    simp [isTextChar, hIdentifier.2 c hc]

theorem IsWritten.isTextChar_of_mem
    (h : v.IsWritten)
    (hc : c ∈ v.text.toList) :
    isTextChar c = true := by
  rw [text_eq, String.toList_append, List.mem_append] at hc
  rcases hc with hNumber | hLabel
  · rcases mem_shownText hNumber with rfl | hDigit
    · rfl
    · exact isTextChar_of_isAsciiDigit hDigit
  · cases hSome : v.label with
    | none => simp [hSome] at hLabel
    | some label =>
        have hValid := h.labelled
        rw [hSome] at hValid hLabel
        rw [Option.elim_some, String.toList_append, List.mem_append] at hLabel
        rcases hLabel with hHyphen | hLabel
        · obtain rfl : c = '-' := by simpa using hHyphen
          rfl
        · exact isTextChar_of_mem_label hValid hLabel

/- A character that is in no text of a version. -/
theorem IsWritten.not_mem_text
    (h : v.IsWritten)
    (hc : isTextChar c = false) :
    c ∉ v.text.toList := by
  intro hMem
  rw [h.isTextChar_of_mem hMem] at hc
  cases hc

theorem isVisible_of_isTextChar
    (h : isTextChar c = true) :
    Text.IsVisible c := by
  rw [isTextChar, isLabelChar, Text.isAsciiAlphanumeric, Bool.or_eq_true,
    Bool.or_eq_true, Bool.or_eq_true, beq_iff_eq, beq_iff_eq] at h
  rcases h with ((hLetter | hDigit) | rfl) | rfl
  · exact Text.isVisible_of_isAsciiLetter hLetter
  · exact Text.isVisible_of_isAsciiDigit hDigit
  · decide
  · decide

theorem IsWritten.trim_text
    (h : v.IsWritten) :
    Text.trim v.text = v.text :=
  Text.trim_eq_self fun _ hc => isVisible_of_isTextChar (h.isTextChar_of_mem hc)

/- A version is read back from its text. -/
theorem IsWritten.parse?_text
    (h : v.IsWritten) :
    parse? v.text = some v := by
  have hCore : Text.before '+' (Text.trim v.text) = v.text := by
    rw [h.trim_text, Text.before_eq_self (h.not_mem_text rfl)]
  have hHyphen : '-' ∉ v.shownText.toList := by
    intro hMem
    rcases mem_shownText hMem with hDot | hDigit
    · exact absurd hDot (by decide)
    · exact absurd hDigit (by decide)
  have hNumbers :
      (Text.splitAt '.' v.shownText).mapM number? = some v.shown :=
    Numeral.mapM_splitAt_join v.shown_ne_nil fun n hn =>
      number?_toString (h.bounded n (v.shown_subset hn))
  have hParts : ofParts? v.shownText v.label = some v :=
    ofParts?_eq_some_iff.mpr
      ⟨v.shown, hNumbers, h.labelled, rfl, v.shown_ne_nil,
        v.rightpad_shown.symm⟩
  rw [parse?, hCore, text_eq]
  cases hLabel : v.label with
  | none =>
      rw [Option.elim_none, String.append_empty,
        Text.splitOnce_eq_none_iff.mpr hHyphen, ← hLabel]
      exact hParts
  | some label =>
      have hText : v.shownText ++ ("-" ++ label) =
          v.shownText ++ String.singleton '-' ++ label := by
        rw [String.append_assoc]
        rfl
      rw [Option.elim_some, hText, Text.splitOnce_append hHyphen]
      rw [hLabel] at hParts
      exact hParts

/- No version has an empty text. -/
theorem IsWritten.isEmpty_text
    (h : v.IsWritten) :
    v.text.isEmpty = false := by
  rw [Bool.eq_false_iff, ne_eq, String.isEmpty_iff]
  intro hEmpty
  have hRead := h.parse?_text
  have hNone : parse? "" = none := by decide
  rw [hEmpty, hNone] at hRead
  cases hRead

end PackageVersion

------------------------------------------------------------
-- Ranges
------------------------------------------------------------

namespace VersionRange

variable {r : VersionRange}
variable {v : PackageVersion}
variable {text : String}

/- Blanks around a range do not count. -/
theorem parse?_trim
    (text : String) :
    parse? (Text.trim text) = parse? text := by
  rw [parse?, parse?, Text.trim_trim]

theorem text_eq_of_interval?
    (h : interval? text = some r) :
    r.text = text := by
  unfold interval? at h
  dsimp only at h
  split at h
  · cases h
  · split at h
    · split at h
      · rcases Option.bind_eq_some_iff.mp h with ⟨v, -, h⟩
        cases h
        rfl
      · cases h
    · rcases Option.bind_eq_some_iff.mp h with ⟨min, -, h⟩
      rcases Option.bind_eq_some_iff.mp h with ⟨max, -, h⟩
      split at h
      · cases h
        rfl
      · cases h

theorem text_eq_of_prereleaseFloat?
    {numbers label : String}
    (h : prereleaseFloat? text numbers label = some r) :
    r.text = text := by
  unfold prereleaseFloat? at h
  rcases Option.bind_eq_some_iff.mp h with ⟨start, -, h⟩
  dsimp only at h
  split at h
  · cases h
  · rcases Option.bind_eq_some_iff.mp h with ⟨v, -, h⟩
    cases h
    rfl

theorem text_eq_of_numberFloat?
    (h : numberFloat? text = some r) :
    r.text = text := by
  unfold numberFloat? at h
  rcases Option.bind_eq_some_iff.mp h with ⟨floor, -, h⟩
  dsimp only at h
  split at h
  · cases h
  · rcases Option.bind_eq_some_iff.mp h with ⟨part, -, h⟩
    rcases Option.bind_eq_some_iff.mp h with ⟨v, -, h⟩
    cases h
    rfl

theorem text_eq_of_float?
    (h : float? text = some r) :
    r.text = text := by
  unfold float? at h
  split at h
  · cases h
    rfl
  · split at h
    · exact text_eq_of_prereleaseFloat? h
    · exact text_eq_of_numberFloat? h

/- A range keeps its text without the blanks around it. -/
theorem text_eq_of_parse?
    (h : parse? text = some r) :
    r.text = Text.trim text := by
  unfold parse? at h
  dsimp only at h
  split at h
  · cases h
  · split at h
    · exact text_eq_of_interval? h
    · split at h
      · exact text_eq_of_float? h
      · rcases Option.map_eq_some_iff.mp h with ⟨v, -, rfl⟩
        rfl

theorem parse?_text_of_parse?
    (h : parse? text = some r) :
    parse? r.text = some r := by
  rw [text_eq_of_parse? h, parse?_trim, h]

/- A version is read as the range from it on. -/
theorem parse?_atLeast
    (h : v.IsWritten) :
    parse? (atLeast v).text = some (atLeast v) := by
  have hText : (atLeast v).text = v.text := rfl
  have hSquare : Text.hasStart "[" v.text = false :=
    Text.hasStart_eq_false List.mem_cons_self (h.not_mem_text rfl)
  have hRound : Text.hasStart "(" v.text = false :=
    Text.hasStart_eq_false List.mem_cons_self (h.not_mem_text rfl)
  have hStar : hasStar v.text = false := by
    rw [hasStar, List.contains_eq_mem, decide_eq_false_iff_not]
    exact h.not_mem_text rfl
  rw [hText, parse?, h.trim_text, h.isEmpty_text, hSquare, hRound, hStar,
    h.parse?_text]
  rfl

/- A version in square brackets is read as that version only. -/
theorem parse?_exactly
    (h : v.IsWritten) :
    parse? (exactly v).text = some (exactly v) := by
  let text := "[" ++ v.text ++ "]"
  have hChars : text.toList = '[' :: (v.text.toList ++ [']']) := by
    simp [text]
  have hTrim : Text.trim text = text := by
    refine Text.trim_eq_self fun c hc => ?_
    rw [hChars, List.mem_cons, List.mem_append, List.mem_singleton] at hc
    rcases hc with rfl | hc | rfl
    · decide
    · exact PackageVersion.isVisible_of_isTextChar (h.isTextChar_of_mem hc)
    · decide
  have hEmpty : text.isEmpty = false := by
    rw [String.isEmpty_eq_false_iff, ← String.toList_inj.ne, hChars]
    simp
  have hStart : Text.hasStart "[" text = true := by
    rw [Text.hasStart, hChars]
    rfl
  have hEnd : Text.hasEnd "]" text = true :=
    Text.hasEnd_iff.mpr ⟨"[" ++ v.text, rfl⟩
  have hInner : Text.trim (String.ofList (text.toList.drop 1).dropLast) =
      v.text := by
    rw [hChars, List.drop_one, List.tail_cons, List.dropLast_concat,
      String.ofList_toList, h.trim_text]
  have hLength : ¬ text.length < 2 := by
    rw [← String.length_toList, hChars]
    simp
  have hComma : Text.splitOnce ',' v.text = none :=
    Text.splitOnce_eq_none_iff.mpr (h.not_mem_text rfl)
  have hInterval : interval? text = some (exactly v) := by
    rw [interval?]
    dsimp only
    rw [hStart, hEnd, hInner, hComma, h.parse?_text, decide_eq_false hLength]
    rfl
  have hText : (exactly v).text = text := rfl
  rw [hText, parse?, hTrim, hEmpty, hStart, hInterval]
  rfl

/-
  Versions and ranges are read back from their texts.  What
  is read back is the same in all its parts, so its text is
  the same, too.
-/
theorem texts_reread
    (text : String)
    (v : PackageVersion)
    (r : VersionRange) :
    (PackageVersion.parse? text = some v →
      PackageVersion.parse? v.text = some v ∧
        parse? (atLeast v).text = some (atLeast v) ∧
        parse? (exactly v).text = some (exactly v)) ∧
      (parse? text = some r → parse? r.text = some r) := by
  refine ⟨fun hVersion => ?_, parse?_text_of_parse?⟩
  have h := PackageVersion.IsWritten.of_parse? hVersion
  exact ⟨h.parse?_text, parse?_atLeast h, parse?_exactly h⟩

/- The text of a version is shorter than what it was read from. -/
theorem texts_reread_of_prerelease :
    PackageVersion.parse? " 1.2.0.0-Beta.07+abc " =
        some ⟨1, 2, 0, 0, some "Beta.07"⟩ ∧
      PackageVersion.parse? "1.2.0-Beta.07" =
        some ⟨1, 2, 0, 0, some "Beta.07"⟩ := by
  have hRead : PackageVersion.parse? " 1.2.0.0-Beta.07+abc " =
      some ⟨1, 2, 0, 0, some "Beta.07"⟩ := by
    decide +kernel
  exact ⟨hRead, ((texts_reread _ _ (atLeast ⟨1, 2, 0, 0, none⟩)).1 hRead).1⟩

end VersionRange

end Retarget
