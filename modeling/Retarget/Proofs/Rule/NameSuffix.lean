import Mathlib.Data.List.Forall2
import Retarget.Rule.NameMatch
import Retarget.Proofs.Text.Fold
import Retarget.Proofs.Text.Offset
import Retarget.Proofs.Text.Separator

/-
  This file shows when a written name ends a full name.  The
  comparison cuts bytes, and it says what comparing segments
  says: the segments of the written name are the last ones
  of the full name.

  Key definitions include:
    * `IsQualifying`
    * `isByteSuffix`

  Key statements include:
    * `Language.namesEqual_iff_segments`
    * `exists_isNameSuffix?`
    * `isNameSuffix_iff`
    * `isByteSuffix_of_isNameSuffix`
    * `isNameSuffix_iff_segments`
-/

namespace Retarget

------------------------------------------------------------
-- Equal names
------------------------------------------------------------

/- Two names are the same when their pieces are. -/
theorem Text.equalsIgnoringAsciiCase_iff_splitAt
    {a b : String} :
    equalsIgnoringAsciiCase a b = true ↔
      (splitAt '.' a).map lowerAscii = (splitAt '.' b).map lowerAscii := by
  rw [← lowerAscii_eq_iff, ← splitAt_lowerAscii (by decide),
    ← splitAt_lowerAscii (by decide), splitAt_inj]

namespace Language

variable {language : Language}
variable {a b : String}

/- Names that are equal in a language differ in the case of ASCII letters. -/
theorem equalsIgnoringAsciiCase_of_namesEqual
    (h : language.namesEqual a b = true) :
    Text.equalsIgnoringAsciiCase a b = true := by
  cases language with
  | cSharp =>
      obtain rfl := beq_iff_eq.mp h
      exact Text.equalsIgnoringAsciiCase_refl a
  | visualBasic => exact h

theorem lower_eq_of_namesEqual
    (h : language.namesEqual a b = true) :
    Text.lower a = Text.lower b :=
  Text.lower_congr (equalsIgnoringAsciiCase_of_namesEqual h)

theorem length_eq_of_namesEqual
    (h : language.namesEqual a b = true) :
    a.length = b.length := by
  have hChars := Text.equalsIgnoringAsciiCase_iff.mp
    (equalsIgnoringAsciiCase_of_namesEqual h)
  simpa only [List.length_map, String.length_toList] using
    congrArg List.length hChars

/- The case of ASCII letters does not count for the number of bytes. -/
theorem byteLength_eq_of_namesEqual
    (h : language.namesEqual a b = true) :
    Text.byteLength a.toList = Text.byteLength b.toList := by
  have hChars : Text.fold a.toList = Text.fold b.toList :=
    Text.equalsIgnoringAsciiCase_iff.mp
      (equalsIgnoringAsciiCase_of_namesEqual h)
  rw [← Text.byteLength_fold, hChars, Text.byteLength_fold]

theorem length_bytes_of_namesEqual
    (h : language.namesEqual a b = true) :
    a.toByteArray.data.toList.length = b.toByteArray.data.toList.length := by
  rw [Text.bytes_eq, Text.bytes_eq, ← Text.encode, ← Text.encode,
    Text.length_encode, Text.length_encode, byteLength_eq_of_namesEqual h]

/- Names are equal when their segments are, one by one. -/
theorem namesEqual_iff_segments :
    language.namesEqual a b = true ↔
      List.Forall₂ (fun x y => language.namesEqual x y = true)
        (Text.splitAt '.' a) (Text.splitAt '.' b) := by
  cases language with
  | cSharp =>
      have hEqual : ∀ x y : String,
          Language.cSharp.namesEqual x y = true ↔ x = y :=
        fun _ _ => beq_iff_eq
      simp only [hEqual]
      rw [List.forall₂_eq_eq_eq, Text.splitAt_inj]
  | visualBasic =>
      have hEqual : ∀ x y : String,
          Language.visualBasic.namesEqual x y = true ↔
            Text.lowerAscii x = Text.lowerAscii y :=
        fun _ _ => Text.lowerAscii_eq_iff.symm
      simp only [hEqual]
      rw [← List.forall₂_map_right_iff (f := Text.lowerAscii)
          (R := fun x y => Text.lowerAscii x = y),
        ← List.forall₂_map_left_iff (f := Text.lowerAscii)
          (R := fun x y => x = y),
        List.forall₂_eq_eq_eq, Text.lowerAscii_eq_iff,
        Text.equalsIgnoringAsciiCase_iff_splitAt]

end Language

------------------------------------------------------------
-- Ends of names
------------------------------------------------------------

/- The front of a dotted name: nothing, or a qualifier and its dot. -/
def IsQualifying (front : String) : Prop :=
  front = "" ∨ ∃ outer, front = outer ++ "."

theorem isQualifying_iff
    {front : String} :
    IsQualifying front ↔
      front.toList = [] ∨ front.toList.getLast? = some '.' := by
  rw [IsQualifying, String.toList_eq_nil_iff]
  refine or_congr_right ⟨?_, fun hDot => ?_⟩
  · rintro ⟨outer, rfl⟩
    simp
  · rcases List.getLast?_eq_some_iff.mp hDot with ⟨outer, hOuter⟩
    exact ⟨String.ofList outer, String.toList_inj.mp (by simp [hOuter])⟩

/-
  A name has one end with a number of bytes, or none where
  the end would start inside a character.
-/
theorem exists_qualifying_iff
    {written fullName : String}
    {language : Language} :
    (∃ front ending, IsQualifying front ∧ fullName = front ++ ending ∧
        language.namesEqual ending written = true) ↔
      ∃ front ending : List Char,
        Text.byteLength written.toList ≤ Text.byteLength fullName.toList ∧
        Text.cutAt?
          (Text.byteLength fullName.toList - Text.byteLength written.toList)
          fullName.toList = some (front, ending) ∧
        language.namesEqual (String.ofList ending) written = true ∧
        (front = [] ∨ front.getLast? = some '.') := by
  constructor
  · rintro ⟨front, ending, hFront, rfl, hSame⟩
    have hSize := Language.byteLength_eq_of_namesEqual hSame
    refine ⟨front.toList, ending.toList, ?_, ?_, ?_,
      isQualifying_iff.mp hFront⟩
    · rw [String.toList_append, Text.byteLength_append]
      omega
    · rw [Text.cutAt?_eq_some_iff, String.toList_append,
        Text.byteLength_append]
      exact ⟨rfl, by omega⟩
    · rwa [String.ofList_toList]
  · rintro ⟨front, ending, -, hCut, hSame, hFront⟩
    refine ⟨String.ofList front, String.ofList ending, ?_, ?_, hSame⟩
    · rw [isQualifying_iff, String.toList_ofList]
      exact hFront
    · rw [← String.ofList_append, (Text.cutAt?_eq_some_iff.mp hCut).1,
        String.ofList_toList]

theorem exists_startsSegment?
    (front ending : List Char) :
    ∃ answer,
      startsSegment? (Text.byteLength front) (front ++ ending) =
        some answer ∧
      (answer = true ↔ front = [] ∨ front.getLast? = some '.') := by
  by_cases hNone : front = []
  · subst hNone
    exact ⟨true, rfl, by simp⟩
  · rcases Text.exists_byteAt?_before (d := '.') (by decide) hNone ending with
      ⟨byte, hByte, hDot⟩
    have hSize : Text.byteLength front ≠ 0 := by simpa using hNone
    refine ⟨byte == 46, ?_, ?_⟩
    · rw [startsSegment?, if_neg (by simpa using hNone), Text.distance?,
        if_pos (Nat.one_le_iff_ne_zero.mpr hSize), Option.bind_eq_bind,
        Option.bind_some, hByte]
      rfl
    · rw [beq_iff_eq, ← UInt8.toNat_inj, or_iff_right hNone]
      exact hDot

/-
  There is always an answer: a cut inside a character is no
  end, and in front of an end that is not all there is a byte
  to look at.
-/
theorem exists_isNameSuffix?
    (written fullName : String)
    (language : Language) :
    ∃ answer, isNameSuffix? written fullName language = some answer ∧
      (answer = true ↔ written ≠ "" ∧
        ∃ front ending, IsQualifying front ∧ fullName = front ++ ending ∧
          language.namesEqual ending written = true) := by
  rw [exists_qualifying_iff]
  unfold isNameSuffix?
  dsimp only
  split
  · next hShort =>
      refine ⟨false, rfl, iff_of_false Bool.false_ne_true ?_⟩
      rintro ⟨hSome, front, ending, hSize, -⟩
      simp only [Bool.or_eq_true, String.isEmpty_iff, decide_eq_true_eq]
        at hShort
      exact absurd hSize (Nat.not_le.mpr (hShort.resolve_left hSome))
  · next hLong =>
      simp only [Bool.or_eq_true, String.isEmpty_iff, decide_eq_true_eq,
        not_or, Nat.not_lt] at hLong
      rcases hLong with ⟨hSome, hSize⟩
      rw [Text.distance?, if_pos hSize, Option.bind_eq_bind, Option.bind_some]
      cases hCut : Text.cutAt?
          (Text.byteLength fullName.toList - Text.byteLength written.toList)
          fullName.toList with
      | none => exact ⟨false, rfl, by simp⟩
      | some cut =>
          rcases cut with ⟨front, ending⟩
          rcases Text.cutAt?_eq_some_iff.mp hCut with ⟨hName, hFront⟩
          rcases exists_startsSegment? front ending with
            ⟨answer, hAnswer, hDot⟩
          rw [← hName] at hSize
          rw [← hFront, ← hName]
          dsimp only
          by_cases hSame :
              language.namesEqual (String.ofList ending) written = true
          · refine ⟨answer, by rw [if_pos hSame, hAnswer], ?_⟩
            rw [hDot]
            simp [hSome, hSize, hSame]
          · exact ⟨false, by rw [if_neg hSame]; rfl, by simp [hSame]⟩

theorem isNameSuffix_iff
    {written fullName : String}
    {language : Language} :
    isNameSuffix written fullName language = true ↔ written ≠ "" ∧
      ∃ front ending, IsQualifying front ∧ fullName = front ++ ending ∧
        language.namesEqual ending written = true := by
  rcases exists_isNameSuffix? written fullName language with
    ⟨answer, hAnswer, hIff⟩
  rw [isNameSuffix, hAnswer, Option.getD_some, hIff]

------------------------------------------------------------
-- Bytes
------------------------------------------------------------

namespace Text

/- The byte with an ASCII letter made small. -/
def lowerByte (b : UInt8) : UInt8 :=
  if 65 ≤ b && b ≤ 90 then b + 32 else b

def lowerBytes (s : String) : List UInt8 :=
  s.toByteArray.data.toList.map lowerByte

theorem map_lowerByte_fold
    (cs : List Char) :
    (encode (fold cs)).map lowerByte = (encode cs).map lowerByte := by
  induction cs with
  | nil => rfl
  | cons c r ih =>
      have hFirst := apply_lowerAsciiChar
        (f := fun c => (String.utf8EncodeChar c).map lowerByte)
        (by decide) c
      rw [fold_cons, encode_cons, encode_cons, List.map_append,
        List.map_append, ih, hFirst]

theorem lowerBytes_append
    (s t : String) :
    lowerBytes (s ++ t) = lowerBytes s ++ lowerBytes t := by
  simp [lowerBytes, String.toByteArray_append]

theorem lowerBytes_congr
    {a b : String}
    (h : equalsIgnoringAsciiCase a b = true) :
    lowerBytes a = lowerBytes b := by
  rw [lowerBytes, lowerBytes, bytes_eq, bytes_eq, ← encode, ← encode,
    ← map_lowerByte_fold, ← map_lowerByte_fold b.toList]
  exact congrArg (fun cs => (encode cs).map lowerByte)
    (equalsIgnoringAsciiCase_iff.mp h)

end Text

/- The written name ends the full name, as far as small bytes tell. -/
def isByteSuffix (written fullName : String) : Bool :=
  Text.lowerBytes fullName == Text.lowerBytes written ||
    (46 :: Text.lowerBytes written).isSuffixOf (Text.lowerBytes fullName)

theorem isByteSuffix_append
    {front ending written : String}
    {language : Language}
    (hFront : IsQualifying front)
    (hSame : language.namesEqual ending written = true) :
    isByteSuffix written (front ++ ending) = true := by
  rw [isByteSuffix, ← Text.lowerBytes_congr
    (Language.equalsIgnoringAsciiCase_of_namesEqual hSame), Bool.or_eq_true,
    beq_iff_eq, List.isSuffixOf_iff_suffix]
  rcases hFront with rfl | ⟨outer, rfl⟩
  · exact Or.inl (by rw [String.empty_append])
  · have hDot : Text.lowerBytes "." = [46] := by decide
    refine Or.inr ⟨Text.lowerBytes outer, ?_⟩
    rw [Text.lowerBytes_append, Text.lowerBytes_append, hDot,
      List.append_assoc, List.singleton_append]

theorem isByteSuffix_of_isNameSuffix
    {written fullName : String}
    {language : Language}
    (h : isNameSuffix written fullName language = true) :
    isByteSuffix written fullName = true := by
  rcases isNameSuffix_iff.mp h with ⟨-, front, ending, hFront, rfl, hSame⟩
  exact isByteSuffix_append hFront hSame

------------------------------------------------------------
-- Segments
------------------------------------------------------------

/- What is behind a qualifier has the last segments of the name. -/
theorem exists_segments_append
    {front : String}
    (h : IsQualifying front)
    (ending : String) :
    ∃ pieces, Text.splitAt '.' (front ++ ending) =
      pieces ++ Text.splitAt '.' ending := by
  rcases h with rfl | ⟨outer, rfl⟩
  · exact ⟨[], by simp⟩
  · exact ⟨Text.splitAt '.' outer, Text.splitAt_append outer ending⟩

/- The last segments of a name are those of an end behind a qualifier. -/
theorem exists_ending_of_segments
    {fullName : String}
    {pieces last : List String}
    (hSome : last ≠ [])
    (h : Text.splitAt '.' fullName = pieces ++ last) :
    ∃ front ending, IsQualifying front ∧ fullName = front ++ ending ∧
      Text.splitAt '.' ending = last := by
  have hDots : ∀ s ∈ last, '.' ∉ s.toList := fun s hs =>
    Text.dot_not_mem_of_mem_splitAt (h ▸ List.mem_append_right pieces hs)
  have hLast := Text.splitAt_join hDots hSome
  by_cases hNone : pieces = []
  · subst hNone
    refine ⟨"", Text.join "." last, Or.inl rfl, ?_, hLast⟩
    rw [String.empty_append, ← Text.join_splitAt fullName, h, List.nil_append]
  · refine ⟨Text.join "." pieces ++ ".", Text.join "." last,
      Or.inr ⟨_, rfl⟩, ?_, hLast⟩
    rw [← Text.join_splitAt fullName, h, Text.join, Text.join, Text.join,
      String.intercalate_append_of_ne_nil hNone hSome]

/-
  A written name ends a full name just when its segments are
  the last segments of the full name, and no byte is asked
  for that is not there.
-/
theorem isNameSuffix_iff_segments
    (written fullName : String)
    (language : Language) :
    isNameSuffix? written fullName language =
        some (isNameSuffix written fullName language) ∧
      (isNameSuffix written fullName language = true ↔
        written ≠ "" ∧
          ∃ pieces last,
            Text.splitAt '.' fullName = pieces ++ last ∧
            List.Forall₂ (fun a b => language.namesEqual a b = true)
              last (Text.splitAt '.' written)) := by
  constructor
  · rcases exists_isNameSuffix? written fullName language with
      ⟨answer, hAnswer, -⟩
    rw [isNameSuffix, hAnswer, Option.getD_some]
  · rw [isNameSuffix_iff]
    refine and_congr_right fun _ => ⟨?_, ?_⟩
    · rintro ⟨front, ending, hFront, rfl, hSame⟩
      rcases exists_segments_append hFront ending with ⟨pieces, hPieces⟩
      exact ⟨pieces, _, hPieces, Language.namesEqual_iff_segments.mp hSame⟩
    · rintro ⟨pieces, last, hPieces, hSame⟩
      have hSome : last ≠ [] := by
        rintro rfl
        exact Text.splitAt_ne_nil '.' written
          (List.forall₂_nil_left_iff.mp hSame)
      rcases exists_ending_of_segments hSome hPieces with
        ⟨front, ending, hFront, hName, rfl⟩
      exact ⟨front, ending, hFront, hName,
        Language.namesEqual_iff_segments.mpr hSame⟩

/- A name may start inside of a character, where it is no ending. -/
example : isNameSuffix? "a" "é" .cSharp = some false := by decide

end Retarget
