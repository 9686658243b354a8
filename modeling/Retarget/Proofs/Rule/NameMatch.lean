import Mathlib.Data.List.Infix
import Mathlib.Data.List.TakeWhile
import Retarget.Rule.NameMatch
import Retarget.Source.Name
import Retarget.Proofs.Rule.NameSuffix
import Retarget.Proofs.Text.Search

/-
  This file relates written names and full names by their
  last segments: a written name that ends a full name has its
  last segment, and so has a form of a written attribute that
  of a form of its simple name.  A symbol is matched by the
  names on its path.

  Key definitions include:
    * `IsSegment`

  Key statements include:
    * `NameMatcher.matchesParts_iff`
    * `lastPart_of_isNameSuffix`
    * `attributeForms_append`
    * `exists_form_of_isNameSuffix`
-/

namespace Retarget

------------------------------------------------------------
-- Matched symbols
------------------------------------------------------------

/-
  The walk compares the whole path: it fails at a name that
  differs, and where one of the two lists ends first.
-/
theorem NameMatcher.matchesParts_iff
    {s : Symbol}
    {parts : List String} :
    matchesParts parts s = true ↔
      s.path.map Text.lowerAscii = parts.map Text.lowerAscii := by
  induction s generalizing parts with
  | global => cases parts <;> simp [matchesParts, Symbol.isGlobal, Symbol.path]
  | declared name kind container ih =>
      cases parts with
      | nil => simp [matchesParts, Symbol.isGlobal, Symbol.path]
      | cons part rest =>
          rw [matchesParts, Bool.and_eq_true, ih, ← Text.lowerAscii_eq_iff,
            Symbol.path, List.map_cons, List.map_cons, List.cons.injEq]

------------------------------------------------------------
-- Last segments
------------------------------------------------------------

/- A name between the dots of a dotted name. -/
def IsSegment (name : String) : Prop :=
  name ≠ "" ∧ '.' ∉ name.toList

instance (name : String) : Decidable (IsSegment name) := by
  unfold IsSegment
  infer_instance

/- A run of characters of a class that has no dot. -/
theorem dot_not_mem_takeWhile
    {p : Char → Bool}
    (hDot : p '.' = false)
    (cs : List Char) :
    '.' ∉ cs.takeWhile p := by
  intro hMem
  have hPart := List.mem_takeWhile_imp hMem
  rw [hDot] at hPart
  cases hPart

theorem lastPart_toList
    (name : String) :
    (lastPart name).toList =
      (name.toList.reverse.takeWhile (· != '.')).reverse := by
  rw [lastPart, Text.splitLast, Text.cutWhere?_eq]
  by_cases hDot : name.toList.reverse.any (· == '.') = true
  · simp only [hDot, if_true, Option.map_some, String.toList_ofList]
    rfl
  · have hAll : name.toList.reverse.takeWhile (· != '.') =
        name.toList.reverse := by
      rw [List.takeWhile_eq_self_iff]
      intro c hc
      rw [bne_iff_ne]
      rintro rfl
      exact hDot (List.any_eq_true.mpr ⟨'.', hc, rfl⟩)
    simp [hDot, hAll]

theorem dot_not_mem_lastPart
    (name : String) :
    '.' ∉ (lastPart name).toList := by
  rw [lastPart_toList, List.mem_reverse]
  exact dot_not_mem_takeWhile (by decide) _

/- A run of characters that pass a test ends where one fails it. -/
theorem takeWhile_append_of_head
    {p : Char → Bool}
    {cs ds : List Char}
    (h : ∀ d ∈ ds.head?, p d = false) :
    (cs ++ ds).takeWhile p = cs.takeWhile p := by
  induction cs with
  | nil =>
      cases ds with
      | nil => rfl
      | cons d r => simp [h d rfl]
  | cons c r ih =>
      by_cases hc : p c = true
      · simp [hc, ih]
      · simp [hc]

theorem lastPart_eq_self
    {name : String}
    (h : '.' ∉ name.toList) :
    lastPart name = name := by
  apply String.toList_inj.mp
  rw [lastPart_toList, List.takeWhile_eq_self_iff.mpr, List.reverse_reverse]
  intro c hc
  rw [bne_iff_ne]
  rintro rfl
  exact h (List.mem_reverse.mp hc)

/- What stands behind a qualifier has the last part of the name. -/
theorem lastPart_of_isQualifying
    {front : String}
    (hFront : IsQualifying front)
    (ending : String) :
    lastPart (front ++ ending) = lastPart ending := by
  apply String.toList_inj.mp
  rw [lastPart_toList, lastPart_toList, String.toList_append,
    List.reverse_append, takeWhile_append_of_head]
  intro d hd
  rw [List.head?_reverse] at hd
  rcases isQualifying_iff.mp hFront with hNone | hDot
  · rw [hNone] at hd
    cases hd
  · obtain rfl : '.' = d := Option.some.inj (hDot.symm.trans hd)
    rfl

theorem lastPart_namesEqual
    {language : Language}
    {a b : String}
    (h : language.namesEqual a b = true) :
    language.namesEqual (lastPart a) (lastPart b) = true := by
  cases language with
  | cSharp =>
      obtain rfl := beq_iff_eq.mp h
      exact Language.namesEqual_refl _ _
  | visualBasic =>
      have hDot : (fun c => c != '.') ∘ Text.lowerAsciiChar =
          fun c => c != '.' := by
        funext c
        refine Text.eq_of_lowerAsciiChar_eq (f := fun c => c != '.')
          (by decide) ?_
        rw [Text.lowerAsciiChar, if_neg]
        simp [Text.isAsciiUpper_lowerAsciiChar]
      simp only [Language.namesEqual, Text.equalsIgnoringAsciiCase_iff,
        lastPart_toList] at h ⊢
      have hBack := congrArg List.reverse h
      rw [← List.map_reverse, ← List.map_reverse] at hBack
      have hRun := congrArg (List.takeWhile (· != '.')) hBack
      rw [List.takeWhile_map, List.takeWhile_map, hDot] at hRun
      rw [List.map_reverse, List.map_reverse, hRun]

/- A written name that ends a full name has its last segment. -/
theorem lastPart_of_isNameSuffix
    {written fullName : String}
    {language : Language}
    (h : isNameSuffix written fullName language = true) :
    language.namesEqual (lastPart fullName) (lastPart written) = true := by
  rcases isNameSuffix_iff.mp h with ⟨-, front, ending, hFront, rfl, hSame⟩
  rw [lastPart_of_isQualifying hFront]
  exact lastPart_namesEqual hSame

------------------------------------------------------------
-- Attributes
------------------------------------------------------------

theorem NameNode.exists_qualifiedName_eq
    (node : NameNode) :
    ∃ front, IsQualifying front ∧
      node.qualifiedName = front ++ node.simpleName := by
  unfold NameNode.qualifiedName
  split
  · next qualifier _ => exact ⟨qualifier ++ ".", Or.inr ⟨_, rfl⟩, rfl⟩
  · exact ⟨"", Or.inl rfl, by simp⟩

theorem lastPart_append
    {front name : String}
    (hFront : IsQualifying front)
    (hDot : '.' ∉ name.toList) :
    lastPart (front ++ name) = name := by
  rw [lastPart_of_isQualifying hFront, lastPart_eq_self hDot]

/- The suffix has no dot, so it ends the last segment or no text at all. -/
theorem stripEnd?_append
    {front name : String}
    (hFront : IsQualifying front) :
    Text.stripEnd? "Attribute" (front ++ name) =
      (Text.stripEnd? "Attribute" name).map (front ++ ·) := by
  cases hName : Text.stripEnd? "Attribute" name with
  | some stem =>
      rw [Text.stripEnd?_eq_some_iff] at hName
      rw [Option.map_some, Text.stripEnd?_eq_some_iff, hName,
        String.append_assoc]
  | none =>
      rw [Option.map_none, Option.eq_none_iff_forall_ne_some]
      intro stem hStem
      rw [Text.stripEnd?_eq_some_iff] at hStem
      have hNot : ¬ "Attribute".toList <:+ name.toList := by
        rintro ⟨rest, hRest⟩
        have hSome : Text.stripEnd? "Attribute" name =
            some (String.ofList rest) := by
          rw [Text.stripEnd?_eq_some_iff]
          exact String.toList_inj.mp (by simp [← hRest])
        rw [hName] at hSome
        cases hSome
      rcases hFront with rfl | ⟨outer, rfl⟩
      · rw [String.empty_append] at hStem
        exact hNot ⟨stem.toList, by simp [hStem]⟩
      · have hSuffix : "Attribute".toList <:+
            (outer ++ "." ++ name).toList :=
          ⟨stem.toList, by simp [hStem]⟩
        have hName : '.' :: name.toList <:+ (outer ++ "." ++ name).toList :=
          ⟨outer.toList, by simp⟩
        rcases List.suffix_or_suffix_of_suffix hSuffix hName with hIn | hOver
        · rcases List.suffix_cons_iff.mp hIn with hAll | hRest
          · have hFirst : "Attribute".toList.head? = some '.' := by
              rw [hAll]
              rfl
            exact absurd hFirst (by decide)
          · exact hNot hRest
        · have hMem := hOver.subset List.mem_cons_self
          exact absurd hMem (by decide)

/- A segment does not end in a dot, whatever is in front of it. -/
theorem hasEnd_dot_append
    {name : String}
    (hName : IsSegment name)
    (front : String) :
    Text.hasEnd "." (front ++ name) = false := by
  rw [Bool.eq_false_iff]
  intro hDot
  rcases Text.hasEnd_iff.mp hDot with ⟨stem, hStem⟩
  have hSome : name.toList ≠ [] := by simpa using hName.1
  have hLast : (front ++ name).toList.getLast? = some '.' := by
    simp [hStem]
  rw [String.toList_append, List.getLast?_append_of_ne_nil _ hSome] at hLast
  exact hName.2 (List.mem_of_getLast? hLast)

/- The stem of a name without dots that has one. -/
theorem attributeForms_cases
    {name : String}
    (hName : '.' ∉ name.toList) :
    (∃ stem, IsSegment stem ∧ name = stem ++ "Attribute" ∧
      attributeForms name = [name, stem]) ∨
    attributeForms name = [name, name ++ "Attribute"] := by
  unfold attributeForms
  split
  · next stem hStem =>
      rw [Text.stripEnd?_eq_some_iff] at hStem
      have hDot : '.' ∉ stem.toList := by
        intro hMem
        exact hName (by simp [hStem, hMem])
      by_cases hEmpty : stem = ""
      · exact Or.inr (by simp [hEmpty])
      · refine Or.inl ⟨stem, ⟨hEmpty, hDot⟩, hStem, ?_⟩
        rw [if_pos]
        simpa [hEmpty] using hasEnd_dot_append ⟨hEmpty, hDot⟩ ""
  · exact Or.inr rfl

theorem dot_not_mem_of_mem_attributeForms
    {name f : String}
    (hName : '.' ∉ name.toList)
    (hf : f ∈ attributeForms name) :
    '.' ∉ f.toList := by
  rcases attributeForms_cases hName with ⟨stem, hStem, -, hForms⟩ | hForms
  · rw [hForms, List.mem_pair] at hf
    rcases hf with rfl | rfl
    · exact hName
    · exact hStem.2
  · rw [hForms, List.mem_pair] at hf
    rcases hf with rfl | rfl
    · exact hName
    · simp [hName]

/- The forms of a dotted name are those of its last part. -/
theorem attributeForms_append
    {front name : String}
    (hFront : IsQualifying front)
    (hName : '.' ∉ name.toList) :
    attributeForms (front ++ name) =
      (attributeForms name).map (front ++ ·) := by
  unfold attributeForms
  rw [stripEnd?_append hFront]
  cases hStem : Text.stripEnd? "Attribute" name with
  | none => simp [String.append_assoc]
  | some stem =>
      have hSame :
          (!(front ++ stem).isEmpty && !Text.hasEnd "." (front ++ stem)) =
            (!stem.isEmpty && !Text.hasEnd "." stem) := by
        rw [Text.stripEnd?_eq_some_iff] at hStem
        have hDot : '.' ∉ stem.toList := by
          intro hMem
          exact hName (by simp [hStem, hMem])
        by_cases hEmpty : stem = ""
        · rcases hFront with rfl | ⟨outer, rfl⟩
          · simp [hEmpty]
          · have hEnd : Text.hasEnd "." (outer ++ ".") = true :=
              Text.hasEnd_iff.mpr ⟨outer, rfl⟩
            simp [hEmpty, hEnd]
        · have hSegment : IsSegment stem := ⟨hEmpty, hDot⟩
          have hAlone := hasEnd_dot_append hSegment ""
          rw [String.empty_append] at hAlone
          have hSome : (front ++ stem).isEmpty = false := by
            rw [Bool.eq_false_iff, ne_eq, String.isEmpty_iff]
            intro hNone
            have hChars := congrArg String.toList hNone
            simp [hEmpty] at hChars
          have hStem : stem.isEmpty = false := by
            rwa [Bool.eq_false_iff, ne_eq, String.isEmpty_iff]
          rw [hAlone, hasEnd_dot_append hSegment, hSome, hStem]
      rw [Option.map_some]
      simp only [hSame]
      split <;> simp [String.append_assoc]

/-
  A written name that ends a full name, in one of its forms,
  has the last segment of the full name in one of its own.
-/
theorem exists_form_of_isNameSuffix
    {front name fullName : String}
    {language : Language}
    (hFront : IsQualifying front)
    (hName : '.' ∉ name.toList)
    (h : (attributeForms (front ++ name)).any fun w =>
      isNameSuffix w fullName language) :
    ∃ f ∈ attributeForms name,
      language.namesEqual (lastPart fullName) f = true := by
  rw [attributeForms_append hFront hName, List.any_map, List.any_eq_true] at h
  rcases h with ⟨f, hf, hSuffix⟩
  have hLast := lastPart_append hFront
    (dot_not_mem_of_mem_attributeForms hName hf)
  exact ⟨f, hf, hLast ▸ lastPart_of_isNameSuffix hSuffix⟩

end Retarget
