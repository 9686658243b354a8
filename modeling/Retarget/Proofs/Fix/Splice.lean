import Mathlib.Data.List.Pairwise
import Retarget.Proofs.Fix.Arrangement
import Retarget.Proofs.Text.Offset

/-
  This file shows that edits are applied as if all at once.
  The accepted edits lie apart from each other, and the
  edited text is the text around them with their new texts
  in between, though they are put in from the last to the
  first.

  Key definitions include:
    * `TextEdit.isIdle`
    * `TextEdit.IsBlocked`
    * `TextEdit.IsSkipped`
    * `TextEdit.woven?`

  Key statements include:
    * `TextEdit.chooseFrom?_eq`
    * `TextEdit.replaceAll?_eq_woven?`
    * `TextEdit.Accepts.eq_self`
    * `TextEdit.exists_outcome?`
    * `TextEdit.outcome_splice`
-/

namespace Retarget.TextEdit

variable {text : List Char}
variable {accepted taken edits : List TextEdit}
variable {a b e : TextEdit}

------------------------------------------------------------
-- Skipped and dropped edits
------------------------------------------------------------

/- The edit leaves the text as it is. -/
def isIdle (text : List Char) (e : TextEdit) : Bool :=
  Text.slice? e.span.start e.span.stop text == some e.newText.toList

/- The edit is out of bounds or overlaps an accepted one before it. -/
def IsBlocked
    (text : List Char)
    (accepted : List TextEdit)
    (e : TextEdit) : Prop :=
  inBounds text e = false ∨
    ∃ a ∈ accepted, a.IsBefore e ∧ a.span.Overlaps e.span

instance
    (text : List Char)
    (accepted : List TextEdit)
    (e : TextEdit) :
    Decidable (IsBlocked text accepted e) := by
  unfold IsBlocked
  infer_instance

/-
  The edit is out of bounds or overlaps another one that is
  accepted.  If it would leave the text as it is, only an
  accepted edit before it counts.
-/
def IsSkipped
    (text : List Char)
    (accepted : List TextEdit)
    (e : TextEdit) : Prop :=
  inBounds text e = false ∨
    ∃ a ∈ accepted, a ≠ e ∧ a.span.Overlaps e.span ∧
      (isIdle text e = true → a.IsBefore e)

instance
    (text : List Char)
    (accepted : List TextEdit)
    (e : TextEdit) :
    Decidable (IsSkipped text accepted e) := by
  unfold IsSkipped
  infer_instance

theorem inBounds_iff :
    inBounds text e = true ↔
      e.span.start ≤ e.span.stop ∧
        Text.isBoundary e.span.start text = true ∧
        Text.isBoundary e.span.stop text = true := by
  simp [inBounds, and_assoc]

theorem exists_slice?_of_inBounds
    (hBounds : inBounds text e = true) :
    ∃ old, Text.slice? e.span.start e.span.stop text = some old := by
  rcases inBounds_iff.mp hBounds with ⟨hOrder, hStart, hStop⟩
  rcases Text.exists_pieces hOrder hStart hStop with ⟨a, p, b, hPieces⟩
  exact ⟨p, Text.slice?_eq_some_iff.mpr ⟨a, b, hPieces⟩⟩

/- Edits that are taken later do not block an edit. -/
theorem isBlocked_append_iff
    (text : List Char)
    (hTaken : ∀ t ∈ taken, t.IsBefore e)
    (hLater : ∀ a ∈ accepted, ¬ a.IsBefore e) :
    IsBlocked text (taken.reverse ++ accepted) e ↔
      (!inBounds text e || taken.any fun t => t.span.Overlaps e.span) =
        true := by
  simp only [IsBlocked, Bool.or_eq_true, Bool.not_eq_true', List.any_eq_true,
    decide_eq_true_eq, List.mem_append, List.mem_reverse]
  apply or_congr_right
  constructor
  · rintro ⟨t, hTakes | hAccepted, hBefore, hOverlaps⟩
    · exact ⟨t, hTakes, hOverlaps⟩
    · exact absurd hBefore (hLater t hAccepted)
  · rintro ⟨t, hTakes, hOverlaps⟩
    exact ⟨t, Or.inl hTakes, hTaken t hTakes, hOverlaps⟩

------------------------------------------------------------
-- The choice
------------------------------------------------------------

/-
  A choice from sorted edits can be made, and it accepts the
  edits that are neither blocked by an accepted one nor idle.
-/
theorem chooseFrom?_eq
    (text : List Char)
    (taken edits : List TextEdit)
    (hSorted : edits.Pairwise IsBefore)
    (hTaken : ∀ t ∈ taken, ∀ e ∈ edits, t.IsBefore e) :
    ∃ accepted,
      chooseFrom? text taken edits =
        some ⟨accepted,
          edits.countP fun e =>
            IsBlocked text (taken.reverse ++ accepted) e⟩ ∧
      accepted =
        edits.filter fun e =>
          ¬ IsBlocked text (taken.reverse ++ accepted) e ∧
            isIdle text e = false := by
  induction edits generalizing taken with
  | nil => exact ⟨[], rfl, rfl⟩
  | cons e rest ih =>
      rcases List.pairwise_cons.mp hSorted with ⟨hFirst, hRest⟩
      have hTakenFirst : ∀ t ∈ taken, t.IsBefore e :=
        fun t ht => hTaken t ht e List.mem_cons_self
      have hTakenRest : ∀ t ∈ taken, ∀ b ∈ rest, t.IsBefore b :=
        fun t ht b hb => hTaken t ht b (List.mem_cons_of_mem _ hb)
      rcases ih taken hRest hTakenRest with ⟨kept, hKept, hKeptEq⟩
      have hKeptLater : ∀ a ∈ kept, ¬ a.IsBefore e := by
        intro a ha
        rw [hKeptEq] at ha
        exact (hFirst a (List.mem_of_mem_filter ha)).asymm
      have hBlocked := isBlocked_append_iff text hTakenFirst hKeptLater
      by_cases hSkip :
          (!inBounds text e || taken.any fun t => t.span.Overlaps e.span) = true
      · refine ⟨kept, ?_, ?_⟩
        · simp [chooseFrom?, hSkip, hKept, hBlocked.mpr hSkip]
        · simpa [hBlocked.mpr hSkip] using hKeptEq
      · have hBounds : inBounds text e = true := by
          by_contra hOut
          simp [hOut] at hSkip
        rcases exists_slice?_of_inBounds hBounds with ⟨old, hOld⟩
        by_cases hSame : old = e.newText.toList
        · have hIdle : isIdle text e = true := by simp [isIdle, hOld, hSame]
          refine ⟨kept, ?_, ?_⟩
          · simp [chooseFrom?, hSkip, hOld, hSame, hKept, mt hBlocked.mp hSkip]
          · simpa [hIdle] using hKeptEq
        · have hIdle : isIdle text e = false := by simp [isIdle, hOld, hSame]
          have hTakenNew : ∀ t ∈ e :: taken, ∀ b ∈ rest, t.IsBefore b := by
            intro t ht b hb
            rcases List.mem_cons.mp ht with rfl | ht
            · exact hFirst b hb
            · exact hTakenRest t ht b hb
          rcases ih (e :: taken) hRest hTakenNew with ⟨more, hMore, hMoreEq⟩
          have hMoreLater : ∀ a ∈ e :: more, ¬ a.IsBefore e := by
            intro a ha
            rcases List.mem_cons.mp ha with rfl | ha
            · exact fun h => h.ne rfl
            · rw [hMoreEq] at ha
              exact (hFirst a (List.mem_of_mem_filter ha)).asymm
          have hFree :=
            mt (isBlocked_append_iff text hTakenFirst hMoreLater).mp hSkip
          rw [List.reverse_cons, List.append_assoc, List.singleton_append] at hMore hMoreEq
          refine ⟨e :: more, ?_, ?_⟩
          · simp [chooseFrom?, hSkip, hOld, hSame, hMore, hFree]
          · simpa [hFree, hIdle] using hMoreEq

/-
  Accepted edits, as a choice from the arranged edits has
  them: neither blocked nor idle.
-/
structure Accepts
    (text : List Char)
    (edits accepted : List TextEdit) : Prop where
  sorted : accepted.Pairwise IsBefore
  mem_iff :
    ∀ e, e ∈ accepted ↔
      e ∈ edits ∧ ¬ IsBlocked text accepted e ∧ isIdle text e = false

theorem choose?_eq
    (text : List Char)
    (edits : List TextEdit) :
    ∃ accepted,
      Accepts text edits accepted ∧
      choose? text edits =
        some ⟨accepted,
          edits.dedup.countP fun e => IsBlocked text accepted e⟩ := by
  rcases chooseFrom?_eq text [] (arrange edits) (arrange_sorted edits)
      (fun t ht => absurd ht List.not_mem_nil) with
    ⟨accepted, hChoice, hAccepted⟩
  rw [List.reverse_nil, List.nil_append] at hChoice hAccepted
  refine ⟨accepted, ⟨?_, fun e => ?_⟩, ?_⟩
  · rw [hAccepted]
    exact (arrange_sorted edits).filter _
  · conv_lhs => rw [hAccepted]
    simp [mem_arrange]
  · rw [choose?, hChoice, (arrange_perm_dedup edits).countP_eq]

theorem Accepts.inBounds
    (h : Accepts text edits accepted)
    (he : e ∈ accepted) :
    inBounds text e = true := by
  by_contra hOut
  exact ((h.mem_iff e).mp he).2.1 (Or.inl (Bool.not_eq_true _ ▸ hOut))

/-
  Of two accepted edits the first stops before the second
  starts: otherwise they overlap, or the second is empty and
  comes first.
-/
theorem Accepts.apart
    (h : Accepts text edits accepted) :
    accepted.Pairwise fun a b =>
      a.IsBefore b ∧ a.span.stop ≤ b.span.start := by
  refine h.sorted.imp_of_mem fun {a b} ha hb hBefore => ⟨hBefore, ?_⟩
  have hFree : ¬ a.span.Overlaps b.span := fun hOverlaps =>
    ((h.mem_iff b).mp hb).2.1 (Or.inr ⟨a, ha, hBefore, hOverlaps⟩)
  have hStart := hBefore.start_le
  have hOrder := (inBounds_iff.mp (h.inBounds hb)).1
  by_contra hLess
  have hSame : a.span.start = b.span.start := by
    by_contra hne
    exact hFree ⟨by omega, by omega⟩
  have hStop := hBefore.stop_le hSame
  exact hFree ⟨by omega, by omega⟩

/-
  For an edit that would change the text it makes no
  difference whether the accepted edit comes before it: if
  only later ones overlapped it, it would be accepted.
-/
theorem Accepts.isSkipped_iff
    (h : Accepts text edits accepted)
    (he : e ∈ edits) :
    IsSkipped text accepted e ↔ IsBlocked text accepted e := by
  constructor
  · rintro (hOut | ⟨a, ha, hne, hOverlaps, hIdle⟩)
    · exact Or.inl hOut
    · by_contra hFree
      have hChanges : isIdle text e = false := by
        by_contra hSame
        rw [Bool.not_eq_false] at hSame
        exact hFree (Or.inr ⟨a, ha, hIdle hSame, hOverlaps⟩)
      have hAccepted : e ∈ accepted := (h.mem_iff e).mpr ⟨he, hFree, hChanges⟩
      rcases isBefore_trichotomy a e with hBefore | hEq | hAfter
      · exact hFree (Or.inr ⟨a, ha, hBefore, hOverlaps⟩)
      · exact hne hEq
      · exact ((h.mem_iff a).mp ha).2.1
          (Or.inr ⟨e, hAccepted, hAfter, hOverlaps.symm⟩)
  · rintro (hOut | ⟨a, ha, hBefore, hOverlaps⟩)
    · exact Or.inl hOut
    · exact Or.inr ⟨a, ha, hBefore.ne, hOverlaps, fun _ => hBefore⟩

/- Edits that lie apart and change the text are all accepted. -/
theorem Accepts.eq_self
    (h : Accepts text edits accepted)
    (hSorted : edits.Pairwise IsBefore)
    (hBounds : ∀ e ∈ edits, TextEdit.inBounds text e = true)
    (hApart : edits.Pairwise fun a b => ¬a.span.Overlaps b.span)
    (hOther : ∀ e ∈ edits, isIdle text e = false) :
    accepted = edits := by
  have : Std.Symm fun a b : TextEdit => ¬a.span.Overlaps b.span :=
    ⟨fun _ _ hFree hOverlaps => hFree hOverlaps.symm⟩
  have hFree : ∀ e ∈ edits, ¬IsBlocked text accepted e := by
    rintro e he (hOut | ⟨a, ha, hBefore, hOverlaps⟩)
    · cases hOut.symm.trans (hBounds e he)
    · have hEdit := ((h.mem_iff a).mp ha).1
      exact hApart.forall hEdit he hBefore.ne hOverlaps
  have hSame : accepted.Perm edits := by
    rw [List.perm_ext_iff_of_nodup (h.sorted.imp IsBefore.ne)
      (hSorted.imp IsBefore.ne)]
    intro e
    rw [h.mem_iff]
    exact ⟨And.left, fun he => ⟨he, hFree e he, hOther e he⟩⟩
  exact hSame.eq_of_pairwise (fun a b _ _ hab hba => absurd hba hab.asymm)
    h.sorted hSorted

------------------------------------------------------------
-- The edited text
------------------------------------------------------------

/-
  The text from an offset on, with the new texts of edits in
  the places of their spans.  All kept pieces are read from
  the original text.
-/
def woven? (text : List Char) : Nat → List TextEdit → Option (List Char)
  | start, [] => Text.slice? start (Text.byteLength text) text
  | start, e :: rest => do
    let kept ← Text.slice? start e.span.start text
    let behind ← woven? text e.span.stop rest
    return kept ++ e.newText.toList ++ behind

/-
  Replacing from the last edit to the first leaves what lies
  before the edits as it is, so each span still holds what
  it held at first.
-/
theorem replaceAll?_eq_woven?
    (text before : List Char)
    {behind : List Char}
    (edits : List TextEdit)
    (hCut : before ++ behind = text)
    (hBounds : ∀ e ∈ edits, inBounds text e = true)
    (hStart : ∀ e ∈ edits, Text.byteLength before ≤ e.span.start)
    (hApart : edits.Pairwise fun a b => a.span.stop ≤ b.span.start) :
    ∃ edited,
      woven? text (Text.byteLength before) edits = some edited ∧
        replaceAll? edits text = some (before ++ edited) := by
  induction edits generalizing before behind with
  | nil =>
      refine ⟨behind, ?_, by rw [replaceAll?, hCut]⟩
      exact Text.slice?_eq_some_iff.mpr
        ⟨before, [], by simpa using hCut, rfl, by rw [hCut]⟩
  | cons e rest ih =>
      rcases List.pairwise_cons.mp hApart with ⟨hFirst, hRest⟩
      rcases inBounds_iff.mp (hBounds e List.mem_cons_self) with
        ⟨hOrder, hStartsAt, hStopsAt⟩
      rcases Text.exists_pieces hOrder hStartsAt hStopsAt with
        ⟨a, old, b, hPieces, hStartEq, hStopEq⟩
      have hLate : Text.byteLength before ≤ Text.byteLength a :=
        hStartEq ▸ hStart e List.mem_cons_self
      rcases Text.exists_append_of_byteLength_le
          (hCut.trans (hPieces.symm.trans (List.append_assoc a old b))) hLate with
        ⟨kept, rfl, -⟩
      rcases ih (before ++ kept ++ old) hPieces
          (fun x hx => hBounds x (List.mem_cons_of_mem _ hx))
          (fun x hx => hStopEq ▸ hFirst x hx) hRest with
        ⟨edited, hWoven, hReplaced⟩
      refine ⟨kept ++ e.newText.toList ++ edited, ?_, ?_⟩
      · have hKept :
            Text.slice? (Text.byteLength before) e.span.start text =
              some kept := by
          refine Text.slice?_eq_some_iff.mpr
            ⟨before, old ++ b, ?_, rfl, hStartEq⟩
          rw [← hPieces, List.append_assoc, List.append_assoc,
            List.append_assoc]
        rw [hStopEq] at hWoven
        simp [woven?, hKept, hWoven]
      · rw [replaceAll?, hReplaced, ← hStartEq, ← hStopEq]
        simpa using Text.replaceRange?_pieces (before ++ kept) old edited
          e.newText.toList

/-
  Edits can always be applied, those that are accepted and
  no others.
-/
theorem exists_outcome?
    (text : String)
    (edits : List TextEdit) :
    ∃ accepted edited,
      Accepts text.toList edits accepted ∧
      choose? text.toList edits =
        some ⟨accepted,
          edits.dedup.countP fun e => IsBlocked text.toList accepted e⟩ ∧
      woven? text.toList 0 accepted = some edited ∧
      outcome? text edits =
        some ⟨String.ofList edited, accepted.length,
          edits.dedup.countP fun e => IsBlocked text.toList accepted e⟩ := by
  rcases choose?_eq text.toList edits with ⟨accepted, hAccepts, hChoice⟩
  rcases replaceAll?_eq_woven? text.toList [] accepted rfl
      (fun e he => hAccepts.inBounds he) (fun e _ => Nat.zero_le _)
      (hAccepts.apart.imp And.right) with
    ⟨edited, hWoven, hReplaced⟩
  refine ⟨accepted, edited, hAccepts, hChoice, hWoven, ?_⟩
  simp [outcome?, hChoice, hReplaced]

/- Edits that are all accepted replace their spans. -/
theorem apply_text_of_apart
    {text : String}
    {others : List TextEdit}
    (hPerm : others.Perm edits)
    (hSorted : edits.Pairwise IsBefore)
    (hBounds : ∀ e ∈ edits, inBounds text.toList e = true)
    (hApart : edits.Pairwise fun a b => ¬a.span.Overlaps b.span)
    (hOther : ∀ e ∈ edits, isIdle text.toList e = false)
    {edited : List Char}
    (hReplaced : replaceAll? edits text.toList = some edited) :
    (apply text others).text = String.ofList edited := by
  rcases choose?_eq text.toList edits with ⟨accepted, hAccepts, hChoice⟩
  obtain rfl := hAccepts.eq_self hSorted hBounds hApart hOther
  rw [choose?, ← arrange_eq_of_perm hPerm, ← choose?] at hChoice
  simp [apply, outcome?, hChoice, hReplaced]

/-
  Edits are applied at once and in any order: it is always
  possible, the accepted ones lie apart, and the new text is
  the text around them with their new texts in between.
  Each edit is accepted, or counted as skipped, or leaves the
  text as it is.
-/
theorem outcome_splice
    (text : String)
    (edits : List TextEdit) :
    ∃ accepted edited,
      outcome? text edits =
        some ⟨String.ofList edited, accepted.length,
          edits.dedup.countP fun e => IsSkipped text.toList accepted e⟩ ∧
      woven? text.toList 0 accepted = some edited ∧
      accepted.Pairwise
        (fun a b => a.IsBefore b ∧ a.span.stop ≤ b.span.start) ∧
      (∀ e,
        e ∈ accepted ↔
          e ∈ edits ∧ ¬ IsSkipped text.toList accepted e ∧
            isIdle text.toList e = false) ∧
      ∀ others, edits.Perm others →
        outcome? text others = outcome? text edits := by
  rcases exists_outcome? text edits with
    ⟨accepted, edited, hAccepts, -, hWoven, hOutcome⟩
  have hSkipped :
      (edits.dedup.countP fun e => IsSkipped text.toList accepted e) =
        edits.dedup.countP fun e => IsBlocked text.toList accepted e := by
    apply List.countP_congr
    intro e he
    simpa using hAccepts.isSkipped_iff (List.mem_dedup.mp he)
  refine ⟨accepted, edited, ?_, hWoven, hAccepts.apart, fun e => ?_, ?_⟩
  · rw [hOutcome, hSkipped]
  · rw [hAccepts.mem_iff e]
    apply and_congr_right
    intro he
    rw [hAccepts.isSkipped_iff he]
  · intro others hPerm
    rw [outcome?, outcome?, choose?, choose?, arrange_eq_of_perm hPerm]

/-
  An edit that would leave the text as it is can overlap an
  accepted one without being counted: it is dropped before
  the edit behind it is accepted.
-/
theorem outcome_idle_overlap :
    let text := "abc"
    let idle : TextEdit := ⟨⟨0, 2⟩, "ab"⟩
    let edit : TextEdit := ⟨⟨1, 3⟩, "XY"⟩
    choose? text.toList [idle, edit] = some ⟨[edit], 0⟩ ∧
      outcome? text [idle, edit] = some ⟨"aXY", 1, 0⟩ ∧
      ([idle, edit].dedup.countP fun e =>
        inBounds text.toList e = false ∨
          ∃ a ∈ [edit], a ≠ e ∧ a.span.Overlaps e.span) = 1 := by
  intro text idle edit
  have hArrange : arrange [idle, edit] = [idle, edit] := by
    rw [arrange, List.mergeSort_of_pairwise (by decide +kernel)]
    decide +kernel
  refine ⟨?_, ?_, by decide +kernel⟩
  · rw [choose?, hArrange]
    decide +kernel
  · rw [outcome?, choose?, hArrange]
    decide +kernel

end Retarget.TextEdit
