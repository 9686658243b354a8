import Mathlib.Data.List.Pairwise
import Retarget.Proofs.Fix.Splice
import Retarget.Proofs.Text.Search

/-
  This file looks at the edited text from a place that an
  accepted insertion goes to.  The text falls into two there,
  and if the place is between two lines, its first part ends
  with the last insertion.

  Key definitions include:
    * `TextEdit.partsAt?`
    * `TextEdit.around?`

  Key statements include:
    * `TextEdit.exists_append_of_woven?`
    * `TextEdit.Accepts.partsAt?_eq_some`
    * `TextEdit.Accepts.around?_eq_some`
    * `TextEdit.Accepts.exists_last`
    * `TextEdit.Accepts.mem_of_insertion`
-/

namespace Retarget

------------------------------------------------------------
-- Edited text in front of an offset
------------------------------------------------------------

namespace Text

variable {start stop : Nat}
variable {a b p : List Char}

theorem slice?_left
    (hSlice : slice? start stop (a ++ b) = some p)
    (hStop : stop ≤ byteLength a) :
    slice? start stop a = some p := by
  rcases slice?_eq_some_iff.mp hSlice with ⟨c, d, hText, hStart, rfl⟩
  rcases exists_append_of_byteLength_le hText hStop with ⟨q, rfl, -⟩
  exact slice?_eq_some_iff.mpr ⟨c, q, rfl, hStart, rfl⟩

/- What is read across an offset is read up to it and from it on. -/
theorem exists_slices_of_slice?
    (hSlice : slice? start stop (a ++ b) = some p)
    (hStart : start ≤ byteLength a)
    (hStop : byteLength a ≤ stop) :
    ∃ x y, p = x ++ y ∧ slice? start (byteLength a) a = some x ∧
      slice? (byteLength a) stop (a ++ b) = some y := by
  rcases slice?_eq_some_iff.mp hSlice with ⟨c, d, hText, rfl, rfl⟩
  have hRest : c ++ (p ++ d) = a ++ b := by rw [← hText, List.append_assoc]
  rcases exists_append_of_byteLength_le hRest hStart with ⟨x, rfl, -⟩
  rcases exists_append_of_byteLength_le hText.symm hStop with ⟨y, hPieces, rfl⟩
  rw [List.append_assoc, List.append_cancel_left_eq] at hPieces
  refine ⟨x, y, hPieces, ?_, ?_⟩
  · exact slice?_eq_some_iff.mpr ⟨c, [], by simp, rfl, rfl⟩
  · refine slice?_eq_some_iff.mpr ⟨c ++ x, d, by simp, rfl, ?_⟩
    rw [hPieces, List.append_assoc]

theorem exists_append_of_slice?
    (hSlice : slice? start (byteLength a) a = some p) :
    ∃ before, before ++ p = a ∧ byteLength before = start := by
  rcases slice?_eq_some_iff.mp hSlice with ⟨before, b, rfl, hStart, hStop⟩
  rw [byteLength_append (before ++ p)] at hStop
  have hEmpty : b = [] := byteLength_eq_zero_iff.mp (by omega)
  exact ⟨before, by rw [hEmpty, List.append_nil], hStart⟩

theorem eq_nil_of_slice?
    (hSlice : slice? start start a = some p) :
    p = [] := by
  rcases slice?_eq_some_iff.mp hSlice with ⟨before, b, -, rfl, hStop⟩
  rw [byteLength_append] at hStop
  exact byteLength_eq_zero_iff.mp (by omega)

end Text

namespace TextEdit

variable {text a b edited : List Char}
variable {start offset : Nat}
variable {edits accepted front back : List TextEdit}
variable {e : TextEdit}

theorem woven?_cons_eq_some :
    woven? text start (e :: edits) = some edited ↔
      ∃ kept behind, Text.slice? start e.span.start text = some kept ∧
        woven? text e.span.stop edits = some behind ∧
        kept ++ e.newText.toList ++ behind = edited := by
  simp [woven?, Option.bind_eq_some_iff]

/-
  Edits in front of an offset and edits behind it do not
  meet: the edited text falls into two at the offset.
-/
theorem exists_append_of_woven?
    (hWoven : woven? (a ++ b) start (front ++ back) = some edited)
    (hStart : start ≤ Text.byteLength a)
    (hFront : ∀ e ∈ front, e.span.start ≤ e.span.stop ∧
      e.span.stop ≤ Text.byteLength a)
    (hBack : ∀ e ∈ back, Text.byteLength a ≤ e.span.start) :
    ∃ x y, edited = x ++ y ∧ woven? a start front = some x ∧
      woven? (a ++ b) (Text.byteLength a) back = some y := by
  induction front generalizing start edited with
  | nil =>
      cases back with
      | nil =>
          refine Text.exists_slices_of_slice? hWoven hStart ?_
          rw [Text.byteLength_append]
          exact Nat.le_add_right _ _
      | cons e rest =>
          rcases woven?_cons_eq_some.mp hWoven with
            ⟨kept, behind, hKept, hBehind, rfl⟩
          rcases Text.exists_slices_of_slice? hKept hStart
              (hBack e List.mem_cons_self) with ⟨x, y, rfl, hx, hy⟩
          refine ⟨x, y ++ e.newText.toList ++ behind, by simp, hx, ?_⟩
          exact woven?_cons_eq_some.mpr ⟨y, behind, hy, hBehind, rfl⟩
  | cons e rest ih =>
      rcases List.forall_mem_cons.mp hFront with ⟨⟨hOrder, hStop⟩, hRest⟩
      rcases woven?_cons_eq_some.mp hWoven with
        ⟨kept, behind, hKept, hBehind, rfl⟩
      rcases ih hBehind hStop hRest with ⟨x, y, rfl, hx, hy⟩
      refine ⟨kept ++ e.newText.toList ++ x, y, by simp, ?_, hy⟩
      exact woven?_cons_eq_some.mpr
        ⟨kept, x, Text.slice?_left hKept (hOrder.trans hStop), hx, rfl⟩

/- The edited text ends with the last new text and what is behind it. -/
theorem exists_append_of_woven?_concat
    (hWoven : woven? text start (edits ++ [e]) = some edited) :
    ∃ x kept, edited = x ++ e.newText.toList ++ kept ∧
      Text.slice? e.span.stop (Text.byteLength text) text = some kept := by
  induction edits generalizing start edited with
  | nil =>
      rcases woven?_cons_eq_some.mp hWoven with ⟨x, kept, -, hKept, rfl⟩
      exact ⟨x, kept, rfl, hKept⟩
  | cons first rest ih =>
      rcases woven?_cons_eq_some.mp hWoven with ⟨x, behind, -, hBehind, rfl⟩
      rcases ih hBehind with ⟨y, kept, rfl, hKept⟩
      exact ⟨x ++ first.newText.toList ++ y, kept, by simp, hKept⟩

/-
  What some edits make of a text up to an offset, and what
  they make of it from there on.
-/
def partsAt?
    (text : List Char)
    (accepted : List TextEdit)
    (offset : Nat) : Option (List Char × List Char) := do
  let (before, _) ← Text.cutAt? offset text
  let front ← woven? before 0 (accepted.filter fun e => e.span.stop ≤ offset)
  let back ← woven? text offset (accepted.filter fun e => offset < e.span.stop)
  return (front, back)

theorem woven?_of_partsAt?
    {x y : List Char}
    (h : partsAt? (a ++ b) accepted (Text.byteLength a) = some (x, y)) :
    woven? a 0 (accepted.filter fun e => e.span.stop ≤ Text.byteLength a) =
      some x := by
  simp only [partsAt?, Text.cutAt?_byteLength, Option.bind_eq_bind,
    Option.bind_some, Option.pure_def, Option.bind_eq_some_iff,
    Option.some.injEq, Prod.mk.injEq] at h
  rcases h with ⟨x, hFront, y, -, rfl, rfl⟩
  exact hFront

/- A list falls into what passes a test and what fails it later. -/
theorem filter_append_filter_of_pairwise
    {α : Type}
    {p : α → Bool}
    {l : List α}
    (h : l.Pairwise fun a b => p b = true → p a = true) :
    l.filter p ++ l.filter (fun a => !p a) = l := by
  induction l with
  | nil => rfl
  | cons a rest ih =>
      rcases List.pairwise_cons.mp h with ⟨hFirst, hRest⟩
      cases hPasses : p a with
      | true => simp [hPasses, ih hRest]
      | false =>
          have hNone : rest.filter p = [] := by
            refine List.filter_eq_nil_iff.mpr fun b hb hLater => ?_
            rw [hFirst b hb hLater] at hPasses
            cases hPasses
          have hAll : (rest.filter fun a => !p a) = rest := by
            simpa [hNone] using ih hRest
          simp [hPasses, hNone, hAll]

/- Accepted edits stop in front of an accepted insertion or start behind it. -/
theorem Accepts.stop_le_or_le_start
    (h : Accepts text edits accepted)
    {newText : String}
    (hPut : insertion offset newText ∈ accepted)
    (he : e ∈ accepted) :
    e.span.stop ≤ offset ∨ offset ≤ e.span.start := by
  have hOverlap : ∀ a ∈ accepted, ∀ b ∈ accepted, a.IsBefore b →
      a.span.stop ≤ b.span.start := by
    intro a ha b hb hBefore
    have : Std.Symm fun a b : TextEdit =>
        (a.IsBefore b → a.span.stop ≤ b.span.start) ∧
          (b.IsBefore a → b.span.stop ≤ a.span.start) :=
      ⟨fun _ _ hBoth => hBoth.symm⟩
    have hPairs : accepted.Pairwise fun a b =>
        (a.IsBefore b → a.span.stop ≤ b.span.start) ∧
          (b.IsBefore a → b.span.stop ≤ a.span.start) :=
      h.apart.imp fun hApart =>
        ⟨fun _ => hApart.2, fun hOther => absurd hOther hApart.1.asymm⟩
    exact (hPairs.forall ha hb hBefore.ne).1 hBefore
  rcases isBefore_trichotomy e (insertion offset newText) with
    hBefore | rfl | hBehind
  · exact Or.inl (hOverlap e he _ hPut hBefore)
  · exact Or.inl le_rfl
  · exact Or.inr hBehind.start_le

theorem Accepts.filter_append_filter
    (h : Accepts text edits accepted) :
    (accepted.filter fun e => e.span.stop ≤ offset) ++
      (accepted.filter fun e => offset < e.span.stop) = accepted := by
  have hDown : accepted.Pairwise fun a b =>
      decide (b.span.stop ≤ offset) = true →
        decide (a.span.stop ≤ offset) = true := by
    refine h.apart.imp_of_mem fun _ hb hApart hStop => ?_
    have hOrder := (inBounds_iff.mp (h.inBounds hb)).1
    rw [decide_eq_true_eq] at hStop ⊢
    exact hApart.2.trans (hOrder.trans hStop)
  have hOthers : (accepted.filter fun e => offset < e.span.stop) =
      accepted.filter fun e => !decide (e.span.stop ≤ offset) :=
    List.filter_congr fun e _ => by
      rw [← decide_not, decide_eq_decide, Nat.not_le]
  rw [hOthers]
  exact filter_append_filter_of_pairwise hDown

/- The edited text falls into two at an accepted insertion. -/
theorem Accepts.partsAt?_eq_some
    (h : Accepts text edits accepted)
    (hWoven : woven? text 0 accepted = some edited)
    {newText : String}
    (hPut : insertion offset newText ∈ accepted) :
    ∃ x y, partsAt? text accepted offset = some (x, y) ∧ edited = x ++ y := by
  have hBoundary := (inBounds_iff.mp (h.inBounds hPut)).2.1
  rcases Text.isBoundary_iff.mp hBoundary with ⟨a, b, rfl, hLength⟩
  change Text.byteLength a = offset at hLength
  subst hLength
  rw [← h.filter_append_filter] at hWoven
  have hFront : ∀ e ∈ accepted.filter
      fun e => e.span.stop ≤ Text.byteLength a,
      e.span.start ≤ e.span.stop ∧ e.span.stop ≤ Text.byteLength a := by
    intro e he
    rcases List.mem_filter.mp he with ⟨heMem, hStop⟩
    exact ⟨(inBounds_iff.mp (h.inBounds heMem)).1, by simpa using hStop⟩
  have hBack : ∀ e ∈ accepted.filter
      fun e => Text.byteLength a < e.span.stop,
      Text.byteLength a ≤ e.span.start := by
    intro e he
    rcases List.mem_filter.mp he with ⟨heMem, hStop⟩
    rcases h.stop_le_or_le_start hPut heMem with hBefore | hBehind
    · exact absurd hBefore (by simpa using hStop)
    · exact hBehind
  rcases exists_append_of_woven? hWoven (Nat.zero_le _) hFront hBack with
    ⟨x, y, rfl, hx, hy⟩
  refine ⟨x, y, ?_, rfl⟩
  simp [partsAt?, Text.cutAt?_byteLength, hx, hy]

/-
  What some edits make of the text in front of one of them,
  and what they make of the text behind it.
-/
def around?
    (text : List Char)
    (accepted : List TextEdit)
    (e : TextEdit) : Option (List Char × List Char) := do
  let (before, _) ← Text.cutAt? e.span.start text
  let front ← woven? before 0 (accepted.filter fun a => a.IsBefore e)
  let back ← woven? text e.span.stop (accepted.filter fun a => e.IsBefore a)
  return (front, back)

/- A sorted list falls into what is before an element and behind it. -/
theorem filter_isBefore_of_sorted
    (hSorted : (front ++ e :: back).Pairwise IsBefore) :
    ((front ++ e :: back).filter fun a => a.IsBefore e) = front ∧
      ((front ++ e :: back).filter fun a => e.IsBefore a) = back := by
  rcases List.pairwise_append.mp hSorted with ⟨-, hRest, hCross⟩
  have hBack := (List.pairwise_cons.mp hRest).1
  have hFront : ∀ a ∈ front, a.IsBefore e :=
    fun a ha => hCross a ha e List.mem_cons_self
  have hSelf : ¬e.IsBefore e := fun h => h.ne rfl
  rw [List.filter_append, List.filter_append, List.filter_cons,
    List.filter_cons, if_neg (by simpa using hSelf),
    if_neg (by simpa using hSelf)]
  constructor
  · rw [List.filter_eq_self.mpr (by simpa using hFront),
      List.filter_eq_nil_iff.mpr fun a ha => by simpa using (hBack a ha).asymm,
      List.append_nil]
  · rw [List.filter_eq_nil_iff.mpr fun a ha => by simpa using (hFront a ha).asymm,
      List.filter_eq_self.mpr (by simpa using hBack), List.nil_append]

/- The new text of an accepted edit stands in the edited text. -/
theorem Accepts.around?_eq_some
    (h : Accepts text edits accepted)
    (hWoven : woven? text 0 accepted = some edited)
    (he : e ∈ accepted) :
    ∃ x y, around? text accepted e = some (x, y) ∧
      edited = x ++ e.newText.toList ++ y := by
  rcases Text.isBoundary_iff.mp (inBounds_iff.mp (h.inBounds he)).2.1 with
    ⟨a, b, rfl, hLength⟩
  rcases List.append_of_mem he with ⟨front, back, rfl⟩
  rcases filter_isBefore_of_sorted h.sorted with ⟨hFront, hBack⟩
  rcases List.pairwise_append.mp h.apart with ⟨-, hRest, hCross⟩
  have hBefore : ∀ d ∈ front, d.span.start ≤ d.span.stop ∧
      d.span.stop ≤ Text.byteLength a := by
    intro d hd
    rw [hLength]
    exact ⟨(inBounds_iff.mp (h.inBounds (List.mem_append_left _ hd))).1,
      (hCross d hd e List.mem_cons_self).2⟩
  have hBehind : ∀ d ∈ e :: back, Text.byteLength a ≤ d.span.start := by
    rw [hLength]
    refine List.forall_mem_cons.mpr ⟨le_rfl, fun d hd => ?_⟩
    exact (inBounds_iff.mp (h.inBounds he)).1.trans
      ((List.pairwise_cons.mp hRest).1 d hd).2
  rcases exists_append_of_woven? hWoven (Nat.zero_le _) hBefore hBehind with
    ⟨x, filling, rfl, hx, hFilling⟩
  rcases woven?_cons_eq_some.mp hFilling with ⟨kept, y, hKept, hy, rfl⟩
  have hNone : kept = [] := Text.eq_nil_of_slice? (hLength ▸ hKept)
  refine ⟨x, y, ?_, by simp [hNone]⟩
  rw [around?, ← hLength, Text.cutAt?_byteLength, hFront, hBack]
  simp [hx, hy]

------------------------------------------------------------
-- Whole lines
------------------------------------------------------------

/-
  Edits of whole lines keep lines whole: the text stops at
  the end of a line, and so does the new text of each edit
  that stops there.
-/
theorem endsLine_of_woven?
    (hWoven : woven? text 0 edits = some edited)
    (hText : Text.EndsLine text)
    (hEdits : ∀ e ∈ edits, e.span.stop = Text.byteLength text →
      e.newText.toList ≠ [] ∧ Text.EndsLine e.newText.toList) :
    Text.EndsLine edited := by
  rcases List.eq_nil_or_concat edits with rfl | ⟨init, last, rfl⟩
  · rcases Text.exists_append_of_slice? hWoven with ⟨before, rfl, -⟩
    exact hText.of_append
  · rw [List.concat_eq_append] at hWoven hEdits
    rcases exists_append_of_woven?_concat hWoven with ⟨x, kept, rfl, hKept⟩
    rcases Text.exists_append_of_slice? hKept with ⟨before, rfl, hStop⟩
    by_cases hSome : kept = []
    · subst hSome
      have hLast := hEdits last (by simp) (by rw [List.append_nil, hStop])
      simpa using hLast.2.append hLast.1 x
    · exact hText.of_append.append hSome _

/- The insertion fills the place that it names. -/
theorem woven?_singleton_eq
    (hWoven : woven? a (Text.byteLength a) [e] = some edited)
    (hSpan : e.span = ⟨Text.byteLength a, Text.byteLength a⟩) :
    edited = e.newText.toList := by
  rcases woven?_cons_eq_some.mp hWoven with ⟨kept, behind, hKept, hBehind, rfl⟩
  rw [hSpan] at hKept hBehind
  rw [Text.eq_nil_of_slice? hKept, Text.eq_nil_of_slice? hBehind]
  simp

/-
  Of the texts that go to one place between two lines, the
  last one ends the text up to there.
-/
theorem Accepts.exists_last
    (h : Accepts (a ++ b) edits accepted)
    {newText : String}
    (hPut : insertion (Text.byteLength a) newText ∈ accepted)
    (hLine : Text.EndsLine a)
    (hEnds : ∀ e ∈ accepted, e.span.stop = Text.byteLength a →
      e.newText.toList ≠ [] ∧ Text.EndsLine e.newText.toList)
    {x y : List Char}
    (hParts : partsAt? (a ++ b) accepted (Text.byteLength a) = some (x, y)) :
    ∃ last ∈ accepted,
      last.span = ⟨Text.byteLength a, Text.byteLength a⟩ ∧
      (∀ e ∈ accepted, e.span = ⟨Text.byteLength a, Text.byteLength a⟩ →
        e = last ∨ e.IsBefore last) ∧
      ∃ before, x = before ++ last.newText.toList ∧ Text.EndsLine before := by
  let front := accepted.filter fun e => e.span.stop ≤ Text.byteLength a
  have hFront : woven? a 0 front = some x := woven?_of_partsAt? hParts
  have hMem : ∀ e, e ∈ front ↔
      e ∈ accepted ∧ e.span.stop ≤ Text.byteLength a := by
    simp [front]
  have hApart : front.Pairwise fun a b =>
      a.IsBefore b ∧ a.span.stop ≤ b.span.start :=
    h.apart.filter _
  rcases List.eq_nil_or_concat front with hNone | ⟨init, last, hSome⟩
  · have hIn := (hMem _).mpr ⟨hPut, le_rfl⟩
    rw [hNone] at hIn
    cases hIn
  · rw [List.concat_eq_append] at hSome
    rw [hSome] at hMem hApart hFront
    have hBehind := (List.pairwise_append.mp hApart).2.2
    rcases (hMem last).mp (by simp) with ⟨hLast, hStop⟩
    have hOrder := (inBounds_iff.mp (h.inBounds hLast)).1
    have hUpTo : ∀ e ∈ accepted,
        e.span = ⟨Text.byteLength a, Text.byteLength a⟩ →
          e = last ∨
            e.IsBefore last ∧ Text.byteLength a ≤ last.span.start := by
      intro e he hSpan
      have hIn := (hMem e).mpr ⟨he, by rw [hSpan]⟩
      rcases List.mem_append.mp hIn with hInit | hSame
      · have hPair := hBehind e hInit last List.mem_cons_self
        rw [hSpan] at hPair
        exact Or.inr hPair
      · exact Or.inl (List.mem_singleton.mp hSame)
    have hSpan : last.span = ⟨Text.byteLength a, Text.byteLength a⟩ := by
      rcases hUpTo _ hPut rfl with hSame | ⟨-, hStart⟩
      · rw [← hSame]
        rfl
      · have hStartEq : last.span.start = Text.byteLength a := by omega
        have hStopEq : last.span.stop = Text.byteLength a := by omega
        exact Span.ext hStartEq hStopEq
    refine ⟨last, hLast, hSpan,
      fun e he hSame => (hUpTo e he hSame).imp_right And.left, ?_⟩
    have hInit : ∀ e ∈ init, e ∈ accepted ∧ e.span.stop ≤ Text.byteLength a :=
      fun e he => (hMem e).mp (List.mem_append_left _ he)
    rw [← List.append_nil a] at hFront
    rcases exists_append_of_woven? hFront (Nat.zero_le _)
        (fun e he => ⟨(inBounds_iff.mp (h.inBounds (hInit e he).1)).1,
          (hInit e he).2⟩)
        (by simp [hSpan]) with ⟨before, filling, rfl, hBefore, hFilling⟩
    rw [List.append_nil] at hFilling
    refine ⟨before, by rw [woven?_singleton_eq hFilling hSpan], ?_⟩
    exact endsLine_of_woven? hBefore hLine fun e he => hEnds e (hInit e he).1

------------------------------------------------------------
-- Insertions in one place
------------------------------------------------------------

/- Insertions in one place are ordered by their texts. -/
theorem insertion_isBefore_iff
    {s t : String} :
    (insertion offset s).IsBefore (insertion offset t) ↔ s < t := by
  simp [isBefore_iff, key, insertion, Prod.Lex.lt_iff]

/- An insertion of some text changes the text. -/
theorem isIdle_insertion
    {newText : String}
    (hSome : newText ≠ "") :
    isIdle text (insertion offset newText) = false := by
  simp only [isIdle, insertion, beq_eq_false_iff_ne]
  intro hSlice
  exact hSome (by simpa using Text.eq_nil_of_slice? hSlice)

/- One insertion puts its text between what is in front and the rest. -/
theorem apply_insertion_text
    (front line : String)
    {newText : String}
    (hSome : newText ≠ "") :
    (apply (front ++ line)
      [insertion (Text.byteLength front.toList) newText]).text =
        front ++ newText ++ line := by
  have hPlaced := Text.replaceRange?_pieces front.toList [] line.toList
    newText.toList
  have hBoundary : Text.isBoundary (Text.byteLength front.toList)
      (front ++ line).toList = true := by
    rw [String.toList_append]
    exact Text.isBoundary_byteLength _ _
  rw [List.append_nil, ← String.toList_append] at hPlaced
  refine (apply_text_of_apart (List.Perm.refl _) (List.pairwise_singleton _ _)
    (List.forall_mem_singleton.mpr
      (inBounds_iff.mpr ⟨le_rfl, hBoundary, hBoundary⟩))
    (List.pairwise_singleton _ _)
    (List.forall_mem_singleton.mpr (isIdle_insertion hSome)) hPlaced).trans ?_
  rw [String.ofList_append, String.ofList_append, String.ofList_toList,
    String.ofList_toList, String.ofList_toList]

/- An insertion is accepted if no accepted edit runs over its place. -/
theorem Accepts.insertion_mem
    (h : Accepts text edits accepted)
    (hPlace : Text.isBoundary offset text = true)
    (hApart : ∀ a ∈ accepted, a.span.stop ≤ offset ∨ offset ≤ a.span.start)
    {newText : String}
    (hPut : insertion offset newText ∈ edits)
    (hSome : newText ≠ "") :
    insertion offset newText ∈ accepted := by
  refine (h.mem_iff _).mpr ⟨hPut, ?_, isIdle_insertion hSome⟩
  rintro (hOut | ⟨a, ha, -, hOverlaps⟩)
  · have hIn : TextEdit.inBounds text (insertion offset newText) = true :=
      inBounds_iff.mpr ⟨le_rfl, hPlace, hPlace⟩
    cases hOut.symm.trans hIn
  · rcases hApart a ha with hStop | hStart
    · exact absurd hOverlaps.2 (Nat.not_lt.mpr hStop)
    · exact absurd hOverlaps.1 (Nat.not_lt.mpr hStart)

/- If one insertion is accepted, so are the others in its place. -/
theorem Accepts.mem_of_insertion
    (h : Accepts text edits accepted)
    {newText otherText : String}
    (hPut : insertion offset newText ∈ accepted)
    (hOther : insertion offset otherText ∈ edits)
    (hSome : otherText ≠ "") :
    insertion offset otherText ∈ accepted :=
  h.insertion_mem (inBounds_iff.mp (h.inBounds hPut)).2.1
    (fun _ ha => h.stop_le_or_le_start hPut ha) hOther hSome

end TextEdit

end Retarget
