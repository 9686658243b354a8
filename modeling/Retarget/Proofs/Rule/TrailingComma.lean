import Retarget.Rule.ApiTarget
import Retarget.Proofs.Json.Reader
import Retarget.Proofs.Text.Separator

/-
  This file shows that dropping the commas in front of
  closing brackets drops the extra commas of a JSON text and
  nothing else.  The scan is at the end of a string literal
  when the literal ends, and it drops a comma by the first
  character behind it that is no blank: no value, no name and
  no blank starts with a closing bracket.

  Key definitions include:
    * `Opens`
    * `IsStripped`

  Key statements include:
    * `isStripped_literal`
    * `Json.IsWritten.closesNext_eq`
    * `Json.IsWritten.isStripped`
    * `stripTrailingCommas_of_isText`
    * `stripTrailingCommas_of_readWhole`
    * `ApiRule.parseTable_of_isText`
-/

namespace Retarget

open Json

variable {cs : List Char}
variable {ms ns : List Mark}

------------------------------------------------------------
-- What is behind a comma
------------------------------------------------------------

theorem isBlank_of_isJsonBlank
    {c : Char}
    (h : isJsonBlank c = true) :
    Text.isBlank c = true := by
  simp only [isJsonBlank, Bool.or_eq_true, beq_iff_eq] at h
  rcases h with ((rfl | rfl) | rfl) | rfl <;> decide

theorem closesNext_blanks
    (h : IsBlanks cs)
    (rest : List Char) :
    closesNext (cs ++ rest) = closesNext rest := by
  have hBlank : ∀ c ∈ cs, Text.isBlank c = true :=
    fun c hc => isBlank_of_isJsonBlank (h c hc)
  rw [closesNext, List.dropWhile_append_of_pos hBlank]
  rfl

/- A character that is no blank and no closing bracket. -/
def Opens (c : Char) : Prop :=
  Text.isBlank c = false ∧ c ≠ ']' ∧ c ≠ '\x7d'

instance (c : Char) : Decidable (Opens c) := by
  unfold Opens
  infer_instance

theorem closesNext_of_opens
    {c : Char}
    (h : Opens c)
    (rest : List Char) :
    closesNext (c :: rest) = false := by
  rcases h with ⟨hBlank, hSquare, hCurly⟩
  rw [closesNext, List.dropWhile_cons_of_neg (by simp [hBlank])]
  split
  · next hSame => exact absurd (List.cons.inj hSame).1 hSquare
  · next hSame => exact absurd (List.cons.inj hSame).1 hCurly
  · rfl

theorem closesNext_closing
    {c : Char}
    (h : c = ']' ∨ c = '\x7d')
    (rest : List Char) :
    closesNext (c :: rest) = true := by
  have hBlank : Text.isBlank c = false := by
    rcases h with rfl | rfl <;> decide
  rw [closesNext, List.dropWhile_cons_of_neg (by simp [hBlank])]
  rcases h with rfl | rfl <;> rfl

------------------------------------------------------------
-- Outside of literals
------------------------------------------------------------

/- The scan drops the extra commas of a part of a text and nothing else. -/
def IsStripped (ms : List Mark) : Prop :=
  ∀ rest, stripCommas .outside (spelled ms ++ rest) =
    bare ms ++ stripCommas .outside rest

theorem IsStripped.append
    (h : IsStripped ms)
    (hMore : IsStripped ns) :
    IsStripped (ms ++ ns) := by
  intro rest
  rw [spelled_append, List.append_assoc, h, hMore, bare_append,
    List.append_assoc]

/- A character that is neither a quote nor a comma. -/
def IsPlain (c : Char) : Prop :=
  c ≠ '"' ∧ c ≠ ','

instance (c : Char) : Decidable (IsPlain c) := by
  unfold IsPlain
  infer_instance

theorem isStripped_plain
    (h : ∀ c ∈ cs, IsPlain c) :
    IsStripped (marks cs) := by
  intro rest
  rw [spelled_marks, bare_marks]
  induction cs with
  | nil => rfl
  | cons c r ih =>
      rcases List.forall_mem_cons.mp h with ⟨⟨hQuote, hComma⟩, hRest⟩
      simp [stripCommas, hQuote, hComma, ih hRest]

theorem isStripped_kept
    {c : Char}
    (h : IsPlain c) :
    IsStripped [.kept c] :=
  isStripped_plain (List.forall_mem_singleton.mpr h)

theorem isStripped_blanks
    (h : IsBlanks cs) :
    IsStripped (marks cs) := by
  refine isStripped_plain fun c hc => ?_
  have hBlank := h c hc
  constructor <;> rintro rfl <;> revert hBlank <;> decide

/- A comma is kept where something else than a bracket follows. -/
theorem IsStripped.comma
    (h : IsStripped ms)
    (hNext : ∀ rest, closesNext (spelled ms ++ rest) = false) :
    IsStripped (.kept ',' :: ms) := by
  intro rest
  rw [spelled_kept_cons, bare_kept_cons, List.cons_append, List.cons_append,
    ← h rest]
  simp [stripCommas, hNext]

theorem IsStripped.extraComma
    (h : IsStripped ms)
    (hNext : ∀ rest, closesNext (spelled ms ++ rest) = true) :
    IsStripped (.extraComma :: ms) := by
  intro rest
  rw [spelled_extraComma_cons, bare_extraComma_cons, List.cons_append,
    ← h rest]
  simp [stripCommas, hNext]

theorem Json.IsEnding.isStripped
    {ending : List Mark}
    {closing : Char}
    (h : IsEnding ending)
    (hClosing : closing = ']' ∨ closing = '\x7d') :
    IsStripped (ending ++ [.kept closing]) := by
  have hPlain : IsStripped [.kept closing] :=
    isStripped_kept (by rcases hClosing with rfl | rfl <;> decide)
  cases h with
  | none => exact hPlain
  | extraComma hb =>
      refine ((isStripped_blanks hb).append hPlain).extraComma fun rest => ?_
      rw [spelled_append, List.append_assoc, spelled_marks,
        closesNext_blanks hb]
      exact closesNext_closing hClosing rest

------------------------------------------------------------
-- Literals
------------------------------------------------------------

/- No hexadecimal digit ends a literal or starts an escape. -/
theorem stripCommas_hexDigit
    {c : Char}
    {n : Nat}
    (h : hexValue? c = some n)
    (rest : List Char) :
    stripCommas .inside (c :: rest) = c :: stripCommas .inside rest := by
  have hQuote : c ≠ '"' := by
    rintro rfl
    cases h
  have hEscape : c ≠ '\\' := by
    rintro rfl
    cases h
  simp [stripCommas, hQuote, hEscape]

theorem stripCommas_hex
    {n : Nat}
    {hex : List Char}
    (h : hexUnit? hex = some (n, []))
    (rest : List Char) :
    stripCommas .inside (hex ++ rest) = hex ++ stripCommas .inside rest := by
  unfold hexUnit? at h
  split at h
  · simp only [Option.bind_eq_bind, Option.bind_eq_some_iff] at h
    rcases h with ⟨a, ha, b, hb, c, hc, d, hd, hUnit⟩
    obtain rfl := (Prod.mk.inj (Option.some.inj hUnit)).2
    simp only [List.cons_append, List.nil_append]
    rw [stripCommas_hexDigit ha, stripCommas_hexDigit hb,
      stripCommas_hexDigit hc, stripCommas_hexDigit hd]
  · cases h

theorem stripCommas_literalBody
    {units : List Nat}
    (h : IsLiteralBody units cs)
    (rest : List Char) :
    stripCommas .inside (cs ++ rest) = cs ++ stripCommas .inside rest := by
  induction h with
  | nil => rfl
  | plain hQuote hEscape _ _ ih => simp [stripCommas, hQuote, hEscape, ih]
  | escape _ _ ih => simp [stripCommas, ih]
  | unit hHex _ ih => simp [stripCommas, stripCommas_hex hHex, ih]

theorem isStripped_literal
    {units : List Nat}
    (h : IsLiteral units cs) :
    IsStripped (marks cs) := by
  intro rest
  cases h with
  | quoted h => simp [stripCommas, stripCommas_literalBody h]

------------------------------------------------------------
-- Numerals
------------------------------------------------------------

/- A character that numerals are made of. -/
def IsNumeric (c : Char) : Prop :=
  Text.isAsciiDigit c = true ∨ c ∈ ['-', '+', '.', 'e', 'E']

theorem IsNumeric.isPlain
    {c : Char}
    (h : IsNumeric c) :
    IsPlain c := by
  rcases h with hDigit | hMark
  · constructor <;> rintro rfl <;> cases hDigit
  · simp only [List.mem_cons, List.not_mem_nil, or_false] at hMark
    rcases hMark with rfl | rfl | rfl | rfl | rfl <;> decide

theorem IsNumeric.opens
    {c : Char}
    (h : IsNumeric c) :
    Opens c := by
  rcases h with hDigit | hMark
  · refine ⟨(Text.isVisible_of_isAsciiDigit hDigit).isBlank_eq_false, ?_⟩
    constructor <;> rintro rfl <;> cases hDigit
  · simp only [List.mem_cons, List.not_mem_nil, or_false] at hMark
    rcases hMark with rfl | rfl | rfl | rfl | rfl <;> decide

theorem Json.IsDigitRun.isNumeric
    (h : IsDigitRun cs) :
    ∀ c ∈ cs, IsNumeric c :=
  fun c hc => Or.inl (h.2 c hc)

theorem Json.IsFraction.isNumeric
    {digits : List Char}
    (h : IsFraction digits cs) :
    ∀ c ∈ cs, IsNumeric c := by
  cases h with
  | none => exact List.forall_mem_nil _
  | point h => exact List.forall_mem_cons.mpr ⟨Or.inr (by decide), h.isNumeric⟩

theorem Json.IsExponent.isNumeric
    {n : Int}
    (h : IsExponent n cs) :
    ∀ c ∈ cs, IsNumeric c := by
  cases h with
  | none => exact List.forall_mem_nil _
  | power he hSign h =>
      refine List.forall_mem_cons.mpr
        ⟨Or.inr (by rcases he with rfl | rfl <;> decide), ?_⟩
      refine List.forall_mem_append.mpr ⟨fun c hc => Or.inr ?_, h.isNumeric⟩
      cases hSign with
      | none => cases hc
      | plus =>
          rw [List.mem_singleton.mp hc]
          decide
      | minus =>
          rw [List.mem_singleton.mp hc]
          decide

theorem Json.IsMagnitude.isNumeric
    {q : ℚ}
    (h : IsMagnitude q cs) :
    cs ≠ [] ∧ ∀ c ∈ cs, IsNumeric c := by
  rcases h with ⟨hWhole, -, hFraction, hExponent⟩
  refine ⟨by simp [hWhole.1], ?_⟩
  exact List.forall_mem_append.mpr
    ⟨List.forall_mem_append.mpr ⟨hWhole.isNumeric, hFraction.isNumeric⟩,
      hExponent.isNumeric⟩

theorem Json.IsNumeral.isNumeric
    {q : ℚ}
    (h : IsNumeral q cs) :
    cs ≠ [] ∧ ∀ c ∈ cs, IsNumeric c := by
  cases h with
  | positive h => exact h.isNumeric
  | negative h =>
      exact ⟨by simp, List.forall_mem_cons.mpr
        ⟨Or.inr (by decide), h.isNumeric.2⟩⟩

------------------------------------------------------------
-- Texts
------------------------------------------------------------

/- No part of a text starts with a closing bracket, blanks aside. -/
theorem Json.IsWritten.closesNext_eq
    {p : Phrase}
    (h : IsWritten p ms)
    (rest : List Char) :
    closesNext (spelled ms ++ rest) = false := by
  induction h generalizing rest with
  | null => exact closesNext_of_opens (by decide) _
  | yes => exact closesNext_of_opens (by decide) _
  | no => exact closesNext_of_opens (by decide) _
  | number h =>
      rcases h.isNumeric with ⟨hSome, hNumeric⟩
      rcases List.exists_cons_of_ne_nil hSome with ⟨c, r, rfl⟩
      exact closesNext_of_opens (hNumeric c List.mem_cons_self).opens _
  | text h =>
      rcases h with ⟨h⟩
      exact closesNext_of_opens (by decide) _
  | emptyArray => exact closesNext_of_opens (by decide) _
  | array => exact closesNext_of_opens (by decide) _
  | emptyObject => exact closesNext_of_opens (by decide) _
  | object => exact closesNext_of_opens (by decide) _
  | element hb _ _ ih => simp [closesNext_blanks hb, ih]
  | lastElement _ ih => exact ih rest
  | nextElement _ _ ih _ => simp [ih]
  | member hb hName _ _ _ =>
      rcases hName with ⟨h⟩
      simp only [marks_append, spelled_append, spelled_marks,
        List.append_assoc]
      rw [closesNext_blanks hb]
      exact closesNext_of_opens (by decide) _
  | lastMember _ ih => exact ih rest
  | nextMember _ _ ih _ => simp [ih]

theorem Json.IsWritten.isStripped
    {p : Phrase}
    (h : IsWritten p ms) :
    IsStripped ms := by
  induction h with
  | null => exact isStripped_plain (by simp [IsPlain])
  | yes => exact isStripped_plain (by simp [IsPlain])
  | no => exact isStripped_plain (by simp [IsPlain])
  | number h =>
      exact isStripped_plain fun c hc =>
        (h.isNumeric.2 c hc).isPlain
  | text h => exact isStripped_literal h
  | emptyArray hb =>
      simpa using (isStripped_kept (c := '[') (by decide)).append
        ((isStripped_blanks hb).append (isStripped_kept (c := ']') (by decide)))
  | array _ hEnding ih =>
      exact (isStripped_kept (by decide)).append
        (ih.append (hEnding.isStripped (Or.inl rfl)))
  | emptyObject hb =>
      simpa using (isStripped_kept (c := '\x7b') (by decide)).append
        ((isStripped_blanks hb).append
          (isStripped_kept (c := '\x7d') (by decide)))
  | object _ hEnding ih =>
      exact (isStripped_kept (by decide)).append
        (ih.append (hEnding.isStripped (Or.inr rfl)))
  | element hb _ hb' ih =>
      exact (isStripped_blanks hb).append (ih.append (isStripped_blanks hb'))
  | lastElement _ ih => exact ih
  | nextElement _ hMore ih ihMore =>
      exact ih.append (ihMore.comma hMore.closesNext_eq)
  | member hb hName hb' _ ih =>
      have hColon : IsStripped [.kept ':'] := isStripped_kept (by decide)
      simpa using (isStripped_blanks hb).append ((isStripped_literal hName).append
        ((isStripped_blanks hb').append (hColon.append ih)))
  | lastMember _ ih => exact ih
  | nextMember _ hMore ih ihMore =>
      exact ih.append (ihMore.comma hMore.closesNext_eq)

------------------------------------------------------------
-- Tables
------------------------------------------------------------

theorem stripTrailingCommas_spelled
    {v : Datum}
    (h : IsWritten (.element v) ms) :
    stripTrailingCommas (String.ofList (spelled ms)) =
      String.ofList (bare ms) := by
  have hScan := h.isStripped []
  rw [List.append_nil] at hScan
  rw [stripTrailingCommas, String.toList_ofList, hScan]
  simp [stripCommas]

/-
  A text loses its extra commas and nothing else, and what is
  left is a text of the same value.  A text without extra
  commas stays as it is.
-/
theorem stripTrailingCommas_of_isText
    {v : Datum}
    {ms : List Mark}
    (h : IsText v ms) :
    stripTrailingCommas (String.ofList (spelled ms)) =
        String.ofList (bare ms) ∧
      IsText v (marks (bare ms)) ∧
      (Mark.extraComma ∉ ms →
        stripTrailingCommas (String.ofList (spelled ms)) =
          String.ofList (spelled ms)) := by
  refine ⟨stripTrailingCommas_spelled h, h.bared, fun hNone => ?_⟩
  rw [stripTrailingCommas_spelled h, bare_eq_spelled hNone]

/- An array in an object; commas and brackets of its strings stay. -/
theorem stripTrailingCommas_of_isText_nested :
    IsText (.object [([97, 44, 34], .array [.text [44, 93]])])
        (marks ['\x7b', '"', 'a', ',', '\\', '"', '"', ':',
            '[', '"', ',', ']', '"', ' '] ++
          .extraComma :: (marks ['\n', ']'] ++
            .extraComma :: marks [' ', '\x7d'])) ∧
      stripTrailingCommas "\x7b\"a,\\\"\":[\",]\" ,\n], \x7d" =
        "\x7b\"a,\\\"\":[\",]\" \n] \x7d" := by
  have hNone : IsBlanks [] := List.forall_mem_nil _
  have hSpace : IsBlanks [' '] := List.forall_mem_singleton.mpr rfl
  have hLine : IsBlanks ['\n'] := List.forall_mem_singleton.mpr rfl
  have hName : IsLiteral [97, 44, 34] ['"', 'a', ',', '\\', '"', '"'] :=
    .quoted (.plain (c := 'a') (by decide) (by decide) (by decide)
      (.plain (c := ',') (by decide) (by decide) (by decide)
        (.escape (e := '"') rfl .nil)))
  have hItem : IsLiteral [44, 93] ['"', ',', ']', '"'] :=
    .quoted (.plain (c := ',') (by decide) (by decide) (by decide)
      (.plain (c := ']') (by decide) (by decide) (by decide) .nil))
  have hArray := IsWritten.array
    (.lastElement (.element hNone (.text hItem) hSpace)) (.extraComma hLine)
  have hObject := IsWritten.object
    (.lastMember (.member hNone hName hNone (.element hNone hArray hNone)))
    (.extraComma hSpace)
  have hText := IsWritten.element hNone hObject hNone
  exact ⟨hText, (stripTrailingCommas_of_isText hText).1⟩

/- A text that the reader takes for a value stays as it is. -/
theorem stripTrailingCommas_of_readWhole
    {text : String}
    (h : readWhole skipAny text = .ok ()) :
    stripTrailingCommas text = text := by
  rcases exists_isText_of_readWhole h with ⟨v, hText⟩
  simpa using stripTrailingCommas_spelled hText

/- A table is read as if its extra commas were not there. -/
theorem ApiRule.parseTable_of_isText
    {v : Datum}
    (h : IsText v ms)
    (path : Path) :
    parseTable path (String.ofList (spelled ms)) =
      parseTable path (String.ofList (bare ms)) := by
  have hBare := stripTrailingCommas_spelled h.bared
  rw [spelled_marks, bare_marks] at hBare
  rw [parseTable, parseTable, stripTrailingCommas_spelled h, hBare]

end Retarget
