import Mathlib.Data.List.TakeWhile
import Retarget.Proofs.Json.Grammar
import Retarget.Proofs.Sequence
import Retarget.Proofs.Text.Search

/-
  This file shows that what the reader passes over as a value
  is a text of a value by the grammar, without extra commas.
  Each reader takes a text of its kind from the front, with
  the blanks in front of it.

  Key definitions include:
    * `Json.Takes`
    * `Json.IsSequence`
    * `Json.IsElement`

  Key statements include:
    * `Json.exists_isNumeral_of_numeral?`
    * `Json.exists_isLiteralBody_of_textBody?`
    * `Json.takes_readParts`
    * `Json.takes_skipValue`
    * `Json.exists_isText_of_readWhole`
-/

namespace Retarget.Json

variable {α β : Type}
variable {cs rest : List Char}

------------------------------------------------------------
-- What a reader takes
------------------------------------------------------------

/- All that a reader takes from the front of a text is of some form. -/
def Takes (reader : Reader α) (P : List Char → Prop) : Prop :=
  ∀ cs a rest, reader.run cs = .ok (a, rest) →
    ∃ used, cs = used ++ rest ∧ P used

section

variable {reader : Reader α}
variable {next : α → Reader β}
variable {P Q R : List Char → Prop}

theorem Takes.mono
    (h : Takes reader P)
    (hForm : ∀ used, P used → Q used) :
    Takes reader Q := by
  intro cs a rest hRun
  rcases h cs a rest hRun with ⟨used, hText, hUsed⟩
  exact ⟨used, hText, hForm used hUsed⟩

theorem Takes.bind
    (h : Takes reader P)
    (hNext : ∀ a, Takes (next a) Q)
    (hForm : ∀ used more, P used → Q more → R (used ++ more)) :
    Takes (reader >>= next) R := by
  intro cs b rest hRun
  rw [StateT.run_bind] at hRun
  rcases bind_eq_ok_iff.mp hRun with ⟨⟨a, middle⟩, hFirst, hSecond⟩
  rcases h cs a middle hFirst with ⟨used, rfl, hUsed⟩
  rcases hNext a middle b rest hSecond with ⟨more, rfl, hMore⟩
  exact ⟨used ++ more, by simp, hForm used more hUsed hMore⟩

theorem takes_pure
    (a : α) :
    Takes (pure a : Reader α) (· = []) := by
  intro cs b rest hRun
  cases hRun
  exact ⟨[], rfl, rfl⟩

/- The end of a reader, which takes nothing more. -/
theorem Takes.bind_pure
    (h : Takes reader P)
    (f : α → β) :
    Takes (reader >>= fun a => pure (f a)) P :=
  h.bind (fun a => takes_pure (f a)) (by rintro used _ hUsed rfl; simpa)

/- To look at what is left takes nothing. -/
theorem takes_get_bind
    {next : List Char → Reader β}
    (h : ∀ cs, Takes (next cs) P) :
    Takes (get >>= next) P :=
  fun cs => h cs cs

theorem takes_fail
    (P : List Char → Prop) :
    Takes (fail : Reader α) P := by
  intro cs a rest hRun
  cases hRun

end

------------------------------------------------------------
-- Blanks and marks
------------------------------------------------------------

theorem isBlanks_takeWhile
    (cs : List Char) :
    IsBlanks (cs.takeWhile isJsonBlank) :=
  fun _ hc => List.mem_takeWhile_imp hc

theorem takes_peek :
    Takes peek IsBlanks := by
  intro cs a rest hRun
  cases hRun
  exact ⟨cs.takeWhile isJsonBlank, List.takeWhile_append_dropWhile.symm,
    isBlanks_takeWhile cs⟩

/- A form with blanks in front of it. -/
def IsBlanked (P : List Char → Prop) (cs : List Char) : Prop :=
  ∃ b used, cs = b ++ used ∧ IsBlanks b ∧ P used

/- What is taken behind the blanks of a text. -/
theorem exists_isBlanked
    {P : List Char → Prop}
    (used : List Char)
    (hText : cs.dropWhile isJsonBlank = used ++ rest)
    (hUsed : P used) :
    ∃ used, cs = used ++ rest ∧ IsBlanked P used := by
  refine ⟨cs.takeWhile isJsonBlank ++ used, ?_, _, _, rfl,
    isBlanks_takeWhile cs, hUsed⟩
  rw [List.append_assoc, ← hText, List.takeWhile_append_dropWhile]

theorem run_expect
    (c : Char)
    (cs : List Char) :
    (expect c).run cs =
      match cs.dropWhile isJsonBlank with
      | [] => .error .malformed
      | d :: r => if d == c then .ok ((), r) else .error .malformed := by
  change (Json.next >>= fun d => if d == c then pure () else fail).run
    (cs.dropWhile isJsonBlank) = _
  cases cs.dropWhile isJsonBlank with
  | nil => rfl
  | cons d r =>
      change (if d == c then pure () else fail : Reader Unit).run r =
        if d == c then .ok ((), r) else .error .malformed
      split <;> rfl

theorem takes_expect
    (c : Char) :
    Takes (expect c) (IsBlanked (· = [c])) := by
  intro cs a rest hRun
  refine exists_isBlanked [c] ?_ rfl
  rw [run_expect] at hRun
  cases hText : cs.dropWhile isJsonBlank with
  | nil =>
      rw [hText] at hRun
      cases hRun
  | cons d r =>
      rw [hText] at hRun
      dsimp only at hRun
      split at hRun
      · next hSame =>
          cases hRun
          rw [eq_of_beq hSame]
          rfl
      · cases hRun

theorem run_readWord
    (word : String)
    (cs : List Char) :
    (readWord word).run cs =
      match word.toList.isPrefixOf? (cs.dropWhile isJsonBlank) with
      | some rest => .ok ((), rest)
      | none => .error .malformed := by
  change (match word.toList.isPrefixOf? (cs.dropWhile isJsonBlank) with
    | some rest => set rest
    | none => fail : Reader Unit).run (cs.dropWhile isJsonBlank) = _
  cases word.toList.isPrefixOf? (cs.dropWhile isJsonBlank) <;> rfl

theorem takes_readWord
    (word : String) :
    Takes (readWord word) (IsBlanked (· = word.toList)) := by
  intro cs a rest hRun
  refine exists_isBlanked word.toList ?_ rfl
  rw [run_readWord] at hRun
  split at hRun
  · next hText =>
      cases hRun
      exact (Text.isPrefixOf?_eq_some_iff.mp hText).symm
  · cases hRun

------------------------------------------------------------
-- Numerals
------------------------------------------------------------

theorem exists_of_digitsOf
    {ds : List Char}
    (h : digitsOf cs = (ds, rest)) :
    cs = ds ++ rest ∧ ∀ d ∈ ds, Text.isAsciiDigit d = true := by
  cases h
  exact ⟨List.takeWhile_append_dropWhile.symm,
    fun _ hd => List.mem_takeWhile_imp hd⟩

theorem isDigitRun_of_wholeDigits?
    {ds : List Char}
    (h : wholeDigits? cs = some (ds, rest)) :
    cs = ds ++ rest ∧ IsDigitRun ds ∧ (ds.head? = some '0' → ds = ['0']) := by
  unfold wholeDigits? at h
  split at h
  · cases h
  · cases h
  · next hSome hZero =>
      have hDigits := Option.some.inj h
      rcases exists_of_digitsOf hDigits with ⟨hText, hRun⟩
      refine ⟨hText, ⟨?_, hRun⟩, fun hFirst => ?_⟩
      · rintro rfl
        exact hSome rest hDigits
      · rcases List.head?_eq_some_iff.mp hFirst with ⟨more, rfl⟩
        cases more with
        | nil => rfl
        | cons d r => exact (hZero d r rest hDigits).elim

theorem exists_isFraction_of_fractionTail?
    {isThere : Bool}
    (h : fractionTail? cs = some (isThere, rest)) :
    ∃ digits fraction, cs = fraction ++ rest ∧ IsFraction digits fraction := by
  unfold fractionTail? at h
  split at h
  · next r =>
      split at h
      · cases h
      · next hSome hDigits =>
          cases h
          rcases exists_of_digitsOf hDigits with ⟨rfl, hRun⟩
          exact ⟨_, _, rfl, .point ⟨by simpa using hSome, hRun⟩⟩
  · cases h
    exact ⟨[], [], rfl, .none⟩

theorem exists_isSign
    (cs : List Char) :
    ∃ n sign, cs = sign ++ dropSign cs ∧ IsSign n sign := by
  unfold dropSign
  split
  · exact ⟨1, ['+'], rfl, .plus⟩
  · exact ⟨-1, ['-'], rfl, .minus⟩
  · exact ⟨1, [], rfl, .none⟩

theorem exists_isExponent_of_exponentTail?
    {isThere : Bool}
    (h : exponentTail? cs = some (isThere, rest)) :
    ∃ n exponent, cs = exponent ++ rest ∧ IsExponent n exponent := by
  unfold exponentTail? at h
  split at h
  · next e r =>
      split at h
      · next he =>
          split at h
          · cases h
          · next hSome hDigits =>
              cases h
              rcases exists_isSign r with ⟨n, sign, hSign, hIs⟩
              rcases exists_of_digitsOf hDigits with ⟨hText, hRun⟩
              refine ⟨_, e :: (sign ++ _), ?_, .power (by simpa using he) hIs
                ⟨by simpa using hSome, hRun⟩⟩
              rw [hSign, hText]
              simp
      · cases h
        exact ⟨0, [], rfl, .none⟩
  · cases h
    exact ⟨0, [], rfl, .none⟩

theorem exists_isMagnitude_of_magnitude?
    {negative : Bool}
    {n : Numeral}
    (h : magnitude? negative cs = some (n, rest)) :
    ∃ q used, cs = used ++ rest ∧ IsMagnitude q used := by
  simp only [magnitude?, Option.bind_eq_bind, Option.bind_eq_some_iff] at h
  rcases h with ⟨⟨ds, _⟩, hWhole, ⟨_, _⟩, hFraction, ⟨_, _⟩, hExponent, hEnd⟩
  cases hEnd
  rcases isDigitRun_of_wholeDigits? hWhole with ⟨rfl, hRun, hZero⟩
  rcases exists_isFraction_of_fractionTail? hFraction with ⟨_, _, rfl, hIs⟩
  rcases exists_isExponent_of_exponentTail? hExponent with ⟨_, _, rfl, hPower⟩
  exact ⟨_, _, by simp, .mk hRun hZero hIs hPower⟩

theorem exists_isNumeral_of_numeral?
    {n : Numeral}
    (h : numeral? cs = some (n, rest)) :
    ∃ q used, cs = used ++ rest ∧ IsNumeral q used := by
  unfold numeral? at h
  split at h
  · rcases exists_isMagnitude_of_magnitude? h with ⟨q, used, rfl, hIs⟩
    exact ⟨-q, _, rfl, .negative hIs⟩
  · rcases exists_isMagnitude_of_magnitude? h with ⟨q, used, rfl, hIs⟩
    exact ⟨q, _, rfl, .positive hIs⟩

------------------------------------------------------------
-- Literals
------------------------------------------------------------

theorem exists_of_hexUnit?
    {n : Nat}
    (h : hexUnit? cs = some (n, rest)) :
    ∃ hex, cs = hex ++ rest ∧ hexUnit? hex = some (n, []) := by
  unfold hexUnit? at h
  split at h
  · next a b c d r =>
      simp only [Option.bind_eq_bind, Option.bind_eq_some_iff] at h
      rcases h with ⟨va, ha, vb, hb, vc, hc, vd, hd, hEnd⟩
      cases hEnd
      refine ⟨[a, b, c, d], rfl, ?_⟩
      simp [hexUnit?, ha, hb, hc, hd]
  · cases h

/- An escape is one unit, or two for a character beyond the first plane. -/
theorem exists_isLiteralBody_of_unicodeEscape?
    {c : Char}
    {units : List Nat}
    {body : List Char}
    (h : unicodeEscape? cs = some (c, rest))
    (hBody : IsLiteralBody units body) :
    ∃ used more, cs = used ++ rest ∧
      IsLiteralBody more ('\\' :: 'u' :: (used ++ body)) := by
  simp only [unicodeEscape?, Option.bind_eq_bind, Option.bind_eq_some_iff] at h
  rcases h with ⟨⟨high, behind⟩, hHigh, h⟩
  rcases exists_of_hexUnit? hHigh with ⟨hex, rfl, hHex⟩
  dsimp only at h
  split at h
  · split at h
    · rw [Option.bind_eq_some_iff] at h
      rcases h with ⟨⟨low, _⟩, hLow, h⟩
      rcases exists_of_hexUnit? hLow with ⟨hexLow, rfl, hHexLow⟩
      dsimp only at h
      split at h
      · obtain rfl := (Prod.mk.inj (Option.some.inj h)).2
        refine ⟨hex ++ '\\' :: 'u' :: hexLow, high :: low :: units,
          by simp, ?_⟩
        simpa using IsLiteralBody.unit hHex (.unit hHexLow hBody)
      · cases h
    · cases h
  · split at h
    · cases h
    · cases h
      exact ⟨hex, _, rfl, .unit hHex hBody⟩

theorem exists_isLiteralBody_of_textBody?
    {n : Nat}
    {body : List Char}
    (h : textBody? n cs = some (body, rest)) :
    ∃ units used, cs = used ++ '"' :: rest ∧ IsLiteralBody units used := by
  fun_induction textBody? n cs generalizing body rest with
  | case1 => cases h
  | case2 => cases h
  | case3 =>
      cases h
      exact ⟨[], [], rfl, .nil⟩
  | case4 n r ih =>
      simp only [Option.bind_eq_bind, Option.bind_eq_some_iff] at h
      rcases h with ⟨⟨c, behind⟩, hEscape, ⟨more, _⟩, hMore, hEnd⟩
      cases hEnd
      rcases ih behind hMore with ⟨units, used, rfl, hUsed⟩
      rcases exists_isLiteralBody_of_unicodeEscape? hEscape hUsed with
        ⟨front, all, rfl, hAll⟩
      exact ⟨all, _, by simp, hAll⟩
  | case5 n e r _ ih =>
      simp only [Option.bind_eq_bind, Option.bind_eq_some_iff] at h
      rcases h with ⟨c, hEscape, ⟨more, _⟩, hMore, hEnd⟩
      cases hEnd
      rcases ih hMore with ⟨units, used, rfl, hUsed⟩
      exact ⟨_, '\\' :: e :: used, rfl, .escape hEscape hUsed⟩
  | case6 => cases h
  | case7 n c r hQuote _ hEscape hControl ih =>
      simp only [Option.bind_eq_bind, Option.bind_eq_some_iff] at h
      rcases h with ⟨⟨more, _⟩, hMore, hEnd⟩
      cases hEnd
      rcases ih hMore with ⟨units, used, rfl, hUsed⟩
      have hNoEscape : c ≠ '\\' := by
        intro hSame
        cases used with
        | nil => exact hEscape _ _ hSame rfl
        | cons d r => exact hEscape _ _ hSame rfl
      exact ⟨_, c :: used, rfl,
        .plain hQuote hNoEscape (Nat.le_of_not_lt hControl) hUsed⟩

theorem takes_readText :
    Takes readText (IsBlanked fun cs => ∃ units, IsLiteral units cs) := by
  unfold readText
  refine (takes_expect '"').bind
    (Q := fun cs => ∃ units used, cs = used ++ ['"'] ∧
      IsLiteralBody units used) (fun _ => ?_) ?_
  · intro cs a rest hRun
    rw [StateT.run_bind, StateT.run_get, pure_bind] at hRun
    split at hRun
    · next hText =>
        cases hRun
        rcases exists_isLiteralBody_of_textBody? hText with
          ⟨units, used, hUsed, hBody⟩
        exact ⟨used ++ ['"'], by simpa using hUsed, units, used, rfl, hBody⟩
    · cases hRun
  · rintro _ _ ⟨b, _, rfl, hb, rfl⟩ ⟨units, used, rfl, hBody⟩
    exact ⟨b, '"' :: (used ++ ['"']), by simp, hb, units, .quoted hBody⟩

------------------------------------------------------------
-- Arrays and objects
------------------------------------------------------------

/- Parts with commas between them. -/
inductive IsSequence (P : List Char → Prop) : List Char → Prop where
  | last {cs : List Char}
      (h : P cs) :
      IsSequence P cs
  | next {cs more : List Char}
      (h : P cs)
      (hMore : IsSequence P more) :
      IsSequence P (cs ++ ',' :: more)

/- What is between a part, or the opening bracket, and the closing one. -/
def IsInside (P : List Char → Prop) (isFirst : Bool) (cs : List Char) : Prop :=
  IsBlanks cs ∨ if isFirst then IsSequence P cs
    else ∃ b more, cs = b ++ ',' :: more ∧ IsBlanks b ∧ IsSequence P more

/- A form with the closing bracket behind it. -/
def IsClosed
    (closing : Char)
    (P : List Char → Prop)
    (cs : List Char) : Prop :=
  ∃ inside, cs = inside ++ [closing] ∧ P inside

section

variable {σ : Type}
variable {closing : Char}
variable {part : σ → Reader σ}
variable {P : List Char → Prop}
variable {isFirst : Bool}

theorem IsSequence.blanks_append
    {b : List Char}
    (hFront : ∀ b cs, IsBlanks b → P cs → P (b ++ cs))
    (hb : IsBlanks b)
    (h : IsSequence P cs) :
    IsSequence P (b ++ cs) := by
  cases h with
  | last h => exact .last (hFront _ _ hb h)
  | next h hMore =>
      rw [← List.append_assoc]
      exact .next (hFront _ _ hb h) hMore

theorem IsInside.blanks_append
    {b : List Char}
    (hFront : ∀ b cs, IsBlanks b → P cs → P (b ++ cs))
    (hb : IsBlanks b)
    (h : IsInside P isFirst cs) :
    IsInside P isFirst (b ++ cs) := by
  rcases h with hBlanks | hParts
  · exact Or.inl (hb.append hBlanks)
  · refine Or.inr ?_
    cases isFirst with
    | true => exact hParts.blanks_append hFront hb
    | false =>
        rcases hParts with ⟨b', more, rfl, hb', hMore⟩
        exact ⟨b ++ b', more, by simp, hb.append hb', hMore⟩

/- A part in front of what is left of an array or an object. -/
theorem IsInside.isSequence_append
    {inside : List Char}
    (hBack : ∀ b cs, IsBlanks b → P cs → P (cs ++ b))
    (h : P cs)
    (hInside : IsInside P false inside) :
    IsSequence P (cs ++ inside) := by
  rcases hInside with hBlanks | ⟨b, more, rfl, hb, hMore⟩
  · exact .last (hBack _ _ hBlanks h)
  · rw [← List.append_assoc]
    exact .next (hBack _ _ hb h) hMore

theorem IsClosed.append
    {Q R : List Char → Prop}
    {more : List Char}
    (h : IsClosed closing Q more)
    (hForm : ∀ inside, Q inside → R (cs ++ inside)) :
    IsClosed closing R (cs ++ more) := by
  rcases h with ⟨inside, rfl, hInside⟩
  exact ⟨cs ++ inside, by simp, hForm inside hInside⟩

/-
  A comma and the blanks behind it are in front of a part, since a
  closing bracket there is a fault.
-/
theorem takes_readParts
    (hPart : ∀ acc, Takes (part acc) P)
    (hFront : ∀ b cs, IsBlanks b → P cs → P (b ++ cs))
    (hBack : ∀ b cs, IsBlanks b → P cs → P (cs ++ b))
    (n : Nat)
    (isFirst : Bool)
    (acc : σ) :
    Takes (readParts closing part n isFirst acc)
      (IsClosed closing (IsInside P isFirst)) := by
  induction n generalizing isFirst acc with
  | zero => exact takes_fail _
  | succ n ih =>
      have hParts : ∀ acc, Takes (part acc >>= readParts closing part n false)
          (IsClosed closing (IsSequence P)) :=
        fun acc => (hPart acc).bind (ih false) fun _ _ hUsed hMore =>
          hMore.append fun _ hInside => hInside.isSequence_append hBack hUsed
      unfold readParts
      refine takes_peek.bind (Q := IsClosed closing (IsInside P isFirst))
        (fun o => ?_) fun b _ hb hMore =>
          hMore.append fun _ hInside => hInside.blanks_append hFront hb
      cases o with
      | none => exact takes_fail _
      | some c =>
          dsimp only
          split
          · refine ((takes_expect closing).bind_pure fun _ => acc).mono ?_
            rintro _ ⟨b, _, rfl, hb, rfl⟩
            exact ⟨b, rfl, Or.inl hb⟩
          · cases isFirst with
            | true => exact (hParts acc).mono fun _ ⟨_, hText, hInside⟩ =>
                ⟨_, hText, Or.inr hInside⟩
            | false =>
                have hNext : Takes (do
                    if (← peek) == some closing then fail
                    else readParts closing part n false (← part acc))
                    (IsClosed closing (IsSequence P)) := by
                  refine takes_peek.bind (Q := IsClosed closing (IsSequence P))
                    (fun _ => ?_) fun b _ hb hMore =>
                      hMore.append fun _ => .blanks_append hFront hb
                  split
                  · exact takes_fail _
                  · exact hParts acc
                refine (takes_expect ',').bind (fun _ => hNext) ?_
                rintro _ _ ⟨b, _, rfl, hb, rfl⟩ ⟨more, rfl, hMore⟩
                exact ⟨b ++ ',' :: more, by simp,
                  Or.inr ⟨b, more, rfl, hb, hMore⟩⟩

end

------------------------------------------------------------
-- Values
------------------------------------------------------------

/- A value with blanks around it and no extra comma. -/
def IsElement (cs : List Char) : Prop :=
  ∃ v, IsWritten (.element v) (marks cs)

/- A name and its element without extra commas. -/
def IsMember (cs : List Char) : Prop :=
  ∃ name v, IsWritten (.member name v) (marks cs)

section

variable {b : List Char}

theorem isElement_blanks_append
    (hb : IsBlanks b)
    (h : IsElement cs) :
    IsElement (b ++ cs) := by
  rcases h with ⟨v, h⟩
  refine ⟨v, ?_⟩
  rw [marks_append]
  generalize marks cs = ms at h
  cases h with
  | element hFront h hBack =>
      simpa using IsWritten.element (hb.append hFront) h hBack

theorem isElement_append_blanks
    (hb : IsBlanks b)
    (h : IsElement cs) :
    IsElement (cs ++ b) := by
  rcases h with ⟨v, h⟩
  exact ⟨v, by simpa using h.append_blanks (by simp) hb⟩

theorem isMember_blanks_append
    (hb : IsBlanks b)
    (h : IsMember cs) :
    IsMember (b ++ cs) := by
  rcases h with ⟨name, v, h⟩
  refine ⟨name, v, ?_⟩
  rw [marks_append]
  generalize marks cs = ms at h
  cases h with
  | member hFront hName hBack h =>
      simpa using IsWritten.member (hb.append hFront) hName hBack h

theorem isMember_append_blanks
    (hb : IsBlanks b)
    (h : IsMember cs) :
    IsMember (cs ++ b) := by
  rcases h with ⟨name, v, h⟩
  exact ⟨name, v, by simpa using h.append_blanks (by simp) hb⟩

end

theorem IsSequence.exists_elements
    (h : IsSequence IsElement cs) :
    ∃ vs, IsWritten (.elements vs) (marks cs) := by
  induction h with
  | last h =>
      rcases h with ⟨v, hv⟩
      exact ⟨[v], .lastElement hv⟩
  | next h _ ih =>
      rcases h with ⟨v, hv⟩
      rcases ih with ⟨vs, hvs⟩
      exact ⟨v :: vs, by simpa using IsWritten.nextElement hv hvs⟩

theorem IsSequence.exists_members
    (h : IsSequence IsMember cs) :
    ∃ fields, IsWritten (.members fields) (marks cs) := by
  induction h with
  | last h =>
      rcases h with ⟨name, v, hv⟩
      exact ⟨[(name, v)], .lastMember hv⟩
  | next h _ ih =>
      rcases h with ⟨name, v, hv⟩
      rcases ih with ⟨fields, hFields⟩
      exact ⟨(name, v) :: fields, by simpa using IsWritten.nextMember hv hFields⟩

/- A value with blanks in front of it is an element. -/
theorem isElement_of_value
    {b used : List Char}
    {v : Datum}
    (hb : IsBlanks b)
    (h : IsWritten (.value v) (marks used)) :
    IsElement (b ++ used) :=
  ⟨v, by simpa using IsWritten.element hb h (List.forall_mem_nil _)⟩

theorem takes_readArray
    {reader : Reader α}
    (h : Takes reader IsElement) :
    Takes (readArray reader) IsElement := by
  have hParts : ∀ n, Takes (readParts ']'
      (fun acc => do return (← reader) :: acc) n true [])
      (IsClosed ']' (IsInside IsElement true)) :=
    fun n => takes_readParts (fun acc => h.bind_pure (· :: acc))
      (fun _ _ => isElement_blanks_append)
      (fun _ _ => isElement_append_blanks) n true []
  refine (takes_expect '[').bind
    (fun _ => takes_get_bind fun cs => (hParts _).bind_pure List.reverse) ?_
  rintro _ _ ⟨b, _, rfl, hb, rfl⟩ ⟨inside, rfl, hBlanks | hSequence⟩
  · simpa using isElement_of_value hb (.emptyArray hBlanks)
  · rcases IsSequence.exists_elements hSequence with ⟨vs, h⟩
    have hArray : IsWritten (.value (.array vs))
        (marks ('[' :: (inside ++ [']']))) := by
      simpa using IsWritten.array h .none
    simpa using isElement_of_value hb hArray

theorem takes_readFields
    {σ : Type}
    {field : String → σ → Reader σ}
    (h : ∀ name acc, Takes (field name acc) IsElement)
    (start : σ) :
    Takes (readFields field start) IsElement := by
  have hMember : ∀ acc, Takes (do
      let name ← readText
      expect ':'
      field name acc) IsMember := by
    intro acc
    refine takes_readText.bind (Q := fun cs => ∃ b used,
      cs = b ++ ':' :: used ∧ IsBlanks b ∧ IsElement used)
      (fun name => (takes_expect ':').bind (fun _ => h name acc) ?_) ?_
    · rintro _ used ⟨b, _, rfl, hb, rfl⟩ hUsed
      exact ⟨b, used, by simp, hb, hUsed⟩
    · rintro _ _ ⟨b, name, rfl, hb, units, hName⟩
        ⟨b', used, rfl, hb', v, hUsed⟩
      exact ⟨units, v, by simpa using IsWritten.member hb hName hb' hUsed⟩
  have hParts : ∀ n, Takes (readParts '\x7d'
      (fun acc => do
        let name ← readText
        expect ':'
        field name acc) n true start)
      (IsClosed '\x7d' (IsInside IsMember true)) :=
    fun n => takes_readParts hMember
      (fun _ _ => isMember_blanks_append)
      (fun _ _ => isMember_append_blanks) n true start
  refine (takes_expect '\x7b').bind
    (fun _ => takes_get_bind fun cs => hParts _) ?_
  rintro _ _ ⟨b, _, rfl, hb, rfl⟩ ⟨inside, rfl, hBlanks | hSequence⟩
  · simpa using isElement_of_value hb (.emptyObject hBlanks)
  · rcases IsSequence.exists_members hSequence with ⟨fields, h⟩
    have hObject : IsWritten (.value (.object fields))
        (marks ('\x7b' :: (inside ++ ['\x7d']))) := by
      simpa using IsWritten.object h .none
    simpa using isElement_of_value hb hObject

theorem takes_skipValue
    (n : Nat) :
    Takes (skipValue n) IsElement := by
  induction n with
  | zero => exact takes_fail _
  | succ n ih =>
      unfold skipValue
      refine takes_peek.bind (Q := IsElement) (fun o => ?_)
        fun _ _ => isElement_blanks_append
      split
      · refine (takes_readText.bind_pure fun _ => ()).mono ?_
        rintro _ ⟨b, used, rfl, hb, units, hUsed⟩
        exact isElement_of_value hb (.text hUsed)
      · exact (takes_readArray ih).bind_pure fun _ => ()
      · exact takes_readFields (fun _ _ => ih) ()
      · refine (takes_readWord "true").mono ?_
        rintro _ ⟨b, _, rfl, hb, rfl⟩
        exact isElement_of_value hb .yes
      · refine (takes_readWord "false").mono ?_
        rintro _ ⟨b, _, rfl, hb, rfl⟩
        exact isElement_of_value hb .no
      · refine (takes_readWord "null").mono ?_
        rintro _ ⟨b, _, rfl, hb, rfl⟩
        exact isElement_of_value hb .null
      · intro cs a rest hRun
        rw [StateT.run_bind, StateT.run_get, pure_bind] at hRun
        split at hRun
        · next hNumeral =>
            cases hRun
            rcases exists_isNumeral_of_numeral? hNumeral with ⟨q, used, rfl, hIs⟩
            exact ⟨used, rfl, isElement_of_value (List.forall_mem_nil _) (.number hIs)⟩
        · cases hRun

theorem takes_skipAny :
    Takes skipAny IsElement :=
  takes_get_bind fun _ => takes_skipValue _

/- What the reader takes for a value is a text of some value. -/
theorem exists_isText_of_readWhole
    {text : String}
    (h : readWhole skipAny text = .ok ()) :
    ∃ v, IsText v (marks text.toList) := by
  rcases bind_eq_ok_iff.mp h with ⟨⟨_, rest⟩, hRun, hEnd⟩
  rcases takes_skipAny _ _ _ hRun with ⟨used, hText, hUsed⟩
  rw [hText]
  dsimp only at hEnd
  split at hEnd
  · next hBlanks =>
      exact isElement_append_blanks (by simpa [IsBlanks] using hBlanks) hUsed
  · cases hEnd

end Retarget.Json
