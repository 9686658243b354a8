import Retarget.Proofs.Dictionary
import Retarget.Proofs.Package.Reading
import Retarget.Proofs.Text.Case

/-
  This file compares the order of versions with the
  precedence of semantic versions, in which identifiers of
  digits are numbers of any size.  The order takes a number
  with more than 64 bits for a text, and that is where the
  two can part.

  Key definitions include:
    * `PackageVersion.numeral?`
    * `PackageVersion.identifierPrecedence`
    * `PackageVersion.precedence`
    * `PackageVersion.overflows`
    * `PackageVersion.parting?`

  Key statements include:
    * `PackageVersion.IsIdentifier.read64?_cases`
    * `PackageVersion.identifierOrder_eq_ite`
    * `PackageVersion.compareLex_identifiers`
    * `PackageVersion.order_eq_precedence`
-/

namespace Retarget.PackageVersion

variable {v w : PackageVersion}
variable {a b s t : String}
variable {as bs : List String}

------------------------------------------------------------
-- Precedence
------------------------------------------------------------

/- The number that an identifier of digits stands for. -/
def numeral? (s : String) : Option Nat :=
  if s.toList.all Text.isAsciiDigit then
    some (Nat.ofDigitChars 10 s.toList 0)
  else none

/-
  Numbers come before other identifiers, which are compared
  by their lower-case forms.
-/
def identifierPrecedence (a b : String) : Ordering :=
  match numeral? a, numeral? b with
  | some m, some n => compare m n
  | some _, none => .lt
  | none, some _ => .gt
  | none, none => Text.order (Text.lower a) (Text.lower b)

/- From left to right; what another label starts with comes first. -/
def identifiersPrecedence : List String → List String → Ordering
  | [], [] => .eq
  | [], _ :: _ => .lt
  | _ :: _, [] => .gt
  | a :: as, b :: bs =>
    (identifierPrecedence a b).then (identifiersPrecedence as bs)

/- A version without a label comes after those with one. -/
def labelPrecedence : Option String → Option String → Ordering
  | none, none => .eq
  | none, some _ => .gt
  | some _, none => .lt
  | some a, some b =>
    identifiersPrecedence (Text.splitAt '.' a) (Text.splitAt '.' b)

/- The four numbers first, then the labels. -/
def precedence (v w : PackageVersion) : Ordering :=
  (compare v.major w.major).then <|
    (compare v.minor w.minor).then <|
      (compare v.patch w.patch).then <|
        (compare v.revision w.revision).then <|
          labelPrecedence v.label w.label

------------------------------------------------------------
-- Numbers with more than 64 bits
------------------------------------------------------------

def isShort (s : String) : Bool :=
  (numeral? s).any fun n => n < UInt64.size

def isLong (s : String) : Bool :=
  (numeral? s).any fun n => UInt64.size ≤ n

/-
  A number with more than 64 bits stands opposite an
  identifier that is no shorter number.
-/
def overflows (a b : String) : Bool :=
  (isLong a || isLong b) && !(isShort a || isShort b)

/- What a label consists of. -/
structure IsIdentifier (s : String) : Prop where
  ne_nil : s.toList ≠ []
  isLabelChar : ∀ c ∈ s.toList, isLabelChar c = true

theorem IsWritten.isIdentifier
    {label : String}
    (h : v.IsWritten)
    (hLabel : v.label = some label) :
    ∀ s ∈ Text.splitAt '.' label, IsIdentifier s := by
  have hLabelled := h.labelled
  rw [hLabel] at hLabelled
  intro s hs
  have hPart := List.all_eq_true.mp hLabelled s hs
  rw [Bool.and_eq_true, Bool.not_eq_true', Bool.eq_false_iff, ne_eq,
    String.isEmpty_iff] at hPart
  refine ⟨fun hNil => hPart.1 (String.toList_eq_nil_iff.mp hNil), ?_⟩
  exact List.all_eq_true.mp hPart.2

theorem toNat_lt_of_isLabelChar
    {c : Char}
    (h : isLabelChar c = true) :
    c.toNat < 0x80 := by
  rw [PackageVersion.isLabelChar, Text.isAsciiAlphanumeric, Text.isAsciiLetter,
    Bool.or_eq_true, Bool.or_eq_true, Bool.or_eq_true, Text.isAsciiLower_iff,
    Text.isAsciiUpper_iff, Numeral.isAsciiDigit_iff, beq_iff_eq] at h
  rcases h with ((hLower | hUpper) | hDigit) | rfl
  · omega
  · omega
  · omega
  · decide

theorem isAsciiDigit_of_lowerAsciiChar
    {c : Char}
    (h : Text.isAsciiDigit (Text.lowerAsciiChar c) = true) :
    Text.isAsciiDigit c = true := by
  rw [Text.lowerAsciiChar] at h
  split at h
  · next hUpper =>
      rw [Text.isAsciiUpper_iff] at hUpper
      rw [Numeral.isAsciiDigit_iff, Text.toNat_ofNat (by omega)] at h
      omega
  · exact h

/-
  An identifier is a number of 64 bits, and read as such, or a
  longer number, or no number.
-/
theorem IsIdentifier.read64?_cases
    (h : IsIdentifier s) :
    (∃ n, numeral? s = some n ∧ n < UInt64.size ∧
      Numeral.read64? s = some n) ∨
    (∃ n, numeral? s = some n ∧ UInt64.size ≤ n ∧
      Numeral.read64? s = none) ∨
    (numeral? s = none ∧ Numeral.read64? s = none) := by
  have hPlus : '+' ∉ s.toList := fun hMem =>
    absurd (h.isLabelChar '+' hMem) (by decide)
  have hRead := fun n =>
    Numeral.read64?_eq_some_iff (n := n) h.ne_nil hPlus
  by_cases hDigits : ∀ c ∈ s.toList, Text.isAsciiDigit c = true
  · have hNumeral : numeral? s = some (Nat.ofDigitChars 10 s.toList 0) :=
      if_pos (List.all_eq_true.mpr hDigits)
    rcases Nat.lt_or_ge (Nat.ofDigitChars 10 s.toList 0) UInt64.size with
      hShort | hLong
    · exact Or.inl ⟨_, hNumeral, hShort, (hRead _).mpr ⟨hDigits, rfl, hShort⟩⟩
    · refine Or.inr (Or.inl ⟨_, hNumeral, hLong, ?_⟩)
      refine Option.eq_none_iff_forall_ne_some.mpr fun n hn => ?_
      rcases (hRead n).mp hn with ⟨-, rfl, hShort⟩
      exact absurd hShort (Nat.not_lt.mpr hLong)
  · refine Or.inr (Or.inr ⟨if_neg (mt List.all_eq_true.mp hDigits), ?_⟩)
    exact Option.eq_none_iff_forall_ne_some.mpr fun n hn =>
      hDigits ((hRead n).mp hn).1

/- The order is the precedence, or for a long number that of texts. -/
theorem identifierOrder_eq_ite
    (ha : IsIdentifier a)
    (hb : IsIdentifier b) :
    identifierOrder a b =
      if overflows a b then Text.order (Text.lower a) (Text.lower b)
      else identifierPrecedence a b := by
  rw [identifierOrder, identifierPrecedence, overflows, isLong, isLong, isShort,
    isShort]
  rcases ha.read64?_cases with
    ⟨m, hm, hmSize, hmRead⟩ | ⟨m, hm, hmSize, hmRead⟩ | ⟨hm, hmRead⟩ <;>
  rcases hb.read64?_cases with
    ⟨n, hn, hnSize, hnRead⟩ | ⟨n, hn, hnSize, hnRead⟩ | ⟨hn, hnRead⟩ <;>
  rw [hm, hmRead, hn, hnRead]
  -- Of a number of 64 bits and a longer one, the longer one is greater.
  case inl.inr.inl =>
    have hLess : compare m n = .lt :=
      Nat.compare_eq_lt.mpr (Nat.lt_of_lt_of_le hmSize hnSize)
    simp [hmSize, hnSize, hLess]
  case inr.inl.inl =>
    have hGreater : compare m n = .gt :=
      Nat.compare_eq_gt.mpr (Nat.lt_of_lt_of_le hnSize hmSize)
    simp [hmSize, hnSize, hGreater]
  all_goals simp [*]

theorem numeral?_lower
    (h : IsIdentifier s) :
    numeral? (Text.lower s) = numeral? s := by
  have hAscii : ∀ c ∈ s.toList, c.toNat < 0x80 := fun c hc =>
    toNat_lt_of_isLabelChar (h.isLabelChar c hc)
  by_cases hDigits : ∀ c ∈ s.toList, Text.isAsciiDigit c = true
  · rw [Text.lower_eq_self_of_ascii hAscii fun c hc => ?_]
    have hDigit := Numeral.isAsciiDigit_iff.mp (hDigits c hc)
    rw [Bool.eq_false_iff, ne_eq, Text.isAsciiUpper_iff]
    omega
  · rw [numeral?, numeral?, if_neg (mt List.all_eq_true.mp hDigits), if_neg]
    intro hLower
    refine hDigits fun c hc => ?_
    rw [Text.lower, String.toList_ofList, Text.lowerChars_ascii hAscii,
      List.all_map, List.all_eq_true] at hLower
    exact isAsciiDigit_of_lowerAsciiChar (hLower c hc)

/- Identifiers that the order does not tell apart are of equal rank. -/
theorem identifierPrecedence_of_order_eq
    (ha : IsIdentifier a)
    (hb : IsIdentifier b)
    (h : identifierOrder a b = .eq) :
    identifierPrecedence a b = .eq := by
  rw [identifierOrder_eq_ite ha hb] at h
  split at h
  · have hSame := Dictionary.order_eq_iff.mp h
    have hNumber : numeral? a = numeral? b := by
      rw [← numeral?_lower ha, hSame, numeral?_lower hb]
    rw [identifierPrecedence, hNumber]
    cases numeral? b with
    | none => exact h
    | some n => exact Nat.compare_eq_eq.mpr rfl
  · exact h

------------------------------------------------------------
-- Where labels part
------------------------------------------------------------

/- The identifiers at the first place where the order tells two apart. -/
def firstApart? : List String → List String → Option (String × String)
  | a :: as, b :: bs =>
    if identifierOrder a b = .eq then firstApart? as bs else some (a, b)
  | _, _ => none

theorem then_of_ne_eq
    {first rest : Ordering}
    (h : first ≠ .eq) :
    first.then rest = first := by
  cases first with
  | eq => exact absurd rfl h
  | lt => rfl
  | gt => rfl

/-
  Identifiers are compared by precedence, unless a number
  overflows at the first place where they are told apart.
-/
theorem compareLex_identifiers
    (has : ∀ a ∈ as, IsIdentifier a)
    (hbs : ∀ b ∈ bs, IsIdentifier b) :
    ((∀ a b, firstApart? as bs = some (a, b) → overflows a b = false) →
      List.compareLex identifierOrder as bs = identifiersPrecedence as bs) ∧
    ∀ a b, firstApart? as bs = some (a, b) → overflows a b = true →
      List.compareLex identifierOrder as bs =
        Text.order (Text.lower a) (Text.lower b) := by
  induction as generalizing bs with
  | nil =>
      cases bs with
      | nil => exact ⟨fun _ => rfl, by simp [firstApart?]⟩
      | cons b bs => exact ⟨fun _ => rfl, by simp [firstApart?]⟩
  | cons a as ih =>
      cases bs with
      | nil => exact ⟨fun _ => rfl, by simp [firstApart?]⟩
      | cons b bs =>
          rcases List.forall_mem_cons.mp has with ⟨ha, hRest⟩
          rcases List.forall_mem_cons.mp hbs with ⟨hb, hOthers⟩
          have hOrder := identifierOrder_eq_ite ha hb
          rw [List.compareLex_cons_cons, firstApart?, identifiersPrecedence]
          by_cases hSame : identifierOrder a b = .eq
          · rw [if_pos hSame, hSame, identifierPrecedence_of_order_eq ha hb hSame]
            exact ih hRest hOthers
          · rw [if_neg hSame, then_of_ne_eq hSame]
            refine ⟨fun hFits => ?_, fun c d hPair hOverflows => ?_⟩
            · rw [hFits a b rfl, if_neg Bool.false_ne_true] at hOrder
              rw [← hOrder, then_of_ne_eq hSame]
            · cases hPair
              rw [hOrder, if_pos hOverflows]

------------------------------------------------------------
-- Versions
------------------------------------------------------------

/- The identifiers that decide about two versions of the same numbers. -/
def parting? (v w : PackageVersion) : Option (String × String) :=
  match v.label, w.label with
  | some a, some b =>
    if v.numbers = w.numbers then
      firstApart? (Text.splitAt '.' a) (Text.splitAt '.' b)
    else none
  | _, _ => none

theorem precedence_eq_then
    (v w : PackageVersion) :
    v.precedence w =
      (List.compareLex compare v.numbers w.numbers).then
        (labelPrecedence v.label w.label) := by
  simp only [precedence, numbers, List.compareLex_cons_cons,
    List.compareLex_nil_nil, Ordering.then_assoc, Ordering.eq_then]

/-
  Versions that were read are ordered by precedence, unless a
  number overflows where their labels part.  Then they are
  ordered by the texts of the two identifiers there.
-/
theorem order_eq_precedence
    (hv : parse? s = some v)
    (hw : parse? t = some w) :
    ((∀ a b, v.parting? w = some (a, b) → overflows a b = false) →
      v.order w = v.precedence w) ∧
    ∀ a b, v.parting? w = some (a, b) → overflows a b = true →
      v.order w = Text.order (Text.lower a) (Text.lower b) := by
  rw [precedence_eq_then, order, parting?]
  cases hLabel : v.label with
  | none => cases w.label <;> exact ⟨fun _ => rfl, by simp⟩
  | some label =>
      cases hOther : w.label with
      | none => exact ⟨fun _ => rfl, by simp⟩
      | some other =>
          dsimp only [labelsOrder, labelPrecedence]
          by_cases hNumbers : v.numbers = w.numbers
          · have hSame : List.compareLex compare w.numbers w.numbers = .eq :=
              Std.ReflCmp.compare_self
            rw [if_pos hNumbers, hNumbers, hSame]
            exact compareLex_identifiers
              ((IsWritten.of_parse? hv).isIdentifier hLabel)
              ((IsWritten.of_parse? hw).isIdentifier hOther)
          · have hApart : List.compareLex compare v.numbers w.numbers ≠ .eq :=
              fun hEq => hNumbers (Std.LawfulEqCmp.eq_of_compare hEq)
            rw [if_neg hNumbers, then_of_ne_eq hApart, then_of_ne_eq hApart]
            exact ⟨fun _ => rfl, by simp⟩

/- Two numbers with more than 64 bits, the longer one greater. -/
def longer : PackageVersion :=
  ⟨1, 0, 0, 0, some "rc.100000000000000000000"⟩

def shorter : PackageVersion :=
  ⟨1, 0, 0, 0, some "RC.99999999999999999999"⟩

theorem parse?_longer :
    parse? "1.0.0-rc.100000000000000000000" = some longer := by
  decide

theorem parse?_shorter :
    parse? "1.0-RC.99999999999999999999" = some shorter := by
  decide

def fifth : PackageVersion :=
  ⟨1, 0, 0, 0, some "rc.5"⟩

theorem order_eq_precedence_of_rc :
    parse? "1.0.0-rc.100000000000000000000" = some longer ∧
    parse? "1.0-RC.99999999999999999999" = some shorter ∧
    longer.parting? shorter =
      some ("100000000000000000000", "99999999999999999999") ∧
    overflows "100000000000000000000" "99999999999999999999" = true ∧
    longer.order shorter = .lt ∧
    parse? "1.0.0-rc.5" = some fifth ∧
    longer.parting? fifth = some ("100000000000000000000", "5") ∧
    longer.order fifth = longer.precedence fifth := by
  have hParting : longer.parting? shorter =
      some ("100000000000000000000", "99999999999999999999") := by
    decide
  have hOverflows :
      overflows "100000000000000000000" "99999999999999999999" = true := by
    decide
  have hFifth : parse? "1.0.0-rc.5" = some fifth := by
    decide
  have hFits : longer.parting? fifth = some ("100000000000000000000", "5") := by
    decide
  refine ⟨parse?_longer, parse?_shorter, hParting, hOverflows, ?_, hFifth, hFits,
    ?_⟩
  · rw [(order_eq_precedence parse?_longer parse?_shorter).2 _ _ hParting
      hOverflows]
    decide
  · refine (order_eq_precedence parse?_longer hFifth).1 fun a b h => ?_
    rw [hFits] at h
    cases h
    decide

/- By precedence the order is the other way round. -/
theorem order_ne_precedence :
    parse? "1.0.0-rc.100000000000000000000" = some longer ∧
    parse? "1.0-RC.99999999999999999999" = some shorter ∧
    longer.order shorter = .lt ∧ longer.precedence shorter = .gt :=
  ⟨parse?_longer, parse?_shorter, by decide, by decide⟩

end Retarget.PackageVersion
