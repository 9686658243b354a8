import Retarget.Text.Offset
import Retarget.Text.Word
import Retarget.Proofs.Text.Case
import Retarget.Proofs.Text.Search

/-
  This file shows what does not change when the ASCII letters
  of a text become small: most classes of characters do not
  tell the two cases of a letter apart, and a text is cut in
  the same places before and after.

  Key definitions include:
    * `Text.fold`

  Key statements include:
    * `Text.apply_lowerAsciiChar`
    * `Text.takeWhile_fold`
    * `Text.splitOn_fold`
    * `Text.lower_lowerAscii`
-/

namespace Retarget.Text

------------------------------------------------------------
-- Characters
------------------------------------------------------------

@[simp]
theorem lowerAsciiChar_idem
    (c : Char) :
    lowerAsciiChar (lowerAsciiChar c) = lowerAsciiChar c := by
  rw [lowerAsciiChar, isAsciiUpper_lowerAsciiChar, if_neg Bool.false_ne_true]

/- What does not count case is the same for the small letter. -/
theorem apply_lowerAsciiChar
    {α : Type}
    {f : Char → α}
    (hCapitals : ∀ n < 26, f (Char.ofNat (65 + n)) = f (Char.ofNat (97 + n)))
    (c : Char) :
    f (lowerAsciiChar c) = f c :=
  eq_of_lowerAsciiChar_eq hCapitals (lowerAsciiChar_idem c)

@[simp]
theorem utf8Size_lowerAsciiChar
    (c : Char) :
    (lowerAsciiChar c).utf8Size = c.utf8Size :=
  apply_lowerAsciiChar (f := Char.utf8Size) (by decide) c

@[simp]
theorem isBlank_lowerAsciiChar
    (c : Char) :
    isBlank (lowerAsciiChar c) = isBlank c :=
  apply_lowerAsciiChar (by decide) c

@[simp]
theorem isAsciiBlank_lowerAsciiChar
    (c : Char) :
    isAsciiBlank (lowerAsciiChar c) = isAsciiBlank c :=
  apply_lowerAsciiChar (by decide) c

@[simp]
theorem isWordChar_lowerAsciiChar
    (c : Char) :
    isWordChar (lowerAsciiChar c) = isWordChar c :=
  apply_lowerAsciiChar (by decide) c

/- A character that is no letter stands for itself only. -/
theorem beq_lowerAsciiChar
    {x : Char}
    (hx : isAsciiLetter x = false)
    (c : Char) :
    (lowerAsciiChar c == x) = (c == x) := by
  refine apply_lowerAsciiChar (f := (· == x)) (fun n hn => ?_) c
  have hLetters : ∀ n < 26,
      isAsciiLetter (Char.ofNat (65 + n)) = true ∧
        isAsciiLetter (Char.ofNat (97 + n)) = true := by
    decide
  rcases hLetters n hn with ⟨hCapital, hSmall⟩
  have hApart : ∀ d : Char, isAsciiLetter d = true → (d == x) = false := by
    intro d hd
    rw [beq_eq_false_iff_ne]
    rintro rfl
    rw [hd] at hx
    cases hx
  rw [hApart _ hCapital, hApart _ hSmall]

------------------------------------------------------------
-- Lists of characters
------------------------------------------------------------

/- The characters with small letters only. -/
def fold (cs : List Char) : List Char :=
  cs.map lowerAsciiChar

variable {p : Char → Bool}
variable {cs : List Char}

@[simp]
theorem fold_nil :
    fold [] = [] :=
  rfl

@[simp]
theorem fold_cons
    (c : Char)
    (cs : List Char) :
    fold (c :: cs) = lowerAsciiChar c :: fold cs :=
  rfl

@[simp]
theorem fold_append
    (a b : List Char) :
    fold (a ++ b) = fold a ++ fold b :=
  List.map_append

@[simp]
theorem fold_fold
    (cs : List Char) :
    fold (fold cs) = fold cs := by
  simp [fold]

@[simp]
theorem length_fold
    (cs : List Char) :
    (fold cs).length = cs.length :=
  List.length_map _

@[simp]
theorem reverse_fold
    (cs : List Char) :
    (fold cs).reverse = fold cs.reverse := by
  rw [fold, fold, List.map_reverse]

@[simp]
theorem take_fold
    (n : Nat)
    (cs : List Char) :
    (fold cs).take n = fold (cs.take n) := by
  rw [fold, fold, List.map_take]

@[simp]
theorem drop_fold
    (n : Nat)
    (cs : List Char) :
    (fold cs).drop n = fold (cs.drop n) := by
  rw [fold, fold, List.map_drop]

theorem any_head?_fold
    (hp : ∀ c, p (lowerAsciiChar c) = p c)
    (cs : List Char) :
    (fold cs).head?.any p = cs.head?.any p := by
  cases cs with
  | nil => rfl
  | cons c r => exact hp c

theorem beq_head?_fold
    {x : Char}
    (hx : isAsciiLetter x = false)
    (cs : List Char) :
    ((fold cs).head? == some x) = (cs.head? == some x) := by
  cases cs with
  | nil => rfl
  | cons c r => exact beq_lowerAsciiChar hx c

@[simp]
theorem byteLength_fold
    (cs : List Char) :
    byteLength (fold cs) = byteLength cs := by
  induction cs with
  | nil => rfl
  | cons c r ih => simp [byteLength, ih]

theorem takeWhile_fold
    (hp : ∀ c, p (lowerAsciiChar c) = p c)
    (cs : List Char) :
    (fold cs).takeWhile p = fold (cs.takeWhile p) := by
  rw [fold, List.takeWhile_map, fold]
  congr 2
  funext c
  exact hp c

theorem dropWhile_fold
    (hp : ∀ c, p (lowerAsciiChar c) = p c)
    (cs : List Char) :
    (fold cs).dropWhile p = fold (cs.dropWhile p) := by
  rw [fold, List.dropWhile_map, fold]
  congr 2
  funext c
  exact hp c

theorem all_fold
    (hp : ∀ c, p (lowerAsciiChar c) = p c)
    (cs : List Char) :
    (fold cs).all p = cs.all p := by
  rw [fold, List.all_map]
  congr 1
  funext c
  exact hp c

theorem contains_fold
    {x : Char}
    (hx : isAsciiLetter x = false)
    (cs : List Char) :
    (fold cs).contains x = cs.contains x := by
  induction cs with
  | nil => rfl
  | cons c r ih =>
      rw [fold_cons, List.contains_cons, List.contains_cons, ih,
        Bool.beq_comm, beq_lowerAsciiChar hx, Bool.beq_comm]

theorem mem_fold
    {x : Char}
    (hx : isAsciiLetter x = false) :
    x ∈ fold cs ↔ x ∈ cs := by
  rw [← List.contains_iff_mem, contains_fold hx, List.contains_iff_mem]

@[simp]
theorem trimChars_fold
    (cs : List Char) :
    trimChars (fold cs) = fold (trimChars cs) := by
  rw [trimChars, dropEndWhile, trimChars, dropEndWhile,
    dropWhile_fold isBlank_lowerAsciiChar, reverse_fold,
    dropWhile_fold isBlank_lowerAsciiChar, reverse_fold]

/- A text is cut at the same places after it has become small. -/
theorem splitOn_fold
    {x : Char}
    (hx : isAsciiLetter x = false)
    (cs : List Char) :
    (fold cs).splitOn x = (cs.splitOn x).map fold := by
  induction cs with
  | nil => rfl
  | cons c r ih =>
      rw [List.splitOn, List.splitOn] at ih ⊢
      rw [fold_cons, List.splitOnP_cons_eq_if_modifyHead,
        List.splitOnP_cons_eq_if_modifyHead, ih, beq_lowerAsciiChar hx]
      split
      · rfl
      · cases List.splitOnP (· == x) r <;> rfl

/- No character is a letter. -/
def isLetterless (cs : List Char) : Bool :=
  cs.all fun c => !isAsciiLetter c

theorem isLetterless_cons
    {c : Char} :
    isLetterless (c :: cs) = true ↔
      isAsciiLetter c = false ∧ isLetterless cs = true := by
  rw [isLetterless, List.all_cons, Bool.and_eq_true, Bool.not_eq_true']
  rfl

theorem fold_eq_self
    (h : isLetterless cs = true) :
    fold cs = cs := by
  refine (List.map_congr_left fun c hc => ?_).trans (List.map_id cs)
  have hOther := List.all_eq_true.mp h c hc
  rw [Bool.not_eq_true', isAsciiLetter, Bool.or_eq_false_iff] at hOther
  rw [lowerAsciiChar, hOther.2, if_neg Bool.false_ne_true, id]

/- What has no letters is spelled in one way only. -/
theorem beq_fold
    {sub : List Char}
    (hSub : isLetterless sub = true)
    (cs : List Char) :
    (fold cs == sub) = (cs == sub) := by
  induction sub generalizing cs with
  | nil => cases cs <;> rfl
  | cons x sub ih =>
      rcases isLetterless_cons.mp hSub with ⟨hx, hRest⟩
      cases cs with
      | nil => rfl
      | cons c r =>
          rw [fold_cons, List.cons_beq_cons, List.cons_beq_cons,
            beq_lowerAsciiChar hx, ih hRest]

/- What has no letters is found at the same places. -/
theorem isPrefixOf?_fold
    {sub : List Char}
    (hSub : isLetterless sub = true)
    (cs : List Char) :
    sub.isPrefixOf? (fold cs) = (sub.isPrefixOf? cs).map fold := by
  induction sub generalizing cs with
  | nil => rfl
  | cons x sub ih =>
      rcases isLetterless_cons.mp hSub with ⟨hx, hRest⟩
      cases cs with
      | nil => rfl
      | cons c r =>
          have hSame : (x == lowerAsciiChar c) = (x == c) := by
            rw [Bool.beq_comm, beq_lowerAsciiChar hx, Bool.beq_comm]
          rw [fold_cons, List.isPrefixOf?, List.isPrefixOf?, hSame]
          split
          · exact ih hRest r
          · rfl

theorem findSub_fold
    {sub : List Char}
    (hSub : isLetterless sub = true)
    (cs : List Char) :
    findSub sub (fold cs) = (findSub sub cs).map (Prod.map fold fold) := by
  induction cs with
  | nil =>
      rw [fold_nil, findSub]
      split <;> rfl
  | cons c r ih =>
      have hHere := isPrefixOf?_fold hSub (c :: r)
      rw [fold_cons] at hHere
      rw [fold_cons, findSub, findSub, hHere, ih]
      cases sub.isPrefixOf? (c :: r) with
      | some rest => rfl
      | none => cases findSub sub r <;> rfl

theorem cutWhere?_fold
    (hp : ∀ c, p (lowerAsciiChar c) = p c)
    (cs : List Char) :
    cutWhere? p (fold cs) = (cutWhere? p cs).map (Prod.map fold fold) := by
  induction cs with
  | nil => rfl
  | cons c r ih =>
      rw [fold_cons, cutWhere?, cutWhere?, hp, ih]
      split
      · rfl
      · cases cutWhere? p r <;> rfl

theorem cutAt?_fold
    (n : Nat)
    (cs : List Char) :
    cutAt? n (fold cs) = (cutAt? n cs).map (Prod.map fold fold) := by
  induction cs generalizing n with
  | nil => cases n <;> rfl
  | cons c r ih =>
      cases n with
      | zero => rfl
      | succ n =>
          rw [fold_cons, cutAt?, cutAt?, utf8Size_lowerAsciiChar, ih]
          split
          · cases cutAt? (n + 1 - c.utf8Size) r <;> rfl
          · rfl

theorem countedFrom_fold
    (n : Nat)
    (cs : List Char) :
    countedFrom n (fold cs) =
      (countedFrom n cs).map (Prod.map id lowerAsciiChar) := by
  induction cs generalizing n with
  | nil => rfl
  | cons c r ih =>
      rw [fold_cons, countedFrom, countedFrom, utf8Size_lowerAsciiChar, ih]
      rfl

------------------------------------------------------------
-- Texts
------------------------------------------------------------

@[simp]
theorem toList_lowerAscii
    (s : String) :
    (lowerAscii s).toList = fold s.toList := by
  rw [lowerAscii, String.toList_ofList, fold]

@[simp]
theorem lowerAscii_ofList
    (cs : List Char) :
    lowerAscii (String.ofList cs) = String.ofList (fold cs) := by
  rw [lowerAscii, String.toList_ofList, fold]

@[simp]
theorem lowerAscii_idem
    (s : String) :
    lowerAscii (lowerAscii s) = lowerAscii s := by
  rw [lowerAscii, toList_lowerAscii, ← fold, fold_fold]
  rfl

theorem lowerAscii_append
    (s t : String) :
    lowerAscii (s ++ t) = lowerAscii s ++ lowerAscii t := by
  apply String.toList_inj.mp
  simp

/- A dotted name becomes small on both sides of the dot. -/
theorem lowerAscii_dotted
    (s t : String) :
    lowerAscii (s ++ "." ++ t) = lowerAscii s ++ "." ++ lowerAscii t := by
  rw [lowerAscii_append, lowerAscii_append]
  rfl

theorem lowerAscii_join
    (parts : List String) :
    join "." (parts.map lowerAscii) = lowerAscii (join "." parts) := by
  induction parts with
  | nil => rfl
  | cons first rest ih =>
      cases rest with
      | nil => simp [join]
      | cons second rest =>
          have hFirst : ∀ s t : String, ∀ more : List String,
              join "." (s :: t :: more) = s ++ "." ++ join "." (t :: more) :=
            fun _ _ _ => String.intercalate_cons_cons
          rw [List.map_cons, List.map_cons] at *
          rw [hFirst, ih, hFirst, lowerAscii_dotted]

@[simp]
theorem isEmpty_lowerAscii
    (s : String) :
    (lowerAscii s).isEmpty = s.isEmpty := by
  rw [Bool.eq_iff_iff, String.isEmpty_iff, String.isEmpty_iff,
    ← String.toList_inj, toList_lowerAscii, ← String.toList_inj]
  simp [fold]

theorem splitAt_lowerAscii
    {x : Char}
    (hx : isAsciiLetter x = false)
    (s : String) :
    splitAt x (lowerAscii s) = (splitAt x s).map lowerAscii := by
  rw [splitAt, toList_lowerAscii, splitOn_fold hx, List.map_map, splitAt,
    List.map_map]
  exact List.map_congr_left fun cs _ => (lowerAscii_ofList cs).symm

theorem lowerAscii_eq_iff
    {s t : String} :
    lowerAscii s = lowerAscii t ↔ equalsIgnoringAsciiCase s t = true := by
  rw [equalsIgnoringAsciiCase_iff, ← String.toList_inj, toList_lowerAscii,
    toList_lowerAscii]
  rfl

theorem equalsIgnoringAsciiCase_lowerAscii
    (s t : String) :
    equalsIgnoringAsciiCase (lowerAscii s) t =
      equalsIgnoringAsciiCase s t := by
  rw [equalsIgnoringAsciiCase, toList_lowerAscii, ← fold, fold_fold]
  rfl

theorem contains_lowerAscii
    {sub : String}
    (hSub : isLetterless sub.toList = true)
    (s : String) :
    contains sub (lowerAscii s) = contains sub s := by
  rw [contains, toList_lowerAscii, findSub_fold hSub, Option.isSome_map]
  rfl

theorem hasEnd_lowerAscii
    {ending : String}
    (hEnding : isLetterless ending.toList = true)
    (s : String) :
    hasEnd ending (lowerAscii s) = hasEnd ending s := by
  rw [hasEnd_eq_isSome, hasEnd_eq_isSome, stripEnd?, toList_lowerAscii,
    reverse_fold, isPrefixOf?_fold (by rwa [isLetterless, List.all_reverse]), stripEnd?]
  simp

theorem lower_lowerAscii
    (s : String) :
    lower (lowerAscii s) = lower s :=
  lower_congr (lowerAscii_eq_iff.mp (lowerAscii_idem s))

end Retarget.Text
