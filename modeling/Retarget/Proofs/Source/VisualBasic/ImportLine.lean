import Mathlib.Data.List.TakeWhile
import Retarget.Source.VisualBasic.Parts
import Retarget.Proofs.Text.Fold

/-
  This file shows that a Visual Basic import is read again
  wherever it is a line of its own.  The scan starts afresh
  behind every newline, so nothing in front of the line or
  behind it can blank it.  Only the name itself can keep it
  from being read.

  Key definitions include:
    * `Text.HasLine`
    * `VisualBasic.IsNamespaceName`

  Key statements include:
    * `VisualBasic.exists_maskFrom_newline`
    * `VisualBasic.exists_mask_append`
    * `VisualBasic.mask_import`
    * `VisualBasic.importLine?_import`
    * `VisualBasic.mem_imports_iff`
    * `VisualBasic.mem_imports_of_hasLine`
    * `VisualBasic.isNamespaceName_iff`
-/

namespace Retarget

------------------------------------------------------------
-- Whole lines
------------------------------------------------------------

namespace Text

variable {text behind : List Char}
variable {line : String}

/-
  The line stands in the text, at its start or behind a
  newline, and a newline follows.
-/
def HasLine (text : List Char) (line : String) : Prop :=
  ∃ before behind, text = before ++ (line ++ "\n").toList ++ behind ∧
    EndsLine before

theorem HasLine.append
    (h : HasLine text line)
    (behind : List Char) :
    HasLine (text ++ behind) line := by
  rcases h with ⟨before, rest, rfl, hBefore⟩
  exact ⟨before, rest ++ behind, by simp, hBefore⟩

theorem EndsLine.eq_nil_or_concat
    (h : EndsLine text) :
    text = [] ∨ ∃ init, text = init ++ ['\n'] := by
  rcases List.eq_nil_or_concat text with hNone | ⟨init, c, hText⟩
  · exact Or.inl hNone
  · rw [List.concat_eq_append] at hText
    rw [hText] at h
    obtain rfl : c = '\n' := h c (by simp)
    exact Or.inr ⟨init, hText⟩

/- The lines in front of a newline and those behind it. -/
theorem mem_splitOn_of_endsLine
    {before line : List Char}
    (hBefore : EndsLine before)
    (hLine : '\n' ∉ line) :
    line ∈ (before ++ (line ++ '\n' :: behind)).splitOn '\n' := by
  have hFirst : line ∈ (line ++ '\n' :: behind).splitOn '\n' := by
    rw [List.splitOn_append_cons_self_of_not_mem hLine]
    exact List.mem_cons_self
  rcases hBefore.eq_nil_or_concat with rfl | ⟨init, rfl⟩
  · exact hFirst
  · rw [List.append_assoc, List.singleton_append,
      List.splitOn_append_cons_self]
    exact List.mem_append_right _ hFirst

end Text

namespace VisualBasic

open Text

variable {a b : List Char}

------------------------------------------------------------
-- Blanking line by line
------------------------------------------------------------

/- No newline is one of the letters of a remark. -/
theorem startsRemark_eq_false
    {cs : List Char}
    (hNewline : '\n' ∈ cs.take 3) :
    startsRemark cs = false := by
  unfold startsRemark
  split
  · next r e m c rest =>
      have hLetter : '\n' = r ∨ '\n' = e ∨ '\n' = m := by
        simpa using hNewline
      rcases hLetter with rfl | rfl | rfl
      · simp [lowerAsciiChar, isAsciiUpper]
      · simp [lowerAsciiChar, isAsciiUpper]
      · simp [lowerAsciiChar, isAsciiUpper]
  · rfl

theorem startsRemark_newline
    (cs rest : List Char) :
    startsRemark (cs ++ '\n' :: rest) = startsRemark (cs ++ ['\n']) := by
  match cs with
  | [] =>
      rw [startsRemark_eq_false (by simp), startsRemark_eq_false (by simp)]
  | [_] =>
      rw [startsRemark_eq_false (by simp), startsRemark_eq_false (by simp)]
  | [_, _] =>
      rw [startsRemark_eq_false (by simp), startsRemark_eq_false (by simp)]
  | [_, _, _] => rfl
  | _ :: _ :: _ :: _ :: _ => rfl

/- Nothing that starts in a line looks beyond its newline. -/
theorem maskStart_newline
    (fresh : Bool)
    (previous : Option Char)
    (c : Char)
    (cs rest : List Char) :
    maskStart fresh previous c (cs ++ '\n' :: rest) =
      maskStart fresh previous c (cs ++ ['\n']) := by
  have hRemark := startsRemark_newline (c :: cs) rest
  rw [List.cons_append, List.cons_append] at hRemark
  rw [maskStart, maskStart, hRemark]

/- At the start of a line it makes no difference what was passed. -/
theorem maskFrom_fresh
    (previous : Option Char)
    (cs : List Char) :
    maskFrom .code true previous cs = mask cs := by
  cases cs with
  | nil => rfl
  | cons c r => simp [mask, maskFrom, maskStart]

/-
  A text up to a newline is blanked without regard to what
  follows, and what follows is blanked on its own.
-/
theorem exists_maskFrom_newline
    (mode : MaskMode)
    (fresh : Bool)
    (previous : Option Char)
    (cs : List Char) :
    ∃ masked, ∀ rest,
      maskFrom mode fresh previous (cs ++ '\n' :: rest) =
        masked ++ '\n' :: mask rest := by
  induction cs generalizing mode fresh previous with
  | nil => exact ⟨[], fun rest => by simp [maskFrom, maskFrom_fresh]⟩
  | cons c r ih =>
      have hNext : ∀ rest,
          (r ++ '\n' :: rest).head? = (r ++ ['\n']).head? := by
        cases r with
        | nil => exact fun _ => rfl
        | cons d more => exact fun _ => rfl
      have hThen : ∀ (mode : MaskMode) (fresh : Bool) (piece : List Char),
          ∃ masked, ∀ rest,
            piece ++ maskFrom mode fresh (some c) (r ++ '\n' :: rest) =
              masked ++ '\n' :: mask rest := by
        intro mode fresh piece
        rcases ih mode fresh (some c) with ⟨masked, hMasked⟩
        exact ⟨piece ++ masked, fun rest => by
          rw [hMasked, List.append_assoc]⟩
      simp only [List.cons_append, maskFrom, hNext,
        maskStart_newline fresh previous c r]
      split
      · exact hThen .code true [c]
      · cases mode with
        | comment => exact hThen .comment false (blanks c)
        | doubled => exact hThen .literal false (blanks c)
        | literal =>
            dsimp only
            split
            · split
              · exact hThen .doubled false (blanks c)
              · exact hThen .code false (blanks c)
            · exact hThen .literal false (blanks c)
        | code =>
            dsimp only
            split
            · exact hThen .code true [c]
            · split
              · exact hThen .literal false (blanks c)
              · exact hThen .comment false (blanks c)
              · exact hThen .code false [c]

/- Whole lines are blanked apart from what follows them. -/
theorem exists_mask_append
    (hLine : EndsLine a) :
    ∃ masked, EndsLine masked ∧ ∀ rest, mask (a ++ rest) = masked ++ mask rest := by
  rcases hLine.eq_nil_or_concat with rfl | ⟨init, rfl⟩
  · exact ⟨[], hLine, fun _ => rfl⟩
  · rcases exists_maskFrom_newline .code true none init with ⟨masked, hMasked⟩
    refine ⟨masked ++ ['\n'], by simp [EndsLine], fun rest => ?_⟩
    rw [List.append_assoc, List.append_assoc]
    exact hMasked rest

------------------------------------------------------------
-- The line of an import
------------------------------------------------------------

/- The characters of dotted names. -/
def isDottedChar (c : Char) : Bool :=
  isWordChar c || c == '.'

/-
  The scan reads this name of a namespace: it starts with a
  letter or an underscore, goes on with the characters of
  words and with dots, and does not spell a remark.
-/
structure IsNamespaceName (target : String) : Prop where
  startsName : ∃ c ∈ target.toList.head?, startsName c = true
  isDotted : ∀ c ∈ target.toList, isDottedChar c = true
  not_remark : lowerAscii target ≠ "rem"

theorem beq_eq_false_of_isDottedChar
    {c : Char}
    (hc : isDottedChar c = true)
    (d : Char)
    (hd : isDottedChar d = false) :
    (c == d) = false := by
  rw [beq_eq_false_iff_ne]
  rintro rfl
  rw [hc] at hd
  cases hd

theorem isAsciiBlank_of_isDottedChar
    {c : Char}
    (hc : isDottedChar c = true) :
    isAsciiBlank c = false := by
  have hOther := beq_eq_false_of_isDottedChar hc
  rw [isAsciiBlank, hOther ' ' (by decide), hOther '\t' (by decide),
    hOther '\n' (by decide), hOther '\r' (by decide),
    hOther '\x0c' (by decide)]
  rfl

/-
  A dotted name is kept, unless a remark may start in front
  of it and it spells one.  Behind its first character no
  remark may start.
-/
theorem maskFrom_dotted
    {previous : Option Char}
    {cs : List Char}
    (hChars : ∀ c ∈ cs, isDottedChar c = true)
    (hRemark : ((previous.any fun p => isAsciiBlank p || p == ':') &&
      startsRemark (cs ++ '\n' :: b)) = false) :
    maskFrom .code false previous (cs ++ '\n' :: b) = cs ++ '\n' :: mask b := by
  induction cs generalizing previous with
  | nil => simp [maskFrom, maskFrom_fresh]
  | cons c r ih =>
      rcases List.forall_mem_cons.mp hChars with ⟨hFirst, hRest⟩
      have hOther := beq_eq_false_of_isDottedChar hFirst
      have hStart :
          maskStart false previous c (r ++ '\n' :: b) = .nothing := by
        rw [List.cons_append] at hRemark
        simp [maskStart, hOther '"' (by decide), hOther '\'' (by decide),
          Bool.false_or, hRemark]
      have hBehind : ((some c).any fun p => isAsciiBlank p || p == ':') =
          false := by
        simp [isAsciiBlank_of_isDottedChar hFirst, hOther ':' (by decide)]
      have hMore : maskFrom .code false (some c) (r ++ '\n' :: b) =
          r ++ '\n' :: mask b :=
        ih hRest (by rw [hBehind]; rfl)
      simp [maskFrom, hStart, hOther '\n' (by decide), hMore]

/- Only the word itself spells a remark in front of a newline. -/
theorem IsNamespaceName.startsRemark_eq_false
    {target : String}
    (h : IsNamespaceName target)
    (rest : List Char) :
    startsRemark (target.toList ++ '\n' :: rest) = false := by
  have hChars := h.isDotted
  have hWord : target.toList.map lowerAsciiChar ≠ "rem".toList := by
    intro hSame
    refine h.not_remark (String.toList_inj.mp ?_)
    rwa [lowerAscii, String.toList_ofList]
  rcases hText : target.toList with _ | ⟨r, _ | ⟨e, _ | ⟨m, _ | ⟨c, more⟩⟩⟩⟩
  · exact VisualBasic.startsRemark_eq_false (by simp)
  · exact VisualBasic.startsRemark_eq_false (by simp)
  · exact VisualBasic.startsRemark_eq_false (by simp)
  -- A word of three letters is followed by the newline.
  · rw [hText] at hWord
    have hOther : ([r, e, m].map lowerAsciiChar == ['r', 'e', 'm']) = false :=
      beq_eq_false_iff_ne.mpr hWord
    change ([r, e, m].map lowerAsciiChar == ['r', 'e', 'm'] && _) = false
    rw [hOther, Bool.false_and]
  · have hBlank : isAsciiBlank c = false :=
      isAsciiBlank_of_isDottedChar (hChars c (by simp [hText]))
    simp only [List.cons_append, startsRemark, hBlank, Bool.and_false]

/- The keyword is kept, and a remark may start behind it. -/
theorem mask_keyword
    (cs : List Char) :
    mask ("Imports ".toList ++ cs) =
      "Imports ".toList ++ maskFrom .code false (some ' ') cs := by
  simp [mask, maskFrom, maskStart, startsRemark, lowerAsciiChar, isAsciiUpper,
    isAsciiBlank]

/- The line of an import is kept as it is. -/
theorem mask_import
    {target : String}
    (h : IsNamespaceName target)
    (rest : List Char) :
    mask (("Imports " ++ target ++ "\n").toList ++ rest) =
      ("Imports " ++ target).toList ++ '\n' :: mask rest := by
  have hName : maskFrom .code false (some ' ') (target.toList ++ '\n' :: rest) =
      target.toList ++ '\n' :: mask rest :=
    maskFrom_dotted h.isDotted (by
      rw [h.startsRemark_eq_false rest, Bool.and_false])
  have hText : ("Imports " ++ target ++ "\n").toList ++ rest =
      "Imports ".toList ++ (target.toList ++ '\n' :: rest) := by
    simp
  rw [hText, mask_keyword, hName, String.toList_append, List.append_assoc]

/- A word that spells a remark is blanked. -/
theorem exists_mask_remark
    {target : String}
    (hRemark : lowerAscii target = "rem")
    (hChars : ∀ c ∈ target.toList, isDottedChar c = true) :
    ∃ masked, (∀ c ∈ masked, c = ' ') ∧
      mask ("Imports " ++ target ++ "\n").toList =
        "Imports ".toList ++ masked ++ ['\n'] := by
  have hWord : target.toList.map lowerAsciiChar = ['r', 'e', 'm'] :=
    (toList_lowerAscii target).symm.trans (congrArg String.toList hRemark)
  have hThree : target.toList.length = 3 := by
    simpa using congrArg List.length hWord
  rcases List.length_eq_three.mp hThree with ⟨r, e, m, hText⟩
  rw [hText] at hWord hChars
  simp only [List.forall_mem_cons] at hChars
  have hr := beq_eq_false_of_isDottedChar hChars.1
  have he := beq_eq_false_of_isDottedChar hChars.2.1
  have hm := beq_eq_false_of_isDottedChar hChars.2.2.1
  have hStarts : startsRemark [r, e, m, '\n'] = true := by
    simp only [startsRemark, hWord]
    decide
  have hStart : maskStart false (some ' ') r [e, m, '\n'] = .comment := by
    simp [maskStart, hr '"' (by decide), hStarts, isAsciiBlank]
  refine ⟨blanks r ++ blanks e ++ blanks m, ?_, ?_⟩
  · intro c hc
    simp only [List.mem_append] at hc
    rcases hc with (hc | hc) | hc
    · exact List.eq_of_mem_replicate hc
    · exact List.eq_of_mem_replicate hc
    · exact List.eq_of_mem_replicate hc
  · have hLine : ("Imports " ++ target ++ "\n").toList =
        "Imports ".toList ++ [r, e, m, '\n'] := by
      simp [hText]
    rw [hLine, mask_keyword]
    simp [maskFrom, hr '\n' (by decide), he '\n' (by decide),
      hm '\n' (by decide), hStart]

theorem takeName?_eq_some
    {p : Char → Bool}
    {c : Char}
    (hStarts : startsName c = true)
    (r : List Char) :
    takeName? p (c :: r) = some (c :: r.takeWhile p, r.dropWhile p) :=
  if_pos hStarts

/- A dotted name with nothing behind it is no alias. -/
theorem aliasTarget?_eq_none
    {c : Char}
    {r : List Char}
    (hStarts : startsName c = true)
    (hChars : ∀ d ∈ r, isDottedChar d = true) :
    aliasTarget? (c :: r) = none := by
  have hRest : ∀ d ∈ (r.dropWhile isWordChar).head?, d = '.' := by
    intro d hd
    have hNot := List.head?_dropWhile_not isWordChar r
    rw [Option.mem_def.mp hd] at hNot
    have hDotted := hChars d
      ((List.dropWhile_sublist _).subset (List.mem_of_mem_head? hd))
    simpa [isDottedChar, hNot] using hDotted
  rw [aliasTarget?, takeName?_eq_some hStarts]
  cases hBehind : r.dropWhile isWordChar with
  | nil => simp
  | cons d more =>
      rw [hBehind] at hRest
      obtain rfl := hRest d rfl
      have hDot : isIndent '.' = false := by decide
      simp [hDot]

/- The line of an import imports the namespace. -/
theorem importLine?_import
    {target : String}
    (h : IsNamespaceName target) :
    importLine? ("Imports " ++ target).toList = some (some target) := by
  rcases h.startsName with ⟨c, hHead, hStarts⟩
  rcases List.head?_eq_some_iff.mp hHead with ⟨r, hText⟩
  have hChars : ∀ d ∈ r, isDottedChar d = true := fun d hd =>
    h.isDotted d (by rw [hText]; exact List.mem_cons_of_mem c hd)
  have hIndent : isIndent c = false := by
    have hOther :=
      beq_eq_false_of_isDottedChar (h.isDotted c (by simp [hText]))
    rw [isIndent, hOther ' ' (by decide), hOther '\t' (by decide)]
    rfl
  have hKeyword : takeKeyword? "imports".toList
      (("Imports " ++ target).toList.dropWhile isIndent) =
        some (' ' :: c :: r) := by
    rw [String.toList_append, hText]
    rfl
  have hBlank : takeIndent? (' ' :: c :: r) = some (c :: r) := by
    have hSpace : isIndent ' ' = true := by decide
    rw [takeIndent?, if_pos hSpace, List.dropWhile_cons_of_neg (by simp [hIndent])]
  have hDotted : takeDotted? (c :: r) = some (c :: r, []) := by
    have hTake : r.takeWhile isDottedChar = r :=
      List.takeWhile_eq_self_iff.mpr hChars
    have hDrop : r.dropWhile isDottedChar = [] :=
      List.dropWhile_eq_nil_iff.mpr hChars
    change takeName? isDottedChar (c :: r) = _
    rw [takeName?_eq_some hStarts, hTake, hDrop]
  simp only [importLine?, hKeyword, Option.bind_eq_bind, Option.bind_some,
    hBlank, hDotted, aliasTarget?_eq_none hStarts hChars]
  rw [← hText, String.ofList_toList]
  rfl

/- A line with blanks behind the keyword imports nothing. -/
theorem importLine?_blanks
    {cs : List Char}
    (hBlanks : ∀ c ∈ cs, isIndent c = true) :
    importLine? ("Imports ".toList ++ cs) = none := by
  have hKeyword : takeKeyword? "imports".toList
      (("Imports ".toList ++ cs).dropWhile isIndent) = some (' ' :: cs) :=
    rfl
  have hRest : takeIndent? (' ' :: cs) = some [] := by
    have hSpace : isIndent ' ' = true := by decide
    rw [takeIndent?, if_pos hSpace, List.dropWhile_eq_nil_iff.mpr hBlanks]
  simp only [importLine?, hKeyword, Option.bind_eq_bind, Option.bind_some,
    hRest]
  rfl

theorem isWordChar_of_isAsciiLower
    {c : Char}
    (h : isAsciiLower c = true) :
    isWordChar c = true := by
  have hLower : c.isLower = true := h
  have hLetter : c.isAlpha = true := Bool.or_inr hLower
  have hAscii : c.toNat < 0x80 := by
    rw [isAsciiLower_iff] at h
    omega
  exact isWordChar_of_isAlphanum c hAscii (Bool.or_inl hLetter)

theorem isDottedChar_of_startsName
    {c : Char}
    (h : startsName c = true) :
    isDottedChar c = true := by
  rw [startsName, Bool.or_eq_true, beq_iff_eq] at h
  rcases h with hLetter | rfl
  · unfold foldLetter at hLetter
    split at hLetter
    · next hKelvin =>
        obtain rfl : c = '\u212a' := Char.toNat_inj.mp (eq_of_beq hKelvin)
        decide +kernel
    · split at hLetter
      · next hLong =>
          obtain rfl : c = '\u017f' := Char.toNat_inj.mp (eq_of_beq hLong)
          decide +kernel
      · have hWord := isWordChar_of_isAsciiLower hLetter
        rw [isWordChar_lowerAsciiChar] at hWord
        rw [isDottedChar, hWord, Bool.true_or]
  · decide

/- What an import line names is a dotted name. -/
theorem dotted_of_importLine?
    {line : List Char}
    {target : String}
    (h : importLine? line = some (some target)) :
    (∃ c ∈ target.toList.head?, startsName c = true) ∧
      ∀ c ∈ target.toList, isDottedChar c = true := by
  unfold importLine? at h
  rcases Option.bind_eq_some_iff.mp h with ⟨start, -, h⟩
  rcases Option.bind_eq_some_iff.mp h with ⟨rest, -, h⟩
  split at h
  · cases h
  · rcases Option.bind_eq_some_iff.mp h with ⟨⟨name, more⟩, hName, h⟩
    cases h
    rw [String.toList_ofList]
    cases rest with
    | nil => cases hName
    | cons c r =>
        rw [takeDotted?, takeName?, Option.ite_none_right_eq_some,
          Option.some.injEq] at hName
        rcases hName with ⟨hStarts, hName⟩
        obtain rfl := (Prod.mk.inj hName).1
        refine ⟨⟨c, rfl, hStarts⟩, List.forall_mem_cons.mpr
          ⟨isDottedChar_of_startsName hStarts, fun d hd => ?_⟩⟩
        exact List.mem_takeWhile_imp (p := isDottedChar) hd

------------------------------------------------------------
-- Imports of a text
------------------------------------------------------------

theorem map_snd_numberLines
    (n : Nat)
    (lines : List (List Char)) :
    (numberLines n lines).map Prod.snd = lines := by
  induction lines generalizing n with
  | nil => rfl
  | cons line rest ih => rw [numberLines, List.map_cons, ih]

/- A text imports what one of its blanked lines imports. -/
theorem mem_imports_iff
    {text target : String} :
    target ∈ (parts text).imports ↔
      ∃ line ∈ (mask text.toList).splitOn '\n',
        importLine? line = some (some target) := by
  have hLines : (numberedLines (mask text.toList)).map Prod.snd =
      (mask text.toList).splitOn '\n' :=
    map_snd_numberLines 0 _
  rw [← hLines]
  simp only [parts, importLines, List.mem_filterMap, List.mem_map]
  constructor
  · rintro ⟨entry, ⟨numbered, hMem, hEntry⟩, hTarget⟩
    rcases Option.map_eq_some_iff.mp hEntry with ⟨found, hFound, rfl⟩
    obtain rfl : found = some target := hTarget
    exact ⟨_, ⟨numbered, hMem, rfl⟩, hFound⟩
  · rintro ⟨line, ⟨numbered, hMem, rfl⟩, hFound⟩
    exact ⟨_, ⟨numbered, hMem, by rw [hFound]; rfl⟩, rfl⟩

/-
  A line that imports a namespace is read again, whatever
  stands in front of it and behind it.
-/
theorem mem_imports_of_hasLine
    {text target : String}
    (hName : IsNamespaceName target)
    (hLine : HasLine text.toList ("Imports " ++ target)) :
    target ∈ (parts text).imports := by
  rcases hLine with ⟨before, behind, hText, hBefore⟩
  rcases exists_mask_append hBefore with ⟨masked, hMasked, hMask⟩
  have hNewline : '\n' ∉ ("Imports " ++ target).toList := by
    rw [String.toList_append, List.mem_append]
    refine not_or.mpr ⟨by decide, fun hMem => ?_⟩
    have hSame :=
      beq_eq_false_of_isDottedChar (hName.isDotted _ hMem) '\n' (by decide)
    simp at hSame
  refine mem_imports_iff.mpr ⟨_, ?_, importLine?_import hName⟩
  rw [hText, List.append_assoc, hMask, mask_import hName]
  exact mem_splitOn_of_endsLine hMasked hNewline

/- These names and no others are read again. -/
theorem isNamespaceName_iff
    {target : String} :
    IsNamespaceName target ↔
      target ∈ (parts ("Imports " ++ target ++ "\n")).imports := by
  constructor
  · intro hName
    exact mem_imports_of_hasLine hName ⟨[], [], by simp, by simp [EndsLine]⟩
  · intro hMem
    rcases mem_imports_iff.mp hMem with ⟨line, hLine, hImport⟩
    rcases dotted_of_importLine? hImport with ⟨hStarts, hDotted⟩
    refine ⟨hStarts, hDotted, fun hRemark => ?_⟩
    rcases exists_mask_remark hRemark hDotted with ⟨masked, hBlanks, hMask⟩
    have hNewline : '\n' ∉ "Imports ".toList ++ masked := by
      rw [List.mem_append]
      exact not_or.mpr ⟨by decide, fun hIn => by cases hBlanks _ hIn⟩
    have hIndent : ∀ c ∈ masked, isIndent c = true := by
      intro c hc
      rw [hBlanks c hc]
      rfl
    rw [hMask, List.splitOn_append_cons_self_of_not_mem hNewline] at hLine
    rcases List.mem_cons.mp hLine with rfl | hEmpty
    · rw [importLine?_blanks hIndent] at hImport
      cases hImport
    · rw [List.splitOn_nil, List.mem_singleton] at hEmpty
      rw [hEmpty] at hImport
      cases hImport

end VisualBasic

end Retarget
