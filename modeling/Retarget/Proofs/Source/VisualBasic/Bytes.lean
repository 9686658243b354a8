import Retarget.Source.Tree
import Retarget.Proofs.Source.VisualBasic.Parts
import Retarget.Proofs.Text.Case
import Retarget.Proofs.Text.Offset
import Retarget.Proofs.Text.Search

/-
  This file blanks a Visual Basic text byte by byte and
  shows that this does what blanking its characters does: no
  byte of a character beyond ASCII is taken for a quote or a
  blank, so no character is split.  What comes out is the
  encoding of a text again, and the offsets of what is read
  from it are offsets of the text.

  Key definitions include:
    * `VisualBasic.maskBytes`
    * `VisualBasic.IsBlankedByte`

  Key statements include:
    * `VisualBasic.maskBytes_blanked`
    * `VisualBasic.maskBytesFrom_highs`
    * `VisualBasic.maskBytes_encode`
    * `VisualBasic.fromUTF8?_maskBytes`
    * `VisualBasic.offsets_kept`
-/

namespace Retarget.VisualBasic

open Text

variable {cs w : List Char}
variable {bytes : List UInt8}

------------------------------------------------------------
-- Bytes
------------------------------------------------------------

/- The character with the number of a byte. -/
def byteChar (b : UInt8) : Char :=
  Char.ofNat b.toNat

theorem encode_blanks
    (c : Char) :
    encode (blanks c) = List.replicate c.utf8Size 32 := by
  have hSpace : String.utf8EncodeChar ' ' = [32] := by decide
  rw [encode, blanks, List.flatMap_replicate, hSpace]
  simp

/- A character of ASCII is one byte, with its own number. -/
theorem exists_encode_cons
    {c : Char}
    (h : c.toNat < 128) :
    ∃ b, byteChar b = c ∧ ∀ r, encode (c :: r) = b :: encode r := by
  refine ⟨c.val.toUInt8, ?_, fun r => ?_⟩
  · have hNumber : c.val.toUInt8.toNat = c.toNat := by
      rw [UInt32.toNat_toUInt8]
      exact Nat.mod_eq_of_lt (h.trans (by decide))
    rw [byteChar, hNumber, Char.ofNat_toNat]
  · rw [encode_cons, String.utf8EncodeChar_eq_singleton (utf8Size_of_ascii h)]
    rfl

theorem toNat_byteChar
    (b : UInt8) :
    (byteChar b).toNat = b.toNat := by
  have hByte := b.toNat_lt
  exact Text.toNat_ofNat (by omega)

theorem le_byteChar_of_isHigh
    {b : UInt8}
    (h : IsHigh b) :
    128 ≤ (byteChar b).toNat := by
  rw [toNat_byteChar]
  exact h

------------------------------------------------------------
-- The scan
------------------------------------------------------------

/-
  Blank the bytes of a text.  A byte is compared with
  characters of ASCII, and a blanked byte becomes a space.
-/
def maskBytesFrom
    (mode : MaskMode)
    (fresh : Bool)
    (previous : Option UInt8) : List UInt8 → List UInt8
  | [] => []
  | b :: r =>
    let c := byteChar b
    if c == '\n' then
      b :: maskBytesFrom .code true (some b) r
    else
      match mode with
      | .comment => 32 :: maskBytesFrom .comment false (some b) r
      | .doubled => 32 :: maskBytesFrom .literal false (some b) r
      | .literal =>
        if c == '"' then
          if (r.head?.map byteChar) == some '"' then
            32 :: maskBytesFrom .doubled false (some b) r
          else 32 :: maskBytesFrom .code false (some b) r
        else 32 :: maskBytesFrom .literal false (some b) r
      | .code =>
        if fresh && (c == ' ' || c == '\t') then
          b :: maskBytesFrom .code true (some b) r
        else
          match maskStart fresh (previous.map byteChar) c
              (r.map byteChar) with
          | .literal => 32 :: maskBytesFrom .literal false (some b) r
          | .comment => 32 :: maskBytesFrom .comment false (some b) r
          | .nothing => b :: maskBytesFrom .code false (some b) r

def maskBytes (bytes : List UInt8) : List UInt8 :=
  maskBytesFrom .code true none bytes

/- A byte is kept, or it ends no line and becomes a space. -/
def IsBlankedByte (b masked : UInt8) : Prop :=
  masked = b ∨ masked = 32 ∧ b ≠ 10

theorem maskBytesFrom_blanked
    (mode : MaskMode)
    (fresh : Bool)
    (previous : Option UInt8)
    (bytes : List UInt8) :
    List.Forall₂ IsBlankedByte bytes
      (maskBytesFrom mode fresh previous bytes) := by
  induction bytes generalizing mode fresh previous with
  | nil => exact List.Forall₂.nil
  | cons b r ih =>
      have hKeep : ∀ mode fresh previous, List.Forall₂ IsBlankedByte (b :: r)
          (b :: maskBytesFrom mode fresh previous r) :=
        fun _ _ _ => (ih _ _ _).cons (Or.inl rfl)
      unfold maskBytesFrom
      dsimp only
      split
      · exact hKeep _ _ _
      · rename_i hLine
        have hBlank : ∀ mode fresh previous,
            List.Forall₂ IsBlankedByte (b :: r)
              (32 :: maskBytesFrom mode fresh previous r) := by
          refine fun _ _ _ => (ih _ _ _).cons (Or.inr ⟨rfl, ?_⟩)
          rintro rfl
          exact hLine rfl
        cases mode with
        | comment => exact hBlank _ _ _
        | doubled => exact hBlank _ _ _
        | literal =>
            dsimp only
            split
            · split
              · exact hBlank _ _ _
              · exact hBlank _ _ _
            · exact hBlank _ _ _
        | code =>
            dsimp only
            split
            · exact hKeep _ _ _
            · split
              · exact hBlank _ _ _
              · exact hBlank _ _ _
              · exact hKeep _ _ _

theorem maskBytes_blanked
    (bytes : List UInt8) :
    List.Forall₂ IsBlankedByte bytes (maskBytes bytes) :=
  maskBytesFrom_blanked _ _ _ bytes

------------------------------------------------------------
-- Characters beyond ASCII
------------------------------------------------------------

/- What the scan is in behind a character beyond ASCII. -/
def MaskMode.past : MaskMode → MaskMode
  | .doubled => .literal
  | mode => mode

theorem beq_eq_false_of_high
    {c d : Char}
    (h : 128 ≤ c.toNat)
    (hd : d.toNat < 128) :
    (c == d) = false := by
  rw [beq_eq_false_iff_ne]
  rintro rfl
  omega

theorem lowerAsciiChar_high
    {c : Char}
    (h : 128 ≤ c.toNat) :
    lowerAsciiChar c = c := by
  rw [lowerAsciiChar, if_neg]
  rw [isAsciiUpper_iff]
  omega

/- Nothing that is blanked starts with the character. -/
theorem maskStart_high
    {c : Char}
    (h : 128 ≤ c.toNat)
    (fresh : Bool)
    (previous : Option Char)
    (rest : List Char) :
    maskStart fresh previous c rest = .nothing := by
  have hOther : ∀ d : Char, d.toNat < 128 → (c == d) = false :=
    fun d => beq_eq_false_of_high h
  have hRemark : startsRemark (c :: rest) = false := by
    unfold startsRemark
    split
    · rename_i r e m d more hSame
      cases hSame
      have hFirst : (c == 'r') = false := hOther 'r' (by decide)
      simp [lowerAsciiChar_high h, hFirst]
    · rfl
  rw [maskStart, hOther '"' (by decide), hOther '\'' (by decide),
    hOther '#' (by decide), hRemark]
  simp

theorem maskFrom_high
    {c : Char}
    (h : 128 ≤ c.toNat)
    (mode : MaskMode)
    (fresh : Bool)
    (previous : Option Char)
    (rest : List Char) :
    maskFrom mode fresh previous (c :: rest) =
      (if mode = .code then [c] else blanks c) ++
        maskFrom mode.past false (some c) rest := by
  have hOther : ∀ d : Char, d.toNat < 128 → (c == d) = false :=
    fun d => beq_eq_false_of_high h
  have hLine := hOther '\n' (by decide)
  cases mode with
  | code =>
      simp [maskFrom, maskStart_high h, MaskMode.past, hLine,
        hOther ' ' (by decide), hOther '\t' (by decide)]
  | literal => simp [maskFrom, MaskMode.past, hLine, hOther '"' (by decide)]
  | doubled => simp [maskFrom, MaskMode.past, hLine]
  | comment => simp [maskFrom, MaskMode.past, hLine]

theorem maskBytesFrom_high
    {b : UInt8}
    (h : IsHigh b)
    (mode : MaskMode)
    (fresh : Bool)
    (previous : Option UInt8)
    (rest : List UInt8) :
    maskBytesFrom mode fresh previous (b :: rest) =
      (if mode = .code then b else 32) ::
        maskBytesFrom mode.past false (some b) rest := by
  have hNumber := le_byteChar_of_isHigh h
  have hOther : ∀ d : Char, d.toNat < 128 → (byteChar b == d) = false :=
    fun d => beq_eq_false_of_high hNumber
  have hLine := hOther '\n' (by decide)
  cases mode with
  | code =>
      simp [maskBytesFrom, maskStart_high hNumber, MaskMode.past, hLine,
        hOther ' ' (by decide), hOther '\t' (by decide)]
  | literal =>
      simp [maskBytesFrom, MaskMode.past, hLine, hOther '"' (by decide)]
  | doubled => simp [maskBytesFrom, MaskMode.past, hLine]
  | comment => simp [maskBytesFrom, MaskMode.past, hLine]

/- The bytes of one character are kept or blanked together. -/
theorem maskBytesFrom_highs
    (hSome : bytes ≠ [])
    (hHigh : ∀ b ∈ bytes, IsHigh b)
    (mode : MaskMode)
    (fresh : Bool)
    (previous : Option UInt8)
    (rest : List UInt8) :
    maskBytesFrom mode fresh previous (bytes ++ rest) =
      (if mode = .code then bytes else List.replicate bytes.length 32) ++
        maskBytesFrom mode.past false bytes.getLast? rest := by
  induction bytes generalizing mode fresh previous with
  | nil => exact absurd rfl hSome
  | cons b more ih =>
      rcases List.forall_mem_cons.mp hHigh with ⟨hFirst, hMore⟩
      rw [List.cons_append, maskBytesFrom_high hFirst]
      by_cases hLast : more = []
      · subst hLast
        by_cases hCode : mode = .code
        · simp [hCode]
        · simp [hCode]
      · have hMode : mode.past.past = mode.past := by
          cases mode <;> rfl
        have hSame : mode.past = .code ↔ mode = .code := by
          cases mode <;> simp [MaskMode.past]
        rw [ih hLast hMore, hMode, List.getLast?_cons_of_ne_nil hLast]
        simp only [hSame]
        by_cases hCode : mode = .code
        · simp [hCode]
        · simp [hCode, List.replicate_succ]

------------------------------------------------------------
-- Texts
------------------------------------------------------------

/- What is ASCII starts the bytes if it starts the text. -/
theorem isPrefix_encode_iff
    (hAscii : ∀ c ∈ w, c.toNat < 128) :
    w <+: (encode cs).map byteChar ↔ w <+: cs := by
  induction w generalizing cs with
  | nil => simp
  | cons d more ih =>
      rcases List.forall_mem_cons.mp hAscii with ⟨hFirst, hMore⟩
      cases cs with
      | nil => simp [encode]
      | cons c r =>
          by_cases hc : c.toNat < 128
          · rcases exists_encode_cons hc with ⟨b, hChar, hEncode⟩
            rw [hEncode, List.map_cons, hChar, List.cons_prefix_cons,
              List.cons_prefix_cons, ih hMore]
          · rcases encode_high hc with ⟨hSome, hHigh⟩
            obtain ⟨b, more', hBytes⟩ := List.exists_cons_of_ne_nil hSome
            have hByte : 128 ≤ (byteChar b).toNat := by
              apply le_byteChar_of_isHigh (hHigh b _)
              rw [hBytes]
              exact List.mem_cons_self
            rw [encode_cons, hBytes, List.cons_append, List.map_cons,
              List.cons_prefix_cons, List.cons_prefix_cons]
            constructor
            · rintro ⟨rfl, -⟩
              omega
            · rintro ⟨rfl, -⟩
              omega

theorem lt_of_lowerAsciiChar_eq
    {c d : Char}
    (h : lowerAsciiChar c = d)
    (hd : d.toNat < 128) :
    c.toNat < 128 := by
  by_contra hHigh
  rw [lowerAsciiChar_high (Nat.le_of_not_lt hHigh)] at h
  rw [h] at hHigh
  exact hHigh hd

theorem isAsciiBlank_high
    {c : Char}
    (h : 128 ≤ c.toNat) :
    isAsciiBlank c = false := by
  have hOther : ∀ d : Char, d.toNat < 128 → (c == d) = false :=
    fun d => beq_eq_false_of_high h
  rw [isAsciiBlank, hOther ' ' (by decide), hOther '\t' (by decide),
    hOther '\n' (by decide), hOther '\r' (by decide),
    hOther '\x0c' (by decide)]
  rfl

/- A remark is four characters of ASCII. -/
theorem startsRemark_iff :
    startsRemark cs = true ↔
      ∃ w, w <+: cs ∧ startsRemark w = true ∧ ∀ c ∈ w, c.toNat < 128 := by
  constructor
  · intro h
    unfold startsRemark at h
    split at h
    · rename_i r e m c more
      refine ⟨[r, e, m, c], ⟨more, rfl⟩, h, ?_⟩
      simp only [Bool.and_eq_true, beq_iff_eq, List.map_cons, List.map_nil,
        List.cons.injEq, and_true] at h
      rcases h with ⟨⟨hr, he, hm⟩, hc⟩
      simp only [List.forall_mem_cons]
      refine ⟨lt_of_lowerAsciiChar_eq hr (by decide),
        lt_of_lowerAsciiChar_eq he (by decide),
        lt_of_lowerAsciiChar_eq hm (by decide), ?_, by simp⟩
      by_contra hHigh
      rw [isAsciiBlank_high (Nat.le_of_not_lt hHigh)] at hc
      cases hc
    · cases h
  · rintro ⟨w, ⟨more, rfl⟩, hWord, -⟩
    unfold startsRemark at hWord
    split at hWord
    · exact hWord
    · cases hWord

theorem startsRemark_encode
    (cs : List Char) :
    startsRemark ((encode cs).map byteChar) = startsRemark cs := by
  rw [Bool.eq_iff_iff, startsRemark_iff, startsRemark_iff]
  refine exists_congr fun w => and_congr_left fun hWord => ?_
  exact isPrefix_encode_iff hWord.2

theorem head?_encode_eq_some_iff
    {c : Char}
    (h : c.toNat < 128) :
    (encode cs).head?.map byteChar = some c ↔ cs.head? = some c := by
  have hAscii : ∀ d ∈ [c], d.toNat < 128 := by simpa using h
  have hHead : ∀ l : List Char, l.head? = some c ↔ [c] <+: l := by
    intro l
    cases l with
    | nil => simp
    | cons d r => simp [eq_comm]
  rw [← List.head?_map, hHead, hHead]
  exact isPrefix_encode_iff hAscii

/- A remark may start behind what has been passed. -/
def mayStartRemark (previous : Option Char) : Bool :=
  previous.any fun p => isAsciiBlank p || p == ':'

theorem mayStartRemark_high
    {c : Char}
    (h : 128 ≤ c.toNat) :
    mayStartRemark (some c) = false := by
  have hColon : (c == ':') = false := beq_eq_false_of_high h (by decide)
  rw [mayStartRemark, Option.any_some, isAsciiBlank_high h, hColon]
  rfl

theorem maskStart_congr
    {fresh : Bool}
    {previous previous' : Option Char}
    {c : Char}
    {rest rest' : List Char}
    (hPrevious : mayStartRemark previous = mayStartRemark previous')
    (hRest : startsRemark (c :: rest) = startsRemark (c :: rest')) :
    maskStart fresh previous c rest = maskStart fresh previous' c rest' := by
  simp only [mayStartRemark] at hPrevious
  rw [maskStart, maskStart, hPrevious, hRest]

/- One character of ASCII, with what the scan does behind it. -/
theorem maskBytesFrom_ascii
    {c : Char}
    {b : UInt8}
    {r : List Char}
    {previous : Option Char}
    {last : Option UInt8}
    (hc : c.toNat < 128)
    (hChar : byteChar b = c)
    (hEncode : ∀ r, encode (c :: r) = b :: encode r)
    (hSame : mayStartRemark (last.map byteChar) = mayStartRemark previous)
    (hNext : ∀ mode fresh, maskBytesFrom mode fresh (some b) (encode r) =
      encode (maskFrom mode fresh (some c) r))
    (mode : MaskMode)
    (fresh : Bool) :
    maskBytesFrom mode fresh last (b :: encode r) =
      encode (maskFrom mode fresh previous (c :: r)) := by
  have hBlank : ∀ x, 32 :: encode x = encode (blanks c ++ x) := by
    intro x
    rw [encode_append, encode_blanks, utf8Size_of_ascii hc]
    rfl
  have hStart : maskStart fresh (last.map byteChar) c
      ((encode r).map byteChar) = maskStart fresh previous c r := by
    refine maskStart_congr hSame ?_
    rw [← startsRemark_encode (c :: r), hEncode, List.map_cons, hChar]
  unfold maskBytesFrom maskFrom
  simp only [hChar, hNext, hStart]
  split
  · rw [hEncode]
  · cases mode with
    | comment => exact hBlank _
    | doubled => exact hBlank _
    | literal =>
        simp only [beq_iff_eq, head?_encode_eq_some_iff (c := '"') (by decide)]
        split
        · split
          · exact hBlank _
          · exact hBlank _
        · exact hBlank _
    | code =>
        dsimp only
        split
        · rw [hEncode]
        · cases maskStart fresh previous c r with
          | literal => exact hBlank _
          | comment => exact hBlank _
          | nothing => exact (hEncode _).symm

/- The bytes of a text are blanked as its characters are. -/
theorem maskBytesFrom_encode
    (mode : MaskMode)
    (fresh : Bool)
    {previous : Option Char}
    {last : Option UInt8}
    (hSame : mayStartRemark (last.map byteChar) = mayStartRemark previous)
    (cs : List Char) :
    maskBytesFrom mode fresh last (encode cs) =
      encode (maskFrom mode fresh previous cs) := by
  induction cs generalizing mode fresh previous last with
  | nil => cases mode <;> rfl
  | cons c r ih =>
      by_cases hc : c.toNat < 128
      · rcases exists_encode_cons hc with ⟨b, hChar, hEncode⟩
        rw [hEncode]
        exact maskBytesFrom_ascii hc hChar hEncode hSame
          (fun mode fresh => ih mode fresh (by rw [Option.map_some, hChar]))
          mode fresh
      · have hHigh := Nat.le_of_not_lt hc
        rcases encode_high hc with ⟨hSome, hBytes⟩
        have hLast : mayStartRemark
            ((String.utf8EncodeChar c).getLast?.map byteChar) =
              mayStartRemark (some c) := by
          rw [List.getLast?_eq_some_getLast hSome, Option.map_some,
            mayStartRemark_high hHigh, mayStartRemark_high]
          exact le_byteChar_of_isHigh (hBytes _ (List.getLast_mem hSome))
        rw [encode_cons, maskBytesFrom_highs hSome hBytes, maskFrom_high hHigh,
          encode_append, ih mode.past false hLast]
        congr 1
        split
        · simp [encode]
        · rw [String.length_utf8EncodeChar, encode_blanks]

theorem maskBytes_encode
    (cs : List Char) :
    maskBytes (encode cs) = encode (mask cs) :=
  maskBytesFrom_encode .code true rfl cs

/- A character beyond ASCII in a comment becomes two spaces. -/
example : maskBytes [0x27, 0xC3, 0xA9, 0x0A, 0xC3, 0xA9] =
    [0x20, 0x20, 0x20, 0x0A, 0xC3, 0xA9] := by decide

------------------------------------------------------------
-- Reports
------------------------------------------------------------

theorem encode_toList
    (text : String) :
    encode text.toList = text.toByteArray.data.toList :=
  (bytes_eq text).symm

/- The bytes that are left are those of the blanked text. -/
theorem fromUTF8?_maskBytes
    (text : String) :
    String.fromUTF8? ⟨(maskBytes text.toByteArray.data.toList).toArray⟩ =
      some (String.ofList (mask text.toList)) := by
  have hBytes := maskBytes_encode text.toList
  rw [encode_toList, ← String.toList_ofList (l := mask text.toList),
    encode_toList] at hBytes
  rw [hBytes, String.fromUTF8?, dif_pos (String.isValidUTF8 _)]
  rfl

theorem IsBlankedByte.eq_newline_iff
    {b masked : UInt8}
    (h : IsBlankedByte b masked) :
    masked = 10 ↔ b = 10 := by
  rcases h with rfl | ⟨rfl, hOther⟩
  · exact Iff.rfl
  · simp [hOther]

/- Each byte with what has become of it. -/
theorem getElem?_maskBytes
    (bytes : List UInt8)
    (i : Nat) :
    (bytes[i]? = none ∧ (maskBytes bytes)[i]? = none) ∨
      ∃ b masked, bytes[i]? = some b ∧ (maskBytes bytes)[i]? = some masked ∧
        IsBlankedByte b masked := by
  rcases List.forall₂_iff_get.mp (maskBytes_blanked bytes) with
    ⟨hLength, hBytes⟩
  by_cases hi : i < bytes.length
  · have hi' : i < (maskBytes bytes).length := hLength ▸ hi
    exact Or.inr ⟨bytes[i], (maskBytes bytes)[i],
      List.getElem?_eq_getElem hi, List.getElem?_eq_getElem hi',
      hBytes i hi hi'⟩
  · have hPast := Nat.le_of_not_lt hi
    exact Or.inl ⟨List.getElem?_eq_none hPast,
      List.getElem?_eq_none (hLength ▸ hPast)⟩

/-
  The blanked text has the newlines of the text and spaces in
  the place of other bytes, and the names that are read from
  it stand in the text.
-/
theorem offsets_kept
    (path : Path)
    (text : String) :
    let tree := SourceTree.ofVisualBasic path text
    let bytes := text.toByteArray.data.toList
    String.fromUTF8? ⟨(maskBytes bytes).toArray⟩ =
        some (String.ofList (mask text.toList)) ∧
      (maskBytes bytes).length = bytes.length ∧
      (∀ i : Nat, (maskBytes bytes)[i]? = some 10 ↔ bytes[i]? = some 10) ∧
      (∀ i : Nat, (maskBytes bytes)[i]? = bytes[i]? ∨
        (maskBytes bytes)[i]? = some 32) ∧
      (∀ name ∈ tree.names, PointsInto text.toList name) ∧
      tree.names.Pairwise fun a b =>
        a.span.start < b.span.start ∧ a.span.stop ≤ b.span.start := by
  intro tree bytes
  refine ⟨fromUTF8?_maskBytes text, ?_, ?_, ?_,
    mentions_pointsInto text.toList, mentions_apart text.toList⟩
  · exact (maskBytes_blanked bytes).length_eq.symm
  · intro i
    rcases getElem?_maskBytes bytes i with
      ⟨hByte, hMasked⟩ | ⟨b, masked, hByte, hMasked, hBlanked⟩
    · rw [hByte, hMasked]
    · rw [hByte, hMasked, Option.some_inj, Option.some_inj,
        hBlanked.eq_newline_iff]
  · intro i
    rcases getElem?_maskBytes bytes i with
      ⟨hByte, hMasked⟩ | ⟨b, masked, hByte, hMasked, hBlanked⟩
    · exact Or.inl (hMasked.trans hByte.symm)
    · rcases hBlanked with rfl | ⟨rfl, -⟩
      · exact Or.inl (hMasked.trans hByte.symm)
      · exact Or.inr hMasked

/- A name behind a character of two bytes, and none in a comment. -/
example :
    (SourceTree.ofVisualBasic ⟨"a.vb"⟩ "Dim é As T ' U\n").names =
      [⟨"T", none, .simple, false, ⟨10, 11⟩, ⟨10, 11⟩⟩] := by
  decide +kernel

end Retarget.VisualBasic
