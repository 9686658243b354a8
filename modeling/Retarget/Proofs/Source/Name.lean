import Mathlib.Data.List.Nodup
import Retarget.Source.Name
import Retarget.Proofs.Source.Span

/-
  This file says what a report about a source file must
  satisfy to fit the file.  Names stand on lines of the
  text, no two of them at the same place, and imports end
  between characters.  A name that is missing in the text
  may stand at a place without text.

  Key definitions include:
    * `NameNode.IsAt`
    * `NameNode.IsApart`
    * `SourceParts.Fits`

  Key statements include:
    * `NameNode.IsAt.fullSpan_isIn`
    * `SourceParts.fits_of_isAt`
-/

namespace Retarget

variable {text : List Char}
variable {start stop : Nat}
variable {words : List Span}

------------------------------------------------------------
-- Names
------------------------------------------------------------

/-
  The name is one of some words, and a qualifier starts at
  a word that is not behind it.
-/
structure NameNode.IsAt (words : List Span) (name : NameNode) : Prop where
  span_mem : name.span ∈ words
  isFull :
    name.fullSpan = name.span ∨
      ∃ first ∈ words, first.start ≤ name.span.start ∧
        name.fullSpan = ⟨first.start, name.span.stop⟩
  eq_of_unqualified : name.qualifier = none → name.fullSpan = name.span

namespace NameNode

variable {name : NameNode}

theorem IsAt.stop_eq
    (h : name.IsAt words) :
    name.fullSpan.stop = name.span.stop := by
  rcases h.isFull with hFull | ⟨first, -, -, hFull⟩
  · rw [hFull]
  · rw [hFull]

theorem IsAt.start_le
    (h : name.IsAt words) :
    name.fullSpan.start ≤ name.span.start := by
  rcases h.isFull with hFull | ⟨first, -, hOrder, hFull⟩
  · rw [hFull]
  · rw [hFull]
    exact hOrder

theorem IsAt.fullSpan_isIn
    (h : name.IsAt words)
    (hWords : ∀ s ∈ words, s.IsIn text) :
    name.fullSpan.IsIn text := by
  have hSpan := hWords _ h.span_mem
  rcases h.isFull with hFull | ⟨first, hFirst, hOrder, hFull⟩
  · rw [hFull]
    exact hSpan
  · rw [hFull]
    exact (hWords first hFirst).join hSpan hOrder

end NameNode

------------------------------------------------------------
-- Reports
------------------------------------------------------------

/- No span of one name is a span of the other. -/
structure NameNode.IsApart (a b : NameNode) : Prop where
  span_ne : a.span ≠ b.span
  span_ne_fullSpan : a.span ≠ b.fullSpan
  fullSpan_ne_span : a.fullSpan ≠ b.span
  fullSpan_ne : a.fullSpan ≠ b.fullSpan

theorem NameNode.IsApart.symm
    {a b : NameNode}
    (h : a.IsApart b) :
    b.IsApart a :=
  ⟨h.span_ne.symm, h.fullSpan_ne_span.symm, h.span_ne_fullSpan.symm,
    h.fullSpan_ne.symm⟩

/- Names that end at different places are apart. -/
theorem NameNode.isApart_of_stop_ne
    {a b : NameNode}
    (ha : a.fullSpan.stop = a.span.stop)
    (hb : b.fullSpan.stop = b.span.stop)
    (h : a.span.stop ≠ b.span.stop) :
    a.IsApart b where
  span_ne hSame := h (congrArg Span.stop hSame)
  span_ne_fullSpan hSame := h ((congrArg Span.stop hSame).trans hb)
  fullSpan_ne_span hSame := h (ha.symm.trans (congrArg Span.stop hSame))
  fullSpan_ne hSame := h (ha.symm.trans ((congrArg Span.stop hSame).trans hb))

/- A report that fits a text. -/
structure SourceParts.Fits (text : List Char) (parts : SourceParts) : Prop where
  isIn : ∀ name ∈ parts.names, name.fullSpan.IsIn text
  isOnLine : ∀ name ∈ parts.names, name.span.IsOnLine text
  start_le : ∀ name ∈ parts.names, name.fullSpan.start ≤ name.span.start
  stop_eq : ∀ name ∈ parts.names, name.fullSpan.stop = name.span.stop
  eq_of_unqualified :
    ∀ name ∈ parts.names, name.qualifier = none → name.fullSpan = name.span
  apart : parts.names.Pairwise NameNode.IsApart
  isImport : ∀ s ∈ parts.importSpans, Text.isBoundary s.stop text = true

namespace SourceParts

variable {parts : SourceParts}

/-
  Words in a row differ in their ends when they differ in
  their starts.
-/
theorem fits_of_isAt
    (hRow : Span.Row text start stop words)
    (hWords : ∀ s ∈ words, s.IsWord text)
    (hNames : ∀ name ∈ parts.names, name.IsAt words)
    (hStarts : (parts.names.map fun n => n.span.start).Nodup)
    (hImports : ∀ s ∈ parts.importSpans, Text.isBoundary s.stop text = true) :
    parts.Fits text where
  isIn name hName := (hNames name hName).fullSpan_isIn hRow.isIn
  isOnLine name hName := (hWords _ (hNames name hName).span_mem).isOnLine
  start_le name hName := (hNames name hName).start_le
  stop_eq name hName := (hNames name hName).stop_eq
  eq_of_unqualified name hName := (hNames name hName).eq_of_unqualified
  apart := by
    refine (List.pairwise_map.mp hStarts).imp_of_mem ?_
    intro a b ha hb hStart
    refine NameNode.isApart_of_stop_ne (hNames a ha).stop_eq
      (hNames b hb).stop_eq fun hStop => ?_
    have hSame := hRow.eq_of_stop_eq (fun s hs => (hWords s hs).start_lt_stop)
      (hNames a ha).span_mem (hNames b hb).span_mem hStop
    exact hStart (congrArg Span.start hSame)
  isImport := hImports

end SourceParts

end Retarget
