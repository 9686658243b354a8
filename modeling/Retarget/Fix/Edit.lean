import Retarget.Text.Offset
import Retarget.Source.Span

/-
  This file defines text edits and how a list of them is
  applied to a text at once.

  Key definitions include:
    * `TextEdit`
    * `TextEdit.inBounds`
    * `TextEdit.choose?`
    * `TextEdit.replaceAll?`
    * `TextEdit.apply`
-/

namespace Retarget

structure TextEdit where
  span : Span
  newText : String
  deriving Repr, DecidableEq, Inhabited

namespace TextEdit

def insertion (offset : Nat) (newText : String) : TextEdit :=
  ⟨⟨offset, offset⟩, newText⟩

/- Edits are ordered by their spans and then by their texts. -/
def order (a b : TextEdit) : Ordering :=
  (a.span.order b.span).then (Text.order a.newText b.newText)

def le (a b : TextEdit) : Bool :=
  a.order b != .gt

/- Drop each element that equals the one before it. -/
def dropRepeats : List TextEdit → List TextEdit
  | [] => []
  | [e] => [e]
  | a :: b :: r =>
    if a = b then dropRepeats (b :: r) else a :: dropRepeats (b :: r)

/- The edits in order, each of them once. -/
def arrange (edits : List TextEdit) : List TextEdit :=
  dropRepeats (edits.mergeSort le)

/- The span lies in the text, its ends between characters. -/
def inBounds (text : List Char) (e : TextEdit) : Bool :=
  e.span.start ≤ e.span.stop && Text.isBoundary e.span.start text &&
    Text.isBoundary e.span.stop text

/- The edits that are applied, and how many cannot be. -/
structure Choice where
  accepted : List TextEdit
  skipped : Nat
  deriving Repr, DecidableEq

/-
  Take the edits one by one.  An edit that is out of bounds
  or overlaps one taken before is skipped; an edit that
  changes nothing is dropped.  There is no choice if a span
  cannot be read from the text.
-/
def chooseFrom?
    (text : List Char)
    (taken : List TextEdit) : List TextEdit → Option Choice
  | [] => some ⟨[], 0⟩
  | e :: rest =>
    if !inBounds text e || taken.any fun t => t.span.Overlaps e.span then do
      let choice ← chooseFrom? text taken rest
      return { choice with skipped := choice.skipped + 1 }
    else do
      let old ← Text.slice? e.span.start e.span.stop text
      if old = e.newText.toList then chooseFrom? text taken rest
      else
        let choice ← chooseFrom? text (e :: taken) rest
        return { choice with accepted := e :: choice.accepted }

def choose? (text : List Char) (edits : List TextEdit) : Option Choice :=
  chooseFrom? text [] (arrange edits)

/-
  Put the new texts in the places of the spans, from the last
  edit to the first, so that no span moves before its turn.
-/
def replaceAll? : List TextEdit → List Char → Option (List Char)
  | [], text => some text
  | e :: rest, text => do
    let replaced ← replaceAll? rest text
    Text.replaceRange? e.span.start e.span.stop e.newText.toList replaced

/- An edited text, with how many edits changed it or could not. -/
structure Outcome where
  text : String
  applied : Nat
  skipped : Nat
  deriving Repr, DecidableEq

def outcome? (text : String) (edits : List TextEdit) : Option Outcome := do
  let choice ← choose? text.toList edits
  let edited ← replaceAll? choice.accepted text.toList
  return ⟨String.ofList edited, choice.accepted.length, choice.skipped⟩

/- The text stays as it is if the edits could not be applied. -/
def apply (text : String) (edits : List TextEdit) : Outcome :=
  (outcome? text edits).getD ⟨text, 0, 0⟩

end TextEdit

end Retarget
