import Retarget.Path

/-
  This file defines the failures that every part of the
  library shares.

  Key definitions include:
    * `Fault`
    * `Fault.message`
    * `requireNonEmpty`

  Key statements include:
    * `requireNonEmpty_eq_ok_iff`
-/

namespace Retarget

inductive Fault where
  /- An argument that an operation cannot work with. -/
  | invalidArgument (name reason : String)
  /- The caller asked to stop before the end. -/
  | cancelled
  | unreadable (path : Path) (details : String)
  deriving Repr, DecidableEq

def Fault.message : Fault → String
  | .invalidArgument name reason =>
    "Invalid argument '" ++ name ++ "': " ++ reason
  | .cancelled => "Operation was cancelled"
  | .unreadable path details =>
    "I/O error on " ++ path.text ++ ": " ++ details

/- Refuse a text of blanks only. -/
def requireNonEmpty (name value : String) : Except Fault Unit :=
  if Text.isBlankText value then
    .error (.invalidArgument name "must not be empty")
  else .ok ()

theorem requireNonEmpty_eq_ok_iff
    (name value : String) :
    requireNonEmpty name value = .ok () ↔
      ∃ c ∈ value.toList, Text.isBlank c = false := by
  unfold requireNonEmpty Text.isBlankText
  by_cases h : value.toList.all Text.isBlank = true
  · simp only [h, if_true]
    constructor
    · intro hc
      cases hc
    · rintro ⟨c, hc, hb⟩
      rw [List.all_eq_true] at h
      rw [h c hc] at hb
      cases hb
  · simp only [h]
    constructor
    · intro _
      rw [Bool.not_eq_true, List.all_eq_false] at h
      obtain ⟨c, hc, hb⟩ := h
      exact ⟨c, hc, by simpa using hb⟩
    · intro _
      rfl

end Retarget
