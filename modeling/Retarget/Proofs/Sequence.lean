/-
  This file shows how computations that may fail end when
  they run one after the other.

  Key statements include:
    * `bind_eq_ok_iff`
    * `bind_eq_error_iff`
    * `exists_of_foldlM_eq_error`
    * `exists_foldlM_eq_ok_iff`
-/

namespace Retarget

variable {ε α β γ : Type}

------------------------------------------------------------
-- Two steps
------------------------------------------------------------

section

variable {x : Except ε α}
variable {f : α → Except ε β}

/- A computation ends well if both of its steps do. -/
theorem bind_eq_ok_iff
    {b : β} :
    x >>= f = .ok b ↔ ∃ a, x = .ok a ∧ f a = .ok b := by
  cases x with
  | error e => simp [bind, Except.bind]
  | ok a => simp [bind, Except.bind]

/- It fails as its first step does, or else as its second one. -/
theorem bind_eq_error_iff
    {e : ε} :
    x >>= f = .error e ↔
      x = .error e ∨ ∃ a, x = .ok a ∧ f a = .error e := by
  cases x with
  | error e => simp [bind, Except.bind]
  | ok a => simp [bind, Except.bind]

end

------------------------------------------------------------
-- Gathering what is found
------------------------------------------------------------

variable {find : α → Except ε β}
variable {gather : γ → β → γ}
variable {as : List α}
variable {start : γ}

/- A run over a list fails as one of its members does. -/
theorem exists_of_foldlM_eq_error
    {e : ε}
    (h : as.foldlM (fun c a => do return gather c (← find a)) start =
      .error e) :
    ∃ a ∈ as, find a = .error e := by
  induction as generalizing start with
  | nil => cases h
  | cons a r ih =>
      rw [List.foldlM_cons] at h
      rcases bind_eq_error_iff.mp h with hStep | ⟨c, -, hRest⟩
      · rcases bind_eq_error_iff.mp hStep with hFind | ⟨b, -, hReturn⟩
        · exact ⟨a, List.mem_cons_self, hFind⟩
        · cases hReturn
      · rcases ih hRest with ⟨a', hMem, hFind⟩
        exact ⟨a', List.mem_cons_of_mem a hMem, hFind⟩

/- It ends well if each of its members does. -/
theorem exists_foldlM_eq_ok_iff :
    (∃ c, as.foldlM (fun c a => do return gather c (← find a)) start =
        .ok c) ↔
      ∀ a ∈ as, ∃ b, find a = .ok b := by
  induction as generalizing start with
  | nil => simp [pure, Except.pure]
  | cons a r ih =>
      rw [List.forall_mem_cons, List.foldlM_cons]
      cases hFind : find a with
      | error e => simp [bind, Except.bind]
      | ok b =>
          have hRest := @ih (gather start b)
          rw [← hRest]
          simp [bind, Except.bind, pure, Except.pure]

end Retarget
