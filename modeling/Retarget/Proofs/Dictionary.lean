import Retarget.Dictionary

/-
  This file describes dictionaries that are filled entry by
  entry: a key has the value that was set last, and every
  value has been set.

  Key statements include:
    * `Dictionary.find?_foldl_insert`
    * `Dictionary.find?_ofList`
    * `Dictionary.mem_values_foldl_insert`
-/

namespace Retarget

/- A search finds the one element that passes its test. -/
theorem find?_eq_some_of_only
    {α : Type}
    {l : List α}
    {p : α → Bool}
    {a : α}
    (ha : a ∈ l)
    (hPasses : p a = true)
    (hOnly : ∀ b ∈ l, p b = true → b = a) :
    l.find? p = some a := by
  cases hFound : l.find? p with
  | none => exact absurd hPasses (List.find?_eq_none.mp hFound a ha)
  | some b =>
      rw [hOnly b (List.mem_of_find?_eq_some hFound) (List.find?_some hFound)]

end Retarget

namespace Retarget.Dictionary

variable {α β : Type}
variable {d : Dictionary α}

@[simp] theorem find?_empty
    (key : String) :
    (empty : Dictionary α).find? key = none := rfl

theorem find?_insert
    (d : Dictionary α)
    (key other : String)
    (value : α) :
    (d.insert key value).find? other =
      if key == other then some value else d.find? other := by
  by_cases hSame : key = other
  · rw [hSame, find?_insert_self, if_pos (beq_self_eq_true other)]
  · rw [find?_insert_of_ne d value (Ne.symm hSame), if_neg (by simpa using hSame)]

/- The last entry of a key counts. -/
theorem find?_foldl_insert
    (key : β → String)
    (value : β → α)
    (entries : List β)
    (d : Dictionary α)
    (other : String) :
    (entries.foldl (fun d e => d.insert (key e) (value e)) d).find? other =
      ((entries.reverse.find? fun e => key e == other).map value).or
        (d.find? other) := by
  induction entries generalizing d with
  | nil => simp
  | cons e rest ih =>
      rw [List.foldl_cons, ih, find?_insert, List.reverse_cons,
        List.find?_append]
      cases hLater : rest.reverse.find? fun e => key e == other with
      | some later => simp
      | none =>
          cases hFirst : key e == other with
          | true => simp [hFirst]
          | false => simp [hFirst]

theorem find?_ofList
    (pairs : List (String × α))
    (key : String) :
    (ofList pairs).find? key =
      (pairs.reverse.find? fun e => e.1 == key).map Prod.snd := by
  rw [ofList, find?_foldl_insert Prod.fst Prod.snd, find?_empty,
    Option.or_none]

theorem mem_values_of_find?
    {key : String}
    {value : α}
    (h : d.find? key = some value) :
    value ∈ d.values := by
  rcases Option.map_eq_some_iff.mp h with ⟨e, hEntry, rfl⟩
  exact List.mem_map_of_mem (List.mem_of_find?_eq_some hEntry)

theorem mem_values_insert
    {key : String}
    {value other : α}
    (h : other ∈ (d.insert key value).values) :
    other = value ∨ other ∈ d.values := by
  obtain ⟨entries⟩ := d
  simp only [values, insert] at h ⊢
  induction entries with
  | nil => exact Or.inl (by simpa [insertEntry] using h)
  | cons e rest ih =>
      obtain ⟨k, v⟩ := e
      unfold insertEntry at h
      split at h
      · simpa using h
      · rw [List.map_cons, List.mem_cons] at h
        exact h.imp_right (List.mem_cons_of_mem _)
      · rw [List.map_cons, List.mem_cons] at h
        rcases h with rfl | hRest
        · exact Or.inr List.mem_cons_self
        · exact (ih hRest).imp_right (List.mem_cons_of_mem _)

/- Every value was there before or has been set. -/
theorem mem_values_foldl_insert
    (key : β → String)
    (value : β → α)
    (entries : List β)
    {v : α}
    (h : v ∈ (entries.foldl (fun d e => d.insert (key e) (value e)) d).values) :
    v ∈ d.values ∨ v ∈ entries.map value := by
  induction entries generalizing d with
  | nil => exact Or.inl h
  | cons e rest ih =>
      rw [List.map_cons, List.mem_cons]
      rcases ih h with hBefore | hRest
      · exact (mem_values_insert hBefore).symm.imp_right Or.inl
      · exact Or.inr (Or.inr hRest)

end Retarget.Dictionary
