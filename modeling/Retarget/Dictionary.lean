import Retarget.Text.Basic

/-
  This file defines finite maps from texts, kept in
  ascending order of their keys.

  Key definitions include:
    * `Dictionary`
    * `Dictionary.find?`
    * `Dictionary.insert`
    * `Dictionary.ofList`

  Key statements include:
    * `Dictionary.find?_insert_self`
    * `Dictionary.find?_insert_of_ne`
-/

namespace Retarget

structure Dictionary (α : Type) where
  entries : List (String × α)
  deriving Repr, DecidableEq, Inhabited

namespace Dictionary

variable {α : Type}

def empty : Dictionary α :=
  ⟨[]⟩

def find? (d : Dictionary α) (key : String) : Option α :=
  (d.entries.find? fun e => e.1 == key).map Prod.snd

def contains (d : Dictionary α) (key : String) : Bool :=
  (d.find? key).isSome

def insertEntry (key : String) (value : α) :
    List (String × α) → List (String × α)
  | [] => [(key, value)]
  | (k, v) :: r =>
    match Text.order key k with
    | .lt => (key, value) :: (k, v) :: r
    | .eq => (key, value) :: r
    | .gt => (k, v) :: insertEntry key value r

/- Set the value of a key; an old value goes. -/
def insert
    (d : Dictionary α)
    (key : String)
    (value : α) : Dictionary α :=
  ⟨insertEntry key value d.entries⟩

def ofList (pairs : List (String × α)) : Dictionary α :=
  pairs.foldl (fun d (k, v) => d.insert k v) empty

def keys (d : Dictionary α) : List String :=
  d.entries.map Prod.fst

def values (d : Dictionary α) : List α :=
  d.entries.map Prod.snd

def size (d : Dictionary α) : Nat :=
  d.entries.length

------------------------------------------------------------
-- Looking up after an insertion
------------------------------------------------------------

theorem order_eq_iff
    {s t : String} :
    Text.order s t = .eq ↔ s = t := by
  unfold Text.order
  constructor
  · intro h
    split at h
    · cases h
    · split at h
      · assumption
      · cases h
  · intro h
    subst h
    rw [if_neg (String.lt_irrefl s), if_pos rfl]

theorem find?_insert_self
    (d : Dictionary α)
    (key : String)
    (value : α) :
    (d.insert key value).find? key = some value := by
  obtain ⟨entries⟩ := d
  simp only [find?, insert]
  induction entries with
  | nil => simp [insertEntry]
  | cons e r ih =>
    obtain ⟨k, v⟩ := e
    unfold insertEntry
    split
    · simp
    · simp
    · rename_i h
      have hne : k ≠ key := by
        intro hk
        subst hk
        rw [order_eq_iff.2 rfl] at h
        cases h
      have hb : (k == key) = false := by simpa using hne
      simp only [List.find?, hb]
      exact ih

theorem find?_insert_of_ne
    (d : Dictionary α)
    {key other : String}
    (value : α)
    (hne : other ≠ key) :
    (d.insert key value).find? other = d.find? other := by
  obtain ⟨entries⟩ := d
  simp only [find?, insert]
  have hne' : (key == other) = false := by
    simpa using Ne.symm hne
  induction entries with
  | nil => simp [insertEntry, List.find?, hne']
  | cons e r ih =>
    obtain ⟨k, v⟩ := e
    unfold insertEntry
    split
    · simp [List.find?, hne']
    · rename_i h
      have hk := order_eq_iff.1 h
      subst hk
      simp [List.find?, hne']
    · by_cases hk : k == other
      · simp [List.find?, hk]
      · simp only [List.find?, hk]
        exact ih

end Dictionary

end Retarget
