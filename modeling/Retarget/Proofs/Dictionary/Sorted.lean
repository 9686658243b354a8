import Mathlib.Data.List.Nodup
import Mathlib.Data.String.Basic
import Retarget.Proofs.Dictionary

/-
  This file describes dictionaries by their keys.  All that
  are filled entry by entry have their keys in ascending
  order, and such a dictionary is known by what is found in
  it.

  Key definitions include:
    * `Dictionary.IsSorted`
    * `Dictionary.restrict`

  Key statements include:
    * `Dictionary.isSorted_ofList`
    * `Dictionary.IsSorted.mem_entries_iff`
    * `Dictionary.IsSorted.ext`
    * `Dictionary.find?_restrict`
-/

namespace Retarget.Dictionary

variable {α : Type}
variable {d d' : Dictionary α}
variable {key : String}
variable {value : α}

------------------------------------------------------------
-- Ascending keys
------------------------------------------------------------

/- The keys ascend, so none of them occurs twice. -/
def IsSorted (d : Dictionary α) : Prop :=
  d.entries.Pairwise fun a b => a.1 < b.1

theorem lt_of_order_eq_lt
    {s t : String}
    (h : Text.order s t = .lt) :
    s < t := by
  unfold Text.order at h
  split at h
  · assumption
  · split at h <;> cases h

theorem lt_of_order_eq_gt
    {s t : String}
    (h : Text.order s t = .gt) :
    t < s := by
  unfold Text.order at h
  split at h
  · cases h
  · next hNotLess =>
      split at h
      · cases h
      · next hNe => exact (lt_or_gt_of_ne hNe).resolve_left hNotLess

theorem mem_insertEntry
    {entries : List (String × α)}
    {e : String × α}
    (h : e ∈ insertEntry key value entries) :
    e = (key, value) ∨ e ∈ entries := by
  induction entries with
  | nil => exact Or.inl (List.mem_singleton.mp h)
  | cons first rest ih =>
      unfold insertEntry at h
      split at h
      · exact List.mem_cons.mp h
      · exact (List.mem_cons.mp h).imp_right (List.mem_cons_of_mem _)
      · rcases List.mem_cons.mp h with rfl | hRest
        · exact Or.inr List.mem_cons_self
        · exact (ih hRest).imp_right (List.mem_cons_of_mem _)

theorem isSorted_empty :
    (empty : Dictionary α).IsSorted :=
  List.Pairwise.nil

/- Setting a value keeps the keys in order. -/
theorem IsSorted.insert
    (h : d.IsSorted)
    (key : String)
    (value : α) :
    (d.insert key value).IsSorted := by
  obtain ⟨entries⟩ := d
  change (insertEntry key value entries).Pairwise fun a b => a.1 < b.1
  change entries.Pairwise fun a b => a.1 < b.1 at h
  induction entries with
  | nil => exact List.pairwise_singleton _ _
  | cons first rest ih =>
      rcases List.pairwise_cons.mp h with ⟨hFirst, hRest⟩
      unfold insertEntry
      split
      · next hOrder =>
          have hLess := lt_of_order_eq_lt hOrder
          refine List.pairwise_cons.mpr ⟨fun e he => ?_, h⟩
          rcases List.mem_cons.mp he with rfl | hLater
          · exact hLess
          · exact hLess.trans (hFirst e hLater)
      · next hOrder =>
          obtain rfl := order_eq_iff.mp hOrder
          exact List.pairwise_cons.mpr ⟨hFirst, hRest⟩
      · next hOrder =>
          refine List.pairwise_cons.mpr ⟨fun e he => ?_, ih hRest⟩
          rcases mem_insertEntry he with rfl | hLater
          · exact lt_of_order_eq_gt hOrder
          · exact hFirst e hLater

theorem isSorted_ofList
    (pairs : List (String × α)) :
    (ofList pairs).IsSorted := by
  have hFold : ∀ d : Dictionary α, d.IsSorted →
      (pairs.foldl (fun d e => d.insert e.1 e.2) d).IsSorted := by
    induction pairs with
    | nil => exact fun _ h => h
    | cons e rest ih => exact fun d h => ih _ (h.insert e.1 e.2)
  exact hFold empty isSorted_empty

------------------------------------------------------------
-- What is found
------------------------------------------------------------

theorem IsSorted.nodup_keys
    (h : d.IsSorted) :
    d.keys.Nodup := by
  rw [keys, List.Nodup, List.pairwise_map]
  exact List.Pairwise.imp ne_of_lt h

/- Every entry is the one that its key finds. -/
theorem IsSorted.mem_entries_iff
    (h : d.IsSorted) :
    (key, value) ∈ d.entries ↔ d.find? key = some value := by
  constructor
  · intro hMem
    have hFound : d.entries.find? (fun e => e.1 == key) = some (key, value) :=
      find?_eq_some_of_only hMem (beq_self_eq_true key) fun e he hKey =>
        List.inj_on_of_nodup_map h.nodup_keys he hMem (eq_of_beq hKey)
    rw [find?, hFound]
    rfl
  · intro hFound
    rcases Option.map_eq_some_iff.mp hFound with ⟨e, hEntry, rfl⟩
    have hKey := List.find?_some hEntry
    obtain rfl : e.1 = key := eq_of_beq hKey
    exact List.mem_of_find?_eq_some hEntry

/- Sorted dictionaries are the same if they find the same. -/
theorem IsSorted.ext
    (h : d.IsSorted)
    (h' : d'.IsSorted)
    (hFind : ∀ key, d.find? key = d'.find? key) :
    d = d' := by
  have hPerm : d.entries.Perm d'.entries := by
    refine (List.perm_ext_iff_of_nodup (.of_map _ h.nodup_keys)
      (.of_map _ h'.nodup_keys)).mpr ?_
    rintro ⟨key, value⟩
    rw [h.mem_entries_iff, h'.mem_entries_iff, hFind]
  have hEntries : d.entries = d'.entries :=
    hPerm.eq_of_pairwise (fun _ _ _ _ hab hba => absurd hba (lt_asymm hab)) h h'
  cases d
  cases d'
  exact congrArg mk hEntries

------------------------------------------------------------
-- Some of the keys
------------------------------------------------------------

/- The entries of some keys. -/
def restrict (d : Dictionary α) (keys : List String) : Dictionary α :=
  ⟨d.entries.filter fun e => keys.contains e.1⟩

theorem IsSorted.restrict
    (h : d.IsSorted)
    (keys : List String) :
    (d.restrict keys).IsSorted :=
  List.Pairwise.filter _ h

theorem find?_restrict
    (d : Dictionary α)
    (keys : List String)
    (key : String) :
    (d.restrict keys).find? key =
      if keys.contains key then d.find? key else none := by
  rw [find?, restrict, List.find?_filter, find?]
  cases hKept : keys.contains key with
  | true =>
      have hMem : key ∈ keys := List.contains_iff_mem.mp hKept
      rw [if_pos rfl]
      congr 2
      funext e
      by_cases hKey : e.1 = key
      · simp [hKey, hMem]
      · simp [hKey]
  | false =>
      rw [if_neg Bool.false_ne_true, Option.map_eq_none_iff,
        List.find?_eq_none]
      intro e _ hBoth
      rcases of_decide_eq_true hBoth with ⟨hMem, hKey⟩
      rw [eq_of_beq hKey, hKept] at hMem
      cases hMem

end Retarget.Dictionary
