import Retarget.Path.Table

/-
  This file shows that a table of paths has its keys in the
  order of the paths, however it is filled.

  Key definitions include:
    * `PathTable.IsSorted`

  Key statements include:
    * `PathTable.IsSorted.insert`
-/

namespace Retarget.PathTable

variable {α : Type}
variable {t : PathTable α}
variable {path : Path}
variable {value : α}

/- The keys ascend, so no path has two spellings among them. -/
def IsSorted (t : PathTable α) : Prop :=
  t.keys.Pairwise fun p q => p.order q = .lt

theorem isSorted_empty :
    (empty : PathTable α).IsSorted :=
  List.Pairwise.nil

/- An old value of a path goes, but the spelling of its key stays. -/
theorem mem_keys_insertEntry
    {entries : List (Path × α)}
    {k : Path}
    (h : k ∈ (insertEntry path value entries).map Prod.fst) :
    k = path ∨ k ∈ entries.map Prod.fst := by
  induction entries with
  | nil => exact Or.inl (List.mem_singleton.mp h)
  | cons first rest ih =>
      unfold insertEntry at h
      split at h
      · exact List.mem_cons.mp h
      · exact Or.inr h
      · rcases List.mem_cons.mp h with rfl | hRest
        · exact Or.inr List.mem_cons_self
        · exact (ih hRest).imp_right (List.mem_cons_of_mem _)

theorem IsSorted.insert
    (h : t.IsSorted)
    (path : Path)
    (value : α) :
    (t.insert path value).IsSorted := by
  obtain ⟨entries⟩ := t
  change ((insertEntry path value entries).map Prod.fst).Pairwise
    fun p q => p.order q = .lt
  change (entries.map Prod.fst).Pairwise fun p q => p.order q = .lt at h
  induction entries with
  | nil => exact List.pairwise_singleton _ _
  | cons first rest ih =>
      rw [List.map_cons, List.pairwise_cons] at h
      rcases h with ⟨hFirst, hRest⟩
      unfold insertEntry
      split
      · next hOrder =>
          refine List.pairwise_cons.mpr ⟨fun k hk => ?_,
            List.pairwise_cons.mpr ⟨hFirst, hRest⟩⟩
          rcases List.mem_cons.mp hk with rfl | hLater
          · exact hOrder
          · exact Std.TransCmp.lt_trans hOrder (hFirst k hLater)
      · exact List.pairwise_cons.mpr ⟨hFirst, hRest⟩
      · next hOrder =>
          refine List.pairwise_cons.mpr ⟨fun k hk => ?_, ih hRest⟩
          rcases mem_keys_insertEntry hk with rfl | hLater
          · exact Std.OrientedCmp.lt_of_gt hOrder
          · exact hFirst k hLater

end Retarget.PathTable
