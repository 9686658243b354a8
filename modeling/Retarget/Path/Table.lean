import Retarget.Path.Order

/-
  This file defines finite maps from paths, kept in the
  order of the paths.  Two spellings of a path are one key,
  and the first spelling stays.

  Key definitions include:
    * `PathTable`
    * `PathTable.find?`
    * `PathTable.insert`
    * `PathTable.erase`

  Key statements include:
    * `PathTable.find?_insert`
    * `PathTable.entries_insert_perm`
-/

namespace Retarget

structure PathTable (α : Type) where
  entries : List (Path × α)
  deriving Repr, DecidableEq, Inhabited

namespace PathTable

variable {α : Type}

def empty : PathTable α :=
  ⟨[]⟩

def find? (t : PathTable α) (path : Path) : Option α :=
  (t.entries.find? fun e => e.1.same path).map Prod.snd

def contains (t : PathTable α) (path : Path) : Bool :=
  (t.find? path).isSome

def insertEntry (path : Path) (value : α) :
    List (Path × α) → List (Path × α)
  | [] => [(path, value)]
  | (p, v) :: r =>
    match path.order p with
    | .lt => (path, value) :: (p, v) :: r
    | .eq => (p, value) :: r
    | .gt => (p, v) :: insertEntry path value r

/- Set the value of a path; an old value goes. -/
def insert (t : PathTable α) (path : Path) (value : α) : PathTable α :=
  ⟨insertEntry path value t.entries⟩

def erase (t : PathTable α) (path : Path) : PathTable α :=
  ⟨t.entries.filter fun e => !e.1.same path⟩

def keys (t : PathTable α) : List Path :=
  t.entries.map Prod.fst

def values (t : PathTable α) : List α :=
  t.entries.map Prod.snd

def size (t : PathTable α) : Nat :=
  t.entries.length

------------------------------------------------------------
-- What is in a table
------------------------------------------------------------

variable {t : PathTable α}
variable {path q : Path}

theorem contains_iff :
    t.contains path = true ↔
      ∃ k ∈ t.keys, k.components = path.components := by
  simp [contains, find?, keys, Path.same]

theorem find?_insert
    (t : PathTable α)
    (path : Path)
    (value : α)
    (q : Path) :
    (t.insert path value).find? q =
      if path.same q then some value else t.find? q := by
  obtain ⟨entries⟩ := t
  simp only [insert, find?]
  induction entries with
  | nil => by_cases hq : path.same q <;> simp [insertEntry, hq]
  | cons e r ih =>
      unfold insertEntry
      split
      · by_cases hq : path.same q <;> simp [List.find?_cons, hq]
      · next hOrder =>
          -- The key that stays is another spelling of the path.
          have hSame : e.1.same q = path.same q := by
            simp only [Path.same, Path.order_eq_iff.mp hOrder]
          by_cases hq : path.same q <;> simp [hSame, hq]
      · next hOrder =>
          by_cases hq : path.same q
          · have hApart : e.1.same q = false := by
              rw [Bool.eq_false_iff]
              intro hBoth
              have hEq := Path.order_eq_iff.mpr
                ((Path.same_iff.mp hq).trans (Path.same_iff.mp hBoth).symm)
              rw [hEq] at hOrder
              cases hOrder
            simp only [hq, if_true] at ih ⊢
            simpa [List.find?_cons, hApart] using ih
          · simp only [hq] at ih ⊢
            by_cases he : e.1.same q <;> simp [he, ih]

/- A path that is new is entered beside all others. -/
theorem entries_insert_perm
    (h : t.contains path = false)
    (value : α) :
    (t.insert path value).entries.Perm ((path, value) :: t.entries) := by
  obtain ⟨entries⟩ := t
  simp only [insert]
  induction entries with
  | nil => exact List.Perm.refl _
  | cons e r ih =>
      have hHead : e.1.same path = false := by
        by_cases he : e.1.same path <;> simp_all [contains, find?]
      have hRest : contains ⟨r⟩ path = false := by
        simpa [contains, find?, List.find?_cons, hHead] using h
      unfold insertEntry
      split
      · exact List.Perm.refl _
      · next hOrder =>
          rw [Path.same, (Path.order_eq_iff.mp hOrder).symm] at hHead
          simp at hHead
      · exact ((ih hRest).cons e).trans (List.Perm.swap _ _ _)

theorem keys_insert_perm
    (h : t.contains path = false)
    (value : α) :
    (t.insert path value).keys.Perm (path :: t.keys) :=
  (entries_insert_perm h value).map Prod.fst

end PathTable

end Retarget
