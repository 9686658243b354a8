import Retarget.Path.Table
import Retarget.Project.Basic

/-
  This file defines the projects that some projects refer
  to, directly or not, and an order in which each project
  comes after those that it refers to.

  Key definitions include:
    * `ProjectGraph`
    * `ProjectGraph.load`
    * `ProjectGraph.dependents`
    * `ProjectGraph.upgradeOrder`

  Key statements include:
    * `ProjectGraph.unread_insert_lt`
-/

namespace Retarget

structure ProjectGraph where
  projects : PathTable Project
  /- The folded paths that the graph was asked for. -/
  entryPoints : List Path
  deriving Repr, Inhabited

namespace ProjectGraph

------------------------------------------------------------
-- Loading
------------------------------------------------------------

/- A path to visit, and whether the graph was asked for it. -/
structure Visit where
  path : Path
  isEntry : Bool
  deriving Repr, DecidableEq

/- What a class of members leaves out makes a list shorter. -/
theorem length_filter_lt
    {α : Type}
    {l : List α}
    {a : α}
    {isKept isOld : α → Bool}
    (hKept : ∀ x ∈ l, isKept x = true → isOld x = true)
    (hMem : a ∈ l)
    (hOld : isOld a = true)
    (hGone : isKept a = false) :
    (l.filter isKept).length < (l.filter isOld).length := by
  have hFewer :
      l.filter isKept = (l.filter isOld).filter isKept := by
    rw [List.filter_filter]
    refine List.filter_congr fun x hx => ?_
    cases hx' : isKept x with
    | false => rfl
    | true => rw [hKept x hx hx', Bool.and_self]
  rw [hFewer]
  exact List.length_filter_lt_length_iff_exists.mpr
    ⟨a, List.mem_filter.mpr ⟨hMem, hOld⟩, by rw [hGone]; decide⟩

/- How many places of readable files are not in a table yet. -/
noncomputable def unread
    (files : FileView)
    (found : PathTable Project) : Nat :=
  (files.places.filter fun place =>
    !found.keys.any fun k => k.components == place).length

/- What is loaded for the first time was not read before. -/
theorem unread_insert_lt
    {files : FileView}
    {path : Path}
    {p : Project}
    {found : PathTable Project}
    (hNew : found.contains path = false)
    (hLoad : Project.load files path = .ok p) :
    unread files (found.insert path p) < unread files found := by
  obtain ⟨text, hRead⟩ := Project.exists_read_of_load hLoad
  have hKeys := fun k =>
    (PathTable.keys_insert_perm hNew p).mem_iff (a := k)
  refine length_filter_lt (fun place _ hPlace => ?_)
    (FileView.mem_places hRead) ?_ ?_
  · simp only [Bool.not_eq_true', List.any_eq_false, hKeys,
      List.mem_cons] at hPlace ⊢
    exact fun k hk => hPlace k (Or.inr hk)
  · rw [Bool.eq_false_iff, ne_eq, PathTable.contains_iff] at hNew
    simpa using hNew
  · simp [hKeys]

/-
  Visit paths in the order in which they were found.  A path
  that was only referred to may be unreadable.
-/
def loadAll
    (files : FileView)
    (visits : List Visit)
    (found : PathTable Project) :
    Except ProjectError (PathTable Project) :=
  match visits with
  | [] => .ok found
  | v :: rest =>
    if found.contains v.path then loadAll files rest found
    else
      match hLoad : Project.load files v.path with
      | .error e =>
        if v.isEntry then .error e else loadAll files rest found
      | .ok p =>
        let fresh := p.projectReferences.filter fun r =>
          !found.contains r
        loadAll files (rest ++ fresh.map fun r => ⟨r, false⟩)
          (found.insert v.path p)
termination_by (unread files found, visits.length)
decreasing_by
  · exact Prod.Lex.right _ (Nat.lt_succ_self _)
  · exact Prod.Lex.right _ (Nat.lt_succ_self _)
  · next hNew =>
      exact Prod.Lex.left _ _
        (unread_insert_lt (Bool.eq_false_iff.mpr hNew) hLoad)

/-
  The graph below some project files, each of which must be
  readable.
-/
def load (files : FileView) (paths : List Path) :
    Except ProjectError ProjectGraph := do
  let entryPoints := paths.map Path.normalize
  let projects ← loadAll files
    (entryPoints.map fun p => ⟨p, true⟩) .empty
  return ⟨projects, entryPoints⟩

variable (g : ProjectGraph)

def size : Nat :=
  g.projects.size

def isEmpty : Bool :=
  g.projects.size == 0

def find? (path : Path) : Option Project :=
  g.projects.find? path

/- The projects that refer to a path. -/
def dependents (path : Path) : List Project :=
  g.projects.values.filter fun p =>
    p.projectReferences.any fun r => r.same path

------------------------------------------------------------
-- Order
------------------------------------------------------------

/- The paths that were reached and the projects that are done. -/
structure Walk where
  reached : List Path
  done : List Project

/-
  Go to a path and then to all that its project refers to,
  unless it was reached before; the project is done last.
  The number bounds the depth.
-/
def walk : Nat → Path → Walk → Walk
  | 0, _, w => w
  | n + 1, path, w =>
    if w.reached.any fun p => p.same path then w
    else
      let w := { w with reached := path :: w.reached }
      match g.find? path with
      | none => w
      | some p =>
        let w := p.projectReferences.foldl (fun w r => walk n r w) w
        { w with done := w.done ++ [p] }

/-
  Each project after those that it refers to; projects that
  refer to each other come in the order of their paths.
-/
def upgradeOrder : List Project :=
  let start : Walk := ⟨[], []⟩
  (g.projects.keys.foldl
    (fun w path => g.walk (g.size + 2) path w) start).done

end ProjectGraph

end Retarget
