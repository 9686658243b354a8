import Mathlib.Data.List.Nodup
import Mathlib.Logic.Relation
import Retarget.Files.Memory
import Retarget.Proofs.Project.Loading

/-
  This file shows that the upgrade order of a loaded graph
  follows its references.  Each project is listed once, and
  it comes after every project that it refers to, unless the
  two lie on a cycle.

  Key definitions include:
    * `ProjectGraph.IsKeyed`
    * `ProjectGraph.Refers`
    * `ProjectGraph.Steps`
    * `ProjectGraph.WalkInvariant`

  Key statements include:
    * `ProjectGraph.steps_walk`
    * `ProjectGraph.Steps.invariant`
    * `ProjectGraph.upgradeOrder_follows_references`
-/

namespace Retarget.ProjectGraph

variable {g : ProjectGraph}
variable {p q : Project}
variable {path r : Path}

------------------------------------------------------------
-- Projects and their keys
------------------------------------------------------------

/- The projects of a graph are entered under their own paths. -/
structure IsKeyed (g : ProjectGraph) : Prop where
  nodup : g.projects.keys.Nodup
  own : ∀ e ∈ g.projects.entries, e.2.path = e.1
  folded : ∀ e ∈ g.projects.entries, e.1.normalize = e.1

theorem isKeyed_of_load
    {files : FileView}
    {paths : List Path}
    (h : load files paths = .ok g) :
    g.IsKeyed where
  nodup := by
    rcases run_loadAll files (entryVisits paths) .empty with ⟨loaded, hRun⟩
    refine hRun.keys_nodup ?_ List.nodup_nil
    rw [← map_load_eq, h]
    rfl
  own := fun e he =>
    (Project.isAt_of_load ((loadInvariant_of_load h).projects e he)).path_eq
  folded := fun e he =>
    ((loadInvariant_of_load h).reached e.1
      (List.mem_map_of_mem he)).folded

namespace IsKeyed

theorem keys_eq
    (h : g.IsKeyed) :
    g.projects.keys = g.projects.values.map Project.path := by
  rw [PathTable.keys, PathTable.values, List.map_map]
  exact List.map_congr_left fun e he => (h.own e he).symm

theorem values_nodup
    (h : g.IsKeyed) :
    g.projects.values.Nodup := by
  refine List.Nodup.of_map Project.path ?_
  rw [← h.keys_eq]
  exact h.nodup

theorem find?_eq_some_iff
    (h : g.IsKeyed) :
    g.find? path = some p ↔
      p ∈ g.projects.values ∧ p.path.components = path.components := by
  unfold find? PathTable.find? PathTable.values
  rw [Option.map_eq_some_iff]
  constructor
  · rintro ⟨e, hFind, rfl⟩
    have hEntry := List.mem_of_find?_eq_some hFind
    refine ⟨List.mem_map_of_mem hEntry, ?_⟩
    rw [h.own e hEntry]
    have hSame := List.find?_some hFind
    exact Path.same_iff.mp hSame
  · rintro ⟨hValue, hPath⟩
    rcases List.mem_map.mp hValue with ⟨e, hEntry, rfl⟩
    rw [h.own e hEntry] at hPath
    have hSome : (g.projects.entries.find? fun e =>
        e.1.same path).isSome = true :=
      List.find?_isSome.mpr ⟨e, hEntry, Path.same_iff.mpr hPath⟩
    rcases Option.isSome_iff_exists.mp hSome with ⟨found, hFind⟩
    have hFound := List.mem_of_find?_eq_some hFind
    have hSame := List.find?_some hFind
    have hKey : found.1 = e.1 :=
      Path.eq_of_components_eq (h.folded found hFound) (h.folded e hEntry)
        ((Path.same_iff.mp hSame).trans hPath.symm)
    refine ⟨found, hFind, ?_⟩
    rw [List.inj_on_of_nodup_map h.nodup hFound hEntry hKey]

end IsKeyed

------------------------------------------------------------
-- References
------------------------------------------------------------

/- A project of the graph refers to another one. -/
def Refers (g : ProjectGraph) (p q : Project) : Prop :=
  p ∈ g.projects.values ∧
    ∃ r ∈ p.projectReferences, g.find? r = some q

/- A walk has been at a path. -/
def Walk.Has (w : Walk) (path : Path) : Prop :=
  ∃ k ∈ w.reached, k.components = path.components

/-
  What a walk to some paths, one after the other, makes of
  what was reached and done before.
-/
inductive Steps (g : ProjectGraph) : List Path → Walk → Walk → Prop where
  | finish {w : Walk} :
    Steps g [] w w
  | known {path : Path} {rest : List Path} {w last : Walk} :
    w.Has path →
    Steps g rest w last →
    Steps g (path :: rest) w last
  | outside {path : Path} {rest : List Path} {w last : Walk} :
    ¬ w.Has path →
    g.find? path = none →
    Steps g rest ⟨path :: w.reached, w.done⟩ last →
    Steps g (path :: rest) w last
  | project
      {path : Path} {rest : List Path} {p : Project}
      {w inner last : Walk} :
    ¬ w.Has path →
    g.find? path = some p →
    Steps g p.projectReferences ⟨path :: w.reached, w.done⟩ inner →
    Steps g rest ⟨inner.reached, inner.done ++ [p]⟩ last →
    Steps g (path :: rest) w last

theorem Walk.has_cons_iff
    {w : Walk} :
    Walk.Has ⟨path :: w.reached, w.done⟩ r ↔
      path.components = r.components ∨ w.Has r := by
  simp [Has]

theorem Steps.has
    {paths : List Path}
    {w last : Walk}
    (h : Steps g paths w last)
    (hHas : w.Has r) :
    last.Has r := by
  induction h with
  | finish => exact hHas
  | known _ _ ih => exact ih hHas
  | outside _ _ _ ih => exact ih (Walk.has_cons_iff.mpr (Or.inr hHas))
  | project _ _ _ _ ihInner ih =>
      exact ih (ihInner (Walk.has_cons_iff.mpr (Or.inr hHas)))

theorem Steps.has_of_mem
    {paths : List Path}
    {w last : Walk}
    (h : Steps g paths w last)
    (hMem : r ∈ paths) :
    last.Has r := by
  induction h with
  | finish => cases hMem
  | known hHas hRest ih =>
      rcases List.mem_cons.mp hMem with rfl | hLater
      · exact hRest.has hHas
      · exact ih hLater
  | outside _ _ hRest ih =>
      rcases List.mem_cons.mp hMem with rfl | hLater
      · exact hRest.has (Walk.has_cons_iff.mpr (Or.inl rfl))
      · exact ih hLater
  | project _ _ hInner hRest _ ih =>
      rcases List.mem_cons.mp hMem with rfl | hLater
      · exact hRest.has (hInner.has (Walk.has_cons_iff.mpr (Or.inl rfl)))
      · exact ih hLater

------------------------------------------------------------
-- The walk takes these steps
------------------------------------------------------------

/- How many projects a walk has not reached. -/
def unreached (g : ProjectGraph) (w : Walk) : Nat :=
  (g.projects.keys.filter fun k =>
    !w.reached.any fun p => p.same k).length

theorem Walk.any_same_iff
    {w : Walk} :
    (w.reached.any fun p => p.same path) = true ↔ w.Has path := by
  simp [Has, Path.same]

theorem unreached_le
    {w last : Walk}
    (h : ∀ r, w.Has r → last.Has r) :
    unreached g last ≤ unreached g w := by
  refine (List.monotone_filter_right g.projects.keys fun k hk => ?_).length_le
  rw [Bool.not_eq_true', Bool.eq_false_iff] at hk ⊢
  exact fun hHas => hk (Walk.any_same_iff.mpr (h k (Walk.any_same_iff.mp hHas)))

theorem unreached_cons_lt
    {w : Walk}
    (hNew : ¬ w.Has path)
    (hFound : g.find? path = some p) :
    unreached g ⟨path :: w.reached, w.done⟩ < unreached g w := by
  have hContains : g.projects.contains path = true := by
    rw [PathTable.contains]
    exact Option.isSome_iff_exists.mpr ⟨p, hFound⟩
  rcases PathTable.contains_iff.mp hContains with ⟨k, hKey, hSame⟩
  refine length_filter_lt (fun other _ hOther => ?_) hKey ?_ ?_
  · rw [Bool.not_eq_true', Bool.eq_false_iff] at hOther ⊢
    exact fun hHas => hOther (by simp [hHas])
  · rw [Bool.not_eq_true', Bool.eq_false_iff, ne_eq, Walk.any_same_iff]
    rintro ⟨r, hReached, hr⟩
    exact hNew ⟨r, hReached, hr.trans hSame⟩
  · simp [Path.same, hSame]

theorem walk_of_has
    {w : Walk}
    (n : Nat)
    (h : w.Has path) :
    g.walk (n + 1) path w = w := by
  rw [walk, if_pos (Walk.any_same_iff.mpr h)]

theorem walk_of_outside
    {w : Walk}
    (n : Nat)
    (h : ¬ w.Has path)
    (hFound : g.find? path = none) :
    g.walk (n + 1) path w = ⟨path :: w.reached, w.done⟩ := by
  rw [walk, if_neg (mt Walk.any_same_iff.mp h)]
  simp only [hFound]

theorem walk_of_project
    {w : Walk}
    (n : Nat)
    (h : ¬ w.Has path)
    (hFound : g.find? path = some p) :
    g.walk (n + 1) path w =
      let inner := p.projectReferences.foldl (fun w r => g.walk n r w)
        ⟨path :: w.reached, w.done⟩
      ⟨inner.reached, inner.done ++ [p]⟩ := by
  rw [walk, if_neg (mt Walk.any_same_iff.mp h)]
  simp only [hFound]

/- The depth that is allowed is never used up. -/
theorem steps_walk
    (n : Nat)
    (paths : List Path)
    (w : Walk)
    (h : unreached g w < n) :
    Steps g paths w (paths.foldl (fun w r => g.walk n r w) w) := by
  induction n generalizing paths w with
  | zero => exact absurd h (Nat.not_lt_zero _)
  | succ n ihDepth =>
      induction paths generalizing w with
      | nil => exact .finish
      | cons path rest ih =>
          have hCons : ∀ r, w.Has r →
              Walk.Has ⟨path :: w.reached, w.done⟩ r :=
            fun r hr => Walk.has_cons_iff.mpr (Or.inr hr)
          rw [List.foldl_cons]
          by_cases hHas : w.Has path
          · rw [walk_of_has n hHas]
            exact .known hHas (ih w h)
          · cases hFound : g.find? path with
            | none =>
                rw [walk_of_outside n hHas hFound]
                exact .outside hHas hFound
                  (ih _ (Nat.lt_of_le_of_lt (unreached_le hCons) h))
            | some p =>
                have hLess := unreached_cons_lt hHas hFound
                have hInner := ihDepth p.projectReferences
                  ⟨path :: w.reached, w.done⟩
                  (Nat.lt_of_lt_of_le hLess (Nat.le_of_lt_succ h))
                have hKept := unreached_le (g := g) fun r hr =>
                  hInner.has (hCons r hr)
                rw [walk_of_project n hHas hFound]
                exact .project hHas hFound hInner
                  (ih _ (Nat.lt_of_le_of_lt hKept h))

------------------------------------------------------------
-- The invariant of the walk
------------------------------------------------------------

/-
  What a walk keeps true.  The projects that were reached are
  done, or they are open because their references are still
  being followed; and what is done is in order.
-/
structure WalkInvariant
    (g : ProjectGraph)
    (opened : List Project)
    (w : Walk) : Prop where
  reached :
    ∀ path q, g.find? path = some q →
      (w.Has path ↔ q ∈ w.done ∨ q ∈ opened)
  members : ∀ q ∈ w.done, q ∈ g.projects.values
  nodup : w.done.Nodup
  apart : ∀ q ∈ w.done, q ∉ opened
  order :
    ∀ p ∈ w.done, ∀ q, g.Refers p q →
      ¬ Relation.TransGen g.Refers q p →
      [q, p].Sublist w.done

namespace WalkInvariant

variable {opened : List Project}
variable {w : Walk}

theorem start
    (g : ProjectGraph) :
    WalkInvariant g [] ⟨[], []⟩ where
  reached := by simp [Walk.Has]
  members := by simp
  nodup := List.nodup_nil
  apart := by simp
  order := by simp

/- A path that leads out of the graph changes nothing. -/
theorem outside
    (h : WalkInvariant g opened w)
    (hKeyed : g.IsKeyed)
    (hNone : g.find? path = none) :
    WalkInvariant g opened ⟨path :: w.reached, w.done⟩ where
  reached := fun r q hFound => by
    rw [Walk.has_cons_iff, ← h.reached r q hFound]
    refine or_iff_right fun hSame => ?_
    rw [hKeyed.find?_eq_some_iff, ← hSame, ← hKeyed.find?_eq_some_iff,
      hNone] at hFound
    cases hFound
  members := h.members
  nodup := h.nodup
  apart := h.apart
  order := h.order

theorem not_mem
    (h : WalkInvariant g opened w)
    (hNew : ¬ w.Has path)
    (hFound : g.find? path = some p) :
    p ∉ w.done ∧ p ∉ opened := by
  rw [h.reached path p hFound] at hNew
  exact not_or.mp hNew

/- A project is open while its references are followed. -/
theorem enter
    (h : WalkInvariant g opened w)
    (hKeyed : g.IsKeyed)
    (hNew : ¬ w.Has path)
    (hFound : g.find? path = some p) :
    WalkInvariant g (p :: opened) ⟨path :: w.reached, w.done⟩ where
  reached := fun r q hOther => by
    have hOwn := (hKeyed.find?_eq_some_iff.mp hFound).2
    have hOther' := (hKeyed.find?_eq_some_iff.mp hOther).2
    have hSame : path.components = r.components ↔ q = p := by
      constructor
      · intro hPath
        rw [hKeyed.find?_eq_some_iff, ← hPath,
          ← hKeyed.find?_eq_some_iff, hFound] at hOther
        exact (Option.some.inj hOther).symm
      · rintro rfl
        exact hOwn.symm.trans hOther'
    rw [Walk.has_cons_iff, h.reached r q hOther, hSame, List.mem_cons]
    exact or_left_comm
  members := h.members
  nodup := h.nodup
  apart := fun q hq hOpen => by
    rcases List.mem_cons.mp hOpen with rfl | hOld
    · exact (h.not_mem hNew hFound).1 hq
    · exact h.apart q hq hOld
  order := h.order

/-
  A project is done when all that it refers to is done or
  open and what is open leads to it.
-/
theorem leave
    (h : WalkInvariant g (p :: opened) w)
    (hMember : p ∈ g.projects.values)
    (hNew : p ∉ opened)
    (hOpen : ∀ s ∈ opened, Relation.TransGen g.Refers s p)
    (hDone :
      ∀ r ∈ p.projectReferences, ∀ q, g.find? r = some q →
        q ∈ w.done ∨ q ∈ p :: opened) :
    WalkInvariant g opened ⟨w.reached, w.done ++ [p]⟩ where
  reached := fun r q hFound => by
    have hHas := h.reached r q hFound
    rw [List.mem_append, List.mem_singleton, or_assoc, ← List.mem_cons]
    exact hHas
  members := fun q hq => by
    rcases List.mem_append.mp hq with hOld | hLast
    · exact h.members q hOld
    · exact List.mem_singleton.mp hLast ▸ hMember
  nodup := by
    refine List.nodup_append.mpr ⟨h.nodup, List.nodup_singleton p, ?_⟩
    rintro q hq _ hLast rfl
    exact h.apart q hq (List.mem_singleton.mp hLast ▸ List.mem_cons_self)
  apart := fun q hq hOld => by
    rcases List.mem_append.mp hq with hDone | hLast
    · exact h.apart q hDone (List.mem_cons_of_mem p hOld)
    · exact hNew (List.mem_singleton.mp hLast ▸ hOld)
  order := fun a ha b hRefers hApart => by
    rcases List.mem_append.mp ha with hOld | hLast
    · exact (h.order a hOld b hRefers hApart).trans
        (List.sublist_append_left w.done [p])
    · obtain rfl := List.mem_singleton.mp hLast
      rcases hRefers.2 with ⟨r, hRef, hFound⟩
      have hBefore : b ∈ w.done := by
        refine (hDone r hRef b hFound).resolve_right fun hOpened => ?_
        -- An open project leads back to the one that is done.
        rcases List.mem_cons.mp hOpened with rfl | hOld
        · exact hApart (.single hRefers)
        · exact hApart (hOpen b hOld)
      exact (List.singleton_sublist.mpr hBefore).append
        (List.Sublist.refl [a])

end WalkInvariant

/-
  A walk keeps the invariant if all open projects lead to the
  paths that it goes to.
-/
theorem Steps.invariant
    {opened : List Project}
    {paths : List Path}
    {w last : Walk}
    (h : Steps g paths w last)
    (hKeyed : g.IsKeyed)
    (hInv : WalkInvariant g opened w)
    (hOpen :
      ∀ r ∈ paths, ∀ q, g.find? r = some q →
        ∀ s ∈ opened, Relation.TransGen g.Refers s q) :
    WalkInvariant g opened last := by
  induction h generalizing opened with
  | finish => exact hInv
  | known _ _ ih => exact ih hInv (List.forall_mem_cons.mp hOpen).2
  | outside _ hNone _ ih =>
      exact ih (hInv.outside hKeyed hNone) (List.forall_mem_cons.mp hOpen).2
  | @project path rest p w inner last hNew hFound hInner hRest ihInner ih =>
      rcases List.forall_mem_cons.mp hOpen with ⟨hHere, hLater⟩
      have hMember := (hKeyed.find?_eq_some_iff.mp hFound).1
      have hInside : WalkInvariant g (p :: opened) inner := by
        refine ihInner (hInv.enter hKeyed hNew hFound) ?_
        intro r hRef q hNext s hs
        have hRefers : g.Refers p q := ⟨hMember, r, hRef, hNext⟩
        rcases List.mem_cons.mp hs with rfl | hOld
        · exact .single hRefers
        · exact (hHere p hFound s hOld).tail hRefers
      refine ih (hInside.leave hMember (hInv.not_mem hNew hFound).2
        (hHere p hFound) fun r hRef q hNext => ?_) hLater
      exact (hInside.reached r q hNext).mp (hInner.has_of_mem hRef)

------------------------------------------------------------
-- The upgrade order
------------------------------------------------------------

/- The upgrade order is what a walk to all keys leaves done. -/
theorem steps_upgradeOrder
    (g : ProjectGraph) :
    ∃ last, Steps g g.projects.keys ⟨[], []⟩ last ∧
      last.done = g.upgradeOrder := by
  refine ⟨_, steps_walk (g.size + 2) g.projects.keys ⟨[], []⟩ ?_, rfl⟩
  refine Nat.lt_of_le_of_lt (List.length_filter_le _ _) ?_
  simp [PathTable.keys, size, PathTable.size]

/-
  The upgrade order of a loaded graph lists each project
  once, after all projects that it refers to and that do not
  lead back to it.
-/
theorem upgradeOrder_follows_references
    {files : FileView}
    {paths : List Path}
    (h : load files paths = .ok g) :
    g.upgradeOrder.Perm g.projects.values ∧
      g.upgradeOrder.Nodup ∧
      ∀ p q, g.Refers p q →
        ¬ Relation.TransGen g.Refers q p →
        [q, p].Sublist g.upgradeOrder := by
  have hKeyed := isKeyed_of_load h
  rcases steps_upgradeOrder g with ⟨last, hSteps, hOrder⟩
  have hInv := hSteps.invariant hKeyed (.start g) (by simp)
  rw [← hOrder]
  have hMembers : ∀ q, q ∈ last.done ↔ q ∈ g.projects.values := by
    refine fun q => ⟨hInv.members q, fun hq => ?_⟩
    have hKey : q.path ∈ g.projects.keys :=
      hKeyed.keys_eq ▸ List.mem_map_of_mem hq
    have hFound := hKeyed.find?_eq_some_iff.mpr ⟨hq, rfl⟩
    refine ((hInv.reached q.path q hFound).mp ?_).resolve_right (by simp)
    exact hSteps.has_of_mem hKey
  refine ⟨?_, hInv.nodup, fun p q hRefers hApart => ?_⟩
  · exact (List.perm_ext_iff_of_nodup hInv.nodup hKeyed.values_nodup).mpr
      hMembers
  · exact hInv.order p ((hMembers p).mpr hRefers.1) q hRefers hApart

/- Two projects that refer to each other, and one below them. -/
namespace Cycle

def text (references : List String) : String :=
  "<Project><ItemGroup>" ++
    String.join (references.map fun r =>
      "<ProjectReference Include='" ++ r ++ "'/>") ++
    "</ItemGroup></Project>"

def files : FileView :=
  MemoryFiles.view <| .ofList ⟨"/"⟩
    [(⟨"a"⟩, text ["b"]),
      (⟨"b"⟩, text ["a", "c", "d"]),
      (⟨"c"⟩, text [])]

def project (path : Path) (references : List Path) : Project :=
  { Project.empty path with projectReferences := references }

def first : Project :=
  project ⟨"a"⟩ [⟨"b"⟩]

def second : Project :=
  project ⟨"b"⟩ [⟨"a"⟩, ⟨"c"⟩, ⟨"d"⟩]

def third : Project :=
  project ⟨"c"⟩ []

def graph : ProjectGraph where
  projects :=
    ⟨[(⟨"a"⟩, first), (⟨"b"⟩, second), (⟨"c"⟩, third)]⟩
  entryPoints := [⟨"a"⟩]

theorem run_graph :
    Run files (entryVisits [⟨"a"⟩]) .empty
      [⟨"a"⟩, ⟨"b"⟩, ⟨"c"⟩] (.ok graph.projects) := by
  have hEntry : entryVisits [⟨"a"⟩] = [⟨⟨"a"⟩, true⟩] := by
    decide
  have hFirst : freshVisits .empty first = [⟨⟨"b"⟩, false⟩] := by
    decide
  have hSecond :
      freshVisits (PathTable.empty.insert ⟨"a"⟩ first) second =
        [⟨⟨"c"⟩, false⟩, ⟨⟨"d"⟩, false⟩] := by
    decide
  have hTable :
      ((PathTable.empty.insert ⟨"a"⟩ first).insert
        ⟨"b"⟩ second).insert ⟨"c"⟩ third =
          graph.projects := by
    decide
  rw [hEntry, ← hTable]
  refine .add rfl (p := first) (by decide +kernel) ?_
  rw [hFirst]
  refine .add (by decide) (p := second) (by decide +kernel) ?_
  rw [hSecond]
  refine .add (by decide) (p := third) (by decide) ?_
  exact .skip (e := .unreadable ⟨"d"⟩ "File not found: \"/d\"")
    (by decide) (by decide +kernel) rfl .finish

theorem load_eq :
    load files [⟨"a"⟩] = .ok graph := by
  have hEntry : [(⟨"a"⟩ : Path)].map Path.normalize = [⟨"a"⟩] := by
    decide
  rw [load_eq_map, ← run_graph.result_eq, hEntry]
  rfl

theorem upgradeOrder_graph :
    load files [⟨"a"⟩] = .ok graph ∧
      graph.upgradeOrder.Perm [first, second, third] ∧
      [third, second].Sublist graph.upgradeOrder := by
  rcases upgradeOrder_follows_references load_eq with ⟨hPerm, _, hOrder⟩
  refine ⟨load_eq, hPerm, hOrder second third ?_ ?_⟩
  · exact ⟨by decide, ⟨"c"⟩, by decide, by decide⟩
  · intro hBack
    -- The project below refers to nothing.
    rcases Relation.TransGen.head'_iff.mp hBack with ⟨q, hRefers, _⟩
    rcases hRefers.2 with ⟨r, hNone, _⟩
    cases hNone

end Cycle

end Retarget.ProjectGraph
