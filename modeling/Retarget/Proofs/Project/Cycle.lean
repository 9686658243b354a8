import Retarget.Proofs.Path.Sorted
import Retarget.Proofs.Project.Order

/-
  This file shows where the members of a cycle stand in the
  upgrade order.  Their paths do not decide it.  The walk
  comes to a cycle from the first project that leads to it,
  and a member through which all ways from there to another
  one pass comes after the other one.

  Key definitions include:
    * `ProjectGraph.LeadsAround`
    * `ProjectGraph.IsFirstTo`
    * `ProjectGraph.Untouched`

  Key statements include:
    * `ProjectGraph.isSorted_of_load`
    * `ProjectGraph.Steps.mem_done_of_has`
    * `ProjectGraph.Steps.mem_done_of_turn`
    * `ProjectGraph.Steps.untouched_or_ordered`
    * `ProjectGraph.upgradeOrder_on_cycle`
-/

namespace Retarget.ProjectGraph

variable {g : ProjectGraph}
variable {a b e p q : Project}
variable {path r : Path}
variable {paths : List Path}
variable {w inner last : Walk}

------------------------------------------------------------
-- Keys in the order of paths
------------------------------------------------------------

theorem Run.isSorted
    {files : FileView}
    {visits : List Visit}
    {found table : PathTable Project}
    {loaded : List Path}
    {result : Except ProjectError (PathTable Project)}
    (h : Run files visits found loaded result)
    (hResult : result = .ok table)
    (hFound : found.IsSorted) :
    table.IsSorted := by
  induction h with
  | finish =>
      cases hResult
      exact hFound
  | known _ _ ih => exact ih hResult hFound
  | fail _ _ _ => cases hResult
  | skip _ _ _ _ ih => exact ih hResult hFound
  | @add v _ _ p _ _ _ _ _ ih => exact ih hResult (hFound.insert v.path p)

theorem isSorted_of_load
    {files : FileView}
    (h : load files paths = .ok g) :
    g.projects.IsSorted := by
  rcases run_loadAll files (entryVisits paths) .empty with ⟨loaded, hRun⟩
  refine hRun.isSorted ?_ PathTable.isSorted_empty
  rw [← map_load_eq, h]
  rfl

------------------------------------------------------------
-- Chains of references
------------------------------------------------------------

/- A project leads to another one by references that avoid a third. -/
def LeadsAround (g : ProjectGraph) (b p q : Project) : Prop :=
  p ≠ b ∧ Relation.ReflTransGen (fun x y => g.Refers x y ∧ y ≠ b) p q

/- Of all projects that lead to another one the first in path order. -/
structure IsFirstTo (g : ProjectGraph) (e p : Project) : Prop where
  mem : e ∈ g.projects.values
  leads : Relation.ReflTransGen g.Refers e p
  first :
    ∀ q ∈ g.projects.values, q.path.order e.path = .lt →
      ¬ Relation.ReflTransGen g.Refers q p

theorem LeadsAround.leads
    (h : g.LeadsAround b p q) :
    Relation.ReflTransGen g.Refers p q :=
  Relation.ReflTransGen.mono (fun _ _ hStep => hStep.1) p q h.2

theorem LeadsAround.head
    (h : g.LeadsAround b q a)
    (hRefers : g.Refers p q)
    (hApart : p ≠ b) :
    g.LeadsAround b p a :=
  ⟨hApart, h.2.head ⟨hRefers, h.1⟩⟩

/- The last part of a chain from a project does not come back to it. -/
theorem exists_leadsAround
    (h : Relation.TransGen g.Refers b a)
    (hApart : a ≠ b) :
    ∃ q, g.Refers b q ∧ g.LeadsAround b q a := by
  suffices hAll : ∀ x, Relation.TransGen g.Refers x a →
      g.LeadsAround b x a ∨ ∃ q, g.Refers b q ∧ g.LeadsAround b q a from
    (hAll b h).resolve_left fun hAround => hAround.1 rfl
  intro x hx
  have hStep : ∀ x y, g.Refers x y → g.LeadsAround b y a →
      g.LeadsAround b x a ∨ ∃ q, g.Refers b q ∧ g.LeadsAround b q a := by
    intro x y hRefers hAround
    by_cases hTurn : x = b
    · exact Or.inr ⟨y, hTurn ▸ hRefers, hAround⟩
    · exact Or.inl (hAround.head hRefers hTurn)
  induction hx using Relation.TransGen.head_induction_on with
  | single hRefers => exact hStep _ a hRefers ⟨hApart, .refl⟩
  | head hRefers _ ih => exact ih.elim (hStep _ _ hRefers) Or.inr

theorem Refers.mem_right
    (h : g.Refers p q)
    (hKeyed : g.IsKeyed) :
    q ∈ g.projects.values := by
  rcases h.2 with ⟨r, _, hFound⟩
  exact (hKeyed.find?_eq_some_iff.mp hFound).1

/- Both ends of a chain of references are projects of the graph. -/
theorem IsKeyed.mem_of_transGen
    (hKeyed : g.IsKeyed)
    (h : Relation.TransGen g.Refers p q) :
    p ∈ g.projects.values ∧ q ∈ g.projects.values := by
  rcases Relation.TransGen.head'_iff.mp h with ⟨_, hFirst, _⟩
  rcases Relation.TransGen.tail'_iff.mp h with ⟨_, _, hLast⟩
  exact ⟨hFirst.1, hLast.mem_right hKeyed⟩

theorem IsKeyed.find?_path
    (hKeyed : g.IsKeyed)
    (h : p ∈ g.projects.values) :
    g.find? p.path = some p :=
  hKeyed.find?_eq_some_iff.mpr ⟨h, rfl⟩

theorem LeadsAround.mem
    (h : g.LeadsAround b p a)
    (hMember : a ∈ g.projects.values) :
    p ∈ g.projects.values := by
  rcases h.2.cases_head with rfl | ⟨q, hStep, _⟩
  · exact hMember
  · exact hStep.1.1

------------------------------------------------------------
-- What a walk reaches
------------------------------------------------------------

theorem Walk.has_congr
    (h : path.components = r.components) :
    w.Has path ↔ w.Has r := by
  rw [Walk.Has, Walk.Has, h]

theorem find?_congr
    (h : path.components = r.components) :
    g.find? path = g.find? r := by
  simp only [find?, PathTable.find?, Path.same, h]

namespace Steps

theorem done_prefix
    (h : Steps g paths w last) :
    w.done <+: last.done := by
  induction h with
  | finish => exact List.prefix_rfl
  | known _ _ ih => exact ih
  | outside _ _ _ ih => exact ih
  | project _ _ _ _ ihInner ih =>
      exact ihInner.trans ((List.prefix_append _ _).trans ih)

/-
  A project that a walk newly reaches is done when it ends,
  and what the project refers to is reached as well.
-/
theorem mem_done_of_has
    (h : Steps g paths w last)
    (hFound : g.find? path = some q)
    (hHas : last.Has path)
    (hNew : ¬ w.Has path) :
    q ∈ last.done ∧ ∀ r ∈ q.projectReferences, last.Has r := by
  induction h with
  | finish => exact absurd hHas hNew
  | known _ _ ih => exact ih hHas hNew
  | outside _ hNone _ ih =>
      refine ih hHas fun hCons => ?_
      rcases Walk.has_cons_iff.mp hCons with hSame | hOld
      · rw [find?_congr hSame, hFound] at hNone
        cases hNone
      · exact hNew hOld
  | @project key rest p w inner last _ hOwn hInner hRest ihInner ih =>
      by_cases hInside : Walk.Has ⟨inner.reached, inner.done ++ [p]⟩ path
      · suffices hEnd : q ∈ inner.done ++ [p] ∧
            ∀ r ∈ q.projectReferences, inner.Has r from
          ⟨hRest.done_prefix.subset hEnd.1,
            fun r hRef => hRest.has (hEnd.2 r hRef)⟩
        by_cases hHere : Walk.Has ⟨key :: w.reached, w.done⟩ path
        · -- Only the project itself is reached before its references.
          have hSame := (Walk.has_cons_iff.mp hHere).resolve_right hNew
          rw [find?_congr hSame, hFound] at hOwn
          obtain rfl := Option.some.inj hOwn
          exact ⟨List.mem_append_right _ (List.mem_singleton_self q),
            fun r hRef => hInner.has_of_mem hRef⟩
        · rcases ihInner hInside hHere with ⟨hDone, hRefs⟩
          exact ⟨List.mem_append_left _ hDone, hRefs⟩
      · exact ih hHas hInside

theorem append
    {first rest : List Path}
    (h : Steps g (first ++ rest) w last) :
    ∃ middle, Steps g first w middle ∧ Steps g rest middle last := by
  induction first generalizing w with
  | nil => exact ⟨w, .finish, h⟩
  | cons path more ih =>
      cases h with
      | known hHas hRest =>
          rcases ih hRest with ⟨middle, hFirst, hLast⟩
          exact ⟨middle, .known hHas hFirst, hLast⟩
      | outside hNew hNone hRest =>
          rcases ih hRest with ⟨middle, hFirst, hLast⟩
          exact ⟨middle, .outside hNew hNone hFirst, hLast⟩
      | project hNew hFound hInner hRest =>
          rcases ih hRest with ⟨middle, hFirst, hLast⟩
          exact ⟨middle, .project hNew hFound hInner hFirst, hLast⟩

/- A chain of references is followed to its end. -/
theorem has_of_leads
    (h : Steps g paths ⟨[], []⟩ last)
    (hKeyed : g.IsKeyed)
    (hLeads : Relation.ReflTransGen g.Refers p q)
    (hHas : last.Has p.path) :
    last.Has q.path := by
  induction hLeads with
  | refl => exact hHas
  | tail _ hRefers ih =>
      rcases hRefers.2 with ⟨r, hRef, hFound⟩
      have hSame := (hKeyed.find?_eq_some_iff.mp hFound).2
      rw [Walk.has_congr hSame]
      exact (h.mem_done_of_has (hKeyed.find?_path hRefers.1) ih
        (by simp [Walk.Has])).2 r hRef

end Steps

------------------------------------------------------------
-- Before the turn
------------------------------------------------------------

/-
  A walk has not been at the turn `b`, nor at a project that
  leads to `a` around it.
-/
structure Untouched
    (g : ProjectGraph)
    (a b : Project)
    (w : Walk) : Prop where
  turn : ¬ w.Has b.path
  around : ∀ q, g.LeadsAround b q a → ¬ w.Has q.path

/- Going to another path leaves the turn and the ways around it. -/
theorem Untouched.cons
    (h : g.Untouched a b w)
    (hTurn : b.path.components ≠ path.components)
    (hAround :
      ∀ q, g.LeadsAround b q a → q.path.components ≠ path.components) :
    g.Untouched a b ⟨path :: w.reached, w.done⟩ where
  turn hHas :=
    (Walk.has_cons_iff.mp hHas).elim (fun hSame => hTurn hSame.symm) h.turn
  around q hq hHas :=
    (Walk.has_cons_iff.mp hHas).elim (fun hSame => hAround q hq hSame.symm)
      (h.around q hq)

namespace Steps

/-
  When the references of the turn are followed, nothing that
  leads to `a` around it has been reached, so `a` is done.
-/
theorem mem_done_of_turn
    (h : Steps g b.projectReferences ⟨path :: w.reached, w.done⟩ inner)
    (hKeyed : g.IsKeyed)
    (hFound : g.find? path = some b)
    (hUntouched : g.Untouched a b w)
    (hBack : Relation.TransGen g.Refers b a)
    (hApart : a ≠ b) :
    a ∈ inner.done := by
  have hMember := (hKeyed.mem_of_transGen hBack).2
  have hNew : ∀ q, g.LeadsAround b q a →
      ¬ Walk.Has ⟨path :: w.reached, w.done⟩ q.path := by
    intro q hq hHas
    rcases Walk.has_cons_iff.mp hHas with hSame | hOld
    · rw [find?_congr hSame, hKeyed.find?_path (hq.mem hMember)] at hFound
      exact hq.1 (Option.some.inj hFound)
    · exact hUntouched.around q hq hOld
  have hNext : ∀ x y, g.Refers x y →
      (∀ r ∈ x.projectReferences, inner.Has r) → inner.Has y.path := by
    intro x y hRefers hHas
    rcases hRefers.2 with ⟨r, hRef, hOther⟩
    rw [Walk.has_congr (hKeyed.find?_eq_some_iff.mp hOther).2]
    exact hHas r hRef
  rcases exists_leadsAround hBack hApart with ⟨q, hRefers, hStart, hChain⟩
  have hFirst := hNext b q hRefers fun r hRef => h.has_of_mem hRef
  clear hRefers
  -- Along the chain each project is new, so its references are reached.
  induction hChain using Relation.ReflTransGen.head_induction_on with
  | refl =>
      exact (h.mem_done_of_has (hKeyed.find?_path hMember) hFirst
        (hNew a ⟨hApart, .refl⟩)).1
  | @head x y hStep hRest ih =>
      have hHere : g.LeadsAround b x a := ⟨hStart, hRest.head hStep⟩
      refine ih hStep.2 (hNext x y hStep.1 fun r hRef => ?_)
      exact (h.mem_done_of_has (hKeyed.find?_path hStep.1.1) hFirst
        (hNew x hHere)).2 r hRef

/-
  As long as a walk does not go to what leads to `a` around
  the turn, it leaves both alone or has done them in order.
-/
theorem untouched_or_ordered
    (h : Steps g paths w last)
    (hKeyed : g.IsKeyed)
    (hBack : Relation.TransGen g.Refers b a)
    (hApart : a ≠ b)
    (hUntouched : g.Untouched a b w)
    (hPaths :
      ∀ r ∈ paths, ∀ q, g.find? r = some q → ¬ g.LeadsAround b q a) :
    g.Untouched a b last ∨ [a, b].Sublist last.done := by
  rcases hKeyed.mem_of_transGen hBack with ⟨hTurnMember, hMember⟩
  have hOther : ∀ path q, q ∈ g.projects.values → g.find? path ≠ some q →
      q.path.components ≠ path.components := fun path q hq hNot hSame =>
    hNot ((find?_congr hSame).symm.trans (hKeyed.find?_path hq))
  induction h with
  | finish => exact Or.inl hUntouched
  | known _ _ ih => exact ih hUntouched (List.forall_mem_cons.mp hPaths).2
  | @outside path rest w last _ hNone _ ih =>
      have hNot : ∀ q, g.find? path ≠ some q := fun q hSome => by
        rw [hNone] at hSome
        cases hSome
      refine ih (hUntouched.cons (hOther path b hTurnMember (hNot b)) ?_)
        (List.forall_mem_cons.mp hPaths).2
      exact fun q hq => hOther path q (hq.mem hMember) (hNot q)
  | @project path rest p w inner last hNew hFound hInner hRest ihInner ih =>
      rcases List.forall_mem_cons.mp hPaths with ⟨hHere, hLater⟩
      by_cases hTurn : p = b
      · subst hTurn
        have hDone := hInner.mem_done_of_turn hKeyed hFound hUntouched hBack
          hApart
        refine Or.inr (List.Sublist.trans ?_ hRest.done_prefix.sublist)
        exact (List.singleton_sublist.mpr hDone).append (List.Sublist.refl [p])
      · have hNot : ∀ q, q ≠ p → g.find? path ≠ some q := fun q hq hSome =>
          hq (Option.some.inj (hSome.symm.trans hFound))
        have hEntered : g.Untouched a b ⟨path :: w.reached, w.done⟩ := by
          refine hUntouched.cons
            (hOther path b hTurnMember (hNot b (Ne.symm hTurn))) fun q hq => ?_
          refine hOther path q (hq.mem hMember) (hNot q ?_)
          rintro rfl
          exact hHere q hFound hq
        have hBelow : ∀ r ∈ p.projectReferences, ∀ q, g.find? r = some q →
            ¬ g.LeadsAround b q a := by
          intro r hRef q hNext hq
          refine hHere p hFound (hq.head ⟨?_, r, hRef, hNext⟩ hTurn)
          exact (hKeyed.find?_eq_some_iff.mp hFound).1
        rcases ihInner hEntered hBelow with hInside | hOrdered
        · exact ih ⟨hInside.turn, hInside.around⟩ hLater
        · exact Or.inr ((hOrdered.trans (List.sublist_append_left _ _)).trans
            hRest.done_prefix.sublist)

end Steps

------------------------------------------------------------
-- The upgrade order on a cycle
------------------------------------------------------------

theorem order_congr
    {s t : Path}
    (hPath : path.components = s.components)
    (hOther : r.components = t.components) :
    path.order r = s.order t := by
  rw [Path.order, Path.order, hPath, hOther]

/-
  If all ways to `a` from the first project that leads to `b`
  pass through `b`, and `a` leads to `b` and `b` to `a`, then
  `a` comes first.
-/
theorem sublist_of_entry
    {files : FileView}
    (h : load files paths = .ok g)
    (hOn : Relation.TransGen g.Refers a b)
    (hBack : Relation.TransGen g.Refers b a)
    (hApart : a ≠ b)
    (hFirst : g.IsFirstTo e b)
    (hEntry : ¬ g.LeadsAround b e a) :
    [a, b].Sublist g.upgradeOrder := by
  have hKeyed := isKeyed_of_load h
  have hSorted := isSorted_of_load h
  have hKey : e.path ∈ g.projects.keys :=
    hKeyed.keys_eq ▸ List.mem_map_of_mem hFirst.mem
  rcases steps_upgradeOrder g with ⟨last, hSteps, hOrder⟩
  rcases List.append_of_mem hKey with ⟨before, after, hKeys⟩
  have hList : g.projects.keys = (before ++ [e.path]) ++ after := by
    rw [hKeys, List.append_assoc]
    rfl
  rw [PathTable.IsSorted, hKeys, List.pairwise_append] at hSorted
  rw [hList] at hSteps
  rcases hSteps.append with ⟨middle, hBefore, hAfter⟩
  have hStart : g.Untouched a b ⟨[], []⟩ :=
    ⟨by simp [Walk.Has], by simp [Walk.Has]⟩
  have hPaths : ∀ r ∈ before ++ [e.path], ∀ q, g.find? r = some q →
      ¬ g.LeadsAround b q a := by
    intro r hr q hFound hAround
    rcases hKeyed.find?_eq_some_iff.mp hFound with ⟨hMember, hPath⟩
    rcases List.mem_append.mp hr with hEarly | hLast
    · -- An earlier project does not lead to the cycle at all.
      refine hFirst.first q hMember ?_ (hAround.leads.trans hOn.to_reflTransGen)
      rw [order_congr hPath rfl]
      exact hSorted.2.2 r hEarly e.path List.mem_cons_self
    · obtain rfl := List.mem_singleton.mp hLast
      rw [hKeyed.find?_path hFirst.mem] at hFound
      exact hEntry (Option.some.inj hFound ▸ hAround)
  rcases hBefore.untouched_or_ordered hKeyed hBack hApart hStart hPaths with
    hUntouched | hOrdered
  · refine absurd ?_ hUntouched.turn
    exact hBefore.has_of_leads hKeyed hFirst.leads
      (hBefore.has_of_mem (List.mem_append_right _ List.mem_cons_self))
  · rw [← hOrder]
    exact hOrdered.trans hAfter.done_prefix.sublist

/-
  Two members of a cycle of a loaded graph come in the order
  that the way into the cycle gives them, whatever their
  paths are: the one that all ways to the other one pass
  through, from the first project that leads there, is last.
-/
theorem upgradeOrder_on_cycle
    {files : FileView}
    (h : load files paths = .ok g)
    (hOn : Relation.TransGen g.Refers a b)
    (hBack : Relation.TransGen g.Refers b a)
    (hApart : a ≠ b)
    (hFirst : g.IsFirstTo e a) :
    (¬ g.LeadsAround b e a → [a, b].Sublist g.upgradeOrder) ∧
      (¬ g.LeadsAround a e b → [b, a].Sublist g.upgradeOrder) := by
  have hFirstTurn : g.IsFirstTo e b :=
    ⟨hFirst.mem, hFirst.leads.trans hOn.to_reflTransGen, fun q hq hLess hLeads =>
      hFirst.first q hq hLess (hLeads.trans hBack.to_reflTransGen)⟩
  exact ⟨sublist_of_entry h hOn hBack hApart hFirstTurn,
    sublist_of_entry h hBack hOn hApart.symm hFirst⟩

namespace Cycle

theorem refers_first_second :
    graph.Refers first second :=
  ⟨by decide, ⟨"b"⟩, by decide, by decide⟩

theorem refers_second_first :
    graph.Refers second first :=
  ⟨by decide, ⟨"a"⟩, by decide, by decide⟩

/- The walk enters the cycle at the project of the first path. -/
theorem isFirstTo_first :
    graph.IsFirstTo first first := by
  have hLeast : ∀ q ∈ graph.projects.values,
      q.path.order first.path ≠ .lt := by
    decide
  exact ⟨by decide, .refl, fun q hq hLess _ => hLeast q hq hLess⟩

theorem upgradeOrder_on_cycle_of_pair :
    load files [⟨"a"⟩] = .ok graph ∧
      Relation.TransGen graph.Refers first second ∧
      Relation.TransGen graph.Refers second first ∧
      first.path.order second.path = .lt ∧
      graph.IsFirstTo first first ∧
      [second, first].Sublist graph.upgradeOrder := by
  have hOn := Relation.TransGen.single refers_first_second
  have hBack := Relation.TransGen.single refers_second_first
  refine ⟨load_eq, hOn, hBack, by decide, isFirstTo_first, ?_⟩
  exact (upgradeOrder_on_cycle load_eq hOn hBack (by decide)
    isFirstTo_first).2 fun h => h.1 rfl

/- Path order would have the first project of the cycle first. -/
theorem not_sublist_upgradeOrder :
    load files [⟨"a"⟩] = .ok graph ∧
      Relation.TransGen graph.Refers first second ∧
      Relation.TransGen graph.Refers second first ∧
      first.path.order second.path = .lt ∧
      ¬ [first, second].Sublist graph.upgradeOrder := by
  refine ⟨load_eq, .single refers_first_second, .single refers_second_first,
    by decide, ?_⟩
  have hOrder : graph.upgradeOrder = [third, second, first] := by
    decide
  rw [hOrder]
  decide

end Cycle

end Retarget.ProjectGraph
