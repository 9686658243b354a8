import Retarget.Files.Memory
import Retarget.Project.Graph
import Retarget.Proofs.Project.Reading

/-
  This file shows what the loading of a graph finds.  It
  ends for all files; it fails as the first entry fails; and
  else it loads each project once that can be reached from
  the entries through projects that can be loaded.

  Key definitions include:
    * `ProjectGraph.Loads`
    * `ProjectGraph.Reachable`
    * `ProjectGraph.Run`
    * `ProjectGraph.LoadInvariant`

  Key statements include:
    * `ProjectGraph.run_loadAll`
    * `ProjectGraph.LoadInvariant.run`
    * `ProjectGraph.LoadInvariant.run_eq_error_iff`
    * `ProjectGraph.load_eq_error_iff`
    * `ProjectGraph.load_exact`
-/

namespace Retarget.ProjectGraph

variable {files : FileView}
variable {paths : List Path}
variable {visits rest : List Visit}
variable {v : Visit}
variable {found : PathTable Project}
variable {loaded : List Path}
variable {result : Except ProjectError (PathTable Project)}

------------------------------------------------------------
-- Reachable projects
------------------------------------------------------------

/- A project can be loaded from a path. -/
def Loads (files : FileView) (path : Path) : Prop :=
  ∃ p, Project.load files path = .ok p

/-
  The least set that has the folded entries and, for each
  project of the set, all that it refers to and that can be
  loaded.
-/
inductive Reachable (files : FileView) (paths : List Path) : Path → Prop where
  | entry {path : Path} :
    path ∈ paths →
    Reachable files paths path.normalize
  | reference {path r : Path} {p : Project} :
    Reachable files paths path →
    Project.load files path = .ok p →
    r ∈ p.projectReferences →
    Loads files r →
    Reachable files paths r

theorem Reachable.folded
    {path : Path}
    (h : Reachable files paths path) :
    path.normalize = path := by
  cases h with
  | entry _ => exact Path.normalize_idem _
  | reference _ hLoad hRef _ => exact (Project.isAt_of_load hLoad).folded _ hRef

------------------------------------------------------------
-- Runs of the loop
------------------------------------------------------------

/- The visits to the entries of a graph. -/
def entryVisits (paths : List Path) : List Visit :=
  paths.map fun path => ⟨path.normalize, true⟩

/- The visits that a project adds to those that wait. -/
def freshVisits (found : PathTable Project) (p : Project) : List Visit :=
  (p.projectReferences.filter fun r => !found.contains r).map fun r =>
    ⟨r, false⟩

/-
  All runs of the loop from some visits and a table to a
  result, with the paths whose projects are loaded on the
  way.
-/
inductive Run (files : FileView) :
    List Visit →
    PathTable Project →
    List Path →
    Except ProjectError (PathTable Project) →
    Prop where
  | finish {found : PathTable Project} :
    Run files [] found [] (.ok found)
  | known
      {v : Visit} {rest : List Visit} {found : PathTable Project}
      {loaded : List Path}
      {result : Except ProjectError (PathTable Project)} :
    found.contains v.path = true →
    Run files rest found loaded result →
    Run files (v :: rest) found loaded result
  | fail
      {v : Visit} {rest : List Visit} {found : PathTable Project}
      {e : ProjectError} :
    found.contains v.path = false →
    Project.load files v.path = .error e →
    v.isEntry = true →
    Run files (v :: rest) found [] (.error e)
  | skip
      {v : Visit} {rest : List Visit} {found : PathTable Project}
      {e : ProjectError} {loaded : List Path}
      {result : Except ProjectError (PathTable Project)} :
    found.contains v.path = false →
    Project.load files v.path = .error e →
    v.isEntry = false →
    Run files rest found loaded result →
    Run files (v :: rest) found loaded result
  | add
      {v : Visit} {rest : List Visit} {found : PathTable Project}
      {p : Project} {loaded : List Path}
      {result : Except ProjectError (PathTable Project)} :
    found.contains v.path = false →
    Project.load files v.path = .ok p →
    Run files (rest ++ freshVisits found p) (found.insert v.path p)
      loaded result →
    Run files (v :: rest) found (v.path :: loaded) result

theorem loadAll_of_known
    (hKnown : found.contains v.path = true) :
    loadAll files (v :: rest) found = loadAll files rest found := by
  rw [loadAll, if_pos hKnown]

theorem loadAll_of_error
    {e : ProjectError}
    (hNew : found.contains v.path = false)
    (hLoad : Project.load files v.path = .error e) :
    loadAll files (v :: rest) found =
      if v.isEntry then .error e else loadAll files rest found := by
  rw [loadAll, if_neg (Bool.eq_false_iff.mp hNew)]
  split
  · next hOther =>
      rw [hLoad] at hOther
      cases hOther
      rfl
  · next hOther =>
      rw [hLoad] at hOther
      cases hOther

theorem loadAll_of_ok
    {p : Project}
    (hNew : found.contains v.path = false)
    (hLoad : Project.load files v.path = .ok p) :
    loadAll files (v :: rest) found =
      loadAll files (rest ++ freshVisits found p)
        (found.insert v.path p) := by
  rw [loadAll, if_neg (Bool.eq_false_iff.mp hNew)]
  split
  · next hOther =>
      rw [hLoad] at hOther
      cases hOther
  · next hOther =>
      rw [hLoad] at hOther
      cases hOther
      rfl

/- The loop ends, whatever it starts with. -/
theorem run_loadAll
    (files : FileView)
    (visits : List Visit)
    (found : PathTable Project) :
    ∃ loaded, Run files visits found loaded (loadAll files visits found) := by
  induction visits, found using loadAll.induct files with
  | case1 found =>
      rw [loadAll]
      exact ⟨[], .finish⟩
  | case2 found v rest hKnown ih =>
      rcases ih with ⟨loaded, hRun⟩
      rw [loadAll_of_known hKnown]
      exact ⟨loaded, .known hKnown hRun⟩
  | case3 found v rest hNew e hLoad hEntry =>
      rw [Bool.not_eq_true] at hNew
      rw [loadAll_of_error hNew hLoad, if_pos hEntry]
      exact ⟨[], .fail hNew hLoad hEntry⟩
  | case4 found v rest hNew e hLoad hEntry ih =>
      rw [Bool.not_eq_true] at hNew hEntry
      rcases ih with ⟨loaded, hRun⟩
      rw [loadAll_of_error hNew hLoad, hEntry]
      exact ⟨loaded, .skip hNew hLoad hEntry hRun⟩
  | case5 found v rest hNew p hLoad fresh ih =>
      rw [Bool.not_eq_true] at hNew
      rcases ih with ⟨loaded, hRun⟩
      rw [loadAll_of_ok hNew hLoad]
      exact ⟨v.path :: loaded, .add hNew hLoad hRun⟩

/- No other result is possible. -/
theorem Run.result_eq
    (h : Run files visits found loaded result) :
    result = loadAll files visits found := by
  induction h with
  | finish => rw [loadAll]
  | known hKnown _ ih => rw [loadAll_of_known hKnown, ih]
  | fail hNew hLoad hEntry =>
      rw [loadAll_of_error hNew hLoad, if_pos hEntry]
  | skip hNew hLoad hEntry _ ih =>
      rw [loadAll_of_error hNew hLoad, hEntry, ih]
      rfl
  | add hNew hLoad _ ih => rw [loadAll_of_ok hNew hLoad, ih]

/- Each path that is loaded is a new key of the table. -/
theorem Run.keys_perm
    {table : PathTable Project}
    (h : Run files visits found loaded result)
    (hResult : result = .ok table) :
    table.keys.Perm (loaded ++ found.keys) := by
  induction h with
  | finish =>
      cases hResult
      exact List.Perm.refl _
  | known _ _ ih => exact ih hResult
  | fail _ _ _ => cases hResult
  | skip _ _ _ _ ih => exact ih hResult
  | @add v rest found p loaded result hNew hLoad _ ih =>
      exact (ih hResult).trans <|
        ((PathTable.keys_insert_perm hNew p).append_left loaded).trans
          List.perm_middle

theorem Run.keys_nodup
    {table : PathTable Project}
    (h : Run files visits found loaded result)
    (hResult : result = .ok table)
    (hFound : found.keys.Nodup) :
    table.keys.Nodup := by
  induction h with
  | finish =>
      cases hResult
      exact hFound
  | known _ _ ih => exact ih hResult hFound
  | fail _ _ _ => cases hResult
  | skip _ _ _ _ ih => exact ih hResult hFound
  | @add v rest found p loaded result hNew hLoad _ ih =>
      refine ih hResult
        ((PathTable.keys_insert_perm hNew p).nodup_iff.mpr ?_)
      refine List.nodup_cons.mpr ⟨fun hKey => ?_, hFound⟩
      rw [PathTable.contains_iff.mpr ⟨v.path, hKey, rfl⟩] at hNew
      cases hNew

------------------------------------------------------------
-- The invariant of the loop
------------------------------------------------------------

/-
  What the loop keeps true.  Nothing is found or waits that
  cannot be reached; and what can be reached from the entries
  and from what was found was found itself or still waits.
-/
structure LoadInvariant
    (files : FileView)
    (paths : List Path)
    (visits : List Visit)
    (found : PathTable Project) : Prop where
  reached : ∀ path ∈ found.keys, Reachable files paths path
  projects : ∀ e ∈ found.entries, Project.load files e.1 = .ok e.2
  folded : ∀ v ∈ visits, v.path.normalize = v.path
  reachable :
    ∀ v ∈ visits, Loads files v.path → Reachable files paths v.path
  entries :
    ∀ path ∈ paths,
      path.normalize ∈ found.keys ∨ ⟨path.normalize, true⟩ ∈ visits
  references :
    ∀ e ∈ found.entries, ∀ r ∈ e.2.projectReferences,
      Loads files r → r ∈ found.keys ∨ ⟨r, false⟩ ∈ visits

namespace LoadInvariant

theorem start
    (files : FileView)
    (paths : List Path) :
    LoadInvariant files paths (entryVisits paths) .empty where
  reached := fun path hPath => by cases hPath
  projects := fun e he => by cases he
  folded := fun v hv => by
    rcases List.mem_map.mp hv with ⟨path, _, rfl⟩
    exact Path.normalize_idem path
  reachable := fun v hv _ => by
    rcases List.mem_map.mp hv with ⟨path, hPath, rfl⟩
    exact .entry hPath
  entries := fun path hPath =>
    Or.inr (List.mem_map.mpr ⟨path, hPath, rfl⟩)
  references := fun e he => by cases he

/- A folded path that the table contains is a key as it is. -/
theorem mem_keys
    (h : LoadInvariant files paths visits found)
    {path : Path}
    (hFolded : path.normalize = path)
    (hKnown : found.contains path = true) :
    path ∈ found.keys := by
  rcases PathTable.contains_iff.mp hKnown with ⟨k, hKey, hSame⟩
  rwa [← Path.eq_of_components_eq (h.reached k hKey).folded hFolded hSame]

theorem loads_of_mem_keys
    (h : LoadInvariant files paths visits found)
    {path : Path}
    (hKey : path ∈ found.keys) :
    Loads files path := by
  rcases List.mem_map.mp hKey with ⟨e, he, rfl⟩
  exact ⟨e.2, h.projects e he⟩

/- A visit is over once its path is found or cannot be loaded. -/
theorem pass
    (h : LoadInvariant files paths (v :: rest) found)
    (hEntry : v.isEntry = true → v.path ∈ found.keys)
    (hLoads : Loads files v.path → v.path ∈ found.keys) :
    LoadInvariant files paths rest found where
  reached := h.reached
  projects := h.projects
  folded := fun w hw => h.folded w (List.mem_cons_of_mem v hw)
  reachable := fun w hw => h.reachable w (List.mem_cons_of_mem v hw)
  entries := fun path hPath => by
    rcases h.entries path hPath with hFound | hWait
    · exact Or.inl hFound
    · rcases List.mem_cons.mp hWait with rfl | hRest
      · exact Or.inl (hEntry rfl)
      · exact Or.inr hRest
  references := fun e he r hr hLoad => by
    rcases h.references e he r hr hLoad with hFound | hWait
    · exact Or.inl hFound
    · rcases List.mem_cons.mp hWait with rfl | hRest
      · exact Or.inl (hLoads hLoad)
      · exact Or.inr hRest

theorem known
    (h : LoadInvariant files paths (v :: rest) found)
    (hKnown : found.contains v.path = true) :
    LoadInvariant files paths rest found := by
  have hKey := h.mem_keys (h.folded v List.mem_cons_self) hKnown
  exact h.pass (fun _ => hKey) fun _ => hKey

theorem skip
    {e : ProjectError}
    (h : LoadInvariant files paths (v :: rest) found)
    (hLoad : Project.load files v.path = .error e)
    (hEntry : v.isEntry = false) :
    LoadInvariant files paths rest found := by
  refine h.pass (fun hTrue => ?_) ?_
  · rw [hEntry] at hTrue
    cases hTrue
  · rintro ⟨p, hOther⟩
    rw [hLoad] at hOther
    cases hOther

theorem add
    {p : Project}
    (h : LoadInvariant files paths (v :: rest) found)
    (hNew : found.contains v.path = false)
    (hLoad : Project.load files v.path = .ok p) :
    LoadInvariant files paths (rest ++ freshVisits found p)
      (found.insert v.path p) := by
  have hKeys := fun k =>
    (PathTable.keys_insert_perm hNew p).mem_iff (a := k)
  have hEntries := fun e =>
    (PathTable.entries_insert_perm hNew p).mem_iff (a := e)
  have hReached := h.reachable v List.mem_cons_self ⟨p, hLoad⟩
  have hFresh : ∀ w ∈ freshVisits found p, w.path ∈ p.projectReferences := by
    intro w hw
    rcases List.mem_map.mp hw with ⟨r, hr, rfl⟩
    exact (List.mem_filter.mp hr).1
  have hMove : ∀ w ∈ v :: rest,
      w.path ∈ (found.insert v.path p).keys ∨
        w ∈ rest ++ freshVisits found p := by
    intro w hw
    rcases List.mem_cons.mp hw with rfl | hRest
    · exact Or.inl ((hKeys _).mpr List.mem_cons_self)
    · exact Or.inr (List.mem_append_left _ hRest)
  have hKeep : ∀ k ∈ found.keys, k ∈ (found.insert v.path p).keys :=
    fun k hk => (hKeys k).mpr (List.mem_cons_of_mem v.path hk)
  refine ⟨?reached, ?projects, ?folded, ?reachable, ?entries, ?references⟩
  case reached =>
    intro path hPath
    rcases List.mem_cons.mp ((hKeys path).mp hPath) with rfl | hOld
    · exact hReached
    · exact h.reached path hOld
  case projects =>
    intro e he
    rcases List.mem_cons.mp ((hEntries e).mp he) with rfl | hOld
    · exact hLoad
    · exact h.projects e hOld
  case folded =>
    intro w hw
    rcases List.mem_append.mp hw with hRest | hNext
    · exact h.folded w (List.mem_cons_of_mem v hRest)
    · exact (Project.isAt_of_load hLoad).folded _ (hFresh w hNext)
  case reachable =>
    intro w hw hLoads
    rcases List.mem_append.mp hw with hRest | hNext
    · exact h.reachable w (List.mem_cons_of_mem v hRest) hLoads
    · exact .reference hReached hLoad (hFresh w hNext) hLoads
  case entries =>
    intro path hPath
    rcases h.entries path hPath with hFound | hWait
    · exact Or.inl (hKeep _ hFound)
    · exact hMove _ hWait
  case references =>
    intro e he r hr hLoads
    rcases List.mem_cons.mp ((hEntries e).mp he) with rfl | hOld
    · -- What is not fresh was found before the project itself.
      by_cases hKnown : found.contains r = true
      · have hFolded := (Project.isAt_of_load hLoad).folded r hr
        exact Or.inl (hKeep r (h.mem_keys hFolded hKnown))
      · refine Or.inr (List.mem_append_right rest ?_)
        exact List.mem_map.mpr
          ⟨r, List.mem_filter.mpr ⟨hr, by simpa using hKnown⟩, rfl⟩
    · rcases h.references e hOld r hr hLoads with hFound | hWait
      · exact Or.inl (hKeep r hFound)
      · exact hMove _ hWait

/- The loop keeps its invariant to its end. -/
theorem run
    {table : PathTable Project}
    (hRun : Run files visits found loaded result)
    (hResult : result = .ok table)
    (h : LoadInvariant files paths visits found) :
    LoadInvariant files paths [] table := by
  induction hRun with
  | finish =>
      cases hResult
      exact h
  | known hKnown _ ih => exact ih hResult (h.known hKnown)
  | fail _ _ _ => cases hResult
  | skip _ hLoad hEntry _ ih => exact ih hResult (h.skip hLoad hEntry)
  | add hNew hLoad _ ih => exact ih hResult (h.add hNew hLoad)

/- What is found when nothing waits is all that can be reached. -/
theorem mem_keys_iff
    (h : LoadInvariant files paths [] found)
    (path : Path) :
    path ∈ found.keys ↔ Reachable files paths path := by
  refine ⟨h.reached path, fun hReach => ?_⟩
  induction hReach with
  | entry hPath => exact (h.entries _ hPath).resolve_right (by simp)
  | @reference path r p _ hLoad hRef hLoads ih =>
      rcases List.mem_map.mp ih with ⟨e, he, rfl⟩
      have hProject := h.projects e he
      rw [hLoad] at hProject
      cases hProject
      exact (h.references e he r hRef hLoads).resolve_right (by simp)

end LoadInvariant

------------------------------------------------------------
-- Failing entries
------------------------------------------------------------

/- How the visit of an entry fails. -/
def failure? (files : FileView) (v : Visit) : Option ProjectError :=
  if v.isEntry then
    match Project.load files v.path with
    | .ok _ => none
    | .error e => some e
  else none

theorem failure?_of_loads
    (h : Loads files v.path) :
    failure? files v = none := by
  rcases h with ⟨p, hLoad⟩
  simp [failure?, hLoad]

theorem failure?_of_not_entry
    (h : v.isEntry = false) :
    failure? files v = none := by
  simp [failure?, h]

theorem failure?_entry_eq_some_iff
    {path : Path}
    {e : ProjectError} :
    failure? files ⟨path, true⟩ = some e ↔
      Project.load files path = .error e := by
  unfold failure?
  cases hLoad : Project.load files path <;> simp

theorem failure?_entry_eq_none_iff
    {path : Path} :
    failure? files ⟨path, true⟩ = none ↔ Loads files path := by
  unfold failure? Loads
  cases hLoad : Project.load files path <;> simp

/- The loop fails as the first of its entries does that fails. -/
theorem LoadInvariant.run_eq_error_iff
    {e : ProjectError}
    (hRun : Run files visits found loaded result)
    (h : LoadInvariant files paths visits found) :
    result = .error e ↔ visits.findSome? (failure? files) = some e := by
  induction hRun with
  | finish => simp
  | @known v rest found loaded result hKnown _ ih =>
      have hKey := h.mem_keys (h.folded v List.mem_cons_self) hKnown
      rw [ih (h.known hKnown), List.findSome?_cons,
        failure?_of_loads (h.loads_of_mem_keys hKey)]
  | fail _ hLoad hEntry =>
      simp [failure?, hLoad, hEntry]
  | skip _ hLoad hEntry _ ih =>
      rw [ih (h.skip hLoad hEntry), List.findSome?_cons,
        failure?_of_not_entry hEntry]
  | @add v rest found p loaded result hNew hLoad _ ih =>
      have hFresh :
          (freshVisits found p).findSome? (failure? files) = none := by
        refine List.findSome?_eq_none_iff.mpr fun w hw => ?_
        rcases List.mem_map.mp hw with ⟨r, _, rfl⟩
        exact failure?_of_not_entry rfl
      rw [ih (h.add hNew hLoad), List.findSome?_append, hFresh,
        List.findSome?_cons, failure?_of_loads ⟨p, hLoad⟩, Option.or_none]

------------------------------------------------------------
-- Loaded graphs
------------------------------------------------------------

theorem load_eq_map
    (files : FileView)
    (paths : List Path) :
    load files paths =
      (loadAll files (entryVisits paths) .empty).map fun found =>
        ⟨found, paths.map Path.normalize⟩ := by
  have hVisits :
      ((paths.map Path.normalize).map fun p => Visit.mk p true) =
        entryVisits paths := by
    rw [List.map_map]
    rfl
  rw [load, hVisits]
  cases loadAll files (entryVisits paths) .empty <;> rfl

theorem map_load_eq
    (files : FileView)
    (paths : List Path) :
    (load files paths).map projects =
      loadAll files (entryVisits paths) .empty := by
  rw [load_eq_map]
  cases loadAll files (entryVisits paths) .empty <;> rfl

theorem loadInvariant_of_load
    {g : ProjectGraph}
    (h : load files paths = .ok g) :
    LoadInvariant files paths [] g.projects := by
  rcases run_loadAll files (entryVisits paths) .empty with ⟨loaded, hRun⟩
  refine (LoadInvariant.start files paths).run hRun ?_
  rw [← map_load_eq, h]
  rfl

theorem load_eq_error_iff
    {e : ProjectError} :
    load files paths = .error e ↔
      ∃ before path after,
        paths = before ++ path :: after ∧
          (∀ q ∈ before, Loads files q.normalize) ∧
            Project.load files path.normalize = .error e := by
  rcases run_loadAll files (entryVisits paths) .empty with ⟨loaded, hRun⟩
  have hFirst := (LoadInvariant.start files paths).run_eq_error_iff hRun
    (e := e)
  have hLoad : load files paths = .error e ↔
      loadAll files (entryVisits paths) .empty = .error e := by
    rw [← map_load_eq]
    cases load files paths <;> simp [Except.map]
  rw [hLoad, hFirst, entryVisits, List.findSome?_map,
    List.findSome?_eq_some_iff]
  simp only [Function.comp_apply, failure?_entry_eq_some_iff,
    failure?_entry_eq_none_iff]
  refine exists_congr fun before => exists_congr fun path =>
    exists_congr fun after => and_congr_right fun _ => ?_
  exact and_comm

theorem isOk_load_iff :
    (∃ g, load files paths = .ok g) ↔
      ∀ path ∈ paths, Loads files path.normalize := by
  constructor
  · rintro ⟨g, hGraph⟩ path hPath
    have hInv := loadInvariant_of_load hGraph
    exact hInv.loads_of_mem_keys ((hInv.mem_keys_iff _).mpr (.entry hPath))
  · intro hLoads
    cases hGraph : load files paths with
    | ok g => exact ⟨g, rfl⟩
    | error e =>
        rcases load_eq_error_iff.mp hGraph with
          ⟨before, path, after, hPaths, _, hError⟩
        rcases hLoads path (by simp [hPaths]) with ⟨p, hLoad⟩
        rw [hLoad] at hError
        cases hError

/-
  Loading ends for all files and paths.  It succeeds if all
  entries can be loaded and fails as the first that cannot.
  A loaded graph has what can be reached, under folded paths,
  and on the way to it each project is loaded once.
-/
theorem load_exact
    (files : FileView)
    (paths : List Path) :
    (∃ loaded,
        Run files (entryVisits paths) .empty loaded
          ((load files paths).map projects)) ∧
      ((∃ g, load files paths = .ok g) ↔
        ∀ path ∈ paths, Loads files path.normalize) ∧
      (∀ e, load files paths = .error e ↔
        ∃ before path after,
          paths = before ++ path :: after ∧
            (∀ q ∈ before, Loads files q.normalize) ∧
              Project.load files path.normalize = .error e) ∧
      ∀ g, load files paths = .ok g →
        (∀ path, path ∈ g.projects.keys ↔ Reachable files paths path) ∧
        (∀ path ∈ g.projects.keys, path.normalize = path) ∧
        (∀ path p, (path, p) ∈ g.projects.entries →
          Project.load files path = .ok p) ∧
        ∀ loaded result,
          Run files (entryVisits paths) .empty loaded result →
            loaded.Nodup ∧ loaded.Perm g.projects.keys := by
  refine ⟨?ends, isOk_load_iff, fun e => load_eq_error_iff, ?graph⟩
  case ends =>
    rw [map_load_eq]
    exact run_loadAll files (entryVisits paths) .empty
  case graph =>
    intro g hGraph
    have hInv := loadInvariant_of_load hGraph
    refine ⟨hInv.mem_keys_iff, fun path hKey => (hInv.reached path hKey).folded,
      fun path p he => hInv.projects (path, p) he, fun loaded result hRun => ?_⟩
    have hResult : result = .ok g.projects := by
      rw [hRun.result_eq, ← map_load_eq, hGraph]
      rfl
    have hPerm := hRun.keys_perm hResult
    have hNodup := hRun.keys_nodup hResult List.nodup_nil
    have hNone : (PathTable.empty : PathTable Project).keys = [] := rfl
    rw [hNone, List.append_nil] at hPerm
    exact ⟨hPerm.nodup_iff.mp hNodup, hPerm.symm⟩

/- A project that refers to another one. -/
namespace Pair

def view : FileView :=
  MemoryFiles.view <|
    .ofList ⟨"/"⟩
      [(⟨"A.csproj"⟩,
        "<Project><ItemGroup><ProjectReference Include=\"B.csproj\"/>" ++
          "</ItemGroup></Project>"),
        (⟨"B.csproj"⟩, "<Project/>")]

theorem load_eq :
    (Project.load view ⟨"/A.csproj"⟩).toOption.map
        Project.projectReferences = some [⟨"/B.csproj"⟩] ∧
      (Project.load view ⟨"/B.csproj"⟩).toOption.map
        Project.projectReferences = some [] := by
  decide +kernel

/- The graph of the first project holds the second one. -/
theorem load_exact_of_reference :
    ∃ g, load view [⟨"/A.csproj"⟩] = .ok g ∧
      ⟨"/A.csproj"⟩ ∈ g.projects.keys ∧ ⟨"/B.csproj"⟩ ∈ g.projects.keys := by
  have hLoads : ∀ {path : Path} {rs : List Path},
      (Project.load view path).toOption.map Project.projectReferences =
        some rs →
      ∃ p, Project.load view path = .ok p ∧ p.projectReferences = rs := by
    intro path rs h
    cases hLoad : Project.load view path with
    | error e => simp [hLoad, Except.toOption] at h
    | ok p => exact ⟨p, rfl, by simpa [hLoad, Except.toOption] using h⟩
  rcases hLoads load_eq.1 with ⟨first, hFirst, hRefs⟩
  rcases hLoads load_eq.2 with ⟨second, hSecond, -⟩
  have hFolded : Path.normalize ⟨"/A.csproj"⟩ = ⟨"/A.csproj"⟩ := by decide
  rcases load_exact view [⟨"/A.csproj"⟩] with ⟨-, hOk, -, hGraph⟩
  rcases hOk.mpr (List.forall_mem_singleton.mpr
    ⟨first, hFolded.symm ▸ hFirst⟩) with ⟨g, hLoad⟩
  have hEntry : Reachable view [⟨"/A.csproj"⟩] ⟨"/A.csproj"⟩ :=
    hFolded ▸ .entry List.mem_cons_self
  have hReference : Reachable view [⟨"/A.csproj"⟩] ⟨"/B.csproj"⟩ :=
    .reference hEntry hFirst (hRefs ▸ List.mem_cons_self) ⟨second, hSecond⟩
  rcases hGraph g hLoad with ⟨hKeys, -⟩
  exact ⟨g, hLoad, (hKeys _).mpr hEntry, (hKeys _).mpr hReference⟩

end Pair

end Retarget.ProjectGraph
