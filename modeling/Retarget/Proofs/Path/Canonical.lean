import Retarget.Project.Basic
import Retarget.Proofs.Path.Folded

/-
  This file shows that folding gives every path one form: the
  root or some steps back, and then names.  How a directory
  is spelled does not count for what is found below it.

  Key statements include:
    * `Path.root_mem_foldl_iff`
    * `Path.IsWalked.exists_names`
    * `Path.exists_components_normalize`
    * `Path.foldl_components_join`
    * `Path.normalize_join`
    * `Path.normalize_canonical`
-/

namespace Retarget.Path

variable {p base other rest : Path}
variable {walked cs : List Component}
variable {c : Component}

------------------------------------------------------------
-- The form of a folded path
------------------------------------------------------------

/- Only a path that starts with a slash has the root. -/
theorem isAbsolute_iff_root_mem :
    p.isAbsolute = true ↔ .root ∈ p.components := by
  have hInner : ∀ cs : List Char, .root ∉ innerComponents (pieces cs) := by
    intro cs hRoot
    cases (isSpelled_of_mem_innerComponents hRoot).2
  rw [isAbsolute, components_eq, segments_eq]
  split
  · simp [ofParts]
  · simp only [ofParts, Bool.false_eq_true, if_false, false_iff]
    split
    · simp [hInner]
    · exact hInner _

/- No step adds the root, and none goes behind it. -/
theorem root_mem_fold_iff
    (h : IsWalked walked)
    (hSpelled : c.IsSpelled) :
    .root ∈ fold walked c ↔ .root ∈ walked := by
  cases c with
  | root => cases hSpelled.2
  | current => cases hSpelled.2
  | parent => cases h <;> simp [fold]
  | normal n => simp [fold]

theorem root_mem_foldl_iff
    (h : IsWalked walked)
    (hSpelled : ∀ c ∈ cs, c.IsSpelled) :
    .root ∈ cs.foldl fold walked ↔ .root ∈ walked := by
  induction cs generalizing walked with
  | nil => rfl
  | cons c r ih =>
      rcases List.forall_mem_cons.mp hSpelled with ⟨hFirst, hRest⟩
      rw [List.foldl_cons, ih (h.fold hFirst) hRest,
        root_mem_fold_iff h hFirst]

theorem root_mem_foldl_components_iff :
    .root ∈ p.components.foldl fold [] ↔ .root ∈ p.components := by
  rcases exists_components_eq p with ⟨inner, hInner, hPath | hPath | hPath⟩
  · have hNot : .root ∉ inner := fun hRoot => by
      cases (hInner .root hRoot).2
    rw [hPath, root_mem_foldl_iff .start hInner]
    simp [hNot]
  · rw [hPath, List.foldl_cons]
    simp [fold, root_mem_foldl_iff .root hInner]
  · have hNot : .root ∉ inner := fun hRoot => by
      cases (hInner .root hRoot).2
    rw [hPath, List.foldl_cons]
    simp [fold, root_mem_foldl_iff .start hInner, hNot]

/- A walk starts with the root or with some steps back; names follow. -/
theorem IsWalked.exists_names
    (h : IsWalked walked) :
    ∃ (steps : Nat) (names : List String),
      walked.reverse =
        (if .root ∈ walked then [.root] else List.replicate steps .parent) ++
          names.map .normal := by
  induction h with
  | start => exact ⟨0, [], rfl⟩
  | root => exact ⟨0, [], rfl⟩
  | @back walked _ hBack _ =>
      have hAll : .parent :: walked =
          List.replicate (walked.length + 1) .parent :=
        List.eq_replicate_of_mem (List.forall_mem_cons.mpr ⟨rfl, hBack⟩)
      refine ⟨walked.length + 1, [], ?_⟩
      rw [hAll, List.reverse_replicate]
      simp
  | @name walked n _ _ ih =>
      rcases ih with ⟨steps, names, hReverse⟩
      refine ⟨steps, names ++ [n], ?_⟩
      rw [List.reverse_cons, hReverse]
      simp

theorem exists_components_normalize
    (p : Path) :
    ∃ (steps : Nat) (names : List String),
      p.normalize.components =
        (if p.isAbsolute then [.root] else List.replicate steps .parent) ++
          names.map .normal := by
  obtain ⟨steps, names, hReverse⟩ := (isWalked_foldl_components p).exists_names
  refine ⟨steps, names, ?_⟩
  simp only [components_normalize, hReverse, root_mem_foldl_components_iff,
    ← isAbsolute_iff_root_mem]

------------------------------------------------------------
-- Folding below a directory
------------------------------------------------------------

/- A walk below a directory goes on from where the directory is. -/
theorem foldl_components_join
    (hRest : rest.isAbsolute = false) :
    (base.join rest).components.foldl fold [] =
      (innerComponents rest.segments.2).foldl fold
        (base.components.foldl fold []) := by
  by_cases hBase : base.text = ""
  · have hJoined : base.join rest = rest := by
      simp [join, hRest, hBase]
    have hNone : base.components = [] := by
      rw [components, segments, hBase]
      decide
    rw [hJoined, hNone]
    rcases components_of_relative hRest with hPath | hPath <;> rw [hPath] <;> rfl
  · rw [components_join hBase hRest, List.foldl_append]

/- A directory can be folded before a path is put below it. -/
theorem normalize_join
    (base rest : Path) :
    (base.join rest).normalize = (base.normalize.join rest).normalize := by
  by_cases hRest : rest.isAbsolute = true
  · simp only [join, hRest, if_true]
  · have hRelative : rest.isAbsolute = false := by simpa using hRest
    rw [normalize, normalize, foldl_components_join hRelative,
      foldl_components_join hRelative, components_normalize,
      (isWalked_foldl_components base).foldl_reverse]

/- Two spellings of a directory that fold alike have the same below them. -/
theorem resolve_congr
    (h : base.normalize = other.normalize)
    (text : String) :
    Project.resolve base text = Project.resolve other text := by
  rw [Project.resolve, Project.resolve, normalize_join, h, ← normalize_join]

------------------------------------------------------------
-- One form of every path
------------------------------------------------------------

/-
  A folded path is not folded any further.  It has no dots,
  and steps back only at the start of a relative path.  A
  directory may be spelled in any way that folds alike.
-/
theorem normalize_canonical
    (p : Path) :
    p.normalize.normalize = p.normalize ∧
      .current ∉ p.normalize.components ∧
      (p.isAbsolute = true → .parent ∉ p.normalize.components) ∧
      (∃ (steps : Nat) (names : List String),
        p.normalize.components =
          (if p.isAbsolute then [.root] else List.replicate steps .parent) ++
            names.map .normal) ∧
      (∀ rest : Path,
        (p.join rest).normalize = (p.normalize.join rest).normalize) ∧
      ∀ (other : Path) (text : String), p.normalize = other.normalize →
        Project.resolve p text = Project.resolve other text := by
  obtain ⟨steps, names, hForm⟩ := exists_components_normalize p
  refine ⟨normalize_idem p, ?_, ?_, ⟨steps, names, hForm⟩, normalize_join p,
    fun other text h => resolve_congr h text⟩
  · rw [hForm]
    split <;> simp [List.mem_replicate]
  · intro hAbsolute
    rw [hForm, if_pos hAbsolute]
    simp

/- Steps above the root are left out, and a directory is spelled twice. -/
theorem normalize_canonical_of_spellings :
    let p : Path := ⟨"/../src/./Web//.."⟩
    let other : Path := ⟨"//src/"⟩
    p.isAbsolute = true ∧ .parent ∉ p.normalize.components ∧
      p.normalize = ⟨"/src"⟩ ∧
      p.normalize = other.normalize ∧
      Project.resolve p "..\\Lib/./L.csproj" =
        Project.resolve other "..\\Lib/./L.csproj" ∧
      Project.resolve other "..\\Lib/./L.csproj" = ⟨"/Lib/L.csproj"⟩ := by
  intro p other
  have hAbsolute : p.isAbsolute = true := by decide
  have hFolded : p.normalize = ⟨"/src"⟩ := by decide
  have hOther : other.normalize = ⟨"/src"⟩ := by decide
  obtain ⟨-, -, hNoStep, -, -, hSpelling⟩ := normalize_canonical p
  exact ⟨hAbsolute, hNoStep hAbsolute, hFolded, hFolded.trans hOther.symm,
    hSpelling other _ (hFolded.trans hOther.symm), by decide⟩

end Retarget.Path
