import Retarget.Files.Memory
import Retarget.Package.Closure
import Retarget.Proofs.Package.Closure
import Retarget.Proofs.Package.Order
import Retarget.Proofs.Package.Reading

/-
  This file compares the two questions that a lock file
  answers: which packages a project uses, and whether it uses
  the package of a name.  The first one goes through the
  libraries and keeps one of each name and version; the second
  one follows their dependencies.  What the second one finds
  is in the answer to the first, unless it is no package.

  Key definitions include:
    * `ClosureSource.IsCollected`

  Key statements include:
    * `LockFile.isWritten_version_of_load`
    * `ClosureSource.IsCollected.addLibrary`
    * `ClosureSource.isCollected_packagesOf`
    * `ClosureSource.exists_library_of_isAvailable`
    * `ClosureSource.views_agree`
-/

namespace Retarget

------------------------------------------------------------
-- Lock files that were read
------------------------------------------------------------

namespace LockFile

variable {f : LockFile}
variable {t : LockedTarget}
variable {l : LockedLibrary}
variable {path : Path}

theorem isWritten_version_of_library?
    {key : String}
    {entry : Entry}
    (h : library? key entry = some l) :
    l.version.IsWritten := by
  rcases Option.bind_eq_some_iff.mp h with ⟨⟨name, version⟩, -, h⟩
  rcases Option.bind_eq_some_iff.mp h with ⟨v, hRead, h⟩
  cases h
  exact .of_parse? hRead

theorem isWritten_version_of_parse
    {text : String}
    (h : parse path text = .ok f)
    (hTarget : t ∈ f.targets)
    (hLibrary : l ∈ t.libraries) :
    l.version.IsWritten := by
  unfold parse at h
  split at h
  · cases h
    rcases List.mem_map.mp hTarget with ⟨⟨key, libraries⟩, -, rfl⟩
    rcases List.mem_filterMap.mp hLibrary with ⟨⟨id, entry⟩, -, hRead⟩
    exact isWritten_version_of_library? hRead
  · cases h

/- The libraries of a lock file have versions that can be read back. -/
theorem isWritten_version_of_load
    {files : FileView}
    (h : load files path = .ok f)
    (hTarget : t ∈ f.targets)
    (hLibrary : l ∈ t.libraries) :
    l.version.IsWritten := by
  unfold load at h
  split at h
  · exact isWritten_version_of_parse h hTarget hLibrary
  · cases h

end LockFile

namespace ClosureSource

variable {f : LockFile}
variable {p : Project}
variable {files : FileView}
variable {t : LockedTarget}
variable {l m : LockedLibrary}
variable {ls more found : List LockedLibrary}
variable {targets : List LockedTarget}

theorem mem_targets_of_mem_targetsFor
    {frameworks : List Moniker}
    (h : t ∈ targetsFor f frameworks) :
    t ∈ f.targets := by
  unfold targetsFor at h
  split at h
  · exact (List.mem_filter.mp h).1
  · rcases List.mem_filterMap.mp h with ⟨framework, -, hFound⟩
    rw [LockFile.target?, Option.or_eq_some_iff] at hFound
    rcases hFound with hFirst | ⟨-, hHead⟩
    · exact (List.mem_filter.mp (List.mem_of_find?_eq_some hFirst)).1
    · exact (List.mem_filter.mp (List.mem_of_mem_head? hHead)).1

------------------------------------------------------------
-- One library of each name and version
------------------------------------------------------------

theorem sameLibrary_self
    (l : LockedLibrary) :
    sameLibrary l l = true := by
  rw [sameLibrary, Bool.and_eq_true, PackageVersion.same_iff]
  exact ⟨beq_self_eq_true _, Std.ReflCmp.compare_self⟩

theorem sameLibrary_comm
    (l m : LockedLibrary) :
    sameLibrary l m = sameLibrary m l := by
  rw [sameLibrary, sameLibrary, PackageVersion.same_comm,
    Text.equalsIgnoringCase, Text.equalsIgnoringCase, Bool.beq_comm]

/-
  What was kept of some libraries: no two with one name and
  the same version, and one for each that is left out.
-/
structure IsCollected (ls found : List LockedLibrary) : Prop where
  subset : found ⊆ ls
  apart : found.Pairwise fun l m => sameLibrary l m = false
  complete : ∀ l ∈ ls, ∃ m ∈ found, sameLibrary l m = true

theorem isCollected_nil :
    IsCollected [] [] :=
  ⟨List.Subset.refl _, .nil, by simp⟩

theorem IsCollected.addLibrary
    (h : IsCollected ls found)
    (l : LockedLibrary) :
    IsCollected (ls ++ [l]) (addLibrary found l) := by
  unfold ClosureSource.addLibrary
  split
  · next hKnown =>
      refine ⟨List.subset_append_of_subset_left _ h.subset, h.apart, ?_⟩
      intro m hm
      rcases List.mem_append.mp hm with hOld | hNew
      · exact h.complete m hOld
      · rw [List.mem_singleton.mp hNew]
        exact List.any_eq_true.mp hKnown
  · next hNew =>
      refine ⟨List.append_subset.mpr ⟨?_, List.subset_append_right _ _⟩, ?_, ?_⟩
      · exact List.subset_append_of_subset_left _ h.subset
      · refine List.pairwise_append.mpr ⟨h.apart, List.pairwise_singleton _ l, ?_⟩
        intro m hm x hx
        rw [List.mem_singleton.mp hx, sameLibrary_comm, Bool.eq_false_iff]
        exact fun hSame => hNew (List.any_eq_true.mpr ⟨m, hm, hSame⟩)
      · intro m hm
        rcases List.mem_append.mp hm with hOld | hLast
        · rcases h.complete m hOld with ⟨x, hx, hSame⟩
          exact ⟨x, List.mem_append_left _ hx, hSame⟩
        · rw [List.mem_singleton.mp hLast]
          exact ⟨l, List.mem_append_right _ List.mem_cons_self,
            sameLibrary_self l⟩

theorem IsCollected.foldl
    (h : IsCollected ls found)
    (more : List LockedLibrary) :
    IsCollected (ls ++ more) (more.foldl ClosureSource.addLibrary found) := by
  induction more generalizing ls found with
  | nil =>
      rw [List.append_nil]
      exact h
  | cons l rest ih =>
      have hRest := ih (h.addLibrary l)
      rwa [List.append_assoc, List.singleton_append] at hRest

/- The packages among the libraries of some targets. -/
def packageLibraries (targets : List LockedTarget) : List LockedLibrary :=
  (targets.flatMap LockedTarget.libraries).filter fun l => l.kind == .package

theorem mem_packageLibraries :
    l ∈ packageLibraries targets ↔
      ∃ t ∈ targets, l ∈ t.libraries ∧ l.kind = .package := by
  rw [packageLibraries, List.mem_filter, List.mem_flatMap, beq_iff_eq]
  constructor
  · rintro ⟨⟨t, ht, hl⟩, hKind⟩
    exact ⟨t, ht, hl, hKind⟩
  · rintro ⟨t, ht, hl, hKind⟩
    exact ⟨⟨t, ht, hl⟩, hKind⟩

def referenceTo (l : LockedLibrary) : PackageReference :=
  ⟨l.name, l.version.text⟩

theorem version?_referenceTo
    (h : l.version.IsWritten) :
    (referenceTo l).version? = some l.version := by
  have hRead : PackageVersion.parse? (referenceTo l).version =
      some l.version := h.parse?_text
  delta PackageReference.version?
  rw [hRead]

theorem isCollected_packagesOf
    (targets : List LockedTarget) :
    ∃ found, IsCollected (packageLibraries targets) found ∧
      packagesOf targets = found.map referenceTo :=
  ⟨_, isCollected_nil.foldl (packageLibraries targets), rfl⟩

/- References to what was kept differ in name or version. -/
theorem IsCollected.pairwise_referenceTo
    (h : IsCollected ls found)
    (hWritten : ∀ l ∈ ls, l.version.IsWritten) :
    (found.map referenceTo).Pairwise fun a b => ∀ v w,
      a.version? = some v → b.version? = some w →
        Text.equalsIgnoringCase a.name b.name = true →
          v.same w = false := by
  rw [List.pairwise_map]
  refine h.apart.imp_of_mem fun {l m} hl hm hApart v w hv hw hNames => ?_
  rw [version?_referenceTo (hWritten l (h.subset hl))] at hv
  rw [version?_referenceTo (hWritten m (h.subset hm))] at hw
  obtain rfl := Option.some.inj hv
  obtain rfl := Option.some.inj hw
  have hNames : Text.equalsIgnoringCase l.name m.name = true := hNames
  rwa [sameLibrary, hNames, Bool.true_and] at hApart

/- Libraries that count as one go by the same ASCII names. -/
theorem isNamed_congr
    {n : String}
    (hl : Text.IsAscii l.name)
    (hm : Text.IsAscii m.name)
    (h : sameLibrary l m = true) :
    l.isNamed n = m.isNamed n := by
  rw [sameLibrary, Bool.and_eq_true, Text.equalsIgnoringCase, beq_iff_eq] at h
  have hForm := hl.lowerAscii_eq_of_lower_eq hm h.1
  rw [Bool.eq_iff_iff, LockedLibrary.isNamed, LockedLibrary.isNamed,
    ← Text.lowerAscii_eq_iff, ← Text.lowerAscii_eq_iff, hForm]

theorem IsCollected.exists_isNamed_iff
    {n : String}
    (h : IsCollected ls found)
    (hAscii : ∀ l ∈ ls, Text.IsAscii l.name) :
    (∃ r ∈ found.map referenceTo, r.isNamed n = true) ↔
      ∃ l ∈ ls, l.isNamed n = true := by
  constructor
  · rintro ⟨r, hr, hNamed⟩
    rcases List.mem_map.mp hr with ⟨l, hl, rfl⟩
    exact ⟨l, h.subset hl, hNamed⟩
  · rintro ⟨l, hl, hNamed⟩
    rcases h.complete l hl with ⟨m, hm, hSame⟩
    refine ⟨referenceTo m, List.mem_map_of_mem hm, ?_⟩
    rwa [isNamed_congr (hAscii l hl) (hAscii m (h.subset hm)) hSame] at hNamed

------------------------------------------------------------
-- Answers from a lock file
------------------------------------------------------------

theorem lookUp?_lockFile
    (hFile : files.isFile p.lockFilePath = true)
    (hLoad : LockFile.load files p.lockFilePath = .ok f) :
    (lockFile files).lookUp? p false = .ok (some f) := by
  have hFound : lockFileOf? files p = .ok (some f) := by
    rw [lockFileOf?, if_pos hFile, hLoad]
    rfl
  exact hFound

theorem packages_lockFile
    (hFile : files.isFile p.lockFilePath = true)
    (hLoad : LockFile.load files p.lockFilePath = .ok f) :
    (lockFile files).packages p false =
      .ok (packagesOf (targetsFor f p.targetFrameworks)) := by
  rw [packages, lookUp?_lockFile hFile hLoad]
  rfl

theorem isAvailable_lockFile
    {n : String}
    (hFile : files.isFile p.lockFilePath = true)
    (hLoad : LockFile.load files p.lockFilePath = .ok f) :
    (lockFile files).isAvailable p n false =
      (requireName "package_name" n).map fun _ =>
        (targetsFor f p.targetFrameworks).any fun t =>
          (t.closure (t.direct ++ p.packages.map PackageReference.name)).any
            fun l => l.isNamed n := by
  rw [isAvailable, lookUp?_lockFile hFile hLoad]
  cases requireName "package_name" n <;> rfl

theorem mem_libraries_of_mem_closure
    {roots : List String}
    (h : l ∈ t.closure roots) :
    l ∈ t.libraries := by
  rcases t.exists_progress roots with ⟨_, _, hEnd, -⟩
  rcases hEnd.exists_library? h with ⟨_, -, hFind⟩
  exact LockedTarget.mem_libraries_of_library? hFind

/- What is available is a library of some target. -/
theorem exists_library_of_isAvailable
    {n : String}
    (hFile : files.isFile p.lockFilePath = true)
    (hLoad : LockFile.load files p.lockFilePath = .ok f)
    (h : (lockFile files).isAvailable p n false = .ok true) :
    ∃ t ∈ targetsFor f p.targetFrameworks,
      ∃ l ∈ t.libraries, l.isNamed n = true := by
  rw [isAvailable_lockFile hFile hLoad] at h
  cases hName : requireName "package_name" n with
  | error e =>
      rw [hName] at h
      cases h
  | ok u =>
      rw [hName] at h
      rcases List.any_eq_true.mp (Except.ok.inj h) with ⟨t, ht, hAny⟩
      rcases List.any_eq_true.mp hAny with ⟨l, hl, hNamed⟩
      exact ⟨t, ht, l, mem_libraries_of_mem_closure hl, hNamed⟩

/-
  For a project with a lock file both questions are answered.
  The packages of a project have versions, no two of them have
  one name and the same version, and their names are those of
  the packages among the libraries of the project's targets.
  What is available is one of them, or a library of another
  kind.
-/
theorem views_agree
    (hFile : files.isFile p.lockFilePath = true)
    (hLoad : LockFile.load files p.lockFilePath = .ok f)
    (hAscii : ∀ t ∈ targetsFor f p.targetFrameworks, ∀ l ∈ t.libraries,
      l.kind = .package → Text.IsAscii l.name) :
    ∃ refs, (lockFile files).packages p false = .ok refs ∧
      (∀ r ∈ refs, r.version?.isSome = true) ∧
      (refs.Pairwise fun a b => ∀ v w,
        a.version? = some v → b.version? = some w →
          Text.equalsIgnoringCase a.name b.name = true →
            v.same w = false) ∧
      (∀ n, (∃ r ∈ refs, r.isNamed n = true) ↔
        ∃ t ∈ targetsFor f p.targetFrameworks, ∃ l ∈ t.libraries,
          l.kind = .package ∧ l.isNamed n = true) ∧
      ∀ n, ((∃ answer, (lockFile files).isAvailable p n false = .ok answer) ↔
          ∃ c ∈ n.toList, Text.isBlank c = false) ∧
        ((lockFile files).isAvailable p n false = .ok true →
          (∃ r ∈ refs, r.isNamed n = true) ∨
            ∃ t ∈ targetsFor f p.targetFrameworks, ∃ l ∈ t.libraries,
              l.kind ≠ .package ∧ l.isNamed n = true) := by
  let targets := targetsFor f p.targetFrameworks
  rcases isCollected_packagesOf targets with ⟨found, hFound, hRefs⟩
  have hWritten : ∀ l ∈ packageLibraries targets, l.version.IsWritten := by
    intro l hl
    rcases mem_packageLibraries.mp hl with ⟨t, ht, hLibrary, -⟩
    exact LockFile.isWritten_version_of_load hLoad
      (mem_targets_of_mem_targetsFor ht) hLibrary
  have hPackages : ∀ l ∈ packageLibraries targets, Text.IsAscii l.name := by
    intro l hl
    rcases mem_packageLibraries.mp hl with ⟨t, ht, hLibrary, hKind⟩
    exact hAscii t ht l hLibrary hKind
  have hListed : ∀ n, (∃ r ∈ found.map referenceTo, r.isNamed n = true) ↔
      ∃ t ∈ targets, ∃ l ∈ t.libraries,
        l.kind = .package ∧ l.isNamed n = true := by
    intro n
    rw [hFound.exists_isNamed_iff hPackages]
    constructor
    · rintro ⟨l, hl, hNamed⟩
      rcases mem_packageLibraries.mp hl with ⟨t, ht, hLibrary, hKind⟩
      exact ⟨t, ht, l, hLibrary, hKind, hNamed⟩
    · rintro ⟨t, ht, l, hLibrary, hKind, hNamed⟩
      exact ⟨l, mem_packageLibraries.mpr ⟨t, ht, hLibrary, hKind⟩, hNamed⟩
  refine ⟨found.map referenceTo, ?_, fun r hr => ?_,
    hFound.pairwise_referenceTo hWritten, hListed, fun n => ⟨?_, fun h => ?_⟩⟩
  · rw [packages_lockFile hFile hLoad, hRefs]
  · rcases List.mem_map.mp hr with ⟨l, hl, rfl⟩
    rw [version?_referenceTo (hWritten l (hFound.subset hl))]
    rfl
  · rw [isAvailable_lockFile hFile hLoad, ← requireNonEmpty_eq_ok_iff
      "package_name", requireName]
    cases requireNonEmpty "package_name" n <;> simp [Except.map, Except.mapError]
  · rcases exists_library_of_isAvailable hFile hLoad h with
      ⟨t, ht, l, hLibrary, hNamed⟩
    by_cases hKind : l.kind = .package
    · exact Or.inl ((hListed n).mpr ⟨t, ht, l, hLibrary, hKind, hNamed⟩)
    · exact Or.inr ⟨t, ht, l, hLibrary, hKind, hNamed⟩

/- A package that is there twice, and a project that it needs. -/
namespace Doubled

def text : String :=
  "\x7b\"targets\":\x7b\"net6.0\":\x7b" ++
    "\"JSON/1.0.0\":\x7b\"type\":\"package\"," ++
      "\"dependencies\":\x7b\"tool\":\"1\"\x7d\x7d," ++
    "\"Json/1.0\":\x7b\"type\":\"package\"\x7d," ++
    "\"Tool/2.0\":\x7b\"type\":\"project\"\x7d\x7d\x7d," ++
    "\"projectFileDependencyGroups\":\x7b\"net6.0\":[\"json >= 1\"]\x7d\x7d"

def restored : FileView :=
  MemoryFiles.view <|
    .ofList ⟨"/"⟩ [(⟨"obj/project.assets.json"⟩, text)]

def project : Project :=
  .empty ⟨"/App.csproj"⟩

def needed : LockedDependency :=
  ⟨"tool", some { VersionRange.atLeast (.ofNumbers 1 0 0 0) with text := "1" }⟩

def first : LockedLibrary :=
  ⟨"JSON", .ofNumbers 1 0 0 0, .package, [needed]⟩

def second : LockedLibrary :=
  ⟨"Json", .ofNumbers 1 0 0 0, .package, []⟩

def tool : LockedLibrary :=
  ⟨"Tool", .ofNumbers 2 0 0 0, .project, []⟩

def target : LockedTarget where
  key := "net6.0"
  framework := some (.ofFamily .netCoreApp (.ofPair 6 0))
  runtime := none
  libraries := [first, second, tool]
  direct := ["json"]

def lock : LockFile :=
  ⟨⟨"/obj/project.assets.json"⟩, 0, [target]⟩

theorem load_lock :
    LockFile.load restored project.lockFilePath = .ok lock := by
  decide +kernel

theorem closure_target :
    target.closure ["json"] = [first, tool] := by
  have hFirst : target.library? "json" = some first := by
    decide
  have hTool : target.library? "tool" = some tool := by
    decide
  have hOther : Text.lower "tool" ≠ Text.lower "json" := by
    decide +kernel
  have hCount : target.libraries.length = 3 := rfl
  have hNeeds : first.dependencies.map LockedDependency.name = ["tool"] := rfl
  have hEnd : tool.dependencies.map LockedDependency.name = [] := rfl
  simp [LockedTarget.closure, LockedTarget.closureFrom, hFirst, hTool, hOther,
    hCount, hNeeds, hEnd]

theorem views_agree_of_doubled :
    restored.isFile project.lockFilePath = true ∧
      LockFile.load restored project.lockFilePath = .ok lock ∧
      (∀ t ∈ targetsFor lock project.targetFrameworks, ∀ l ∈ t.libraries,
        l.kind = .package → Text.IsAscii l.name) ∧
      (lockFile restored).packages project false = .ok [⟨"JSON", "1.0.0"⟩] ∧
      (lockFile restored).isAvailable project "TOOL" false = .ok true ∧
      ∃ t ∈ targetsFor lock project.targetFrameworks, ∃ l ∈ t.libraries,
        l.kind ≠ .package ∧ l.isNamed "TOOL" = true := by
  have hFile : restored.isFile project.lockFilePath = true := by
    decide +kernel
  have hAscii : ∀ t ∈ targetsFor lock project.targetFrameworks,
      ∀ l ∈ t.libraries, l.kind = .package → Text.IsAscii l.name := by
    decide +kernel
  have hAvailable :
      (lockFile restored).isAvailable project "TOOL" false = .ok true := by
    have hTargets : targetsFor lock project.targetFrameworks = [target] := by
      decide +kernel
    have hRoots : target.direct ++ project.packages.map PackageReference.name =
        ["json"] := rfl
    rw [isAvailable_lockFile hFile load_lock, hTargets, List.any_cons, hRoots,
      closure_target]
    decide +kernel
  have hPackages : (lockFile restored).packages project false =
      .ok [⟨"JSON", "1.0.0"⟩] := by
    rw [packages_lockFile hFile load_lock]
    decide +kernel
  rcases views_agree hFile load_lock hAscii with ⟨refs, hRefs, -, -, -, hViews⟩
  obtain rfl := Except.ok.inj (hPackages.symm.trans hRefs)
  -- The one package that is listed has another name.
  have hOther : ¬∃ r ∈ [(⟨"JSON", "1.0.0"⟩ : PackageReference)],
      r.isNamed "TOOL" = true := by
    decide +kernel
  exact ⟨hFile, load_lock, hAscii, hPackages, hAvailable,
    ((hViews "TOOL").2 hAvailable).resolve_left hOther⟩

end Doubled

end ClosureSource

end Retarget
