import Retarget.Project.Basic
import Retarget.Proofs.Path.Folded

/-
  This file shows what a project that was read from a file
  keeps: its path is that of the file, it refers to other
  projects by folded paths only, and it is made with an SDK
  exactly if it names one.

  Key definitions include:
    * `Project.IsAt`
    * `Project.NamesSdks`

  Key statements include:
    * `Project.exists_parse_of_load`
    * `Project.isAt_of_load`
    * `Project.namesSdks_of_load`
-/

namespace Retarget.Project

variable {p : Project}
variable {path : Path}

/- A project with a path refers to others by folded paths. -/
structure IsAt (path : Path) (p : Project) : Prop where
  path_eq : p.path = path
  folded : ∀ r ∈ p.projectReferences, r.normalize = r

namespace IsAt

theorem empty
    (path : Path) :
    (Project.empty path).IsAt path where
  path_eq := rfl
  folded := fun r hr => by cases hr

theorem foldl
    {α : Type}
    {step : Project → α → Project}
    (hStep : ∀ p a, p.IsAt path → (step p a).IsAt path)
    (h : p.IsAt path)
    (as : List α) :
    (as.foldl step p).IsAt path := by
  induction as generalizing p with
  | nil => exact h
  | cons a r ih => exact ih (hStep p a h)

theorem addSdks
    (h : p.IsAt path)
    (value : String) :
    (p.addSdks value).IsAt path := by
  unfold Project.addSdks
  refine foldl (fun p sdk h => ?_) h (listItems value)
  exact ⟨h.path_eq, h.folded⟩

theorem addImport
    (h : p.IsAt path)
    (node : Xml.Node) :
    (p.addImport node).IsAt path := by
  have hSdks : ((node.attribute? "Sdk").elim p p.addSdks).IsAt path := by
    cases node.attribute? "Sdk" with
    | none => exact h
    | some value => exact h.addSdks value
  unfold Project.addImport
  split
  · exact ⟨hSdks.path_eq, hSdks.folded⟩
  · exact hSdks

theorem addProperties
    (h : p.IsAt path)
    (group : Xml.Node) :
    (p.addProperties group).IsAt path := by
  unfold Project.addProperties
  split
  · exact h
  · refine foldl (fun p node h => ?_) h group.elements
    unfold addProperty
    split
    · exact h
    · exact ⟨h.path_eq, h.folded⟩

theorem addItem
    (h : p.IsAt path)
    (node : Xml.Node) :
    (p.addItem node).IsAt path := by
  unfold Project.addItem
  dsimp only
  split
  · exact h
  · split
    · exact ⟨h.path_eq, h.folded⟩
    · exact ⟨h.path_eq, h.folded⟩
    · exact ⟨h.path_eq, h.folded⟩
    · refine ⟨h.path_eq, fun r hr => ?_⟩
      rcases List.mem_append.mp hr with hOld | hNew
      · exact h.folded r hOld
      · rw [List.mem_singleton.mp hNew, resolve, Path.normalize_idem]
    · exact h

theorem addElement
    (h : p.IsAt path)
    (node : Xml.Node) :
    (p.addElement node).IsAt path := by
  unfold Project.addElement
  split
  · cases node.attribute? "Name" with
    | none => exact h
    | some value => exact h.addSdks value
  · exact h.addImport node
  · exact h.addProperties node
  · exact foldl (fun _ item h => h.addItem item) h node.elements
  · exact h

/- A list of packages adds no reference to a project. -/
theorem addPackages
    (h : p.IsAt path)
    (packages : List PackageReference) :
    (p.addPackages packages).IsAt path := by
  refine foldl (fun p package h => ?_) h packages
  split
  · exact h
  · exact ⟨h.path_eq, h.folded⟩

end IsAt

theorem isAt_of_parse
    {text : String}
    (h : parse path text = .ok p) :
    p.IsAt path := by
  unfold parse at h
  split at h
  · next root _ =>
      unfold ofXml at h
      split at h
      · cases h
        refine IsAt.foldl (fun _ node h => h.addElement node) ?_
          root.elements
        cases root.attribute? "Sdk" with
        | none => exact .empty path
        | some value => exact (IsAt.empty path).addSdks value
      · cases h
  · cases h

/- A list of packages is all that is added to what the file says. -/
theorem exists_parse_of_load
    {files : FileView}
    (h : load files path = .ok p) :
    ∃ text parsed, parse path text = .ok parsed ∧
      (p = parsed ∨ ∃ packages, p = parsed.addPackages packages) := by
  unfold load at h
  cases hText : readFile files path with
  | error e => simp [hText, bind, Except.bind] at h
  | ok text =>
      cases hParse : parse path text with
      | error e => simp [hText, hParse, bind, Except.bind] at h
      | ok parsed =>
          refine ⟨text, parsed, hParse, ?_⟩
          simp only [hText, hParse, bind, Except.bind] at h
          split at h
          · split at h
            · cases h
            · split at h
              · cases h
              · cases h
                exact Or.inr ⟨_, rfl⟩
          · cases h
            exact Or.inl rfl

theorem isAt_of_load
    {files : FileView}
    (h : load files path = .ok p) :
    p.IsAt path := by
  obtain ⟨text, parsed, hParse, rfl | ⟨packages, rfl⟩⟩ :=
    exists_parse_of_load h
  · exact isAt_of_parse hParse
  · exact (isAt_of_parse hParse).addPackages packages

------------------------------------------------------------
-- SDKs
------------------------------------------------------------

/- The project is made with an SDK exactly if it names one. -/
def NamesSdks (p : Project) : Prop :=
  p.isSdk = !p.sdks.isEmpty

namespace NamesSdks

theorem addSdks
    (h : p.NamesSdks)
    (value : String) :
    (p.addSdks value).NamesSdks := by
  unfold Project.addSdks
  refine List.foldlRecOn (listItems value) _ h fun p _ sdk _ => ?_
  change true = !(if p.hasSdk (Text.before '/' sdk) then p.sdks
    else p.sdks ++ [Text.before '/' sdk]).isEmpty
  split
  · next hKnown =>
      rcases List.any_eq_true.mp hKnown with ⟨known, hMem, -⟩
      simp [List.ne_nil_of_mem hMem]
  · simp

theorem addImport
    (h : p.NamesSdks)
    (node : Xml.Node) :
    (p.addImport node).NamesSdks := by
  have hSdks : ((node.attribute? "Sdk").elim p p.addSdks).NamesSdks := by
    cases node.attribute? "Sdk" with
    | none => exact h
    | some value => exact h.addSdks value
  unfold Project.addImport
  split <;> exact hSdks

theorem addProperties
    (h : p.NamesSdks)
    (group : Xml.Node) :
    (p.addProperties group).NamesSdks := by
  unfold Project.addProperties
  split
  · exact h
  · refine List.foldlRecOn group.elements _ h fun p hp node _ => ?_
    unfold addProperty
    split <;> exact hp

/- An item is no SDK. -/
theorem addItem
    (h : p.NamesSdks)
    (node : Xml.Node) :
    (p.addItem node).NamesSdks := by
  unfold Project.addItem
  dsimp only
  split
  · exact h
  · split <;> exact h

theorem addElement
    (h : p.NamesSdks)
    (node : Xml.Node) :
    (p.addElement node).NamesSdks := by
  unfold Project.addElement
  split
  · cases node.attribute? "Name" with
    | none => exact h
    | some value => exact h.addSdks value
  · exact h.addImport node
  · exact h.addProperties node
  · exact List.foldlRecOn node.elements _ h fun _ hp item _ => hp.addItem item
  · exact h

theorem addPackages
    (h : p.NamesSdks)
    (packages : List PackageReference) :
    (p.addPackages packages).NamesSdks := by
  refine List.foldlRecOn packages _ h fun p hp package _ => ?_
  split <;> exact hp

end NamesSdks

theorem namesSdks_of_parse
    {text : String}
    (h : parse path text = .ok p) :
    p.NamesSdks := by
  unfold parse at h
  split at h
  · next root _ =>
      unfold ofXml at h
      split at h
      · cases h
        refine List.foldlRecOn root.elements _ ?_
          fun _ hp node _ => hp.addElement node
        have hEmpty : (empty path).NamesSdks := rfl
        cases root.attribute? "Sdk" with
        | none => exact hEmpty
        | some value => exact hEmpty.addSdks value
      · cases h
  · cases h

theorem namesSdks_of_load
    {files : FileView}
    (h : load files path = .ok p) :
    p.NamesSdks := by
  obtain ⟨text, parsed, hParse, rfl | ⟨packages, rfl⟩⟩ :=
    exists_parse_of_load h
  · exact namesSdks_of_parse hParse
  · exact (namesSdks_of_parse hParse).addPackages packages

end Retarget.Project
