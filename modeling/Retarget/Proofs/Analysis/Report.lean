import Retarget.Analysis.Analyzer
import Retarget.Proofs.Rule.TypeMap
import Retarget.Proofs.Symbol.Name
import Retarget.Proofs.Analysis.FixHint
import Retarget.Proofs.Analysis.Interleaving

/-
  This file says what can be reported at a name, and shows
  that every diagnostic of a run has been reported at a name
  of one of the files, with a hint that suits it.

  Key definitions include:
    * `Reported`

  Key statements include:
    * `NameIndex.candidates_ofEntries`
    * `Mapping.suits`
    * `NodeAnalyzer.reported_of_mem`
    * `Analysis.exists_analyze_of_mem_run`
-/

namespace Retarget

------------------------------------------------------------
-- Indices
------------------------------------------------------------

namespace NameIndex

variable {α : Type}

theorem candidates_add
    (index : NameIndex α)
    (key other : String)
    (entry : α) :
    candidates (add index key entry) other =
      if key == other then candidates index other ++ [entry]
      else candidates index other := by
  rw [candidates, add, Dictionary.find?_insert]
  by_cases hSame : key = other
  · simp [hSame, candidates]
  · simp [hSame, candidates]

/- The candidates for a key are the entries with that key. -/
theorem candidates_ofEntries
    (key : α → String)
    (entries : List α)
    (other : String) :
    candidates (ofEntries key entries) other =
      entries.filter fun e => key e == other := by
  have hFold : ∀ index : NameIndex α,
      candidates (entries.foldl (fun index e => add index (key e) e) index) other =
        candidates index other ++ entries.filter fun e => key e == other := by
    induction entries with
    | nil => simp
    | cons e rest ih =>
        intro index
        rw [List.foldl_cons, ih, candidates_add, List.filter_cons]
        split
        · rw [List.append_assoc, List.singleton_append]
        · rfl
  exact hFold Dictionary.empty

end NameIndex

------------------------------------------------------------
-- Hints
------------------------------------------------------------

namespace ApiAlert

theorem hasStart_diagnosticId
    (ruleId : String) :
    Text.hasStart apiAlertBaseId (diagnosticId ruleId) = true := by
  simp [Text.hasStart, diagnosticId, String.toList_append, List.append_assoc]

/- An alert has an id of its own. -/
theorem diagnosticId_ne
    {ruleId id : String}
    (hOther : Text.hasStart apiAlertBaseId id = false) :
    diagnosticId ruleId ≠ id := by
  rintro rfl
  rw [hasStart_diagnosticId] at hOther
  cases hOther

theorem suits
    (ruleId : String) :
    FixHint.explainOnly.Suits (diagnosticId ruleId) where
  isAllowed := by
    have hTypes : diagnosticId ruleId ≠ typeUpgradeId :=
      diagnosticId_ne (by decide)
    have hAttributes : diagnosticId ruleId ≠ attributeUpgradeId :=
      diagnosticId_ne (by decide)
    simp [FixKind.allowedFor, hasStart_diagnosticId, hTypes, hAttributes,
      FixHint.explainOnly]
  hasName := by simp [FixHint.explainOnly, FixKind.replaces]
  hasNoName _ := rfl
  isAlert _ := rfl
  isInterop hId := absurd hId (diagnosticId_ne (by decide))

end ApiAlert

theorem Mapping.suits
    (mode : Mapping.Mode)
    {m : TypeMapping}
    (hProper : m.IsProper) :
    (Mapping.hint mode m).Suits mode.descriptor.id where
  isAllowed := by
    obtain ⟨oldName, newName⟩ := m
    cases mode <;> cases newName <;> rfl
  hasName := by
    obtain ⟨oldName, newName⟩ := m
    cases newName with
    | none => cases mode <;> simp [Mapping.hint, FixHint.explainOnly, FixKind.replaces]
    | some newName =>
        have hName : newName ≠ "" := (hProper newName rfl).1
        cases mode <;> exact fun _ => ⟨newName, rfl, hName⟩
  hasNoName := by
    obtain ⟨oldName, newName⟩ := m
    cases mode <;> cases newName <;>
      simp [Mapping.hint, FixHint.explainOnly, FixHint.replaceIdentifier,
        FixHint.replaceAttribute, FixKind.replaces]
  isAlert := by
    cases mode <;> intro hStart <;> exact absurd hStart (by decide)
  isInterop := by
    cases mode <;> intro hId <;> exact absurd hId (by decide)

theorem Interop.suits :
    (FixHint.explainOnly.withDocumentationUrl documentationUrl).Suits
      Interop.descriptor.id where
  isAllowed := by decide
  hasName := by simp [FixHint.explainOnly, FixHint.withDocumentationUrl, FixKind.replaces]
  hasNoName _ := rfl
  isAlert hStart := absurd hStart (by decide)
  isInterop _ := rfl

------------------------------------------------------------
-- Reports
------------------------------------------------------------

/- A hint that suits a diagnostic can be read back from it. -/
theorem Diagnostic.fixHint_ofDescriptor
    {descriptor : DiagnosticDescriptor}
    {message : String}
    {location : Location}
    {hint : FixHint}
    (hSuits : hint.Suits descriptor.id) :
    (ofDescriptor descriptor message location hint).fixHint = .ok hint :=
  FixHint.ofProperties_toProperties hSuits

/- A diagnostic that some analyzer can report at a name. -/
inductive Reported (c : NodeContext) : Diagnostic → Prop where
  | alert
    (e : ApiAlert.Entry) :
    Reported c (ApiAlert.report c e)
  | mapping
    (mode : Mapping.Mode)
    {m : TypeMapping}
    (hProper : m.IsProper) :
    Reported c (Mapping.report mode c m)
  | interop
    {api : InteropApi}
    (hApi : api ∈ Interop.builtin) :
    Reported c
      (.ofDescriptor Interop.descriptor (Interop.message api)
        (.inTree c.tree c.node.fullSpan)
        (FixHint.explainOnly.withDocumentationUrl Interop.documentationUrl))

variable {c : NodeContext}
variable {d : Diagnostic}

theorem Reported.path_eq
    (h : Reported c d) :
    d.location.path = c.tree.path := by
  cases h <;> rfl

theorem ApiAlert.reported_of_mem
    {index : NameIndex Entry}
    (h : d ∈ ApiAlert.analyze index c) :
    Reported c d := by
  have hAll : ∀ (resolution : Resolution) (found : List Entry)
      (reported : List Nat), d ∈ reportAll c resolution reported found →
      Reported c d := by
    intro resolution found
    induction found with
    | nil => simp [reportAll]
    | cons e rest ih =>
        intro reported hFound
        unfold reportAll at hFound
        split at hFound
        · rcases List.mem_cons.mp hFound with rfl | hRest
          · exact Reported.alert e
          · exact ih _ hRest
        · exact ih _ hFound
  unfold analyze at h
  split at h
  · cases h
  · exact hAll _ _ _ h

/- Nothing is reported if no target is flagged. -/
theorem ApiAlert.analyze_eq_nil
    {index : NameIndex Entry}
    (h : ∀ e ∈ NameIndex.candidates index (attributeKey c.node.simpleName),
      flags c c.resolution e.target = false) :
    ApiAlert.analyze index c = [] := by
  have hAll : ∀ (found : List Entry) (reported : List Nat),
      (∀ e ∈ found, flags c c.resolution e.target = false) →
        reportAll c c.resolution reported found = [] := by
    intro found
    induction found with
    | nil => intros; rfl
    | cons e rest ih =>
        intro reported hFound
        rw [List.forall_mem_cons] at hFound
        simp [reportAll, hFound.1, ih _ hFound.2]
  unfold ApiAlert.analyze
  split
  · rfl
  · exact hAll _ _ h

theorem Mapping.mem_preferred
    {ms : List TypeMapping}
    {m : TypeMapping} :
    m ∈ preferred c ms ↔ m ∈ ms := by
  cases hImported : isImported c m <;> simp [preferred, hImported]

/- The first flagged one of the renamings of a name is reported. -/
theorem Mapping.analyze_ofEntries
    (mode : Mode)
    (ms : List TypeMapping)
    (c : NodeContext) :
    analyze mode (NameIndex.ofEntries (entryKey mode) ms) c =
      if appliesTo mode c.node.context then
        (((preferred c (ms.filter fun m =>
          entryKey mode m == writtenKey mode c.node.simpleName)).find?
            (flags mode c c.resolution)).map (report mode c)).toList
      else [] := by
  unfold analyze
  rw [NameIndex.candidates_ofEntries]
  cases ms.filter fun m =>
      entryKey mode m == writtenKey mode c.node.simpleName with
  | nil => simp [preferred]
  | cons m rest => rfl

/- Nothing is reported if no renaming is flagged. -/
theorem Mapping.analyze_eq_nil
    {mode : Mode}
    {ms : List TypeMapping}
    (h : ∀ m ∈ ms, flags mode c c.resolution m = false) :
    analyze mode (NameIndex.ofEntries (entryKey mode) ms) c = [] := by
  rw [analyze_ofEntries]
  split
  · rw [List.find?_eq_none.mpr fun m hm => ?_]
    · rfl
    · simp [h m (List.mem_filter.mp (mem_preferred.mp hm)).1]
  · rfl

/- The one renaming that is flagged is reported. -/
theorem Mapping.analyze_eq_singleton
    {mode : Mode}
    {ms : List TypeMapping}
    {m : TypeMapping}
    (hApplies : appliesTo mode c.node.context = true)
    (hMem : m ∈ ms)
    (hKey : entryKey mode m = writtenKey mode c.node.simpleName)
    (hFlags : flags mode c c.resolution m = true)
    (hOnly : ∀ other ∈ ms, flags mode c c.resolution other = true →
      other = m) :
    analyze mode (NameIndex.ofEntries (entryKey mode) ms) c =
      [report mode c m] := by
  have hFound : (preferred c (ms.filter fun m =>
      entryKey mode m == writtenKey mode c.node.simpleName)).find?
        (flags mode c c.resolution) = some m := by
    refine find?_eq_some_of_only ?_ hFlags fun other hOther => ?_
    · exact mem_preferred.mpr (List.mem_filter.mpr ⟨hMem, by simp [hKey]⟩)
    · exact hOnly other (List.mem_filter.mp (mem_preferred.mp hOther)).1
  rw [analyze_ofEntries, if_pos hApplies, hFound]
  rfl

/- The first API that is written like the name is reported. -/
theorem Interop.analyze_eq_singleton
    {apis : List InteropApi}
    {api : InteropApi}
    {qualifier : String}
    (hMember : c.node.isMemberAccess = true)
    (hQualifier : c.node.qualifier = some qualifier)
    (hFound : apis.find? (isWrittenLike c qualifier) = some api)
    (hConfirms : c.resolution.confirms (matcher api) true = true) :
    analyze apis c =
      [.ofDescriptor descriptor (message api)
        (.inTree c.tree c.node.fullSpan)
        (FixHint.explainOnly.withDocumentationUrl documentationUrl)] := by
  simp [analyze, hMember, hQualifier, hFound, hConfirms]

/- A name that is flagged is the end of the old name. -/
theorem Mapping.isNameSuffix_of_flags
    {mode : Mode}
    {m : TypeMapping}
    {resolution : Resolution}
    (h : flags mode c resolution m = true) :
    ∃ w ∈ writtenForms mode c.node,
      isNameSuffix w m.oldName c.language = true := by
  simp only [flags, Bool.and_eq_true] at h
  exact List.any_eq_true.mp h.1.2

/- A target is written only where its full name ends in the bytes. -/
theorem ApiAlert.isWrittenLike_eq_false
    {t : ApiTarget}
    (h : ∀ w ∈ c.node.simpleName :: attributeForms c.node.qualifiedName,
      isByteSuffix w t.fullName = false) :
    isWrittenLike c t = false := by
  rcases List.forall_mem_cons.mp h with ⟨hSimple, hForms⟩
  rw [Bool.eq_false_iff]
  intro hWritten
  unfold isWrittenLike at hWritten
  split at hWritten
  · rcases Bool.and_eq_true_iff.mp hWritten with ⟨-, hSame⟩
    obtain ⟨front, hFront, hName⟩ : ∃ front, IsQualifying front ∧
        t.fullName = front ++ t.simpleName := by
      rcases eq_lastPart_or_append t.fullName with hWhole | ⟨front, hFront⟩
      · exact ⟨"", Or.inl rfl, by rwa [String.empty_append]⟩
      · exact ⟨_, Or.inr ⟨front, rfl⟩, hFront⟩
    rw [Language.namesEqual_comm] at hSame
    have hEnds := isByteSuffix_append hFront hSame
    rw [← hName, hSimple] at hEnds
    cases hEnds
  · rcases List.any_eq_true.mp (Bool.and_eq_true_iff.mp hWritten).2 with
      ⟨w, hw, hSuffix⟩
    have hEnds := isByteSuffix_of_isNameSuffix hSuffix
    rw [hForms w hw] at hEnds
    cases hEnds

/- No built-in renaming is of a name with a last segment of one byte. -/
theorem TypeMap.isNameSuffix_builtin
    {m : TypeMapping}
    (hm : m ∈ TypeMap.builtin.mappings)
    {written : String}
    (hSize : (lastPart written).toByteArray.data.toList.length = 1)
    (language : Language) :
    isNameSuffix written m.oldName language = false := by
  have hTables : ∀ m ∈ TypeMap.web ++ TypeMap.windows,
      m.oldName.toByteArray.data.toList.reverse[1]?.all (· == 46) = false := by
    decide
  rw [Bool.eq_false_iff]
  intro hSuffix
  have hDot := byte_of_isNameSuffix hSuffix
  dsimp only at hDot
  rw [hSize, hTables m (List.mem_append.mpr (TypeMap.mem_builtin hm))] at hDot
  cases hDot

/- Such a name can only be flagged for a renaming that is given. -/
theorem Mapping.eq_of_flags_of_short
    {m given : TypeMapping}
    {resolution : Resolution}
    (hSize : (lastPart c.node.qualifiedName).toByteArray.data.toList.length = 1)
    (hm : m ∈ (TypeMap.extend TypeMap.builtin [given]).mappings)
    (h : flags .types c resolution m = true) :
    m = given := by
  rcases isNameSuffix_of_flags h with ⟨w, hw, hSuffix⟩
  obtain rfl := List.mem_singleton.mp hw
  rcases TypeMap.mem_extend hm with hBuiltin | hGiven
  · rw [TypeMap.isNameSuffix_builtin hBuiltin hSize] at hSuffix
    cases hSuffix
  · exact List.mem_singleton.mp hGiven

theorem Mapping.analyze_of_short
    {given : TypeMapping}
    (hApplies : appliesTo .types c.node.context = true)
    (hKey : entryKey .types given = writtenKey .types c.node.simpleName)
    (hSize : (lastPart c.node.qualifiedName).toByteArray.data.toList.length = 1) :
    analyze .types
        (NameIndex.ofEntries (entryKey .types)
          (TypeMap.extend TypeMap.builtin [given]).mappings) c =
      if flags .types c c.resolution given then [report .types c given]
      else [] := by
  split
  · next hFlags =>
      exact analyze_eq_singleton hApplies
        (TypeMap.mem_extend_singleton TypeMap.builtin given) hKey hFlags
        fun m hm => eq_of_flags_of_short hSize hm
  · next hQuiet =>
      refine analyze_eq_nil fun m hm => Bool.eq_false_iff.mpr fun hFlags => ?_
      obtain rfl := eq_of_flags_of_short hSize hm hFlags
      exact hQuiet hFlags

/-
  Where nothing is imported, a name that nothing is known
  about is flagged only if it is the whole old name.
-/
theorem Mapping.spelledOut_of_flags
    {mode : Mode}
    {m : TypeMapping}
    (hImports : c.tree.imports = [])
    (h : flags mode c .unresolved m = true) :
    ∃ w ∈ writtenForms mode c.node,
      c.language.namesEqual w m.oldName = true := by
  have hNone : isImported c m = false := by
    cases hNamespace : namespaceOf? m.oldName with
    | none => simp [isImported, hNamespace]
    | some target =>
        simp [isImported, hNamespace, SourceTree.hasImport, hImports]
  simpa [flags, hNone] using (Bool.and_eq_true_iff.mp h).2

theorem Mapping.reported_of_mem
    {mode : Mode}
    {ms : List TypeMapping}
    (hProper : ∀ m ∈ ms, m.IsProper)
    (h : d ∈ Mapping.analyze mode (NameIndex.ofEntries (entryKey mode) ms) c) :
    Reported c d := by
  rw [analyze_ofEntries] at h
  split at h
  · rcases Option.map_eq_some_iff.mp (Option.mem_toList.mp h) with
      ⟨m, hFound, rfl⟩
    have hMem := mem_preferred.mp (List.mem_of_find?_eq_some hFound)
    exact Reported.mapping mode (hProper m (List.mem_filter.mp hMem).1)
  · cases h

theorem Interop.reported_of_mem
    (h : d ∈ Interop.analyze Interop.builtin c) :
    Reported c d := by
  unfold analyze at h
  split at h
  · split at h
    · cases h
    · split at h
      · next hFound =>
        split at h
        · obtain rfl := List.mem_singleton.mp h
          exact Reported.interop (List.mem_of_find?_eq_some hFound)
        · cases h
      · cases h
  · cases h

/- All that the analyzers report at a name can be reported at it. -/
theorem NodeAnalyzer.reported_of_mem
    {compilation : Compilation}
    {a : NodeAnalyzer}
    (ha : a ∈ Analyzer.builtin.filterMap fun a => a.start? compilation)
    (h : d ∈ a.analyze c) :
    Reported c d := by
  rcases List.mem_filterMap.mp ha with ⟨analyzer, -, hStart⟩
  cases analyzer with
  | apiAlert rules =>
      simp only [Analyzer.start?] at hStart
      split at hStart
      · cases hStart
      · cases hStart
        exact ApiAlert.reported_of_mem h
  | typeUpgrade =>
      simp only [Analyzer.start?, Analyzer.startMapping] at hStart
      split at hStart
      · cases hStart
      · cases hStart
        exact Mapping.reported_of_mem (TypeMap.load_isProper _) h
  | attributeUpgrade =>
      simp only [Analyzer.start?, Analyzer.startMapping] at hStart
      split at hStart
      · cases hStart
      · cases hStart
        exact Mapping.reported_of_mem
          (fun m hm => TypeMap.load_isProper _ m (List.mem_filter.mp hm).1) h
  | interopApi =>
      cases hStart
      exact Interop.reported_of_mem h

------------------------------------------------------------
-- Analyzers
------------------------------------------------------------

namespace Analyzer

/- What an analyzer reports at a name, if it starts at all. -/
def reports
    (a : Analyzer)
    (compilation : Compilation)
    (c : NodeContext) : List Diagnostic :=
  ((a.start? compilation).map fun started => started.analyze c).getD []

theorem flatMap_reports
    (as : List Analyzer)
    (compilation : Compilation)
    (c : NodeContext) :
    (as.filterMap fun a => a.start? compilation).flatMap
        (fun started => started.analyze c) =
      as.flatMap fun a => a.reports compilation c := by
  induction as with
  | nil => rfl
  | cons a rest ih =>
      rw [List.filterMap_cons, List.flatMap_cons, ← ih]
      cases hStart : a.start? compilation with
      | none => simp [reports, hStart]
      | some started => simp [reports, hStart]

theorem reports_apiAlert
    (rules : Option (List ApiRule))
    (compilation : Compilation)
    (c : NodeContext) :
    (apiAlert rules).reports compilation c =
      ApiAlert.analyze
        (NameIndex.ofEntries ApiAlert.Entry.key
          (ApiAlert.entries
            (ownRules rules ++ ApiRule.ofFiles compilation.additional))) c := by
  simp only [reports, start?]
  split
  · next hNone =>
      rw [List.isEmpty_iff.mp hNone]
      rfl
  · rfl

/- Without rules from files, no alert is raised unless a target is written. -/
theorem reports_apiAlert_eq_nil
    {compilation : Compilation}
    {c : NodeContext}
    (hFiles : ApiRule.ofFiles compilation.additional = [])
    (hRules : ∀ rule ∈ ApiRule.builtin, ∀ t ∈ rule.targets,
      ApiAlert.isWrittenLike c t = false) :
    (apiAlert none).reports compilation c = [] := by
  rw [reports_apiAlert]
  refine ApiAlert.analyze_eq_nil fun e he => ?_
  rw [NameIndex.candidates_ofEntries, List.mem_filter] at he
  rcases List.mem_flatMap.mp he.1 with ⟨⟨rule, number⟩, hRule, hTarget⟩
  rcases List.mem_map.mp hTarget with ⟨t, ht, rfl⟩
  rw [hFiles, List.append_nil] at hRule
  simp [ApiAlert.flags,
    hRules rule (List.fst_mem_of_mem_zipIdx hRule) t ht]

theorem analyze_startMapping
    (mode : Mapping.Mode)
    (ms : List TypeMapping)
    (c : NodeContext) :
    ((startMapping mode ms).map fun started => started.analyze c).getD [] =
      Mapping.analyze mode (NameIndex.ofEntries (Mapping.entryKey mode) ms) c := by
  cases ms with
  | nil => simp [startMapping, Mapping.analyze_ofEntries, Mapping.preferred]
  | cons m rest => rfl

theorem reports_typeUpgrade
    (compilation : Compilation)
    (c : NodeContext) :
    typeUpgrade.reports compilation c =
      Mapping.analyze .types
        (NameIndex.ofEntries (Mapping.entryKey .types)
          (TypeMap.load compilation.additional).mappings) c :=
  analyze_startMapping .types _ c

theorem reports_attributeUpgrade
    (compilation : Compilation)
    (c : NodeContext) :
    attributeUpgrade.reports compilation c =
      Mapping.analyze .attributes
        (NameIndex.ofEntries (Mapping.entryKey .attributes)
          (TypeMap.load compilation.additional).attributes) c :=
  analyze_startMapping .attributes _ c

@[simp] theorem reports_interopApi
    (compilation : Compilation)
    (c : NodeContext) :
    interopApi.reports compilation c = Interop.analyze Interop.builtin c := rfl

theorem reports_attributeUpgrade_eq_nil
    {compilation : Compilation}
    {c : NodeContext}
    (h : c.node.isAttribute = false) :
    attributeUpgrade.reports compilation c = [] := by
  have hApplies : Mapping.appliesTo .attributes c.node.context = false := by
    rw [NameNode.isAttribute, beq_eq_false_iff_ne] at h
    cases hContext : c.node.context <;> first | rfl | exact absurd hContext h
  rw [reports_attributeUpgrade, Mapping.analyze, hApplies]
  rfl

theorem reports_interopApi_eq_nil
    {compilation : Compilation}
    {c : NodeContext}
    (h : c.node.isMemberAccess = false) :
    interopApi.reports compilation c = [] := by
  rw [reports_interopApi, Interop.analyze, h]
  rfl

/-
  Only renamed types and APIs that need a window handle can
  be reported at a name that is no target.
-/
theorem flatMap_reports_builtin
    {compilation : Compilation}
    {c : NodeContext}
    (hFiles : ApiRule.ofFiles compilation.additional = [])
    (hRules : ∀ rule ∈ ApiRule.builtin, ∀ t ∈ rule.targets,
      ApiAlert.isWrittenLike c t = false)
    (hAttribute : c.node.isAttribute = false) :
    (builtin.flatMap fun a => a.reports compilation c) =
      typeUpgrade.reports compilation c ++ interopApi.reports compilation c := by
  rw [builtin, allWith, List.flatMap_cons, List.flatMap_cons, List.flatMap_cons,
    List.flatMap_singleton, reports_apiAlert_eq_nil hFiles hRules,
    reports_attributeUpgrade_eq_nil hAttribute]
  rfl

end Analyzer

------------------------------------------------------------
-- Runs
------------------------------------------------------------

theorem Diagnostic.dropRepeats_sublist
    (ds : List Diagnostic) :
    (dropRepeats ds).Sublist ds := by
  induction ds using dropRepeats.induct with
  | case1 => exact List.Sublist.refl []
  | case2 d => exact List.Sublist.refl [d]
  | case3 a b r hRest ih => simp [dropRepeats, hRest]
  | case4 a b r c rest hRest hSame ih =>
      rw [hRest] at ih
      simp only [dropRepeats, hRest, hSame, if_true]
      exact ((List.sublist_cons_self c rest).trans ih).cons_cons a
  | case5 a b r c rest hRest hOther ih =>
      rw [hRest] at ih
      simp only [dropRepeats, hRest, hOther]
      exact ih.cons_cons a

theorem Diagnostic.mem_of_mem_arrange
    {ds : List Diagnostic}
    (h : d ∈ arrange ds) :
    d ∈ ds :=
  List.mem_mergeSort.mp ((dropRepeats_sublist _).subset h)

namespace Analysis

/- A run tells what each analyzer reports at each name. -/
theorem run_builtin
    (c : Compilation)
    (workers : Nat) :
    run Analyzer.builtin c workers false =
      .ok (Diagnostic.arrange
        (c.trees.flatMap fun tree => tree.names.flatMap fun node =>
          Analyzer.builtin.flatMap fun a =>
            a.reports c ⟨c.model tree, node⟩)) := by
  have hTree : analyzeTree c
      (Analyzer.builtin.filterMap fun a => a.start? c) =
        fun tree => tree.names.flatMap fun node =>
          Analyzer.builtin.flatMap fun a => a.reports c ⟨c.model tree, node⟩ := by
    funext tree
    simp only [analyzeTree, Analyzer.flatMap_reports]
  have hStarted : (Analyzer.builtin.filterMap fun a => a.start? c) ≠ [] := by
    refine List.ne_nil_of_mem (a := .interop Interop.builtin) ?_
    exact List.mem_filterMap.mpr
      ⟨.interopApi, by simp [Analyzer.builtin, Analyzer.allWith], rfl⟩
  rw [run_eq_inSequence]
  dsimp only
  rw [hTree, ← List.flatMap_def]
  cases hTrees : c.trees with
  | nil => simp [Diagnostic.arrange, Diagnostic.dropRepeats]
  | cons tree rest => simp [hStarted]

/- Every diagnostic of a run comes from a name of a file. -/
theorem exists_analyze_of_mem_run
    {compilation : Compilation}
    {workers : Nat}
    {cancelled : Bool}
    {ds : List Diagnostic}
    (hRun : run Analyzer.builtin compilation workers cancelled = .ok ds)
    (h : d ∈ ds) :
    ∃ tree ∈ compilation.trees, ∃ node ∈ tree.names,
      ∃ a ∈ Analyzer.builtin.filterMap fun a => a.start? compilation,
        d ∈ a.analyze ⟨compilation.model tree, node⟩ := by
  cases cancelled with
  | true => simp [run] at hRun
  | false =>
      rw [run_eq_inSequence] at hRun
      dsimp only at hRun
      split at hRun
      · cases hRun
        cases h
      · cases hRun
        rcases List.mem_flatten.mp (Diagnostic.mem_of_mem_arrange h) with
          ⟨found, hFound, hd⟩
        rcases List.mem_map.mp hFound with ⟨tree, hTree, rfl⟩
        rcases List.mem_flatMap.mp hd with ⟨node, hNode, hReported⟩
        rcases List.mem_flatMap.mp hReported with ⟨a, ha, hAnalyze⟩
        exact ⟨tree, hTree, node, hNode, a, ha, hAnalyze⟩

end Analysis

end Retarget
