import Retarget.Proofs.Rule.NameMatch
import Retarget.Proofs.Analysis.Report

/-
  This file compares the search for targets through an index
  of simple names with a scan of all targets.  The index
  hides a target whose key is not that of a name which is
  written like it: the suffix of attribute types is cut off
  once, and only from the end of a lower-cased name.  The
  key of a target has no dot, and so a name with a dot finds
  no target.

  Key definitions include:
    * `SuffixCounts`
    * `NameIndex.hides`
    * `ApiAlert.scan`
    * `Mapping.hides`
    * `Mapping.scan`

  Key statements include:
    * `attributeKey_suffixed_iff`
    * `ApiAlert.key_eq_iff`
    * `Mapping.key_eq_iff`
    * `SourceTree.analyze_eq_scan`
-/

namespace Retarget

------------------------------------------------------------
-- Keys
------------------------------------------------------------

/-
  The key of a name changes with the suffix: there is nothing
  in front of the suffix, the suffix changes the letters in
  front of it, or the name has a stem of its own.
-/
def SuffixCounts (name : String) : Prop :=
  name = "" ∨
  Text.lower (name ++ "Attribute") ≠ Text.lower name ++ "attribute" ∨
    (Text.hasEnd "attribute" (Text.lower name) = true ∧
      Text.lower name ≠ "attribute")

instance (name : String) : Decidable (SuffixCounts name) := by
  unfold SuffixCounts
  infer_instance

theorem attributeKey_congr
    {a b : String}
    (h : Text.lower a = Text.lower b) :
    attributeKey a = attributeKey b := by
  rw [attributeKey, attributeKey, h]

/- The key of a name with a stem, and of one without. -/
theorem attributeKey_cases
    (name : String) :
    (∃ stem, stem ≠ "" ∧ Text.lower name = stem ++ "attribute" ∧
      attributeKey name = stem) ∨
    ((Text.hasEnd "attribute" (Text.lower name) = true →
        Text.lower name = "attribute") ∧
      attributeKey name = Text.lower name) := by
  unfold attributeKey
  dsimp only
  split
  · next stem hStem =>
      rw [Text.stripEnd?_eq_some_iff] at hStem
      by_cases hEmpty : stem = ""
      · subst hEmpty
        exact Or.inr ⟨fun _ => by simpa using hStem, by simp⟩
      · exact Or.inl ⟨stem, hEmpty, hStem, by simp [hEmpty]⟩
  · next hNone =>
      refine Or.inr ⟨fun hEnd => ?_, rfl⟩
      rcases Text.hasEnd_iff.mp hEnd with ⟨stem, hStem⟩
      rw [Text.stripEnd?_eq_some_iff.mpr hStem] at hNone
      cases hNone

theorem attributeKey_eq_empty_iff
    {name : String} :
    attributeKey name = "" ↔ name = "" := by
  rcases attributeKey_cases name with
    ⟨stem, hStem, hLower, hKey⟩ | ⟨-, hKey⟩
  · refine iff_of_false (hKey ▸ hStem) fun hName => hStem ?_
    rw [hName, Text.lower_eq_empty_iff.mpr rfl] at hLower
    exact absurd hLower (by simp)
  · rw [hKey, Text.lower_eq_empty_iff]

/- The key of a name has a dot when the name has one. -/
theorem dot_mem_attributeKey_iff
    {name : String} :
    '.' ∈ (attributeKey name).toList ↔ '.' ∈ name.toList := by
  rw [← Text.dot_mem_lower_iff (s := name)]
  rcases attributeKey_cases name with ⟨stem, -, hLower, hKey⟩ | ⟨-, hKey⟩
  · rw [hKey, hLower]
    simp
  · rw [hKey]

/- A name and its suffixed form have one key unless the suffix counts. -/
theorem attributeKey_suffixed_iff
    {name : String} :
    attributeKey (name ++ "Attribute") = attributeKey name ↔
      ¬ SuffixCounts name := by
  by_cases hName : name = ""
  · subst hName
    decide
  have hAll : ("Attribute".toList.all fun c => c.toNat < 0x80) = true := by decide
  have hAscii : ∀ c ∈ "Attribute".toList, c.toNat < 0x80 := fun c hc =>
    of_decide_eq_true (List.all_eq_true.mp hAll c hc)
  rcases Text.exists_lower_append name hAscii with ⟨front, hLength, hLower⟩
  have hSuffix : Text.lowerAscii "Attribute" = "attribute" := by decide
  rw [hSuffix] at hLower
  have hFront : front ≠ "" := by
    rintro rfl
    have hNone : Text.lower name = "" := by simpa using hLength.symm
    exact hName (Text.lower_eq_empty_iff.mp hNone)
  have hLonger : attributeKey (name ++ "Attribute") = front := by
    unfold attributeKey
    simp [hLower, Text.stripEnd?_eq_some_iff.mpr rfl, hFront]
  rw [hLonger, SuffixCounts, hLower]
  rcases attributeKey_cases name with
    ⟨stem, hStem, hStemmed, hKey⟩ | ⟨hEnd, hKey⟩
  · have hShorter : front ≠ stem := by
      rintro rfl
      rw [hStemmed, String.length_append] at hLength
      have hPositive : 0 < "attribute".length := by decide
      omega
    have hCounts : Text.hasEnd "attribute" (Text.lower name) = true ∧
        Text.lower name ≠ "attribute" := by
      refine ⟨Text.hasEnd_iff.mpr ⟨stem, hStemmed⟩, fun hSame => hStem ?_⟩
      simpa [hStemmed] using hSame
    simp [hKey, hShorter, hCounts]
  · have hNone : ¬ (Text.hasEnd "attribute" (Text.lower name) = true ∧
        Text.lower name ≠ "attribute") :=
      fun hCounts => hCounts.2 (hEnd hCounts.1)
    simp [hKey, hNone, hName]

------------------------------------------------------------
-- Hidden targets
------------------------------------------------------------

namespace NameIndex

/-
  The index keeps a target from a written name that has the
  name of the target in another form, and every target from
  one that has a dot.
-/
def hides (language : Language) (written target : String) : Bool :=
  written.toList.contains '.' ||
    (decide (SuffixCounts written) &&
      language.namesEqual target (written ++ "Attribute")) ||
    (Text.stripEnd? "Attribute" written).any fun stem =>
      !stem.isEmpty && decide (SuffixCounts stem) &&
        language.namesEqual target stem

variable {language : Language}
variable {written target : String}

theorem attributeKey_eq_of_namesEqual
    {a b : String}
    (h : language.namesEqual a b = true) :
    attributeKey a = attributeKey b :=
  attributeKey_congr (Language.lower_eq_of_namesEqual h)

theorem hides_iff :
    hides language written target = true ↔
      '.' ∈ written.toList ∨
      (SuffixCounts written ∧
        language.namesEqual target (written ++ "Attribute") = true) ∨
      ∃ stem, stem ≠ "" ∧ written = stem ++ "Attribute" ∧
        SuffixCounts stem ∧ language.namesEqual target stem = true := by
  simp [hides, Option.any_eq_true, Text.stripEnd?_eq_some_iff, and_assoc,
    and_left_comm, or_assoc]

/- What is hidden has another key. -/
theorem attributeKey_ne_of_hides
    (hTarget : '.' ∉ target.toList)
    (h : hides language written target = true) :
    attributeKey target ≠ attributeKey written := by
  rcases hides_iff.mp h with
    hDot | ⟨hCounts, hSame⟩ | ⟨stem, -, rfl, hCounts, hSame⟩
  · intro hKey
    rw [← dot_mem_attributeKey_iff, ← hKey, dot_mem_attributeKey_iff] at hDot
    exact hTarget hDot
  · rw [attributeKey_eq_of_namesEqual hSame]
    exact fun hKey => attributeKey_suffixed_iff.mp hKey hCounts
  · rw [attributeKey_eq_of_namesEqual hSame]
    exact fun hKey => attributeKey_suffixed_iff.mp hKey.symm hCounts

/-
  A target that has the name of a form of the written name is
  hidden, or it has the key of the written name.
-/
theorem attributeKey_eq_iff
    (hTarget : '.' ∉ target.toList)
    (hForm : '.' ∉ written.toList → ∃ f ∈ attributeForms written,
      language.namesEqual target f = true) :
    attributeKey target = attributeKey written ↔
      hides language written target = false := by
  constructor
  · intro hKey
    rw [Bool.eq_false_iff]
    exact fun hHidden => attributeKey_ne_of_hides hTarget hHidden hKey
  · intro hShown
    rw [Bool.eq_false_iff, ne_eq, hides_iff, not_or, not_or] at hShown
    rcases hShown with ⟨hWritten, hNoSuffix, hNoStem⟩
    rcases hForm hWritten with ⟨f, hf, hSame⟩
    rw [attributeKey_eq_of_namesEqual hSame]
    rcases attributeForms_cases hWritten with
      ⟨stem, hStem, rfl, hForms⟩ | hForms
    · rw [hForms, List.mem_pair] at hf
      rcases hf with rfl | rfl
      · rfl
      · refine (attributeKey_suffixed_iff.mpr fun hCounts => ?_).symm
        exact hNoStem ⟨_, hStem.1, rfl, hCounts, hSame⟩
    · rw [hForms, List.mem_pair] at hf
      rcases hf with rfl | rfl
      · rfl
      · refine attributeKey_suffixed_iff.mpr fun hCounts => ?_
        exact hNoSuffix ⟨hCounts, hSame⟩

end NameIndex

variable {c : NodeContext}

------------------------------------------------------------
-- Alerts
------------------------------------------------------------

namespace ApiAlert

/- Check every entry, in the order of the table. -/
def scan (es : List Entry) (c : NodeContext) : List Diagnostic :=
  reportAll c c.resolution [] es

/- The index finds a target that a name is written like unless it is hidden. -/
theorem key_eq_iff
    {target : ApiTarget}
    (h : isWrittenLike c target = true) :
    attributeKey target.simpleName = attributeKey c.node.simpleName ↔
      NameIndex.hides c.language c.node.simpleName target.simpleName =
        false := by
  refine NameIndex.attributeKey_eq_iff
    (dot_not_mem_lastPart target.fullName) fun hName => ?_
  unfold isWrittenLike at h
  split at h
  · rw [Bool.and_eq_true, Language.namesEqual_comm] at h
    refine ⟨c.node.simpleName, ?_, h.2⟩
    rcases attributeForms_cases hName with ⟨stem, -, -, hForms⟩ | hForms <;>
      simp [hForms]
  · rcases c.node.exists_qualifiedName_eq with ⟨front, hFront, hQualified⟩
    rw [hQualified, Bool.and_eq_true] at h
    exact exists_form_of_isNameSuffix hFront hName h.2

/- Only flagged entries count. -/
theorem reportAll_filter_flags
    (resolution : Resolution)
    (reported : List Nat)
    (es : List Entry) :
    reportAll c resolution reported
        (es.filter fun e => flags c resolution e.target) =
      reportAll c resolution reported es := by
  induction es generalizing reported with
  | nil => rfl
  | cons e rest ih =>
      rw [List.filter_cons]
      by_cases hFlags : flags c resolution e.target = true
      · rw [if_pos hFlags, reportAll, reportAll, ih, ih]
      · rw [if_neg hFlags, reportAll, ih]
        simp [hFlags]

theorem scan_filter_congr
    {es : List Entry}
    {p q : Entry → Bool}
    (h : ∀ e ∈ es, flags c c.resolution e.target = true → p e = q e) :
    scan (es.filter p) c = scan (es.filter q) c := by
  rw [scan, scan, ← reportAll_filter_flags,
    ← reportAll_filter_flags _ _ (es.filter q), List.filter_filter,
    List.filter_filter]
  congr 1
  refine List.filter_congr fun e he => ?_
  cases hFlags : flags c c.resolution e.target with
  | true => simp [h e he hFlags]
  | false => simp

theorem analyze_ofEntries
    (es : List Entry)
    (c : NodeContext) :
    analyze (NameIndex.ofEntries Entry.key es) c =
      scan (es.filter fun e => e.key == attributeKey c.node.simpleName) c := by
  unfold analyze
  rw [NameIndex.candidates_ofEntries]
  split
  · next hNone => rw [hNone]; rfl
  · rfl

end ApiAlert

------------------------------------------------------------
-- Renamings
------------------------------------------------------------

namespace Mapping

/- Check every renaming, those from imported namespaces first. -/
def scan (mode : Mode) (ms : List TypeMapping) (c : NodeContext) : List Diagnostic :=
  if appliesTo mode c.node.context then
    (((preferred c ms).find? (flags mode c c.resolution)).map
      (report mode c)).toList
  else []

/-
  The index keeps a renaming from a written name.  A renaming
  of an attribute that is called like the suffix has an empty
  key, which is that of an empty name.
-/
def hides (mode : Mode) (language : Language) (written target : String) : Bool :=
  match mode with
  | .types => written.toList.contains '.'
  | .attributes =>
    !written.isEmpty &&
      (Text.lower target == "attribute" ||
        NameIndex.hides language written target)

/- The key of an attribute is cut even when nothing is left of it. -/
theorem entryKey_attributes
    (m : TypeMapping) :
    entryKey .attributes m =
      if Text.lower m.simpleName == "attribute" then ""
      else attributeKey m.simpleName := by
  simp only [entryKey, attributeKey]
  cases hStrip : Text.stripEnd? "attribute" (Text.lower m.simpleName) with
  | some stem =>
      rw [Text.stripEnd?_eq_some_iff] at hStrip
      by_cases hEmpty : stem = ""
      · simp [hStrip, hEmpty]
      · have hLonger : stem ++ "attribute" ≠ "attribute" :=
          fun hSame => hEmpty (by simpa using hSame)
        simp [hStrip, hEmpty, hLonger]
  | none =>
      have hOther : Text.lower m.simpleName ≠ "attribute" := by
        intro hSame
        rw [hSame] at hStrip
        exact absurd hStrip (by decide)
      simp [hOther]

/- What is written like nothing has an empty key, with or without the suffix. -/
theorem entryKey_of_emptyForm
    {language : Language}
    {m : TypeMapping}
    (hForm : ∃ f ∈ attributeForms "", language.namesEqual m.simpleName f = true) :
    entryKey .attributes m = "" := by
  have hForms : attributeForms "" = ["", "Attribute"] := by decide
  rcases hForm with ⟨f, hf, hSame⟩
  have hLower := Language.lower_eq_of_namesEqual hSame
  rw [hForms, List.mem_pair] at hf
  rw [entryKey_attributes]
  rcases hf with rfl | rfl
  · have hNone : m.simpleName = "" := Text.lower_eq_empty_iff.mp hLower
    rw [hNone]
    decide
  · have hSuffix : Text.lower "Attribute" = "attribute" := by decide
    rw [hLower, hSuffix]
    rfl

/- The index finds a renaming that is flagged unless it is hidden. -/
theorem key_eq_iff
    {mode : Mode}
    {m : TypeMapping}
    {resolution : Resolution}
    (h : flags mode c resolution m = true) :
    entryKey mode m = writtenKey mode c.node.simpleName ↔
      hides mode c.language c.node.simpleName m.simpleName = false := by
  rcases c.node.exists_qualifiedName_eq with ⟨front, hFront, hQualified⟩
  rcases isNameSuffix_of_flags h with ⟨w, hw, hSuffix⟩
  have hTarget : '.' ∉ m.simpleName.toList := dot_not_mem_lastPart m.oldName
  cases mode with
  | types =>
      rw [hides, Bool.eq_false_iff, ne_eq, List.contains_iff_mem]
      refine ⟨fun hKey => ?_, fun hName => ?_⟩
      · rwa [← Text.dot_mem_lower_iff, ← show Text.lower m.simpleName =
          Text.lower c.node.simpleName from hKey, Text.dot_mem_lower_iff]
      · obtain rfl := List.mem_singleton.mp hw
        have hSame := lastPart_of_isNameSuffix hSuffix
        rw [hQualified, lastPart_append hFront hName] at hSame
        exact Language.lower_eq_of_namesEqual hSame
  | attributes =>
      have hForm : '.' ∉ c.node.simpleName.toList →
          ∃ f ∈ attributeForms c.node.simpleName,
            c.language.namesEqual m.simpleName f = true := by
        intro hName
        refine exists_form_of_isNameSuffix hFront hName ?_
        rw [← hQualified]
        exact List.any_eq_true.mpr ⟨w, hw, hSuffix⟩
      have hIff : attributeKey m.simpleName =
          attributeKey c.node.simpleName ↔
            NameIndex.hides c.language c.node.simpleName m.simpleName =
              false :=
        NameIndex.attributeKey_eq_iff hTarget hForm
      rw [writtenKey, hides]
      by_cases hName : c.node.simpleName = ""
      · rw [hName] at hForm ⊢
        rw [entryKey_of_emptyForm (hForm (by simp))]
        simp [attributeKey_eq_empty_iff]
      · have hKey : attributeKey c.node.simpleName ≠ "" :=
          mt attributeKey_eq_empty_iff.mp hName
        rw [entryKey_attributes]
        by_cases hSuffixOnly : Text.lower m.simpleName = "attribute"
        · simp [hSuffixOnly, hKey.symm, hName]
        · simpa [hSuffixOnly, hName] using hIff

theorem preferred_filter
    (p : TypeMapping → Bool)
    (ms : List TypeMapping) :
    preferred c (ms.filter p) = (preferred c ms).filter p := by
  simp only [preferred, List.filter_append, List.filter_filter,
    Bool.and_comm]

theorem scan_filter_congr
    {mode : Mode}
    {ms : List TypeMapping}
    {p q : TypeMapping → Bool}
    (h : ∀ m ∈ ms, flags mode c c.resolution m = true → p m = q m) :
    scan mode (ms.filter p) c = scan mode (ms.filter q) c := by
  have hFound :
      ((preferred c ms).filter p).find? (flags mode c c.resolution) =
        ((preferred c ms).filter q).find? (flags mode c c.resolution) := by
    rw [← List.head?_filter, ← List.head?_filter, List.filter_filter,
      List.filter_filter]
    congr 1
    refine List.filter_congr fun m hm => ?_
    cases hFlags : flags mode c c.resolution m with
    | true => simp [h m (mem_preferred.mp hm) hFlags]
    | false => simp
  rw [scan, scan, preferred_filter, preferred_filter, hFound]

end Mapping

------------------------------------------------------------
-- Files
------------------------------------------------------------

/-
  At every name, whatever the file and the symbols are: the
  index finds what a scan of the targets finds that are not
  hidden from the name.  So a scan of all targets finds the
  same if no target is hidden that is flagged.
-/
theorem SourceTree.analyze_eq_scan
    (tree : SourceTree)
    (table : SymbolTable)
    (rules : List ApiRule)
    (mode : Mapping.Mode)
    (ms : List TypeMapping)
    (node : NameNode) :
    let c : NodeContext := ⟨⟨tree, table⟩, node⟩
    let es := ApiAlert.entries rules
    let isHidden := fun e : ApiAlert.Entry =>
      NameIndex.hides tree.language node.simpleName e.target.simpleName
    let isHiddenMapping := fun m : TypeMapping =>
      Mapping.hides mode tree.language node.simpleName m.simpleName
    let alerts :=
      ApiAlert.analyze (NameIndex.ofEntries ApiAlert.Entry.key es) c
    let renamings :=
      Mapping.analyze mode
        (NameIndex.ofEntries (Mapping.entryKey mode) ms) c
    (alerts = ApiAlert.scan (es.filter fun e => !isHidden e) c ∧
      renamings =
        Mapping.scan mode (ms.filter fun m => !isHiddenMapping m) c) ∧
    ((∀ e ∈ es, ApiAlert.flags c c.resolution e.target = true →
        isHidden e = false) →
      alerts = ApiAlert.scan es c) ∧
    ((∀ m ∈ ms, Mapping.flags mode c c.resolution m = true →
        isHiddenMapping m = false) →
      renamings = Mapping.scan mode ms c) := by
  intro c es isHidden isHiddenMapping alerts renamings
  have hAlerts : alerts =
      ApiAlert.scan (es.filter fun e => !isHidden e) c := by
    refine (ApiAlert.analyze_ofEntries es c).trans ?_
    refine ApiAlert.scan_filter_congr fun e _ hFlags => ?_
    rw [Bool.eq_iff_iff, beq_iff_eq, Bool.not_eq_true']
    exact ApiAlert.key_eq_iff (Bool.and_eq_true_iff.mp hFlags).1
  have hRenamings : renamings =
      Mapping.scan mode (ms.filter fun m => !isHiddenMapping m) c := by
    refine (Mapping.analyze_ofEntries mode ms c).trans ?_
    refine Mapping.scan_filter_congr fun m _ hFlags => ?_
    rw [Bool.eq_iff_iff, beq_iff_eq, Bool.not_eq_true']
    exact Mapping.key_eq_iff hFlags
  refine ⟨⟨hAlerts, hRenamings⟩, fun hShown => ?_, fun hShown => ?_⟩
  · have hAll : es = es.filter fun _ => true := by simp
    rw [hAlerts]
    conv_rhs => rw [hAll]
    refine ApiAlert.scan_filter_congr fun e he hFlags => ?_
    simp [hShown e he hFlags]
  · have hAll : ms = ms.filter fun _ => true := by simp
    rw [hRenamings]
    conv_rhs => rw [hAll]
    refine Mapping.scan_filter_congr fun m hm hFlags => ?_
    simp [hShown m hm hFlags]

------------------------------------------------------------
-- Attributes of one file
------------------------------------------------------------

namespace Marking

def name (written : String) : NameNode :=
  ⟨written, none, .attribute, false,
    ⟨1, 1 + written.length⟩, ⟨1, 1 + written.length⟩⟩

/- A class with an attribute. -/
def file (written : String) : SourceTree :=
  { path := ⟨"a.cs"⟩
    language := .cSharp
    text := "[" ++ written ++ "] class C { }\n"
    parts :=
      { names := [name written]
        declarations := [⟨none, "C"⟩] } }

def table (written : String) : SymbolTable :=
  (Compilation.empty.addTree (file written)).symbols

def context (written : String) : NodeContext :=
  ⟨⟨file written, table written⟩, name written⟩

def rule : ApiRule :=
  ⟨"X", [⟨"N.MarkerAttribute", .type, true⟩], "one"⟩

/- The renaming of an attribute. -/
def renamed (oldName : String) : TypeMapping :=
  ⟨oldName, some "Lib.MarkAttribute"⟩

/- Nothing is hidden from a name whose key the suffix does not change. -/
theorem analyze_eq_scan_of_marker :
    name "Marker" ∈ (file "Marker").names ∧
    ApiAlert.analyze
        (NameIndex.ofEntries ApiAlert.Entry.key (ApiAlert.entries [rule]))
        (context "Marker") =
      ApiAlert.scan (ApiAlert.entries [rule]) (context "Marker") ∧
    Mapping.analyze .attributes
        (NameIndex.ofEntries (Mapping.entryKey .attributes)
          [renamed "N.MarkerAttribute"])
        (context "Marker") =
      Mapping.scan .attributes [renamed "N.MarkerAttribute"]
        (context "Marker") ∧
    Mapping.scan .attributes [renamed "N.MarkerAttribute"]
        (context "Marker") =
      [Mapping.report .attributes (context "Marker")
        (renamed "N.MarkerAttribute")] := by
  have hFound := SourceTree.analyze_eq_scan (file "Marker")
    (table "Marker") [rule] .attributes [renamed "N.MarkerAttribute"]
    (name "Marker")
  refine ⟨List.mem_singleton_self _, hFound.2.1 ?_, hFound.2.2 ?_, ?_⟩
  · decide +kernel
  · decide +kernel
  · decide +kernel

/-
  The class that all attributes come from is called like the
  suffix, and its renaming is hidden from its own name.
-/
theorem analyze_ne_scan :
    name "Attribute" ∈ (file "Attribute").names ∧
    Mapping.analyze .attributes
        (NameIndex.ofEntries (Mapping.entryKey .attributes)
          [renamed "System.Attribute"])
        (context "Attribute") = [] ∧
    Mapping.scan .attributes [renamed "System.Attribute"]
        (context "Attribute") =
      [Mapping.report .attributes (context "Attribute")
        (renamed "System.Attribute")] := by
  refine ⟨List.mem_singleton_self _, ?_, ?_⟩
  · decide +kernel
  · decide +kernel

end Marking

end Retarget
