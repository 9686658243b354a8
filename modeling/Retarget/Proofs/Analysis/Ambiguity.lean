import Mathlib.Data.List.Forall2
import Retarget.Proofs.Analysis.Index

/-
  This file shows that the rules of an alert table do not
  disturb each other: each of them reports at a name what it
  would report alone.  A rule that also counts for names
  that nothing is known about reports at more names, and at
  a name of a known symbol it reports the same.

  Key definitions include:
    * `ApiRule.Widens`
    * `ApiAlert.index`
    * `ApiAlert.alert?`
    * `ApiAlert.IsAbout`

  Key statements include:
    * `ApiAlert.analyze_index`
    * `ApiAlert.isAbout_of_alert?`
    * `ApiAlert.isSome_alert?_of_widens`
    * `ApiAlert.alert?_eq_of_resolved`
    * `ApiAlert.analyze_of_widened`
-/

namespace Retarget

------------------------------------------------------------
-- Wider rules
------------------------------------------------------------

/-
  The other target names the same API and counts for names
  that nothing is known about if the first one does.
-/
structure ApiTarget.Widens (t other : ApiTarget) : Prop where
  fullName_eq : t.fullName = other.fullName
  kind_eq : t.kind = other.kind
  alertOnAmbiguous : t.alertOnAmbiguous = true → other.alertOnAmbiguous = true

namespace ApiTarget.Widens

variable {t other : ApiTarget}

theorem simpleName_eq
    (h : t.Widens other) :
    t.simpleName = other.simpleName := by
  rw [ApiTarget.simpleName, ApiTarget.simpleName, h.fullName_eq]

theorem matcher_eq
    (h : t.Widens other) :
    t.matcher = other.matcher := by
  rw [ApiTarget.matcher, ApiTarget.matcher, h.kind_eq, h.fullName_eq]

end ApiTarget.Widens

structure ApiRule.Widens (rule other : ApiRule) : Prop where
  id_eq : rule.id = other.id
  message_eq : rule.message = other.message
  targets : List.Forall₂ ApiTarget.Widens rule.targets other.targets

namespace ApiAlert

variable {c : NodeContext}
variable {resolution : Resolution}

------------------------------------------------------------
-- Rules one by one
------------------------------------------------------------

/- The targets of some rules by the names that they are found under. -/
def index (rules : List ApiRule) : NameIndex Entry :=
  NameIndex.ofEntries Entry.key (entries rules)

/- The target is found under the name. -/
def isSought (c : NodeContext) (t : ApiTarget) : Bool :=
  attributeKey t.simpleName == attributeKey c.node.simpleName

/- The target is found under the name, and it is flagged there. -/
def isRaised (c : NodeContext) (t : ApiTarget) : Bool :=
  isSought c t && flags c c.resolution t

/- What a rule reports at a name when it is the only one. -/
def alert? (c : NodeContext) (rule : ApiRule) : Option Diagnostic :=
  (rule.targets.find? (isRaised c)).map fun t => report c ⟨0, rule, t⟩

/- The entries of one rule with a number. -/
def ruleEntries (number : Nat) (rule : ApiRule) (ts : List ApiTarget) : List Entry :=
  ts.map fun t => ⟨number, rule, t⟩

/- A rule that has been reported is passed over. -/
theorem reportAll_of_reported
    (c : NodeContext)
    (resolution : Resolution)
    {number : Nat}
    {reported : List Nat}
    (hReported : number ∈ reported)
    (rule : ApiRule)
    (ts : List ApiTarget)
    (rest : List Entry) :
    reportAll c resolution reported (ruleEntries number rule ts ++ rest) =
      reportAll c resolution reported rest := by
  induction ts with
  | nil => rfl
  | cons t ts ih =>
      rw [ruleEntries, List.map_cons, List.cons_append, reportAll]
      simpa [hReported, ruleEntries] using ih

/-
  A new rule is reported for its first target that is
  flagged.  What has been reported behind it is what was
  before, and perhaps the rule.
-/
theorem exists_reportAll_ruleEntries
    (c : NodeContext)
    (resolution : Resolution)
    {number : Nat}
    {reported : List Nat}
    (hNew : number ∉ reported)
    (rule : ApiRule)
    (ts : List ApiTarget)
    (rest : List Entry) :
    ∃ later, (∀ j ∈ later, j ∈ reported ∨ j = number) ∧
      reportAll c resolution reported (ruleEntries number rule ts ++ rest) =
        ((ts.find? (flags c resolution)).map fun t =>
          report c ⟨0, rule, t⟩).toList ++
            reportAll c resolution later rest := by
  induction ts with
  | nil => exact ⟨reported, fun _ hj => Or.inl hj, rfl⟩
  | cons t ts ih =>
      rw [ruleEntries, List.map_cons, List.cons_append, reportAll,
        List.find?_cons]
      cases hFlags : flags c resolution t with
      | true =>
          refine ⟨number :: reported, fun j hj => ?_, ?_⟩
          · exact (List.mem_cons.mp hj).symm
          · have hPassed := reportAll_of_reported c resolution
              (List.mem_cons_self : number ∈ number :: reported) rule ts rest
            rw [ruleEntries] at hPassed
            simp [hNew, hPassed, report]
      | false =>
          simpa [ruleEntries] using ih

/- Rules that are numbered from some number on. -/
theorem reportAll_zipIdx
    (p : ApiTarget → Bool)
    (rules : List ApiRule)
    {n : Nat}
    {reported : List Nat}
    (hBefore : ∀ j ∈ reported, j < n) :
    reportAll c resolution reported
        ((rules.zipIdx n).flatMap fun (rule, i) =>
          ruleEntries i rule (rule.targets.filter p)) =
      rules.filterMap fun rule =>
        ((rule.targets.filter p).find? (flags c resolution)).map fun t =>
          report c ⟨0, rule, t⟩ := by
  induction rules generalizing n reported with
  | nil => rfl
  | cons rule rules ih =>
      rw [List.zipIdx_cons, List.flatMap_cons]
      have hNew : n ∉ reported := fun hMem => (hBefore n hMem).ne rfl
      rcases exists_reportAll_ruleEntries c resolution hNew rule
          (rule.targets.filter p) ((rules.zipIdx (n + 1)).flatMap fun (rule, i) =>
            ruleEntries i rule (rule.targets.filter p)) with
        ⟨later, hLater, hReport⟩
      have hNext : ∀ j ∈ later, j < n + 1 := by
        intro j hj
        rcases hLater j hj with hOld | rfl
        · exact (hBefore j hOld).trans (Nat.lt_succ_self n)
        · exact Nat.lt_succ_self j
      rw [hReport, ih hNext, List.filterMap_cons]
      cases (rule.targets.filter p).find? (flags c resolution) with
      | none => rfl
      | some t => rfl

/- Each rule reports at a name what it would report alone. -/
theorem analyze_index
    (rules : List ApiRule)
    (c : NodeContext) :
    analyze (index rules) c = rules.filterMap (alert? c) := by
  have hEntries : ((entries rules).filter fun e =>
        e.key == attributeKey c.node.simpleName) =
      rules.zipIdx.flatMap fun (rule, i) =>
        ruleEntries i rule (rule.targets.filter (isSought c)) := by
    rw [entries, List.filter_flatMap]
    refine List.flatMap_congr fun ⟨rule, i⟩ _ => ?_
    rw [List.filter_map]
    rfl
  rw [index, analyze_ofEntries, hEntries, scan,
    reportAll_zipIdx (isSought c) rules
      (fun _ hj => absurd hj List.not_mem_nil)]
  refine List.filterMap_congr fun rule _ => ?_
  simp only [alert?, List.find?_filter, Bool.decide_and, Bool.decide_eq_true]
  rfl

/- The diagnostic is the one of a rule, at the name. -/
structure IsAbout (c : NodeContext) (rule : ApiRule) (d : Diagnostic) : Prop where
  id_eq : d.id = diagnosticId rule.id
  message_eq : d.message = rule.message
  location_eq :
    d.location = .inTree c.tree c.node.span ∨
      d.location = .inTree c.tree c.node.fullSpan

theorem isAbout_of_alert?
    {rule : ApiRule}
    {d : Diagnostic}
    (h : alert? c rule = some d) :
    IsAbout c rule d := by
  rcases Option.map_eq_some_iff.mp h with ⟨t, -, rfl⟩
  refine ⟨rfl, rfl, ?_⟩
  simp only [report, Diagnostic.ofDescriptor]
  cases t.kind with
  | member => exact Or.inl rfl
  | type => exact Or.inr rfl
  | nameSpace => exact Or.inr rfl

------------------------------------------------------------
-- Wider tables
------------------------------------------------------------

theorem isWrittenLike_congr
    {t other : ApiTarget}
    (h : t.Widens other)
    (c : NodeContext) :
    isWrittenLike c t = isWrittenLike c other := by
  rw [isWrittenLike, isWrittenLike, h.kind_eq, h.simpleName_eq, h.fullName_eq]

/- A name of a known symbol is confirmed or not, whatever the policy is. -/
theorem isRaised_eq_of_resolved
    {t other : ApiTarget}
    {s : Symbol}
    (h : t.Widens other)
    (hResolved : c.resolution = .resolved s) :
    isRaised c t = isRaised c other := by
  rw [isRaised, isRaised, isSought, isSought, flags, flags, h.simpleName_eq,
    isWrittenLike_congr h, h.matcher_eq, hResolved]
  rfl

theorem confirms_of_imp
    {matcher : NameMatcher}
    {otherwise wider : Bool}
    (hWider : otherwise = true → wider = true)
    (h : resolution.confirms matcher otherwise = true) :
    resolution.confirms matcher wider = true := by
  cases resolution with
  | resolved s => exact h
  | errorType name => exact hWider h
  | unresolved => exact hWider h

theorem isRaised_of_widens
    {t other : ApiTarget}
    (h : t.Widens other)
    (hRaised : isRaised c t = true) :
    isRaised c other = true := by
  rw [isRaised, isSought, flags, Bool.and_eq_true, Bool.and_eq_true] at hRaised ⊢
  rcases hRaised with ⟨hKey, hWritten, hConfirms⟩
  refine ⟨h.simpleName_eq ▸ hKey, isWrittenLike_congr h c ▸ hWritten, ?_⟩
  rw [← h.matcher_eq]
  exact confirms_of_imp h.alertOnAmbiguous hConfirms

/- A wider rule reports where the rule does. -/
theorem isSome_alert?_of_widens
    {rule other : ApiRule}
    (h : rule.Widens other)
    (hAlert : (alert? c rule).isSome = true) :
    (alert? c other).isSome = true := by
  rw [alert?, Option.isSome_map] at hAlert ⊢
  have hTargets := h.targets
  generalize rule.targets = ts at hTargets hAlert
  generalize other.targets = others at hTargets ⊢
  induction hTargets with
  | nil => exact hAlert
  | @cons t wider _ _ hFirst _ ih =>
      rw [List.find?_cons] at hAlert ⊢
      cases hWider : isRaised c wider with
      | true => rfl
      | false =>
          have hNarrow : isRaised c t = false := by
            rw [Bool.eq_false_iff] at hWider ⊢
            exact fun hRaised => hWider (isRaised_of_widens hFirst hRaised)
          rw [hNarrow] at hAlert
          exact ih hAlert

/- At a name of a known symbol the rules report the same. -/
theorem alert?_eq_of_resolved
    {rule other : ApiRule}
    {s : Symbol}
    (h : rule.Widens other)
    (hResolved : c.resolution = .resolved s) :
    alert? c rule = alert? c other := by
  rw [alert?, alert?]
  have hTargets := h.targets
  generalize rule.targets = ts at hTargets ⊢
  generalize other.targets = others at hTargets ⊢
  induction hTargets with
  | nil => rfl
  | cons hFirst _ ih =>
      rw [List.find?_cons, List.find?_cons,
        isRaised_eq_of_resolved hFirst hResolved]
      split
      · simp [report, h.id_eq, h.message_eq, hFirst.kind_eq]
      · exact ih

/-
  A table whose rules also count for names that nothing is
  known about.  Whatever the file, the symbols and the name
  are: each rule reports on its own, it is reported where it
  was before, and at a name of a known symbol the tables
  report the same.
-/
theorem analyze_of_widened
    {rules others : List ApiRule}
    (hWider : List.Forall₂ ApiRule.Widens rules others)
    (tree : SourceTree)
    (table : SymbolTable)
    (node : NameNode) :
    let c : NodeContext := ⟨⟨tree, table⟩, node⟩
    (analyze (index rules) c = rules.filterMap (alert? c) ∧
      analyze (index others) c = others.filterMap (alert? c)) ∧
    List.Forall₂
      (fun rule other => ∀ d, alert? c rule = some d →
        IsAbout c rule d ∧ ∃ d', alert? c other = some d' ∧ IsAbout c other d')
      rules others ∧
    ∀ s, c.resolution = .resolved s →
      analyze (index rules) c = analyze (index others) c := by
  intro c
  refine ⟨⟨analyze_index rules c, analyze_index others c⟩, ?_, ?_⟩
  · refine hWider.imp fun rule other h d hAlert => ?_
    have hSome : (alert? c rule).isSome = true := by
      rw [hAlert]
      rfl
    rcases Option.isSome_iff_exists.mp (isSome_alert?_of_widens h hSome) with
      ⟨d', hOther⟩
    exact ⟨isAbout_of_alert? hAlert, d', hOther, isAbout_of_alert? hOther⟩
  · intro s hResolved
    rw [analyze_index, analyze_index]
    induction hWider with
    | nil => rfl
    | cons hFirst _ ih =>
        rw [List.filterMap_cons, List.filterMap_cons,
          alert?_eq_of_resolved hFirst hResolved, ih]

------------------------------------------------------------
-- A name with and without a symbol
------------------------------------------------------------

namespace Doubtful

def name : NameNode :=
  ⟨"T", none, .simple, false, ⟨10, 11⟩, ⟨10, 11⟩⟩

/- A class with a field. -/
def file : SourceTree :=
  { path := ⟨"a.cs"⟩
    language := .cSharp
    text := "class C { T t; }"
    parts :=
      { names := [name]
        declarations := [⟨none, "C"⟩] } }

/- The name with the symbols of a list. -/
def context (references : String) : NodeContext :=
  ⟨⟨file, .ofReferenceList references⟩, name⟩

/- Two rules about types, the first of them with two targets. -/
def rules (alertOnAmbiguous : Bool) : List ApiRule :=
  [⟨"X", [⟨"M.T", .type, false⟩, ⟨"N.T", .type, alertOnAmbiguous⟩], "one"⟩,
    ⟨"Y", [⟨"T", .type, true⟩], "two"⟩]

def symbol : Symbol :=
  .declared "T" .type .global

theorem names_eq : file.names = [name] := by
  decide +kernel

theorem widens :
    List.Forall₂ ApiRule.Widens (rules false) (rules true) := by
  refine .cons ⟨rfl, rfl, ?_⟩ (.cons ⟨rfl, rfl, ?_⟩ .nil)
  · exact .cons ⟨rfl, rfl, id⟩ (.cons ⟨rfl, rfl, fun _ => rfl⟩ .nil)
  · exact .cons ⟨rfl, rfl, id⟩ .nil

/-
  The wider rule is reported too where nothing is known about
  the name, and is silent where it is the name of a type.
-/
theorem analyze_of_widened_of_type :
    file.names = [name] ∧
    List.Forall₂ ApiRule.Widens (rules false) (rules true) ∧
    (context "").resolution = .unresolved ∧
    (analyze (index (rules false)) (context "")).map Diagnostic.id =
      ["UA0013_Y"] ∧
    (analyze (index (rules true)) (context "")).map Diagnostic.id =
      ["UA0013_X", "UA0013_Y"] ∧
    (context "T:T\n").resolution = .resolved symbol ∧
    analyze (index (rules false)) (context "T:T\n") =
      analyze (index (rules true)) (context "T:T\n") ∧
    (analyze (index (rules true)) (context "T:T\n")).map Diagnostic.id =
      ["UA0013_Y"] := by
  have hUnknown := analyze_of_widened widens file (.ofReferenceList "") name
  have hKnown := analyze_of_widened widens file (.ofReferenceList "T:T\n") name
  have hResolved : (context "T:T\n").resolution = .resolved symbol := by
    decide +kernel
  refine ⟨names_eq, widens, by decide +kernel, ?_, ?_, hResolved,
    hKnown.2.2 symbol hResolved, ?_⟩
  · exact (congrArg _ hUnknown.1.1).trans (by decide +kernel)
  · exact (congrArg _ hUnknown.1.2).trans (by decide +kernel)
  · exact (congrArg _ hKnown.1.2).trans (by decide +kernel)

end Doubtful

end ApiAlert

end Retarget
