import Retarget.Proofs.Symbol.Name
import Retarget.Proofs.Analysis.Report

/-
  This file shows that a name which stands for a known symbol
  is reported only for that symbol.  Each diagnostic is kept
  with the target that it is reported for.  Nothing is asked
  of the name: it may be missing in the text.

  Key definitions include:
    * `Finding`
    * `Finding.segments`
    * `Finding.IsFor`
    * `NodeAnalyzer.findings`

  Key statements include:
    * `Finding.isFor_of_target`
    * `NodeAnalyzer.findings_diagnostic`
    * `Analyzer.findings_isFor`
-/

namespace Retarget

------------------------------------------------------------
-- Matched symbols
------------------------------------------------------------

namespace NameMatcher

variable {s : Symbol}

/- The parts that a symbol is matched against spell its full name. -/
theorem fullName_of_matchesParts
    {parts : List String}
    (h : matchesParts parts.reverse s = true) :
    Text.equalsIgnoringAsciiCase s.fullName (Text.join "." parts) = true := by
  rw [← Text.lowerAscii_eq_iff, Symbol.fullName, ← Text.lowerAscii_join,
    ← Text.lowerAscii_join, List.map_reverse, matchesParts_iff.mp h,
    List.map_reverse, List.reverse_reverse]

/- A symbol that is matched as a type has the name of the type. -/
theorem fullName_of_forType
    {fullName : String}
    (h : (forType fullName).matchesSymbol s = true) :
    Text.equalsIgnoringAsciiCase s.fullName
        (Text.join "." (SymbolTable.nameParts fullName)) = true ∧
      s.isMember = false := by
  simp only [matchesSymbol, forType, matchesType, Bool.and_eq_true,
    Bool.not_eq_true'] at h
  exact ⟨fullName_of_matchesParts h.2, h.1⟩

/- A symbol that is matched as a member has the name of the member. -/
theorem fullName_of_forMember
    {owner member : String}
    (h : (forMember owner member).matchesSymbol s = true) :
    Text.equalsIgnoringAsciiCase s.fullName
        (Text.join "." (SymbolTable.nameParts owner ++ [member])) = true ∧
      s.isMember = true := by
  simp only [matchesSymbol, forMember, Bool.and_eq_true] at h
  rcases h with ⟨⟨hMember, hName⟩, hOwner⟩
  refine ⟨fullName_of_matchesParts ?_, hMember⟩
  cases s with
  | global => cases hMember
  | declared name kind container =>
      have hParts : matchesParts (reversedPartsOf owner) container = true :=
        (Bool.and_eq_true_iff.mp hOwner).2
      rw [List.reverse_concat, matchesParts, Bool.and_eq_true]
      exact ⟨hName, hParts⟩

end NameMatcher

------------------------------------------------------------
-- Findings
------------------------------------------------------------

/- A diagnostic with the API that it is reported for. -/
structure Finding where
  target : String
  isMember : Bool
  diagnostic : Diagnostic
  deriving DecidableEq

/-
  The segments of the API without empty ones.  A member's own
  name is compared as a whole, and so it counts also when it
  is empty.
-/
def Finding.segments (f : Finding) : List String :=
  if f.isMember && (lastPart f.target).isEmpty then
    SymbolTable.nameParts f.target ++ [""]
  else SymbolTable.nameParts f.target

/-
  The symbol has the name of the API in letters of any case,
  and it is a member if the API is.
-/
structure Finding.IsFor (f : Finding) (s : Symbol) : Prop where
  sameName :
    Text.equalsIgnoringAsciiCase s.fullName (Text.join "." f.segments) = true
  isMember_eq : s.isMember = f.isMember

namespace Finding

variable {f : Finding}
variable {s : Symbol}

theorem segments_of_lastPart
    (h : f.isMember = true → lastPart f.target ≠ "") :
    f.segments = SymbolTable.nameParts f.target := by
  rw [segments, if_neg]
  intro hEmpty
  rcases Bool.and_eq_true_iff.mp hEmpty with ⟨hKind, hLast⟩
  exact h hKind (String.isEmpty_iff.mp hLast)

/- What is found for a name that a type matches is for it. -/
theorem isFor_of_forType
    (hKind : f.isMember = false)
    (h : (NameMatcher.forType f.target).matchesSymbol s = true) :
    f.IsFor s := by
  rcases NameMatcher.fullName_of_forType h with ⟨hName, hMember⟩
  have hSegments := segments_of_lastPart (f := f) (by simp [hKind])
  exact ⟨hSegments ▸ hName, hMember.trans hKind.symm⟩

/- What is found for a member is for it. -/
theorem isFor_of_forMember
    {owner member : String}
    (hDot : '.' ∉ member.toList)
    (hParts : SymbolTable.nameParts f.target =
      SymbolTable.nameParts owner ++ SymbolTable.nameParts member)
    (hLast : lastPart f.target = member)
    (hKind : f.isMember = true)
    (h : (NameMatcher.forMember owner member).matchesSymbol s = true) :
    f.IsFor s := by
  rcases NameMatcher.fullName_of_forMember h with ⟨hName, hMember⟩
  refine ⟨?_, hMember.trans hKind.symm⟩
  have hSegments : f.segments = SymbolTable.nameParts owner ++ [member] := by
    by_cases hEmpty : member = ""
    · subst hEmpty
      have hNone : SymbolTable.nameParts "" = [] := by decide
      rw [segments, hKind, hLast, if_pos (by decide), hParts, hNone,
        List.append_nil]
    · rw [segments_of_lastPart fun _ => hLast ▸ hEmpty, hParts,
        SymbolTable.nameParts_of_isSegment ⟨hEmpty, hDot⟩]
  rwa [hSegments]

/- A target that matches a symbol is for it. -/
theorem isFor_of_target
    {target : ApiTarget}
    (hTarget : f.target = target.fullName)
    (hKind : f.isMember = (target.kind == .member))
    (h : target.matcher.matchesSymbol s = true) :
    f.IsFor s := by
  obtain ⟨name, isMember, diagnostic⟩ := f
  obtain ⟨fullName, kind, alertOnAmbiguous⟩ := target
  obtain rfl : name = fullName := hTarget
  cases kind with
  | type => exact isFor_of_forType hKind h
  | nameSpace => exact isFor_of_forType hKind h
  | member =>
      change (NameMatcher.forMemberName name).matchesSymbol s = true at h
      rw [NameMatcher.forMemberName] at h
      cases hSplit : Text.splitLast '.' name with
      | none =>
          rw [hSplit] at h
          have hDot := Text.splitLast_eq_none_iff.mp hSplit
          exact isFor_of_forMember hDot (by simp [SymbolTable.nameParts,
            Text.splitAt_of_dot_not_mem]) (lastPart_eq_self hDot) hKind h
      | some pieces =>
          obtain ⟨owner, member⟩ := pieces
          rw [hSplit] at h
          rcases Text.splitLast_eq_some_iff.mp hSplit with ⟨rfl, hDot⟩
          refine isFor_of_forMember hDot (SymbolTable.nameParts_append _ _)
            ?_ hKind h
          exact lastPart_append (Or.inr ⟨owner, rfl⟩) hDot

end Finding

variable {c : NodeContext}

namespace ApiAlert

def finding (c : NodeContext) (e : Entry) : Finding :=
  ⟨e.target.fullName, e.target.kind == .member, report c e⟩

/- What is reported for each rule, with the first target that is flagged. -/
def findAll
    (c : NodeContext)
    (resolution : Resolution)
    (reported : List Nat) : List Entry → List Finding
  | [] => []
  | e :: rest =>
    if !reported.contains e.number && flags c resolution e.target then
      finding c e :: findAll c resolution (e.number :: reported) rest
    else findAll c resolution reported rest

def findings (index : NameIndex Entry) (c : NodeContext) : List Finding :=
  findAll c c.resolution []
    (NameIndex.candidates index (attributeKey c.node.simpleName))

theorem findAll_diagnostic
    (resolution : Resolution)
    (reported : List Nat)
    (es : List Entry) :
    (findAll c resolution reported es).map Finding.diagnostic =
      reportAll c resolution reported es := by
  induction es generalizing reported with
  | nil => rfl
  | cons e rest ih =>
      rw [findAll, reportAll]
      split
      · rw [List.map_cons, ih]
        rfl
      · exact ih reported

theorem findings_diagnostic
    (index : NameIndex Entry)
    (c : NodeContext) :
    (findings index c).map Finding.diagnostic = analyze index c := by
  rw [findings, findAll_diagnostic, analyze]
  split
  · next hNone => rw [hNone, reportAll]
  · rfl

/- Only flagged targets are found. -/
theorem exists_flags_of_mem_findAll
    {resolution : Resolution}
    {reported : List Nat}
    {es : List Entry}
    {f : Finding}
    (h : f ∈ findAll c resolution reported es) :
    ∃ e ∈ es, flags c resolution e.target = true ∧ f = finding c e := by
  induction es generalizing reported with
  | nil => cases h
  | cons e rest ih =>
      have hRest : ∀ others : List Nat, f ∈ findAll c resolution others rest →
          ∃ e' ∈ e :: rest, flags c resolution e'.target = true ∧
            f = finding c e' := by
        intro others hFound
        rcases ih hFound with ⟨e', he', hFlags⟩
        exact ⟨e', List.mem_cons_of_mem e he', hFlags⟩
      rw [findAll] at h
      split at h
      · next hNow =>
          rcases List.mem_cons.mp h with rfl | hLater
          · exact ⟨e, List.mem_cons_self, (Bool.and_eq_true_iff.mp hNow).2,
              rfl⟩
          · exact hRest _ hLater
      · exact hRest _ h

theorem isFor_of_resolved
    {index : NameIndex Entry}
    {f : Finding}
    {s : Symbol}
    (hResolved : c.resolution = .resolved s)
    (h : f ∈ findings index c) :
    f.IsFor s := by
  rcases exists_flags_of_mem_findAll h with ⟨e, -, hFlags, rfl⟩
  rw [hResolved] at hFlags
  exact Finding.isFor_of_target rfl rfl (Bool.and_eq_true_iff.mp hFlags).2

/- At a name that is not missing, a member that is found has a name. -/
theorem lastPart_ne_of_mem_findings
    {index : NameIndex Entry}
    {f : Finding}
    (hName : c.node.simpleName ≠ "")
    (h : f ∈ findings index c)
    (hMember : f.isMember = true) :
    lastPart f.target ≠ "" := by
  rcases exists_flags_of_mem_findAll h with ⟨e, -, hFlags, rfl⟩
  have hKind : e.target.kind = .member := eq_of_beq hMember
  have hWritten := (Bool.and_eq_true_iff.mp hFlags).1
  rw [isWrittenLike, hKind] at hWritten
  have hSame := Language.length_eq_of_namesEqual
    (Bool.and_eq_true_iff.mp hWritten).2
  intro hNone
  rw [show e.target.simpleName = "" from hNone] at hSame
  exact hName (String.length_eq_zero_iff.mp hSame)

end ApiAlert

namespace Mapping

def findings
    (mode : Mode)
    (index : NameIndex TypeMapping)
    (c : NodeContext) : List Finding :=
  if appliesTo mode c.node.context then
    let found :=
      NameIndex.candidates index (writtenKey mode c.node.simpleName)
    (((preferred c found).find? (flags mode c c.resolution)).map
      fun m => ⟨m.oldName, false, report mode c m⟩).toList
  else []

theorem findings_diagnostic
    (mode : Mode)
    (index : NameIndex TypeMapping)
    (c : NodeContext) :
    (findings mode index c).map Finding.diagnostic = analyze mode index c := by
  rw [findings, analyze]
  split
  · split
    · next hNone =>
        rw [hNone]
        rfl
    · rw [← Option.toList_map, Option.map_map]
      rfl
  · rfl

theorem isMember_of_mem_findings
    {mode : Mode}
    {index : NameIndex TypeMapping}
    {f : Finding}
    (h : f ∈ findings mode index c) :
    f.isMember = false := by
  rw [findings] at h
  split at h
  · rcases Option.map_eq_some_iff.mp (Option.mem_toList.mp h) with ⟨m, -, rfl⟩
    rfl
  · cases h

/- A renaming that is flagged for a known symbol is matched by it. -/
theorem matchesSymbol_of_flags
    {mode : Mode}
    {s : Symbol}
    {m : TypeMapping}
    (h : flags mode c (.resolved s) m = true) :
    (NameMatcher.forType m.oldName).matchesSymbol s = true :=
  (Bool.and_eq_true_iff.mp h).2

theorem isFor_of_resolved
    {mode : Mode}
    {index : NameIndex TypeMapping}
    {f : Finding}
    {s : Symbol}
    (hResolved : c.resolution = .resolved s)
    (h : f ∈ findings mode index c) :
    f.IsFor s := by
  rw [findings] at h
  split at h
  · rcases Option.map_eq_some_iff.mp (Option.mem_toList.mp h) with
      ⟨m, hFirst, rfl⟩
    have hFlags := List.find?_some hFirst
    rw [hResolved] at hFlags
    exact Finding.isFor_of_forType rfl (matchesSymbol_of_flags hFlags)
  · cases h

end Mapping

namespace Interop

def findings (apis : List InteropApi) (c : NodeContext) : List Finding :=
  if c.node.isMemberAccess then
    match c.node.qualifier with
    | none => []
    | some qualifier =>
      match apis.find? (isWrittenLike c qualifier) with
      | some api =>
        if c.resolution.confirms (matcher api) true then
          [⟨api.typeName ++ "." ++ api.member, true,
            .ofDescriptor descriptor (message api)
              (.inTree c.tree c.node.fullSpan)
              (FixHint.explainOnly.withDocumentationUrl documentationUrl)⟩]
        else []
      | none => []
  else []

theorem findings_diagnostic
    (apis : List InteropApi)
    (c : NodeContext) :
    (findings apis c).map Finding.diagnostic = analyze apis c := by
  rw [findings, analyze]
  split
  · cases c.node.qualifier with
    | none => rfl
    | some qualifier =>
        dsimp only
        cases apis.find? (isWrittenLike c qualifier) with
        | none => rfl
        | some api =>
            dsimp only
            split <;> rfl
  · rfl

theorem dot_not_mem_builtin :
    ∀ api ∈ builtin, '.' ∉ api.member.toList := by
  decide

theorem isFor_of_resolved
    {f : Finding}
    {s : Symbol}
    (hResolved : c.resolution = .resolved s)
    (h : f ∈ findings builtin c) :
    f.IsFor s := by
  rw [findings] at h
  split at h
  · split at h
    · cases h
    · split at h
      · next api hFirst =>
          split at h
          · next hConfirms =>
              obtain rfl := List.mem_singleton.mp h
              rw [hResolved] at hConfirms
              have hDot := dot_not_mem_builtin api
                (List.mem_of_find?_eq_some hFirst)
              exact Finding.isFor_of_forMember hDot
                (SymbolTable.nameParts_append _ _)
                (lastPart_append (Or.inr ⟨api.typeName, rfl⟩) hDot) rfl
                hConfirms
          · cases h
      · cases h
  · cases h

theorem lastPart_ne_of_mem_findings
    {f : Finding}
    (h : f ∈ findings builtin c) :
    lastPart f.target ≠ "" := by
  have hMembers : ∀ api ∈ builtin, api.member ≠ "" := by
    decide
  rw [findings] at h
  split at h
  · split at h
    · cases h
    · split at h
      · next api hFirst =>
          split at h
          · obtain rfl := List.mem_singleton.mp h
            have hMem := List.mem_of_find?_eq_some hFirst
            rw [lastPart_append (Or.inr ⟨api.typeName, rfl⟩)
              (dot_not_mem_builtin api hMem)]
            exact hMembers api hMem
          · cases h
      · cases h
  · cases h

end Interop

------------------------------------------------------------
-- Analyzers
------------------------------------------------------------

namespace NodeAnalyzer

def findings (a : NodeAnalyzer) (c : NodeContext) : List Finding :=
  match a with
  | .alerts index => ApiAlert.findings index c
  | .mappings mode index => Mapping.findings mode index c
  | .interop apis => Interop.findings apis c

theorem findings_diagnostic
    (a : NodeAnalyzer)
    (c : NodeContext) :
    (a.findings c).map Finding.diagnostic = a.analyze c := by
  cases a with
  | alerts index => exact ApiAlert.findings_diagnostic index c
  | mappings mode index => exact Mapping.findings_diagnostic mode index c
  | interop apis => exact Interop.findings_diagnostic apis c

/- An analyzer that looks for interop APIs looks for the built-in ones. -/
def IsStarted : NodeAnalyzer → Prop
  | .interop apis => apis = Interop.builtin
  | _ => True

theorem isFor_of_resolved
    {a : NodeAnalyzer}
    {f : Finding}
    {s : Symbol}
    (hStarted : a.IsStarted)
    (hResolved : c.resolution = .resolved s)
    (h : f ∈ a.findings c) :
    f.IsFor s := by
  cases a with
  | alerts index => exact ApiAlert.isFor_of_resolved hResolved h
  | mappings mode index => exact Mapping.isFor_of_resolved hResolved h
  | interop apis =>
      obtain rfl : apis = Interop.builtin := hStarted
      exact Interop.isFor_of_resolved hResolved h

/- Where the name is not missing, all empty segments are ignored. -/
theorem segments_of_mem_findings
    {a : NodeAnalyzer}
    {f : Finding}
    (hStarted : a.IsStarted)
    (hName : c.node.simpleName ≠ "")
    (h : f ∈ a.findings c) :
    f.segments = SymbolTable.nameParts f.target := by
  refine Finding.segments_of_lastPart fun hMember => ?_
  cases a with
  | alerts index => exact ApiAlert.lastPart_ne_of_mem_findings hName h hMember
  | mappings mode index => cases (Mapping.isMember_of_mem_findings h).symm.trans hMember
  | interop apis =>
      obtain rfl : apis = Interop.builtin := hStarted
      exact Interop.lastPart_ne_of_mem_findings h

end NodeAnalyzer

theorem Analyzer.isStarted_of_start?
    {analyzer : Analyzer}
    {compilation : Compilation}
    {a : NodeAnalyzer}
    (h : analyzer.start? compilation = some a) :
    a.IsStarted := by
  cases analyzer with
  | apiAlert rules =>
      simp only [start?] at h
      split at h
      · cases h
      · cases h
        trivial
  | typeUpgrade =>
      simp only [start?, startMapping] at h
      split at h
      · cases h
      · cases h
        trivial
  | attributeUpgrade =>
      simp only [start?, startMapping] at h
      split at h
      · cases h
      · cases h
        trivial
  | interopApi =>
      cases h
      rfl

/-
  What an analyzer reports at a name that stands for a known
  symbol, it reports for an API of the symbol's name that is
  a member if the symbol is one, whatever the file and the
  name are.  Empty segments of the API do not count, unless
  the name is missing in the text.
-/
theorem Analyzer.findings_isFor
    {analyzer : Analyzer}
    {compilation : Compilation}
    {a : NodeAnalyzer}
    (hStart : analyzer.start? compilation = some a)
    (tree : SourceTree)
    (node : NameNode) :
    let c : NodeContext := ⟨compilation.model tree, node⟩
    a.analyze c = (a.findings c).map Finding.diagnostic ∧
    (∀ s, c.resolution = .resolved s → ∀ f ∈ a.findings c, f.IsFor s) ∧
    (node.simpleName ≠ "" →
      ∀ f ∈ a.findings c, f.segments = SymbolTable.nameParts f.target) := by
  have hStarted := isStarted_of_start? hStart
  exact ⟨(a.findings_diagnostic _).symm,
    fun s hResolved f hFound =>
      NodeAnalyzer.isFor_of_resolved hStarted hResolved hFound,
    fun hName f hFound =>
      NodeAnalyzer.segments_of_mem_findings hStarted hName hFound⟩

------------------------------------------------------------
-- A type that is known
------------------------------------------------------------

namespace Known

def name : NameNode :=
  ⟨"T", none, .simple, false, ⟨24, 25⟩, ⟨24, 25⟩⟩

/- A field of the type that it is in. -/
def file : SourceTree :=
  { path := ⟨"a.cs"⟩
    language := .cSharp
    text := "namespace N { class T { T t; } }"
    parts :=
      { names := [name]
        declarations := [⟨some "N", "T"⟩]
        namespaces := [⟨"N", ⟨0, 32⟩⟩] } }

def compilation : Compilation :=
  Compilation.empty.addTree file

def symbol : Symbol :=
  .declared "T" .type (.declared "N" .nameSpace .global)

def rule : ApiRule :=
  ⟨"X", [⟨"M.T", .type, true⟩, ⟨"N..T", .type, false⟩], "one"⟩

def alerts : NodeAnalyzer :=
  .alerts (NameIndex.ofEntries ApiAlert.Entry.key (ApiAlert.entries [rule]))

def context : NodeContext :=
  ⟨compilation.model file, name⟩

theorem resolution_eq : context.resolution = .resolved symbol := by
  decide +kernel

/- The type of that name in another namespace is not reported. -/
theorem findings_isFor_symbol :
    context.resolution = .resolved symbol ∧
    ∃ f, alerts.findings context = [f] ∧ f.target = "N..T" ∧ f.IsFor symbol ∧
      alerts.analyze context = [f.diagnostic] := by
  have hFound : alerts.findings context =
      [ApiAlert.finding context ⟨0, rule, ⟨"N..T", .type, false⟩⟩] := by
    decide +kernel
  have hStart : (Analyzer.apiAlert (some [rule])).start? compilation =
      some alerts := rfl
  rcases Analyzer.findings_isFor hStart file name with ⟨hSame, hFor, -⟩
  refine ⟨resolution_eq, _, hFound, rfl, ?_, ?_⟩
  · exact hFor symbol resolution_eq _ (hFound ▸ List.mem_singleton_self _)
  · exact hSame.trans (congrArg _ hFound)

end Known

end Retarget
