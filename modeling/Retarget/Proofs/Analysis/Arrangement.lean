import Mathlib.Data.String.Basic
import Mathlib.Order.Compare
import Retarget.Path.Order
import Retarget.Proofs.Analysis.Report
import Retarget.Proofs.Sorting

/-
  This file describes the order and the repeats of what a run
  reports.  Diagnostics are sorted by less than what they
  say, the sort keeps the order of those that it cannot tell
  apart, and only neighbours are compared for repeats.

  Key definitions include:
    * `Diagnostic.like`
    * `Diagnostic.IsOnce`
    * `Diagnostic.IsInterrupted`
    * `Analysis.found`

  Key statements include:
    * `Diagnostic.like_mergeSort`
    * `Diagnostic.arrange_eq_of_like`
    * `Diagnostic.dropRepeats_isOnce_iff`
    * `Analysis.run_isOnce_iff`
-/

namespace Retarget

------------------------------------------------------------
-- The order of diagnostics
------------------------------------------------------------

namespace Diagnostic

variable {a b d : Diagnostic}
variable {ds others : List Diagnostic}

instance : Std.TransCmp order := by
  have hPath := transCmp_on (fun d : Diagnostic => d.location.path) Path.order
  have hId := transCmp_on (fun d : Diagnostic => d.id) Text.order
  have hStart := transCmp_on
    (fun d : Diagnostic => d.location.span.start) (compare : Nat → Nat → Ordering)
  have hBefore := @Std.instTransCmpCompareLex _ _ _ hPath hStart
  exact @Std.instTransCmpCompareLex _ _ _ hBefore hId

theorem order_eq_eq_iff :
    a.order b = .eq ↔
      a.location.path.components = b.location.path.components ∧
        a.location.span.start = b.location.span.start ∧ a.id = b.id := by
  simp [order, Ordering.then_eq_eq, Path.order_eq_iff,
    Std.LawfulEqCmp.compare_eq_iff_eq, and_assoc]

theorem le_trans
    (a b c : Diagnostic)
    (hab : le a b = true)
    (hbc : le b c = true) :
    le a c = true :=
  notAfter_trans hab hbc

theorem mergeSort_sorted
    (ds : List Diagnostic) :
    (ds.mergeSort le).Pairwise fun a b => le a b = true :=
  sorted_mergeSort order ds

theorem order_eq_of_le
    (hab : le a b = true)
    (hba : le b a = true) :
    a.order b = .eq := by
  have hSwap : b.order a = (a.order b).swap := Std.OrientedCmp.eq_swap
  simp only [le, hSwap, bne_iff_ne, ne_eq] at hab hba
  cases hOrder : a.order b <;> simp_all

/- The diagnostics that the order cannot tell apart from one. -/
def like (d : Diagnostic) (ds : List Diagnostic) : List Diagnostic :=
  ds.filter fun other => d.order other == .eq

theorem mem_like :
    b ∈ like a ds ↔ b ∈ ds ∧ a.order b = .eq := by
  simp [like]

/- The sort keeps the order of those that it cannot tell apart. -/
theorem like_mergeSort
    (d : Diagnostic)
    (ds : List Diagnostic) :
    like d (ds.mergeSort le) = like d ds :=
  filter_mergeSort order d ds

theorem order_self
    (d : Diagnostic) :
    d.order d = .eq :=
  Std.ReflCmp.compare_self

theorem mem_iff_of_like
    (hLike : ∀ d, like d ds = like d others) :
    d ∈ ds ↔ d ∈ others := by
  have hd := @mem_like d d ds
  rw [hLike, mem_like] at hd
  simpa [order_self] using hd.symm

theorem le_of_mem_cons
    (hSorted : (a :: ds).Pairwise fun a b => le a b = true)
    (hMem : b ∈ a :: ds) :
    le a b = true := by
  rcases List.mem_cons.mp hMem with rfl | hRest
  · simp [le, order_self]
  · exact (List.pairwise_cons.mp hSorted).1 b hRest

/-
  A sorted list is known when the order of those that cannot
  be told apart is.
-/
theorem eq_of_like
    (hSorted : ds.Pairwise fun a b => le a b = true)
    (hOthers : others.Pairwise fun a b => le a b = true)
    (hLike : ∀ d, like d ds = like d others) :
    ds = others := by
  induction ds generalizing others with
  | nil =>
      refine (List.eq_nil_iff_forall_not_mem.mpr fun d hd => ?_).symm
      exact List.not_mem_nil ((mem_iff_of_like hLike).mpr hd)
  | cons a rest ih =>
      cases others with
      | nil =>
          exact absurd ((mem_iff_of_like hLike).mp List.mem_cons_self)
            List.not_mem_nil
      | cons b more =>
          have hab := le_of_mem_cons hSorted
            ((mem_iff_of_like hLike).mpr List.mem_cons_self)
          have hba := le_of_mem_cons hOthers
            ((mem_iff_of_like hLike).mp List.mem_cons_self)
          have hHeads := hLike a
          simp only [like, List.filter_cons, order_self,
            order_eq_of_le hab hba, beq_self_eq_true, if_true] at hHeads
          obtain rfl := (List.cons.inj hHeads).1
          have hTails : ∀ d, like d rest = like d more := by
            intro d
            have hBoth := hLike d
            simp only [like, List.filter_cons] at hBoth
            split at hBoth
            · exact (List.cons.inj hBoth).2
            · exact hBoth
          rw [ih (List.pairwise_cons.mp hSorted).2
            (List.pairwise_cons.mp hOthers).2 hTails]

theorem arrange_eq_of_like
    (hLike : ∀ d, like d ds = like d others) :
    arrange ds = arrange others := by
  have hSorts : ds.mergeSort le = others.mergeSort le := by
    refine eq_of_like (mergeSort_sorted ds) (mergeSort_sorted others) ?_
    intro d
    rw [like_mergeSort, like_mergeSort, hLike]
  rw [arrange, arrange, hSorts]

------------------------------------------------------------
-- Repeats
------------------------------------------------------------

theorem same_iff :
    a.same b = true ↔
      a.id = b.id ∧ a.message = b.message ∧ a.severity = b.severity ∧
        (a.location.path.components = b.location.path.components ∧
          a.location.span = b.location.span ∧
          a.location.line = b.location.line ∧
          a.location.column = b.location.column) ∧
        a.properties = b.properties := by
  simp [same, Location.same, Path.same, and_assoc]

theorem same_refl
    (d : Diagnostic) :
    d.same d = true := by
  simp [same_iff]

theorem same_symm
    (h : a.same b = true) :
    b.same a = true := by
  rw [same_iff] at h ⊢
  simp [h]

theorem same_trans
    (hab : a.same b = true)
    (hbd : b.same d = true) :
    a.same d = true := by
  rw [same_iff] at hab hbd ⊢
  simp [hab, hbd]

theorem order_eq_of_same
    (h : a.same b = true) :
    a.order b = .eq := by
  rw [same_iff] at h
  rw [order_eq_eq_iff]
  simp [h]

/- No diagnostic stands in a list twice. -/
def IsOnce (ds : List Diagnostic) : Prop :=
  ds.Pairwise fun a b => a.same b = false

/-
  A diagnostic is repeated behind another one that the order
  cannot tell apart from it.
-/
def IsInterrupted (ds : List Diagnostic) : Prop :=
  ∃ a b a', [a, b, a'].Sublist ds ∧ a.same a' = true ∧
    a.order b = .eq ∧ a.same b = false

/- What comes first stays. -/
theorem dropRepeats_cons
    (a : Diagnostic)
    (ds : List Diagnostic) :
    ∃ rest, dropRepeats (a :: ds) = a :: rest := by
  cases ds with
  | nil => exact ⟨[], rfl⟩
  | cons b rest =>
      unfold dropRepeats
      split
      · exact ⟨[], rfl⟩
      · split
        · exact ⟨_, rfl⟩
        · exact ⟨_, rfl⟩

/- The second one stays unless it is the same as the first. -/
theorem dropRepeats_cons_cons
    (a b : Diagnostic)
    (ds : List Diagnostic) :
    ∃ kept, dropRepeats (b :: ds) = b :: kept ∧
      dropRepeats (a :: b :: ds) =
        if a.same b then a :: kept else a :: b :: kept := by
  rcases dropRepeats_cons b ds with ⟨kept, hKept⟩
  exact ⟨kept, hKept, by simp [dropRepeats, hKept]⟩

theorem exists_same_of_mem
    (h : d ∈ ds) :
    ∃ e ∈ dropRepeats ds, e.same d = true := by
  induction ds with
  | nil => cases h
  | cons a rest ih =>
      rcases List.mem_cons.mp h with rfl | hRest
      · rcases dropRepeats_cons d rest with ⟨kept, hKept⟩
        exact ⟨d, hKept ▸ List.mem_cons_self, same_refl d⟩
      · cases rest with
        | nil => cases hRest
        | cons b rest =>
            rcases ih hRest with ⟨e, he, heSame⟩
            rcases dropRepeats_cons_cons a b rest with ⟨kept, hKept, hCons⟩
            rw [hKept] at he
            rw [hCons]
            by_cases hSame : a.same b = true
            · rw [if_pos hSame]
              rcases List.mem_cons.mp he with rfl | hLater
              · exact ⟨a, List.mem_cons_self, same_trans hSame heSame⟩
              · exact ⟨e, List.mem_cons_of_mem a hLater, heSame⟩
            · rw [if_neg hSame]
              exact ⟨e, List.mem_cons_of_mem a he, heSame⟩

/- No two neighbours that stay are the same. -/
theorem dropRepeats_isChain
    (ds : List Diagnostic) :
    (dropRepeats ds).IsChain fun a b => a.same b = false := by
  induction ds with
  | nil => exact List.isChain_nil
  | cons a rest ih =>
      cases rest with
      | nil => exact List.isChain_singleton a
      | cons b rest =>
          rcases dropRepeats_cons_cons a b rest with ⟨kept, hKept, hCons⟩
          rw [hKept] at ih
          rw [hCons]
          by_cases hSame : a.same b = true
          · rw [if_pos hSame]
            cases kept with
            | nil => exact List.isChain_singleton a
            | cons c more =>
                rw [List.isChain_cons_cons] at ih ⊢
                refine ⟨Bool.eq_false_iff.mpr fun hac => ?_, ih.2⟩
                exact Bool.eq_false_iff.mp ih.1
                  (same_trans (same_symm hSame) hac)
          · rw [if_neg hSame]
            exact List.isChain_cons_cons.mpr
              ⟨Bool.eq_false_iff.mpr hSame, ih⟩

theorem isInterrupted_of_sublist
    (hSub : ds.Sublist others)
    (h : IsInterrupted ds) :
    IsInterrupted others := by
  rcases h with ⟨a, b, a', hTriple, hRest⟩
  exact ⟨a, b, a', hTriple.trans hSub, hRest⟩

/- Sorted diagnostics, where neighbours differ and none is interrupted. -/
theorem isOnce_of_isChain
    (hSorted : ds.Pairwise fun a b => le a b = true)
    (hChain : ds.IsChain fun a b => a.same b = false)
    (hNone : ¬ IsInterrupted ds) :
    IsOnce ds := by
  induction ds with
  | nil => exact List.Pairwise.nil
  | cons a rest ih =>
      rcases List.pairwise_cons.mp hSorted with ⟨hFirst, hRest⟩
      refine List.pairwise_cons.mpr ⟨fun d hd => ?_, ih hRest ?_ ?_⟩
      · cases rest with
        | nil => cases hd
        | cons b more =>
            have hab := (List.isChain_cons_cons.mp hChain).1
            rcases List.mem_cons.mp hd with rfl | hLater
            · exact hab
            · refine Bool.eq_false_iff.mpr fun had => hNone ⟨a, b, d, ?_⟩
              have hda : le d a = true := by
                simp [le, order_eq_of_same (same_symm had)]
              have hba := le_trans b d a
                ((List.pairwise_cons.mp hRest).1 d hLater) hda
              refine ⟨?_, had, order_eq_of_le (hFirst b List.mem_cons_self) hba,
                hab⟩
              exact ((List.singleton_sublist.mpr hLater).cons_cons b).cons_cons a
      · exact hChain.tail
      · exact fun h => hNone (isInterrupted_of_sublist (List.sublist_cons_self a rest) h)

/- What is between two that are the same goes with the first of them. -/
theorem same_of_sublist_of_isOnce
    {a' : Diagnostic}
    (hOnce : IsOnce (dropRepeats ds))
    (hSub : [a, b, a'].Sublist ds)
    (hSame : a.same a' = true) :
    a.same b = true := by
  induction ds generalizing a b with
  | nil => cases hSub
  | cons first rest ih =>
      cases rest with
      | nil => simpa using hSub.length_le
      | cons second rest =>
          rcases dropRepeats_cons_cons first second rest with
            ⟨kept, hKept, hCons⟩
          rw [hCons] at hOnce
          by_cases hFirst : first.same second = true
          · rw [if_pos hFirst] at hOnce
            have hRest : IsOnce (dropRepeats (second :: rest)) := by
              rw [hKept]
              rcases List.pairwise_cons.mp hOnce with ⟨hHead, hTail⟩
              refine List.pairwise_cons.mpr ⟨fun d hd => ?_, hTail⟩
              refine Bool.eq_false_iff.mpr fun hSecond => ?_
              exact Bool.eq_false_iff.mp (hHead d hd)
                (same_trans hFirst hSecond)
            cases hSub with
            | cons _ hTail => exact ih hRest hTail hSame
            | cons_cons _ hTail =>
                cases hTail with
                | cons _ hLater =>
                    have hSecond := ih hRest (hLater.cons_cons second)
                      (same_trans (same_symm hFirst) hSame)
                    exact same_trans hFirst hSecond
                | cons_cons _ hLater => exact hFirst
          · rw [if_neg hFirst, ← hKept] at hOnce
            rcases List.pairwise_cons.mp hOnce with ⟨hHead, hTail⟩
            cases hSub with
            | cons _ hRest => exact ih hTail hRest hSame
            | cons_cons _ hRest =>
                have hMem : a' ∈ second :: rest := hRest.subset (by simp)
                rcases exists_same_of_mem hMem with ⟨e, he, heSame⟩
                have hae := same_trans hSame (same_symm heSame)
                exact absurd hae (Bool.eq_false_iff.mp (hHead e he))

/- Dropping the repeats of a sorted list leaves each diagnostic once. -/
theorem dropRepeats_isOnce_iff
    (hSorted : ds.Pairwise fun a b => le a b = true) :
    IsOnce (dropRepeats ds) ↔ ¬ IsInterrupted ds := by
  constructor
  · rintro hOnce ⟨a, b, a', hSub, hSame, -, hOther⟩
    exact Bool.eq_false_iff.mp hOther
      (same_of_sublist_of_isOnce hOnce hSub hSame)
  · intro hNone
    have hKept := dropRepeats_sublist ds
    exact isOnce_of_isChain (hSorted.sublist hKept) (dropRepeats_isChain ds)
      fun h => hNone (isInterrupted_of_sublist hKept h)

/- Sorting brings nothing between two diagnostics that are the same. -/
theorem isInterrupted_mergeSort_iff
    (ds : List Diagnostic) :
    IsInterrupted (ds.mergeSort le) ↔ IsInterrupted ds := by
  have hLike : ∀ {others : List Diagnostic} {a b a' : Diagnostic},
      a.same a' = true → a.order b = .eq →
        ([a, b, a'].Sublist (like a others) ↔ [a, b, a'].Sublist others) := by
    intro others a b a' hSame hOrder
    constructor
    · exact fun h => h.trans List.filter_sublist
    · intro h
      have hAll : like a [a, b, a'] = [a, b, a'] := by
        simp [like, order_self, hOrder, order_eq_of_same hSame]
      exact hAll ▸ h.filter _
  constructor <;>
    · rintro ⟨a, b, a', hSub, hSame, hOrder, hOther⟩
      refine ⟨a, b, a', ?_, hSame, hOrder, hOther⟩
      rw [← hLike hSame hOrder] at hSub ⊢
      simpa only [like_mergeSort] using hSub

theorem arrange_sorted
    (ds : List Diagnostic) :
    (arrange ds).Pairwise fun a b => le a b = true :=
  (mergeSort_sorted ds).sublist (dropRepeats_sublist _)

theorem arrange_isOnce_iff
    (ds : List Diagnostic) :
    IsOnce (arrange ds) ↔ ¬ IsInterrupted ds := by
  rw [arrange, dropRepeats_isOnce_iff (mergeSort_sorted ds),
    isInterrupted_mergeSort_iff]

end Diagnostic

------------------------------------------------------------
-- Runs
------------------------------------------------------------

namespace Analysis

/- What the analyzers find, file by file and name by name. -/
def found (analyzers : List Analyzer) (c : Compilation) : List Diagnostic :=
  c.trees.flatMap (analyzeTree c (analyzers.filterMap fun a => a.start? c))

theorem run_eq_arrange
    (analyzers : List Analyzer)
    (c : Compilation)
    (workers : Nat) :
    run analyzers c workers false =
      .ok (Diagnostic.arrange (found analyzers c)) := by
  rw [run_eq_inSequence]
  dsimp only
  split
  · next hNothing =>
      have hFound : found analyzers c = [] := by
        rw [found, List.flatMap_eq_nil_iff]
        intro tree hTree
        rw [Bool.or_eq_true, List.isEmpty_iff, List.isEmpty_iff] at hNothing
        rcases hNothing with hStarted | hTrees
        · simp [analyzeTree, hStarted]
        · exact absurd (hTrees ▸ hTree) List.not_mem_nil
      rw [hFound]
      simp [Diagnostic.arrange, Diagnostic.dropRepeats]
  · rw [found, List.flatMap_def]

/-
  What a run reports is sorted.  It reports each diagnostic
  once, unless one is found again behind a different one of
  the same file, start and id.
-/
theorem run_isOnce_iff
    (analyzers : List Analyzer)
    (c : Compilation)
    (workers : Nat) :
    ∃ ds,
      run analyzers c workers false = .ok ds ∧
      (ds.Pairwise fun a b => a.le b = true) ∧
      (Diagnostic.IsOnce ds ↔
        ¬ Diagnostic.IsInterrupted (found analyzers c)) :=
  ⟨_, run_eq_arrange analyzers c workers, Diagnostic.arrange_sorted _,
    Diagnostic.arrange_isOnce_iff _⟩

end Analysis

------------------------------------------------------------
-- A table that is loaded twice
------------------------------------------------------------

namespace Twice

/- A class with a field. -/
def file : SourceTree :=
  { path := ⟨"a.cs"⟩
    language := .cSharp
    text := "class C { T t; }\n"
    parts :=
      { names := [⟨"T", none, .simple, false, ⟨10, 11⟩, ⟨10, 11⟩⟩]
        declarations := [⟨none, "C"⟩] } }

def compilation : Compilation :=
  Compilation.empty.addTree file

/- Two rules of one id that are about one type. -/
def rules : List ApiRule :=
  [⟨"X", [⟨"N.T", .type, true⟩], "one"⟩,
    ⟨"X", [⟨"N.T", .type, true⟩], "two"⟩]

def analyzers : List Analyzer :=
  [.apiAlert (some (rules ++ rules))]

def report (message : String) : Diagnostic :=
  { id := "UA0013_X"
    message := message
    severity := .warning
    location := ⟨⟨"a.cs"⟩, ⟨10, 11⟩, 1, 11⟩
    properties := FixHint.explainOnly.toProperties }

theorem found_eq :
    Analysis.found analyzers compilation =
      [report "one", report "two", report "one", report "two"] := by
  decide +kernel

/- The two reports at the name are told twice, in turns. -/
theorem run_not_isOnce :
    Analysis.run analyzers compilation 1 false =
      .ok [report "one", report "two", report "one", report "two"] ∧
    ¬ Diagnostic.IsOnce
      [report "one", report "two", report "one", report "two"] := by
  have hSorted : [report "one", report "two", report "one",
      report "two"].Pairwise fun a b => a.le b = true := by
    decide
  constructor
  · rw [Analysis.run_eq_arrange, found_eq, Diagnostic.arrange,
      List.mergeSort_of_pairwise hSorted]
    decide
  · intro hOnce
    have hSame : (report "one").same (report "one") = false :=
      (List.pairwise_cons.mp hOnce).1 (report "one") (by simp)
    exact Bool.eq_false_iff.mp hSame (Diagnostic.same_refl _)

end Twice

end Retarget
