import Retarget.Source.Tree
import Retarget.Proofs.Source.VisualBasic.Parts

/-
  This file shows that the namespaces of a Visual Basic text
  nest, also where their lines do not match, and that the
  namespaces around an offset are found from the innermost
  one to the outermost one.

  The stack of open namespaces carries the induction over
  the lines: its starts descend, and every line that is
  still to be read lies behind them.

  Key definitions include:
    * `VisualBasic.IsStack`
    * `VisualBasic.openings`
    * `VisualBasic.IsNested`
    * `VisualBasic.IsPlaced`
    * `VisualBasic.IsNest`

  Key statements include:
    * `VisualBasic.closeNamespaces_starts`
    * `VisualBasic.IsStack.isNested`
    * `VisualBasic.IsStack.exists_isPlaced`
    * `VisualBasic.namespaces_nest`
-/

namespace Retarget.VisualBasic

open Text

variable {length : Nat}
variable {opened outer : List (String × Nat)}
variable {lines rest : List (Nat × List Char)}
variable {scopes : List NamespaceScope}
variable {s t : NamespaceScope}

------------------------------------------------------------
-- Lines
------------------------------------------------------------

/- Lines one after the other in a text of some length. -/
structure IsRows
    (length : Nat)
    (lines : List (Nat × List Char)) : Prop where
  apart : lines.Pairwise fun a b => a.1 + byteLength a.2 < b.1
  le_length : ∀ line ∈ lines, line.1 + byteLength line.2 ≤ length

theorem le_of_mem_numberLines
    {n : Nat}
    {cs : List (List Char)}
    {line : Nat × List Char}
    (h : line ∈ numberLines n cs) :
    n ≤ line.1 := by
  rcases mem_numberLines h with ⟨a, b, -, hStart, -⟩
  omega

theorem numberLines_apart
    (n : Nat)
    (cs : List (List Char)) :
    (numberLines n cs).Pairwise fun a b => a.1 + byteLength a.2 < b.1 := by
  induction cs generalizing n with
  | nil => exact List.Pairwise.nil
  | cons line rest ih =>
      exact List.pairwise_cons.mpr
        ⟨fun _ hNext => le_of_mem_numberLines hNext, ih _⟩

theorem numberedLines_isRows
    (text : List Char) :
    IsRows (byteLength text) (numberedLines text) where
  apart := numberLines_apart 0 _
  le_length := by
    rintro ⟨n, line⟩ hLine
    rcases mem_numberedLines hLine with ⟨a, b, rfl, rfl, -⟩
    simp only [byteLength_append]
    omega

/- What a namespace line consists of is the start of the line. -/
theorem byteLength_taken_le
    {line taken : List Char}
    {part : NamespaceLine}
    (h : namespaceLine? line = some (part, taken)) :
    byteLength taken ≤ byteLength line := by
  have hTake : ∃ n, taken = line.take n := by
    unfold namespaceLine? at h
    dsimp only at h
    split at h
    · cases h
      exact ⟨_, rfl⟩
    · rcases Option.map_eq_some_iff.mp h with ⟨_, -, hSame⟩
      cases hSame
      exact ⟨_, rfl⟩
  rcases hTake with ⟨n, rfl⟩
  conv_rhs => rw [← List.take_append_drop n line, byteLength_append]
  exact Nat.le_add_right _ _

/- The start of a line that opens a namespace, with the name it gives. -/
def opening? (line : Nat × List Char) : Option (Nat × String) :=
  match namespaceLine? line.2 with
  | some (.opening inner, _) => some (line.1, inner)
  | _ => none

def openings (lines : List (Nat × List Char)) : List (Nat × String) :=
  lines.filterMap opening?

theorem start_of_opening?
    {line : Nat × List Char}
    {start : Nat × String}
    (h : opening? line = some start) :
    line.1 = start.1 := by
  unfold opening? at h
  split at h
  · cases h
    rfl
  · cases h

theorem IsRows.openings_nodup
    (h : IsRows length lines) :
    ((openings lines).map Prod.fst).Nodup := by
  refine List.pairwise_map.mpr (List.pairwise_filterMap.mpr ?_)
  refine h.apart.imp fun hApart a ha b hb => ?_
  rw [← start_of_opening? ha, ← start_of_opening? hb]
  omega

------------------------------------------------------------
-- Stacks
------------------------------------------------------------

/- Open namespaces and the lines that are still to be read. -/
structure IsStack
    (length : Nat)
    (opened : List (String × Nat))
    (lines : List (Nat × List Char)) : Prop where
  rows : IsRows length lines
  descending : opened.Pairwise fun a b => b.2 < a.2
  opened_lt : ∀ o ∈ opened, ∀ line ∈ lines, o.2 < line.1

theorem IsStack.skip
    {line : Nat × List Char}
    (h : IsStack length opened (line :: rest)) :
    IsStack length opened rest where
  rows := {
    apart := (List.pairwise_cons.mp h.rows.apart).2
    le_length := fun l hl => h.rows.le_length l (List.mem_cons_of_mem line hl) }
  descending := h.descending
  opened_lt o ho l hl := h.opened_lt o ho l (List.mem_cons_of_mem line hl)

theorem IsStack.push
    {start : Nat}
    {line : List Char}
    (h : IsStack length opened ((start, line) :: rest))
    (name : String) :
    IsStack length ((name, start) :: opened) rest where
  rows := h.skip.rows
  descending :=
    List.pairwise_cons.mpr
      ⟨fun o ho => h.opened_lt o ho _ List.mem_cons_self, h.descending⟩
  opened_lt := by
    refine List.forall_mem_cons.mpr ⟨fun l hl => ?_, h.skip.opened_lt⟩
    have hBehind := (List.pairwise_cons.mp h.rows.apart).1 l hl
    omega

theorem IsStack.pop
    {o : String × Nat}
    (h : IsStack length (o :: outer) lines) :
    IsStack length outer lines where
  rows := h.rows
  descending := (List.pairwise_cons.mp h.descending).2
  opened_lt p hp := h.opened_lt p (List.mem_cons_of_mem o hp)

------------------------------------------------------------
-- Starts and ends
------------------------------------------------------------

/-
  A scope for every namespace that is open and for every one
  that is opened, and no other.
-/
theorem closeNamespaces_starts
    (length : Nat)
    (opened : List (String × Nat))
    (lines : List (Nat × List Char)) :
    ((closeNamespaces length opened lines).map fun s => s.span.start).Perm
      (opened.map Prod.snd ++ (openings lines).map Prod.fst) := by
  fun_induction closeNamespaces length opened lines with
  | case1 opened =>
      simp only [openings, List.filterMap_nil, List.map_nil, List.append_nil,
        List.map_map]
      exact (List.reverse_perm opened).map _
  | case2 opened start line rest hLine ih => simpa [openings, opening?, hLine] using ih
  | case3 opened start line rest inner taken hLine name ih =>
      refine ih.trans ?_
      simp only [openings, opening?, hLine, List.filterMap_cons,
        List.map_cons, List.cons_append]
      exact List.perm_middle.symm
  | case4 start line rest taken hLine ih => simpa [openings, opening?, hLine] using ih
  | case5 start line rest taken hLine name opening outer ih =>
      simpa [openings, opening?, hLine] using ih

/- A scope starts where an open namespace does or at a later line. -/
theorem start_of_mem_closeNamespaces
    (hs : s ∈ closeNamespaces length opened lines) :
    (∃ o ∈ opened, o.2 = s.span.start) ∨
      ∃ inner, (s.span.start, inner) ∈ openings lines := by
  have hStart := (closeNamespaces_starts length opened lines).subset
    (List.mem_map_of_mem hs)
  rcases List.mem_append.mp hStart with hOpen | hNew
  · exact Or.inl (List.mem_map.mp hOpen)
  · rcases List.mem_map.mp hNew with ⟨⟨n, inner⟩, hOpens, rfl⟩
    exact Or.inr ⟨inner, hOpens⟩

/- No scope ends before what has been read. -/
theorem le_stop_of_mem_closeNamespaces
    {n : Nat}
    (hLength : n ≤ length)
    (hLines : ∀ line ∈ lines, n ≤ line.1) :
    ∀ s ∈ closeNamespaces length opened lines, n ≤ s.span.stop := by
  fun_induction closeNamespaces length opened lines with
  | case1 opened =>
      intro s hs
      rcases List.mem_map.mp hs with ⟨o, -, rfl⟩
      exact hLength
  | case2 opened start line rest hLine ih =>
      exact ih (List.forall_mem_cons.mp hLines).2
  | case3 opened start line rest inner taken hLine name ih =>
      exact ih (List.forall_mem_cons.mp hLines).2
  | case4 start line rest taken hLine ih =>
      exact ih (List.forall_mem_cons.mp hLines).2
  | case5 start line rest taken hLine name opening outer ih =>
      rcases List.forall_mem_cons.mp hLines with ⟨hFirst, hRest⟩
      refine List.forall_mem_cons.mpr ⟨?_, ih hRest⟩
      exact hFirst.trans (Nat.le_add_right _ _)

theorem exists_of_mem_opened
    {o : String × Nat}
    (ho : o ∈ opened)
    (length : Nat)
    (lines : List (Nat × List Char)) :
    ∃ s ∈ closeNamespaces length opened lines,
      s.name = o.1 ∧ s.span.start = o.2 := by
  fun_induction closeNamespaces length opened lines with
  | case1 opened =>
      exact ⟨_, List.mem_map_of_mem (List.mem_reverse.mpr ho), rfl, rfl⟩
  | case2 opened start line rest hLine ih => exact ih ho
  | case3 opened start line rest inner taken hLine name ih =>
      exact ih (List.mem_cons_of_mem _ ho)
  | case4 start line rest taken hLine ih => cases ho
  | case5 start line rest taken hLine name opening outer ih =>
      rcases List.mem_cons.mp ho with rfl | hOuter
      · exact ⟨_, List.mem_cons_self, rfl, rfl⟩
      · rcases ih hOuter with ⟨s, hs, hSame⟩
        exact ⟨s, List.mem_cons_of_mem _ hs, hSame⟩

/- A later line lies behind the open namespaces. -/
theorem IsStack.lt_of_mem_openings
    {o : String × Nat}
    {start : Nat}
    {inner : String}
    (h : IsStack length opened lines)
    (ho : o ∈ opened)
    (hOpens : (start, inner) ∈ openings lines) :
    o.2 < start := by
  rcases List.mem_filterMap.mp hOpens with ⟨line, hLine, hOpens⟩
  exact (h.opened_lt o ho line hLine).trans_eq (start_of_opening? hOpens)

/- No two scopes start at the same place. -/
theorem IsStack.starts_nodup
    (h : IsStack length opened lines) :
    ((closeNamespaces length opened lines).map fun s =>
      s.span.start).Nodup := by
  rw [(closeNamespaces_starts length opened lines).nodup_iff]
  refine List.nodup_append.mpr ⟨?_, ?_, ?_⟩
  · exact List.pairwise_map.mpr (h.descending.imp Nat.ne_of_gt)
  · exact h.rows.openings_nodup
  · rintro n hOpen m hNew rfl
    rcases List.mem_map.mp hOpen with ⟨o, ho, rfl⟩
    rcases List.mem_map.mp hNew with ⟨⟨start, inner⟩, hOpens, hSame⟩
    exact (h.lt_of_mem_openings ho hOpens).ne' hSame

theorem IsStack.eq_of_start_eq
    (h : IsStack length opened lines)
    (hs : s ∈ closeNamespaces length opened lines)
    (ht : t ∈ closeNamespaces length opened lines)
    (hSame : s.span.start = t.span.start) :
    s = t :=
  List.inj_on_of_nodup_map h.starts_nodup hs ht hSame

/- The scope that starts where an open namespace does has its name. -/
theorem IsStack.name_eq_of_mem_opened
    {o : String × Nat}
    (h : IsStack length opened lines)
    (ho : o ∈ opened)
    (hs : s ∈ closeNamespaces length opened lines)
    (hStart : s.span.start = o.2) :
    s.name = o.1 := by
  rcases exists_of_mem_opened ho length lines with ⟨t, ht, hName, hSame⟩
  rwa [h.eq_of_start_eq ht hs (hSame.trans hStart.symm)] at hName

/- Only the namespaces below the top of the stack start before it. -/
theorem IsStack.exists_opened_of_lt
    {top : String × Nat}
    (h : IsStack length (top :: opened) lines)
    (hs : s ∈ closeNamespaces length (top :: opened) lines)
    (hBefore : s.span.start < top.2) :
    ∃ o ∈ opened, o.2 = s.span.start := by
  rcases start_of_mem_closeNamespaces hs with ⟨o, ho, hSame⟩ | ⟨inner, hOpens⟩
  · rcases List.mem_cons.mp ho with rfl | ho'
    · exact absurd hSame hBefore.ne'
    · exact ⟨o, ho', hSame⟩
  · exact absurd (h.lt_of_mem_openings List.mem_cons_self hOpens)
      hBefore.asymm

------------------------------------------------------------
-- Nesting
------------------------------------------------------------

/- What is left lies around the namespace that a line closes or behind it. -/
theorem IsStack.around_or_behind
    {name : String}
    {opening start : Nat}
    {line taken : List Char}
    {part : NamespaceLine}
    (h : IsStack length ((name, opening) :: outer) ((start, line) :: rest))
    (hLine : namespaceLine? line = some (part, taken))
    (hs : s ∈ closeNamespaces length outer rest) :
    (s.span.start < opening ∧ start + byteLength taken ≤ s.span.stop) ∨
      start + byteLength taken < s.span.start := by
  have hTaken := byteLength_taken_le hLine
  have hBehind : ∀ l ∈ rest, start + byteLength taken < l.1 := by
    intro l hl
    exact (Nat.add_le_add_left hTaken start).trans_lt
      ((List.pairwise_cons.mp h.rows.apart).1 l hl)
  rcases start_of_mem_closeNamespaces hs with ⟨o, ho, hStart⟩ | ⟨inner, hOpens⟩
  · refine Or.inl ⟨?_, ?_⟩
    · rw [← hStart]
      exact (List.pairwise_cons.mp h.descending).1 o ho
    · refine le_stop_of_mem_closeNamespaces ?_ ?_ s hs
      · exact (Nat.add_le_add_left hTaken start).trans
          (h.rows.le_length _ List.mem_cons_self)
      · exact fun l hl => (hBehind l hl).le
  · rcases List.mem_filterMap.mp hOpens with ⟨l, hl, hOpens⟩
    exact Or.inr ((hBehind l hl).trans_eq (start_of_opening? hOpens))

/- A scope that starts before an open one does not end before it. -/
theorem IsStack.stop_le
    (h : IsStack length opened lines)
    (hs : s ∈ closeNamespaces length opened lines)
    (ht : t ∈ closeNamespaces length opened lines)
    (hOpen : ∃ o ∈ opened, o.2 = s.span.start)
    (hBefore : t.span.start < s.span.start) :
    s.span.stop ≤ t.span.stop := by
  fun_induction closeNamespaces length opened lines with
  | case1 opened =>
      rcases List.mem_map.mp hs with ⟨o, -, rfl⟩
      rcases List.mem_map.mp ht with ⟨o', -, rfl⟩
      exact le_rfl
  | case2 opened start line rest hLine ih => exact ih h.skip hs ht hOpen
  | case3 opened start line rest inner taken hLine name ih =>
      rcases hOpen with ⟨o, ho, hStart⟩
      exact ih (h.push name) hs ht ⟨o, List.mem_cons_of_mem _ ho, hStart⟩
  | case4 start line rest taken hLine ih => simp at hOpen
  | case5 start line rest taken hLine name opening outer ih =>
      have hOpening : opening < start :=
        h.opened_lt _ List.mem_cons_self _ List.mem_cons_self
      rcases List.mem_cons.mp hs with rfl | hs'
      · rcases List.mem_cons.mp ht with rfl | ht'
        · exact le_rfl
        · have hPlace := h.around_or_behind hLine ht'
          dsimp only at hBefore ⊢
          omega
      · have hPlace := h.around_or_behind hLine hs'
        have hOuter : ∃ o ∈ outer, o.2 = s.span.start := by
          rcases hOpen with ⟨o, ho, hStart⟩
          rcases List.mem_cons.mp ho with rfl | ho'
          · dsimp only at hStart
            omega
          · exact ⟨o, ho', hStart⟩
        rcases List.mem_cons.mp ht with rfl | ht'
        · rcases hOuter with ⟨o, ho, hStart⟩
          have hTop := (List.pairwise_cons.mp h.descending).1 o ho
          dsimp only at hBefore hTop
          omega
        · exact ih h.skip.pop hs' ht' hOuter

/- The one span lies in the other. -/
def IsInside (s t : Span) : Prop :=
  t.start ≤ s.start ∧ s.stop ≤ t.stop

/- Two spans have no offset in common, or one lies in the other. -/
def IsNested (s t : Span) : Prop :=
  ¬s.Overlaps t ∨ IsInside s t ∨ IsInside t s

theorem IsNested.symm
    {s t : Span}
    (h : IsNested s t) :
    IsNested t s :=
  h.imp (mt Span.Overlaps.symm) Or.symm

theorem IsStack.isNested
    (h : IsStack length opened lines) :
    (closeNamespaces length opened lines).Pairwise fun s t =>
      IsNested s.span t.span := by
  fun_induction closeNamespaces length opened lines with
  | case1 opened =>
      refine List.pairwise_map.mpr (List.pairwise_of_forall fun a b => ?_)
      rcases Nat.le_total b.2 a.2 with hLe | hLe
      · exact Or.inr (Or.inl ⟨hLe, le_rfl⟩)
      · exact Or.inr (Or.inr ⟨hLe, le_rfl⟩)
  | case2 opened start line rest hLine ih => exact ih h.skip
  | case3 opened start line rest inner taken hLine name ih =>
      exact ih (h.push name)
  | case4 start line rest taken hLine ih => exact ih h.skip
  | case5 start line rest taken hLine name opening outer ih =>
      refine List.pairwise_cons.mpr ⟨fun t ht => ?_, ih h.skip.pop⟩
      rcases h.around_or_behind hLine ht with ⟨hStart, hStop⟩ | hBehind
      · exact Or.inr (Or.inl ⟨hStart.le, hStop⟩)
      · exact Or.inl fun hOverlaps => (hOverlaps.2.trans hBehind).false

------------------------------------------------------------
-- Names
------------------------------------------------------------

/- A name behind the name of the scope around it, if there is one. -/
def nameWithin (outer? : Option NamespaceScope) (inner : String) : String :=
  match outer? with
  | some outer => outer.name ++ "." ++ inner
  | none => inner

/-
  The scope around another one and the name that it adds to:
  no other scope that starts in between is still open.
-/
structure IsPlaced
    (scopes : List NamespaceScope)
    (outer? : Option NamespaceScope)
    (inner : String)
    (s : NamespaceScope) : Prop where
  name_eq : s.name = nameWithin outer? inner
  isOuter :
    ∀ o ∈ outer?, o ∈ scopes ∧ o.span.start < s.span.start ∧
      s.span.stop ≤ o.span.stop
  nearest :
    ∀ u ∈ scopes, u.span.start < s.span.start →
      (∀ o ∈ outer?, o.span.start < u.span.start) →
        u.span.stop ≤ s.span.start

theorem IsPlaced.cons
    {outer? : Option NamespaceScope}
    {inner : String}
    (h : IsPlaced scopes outer? inner s)
    (hBefore : t.span.stop ≤ s.span.start) :
    IsPlaced (t :: scopes) outer? inner s where
  name_eq := h.name_eq
  isOuter o ho :=
    have ⟨hMem, hAround⟩ := h.isOuter o ho
    ⟨List.mem_cons_of_mem t hMem, hAround⟩
  nearest := List.forall_mem_cons.mpr ⟨fun _ _ => hBefore, h.nearest⟩

/- The scope of a line that opens a namespace is placed in the open ones. -/
theorem IsStack.exists_isPlaced_push
    {start : Nat}
    {line : List Char}
    {name inner : String}
    (h : IsStack length opened ((start, line) :: rest))
    (hName : name =
      match opened.head? with
      | some (outer, _) => outer ++ "." ++ inner
      | none => inner)
    (hs : s ∈ closeNamespaces length ((name, start) :: opened) rest)
    (hStart : s.span.start = start) :
    ∃ outer?, IsPlaced (closeNamespaces length ((name, start) :: opened) rest)
      outer? inner s := by
  subst hStart
  have hPushed := h.push name
  have hSelf : s.name = name :=
    hPushed.name_eq_of_mem_opened List.mem_cons_self hs rfl
  cases opened with
  | nil =>
      refine ⟨none, hSelf.trans hName, by simp, fun u hu hBefore => ?_⟩
      rcases hPushed.exists_opened_of_lt hu hBefore with ⟨o, ho, -⟩
      cases ho
  | cons top more =>
      have hMem : top ∈ (name, s.span.start) :: top :: more := by simp
      rcases exists_of_mem_opened hMem length rest with ⟨p, hp, hOuter, hTop⟩
      have hBefore : p.span.start < s.span.start :=
        hTop ▸ h.opened_lt top List.mem_cons_self _ List.mem_cons_self
      refine ⟨some p, ?_, ?_, ?_⟩
      · rw [hSelf, hName, nameWithin, hOuter]
        rfl
      · intro o ho
        cases ho
        exact ⟨hp, hBefore,
          hPushed.stop_le hs hp ⟨_, List.mem_cons_self, rfl⟩ hBefore⟩
      · intro u hu hEarlier hBetween
        rcases hPushed.exists_opened_of_lt hu hEarlier with ⟨o, ho, hSame⟩
        have hLater := hBetween p rfl
        rcases List.mem_cons.mp ho with rfl | ho'
        · omega
        · have hDeeper := (List.pairwise_cons.mp h.descending).1 o ho'
          omega

/- Each scope that is still to be opened, with the scope around it. -/
theorem IsStack.exists_isPlaced
    {inner : String}
    (h : IsStack length opened lines)
    (hs : s ∈ closeNamespaces length opened lines)
    (hOpens : (s.span.start, inner) ∈ openings lines) :
    ∃ outer?, IsPlaced (closeNamespaces length opened lines) outer? inner s := by
  fun_induction closeNamespaces length opened lines with
  | case1 opened => cases hOpens
  | case2 opened start line rest hLine ih =>
      exact ih h.skip hs (by simpa [openings, opening?, hLine] using hOpens)
  | case3 opened start line rest inner' taken hLine name ih =>
      simp only [openings, opening?, hLine, List.filterMap_cons] at hOpens
      rcases List.mem_cons.mp hOpens with hFirst | hLater
      · rcases Prod.mk.inj hFirst with ⟨hStart, rfl⟩
        exact h.exists_isPlaced_push rfl hs hStart
      · exact ih (h.push name) hs hLater
  | case4 start line rest taken hLine ih =>
      exact ih h.skip hs (by simpa [openings, opening?, hLine] using hOpens)
  | case5 start line rest taken hLine name opening outer ih =>
      have hLater : (s.span.start, inner) ∈ openings rest := by
        simpa [openings, opening?, hLine] using hOpens
      rcases List.mem_cons.mp hs with rfl | hs'
      · exact absurd (h.skip.lt_of_mem_openings List.mem_cons_self hLater)
          (Nat.lt_irrefl _)
      · rcases ih h.skip.pop hs' hLater with ⟨outer?, hPlaced⟩
        refine ⟨outer?, hPlaced.cons ?_⟩
        rcases h.around_or_behind hLine hs' with ⟨hBefore, -⟩ | hBehind
        · exact absurd (h.skip.lt_of_mem_openings List.mem_cons_self hLater)
            hBefore.asymm
        · exact hBehind.le

------------------------------------------------------------
-- Scopes of a text
------------------------------------------------------------

/- Scopes that nest, one for each line that opens a namespace. -/
structure IsForest
    (opens : List (Nat × String))
    (scopes : List NamespaceScope) : Prop where
  starts : (scopes.map fun s => s.span.start).Perm (opens.map Prod.fst)
  starts_nodup : (scopes.map fun s => s.span.start).Nodup
  isNested : ∀ s ∈ scopes, ∀ t ∈ scopes, IsNested s.span t.span
  exists_isPlaced :
    ∀ s ∈ scopes, ∃ outer? inner, (s.span.start, inner) ∈ opens ∧
      IsPlaced scopes outer? inner s

theorem namespaceScopes_isForest
    (masked : List Char) :
    IsForest (openings (numberedLines masked)) (namespaceScopes masked) := by
  have hStack : IsStack (byteLength masked) [] (numberedLines masked) :=
    ⟨numberedLines_isRows masked, List.Pairwise.nil, by simp⟩
  refine ⟨closeNamespaces_starts _ [] _, hStack.starts_nodup, ?_, ?_⟩
  · intro s hs t ht
    have : Std.Symm fun s t : NamespaceScope => IsNested s.span t.span :=
      ⟨fun _ _ => IsNested.symm⟩
    have hSelf : ∀ s ∈ namespaceScopes masked, IsNested s.span s.span :=
      fun s _ => Or.inr (Or.inl ⟨le_rfl, le_rfl⟩)
    exact hStack.isNested.forall_of_forall hSelf hs ht
  · intro s hs
    rcases start_of_mem_closeNamespaces hs with ⟨o, ho, -⟩ | ⟨inner, hOpens⟩
    · cases ho
    · rcases hStack.exists_isPlaced hs hOpens with ⟨outer?, hPlaced⟩
      exact ⟨outer?, inner, hOpens, hPlaced⟩

/-
  Scopes from the innermost one to the outermost one: each
  lies in the next, and its name is that of the next one, a
  dot and the name that its own line gives.
-/
structure IsNest
    (opens : List (Nat × String))
    (scopes : List NamespaceScope) : Prop where
  inside :
    scopes.Pairwise fun s t =>
      t.span.start < s.span.start ∧ s.span.stop ≤ t.span.stop
  name_eq :
    ∀ before s outer, scopes = before ++ s :: outer →
      ∃ inner, (s.span.start, inner) ∈ opens ∧
        s.name = nameWithin outer.head? inner

variable {opens : List (Nat × String)}
variable {around : List NamespaceScope}
variable {offset : Nat}

/- Of two scopes around an offset, the later one ends first. -/
theorem IsForest.stop_le
    (h : IsForest opens scopes)
    (hs : s ∈ scopes ∧ s.span.Contains offset)
    (ht : t ∈ scopes ∧ t.span.Contains offset)
    (hBefore : t.span.start < s.span.start) :
    s.span.stop ≤ t.span.stop := by
  rcases h.isNested s hs.1 t ht.1 with hApart | hInside | hInside
  · exact absurd ⟨hs.2.1.trans_lt ht.2.2, ht.2.1.trans_lt hs.2.2⟩ hApart
  · exact hInside.2
  · exact absurd hInside.1 hBefore.not_ge

/- The scope around another one is the next around an offset. -/
theorem IsPlaced.eq_head?
    {outer? : Option NamespaceScope}
    {inner : String}
    {before outer : List NamespaceScope}
    (h : IsPlaced scopes outer? inner s)
    (hMem : ∀ u, u ∈ before ++ s :: outer ↔
      u ∈ scopes ∧ u.span.Contains offset)
    (hDescending : (before ++ s :: outer).Pairwise fun s t =>
      t.span.start < s.span.start) :
    outer? = outer.head? := by
  have hs := (hMem s).mp (by simp)
  rcases List.pairwise_append.mp hDescending with ⟨-, hFrom, hBefore⟩
  rcases List.pairwise_cons.mp hFrom with ⟨hOuter, hDeeper⟩
  have hBehind : ∀ o ∈ outer?, o ∈ outer := by
    intro o ho
    rcases h.isOuter o ho with ⟨hScope, hStart, hStop⟩
    have hAround := (hMem o).mpr
      ⟨hScope, hStart.le.trans hs.2.1, hs.2.2.trans_le hStop⟩
    rcases List.mem_append.mp hAround with hFirst | hRest
    · exact absurd (hBefore o hFirst s List.mem_cons_self) hStart.asymm
    · rcases List.mem_cons.mp hRest with rfl | hLast
      · exact absurd hStart (Nat.lt_irrefl _)
      · exact hLast
  have hNearest : ∀ u ∈ outer, ∃ o ∈ outer?, u.span.start ≤ o.span.start := by
    intro u hu
    have hAround := (hMem u).mp (by simp [hu])
    by_contra hNone
    have hEnded := h.nearest u hAround.1 (hOuter u hu) fun o ho =>
      Nat.lt_of_not_le fun hLe => hNone ⟨o, ho, hLe⟩
    exact absurd (hs.2.1.trans_lt hAround.2.2) hEnded.not_gt
  cases outer with
  | nil =>
      cases outer? with
      | none => rfl
      | some o => cases hBehind o rfl
  | cons t more =>
      rcases hNearest t List.mem_cons_self with ⟨o, ho, hLe⟩
      rcases List.mem_cons.mp (hBehind o ho) with rfl | hMore
      · exact ho
      · exact absurd ((List.pairwise_cons.mp hDeeper).1 o hMore) hLe.not_gt

theorem IsForest.isNest
    (h : IsForest opens scopes)
    (hAround : around.Perm (scopes.filter fun s => s.span.Contains offset))
    (hSorted : around.Pairwise fun s t => t.span.start ≤ s.span.start) :
    IsNest opens around := by
  have hMem : ∀ s, s ∈ around ↔ s ∈ scopes ∧ s.span.Contains offset := by
    intro s
    rw [hAround.mem_iff, List.mem_filter, decide_eq_true_eq]
  have hNodup : (around.map fun s => s.span.start).Nodup :=
    (hAround.map _).nodup_iff.mpr
      (h.starts_nodup.sublist (List.filter_sublist.map _))
  have hDescending : around.Pairwise fun s t => t.span.start < s.span.start :=
    hSorted.imp₂ (fun _ _ hLe hNe => lt_of_le_of_ne hLe hNe.symm)
      (List.pairwise_map.mp hNodup)
  constructor
  · refine hDescending.imp_of_mem fun hs ht hBefore => ⟨hBefore, ?_⟩
    exact h.stop_le ((hMem _).mp hs) ((hMem _).mp ht) hBefore
  · rintro before s outer rfl
    rcases h.exists_isPlaced s ((hMem s).mp (by simp)).1 with
      ⟨outer?, inner, hOpens, hPlaced⟩
    refine ⟨inner, hOpens, ?_⟩
    rw [← hPlaced.eq_head? hMem hDescending]
    exact hPlaced.name_eq

/-
  The namespaces of a file are those that its lines open, any
  two of them are apart or one lies in the other, and those
  around an offset are listed from the innermost one on.
-/
theorem namespaces_nest
    (path : Path)
    (text : String) :
    let tree := SourceTree.ofVisualBasic path text
    let opens := openings (numberedLines (mask text.toList))
    (tree.namespaces.map fun s => s.span.start).Perm (opens.map Prod.fst) ∧
      (∀ s ∈ tree.namespaces, ∀ t ∈ tree.namespaces,
        IsNested s.span t.span) ∧
      ∀ offset, ∃ around,
        around.Perm
            (tree.namespaces.filter fun s => s.span.Contains offset) ∧
          tree.enclosingNamespaces offset = around.map NamespaceScope.name ∧
          IsNest opens around := by
  intro tree opens
  have hForest : IsForest opens tree.namespaces :=
    namespaceScopes_isForest (mask text.toList)
  refine ⟨hForest.starts, hForest.isNested, fun offset => ?_⟩
  let around := tree.namespaces.filter fun s => s.span.Contains offset
  have hPerm := around.mergeSort_perm fun s t =>
    decide (s.span.start ≥ t.span.start)
  refine ⟨_, hPerm, rfl, hForest.isNest hPerm ?_⟩
  have hSorted : (around.mergeSort fun s t =>
      decide (s.span.start ≥ t.span.start)).Pairwise fun s t =>
        decide (s.span.start ≥ t.span.start) = true := by
    refine List.pairwise_mergeSort ?_ ?_ around
    · intro a b c hab hbc
      simp only [decide_eq_true_eq] at hab hbc ⊢
      omega
    · intro a b
      simp only [Bool.or_eq_true, decide_eq_true_eq]
      omega
  exact hSorted.imp of_decide_eq_true

/- A namespace in a namespace has the names of both. -/
example :
    (SourceTree.ofVisualBasic ⟨"a.vb"⟩
      "Namespace A\nNamespace B\nEnd Namespace\nEnd Namespace\n").namespaces =
      [⟨"A.B", ⟨12, 37⟩⟩, ⟨"A", ⟨0, 51⟩⟩] := by
  decide +kernel

end Retarget.VisualBasic
