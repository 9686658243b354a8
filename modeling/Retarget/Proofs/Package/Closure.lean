import Mathlib.Data.List.Nodup
import Mathlib.Data.List.Perm.Subperm
import Mathlib.Logic.Relation
import Retarget.Package.LockFile
import Retarget.Proofs.Text.Fold

/-
  This file shows which libraries a search from some roots
  finds.  The search takes name after name from a queue, and
  it ends.  It finds no library twice and none that the roots
  do not lead to.  It can miss one: a name counts as looked up
  when its lower-case form does, and a name of other letters
  can have the same form and name no library.

  Key definitions include:
    * `LockedTarget.Leads`
    * `LockedTarget.Walk`
    * `LockedTarget.Progress`
    * `LockedTarget.firstAlike`

  Key statements include:
    * `LockedTarget.Progress.skip`
    * `LockedTarget.Progress.ask`
    * `LockedTarget.Progress.reaches`
    * `LockedTarget.closure_exact_iff`
-/

namespace Retarget

def LockedLibrary.needs (l : LockedLibrary) : List String :=
  l.dependencies.map LockedDependency.name

namespace LockedTarget

variable {t : LockedTarget}
variable {l : LockedLibrary}
variable {m n : String}
variable {roots asked : List String}

------------------------------------------------------------
-- Libraries by name
------------------------------------------------------------

/- The names that roots lead to, in any case of ASCII letters. -/
inductive Leads (t : LockedTarget) (roots : List String) : String → Prop where
  | root {n : String}
      (h : n ∈ roots) :
      Leads t roots n
  | needed {m n : String} {l : LockedLibrary}
      (h : Leads t roots m)
      (hFind : t.library? m = some l)
      (hName : n ∈ l.needs) :
      Leads t roots n
  | recased {m n : String}
      (h : Leads t roots m)
      (hSame : Text.equalsIgnoringAsciiCase m n = true) :
      Leads t roots n

theorem mem_libraries_of_library?
    (h : t.library? n = some l) :
    l ∈ t.libraries :=
  List.mem_of_find?_eq_some h

theorem lowerAscii_eq_of_library?
    (h : t.library? n = some l) :
    Text.lowerAscii l.name = Text.lowerAscii n :=
  Text.lowerAscii_eq_iff.mpr
    (List.find?_some (p := fun l : LockedLibrary => l.isNamed n) h)

theorem lower_eq_of_lowerAscii_eq
    (h : Text.lowerAscii m = Text.lowerAscii n) :
    Text.lower m = Text.lower n :=
  Text.lower_congr (Text.lowerAscii_eq_iff.mp h)

/- A library is found under each spelling of its name. -/
theorem library?_congr
    (h : Text.lowerAscii m = Text.lowerAscii n) :
    t.library? m = t.library? n := by
  rw [library?, library?]
  congr 1
  funext l
  rw [Bool.eq_iff_iff, LockedLibrary.isNamed, LockedLibrary.isNamed,
    ← Text.lowerAscii_eq_iff, ← Text.lowerAscii_eq_iff, h]

------------------------------------------------------------
-- The search, name by name
------------------------------------------------------------

/- The names to look up, the forms of those before, and what was found. -/
structure Walk where
  queue : List String
  seen : List String
  found : List LockedLibrary

/- Take the first name from the queue. -/
def Walk.next? (t : LockedTarget) : Walk → Option Walk
  | ⟨[], _, _⟩ => none
  | ⟨name :: rest, seen, found⟩ =>
    if seen.contains (Text.lower name) then some ⟨rest, seen, found⟩
    else
      match t.library? name with
      | none => some ⟨rest, Text.lower name :: seen, found⟩
      | some l =>
        some ⟨rest ++ l.needs, Text.lower name :: seen, found ++ [l]⟩

def Walk.Next (t : LockedTarget) (w v : Walk) : Prop :=
  w.next? t = some v

theorem next_skip
    {name : String}
    {rest seen : List String}
    {found : List LockedLibrary}
    (h : Text.lower name ∈ seen) :
    Walk.Next t ⟨name :: rest, seen, found⟩ ⟨rest, seen, found⟩ := by
  rw [Walk.Next, Walk.next?, if_pos (List.contains_iff_mem.mpr h)]

theorem next_ask
    {name : String}
    {seen : List String}
    (h : Text.lower name ∉ seen)
    (t : LockedTarget)
    (rest : List String)
    (found : List LockedLibrary) :
    Walk.Next t ⟨name :: rest, seen, found⟩
      ⟨rest ++ (t.library? name).toList.flatMap LockedLibrary.needs,
        Text.lower name :: seen, found ++ (t.library? name).toList⟩ := by
  rw [Walk.Next, Walk.next?, if_neg (mt List.contains_iff_mem.mp h)]
  cases t.library? name with
  | none => simp
  | some l => simp

/- The first name of a list that has the lower-case form of a name. -/
def firstAlike (names : List String) (n : String) : Option String :=
  names.find? fun m => Text.lower m == Text.lower n

theorem lower_eq_of_firstAlike
    (h : firstAlike roots n = some m) :
    Text.lower m = Text.lower n :=
  beq_iff_eq.mp
    (List.find?_some (p := fun m => Text.lower m == Text.lower n) h)

theorem firstAlike_congr
    (h : Text.lower m = Text.lower n) :
    firstAlike roots m = firstAlike roots n := by
  rw [firstAlike, h, firstAlike]

theorem firstAlike_cons
    (name : String)
    (rest : List String)
    (n : String) :
    firstAlike (name :: rest) n =
      if Text.lower name = Text.lower n then some name
      else firstAlike rest n := by
  rw [firstAlike]
  by_cases hSame : Text.lower name = Text.lower n
  · rw [if_pos hSame, List.find?_cons_of_pos (by simpa using hSame)]
  · rw [if_neg hSame, List.find?_cons_of_neg (by simpa using hSame)]
    rfl

/-
  How far a search has come that looked up some names, the
  latest one first: nothing waits that it will not come to, and
  of the roots with one lower-case form it looks up the first.
-/
structure Progress
    (t : LockedTarget)
    (roots asked : List String)
    (w : Walk) : Prop where
  seen_eq : w.seen = asked.map Text.lower
  nodup : w.seen.Nodup
  found_eq : w.found = asked.reverse.filterMap t.library?
  leads : ∀ n, n ∈ asked ∨ n ∈ w.queue → t.Leads roots n
  pending :
    ∀ n, n ∈ roots ∨ (∃ l ∈ w.found, n ∈ l.needs) →
      Text.lower n ∈ w.seen ∨ n ∈ w.queue
  isFirst : ∀ n ∈ asked, ∀ r, firstAlike roots n = some r → n = r
  comesFirst :
    ∀ r, firstAlike roots r = some r →
      r ∈ asked ∨ firstAlike w.queue r = some r

namespace Progress

variable {w v : Walk}

theorem start
    (t : LockedTarget)
    (roots : List String) :
    t.Progress roots [] ⟨roots, [], []⟩ where
  seen_eq := rfl
  nodup := List.nodup_nil
  found_eq := rfl
  leads n h := .root (h.resolve_left List.not_mem_nil)
  pending n h := by simpa using h
  isFirst n h := by cases h
  comesFirst r h := Or.inr h

theorem exists_asked
    (h : t.Progress roots asked w)
    (hSeen : Text.lower n ∈ w.seen) :
    ∃ m ∈ asked, Text.lower m = Text.lower n := by
  rw [h.seen_eq] at hSeen
  exact List.mem_map.mp hSeen

/- A name whose form is known already changes nothing. -/
theorem skip
    {name : String}
    {rest : List String}
    (h : t.Progress roots asked w)
    (hQueue : w.queue = name :: rest)
    (hSeen : Text.lower name ∈ w.seen) :
    t.Progress roots asked { w with queue := rest } where
  seen_eq := h.seen_eq
  nodup := h.nodup
  found_eq := h.found_eq
  leads n hn := h.leads n (hn.imp_right fun hRest =>
    hQueue ▸ List.mem_cons_of_mem name hRest)
  pending n hn := by
    refine (h.pending n hn).elim Or.inl fun hMem => ?_
    rw [hQueue] at hMem
    rcases List.mem_cons.mp hMem with rfl | hRest
    · exact Or.inl hSeen
    · exact Or.inr hRest
  isFirst := h.isFirst
  comesFirst r hr := by
    refine (h.comesFirst r hr).elim Or.inl fun hFirst => ?_
    rw [hQueue, firstAlike_cons] at hFirst
    split at hFirst
    · next hAlike =>
        rcases h.exists_asked (hAlike ▸ hSeen) with ⟨m, hm, hSame⟩
        have hFound := h.isFirst m hm r ((firstAlike_congr hSame).trans hr)
        exact Or.inl (hFound ▸ hm)
    · exact Or.inr hFirst

/- A name of a new form is looked up, and it is the first of its form. -/
theorem ask
    {name : String}
    {rest : List String}
    (h : t.Progress roots asked w)
    (hQueue : w.queue = name :: rest)
    (hNew : Text.lower name ∉ w.seen) :
    t.Progress roots (name :: asked)
      ⟨rest ++ (t.library? name).toList.flatMap LockedLibrary.needs,
        Text.lower name :: w.seen, w.found ++ (t.library? name).toList⟩ where
  seen_eq := by rw [h.seen_eq, List.map_cons]
  nodup := List.nodup_cons.mpr ⟨hNew, h.nodup⟩
  found_eq := by
    rw [h.found_eq, List.reverse_cons, List.filterMap_append]
    cases hFind : t.library? name <;> simp [hFind]
  leads n hn := by
    have hName : t.Leads roots name :=
      h.leads name (Or.inr (hQueue ▸ List.mem_cons_self))
    rcases hn with hAsked | hLater
    · rcases List.mem_cons.mp hAsked with rfl | hOld
      · exact hName
      · exact h.leads n (Or.inl hOld)
    · rcases List.mem_append.mp hLater with hRest | hNeeded
      · exact h.leads n (Or.inr (hQueue ▸ List.mem_cons_of_mem name hRest))
      · rcases List.mem_flatMap.mp hNeeded with ⟨l, hl, hMem⟩
        exact .needed hName (Option.mem_toList.mp hl) hMem
  pending n hn := by
    have hOld : Text.lower n ∈ w.seen ∨ n ∈ w.queue →
        Text.lower n ∈ Text.lower name :: w.seen ∨
          n ∈ rest ++ (t.library? name).toList.flatMap LockedLibrary.needs := by
      rw [hQueue, List.mem_cons, List.mem_cons, List.mem_append]
      rintro (hSeen | rfl | hRest)
      · exact Or.inl (Or.inr hSeen)
      · exact Or.inl (Or.inl rfl)
      · exact Or.inr (Or.inl hRest)
    rcases hn with hRoot | ⟨l, hl, hMem⟩
    · exact hOld (h.pending n (Or.inl hRoot))
    · rcases List.mem_append.mp hl with hBefore | hNow
      · exact hOld (h.pending n (Or.inr ⟨l, hBefore, hMem⟩))
      · exact Or.inr (List.mem_append_right rest
          (List.mem_flatMap.mpr ⟨l, hNow, hMem⟩))
  isFirst n hn r hr := by
    rcases List.mem_cons.mp hn with rfl | hOld
    · have hAlike := lower_eq_of_firstAlike hr
      have hSelf := (firstAlike_congr hAlike).trans hr
      rcases h.comesFirst r hSelf with hAsked | hFirst
      · refine absurd ?_ hNew
        rw [← hAlike, h.seen_eq]
        exact List.mem_map_of_mem hAsked
      · rw [hQueue, firstAlike_cons, if_pos hAlike.symm] at hFirst
        exact Option.some.inj hFirst
    · exact h.isFirst n hOld r hr
  comesFirst r hr := by
    rcases h.comesFirst r hr with hAsked | hFirst
    · exact Or.inl (List.mem_cons_of_mem name hAsked)
    · rw [hQueue, firstAlike_cons] at hFirst
      split at hFirst
      · rw [Option.some.inj hFirst]
        exact Or.inl List.mem_cons_self
      · refine Or.inr ?_
        rw [firstAlike] at hFirst ⊢
        rw [List.find?_append, hFirst, Option.some_or]

/- Nothing is found twice, since the names of a library have one form. -/
theorem nodup_names
    (h : t.Progress roots asked w) :
    (w.found.map fun l => Text.lowerAscii l.name).Nodup := by
  have hForms : asked.reverse.Pairwise fun a b => Text.lower a ≠ Text.lower b := by
    have hNodup := h.nodup
    rw [h.seen_eq] at hNodup
    exact List.pairwise_reverse.mpr
      ((List.pairwise_map.mp hNodup).imp fun hNe => hNe.symm)
  rw [h.found_eq, List.Nodup, List.pairwise_map]
  refine hForms.filterMap _ fun a b hNe l hl k hk hSame => hNe ?_
  rw [← lower_eq_of_lowerAscii_eq (lowerAscii_eq_of_library? hl),
    ← lower_eq_of_lowerAscii_eq (lowerAscii_eq_of_library? hk)]
  exact lower_eq_of_lowerAscii_eq hSame

theorem exists_library?
    (h : t.Progress roots asked w)
    (hFound : l ∈ w.found) :
    ∃ n ∈ asked, t.library? n = some l := by
  rw [h.found_eq] at hFound
  rcases List.mem_filterMap.mp hFound with ⟨n, hn, hFind⟩
  exact ⟨n, List.mem_reverse.mp hn, hFind⟩

theorem mem_found
    (h : t.Progress roots asked w)
    (hn : n ∈ asked)
    (hFind : t.library? n = some l) :
    l ∈ w.found := by
  rw [h.found_eq]
  exact List.mem_filterMap.mpr ⟨n, List.mem_reverse.mpr hn, hFind⟩

/- So there is never more to find than there are libraries. -/
theorem length_found_le
    (h : t.Progress roots asked w) :
    w.found.length ≤ t.libraries.length := by
  refine (List.Nodup.subperm h.nodup_names.of_map fun l hl => ?_).length_le
  rcases h.exists_library? hl with ⟨n, -, hFind⟩
  exact mem_libraries_of_library? hFind

/-
  A search with room for what is left goes on until the queue
  is empty, and finds what the bounded one finds.
-/
theorem reaches
    {bound : Nat}
    {queue seen : List String}
    {found : List LockedLibrary}
    (h : t.Progress roots asked ⟨queue, seen, found⟩)
    (hRoom : t.libraries.length ≤ bound + found.length) :
    ∃ asked seen',
      t.Progress roots asked ⟨[], seen', found ++ t.closureFrom bound queue seen⟩ ∧
      Relation.ReflTransGen (Walk.Next t) ⟨queue, seen, found⟩
        ⟨[], seen', found ++ t.closureFrom bound queue seen⟩ := by
  fun_induction closureFrom t bound queue seen generalizing asked found
  case case1 bound seen =>
    rw [List.append_nil]
    exact ⟨asked, seen, h, .refl⟩
  case case2 bound seen name rest key hSeen ih =>
    have hMem : key ∈ seen := List.contains_iff_mem.mp hSeen
    rcases ih (h.skip rfl hMem) hRoom with ⟨later, ending, hEnd, hRun⟩
    exact ⟨later, ending, hEnd, .head (next_skip hMem) hRun⟩
  case case3 bound seen name rest key hSeen hFind ih =>
    have hNew : key ∉ seen := mt List.contains_iff_mem.mpr hSeen
    have hAsk := h.ask rfl hNew
    have hNext := next_ask hNew t rest found
    rw [hFind] at hAsk hNext
    simp only [Option.toList_none, List.flatMap_nil, List.append_nil]
      at hAsk hNext
    rcases ih hAsk hRoom with ⟨later, ending, hEnd, hRun⟩
    exact ⟨later, ending, hEnd, .head hNext hRun⟩
  case case4 seen name rest key hSeen l hFind =>
    -- One more library would be found than there are.
    have hAsk := h.ask rfl (mt List.contains_iff_mem.mpr hSeen)
    have hLength := hAsk.length_found_le
    rw [hFind, Option.toList_some, List.length_append, List.length_singleton]
      at hLength
    dsimp only at hLength
    omega
  case case5 seen name rest key hSeen l hFind bound next ih =>
    have hNew : key ∉ seen := mt List.contains_iff_mem.mpr hSeen
    have hAsk := h.ask rfl hNew
    have hNext := next_ask hNew t rest found
    rw [hFind] at hAsk hNext
    simp only [Option.toList_some, List.flatMap_cons, List.flatMap_nil,
      List.append_nil] at hAsk hNext
    rcases ih hAsk (by simp; omega) with ⟨later, ending, hEnd, hRun⟩
    rw [List.append_assoc, List.singleton_append] at hEnd hRun
    exact ⟨later, ending, hEnd, .head hNext hRun⟩

end Progress

/- The search from some roots ends, with what is called the closure. -/
theorem exists_progress
    (t : LockedTarget)
    (roots : List String) :
    ∃ asked seen,
      t.Progress roots asked ⟨[], seen, t.closure roots⟩ ∧
      Relation.ReflTransGen (Walk.Next t) ⟨roots, [], []⟩
        ⟨[], seen, t.closure roots⟩ :=
  (Progress.start t roots).reaches (Nat.le_add_right _ _)

------------------------------------------------------------
-- Names of ASCII characters
------------------------------------------------------------

/- The libraries and what they depend on have names of ASCII characters. -/
def HasAsciiNames (t : LockedTarget) : Prop :=
  ∀ l ∈ t.libraries, Text.IsAscii l.name ∧ ∀ n ∈ l.needs, Text.IsAscii n

instance (t : LockedTarget) : Decidable t.HasAsciiNames := by
  unfold HasAsciiNames
  infer_instance

/-
  Of the roots with the lower-case form of a library's name
  the first one names that library.
-/
def FirstRootsAgree (t : LockedTarget) (roots : List String) : Prop :=
  ∀ n l, t.Leads roots n → t.library? n = some l →
    ∀ r, firstAlike roots n = some r → t.library? r = some l

theorem HasAsciiNames.isAscii_of_library?
    (hAscii : t.HasAsciiNames)
    (h : t.library? n = some l) :
    Text.IsAscii n :=
  (hAscii l (mem_libraries_of_library? h)).1.of_lowerAscii_eq
    (lowerAscii_eq_of_library? h)

/- Other characters come from the roots only. -/
theorem Leads.isAscii
    (hAscii : t.HasAsciiNames)
    (h : t.Leads roots n)
    (hNoRoot : firstAlike roots n = none) :
    Text.IsAscii n := by
  induction h with
  | root hRoot =>
      exact absurd (beq_self_eq_true _) (List.find?_eq_none.mp hNoRoot _ hRoot)
  | needed _ hFind hName _ =>
      exact (hAscii _ (mem_libraries_of_library? hFind)).2 _ hName
  | recased _ hSame ih =>
      have hForm := Text.lowerAscii_eq_iff.mpr hSame
      rw [← firstAlike_congr (lower_eq_of_lowerAscii_eq hForm)] at hNoRoot
      exact (ih hNoRoot).of_lowerAscii_eq hForm

namespace Progress

variable {seen : List String}
variable {found : List LockedLibrary}

/- What has the form of a name that was looked up is found. -/
theorem mem_found_of_seen
    (hAscii : t.HasAsciiNames)
    (hAgree : t.FirstRootsAgree roots)
    (h : t.Progress roots asked ⟨[], seen, found⟩)
    (hLeads : t.Leads roots n)
    (hFind : t.library? n = some l)
    (hSeen : Text.lower n ∈ seen) :
    l ∈ found := by
  rcases h.exists_asked hSeen with ⟨m, hm, hAlike⟩
  refine h.mem_found hm ?_
  cases hFirst : firstAlike roots m with
  | none =>
      have hName := (h.leads m (Or.inl hm)).isAscii hAscii hFirst
      rw [library?_congr
        (hName.lowerAscii_eq_of_lower_eq (hAscii.isAscii_of_library? hFind) hAlike),
        hFind]
  | some r =>
      rw [h.isFirst m hm r hFirst]
      exact hAgree n l hLeads hFind r (firstAlike_congr hAlike ▸ hFirst)

/- At its end the search has looked up the form of each name led to. -/
theorem lower_mem_seen
    (hAscii : t.HasAsciiNames)
    (hAgree : t.FirstRootsAgree roots)
    (h : t.Progress roots asked ⟨[], seen, found⟩)
    (hLeads : t.Leads roots n) :
    Text.lower n ∈ seen := by
  induction hLeads with
  | root hRoot =>
      exact (h.pending _ (Or.inl hRoot)).resolve_right List.not_mem_nil
  | needed hBefore hFind hName ih =>
      have hFound := h.mem_found_of_seen hAscii hAgree hBefore hFind ih
      exact (h.pending _ (Or.inr ⟨_, hFound, hName⟩)).resolve_right List.not_mem_nil
  | recased _ hSame ih =>
      rwa [← Text.lower_congr hSame]

/- A library is found under the first root of its name's form. -/
theorem library?_of_firstAlike
    {r : String}
    (h : t.Progress roots asked ⟨[], seen, found⟩)
    (hFind : t.library? n = some l)
    (hFound : l ∈ found)
    (hFirst : firstAlike roots n = some r) :
    t.library? r = some l := by
  rcases h.exists_library? hFound with ⟨m, hm, hOther⟩
  have hForm : Text.lowerAscii m = Text.lowerAscii n :=
    (lowerAscii_eq_of_library? hOther).symm.trans (lowerAscii_eq_of_library? hFind)
  rw [← firstAlike_congr (lower_eq_of_lowerAscii_eq hForm)] at hFirst
  rwa [← h.isFirst m hm r hFirst]

end Progress

theorem firstRootsAgree_of_isAscii
    (hAscii : t.HasAsciiNames)
    (hRoots : ∀ r ∈ roots, Text.IsAscii r) :
    t.FirstRootsAgree roots := by
  intro n l _ hFind r hFirst
  rw [library?_congr ((hRoots r (List.mem_of_find?_eq_some hFirst)).lowerAscii_eq_of_lower_eq
    (hAscii.isAscii_of_library? hFind) (lower_eq_of_firstAlike hFirst)), hFind]

/-
  The search from any roots ends.  It finds no library twice,
  in whatever letter case, and none that the roots do not lead
  to.  It finds all of them exactly if the first root of each
  lower-case form agrees with the names of that form, and so
  for all roots of ASCII characters.
-/
theorem closure_exact_iff
    (hAscii : t.HasAsciiNames)
    (roots : List String) :
    (∃ seen, Relation.ReflTransGen (Walk.Next t) ⟨roots, [], []⟩
      ⟨[], seen, t.closure roots⟩) ∧
    ((t.closure roots).map fun l => Text.lowerAscii l.name).Nodup ∧
    (∀ l ∈ t.closure roots, ∃ n, t.Leads roots n ∧ t.library? n = some l) ∧
    ((∀ n l, t.Leads roots n → t.library? n = some l → l ∈ t.closure roots) ↔
      t.FirstRootsAgree roots) ∧
    ((∀ r ∈ roots, Text.IsAscii r) →
      ∀ l, l ∈ t.closure roots ↔
        ∃ n, t.Leads roots n ∧ t.library? n = some l) := by
  rcases t.exists_progress roots with ⟨asked, seen, hEnd, hRun⟩
  have hSound : ∀ l ∈ t.closure roots,
      ∃ n, t.Leads roots n ∧ t.library? n = some l := by
    intro l hl
    rcases hEnd.exists_library? hl with ⟨n, hn, hFind⟩
    exact ⟨n, hEnd.leads n (Or.inl hn), hFind⟩
  have hComplete : t.FirstRootsAgree roots →
      ∀ n l, t.Leads roots n → t.library? n = some l → l ∈ t.closure roots :=
    fun hAgree n l hLeads hFind =>
      hEnd.mem_found_of_seen hAscii hAgree hLeads hFind
        (hEnd.lower_mem_seen hAscii hAgree hLeads)
  refine ⟨⟨seen, hRun⟩, hEnd.nodup_names, hSound, ⟨?_, hComplete⟩, ?_⟩
  · intro hAll n l hLeads hFind r hFirst
    exact hEnd.library?_of_firstAlike hFind (hAll n l hLeads hFind) hFirst
  · intro hRoots l
    refine ⟨hSound l, ?_⟩
    rintro ⟨n, hLeads, hFind⟩
    exact hComplete (firstRootsAgree_of_isAscii hAscii hRoots) n l hLeads hFind

/- Two libraries that need each other, and one that is not there. -/
namespace Cyclic

def first : LockedLibrary :=
  ⟨"K", .ofNumbers 1 0 0 0, .package, [⟨"log", none⟩, ⟨"Gone", none⟩]⟩

def second : LockedLibrary :=
  ⟨"Log", .ofNumbers 2 0 0 0, .package, [⟨"k", none⟩]⟩

def target : LockedTarget :=
  ⟨"net6.0", none, none, [first, second], []⟩

theorem hasAsciiNames_target :
    target.HasAsciiNames := by
  decide

theorem closure_exact_iff_of_cycle :
    target.HasAsciiNames ∧
    (∀ r ∈ ["k"], Text.IsAscii r) ∧
    (∀ l, l ∈ target.closure ["k"] ↔
      ∃ n, target.Leads ["k"] n ∧ target.library? n = some l) ∧
    second ∈ target.closure ["k"] := by
  have hRoots : ∀ r ∈ ["k"], Text.IsAscii r := by
    decide
  rcases closure_exact_iff hasAsciiNames_target ["k"] with ⟨_, _, _, _, hExact⟩
  refine ⟨hasAsciiNames_target, hRoots, hExact hRoots, ?_⟩
  have hFirst : target.library? "k" = some first := by
    decide
  have hSecond : target.library? "log" = some second := by
    decide
  have hLeads : target.Leads ["k"] "log" :=
    .needed (.root List.mem_cons_self) hFirst (by decide)
  exact (hExact hRoots second).mpr ⟨"log", hLeads, hSecond⟩

/- The Kelvin sign, whose lower-case form is that of the letter K. -/
def kelvin : String :=
  "\u212a"

/-
  The second root names a library.  The first one does not,
  and it has the same form.
-/
theorem not_mem_closure_kelvin :
    target.HasAsciiNames ∧
    target.Leads [kelvin, "K"] "K" ∧
    target.library? "K" = some first ∧
    first ∉ target.closure [kelvin, "K"] := by
  refine ⟨hasAsciiNames_target, .root (by decide), by decide, ?_⟩
  have hNone : target.library? kelvin = none := by
    decide
  have hForm : Text.lower kelvin = Text.lower "K" := by
    decide +kernel
  have hEmpty : target.closure [kelvin, "K"] = [] := by
    simp [closure, closureFrom, hNone, hForm]
  rw [hEmpty]
  exact List.not_mem_nil

end Cyclic

end LockedTarget

end Retarget
