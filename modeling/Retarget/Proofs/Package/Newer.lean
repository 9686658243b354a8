import Retarget.Proofs.Package.Order
import Retarget.Proofs.Package.Search

/-
  This file shows what a search for newer versions finds: of
  the versions that a feed has answered, all that may be
  shown and are above the current one, in order, with one
  for all that are the same.  The latest one is the last.

  Key definitions include:
    * `Search.IsNewer`
    * `Search.ListsNewer`
    * `Search.IsLatest`

  Key statements include:
    * `Search.exists_reply_of_versions`
    * `Search.newerThan_listsNewer`
    * `Search.ListsNewer.isLatest_getLast?`
    * `Search.newerVersions_exact`
-/

namespace Retarget.Search

------------------------------------------------------------
-- Newer versions
------------------------------------------------------------

/-
  The version may be shown, and it is above the current one,
  if there is one.
-/
structure IsNewer
    (current : Option PackageVersion)
    (includePrerelease : Bool)
    (v : PackageVersion) : Prop where
  isShown : v.isPrerelease = true → includePrerelease = true
  isAbove : ∀ c ∈ current, c.order v = .lt

/-
  A list of newer versions in order.  Each of them has been
  answered, and each newer version that has been answered is
  the same as one of them.
-/
structure ListsNewer
    (current : Option PackageVersion)
    (includePrerelease : Bool)
    (answered newer : List PackageVersion) : Prop where
  ascends : newer.Pairwise fun v w => v.order w = .lt
  isAnswered : ∀ v ∈ newer, v ∈ answered
  isNewer : ∀ v ∈ newer, IsNewer current includePrerelease v
  isComplete :
    ∀ v ∈ answered, IsNewer current includePrerelease v →
      ∃ w ∈ newer, v.order w = .eq

/- A newer version that none is above, or nothing if there is none. -/
def IsLatest
    (current : Option PackageVersion)
    (includePrerelease : Bool)
    (answered : List PackageVersion) : Option PackageVersion → Prop
  | none => ∀ v ∈ answered, ¬IsNewer current includePrerelease v
  | some latest =>
    latest ∈ answered ∧ IsNewer current includePrerelease latest ∧
      ∀ v ∈ answered, IsNewer current includePrerelease v →
        v.le latest = true

section

variable {current : Option PackageVersion}
variable {includePrerelease : Bool}
variable {answered newer : List PackageVersion}
variable {v : PackageVersion}

theorem isNewer_iff :
    IsNewer current includePrerelease v ↔
      ((includePrerelease || !v.isPrerelease) &&
        current.all fun c => c.lt v) = true := by
  rw [Bool.and_eq_true, Bool.or_eq_true, Bool.not_eq_true',
    Option.all_eq_true]
  constructor
  · rintro ⟨hShown, hAbove⟩
    refine ⟨?_, fun c hc => beq_iff_eq.mpr (hAbove c hc)⟩
    cases hPrerelease : v.isPrerelease with
    | false => exact Or.inr rfl
    | true => exact Or.inl (hShown hPrerelease)
  · rintro ⟨hShown, hAbove⟩
    refine ⟨fun hPrerelease => ?_, fun c hc => beq_iff_eq.mp (hAbove c hc)⟩
    rw [hPrerelease] at hShown
    simpa using hShown

/- Filtering, sorting and dropping repeats lists what is newer. -/
theorem newerThan_listsNewer
    (current : Option PackageVersion)
    (includePrerelease : Bool)
    (answered : List PackageVersion) :
    ListsNewer current includePrerelease answered
      (newerThan current includePrerelease answered) := by
  let kept := answered.filter fun v =>
    (includePrerelease || !v.isPrerelease) && current.all fun c => c.lt v
  have hKept : ∀ v, v ∈ kept ↔
      v ∈ answered ∧ IsNewer current includePrerelease v := by
    intro v
    rw [List.mem_filter, ← isNewer_iff]
  have hSubset : newerThan current includePrerelease answered ⊆ kept :=
    fun v hv => (PackageVersion.sort_perm kept).mem_iff.mp
      ((PackageVersion.dropRepeated_sublist _).subset hv)
  refine {
    ascends :=
      PackageVersion.dropRepeated_ascends (PackageVersion.sort_sorted kept)
    isAnswered := fun v hv => ((hKept v).mp (hSubset hv)).1
    isNewer := fun v hv => ((hKept v).mp (hSubset hv)).2
    isComplete := fun v hv hNewer => ?_ }
  -- Dropping repeats keeps a version that is the same.
  refine PackageVersion.represents_dropRepeated_iff.mpr
    (represents_of_mem ((PackageVersion.sort_perm kept).mem_iff.mpr ?_))
  exact (hKept v).mpr ⟨hv, hNewer⟩

/- No element of an ascending list is above the last one. -/
theorem le_of_getLast?
    {latest : PackageVersion}
    (hAscends : newer.Pairwise fun v w => v.order w = .lt)
    (hLast : newer.getLast? = some latest)
    (hv : v ∈ newer) :
    v.le latest = true := by
  rcases List.getLast?_eq_some_iff.mp hLast with ⟨before, rfl⟩
  rw [PackageVersion.le, bne_iff_ne]
  rcases List.mem_append.mp hv with hBefore | hSame
  · rw [(List.pairwise_append.mp hAscends).2.2 v hBefore latest (by simp)]
    decide
  · have hSelf : latest.order latest = .eq := Std.ReflCmp.compare_self
    rw [List.mem_singleton.mp hSame, hSelf]
    decide

theorem ListsNewer.isLatest_getLast?
    (h : ListsNewer current includePrerelease answered newer) :
    IsLatest current includePrerelease answered newer.getLast? := by
  cases hLast : newer.getLast? with
  | none =>
      intro v hv hNewer
      rcases h.isComplete v hv hNewer with ⟨w, hw, -⟩
      rw [List.getLast?_eq_none_iff.mp hLast] at hw
      cases hw
  | some latest =>
      have hMem := List.mem_of_getLast? hLast
      refine ⟨h.isAnswered latest hMem, h.isNewer latest hMem, ?_⟩
      intro v hv hNewer
      rcases h.isComplete v hv hNewer with ⟨w, hw, hSame⟩
      rw [PackageVersion.le, (PackageVersion.order_congr hSame latest).1]
      exact le_of_getLast? h.ascends hLast hw

------------------------------------------------------------
-- Answers of feeds
------------------------------------------------------------

/- A feed has answered the question for a package. -/
def IsAnswer
    (feeds : List Feed)
    (package : String)
    (feed : Feed)
    (answered : List PackageVersion) : Prop :=
  feed ∈ feeds ∧
    ∃ asked, (feed.reply asked package).answer = .ok answered

variable {feeds : List Feed}
variable {policy : RetryPolicy}
variable {package : String}
variable {before after : State}

/- What a call is told is a reply of its feed. -/
theorem Makes.exists_reply
    {calls : List Call}
    (h : Makes feeds package before calls after) :
    ∀ c ∈ calls, ∃ feed asked,
      feeds[c.feed]? = some feed ∧ c.reply = feed.reply asked package := by
  induction h with
  | finish => simp
  | wait _ _ ih => exact ih
  | call _ hFeed _ ih =>
      exact List.forall_mem_cons.mpr ⟨⟨_, _, hFeed, rfl⟩, ih⟩

/- What has been found is what the last call was told. -/
theorem exists_reply_of_versions
    {found : Found}
    (h : versions feeds policy package before = (.ok (some found), after)) :
    ∃ feed, found.feed = feed.name ∧
      IsAnswer feeds package feed found.versions := by
  unfold versions at h
  split at h
  · cases h
  · rcases askFrom_searched policy package (List.range feeds.length)
        (fun i hi => List.mem_range.mp hi) before with
      ⟨calls, hMakes, hSearched⟩
    rw [h] at hMakes hSearched
    rcases hSearched.found_iff.mp rfl with
      ⟨c, feed, hLast, hAnswer, hFeed, hName⟩
    rcases hMakes.exists_reply c (List.mem_of_getLast? hLast) with
      ⟨other, asked, hOther, hReply⟩
    obtain rfl := Option.some.inj (hFeed.symm.trans hOther)
    rw [hReply] at hAnswer
    exact ⟨feed, hName.symm, List.mem_of_getElem? hFeed, asked, hAnswer⟩

------------------------------------------------------------
-- References
------------------------------------------------------------

/-
  A search for newer versions ends as the search for versions
  does.  What a feed has answered is listed from the first
  newer version to the latest, and if no feed has answered,
  there is none.
-/
theorem newerVersions_exact
    {result : Except PackageError (Option Found)}
    (r : PackageReference)
    (includePrerelease : Bool)
    (hSearch : versions feeds policy r.name before = (result, after)) :
    let newer := newerVersions feeds policy r includePrerelease before
    let latest := latestVersion feeds policy r includePrerelease before
    (∀ e, result = .error e →
      newer = (.error e, after) ∧ latest = (.error e, after)) ∧
    (result = .ok none → newer = (.ok [], after) ∧ latest = (.ok none, after)) ∧
    ∀ found, result = .ok (some found) →
      (∃ feed, found.feed = feed.name ∧
        IsAnswer feeds r.name feed found.versions) ∧
      (∃ vs, newer = (.ok vs, after) ∧
        ListsNewer r.version? includePrerelease found.versions vs) ∧
      ∃ v?, latest = (.ok v?, after) ∧
        IsLatest r.version? includePrerelease found.versions v? := by
  dsimp only
  rw [latestVersion, newerVersions, hSearch]
  refine ⟨?_, ?_, ?_⟩
  · rintro e rfl
    exact ⟨rfl, rfl⟩
  · rintro rfl
    exact ⟨rfl, rfl⟩
  · rintro found rfl
    have hLists :=
      newerThan_listsNewer r.version? includePrerelease found.versions
    exact ⟨exists_reply_of_versions hSearch, ⟨_, rfl, hLists⟩,
      ⟨_, rfl, hLists.isLatest_getLast?⟩⟩

end

------------------------------------------------------------
-- Repeats
------------------------------------------------------------

/- A feed that answers out of order and with repeats. -/
namespace Repeating

def answered : List PackageVersion :=
  [⟨2, 0, 0, 0, some "rc.1"⟩, ⟨1, 5, 0, 0, none⟩, ⟨1, 0, 0, 0, none⟩,
    ⟨2, 0, 0, 0, some "RC.01"⟩, ⟨1, 5, 0, 0, none⟩]

def feeds : List Feed :=
  [.ofReplies "one" [⟨.ok answered, false⟩]]

theorem newerVersions_of_repeats :
    versions feeds ⟨3, 1000⟩ "Json" (.start feeds) =
        (.ok (some ⟨"one", answered⟩), ⟨[["Json"]], 0, false⟩) ∧
      PackageReference.version? ⟨"Json", "1.*"⟩ = some ⟨1, 0, 0, 0, none⟩ ∧
      ∃ vs, newerVersions feeds ⟨3, 1000⟩ ⟨"Json", "1.*"⟩ true (.start feeds) =
          (.ok vs, ⟨[["Json"]], 0, false⟩) ∧
        ListsNewer (some ⟨1, 0, 0, 0, none⟩) true answered vs := by
  have hSearch : versions feeds ⟨3, 1000⟩ "Json" (.start feeds) =
      (.ok (some ⟨"one", answered⟩), ⟨[["Json"]], 0, false⟩) := by
    decide
  have hVersion : PackageReference.version? ⟨"Json", "1.*"⟩ =
      some ⟨1, 0, 0, 0, none⟩ := by
    decide +kernel
  have hExact := newerVersions_exact ⟨"Json", "1.*"⟩ true hSearch
  rw [← hVersion]
  exact ⟨hSearch, rfl, (hExact.2.2 _ rfl).2.1⟩

end Repeating

end Retarget.Search
