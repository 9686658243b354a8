import Retarget.Component.Identification
import Retarget.Proofs.Project.Reading
import Retarget.Proofs.Sequence

/-
  This file shows that the components of a project depend on
  which identifiers are asked and not on how often or in
  which order: what they find is put together, and if one of
  them fails, then none of them fails with another error.
  Without a lock file a project only gains components when
  it gains references, imports or packages.

  Key definitions include:
    * `ComponentSet.IsOrdered`
    * `Identifier.look`
    * `Project.Extends`

  Key statements include:
    * `Identifier.lookUp?_of_look`
    * `Identifier.contains_of_identifyWith`
    * `Identifier.identifyWith_congr`
    * `Identifier.desktop_of_identifyWith`
    * `Identifier.identify_direct_mono`
    * `Identifier.identify_unordered_additive`
-/

namespace Retarget

------------------------------------------------------------
-- Sets of components
------------------------------------------------------------

namespace ComponentSet

variable {s t : ComponentSet}
variable {cs ds : List Component}
variable {c : Component}

/- The members are listed in the order of all components. -/
def IsOrdered (s : ComponentSet) : Prop :=
  s = ofPredicate s.contains

theorem isOrdered_empty :
    empty.IsOrdered :=
  rfl

theorem isOrdered_union
    (s t : ComponentSet) :
    (s.union t).IsOrdered := by
  have hContains : (s.union t).contains =
      fun c => s.contains c || t.contains c :=
    funext (contains_union s t)
  rw [IsOrdered, hContains]
  rfl

/- Sets with the same members are equal. -/
theorem IsOrdered.eq
    (hs : s.IsOrdered)
    (ht : t.IsOrdered)
    (h : ∀ c, s.contains c = true ↔ t.contains c = true) :
    s = t := by
  have hContains : s.contains = t.contains :=
    funext fun c => Bool.eq_iff_iff.mpr (h c)
  rw [hs, ht, hContains]

theorem contains_ofList :
    (ofList cs).contains c = true ↔ c ∈ cs := by
  rw [ofList, contains_ofPredicate, List.contains_iff_mem]

theorem contains_ofList_mono
    (h : cs ⊆ ds)
    (hc : (ofList cs).contains c = true) :
    (ofList ds).contains c = true :=
  contains_ofList.mpr (h (contains_ofList.mp hc))

end ComponentSet

namespace Identifier

variable {source : ClosureSource}
variable {p q : Project}
variable {cancelled : Bool}
variable {e : PackageError}
variable {i : Identifier}
variable {identifiers others : List Identifier}
variable {found start s : ComponentSet}
variable {cs ds : List Component}
variable {c : Component}

------------------------------------------------------------
-- One identifier
------------------------------------------------------------

/- What one of several identifiers finds, unless the run is stopped. -/
def look
    (source : ClosureSource)
    (p : Project)
    (cancelled : Bool)
    (i : Identifier) : Except PackageError ComponentSet := do
  stopIfCancelled cancelled
  components source p cancelled i

theorem identifyWith_eq
    (identifiers : List Identifier)
    (source : ClosureSource)
    (p : Project)
    (cancelled : Bool) :
    identifyWith identifiers source p cancelled =
      identifiers.foldlM
        (fun found i => do return found.union (← look source p cancelled i))
        .empty := by
  unfold identifyWith look
  cases cancelled <;> rfl

theorem lookUp?_of_cancelled
    (source : ClosureSource)
    (p : Project) :
    source.lookUp? p true = .error .cancelled := by
  cases source <;> rfl

theorem lookUp?_of_isAvailable
    {name : String}
    (hName : requireName "package_name" name = .ok ())
    (h : source.isAvailable p name cancelled = .error e) :
    source.lookUp? p cancelled = .error e := by
  rcases bind_eq_error_iff.mp h with hRefused | ⟨_, -, hAnswer⟩
  · rw [hName] at hRefused
    cases hRefused
  · rcases bind_eq_error_iff.mp hAnswer with hLook | ⟨lock, -, hFound⟩
    · exact hLook
    · cases lock <;> cases hFound

theorem lookUp?_of_anyAvailable
    {names : List String}
    (hNames : ∀ n ∈ names, requireName "package_name" n = .ok ())
    (h : anyAvailable source p cancelled names = .error e) :
    source.lookUp? p cancelled = .error e := by
  induction names with
  | nil => cases h
  | cons n rest ih =>
      rcases List.forall_mem_cons.mp hNames with ⟨hFirst, hRest⟩
      rw [anyAvailable] at h
      rcases bind_eq_error_iff.mp h with hAvailable | ⟨available, -, hMore⟩
      · exact lookUp?_of_isAvailable hFirst hAvailable
      · cases available with
        | true => cases hMore
        | false => exact ih hRest hMore

theorem requireName_of_mem_winUIPackages :
    ∀ n ∈ winUIPackages, requireName "package_name" n = .ok () := by
  decide

/-
  Whatever fails, it is the lock file that cannot be looked
  into: two identifiers never fail with different errors.
-/
theorem lookUp?_of_look
    (h : look source p cancelled i = .error e) :
    source.lookUp? p cancelled = .error e := by
  cases cancelled with
  | true =>
      cases h
      exact lookUp?_of_cancelled source p
  | false =>
      change components source p false i = .error e at h
      cases i with
      | oldStyle => cases h
      | sdkStyle => cases h
      | packages =>
          rcases bind_eq_error_iff.mp h with hPackages | ⟨_, -, hReturn⟩
          · rcases bind_eq_error_iff.mp hPackages with hLook | ⟨lock, -, hList⟩
            · exact hLook
            · cases lock <;> cases hList
          · cases hReturn
      | windows =>
          rw [components, ofWindows] at h
          split at h
          · cases h
          · rcases bind_eq_error_iff.mp h with hAny | ⟨_, -, hReturn⟩
            · exact lookUp?_of_anyAvailable requireName_of_mem_winUIPackages hAny
            · cases hReturn

------------------------------------------------------------
-- Several identifiers
------------------------------------------------------------

/- Sets that are put together list their members in order. -/
theorem isOrdered_of_foldlM
    (hStart : start.IsOrdered)
    (h : identifiers.foldlM
        (fun found i => do return found.union (← look source p cancelled i))
        start = .ok found) :
    found.IsOrdered := by
  induction identifiers generalizing start with
  | nil =>
      cases h
      exact hStart
  | cons i rest ih =>
      rw [List.foldlM_cons] at h
      rcases bind_eq_ok_iff.mp h with ⟨next, hStep, hRest⟩
      rcases bind_eq_ok_iff.mp hStep with ⟨s, -, hReturn⟩
      cases hReturn
      exact ih (ComponentSet.isOrdered_union start s) hRest

/- A run finds what one of its identifiers finds. -/
theorem contains_of_foldlM
    (h : identifiers.foldlM
        (fun found i => do return found.union (← look source p cancelled i))
        start = .ok found) :
    found.contains c = true ↔
      start.contains c = true ∨
        ∃ i ∈ identifiers, ∃ s,
          look source p cancelled i = .ok s ∧ s.contains c = true := by
  induction identifiers generalizing start with
  | nil =>
      cases h
      simp
  | cons i rest ih =>
      rw [List.foldlM_cons] at h
      rcases bind_eq_ok_iff.mp h with ⟨next, hStep, hRest⟩
      rcases bind_eq_ok_iff.mp hStep with ⟨s, hLook, hReturn⟩
      cases hReturn
      rw [ih hRest, ComponentSet.contains_union, Bool.or_eq_true, or_assoc]
      simp [hLook]

theorem contains_of_identifyWith
    (h : identifyWith identifiers source p cancelled = .ok found) :
    found.contains c = true ↔
      ∃ i ∈ identifiers, ∃ s,
        look source p cancelled i = .ok s ∧ s.contains c = true := by
  rw [identifyWith_eq] at h
  have hEmpty : ComponentSet.empty.contains c = false := rfl
  rw [contains_of_foldlM h, hEmpty]
  simp

theorem exists_identifyWith_iff :
    (∃ found, identifyWith identifiers source p cancelled = .ok found) ↔
      ∀ i ∈ identifiers, ∃ s, look source p cancelled i = .ok s := by
  simp only [identifyWith_eq]
  exact exists_foldlM_eq_ok_iff

/- A run fails if the lock file cannot be looked into, and as that does. -/
theorem lookUp?_of_identifyWith
    (h : identifyWith identifiers source p cancelled = .error e) :
    source.lookUp? p cancelled = .error e := by
  rw [identifyWith_eq] at h
  rcases exists_of_foldlM_eq_error h with ⟨i, -, hLook⟩
  exact lookUp?_of_look hLook

/-
  Only the members of a list of identifiers count, and not
  how often or in which order they are in it.
-/
theorem identifyWith_congr
    (h : ∀ i, i ∈ identifiers ↔ i ∈ others) :
    identifyWith identifiers source p cancelled =
      identifyWith others source p cancelled := by
  have hBoth :
      (∃ found, identifyWith identifiers source p cancelled = .ok found) ↔
        ∃ found, identifyWith others source p cancelled = .ok found := by
    simp only [exists_identifyWith_iff, h]
  cases hFirst : identifyWith identifiers source p cancelled with
  | ok found =>
      obtain ⟨found', hSecond⟩ := hBoth.mp ⟨found, hFirst⟩
      have hOrdered := hFirst
      have hOrdered' := hSecond
      rw [identifyWith_eq] at hOrdered hOrdered'
      have hSame : found = found' :=
        (isOrdered_of_foldlM ComponentSet.isOrdered_empty hOrdered).eq
          (isOrdered_of_foldlM ComponentSet.isOrdered_empty hOrdered') fun c => by
            simp only [contains_of_identifyWith hFirst,
              contains_of_identifyWith hSecond, h]
      rw [hSecond, hSame]
  | error e =>
      cases hSecond : identifyWith others source p cancelled with
      | ok found' =>
          obtain ⟨found, hOk⟩ := hBoth.mpr ⟨found', hSecond⟩
          rw [hFirst] at hOk
          cases hOk
      | error e' =>
          have hError := (lookUp?_of_identifyWith hFirst).symm.trans
            (lookUp?_of_identifyWith hSecond)
          rw [Except.error.inj hError]

------------------------------------------------------------
-- Desktop technologies
------------------------------------------------------------

/- One of the two desktop technologies does not come without the desktop. -/
def BringsDesktop (cs : List Component) : Prop :=
  .wpf ∈ cs ∨ .winForms ∈ cs → .windowsDesktop ∈ cs

instance (cs : List Component) : Decidable (BringsDesktop cs) :=
  inferInstanceAs (Decidable
    (.wpf ∈ cs ∨ .winForms ∈ cs → .windowsDesktop ∈ cs))

theorem BringsDesktop.append
    (hc : BringsDesktop cs)
    (hd : BringsDesktop ds) :
    BringsDesktop (cs ++ ds) := by
  simp only [BringsDesktop, List.mem_append] at *
  rintro ((hWpf | hWpf) | (hForms | hForms))
  · exact Or.inl (hc (Or.inl hWpf))
  · exact Or.inr (hd (Or.inl hWpf))
  · exact Or.inl (hc (Or.inr hForms))
  · exact Or.inr (hd (Or.inr hForms))

theorem BringsDesktop.when
    (condition : Bool)
    (h : BringsDesktop cs) :
    BringsDesktop (Identifier.when condition cs) := by
  cases condition with
  | true => exact h
  | false => exact fun hNone => by rcases hNone with hNone | hNone <;> cases hNone

theorem BringsDesktop.contains
    (h : BringsDesktop cs)
    (hDesktop : (ComponentSet.ofList cs).contains .wpf = true ∨
      (ComponentSet.ofList cs).contains .winForms = true) :
    (ComponentSet.ofList cs).contains .windowsDesktop = true := by
  simp only [ComponentSet.contains_ofList] at *
  exact h hDesktop

/- No identifier finds a desktop technology without the desktop. -/
theorem exists_bringsDesktop_of_look
    (h : look source p cancelled i = .ok s) :
    ∃ cs, s = .ofList cs ∧ BringsDesktop cs := by
  have hRule : ∀ (condition : Bool) {cs : List Component},
      BringsDesktop cs → BringsDesktop (Identifier.when condition cs) :=
    fun condition _ h => h.when condition
  rcases bind_eq_ok_iff.mp h with ⟨_, -, hFound⟩
  cases i with
  | oldStyle =>
      rcases bind_eq_ok_iff.mp hFound with ⟨_, -, hReturn⟩
      cases hReturn
      refine ⟨_, rfl, .append (.append (.append (.append (.append ?_ ?_) ?_)
        ?_) ?_) ?_⟩ <;> exact hRule _ (by decide)
  | sdkStyle =>
      rcases bind_eq_ok_iff.mp hFound with ⟨_, -, hReturn⟩
      cases hReturn
      refine ⟨_, rfl, hRule _ (.append (.append (.append (.append ?_ ?_) ?_)
        ?_) ?_)⟩ <;> exact hRule _ (by decide)
  | packages =>
      rcases bind_eq_ok_iff.mp hFound with ⟨ps, -, hReturn⟩
      cases hReturn
      exact ⟨_, rfl, .append (hRule _ (by decide)) (hRule _ (by decide))⟩
  | windows =>
      rw [components, ofWindows] at hFound
      split at hFound
      · cases hFound
        exact ⟨_, rfl, by decide⟩
      · rcases bind_eq_ok_iff.mp hFound with ⟨_, -, hReturn⟩
        cases hReturn
        exact ⟨_, rfl, hRule _ (by decide)⟩

theorem desktop_of_identifyWith
    (h : identifyWith identifiers source p cancelled = .ok found)
    (hDesktop : found.contains .wpf = true ∨ found.contains .winForms = true) :
    found.contains .windowsDesktop = true := by
  have hOne : ∃ i ∈ identifiers, ∃ s, look source p cancelled i = .ok s ∧
      (s.contains .wpf = true ∨ s.contains .winForms = true) := by
    rw [contains_of_identifyWith h, contains_of_identifyWith h] at hDesktop
    rcases hDesktop with ⟨i, hi, s, hLook, hc⟩ | ⟨i, hi, s, hLook, hc⟩
    · exact ⟨i, hi, s, hLook, Or.inl hc⟩
    · exact ⟨i, hi, s, hLook, Or.inr hc⟩
  rcases hOne with ⟨i, hi, s, hLook, hFound⟩
  obtain ⟨cs, rfl, hBrings⟩ := exists_bringsDesktop_of_look hLook
  exact (contains_of_identifyWith h).mpr
    ⟨i, hi, _, hLook, hBrings.contains hFound⟩

end Identifier

------------------------------------------------------------
-- Projects that gain items
------------------------------------------------------------

/-
  A project with all the references, imports and packages of
  another one, with the same SDKs and properties.
-/
structure Project.Extends (p q : Project) : Prop where
  sdks : q.sdks = p.sdks
  properties : q.properties = p.properties
  imports : p.imports ⊆ q.imports
  references : p.references ⊆ q.references
  frameworkReferences : p.frameworkReferences ⊆ q.frameworkReferences
  packages : p.packages ⊆ q.packages

namespace Identifier

variable {p q : Project}
variable {cs ds : List Component}
variable {i : Identifier}
variable {c : Component}

theorem any_mono
    {α : Type}
    {as bs : List α}
    {f : α → Bool}
    (h : as ⊆ bs)
    (hAny : as.any f = true) :
    bs.any f = true := by
  rcases List.any_eq_true.mp hAny with ⟨a, ha, hf⟩
  exact List.any_eq_true.mpr ⟨a, h ha, hf⟩

theorem when_mono
    {a b : Bool}
    (h : a = true → b = true)
    (hRule : cs ⊆ ds) :
    when a cs ⊆ when b ds := by
  cases a with
  | false => exact List.nil_subset _
  | true =>
      rw [h rfl]
      exact hRule

theorem when_of_imp
    {a b : Bool}
    (h : a = true → b = true) :
    when a cs ⊆ when b cs :=
  when_mono h (List.Subset.refl cs)

theorem append_mono
    {cs' ds' : List Component}
    (h : cs ⊆ ds)
    (hMore : cs' ⊆ ds') :
    cs ++ cs' ⊆ ds ++ ds' :=
  List.append_subset.mpr
    ⟨List.subset_append_of_subset_left ds' h,
     List.subset_append_of_subset_right ds hMore⟩

theorem or_mono
    {a b : Bool}
    (condition : Bool)
    (h : a = true → b = true)
    (hOr : (condition || a) = true) :
    (condition || b) = true :=
  Bool.or_eq_true_iff.mpr ((Bool.or_eq_true_iff.mp hOr).imp_right h)

theorem usesFramework_mono
    (h : p.Extends q)
    (name : String)
    (hUses : usesFramework p name = true) :
    usesFramework q name = true :=
  any_mono h.frameworkReferences hUses

theorem ofReferences_mono
    (h : p.Extends q)
    (hc : (ofReferences p).contains c = true) :
    (ofReferences q).contains c = true := by
  have hAny : ∀ names, refersToAny p names = true →
      refersToAny q names = true :=
    fun _ => any_mono h.references
  have hBelow : ∀ base, refersBelow p base = true →
      refersBelow q base = true :=
    fun _ => any_mono h.references
  have hWeb : (importsWebTargets p || refersBelow p "System.Web") = true →
      (importsWebTargets q || refersBelow q "System.Web") = true := by
    simp only [Bool.or_eq_true]
    exact Or.imp (any_mono h.imports) (hBelow _)
  refine ComponentSet.contains_ofList_mono ?_ hc
  refine append_mono (append_mono (append_mono (append_mono
    (append_mono ?_ ?_) ?_) ?_) ?_) ?_
  · exact when_of_imp hWeb
  · exact when_of_imp (hAny _)
  · exact when_of_imp (hAny _)
  · exact when_of_imp (hBelow _)
  · exact when_of_imp (hAny _)
  · exact when_of_imp (hAny _)

theorem isSdk_eq_of_extends
    (hp : p.NamesSdks)
    (hq : q.NamesSdks)
    (h : p.Extends q) :
    q.isSdk = p.isSdk := by
  rw [hp, hq, h.sdks]

theorem ofSdk_mono
    (hSdk : q.isSdk = p.isSdk)
    (h : p.Extends q)
    (hc : (ofSdk p).contains c = true) :
    (ofSdk q).contains c = true := by
  have hNames : ∀ name, q.hasSdk name = p.hasSdk name := fun name => by
    rw [Project.hasSdk, Project.hasSdk, h.sdks]
  refine ComponentSet.contains_ofList_mono ?_ hc
  simp only [hSdk, hNames, h.properties]
  refine when_mono id ?_
  refine append_mono (append_mono (append_mono (append_mono
    ?_ ?_) ?_) ?_) (List.Subset.refl _)
  all_goals exact when_of_imp (or_mono _ (usesFramework_mono h _))

theorem ofPackages_mono
    {ps qs : List PackageReference}
    (h : ps ⊆ qs)
    (hc : (ofPackages ps).contains c = true) :
    (ofPackages qs).contains c = true :=
  ComponentSet.contains_ofList_mono
    (append_mono (when_of_imp (any_mono h)) (when_of_imp (any_mono h)))
    hc

/- Without a lock file the packages of the project are looked through. -/
theorem anyAvailable_direct
    {names : List String}
    (hNames : ∀ n ∈ names, requireName "package_name" n = .ok ()) :
    anyAvailable .direct p false names =
      .ok (names.any fun n => p.packages.any fun r => r.isNamed n) := by
  induction names with
  | nil => rfl
  | cons n rest ih =>
      rcases List.forall_mem_cons.mp hNames with ⟨hFirst, hRest⟩
      have hAvailable : ClosureSource.isAvailable .direct p n false =
          .ok (p.packages.any fun r => r.isNamed n) := by
        rw [ClosureSource.isAvailable, hFirst]
        rfl
      rw [anyAvailable, hAvailable, List.any_cons]
      cases p.packages.any fun r => r.isNamed n with
      | true => rfl
      | false => exact ih hRest

/- What an identifier finds in a project file alone. -/
def inProjectFile (p : Project) : Identifier → ComponentSet
  | oldStyle => ofReferences p
  | sdkStyle => ofSdk p
  | packages => ofPackages p.packages
  | windows =>
    .ofList <| when
      (p.properties.isTrue "UseWinUI" ||
        winUIPackages.any fun n => p.packages.any fun r => r.isNamed n)
      [.winUI]

theorem look_direct
    (p : Project)
    (i : Identifier) :
    look .direct p false i = .ok (inProjectFile p i) := by
  change components .direct p false i = _
  cases i with
  | oldStyle => rfl
  | sdkStyle => rfl
  | packages => rfl
  | windows =>
      rw [components, ofWindows, inProjectFile,
        anyAvailable_direct requireName_of_mem_winUIPackages]
      cases p.properties.isTrue "UseWinUI" <;> rfl

theorem inProjectFile_mono
    (hSdk : q.isSdk = p.isSdk)
    (h : p.Extends q)
    (hc : (inProjectFile p i).contains c = true) :
    (inProjectFile q i).contains c = true := by
  cases i with
  | oldStyle => exact ofReferences_mono h hc
  | sdkStyle => exact ofSdk_mono hSdk h hc
  | packages => exact ofPackages_mono h.packages hc
  | windows =>
      refine ComponentSet.contains_ofList_mono (when_of_imp ?_) hc
      rw [h.properties]
      refine or_mono _ fun hAny => ?_
      rcases List.any_eq_true.mp hAny with ⟨n, hn, hNamed⟩
      exact List.any_eq_true.mpr ⟨n, hn, any_mono h.packages hNamed⟩

theorem exists_identify_direct
    (p : Project) :
    ∃ found, identify .direct p false = .ok found :=
  exists_identifyWith_iff.mpr fun i _ => ⟨_, look_direct p i⟩

/- A project without a lock file keeps its components as it grows. -/
theorem identify_direct_mono
    {found more : ComponentSet}
    (hSdk : q.isSdk = p.isSdk)
    (h : p.Extends q)
    (hFound : identify .direct p false = .ok found)
    (hMore : identify .direct q false = .ok more)
    (hc : found.contains c = true) :
    more.contains c = true := by
  rcases (contains_of_identifyWith hFound).mp hc with ⟨i, hi, s, hLook, hs⟩
  rw [look_direct] at hLook
  cases hLook
  exact (contains_of_identifyWith hMore).mpr
    ⟨i, hi, _, look_direct q i, inProjectFile_mono hSdk h hs⟩

------------------------------------------------------------
-- Together
------------------------------------------------------------

theorem mem_all
    (i : Identifier) :
    i ∈ all := by
  cases i <;> decide

theorem identifyWith_eq_identify
    {source : ClosureSource}
    {cancelled : Bool}
    {identifiers : List Identifier}
    (h : all ⊆ identifiers) :
    identifyWith identifiers source p cancelled =
      identify source p cancelled :=
  identifyWith_congr fun i => iff_of_true (h (mem_all i)) (mem_all i)

/-
  The components of a project are the same in whatever order
  and however often all identifiers are asked.  The desktop
  technologies come with the desktop, and a project without a
  lock file only gains components by gaining items.
-/
theorem identify_unordered_additive
    (p : Project)
    (cancelled : Bool) :
    (∀ source identifiers, all ⊆ identifiers →
      identifyWith identifiers source p cancelled =
        identify source p cancelled) ∧
    (∀ source identifiers found,
      identifyWith identifiers source p cancelled = .ok found →
      found.contains .wpf = true ∨ found.contains .winForms = true →
      found.contains .windowsDesktop = true) ∧
    (∀ q, p.NamesSdks → q.NamesSdks → p.Extends q →
      ∃ found more,
        identify .direct p false = .ok found ∧
        identify .direct q false = .ok more ∧
        ∀ c, found.contains c = true → more.contains c = true) ∧
    (∀ files path,
      Project.load files path = .ok p → p.NamesSdks) ∧
    ∀ path text,
      Project.parse path text = .ok p → p.NamesSdks := by
  refine ⟨fun _ _ hAll => identifyWith_eq_identify hAll,
    fun _ _ _ hFound hDesktop => desktop_of_identifyWith hFound hDesktop,
    fun q hp hq hExtends => ?_,
    fun _ _ hLoad => Project.namesSdks_of_load hLoad,
    fun _ _ hParse => Project.namesSdks_of_parse hParse⟩
  obtain ⟨found, hFound⟩ := exists_identify_direct p
  obtain ⟨more, hMore⟩ := exists_identify_direct q
  have hSdk : q.isSdk = p.isSdk := isSdk_eq_of_extends hp hq hExtends
  exact ⟨found, more, hFound, hMore, fun _ hc =>
    identify_direct_mono hSdk hExtends hFound hMore hc⟩

def desktopProject : Project :=
  { Project.empty ⟨"/src/App/App.csproj"⟩ with
    sdks := ["Microsoft.NET.Sdk"]
    frameworkReferences := [⟨"Microsoft.WindowsDesktop.App.WPF"⟩]
    isSdk := true }

def grownProject : Project :=
  { desktopProject with
    references := [⟨"System.Web.Mvc", none⟩]
    packages := [⟨"Microsoft.WindowsAppSDK", "1.4.0"⟩] }

theorem identify_unordered_additive_of_grown :
    identifyWith [windows, sdkStyle, windows, packages, oldStyle] .direct
        desktopProject false =
      identify .direct desktopProject false ∧
    (identify .direct desktopProject false =
        .ok (.ofList [.wpf, .windowsDesktop]) ∧
      (ComponentSet.ofList [.wpf, .windowsDesktop]).contains
        .windowsDesktop = true) ∧
    ∃ found more,
      identify .direct desktopProject false = .ok found ∧
      identify .direct grownProject false = .ok more ∧
      ∀ c, found.contains c = true → more.contains c = true := by
  obtain ⟨hOrder, hDesktop, hGrown, -, -⟩ :=
    identify_unordered_additive desktopProject false
  have hFound : identify .direct desktopProject false =
      .ok (.ofList [.wpf, .windowsDesktop]) := by
    decide +kernel
  have hExtends : desktopProject.Extends grownProject := {
    sdks := rfl
    properties := rfl
    imports := List.Subset.refl _
    references := List.nil_subset _
    frameworkReferences := List.Subset.refl _
    packages := List.nil_subset _ }
  exact ⟨hOrder _ _ (by decide),
    ⟨hFound, hDesktop _ _ _ hFound (Or.inl (by decide))⟩,
    hGrown grownProject rfl rfl hExtends⟩

end Identifier

end Retarget
