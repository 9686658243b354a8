import Mathlib.Data.List.Perm.Basic
import Mathlib.Data.Option.Basic
import Retarget.Symbol.Resolution
import Retarget.Rule.NameMatch
import Retarget.Proofs.Symbol.Table

/-
  This file shows that names stand for the same symbols in
  two tables of the same names.  The tables may keep them in
  different orders, and may disagree about what is a type
  and what is a namespace.

  Key definitions include:
    * `Symbol.Alike`
    * `SymbolTable.Alike`
    * `Resolution.Agrees`

  Key statements include:
    * `NameMatcher.matchesSymbol_congr`
    * `SymbolTable.alike_of_extends`
    * `SemanticModel.resolve_agrees`
-/

namespace Retarget

------------------------------------------------------------
-- Symbols
------------------------------------------------------------

/- Symbols of one name, which no rule tells apart. -/
structure Symbol.Alike (s t : Symbol) : Prop where
  path_eq : s.path = t.path
  isMember_eq : s.isMember = t.isMember
  eq_of_isMember : s.isMember = true → s = t

namespace Symbol.Alike

variable {s t : Symbol}

theorem refl
    (s : Symbol) :
    s.Alike s :=
  ⟨rfl, rfl, fun _ => rfl⟩

theorem fullName_eq
    (h : s.Alike t) :
    s.fullName = t.fullName := by
  rw [fullName, fullName, h.path_eq]

end Symbol.Alike

namespace NameMatcher

variable {s t : Symbol}

theorem matchesParts_congr
    (parts : List String)
    (h : s.path = t.path) :
    matchesParts parts s = matchesParts parts t := by
  induction parts generalizing s t with
  | nil => cases s <;> cases t <;> first | rfl | cases h
  | cons part rest ih =>
      cases s with
      | global =>
          cases t with
          | global => rfl
          | declared name kind container => cases h
      | declared name kind container =>
          cases t with
          | global => cases h
          | declared other otherKind outer =>
              rcases List.cons.inj h with ⟨rfl, hOuter⟩
              rw [matchesParts, matchesParts, ih hOuter]

theorem matchesSymbol_congr
    (m : NameMatcher)
    (h : s.Alike t) :
    m.matchesSymbol s = m.matchesSymbol t := by
  cases hMember : s.isMember with
  | true => rw [h.eq_of_isMember hMember]
  | false =>
      have hOther : t.isMember = false := h.isMember_eq ▸ hMember
      rw [matchesSymbol, matchesSymbol, matchesType, matchesType,
        matchesParts_congr m.reversedParts h.path_eq, hMember, hOther]
      rfl

end NameMatcher

------------------------------------------------------------
-- Tables
------------------------------------------------------------

/- Tables of the same names, whose symbols are alike. -/
structure SymbolTable.Alike (table other : SymbolTable) : Prop where
  isSound : table.IsSound
  otherIsSound : other.IsSound
  names_perm : table.names.Perm other.names
  alike :
    ∀ n s t, (n, s) ∈ table.entries → (n, t) ∈ other.entries → s.Alike t

/- What two tables give under some name. -/
structure SameSymbols
    (table other : SymbolTable)
    (found others : List Symbol) : Prop where
  subset : ∀ s ∈ found, (s.fullName, s) ∈ table.entries
  otherSubset : ∀ s ∈ others, (s.fullName, s) ∈ other.entries
  names_perm :
    (found.map Symbol.fullName).Perm (others.map Symbol.fullName)

namespace SymbolTable

variable {table other base : SymbolTable}

/- Tables of the same names that extend one table are alike. -/
theorem alike_of_extends
    (hTable : table.IsSound)
    (hOther : other.IsSound)
    (hBase : table.Extends base)
    (hOtherBase : other.Extends base)
    (hNames : ∀ n, n ∈ table.names ↔ n ∈ other.names) :
    table.Alike other where
  isSound := hTable
  otherIsSound := hOther
  names_perm :=
    (List.perm_ext_iff_of_nodup hTable.nodup hOther.nodup).mpr hNames
  alike n s t hs ht := by
    rcases hBase with ⟨more, hEntries, hKinds⟩
    rcases hOtherBase with ⟨others, hOtherEntries, hOtherKinds⟩
    by_cases hKnown : n ∈ base.names
    · rcases List.mem_map.mp hKnown with ⟨⟨n, u⟩, hu, rfl⟩
      obtain rfl := hTable.eq_of_mem hs
        (hEntries ▸ List.mem_append_left more hu)
      obtain rfl := hOther.eq_of_mem ht
        (hOtherEntries ▸ List.mem_append_left others hu)
      exact Symbol.Alike.refl _
    · have hNew : ∀ u, (n, u) ∉ base.entries := fun u hu =>
        hKnown (List.mem_map_of_mem hu)
      have hsKind : s.isMember = false := by
        rw [hEntries] at hs
        exact hKinds _ ((List.mem_append.mp hs).resolve_left (hNew s))
      have htKind : t.isMember = false := by
        rw [hOtherEntries] at ht
        exact hOtherKinds _ ((List.mem_append.mp ht).resolve_left (hNew t))
      refine ⟨?_, hsKind.trans htKind.symm, ?_⟩
      · refine Symbol.path_eq_of_fullName_eq
          (hTable.isNamed (hTable.knows_of_mem hs))
          (hOther.isNamed (hOther.knows_of_mem ht))
          (hTable.ne_global hs) (hOther.ne_global ht) ?_
        rw [hTable.fullName_eq hs, hOther.fullName_eq ht]
      · rw [hsKind]
        exact fun hMember => Bool.noConfusion hMember

theorem mem_entries_of_mem_lookup
    {n : String}
    {s : Symbol}
    {language : Language}
    (hTable : table.IsConsistent)
    (h : s ∈ table.lookup n language) :
    (s.fullName, s) ∈ table.entries := by
  have hEntry : ∃ key, (key, s) ∈ table.entries := by
    cases language with
    | cSharp => exact ⟨n, mem_entries_of_find? (Option.mem_toList.mp h)⟩
    | visualBasic =>
        rw [hTable.lookup_visualBasic] at h
        rcases List.mem_map.mp h with ⟨⟨key, s⟩, he, rfl⟩
        exact ⟨key, (List.mem_filter.mp he).1⟩
  rcases hEntry with ⟨key, hKey⟩
  rwa [hTable.fullName_eq hKey]

theorem fullNames_lookup_cSharp
    (hSound : table.IsSound)
    (n : String) :
    (table.lookup n .cSharp).map Symbol.fullName =
      if n ∈ table.names then [n] else [] := by
  rw [lookup]
  cases hFind : table.find? n with
  | none =>
      rw [if_neg (find?_eq_none_iff.mp hFind)]
      rfl
  | some s =>
      have hMem := mem_entries_of_find? hFind
      have hName : n ∈ table.names := List.mem_map_of_mem hMem
      rw [if_pos hName, Option.toList_some, List.map_singleton,
        hSound.fullName_eq hMem]

theorem fullNames_lookup_visualBasic
    (hSound : table.IsSound)
    (n : String) :
    (table.lookup n .visualBasic).map Symbol.fullName =
      table.names.filter fun key => Text.equalsIgnoringCase key n := by
  rw [hSound.lookup_visualBasic, names, List.filter_map, List.map_map]
  refine List.map_congr_left fun e he => ?_
  exact hSound.fullName_eq (List.mem_filter.mp he).1

namespace Alike

theorem lookup_same
    (h : table.Alike other)
    (n : String)
    (language : Language) :
    SameSymbols table other (table.lookup n language)
      (other.lookup n language) where
  subset _ hs := mem_entries_of_mem_lookup h.isSound.toIsConsistent hs
  otherSubset _ ht :=
    mem_entries_of_mem_lookup h.otherIsSound.toIsConsistent ht
  names_perm := by
    cases language with
    | cSharp =>
        rw [fullNames_lookup_cSharp h.isSound,
          fullNames_lookup_cSharp h.otherIsSound]
        simp only [h.names_perm.mem_iff]
        exact List.Perm.refl _
    | visualBasic =>
        rw [fullNames_lookup_visualBasic h.isSound,
          fullNames_lookup_visualBasic h.otherIsSound]
        exact h.names_perm.filter _

end Alike

end SymbolTable

------------------------------------------------------------
-- Found symbols
------------------------------------------------------------

/- The symbol of a name that stands for one known symbol. -/
def Resolution.known? : Resolution → Option Symbol
  | .resolved s => some s
  | _ => none

/- Resolutions that know alike symbols, or none. -/
def Resolution.Agrees (r other : Resolution) : Prop :=
  Option.Rel Symbol.Alike r.known? other.known?

namespace SameSymbols

variable {table other : SymbolTable}
variable {found others : List Symbol}

theorem isEmpty_eq
    (h : SameSymbols table other found others) :
    found.isEmpty = others.isEmpty := by
  simpa using h.names_perm.isEmpty_eq

theorem exists_eq_singleton
    {s : Symbol}
    (hAlike : table.Alike other)
    (h : SameSymbols table other [s] others) :
    ∃ t, others = [t] ∧ s.Alike t := by
  have hNames := List.perm_singleton.mp h.names_perm.symm
  rcases List.map_eq_singleton_iff.mp hNames with ⟨t, rfl, hName⟩
  refine ⟨t, rfl, ?_⟩
  have ht := h.otherSubset t (List.mem_singleton_self t)
  rw [hName] at ht
  exact hAlike.alike _ s t (h.subset s (List.mem_singleton_self s)) ht

theorem flatMap
    {α : Type}
    {xs : List α}
    {f g : α → List Symbol}
    (h : ∀ x ∈ xs, SameSymbols table other (f x) (g x)) :
    SameSymbols table other (xs.flatMap f) (xs.flatMap g) where
  subset s hs := by
    rcases List.mem_flatMap.mp hs with ⟨x, hx, hFound⟩
    exact (h x hx).subset s hFound
  otherSubset s hs := by
    rcases List.mem_flatMap.mp hs with ⟨x, hx, hFound⟩
    exact (h x hx).otherSubset s hFound
  names_perm := by
    rw [List.map_flatMap, List.map_flatMap]
    exact List.Perm.flatMap_left xs fun x hx => (h x hx).names_perm

end SameSymbols

namespace SemanticModel

variable {table other : SymbolTable}
variable {found others : List Symbol}

/- Keep a symbol unless one of its name is kept. -/
def keepNew (kept : List Symbol) (s : Symbol) : List Symbol :=
  if kept.any fun k => k.fullName == s.fullName then kept
  else kept ++ [s]

section Keep

variable {kept : List Symbol}

theorem keepNew_cases
    (kept : List Symbol)
    (s : Symbol) :
    (s.fullName ∈ kept.map Symbol.fullName ∧ keepNew kept s = kept) ∨
      (s.fullName ∉ kept.map Symbol.fullName ∧
        keepNew kept s = kept ++ [s]) := by
  have hIff : (kept.any fun k => k.fullName == s.fullName) = true ↔
      s.fullName ∈ kept.map Symbol.fullName := by
    simp
  by_cases hKnown : s.fullName ∈ kept.map Symbol.fullName
  · exact Or.inl ⟨hKnown, if_pos (hIff.mpr hKnown)⟩
  · exact Or.inr ⟨hKnown, if_neg fun hAny => hKnown (hIff.mp hAny)⟩

theorem mem_or_eq_of_mem_keepNew
    {s t : Symbol}
    (h : t ∈ keepNew kept s) :
    t ∈ kept ∨ t = s := by
  rcases keepNew_cases kept s with ⟨-, hKeep⟩ | ⟨-, hKeep⟩
  · exact Or.inl (hKeep ▸ h)
  · rw [hKeep] at h
    exact (List.mem_append.mp h).imp id List.mem_singleton.mp

theorem keepNew_nodup
    (h : (kept.map Symbol.fullName).Nodup)
    (s : Symbol) :
    ((keepNew kept s).map Symbol.fullName).Nodup := by
  rcases keepNew_cases kept s with ⟨-, hKeep⟩ | ⟨hNew, hKeep⟩
  · rwa [hKeep]
  · rw [hKeep, List.map_append]
    exact List.nodup_append_comm.mp (List.nodup_cons.mpr ⟨hNew, h⟩)

theorem mem_fullNames_keepNew
    {n : String}
    {s : Symbol} :
    n ∈ (keepNew kept s).map Symbol.fullName ↔
      n ∈ kept.map Symbol.fullName ∨ n = s.fullName := by
  rcases keepNew_cases kept s with ⟨hKnown, hKeep⟩ | ⟨-, hKeep⟩
  · rw [hKeep]
    refine ⟨Or.inl, fun h => h.elim id ?_⟩
    rintro rfl
    exact hKnown
  · rw [hKeep, List.map_append, List.mem_append, List.map_singleton,
      List.mem_singleton]

theorem mem_fullNames_foldl_keepNew
    {n : String}
    (found kept : List Symbol) :
    n ∈ (found.foldl keepNew kept).map Symbol.fullName ↔
      n ∈ kept.map Symbol.fullName ∨ n ∈ found.map Symbol.fullName := by
  induction found generalizing kept with
  | nil => simp
  | cons s rest ih =>
      rw [List.foldl_cons, ih, mem_fullNames_keepNew, List.map_cons,
        List.mem_cons, or_assoc]

theorem mem_of_mem_foldl_keepNew
    {s : Symbol}
    (found : List Symbol)
    (h : s ∈ found.foldl keepNew []) :
    s ∈ found := by
  refine List.foldlRecOn (motive := fun kept : List Symbol =>
    ∀ t ∈ kept, t ∈ found) found keepNew (by simp) ?_ s h
  intro kept hKept t ht u hu
  rcases mem_or_eq_of_mem_keepNew hu with hOld | rfl
  · exact hKept u hOld
  · exact ht

theorem foldl_keepNew_nodup
    (found : List Symbol) :
    ((found.foldl keepNew []).map Symbol.fullName).Nodup :=
  List.foldlRecOn (motive := fun kept : List Symbol =>
    (kept.map Symbol.fullName).Nodup) found keepNew List.nodup_nil
    fun _ hKept s _ => keepNew_nodup hKept s

end Keep

theorem importedSymbols_same
    (h : table.Alike other)
    (tree : SourceTree)
    (written : String) :
    SameSymbols table other (importedSymbols ⟨tree, table⟩ written)
      (importedSymbols ⟨tree, other⟩ written) := by
  let found := fun t : SymbolTable => tree.imports.flatMap fun i =>
    t.lookup (i ++ "." ++ written) tree.language
  have hFound : SameSymbols table other (found table) (found other) :=
    SameSymbols.flatMap fun i _ => h.lookup_same _ _
  refine ⟨fun s hs => hFound.subset s (mem_of_mem_foldl_keepNew _ hs),
    fun s hs => hFound.otherSubset s (mem_of_mem_foldl_keepNew _ hs),
    (List.perm_ext_iff_of_nodup (foldl_keepNew_nodup (found table))
      (foldl_keepNew_nodup (found other))).mpr fun n => ?_⟩
  rw [mem_fullNames_foldl_keepNew, mem_fullNames_foldl_keepNew,
    hFound.names_perm.mem_iff]

/- The symbols of the first of some names that has any. -/
def firstFound
    (t : SymbolTable)
    (language : Language)
    (ns : List String) : Option (List Symbol) :=
  ns.findSome? fun n =>
    match t.lookup n language with
    | [] => none
    | found => some found

theorem firstFound_same
    (h : table.Alike other)
    (language : Language)
    (ns : List String) :
    Option.Rel (SameSymbols table other) (firstFound table language ns)
      (firstFound other language ns) := by
  induction ns with
  | nil => exact Option.Rel.none
  | cons n rest ih =>
      have hNow := h.lookup_same n language
      have hEmpty := hNow.isEmpty_eq
      rw [firstFound, firstFound, List.findSome?_cons, List.findSome?_cons]
      cases hFound : table.lookup n language with
      | nil =>
          rw [hFound] at hEmpty
          rw [List.isEmpty_iff.mp hEmpty.symm]
          exact ih
      | cons s ss =>
          cases hOthers : other.lookup n language with
          | nil =>
              rw [hFound, hOthers] at hEmpty
              cases hEmpty
          | cons t ts =>
              rw [hFound, hOthers] at hNow
              exact Option.Rel.some hNow

theorem bind_eq
    (model : SemanticModel)
    (qualifier : Option String)
    (name : String)
    (offset : Nat) :
    model.bind qualifier name offset =
      (firstFound model.table model.tree.language
        (model.scopedNames (written qualifier name) offset)).getD
          (model.importedSymbols (written qualifier name)) := by
  let found? := firstFound model.table model.tree.language
    (model.scopedNames (written qualifier name) offset)
  unfold bind
  dsimp only
  split
  · next found hFound =>
      have hSome : found? = some found := hFound
      exact (congrArg (Option.getD · _) hSome).symm
  · next hFound =>
      have hNone : found? = none := hFound
      exact (congrArg (Option.getD · _) hNone).symm

theorem bind_same
    (h : table.Alike other)
    (tree : SourceTree)
    (qualifier : Option String)
    (name : String)
    (offset : Nat) :
    SameSymbols table other (bind ⟨tree, table⟩ qualifier name offset)
      (bind ⟨tree, other⟩ qualifier name offset) := by
  let ns := scopedNames ⟨tree, table⟩ (written qualifier name) offset
  have hFirst := firstFound_same h tree.language ns
  rw [bind_eq, bind_eq]
  change SameSymbols table other
    ((firstFound table tree.language ns).getD _)
    ((firstFound other tree.language ns).getD _)
  generalize firstFound table tree.language ns = first at hFirst ⊢
  generalize firstFound other tree.language ns = otherFirst at hFirst ⊢
  cases hFirst with
  | none => exact importedSymbols_same h tree _
  | some hFound => exact hFound

------------------------------------------------------------
-- Resolving
------------------------------------------------------------

/- The one symbol that was found. -/
def only? : List Symbol → Option Symbol
  | [s] => some s
  | _ => none

theorem only?_rel
    (h : table.Alike other)
    (hFound : SameSymbols table other found others) :
    Option.Rel Symbol.Alike (only? found) (only? others) := by
  have hLength := hFound.names_perm.length_eq
  rw [List.length_map, List.length_map] at hLength
  match found, others, hLength with
  | [], [], _ => exact Option.Rel.none
  | [s], [t], _ =>
      rcases hFound.exists_eq_singleton h with ⟨t', hOthers, hAlike⟩
      cases hOthers
      exact Option.Rel.some hAlike
  | _ :: _ :: _, _ :: _ :: _, _ => exact Option.Rel.none

theorem known?_unique
    (found : List Symbol)
    (name : String) :
    (unique found name).known? = only? found := by
  match found with
  | [] => rfl
  | [_] => rfl
  | _ :: _ :: _ => rfl

theorem unique_ne_unresolved
    (found : List Symbol)
    (name : String) :
    unique found name ≠ .unresolved := by
  match found with
  | [] => exact Resolution.noConfusion
  | [_] => exact Resolution.noConfusion
  | _ :: _ :: _ => exact Resolution.noConfusion

theorem unique_agrees
    (h : table.Alike other)
    (hFound : SameSymbols table other found others)
    (name : String) :
    (unique found name).Agrees (unique others name) := by
  rw [Resolution.Agrees, known?_unique, known?_unique]
  exact only?_rel h hFound

theorem resolveType_agrees
    (h : table.Alike other)
    (tree : SourceTree)
    (node : NameNode) :
    let r := resolveType ⟨tree, table⟩ node
    let other := resolveType ⟨tree, other⟩ node
    r.Agrees other ∧ (r = .unresolved ↔ other = .unresolved) := by
  have hFound := bind_same h tree node.qualifier node.simpleName node.span.start
  intro r other
  simp only [r, other, resolveType]
  rw [hFound.isEmpty_eq]
  split
  · exact ⟨Option.Rel.none, Iff.rfl⟩
  · exact ⟨unique_agrees h hFound _,
      iff_of_false (unique_ne_unresolved _ _) (unique_ne_unresolved _ _)⟩

/- A qualifier as the name of a receiver and what stands before it. -/
def receiverName (qualifier : String) : Option String × String :=
  match Text.splitLast '.' qualifier with
  | some (outer, name) => (some outer, name)
  | none => (none, qualifier)

theorem written_receiverName
    (qualifier : String) :
    written (receiverName qualifier).1 (receiverName qualifier).2 =
      qualifier := by
  rw [receiverName]
  cases hSplit : Text.splitLast '.' qualifier with
  | none => rfl
  | some pieces => exact (Text.splitLast_eq_some_iff.mp hSplit).1.symm

theorem resolveMember_eq
    (model : SemanticModel)
    {node : NameNode}
    {qualifier : String}
    (hQualifier : node.qualifier = some qualifier) :
    model.resolveMember node =
      match model.bind (receiverName qualifier).1 (receiverName qualifier).2
        node.span.start with
      | [receiver] =>
        let found := model.lookup (receiver.fullName ++ "." ++ node.simpleName)
        match receiver.kind with
        | .nameSpace => unique found node.qualifiedName
        | .type =>
          match found with
          | [member] => .resolved member
          | _ => .unresolved
        | _ => .unresolved
      | _ => .unresolved := by
  rw [resolveMember, hQualifier]
  rfl

/- A namespace and a type give the same member of one name. -/
theorem known?_resolveMember
    (model : SemanticModel)
    {node : NameNode}
    {qualifier : String}
    (hQualifier : node.qualifier = some qualifier) :
    (model.resolveMember node).known? =
      (only? (model.bind (receiverName qualifier).1 (receiverName qualifier).2
        node.span.start)).bind fun receiver =>
          if receiver.isMember then none
          else only?
            (model.lookup (receiver.fullName ++ "." ++ node.simpleName)) := by
  rw [resolveMember_eq model hQualifier]
  cases model.bind (receiverName qualifier).1 (receiverName qualifier).2
    node.span.start with
  | nil => rfl
  | cons receiver others =>
      cases others with
      | cons _ _ => rfl
      | nil =>
          change _ = if receiver.isMember then none else only? _
          rw [Symbol.isMember]
          dsimp only
          cases receiver.kind with
          | nameSpace => exact known?_unique _ _
          | type =>
              cases model.lookup
                  (receiver.fullName ++ "." ++ node.simpleName) with
              | nil => rfl
              | cons _ rest => cases rest <;> rfl
          | _ => rfl

theorem resolveMember_agrees
    (h : table.Alike other)
    (tree : SourceTree)
    (node : NameNode) :
    (resolveMember ⟨tree, table⟩ node).Agrees
      (resolveMember ⟨tree, other⟩ node) := by
  cases hQualifier : node.qualifier with
  | none =>
      rw [resolveMember, resolveMember, hQualifier]
      exact Option.Rel.none
  | some qualifier =>
      rw [Resolution.Agrees, known?_resolveMember _ hQualifier,
        known?_resolveMember _ hQualifier]
      have hReceiver := only?_rel h (bind_same h tree
        (receiverName qualifier).1 (receiverName qualifier).2 node.span.start)
      generalize only? (bind ⟨tree, table⟩ _ _ _) = receiver at hReceiver ⊢
      generalize only? (bind ⟨tree, other⟩ _ _ _) = another at hReceiver ⊢
      cases hReceiver with
      | none => exact Option.Rel.none
      | some hAlike =>
          rw [Option.bind_some, Option.bind_some, hAlike.isMember_eq,
            hAlike.fullName_eq]
          split
          · exact Option.Rel.none
          · exact only?_rel h (h.lookup_same _ _)

/-
  A name stands for alike symbols.  It is open for both or
  for none, unless it is a member of what stands before it.
-/
theorem resolve_agrees
    (h : table.Alike other)
    (tree : SourceTree)
    (node : NameNode) :
    let r := resolve ⟨tree, table⟩ node
    let other := resolve ⟨tree, other⟩ node
    r.Agrees other ∧
      (node.isMemberAccess = false → (r = .unresolved ↔ other = .unresolved)) := by
  have hType := resolveType_agrees h tree node
  have hUnique : ∀ {found others : List Symbol},
      SameSymbols table other found others →
      let r := unique found node.qualifiedName
      let other := unique others node.qualifiedName
      r.Agrees other ∧ (r = .unresolved ↔ other = .unresolved) :=
    fun hFound => ⟨unique_agrees h hFound _,
      iff_of_false (unique_ne_unresolved _ _) (unique_ne_unresolved _ _)⟩
  intro r other
  simp only [r, other, resolve]
  match hContext : node.context with
  | .memberAccess =>
      refine ⟨resolveMember_agrees h tree node, fun hOther => ?_⟩
      rw [NameNode.isMemberAccess, hContext] at hOther
      cases hOther
  | .imported =>
      exact (hUnique (h.lookup_same _ _)).imp id fun hIff _ => hIff
  | .attribute =>
      have hSuffixed := bind_same h tree node.qualifier
        (node.simpleName ++ "Attribute") node.span.start
      dsimp only
      rw [hSuffixed.isEmpty_eq]
      split
      · exact hType.imp id fun hIff _ => hIff
      · exact (hUnique hSuffixed).imp id fun hIff _ => hIff
  | .simple => exact hType.imp id fun hIff _ => hIff
  | .qualified => exact hType.imp id fun hIff _ => hIff

end SemanticModel

end Retarget
