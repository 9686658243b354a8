import Retarget.Analysis.Compilation
import Retarget.Rule.NameMatch
import Retarget.Proofs.Symbol.Table
import Retarget.Proofs.Symbol.Spelling

/-
  This file compares the tables that source files make up
  when only the letter case of their names differs.  A table
  tells names apart as they are spelled, so the two have the
  same symbols if the same names are spelled alike in both.

  Key definitions include:
    * `Symbol.Respelled`
    * `SymbolTable.Respelled`
    * `SymbolTable.Added`

  Key statements include:
    * `NameMatcher.matchesSymbol_fold`
    * `SymbolTable.Respelled.addNamespace`
    * `SymbolTable.Respelled.addType`
    * `SymbolTable.Respelled.declare`
    * `SymbolTable.Respelled.merge`
-/

namespace Retarget

open Text

------------------------------------------------------------
-- Symbols
------------------------------------------------------------

namespace Symbol

def fold : Symbol → Symbol
  | global => global
  | declared name kind container =>
    declared (lowerAscii name) kind container.fold

variable (s : Symbol)

theorem kind_fold :
    s.fold.kind = s.kind := by
  cases s <;> rfl

theorem isMember_fold :
    s.fold.isMember = s.isMember := by
  rw [isMember, kind_fold, isMember]

end Symbol

namespace NameMatcher

theorem matchesParts_fold
    (parts : List String)
    (s : Symbol) :
    matchesParts parts s.fold = matchesParts parts s := by
  induction parts generalizing s with
  | nil => cases s <;> rfl
  | cons part rest ih =>
      cases s with
      | global => rfl
      | declared name kind container =>
          rw [Symbol.fold, matchesParts, matchesParts, ih,
            equalsIgnoringAsciiCase_lowerAscii]

/- A rule is about a symbol in whatever letter case. -/
theorem matchesSymbol_fold
    (m : NameMatcher)
    (s : Symbol) :
    m.matchesSymbol s.fold = m.matchesSymbol s := by
  have hType : ∀ s : Symbol, m.matchesType s.fold = m.matchesType s := by
    intro s
    rw [matchesType, Symbol.isMember_fold, matchesParts_fold, matchesType]
  rw [matchesSymbol, hType, Symbol.isMember_fold, matchesSymbol]
  cases s with
  | global => rfl
  | declared name kind container =>
      have hName : ∀ member, equalsIgnoringAsciiCase
          (Symbol.declared name kind container).fold.name member =
            equalsIgnoringAsciiCase name member :=
        equalsIgnoringAsciiCase_lowerAscii name
      have hContainer : (Symbol.declared name kind container).fold.container? =
          some container.fold := rfl
      simp only [hName, hContainer, Option.any_some, hType]
      rfl

end NameMatcher

------------------------------------------------------------
-- Tables
------------------------------------------------------------

variable {P : String → String → Prop}

/- Symbols of one name in two spellings. -/
structure Symbol.Respelled
    (P : String → String → Prop)
    (s t : Symbol) : Prop where
  fold_eq : s.fold = t.fold
  fullName : P s.fullName t.fullName

namespace SymbolTable

variable {table other : SymbolTable}
variable {owner outer : Symbol}
variable {name otherName fullName : String}
variable {parts others : List String}

theorem IsSound.childName_eq
    (hSound : table.IsSound)
    (h : (fullName, owner) ∈ table.entries)
    (name : String) :
    childName owner name = fullName ++ "." ++ name := by
  rw [Symbol.childName_of_ne_global (hSound.ne_global h), hSound.fullName_eq h]

/- Tables that were filled alike, with names in two spellings. -/
structure Respelled
    (P : String → String → Prop)
    (table other : SymbolTable) : Prop where
  isSound : table.IsSound
  otherIsSound : other.IsSound
  entries :
    List.Forall₂ (fun e o => P e.1 o.1 ∧ e.2.Respelled P o.2)
      table.entries other.entries

/- Two such tables, each with a symbol that was added to it. -/
structure Added
    (P : String → String → Prop)
    (r q : SymbolTable × Symbol) : Prop where
  tables : Respelled P r.1 q.1
  knows : r.1.Knows r.2
  otherKnows : q.1.Knows q.2
  fold_eq : r.2.fold = q.2.fold

theorem Respelled.find?
    (hP : Respells P)
    (h : Respelled P table other)
    (hName : P name otherName) :
    Option.Rel (Symbol.Respelled P)
      (table.find? name) (other.find? otherName) := by
  have hFound := rel_find? (p := fun e => e.1 == name)
    (q := fun o => o.1 == otherName) (fun e o hEntry => by
      rw [Bool.eq_iff_iff, beq_iff_eq, beq_iff_eq]
      exact hP.eq_iff hEntry.1 hName) h.entries
  rw [SymbolTable.find?, SymbolTable.find?]
  generalize table.entries.find? _ = found at hFound ⊢
  generalize other.entries.find? _ = otherFound at hFound ⊢
  cases hFound with
  | none => exact Option.Rel.none
  | some hEntry => exact Option.Rel.some hEntry.2

theorem Added.child
    {r q : SymbolTable × Symbol}
    (hP : Respells P)
    (h : Added P r q)
    (hDot : '.' ∉ name.toList)
    (hName : lowerAscii name = lowerAscii otherName)
    (hKey : P (childName r.2 name) (childName q.2 otherName))
    (kind : SymbolKind) :
    Added P (r.1.child r.2 name kind) (q.1.child q.2 otherName kind) := by
  have hEntered := child_entered h.tables.isSound h.knows hDot kind
  have hOther := child_entered h.tables.otherIsSound h.otherKnows
    (dot_not_mem_of_lowerAscii_eq hName hDot) kind
  suffices hBoth :
      List.Forall₂ (fun e o => P e.1 o.1 ∧ e.2.Respelled P o.2)
          (r.1.child r.2 name kind).1.entries
          (q.1.child q.2 otherName kind).1.entries ∧
        (r.1.child r.2 name kind).2.fold =
          (q.1.child q.2 otherName kind).2.fold from
    ⟨⟨hEntered.isSound, hOther.isSound, hBoth.1⟩, hEntered.knows,
      hOther.knows, hBoth.2⟩
  rw [SymbolTable.child, SymbolTable.child]
  have hFound := h.tables.find? hP hKey
  generalize r.1.find? (childName r.2 name) = found at hFound ⊢
  generalize q.1.find? (childName q.2 otherName) = otherFound at hFound ⊢
  cases hFound with
  | none =>
      have hNew : (Symbol.declared name kind r.2).fold =
          (Symbol.declared otherName kind q.2).fold := by
        rw [Symbol.fold, Symbol.fold, hName, h.fold_eq]
      refine ⟨List.rel_append h.tables.entries ?_, hNew⟩
      refine List.Forall₂.cons ⟨hKey, hNew, ?_⟩ List.Forall₂.nil
      rwa [Symbol.fullName_declared, Symbol.fullName_declared]
  | some hKnown => exact ⟨h.tables.entries, hKnown.fold_eq⟩

theorem Added.addParts
    {r q : SymbolTable × Symbol}
    (hP : Respells P)
    (h : Added P r q)
    (hDots : ∀ p ∈ parts, '.' ∉ p.toList)
    (hParts : parts.map lowerAscii = others.map lowerAscii)
    (hStarts : ∀ i < parts.length,
      P (join "." (r.2.path.reverse ++ parts.take (i + 1)))
        (join "." (q.2.path.reverse ++ others.take (i + 1)))) :
    Added P (r.1.addParts r.2 parts) (q.1.addParts q.2 others) := by
  induction parts generalizing r q others with
  | nil =>
      obtain rfl : others = [] := by simpa using hParts.symm
      exact h
  | cons part rest ih =>
      cases others with
      | nil => simp at hParts
      | cons otherPart otherRest =>
          rcases List.forall_mem_cons.mp hDots with ⟨hDot, hRestDots⟩
          rcases List.cons.inj hParts with ⟨hPart, hRest⟩
          have hKey : P (childName r.2 part) (childName q.2 otherPart) := by
            rw [Symbol.childName_eq_join, Symbol.childName_eq_join]
            exact hStarts 0 (Nat.succ_pos _)
          have hPath :=
            (child_entered h.tables.isSound h.knows hDot .nameSpace).path_eq
          have hOtherPath :=
            (child_entered h.tables.otherIsSound h.otherKnows
              (dot_not_mem_of_lowerAscii_eq hPart hDot) .nameSpace).path_eq
          have hChild := h.child hP hDot hPart hKey .nameSpace
          have hAll := ih hChild hRestDots hRest fun i hi => by
            rw [hPath, hOtherPath, List.append_assoc, List.append_assoc]
            exact hStarts (i + 1) (Nat.succ_lt_succ hi)
          exact hAll

theorem Respelled.addNamespace
    (hP : Respells P)
    (h : Respelled P table other)
    (hName : lowerAscii name = lowerAscii otherName)
    (hStarts : StartsRespelled P (nameParts name) (nameParts otherName)) :
    Added P (table.addNamespace name) (other.addNamespace otherName) := by
  have hGlobal : Added P (table, .global) (other, .global) :=
    ⟨h, Or.inl rfl, Or.inl rfl, rfl⟩
  refine hGlobal.addParts hP (fun p hp => (isSegment_of_mem_nameParts hp).2)
    ?_ hStarts.2
  rw [← nameParts_lowerAscii, hName, nameParts_lowerAscii]

/- Both tables know a name, or none of them does. -/
theorem Respelled.find?_cases
    (hP : Respells P)
    (h : Respelled P table other)
    (hName : P name otherName) :
    (table.find? name = none ∧ other.find? otherName = none) ∨
      ∃ s t, table.find? name = some s ∧ other.find? otherName = some t ∧
        Added P (table, s) (other, t) ∧
        ∀ last, childName s last = name ++ "." ++ last ∧
          childName t last = otherName ++ "." ++ last := by
  have hFound := h.find? hP hName
  cases hFirst : table.find? name with
  | none =>
      cases hLast : other.find? otherName with
      | none => exact Or.inl ⟨rfl, rfl⟩
      | some t => rw [hFirst, hLast] at hFound; cases hFound
  | some s =>
      cases hLast : other.find? otherName with
      | none => rw [hFirst, hLast] at hFound; cases hFound
      | some t =>
          rw [hFirst, hLast] at hFound
          have hMem := mem_entries_of_find? hFirst
          have hOtherMem := mem_entries_of_find? hLast
          exact Or.inr ⟨s, t, rfl, rfl,
            ⟨h, h.isSound.knows_of_mem hMem, h.otherIsSound.knows_of_mem hOtherMem,
              (Option.rel_some_some.mp hFound).fold_eq⟩,
            fun last => ⟨h.isSound.childName_eq hMem last,
              h.otherIsSound.childName_eq hOtherMem last⟩⟩

theorem Respelled.mem_names_iff
    (hP : Respells P)
    (h : Respelled P table other)
    (hName : P name otherName) :
    name ∈ table.names ↔ otherName ∈ other.names := by
  rcases h.find?_cases hP hName with ⟨hNone, hOtherNone⟩ |
    ⟨s, t, hSome, hOtherSome, -, -⟩
  · exact iff_of_false (find?_eq_none_iff.mp hNone)
      (find?_eq_none_iff.mp hOtherNone)
  · exact iff_of_true (List.mem_map_of_mem (mem_entries_of_find? hSome))
      (List.mem_map_of_mem (mem_entries_of_find? hOtherSome))

/-
  The container of a type is looked up as written.  If it is
  not known, it is entered without its empty segments.
-/
theorem Respelled.addType
    (hP : Respells P)
    (h : Respelled P table other)
    (hName : NameRespelled P name otherName) :
    Added P (table.addType name) (other.addType otherName) := by
  rw [SymbolTable.addType, SymbolTable.addType]
  rcases splitLast_cases hName.lowerAscii_eq with ⟨hSplit, hOtherSplit⟩ |
    ⟨container, last, otherContainer, otherLast, hSplit, hOtherSplit,
      hContainer, hLast⟩
  · have hGlobal : Added P (table, .global) (other, .global) :=
      ⟨h, Or.inl rfl, Or.inl rfl, rfl⟩
    rw [hSplit, hOtherSplit]
    exact hGlobal.child hP (splitLast_eq_none_iff.mp hSplit)
      hName.lowerAscii_eq hName.whole .type
  · rcases splitLast_eq_some_iff.mp hSplit with ⟨rfl, hDot⟩
    rcases splitLast_eq_some_iff.mp hOtherSplit with ⟨rfl, hOtherDot⟩
    rw [hSplit, hOtherSplit]
    dsimp only
    rcases h.find?_cases hP (hName.container hContainer) with
      ⟨hOwner, hOtherOwner⟩ |
      ⟨owner, outer, hOwner, hOtherOwner, hAdded, hKey⟩
    · have hStarts := hName.segments
      rw [segments_append _ hDot, segments_append _ hOtherDot] at hStarts
      have hAdded := h.addNamespace hP hContainer
        (hStarts.left (length_nameParts_of_lowerAscii_eq hContainer))
      have hPath := (addNamespace_entered h.isSound container).path_eq
      have hOtherPath :=
        (addNamespace_entered h.otherIsSound otherContainer).path_eq
      have hKey := hStarts.whole (by simp)
      rw [hOwner, hOtherOwner]
      refine Added.child hP hAdded hDot hLast ?_ .type
      rw [Symbol.childName_eq_join, Symbol.childName_eq_join, hPath, hOtherPath]
      exact hKey
    · rw [hOwner, hOtherOwner]
      refine hAdded.child hP hDot hLast ?_ .type
      rw [(hKey last).1, (hKey otherLast).2]
      exact hName.whole

/- Two spellings of a file enter the same symbols. -/
theorem Respelled.declare
    (hP : Respells P)
    (h : Respelled P table other)
    {tree otherTree : SourceTree}
    (hParts : tree.parts.fold = otherTree.parts.fold)
    (hSpellings : List.Forall₂ P tree.spellings otherTree.spellings) :
    Respelled P (Compilation.declare table tree)
      (Compilation.declare other otherTree) := by
  have hDeclared := (forall₂_of_flatMap
    (fun _ _ hName => length_spellings_of_lowerAscii_eq hName)
    (SourceTree.forall₂_declared hParts) hSpellings).imp
      fun _ _ hName => NameRespelled.of_spellings hName.1 hName.2
  have hLength :
      (tree.declarations.map TypeDeclaration.fullName).length =
        (otherTree.declarations.map TypeDeclaration.fullName).length := by
    have hCount := congrArg (fun parts => parts.declarations.length) hParts
    simpa [SourceParts.fold, SourceTree.declarations] using hCount
  rcases forall₂_of_append hLength hDeclared with ⟨hTypes, hNamespaces⟩
  rw [List.forall₂_map_left_iff, List.forall₂_map_right_iff] at hTypes hNamespaces
  have hTyped := List.rel_foldl (P := Respelled P)
    (fun t o ht (d e : TypeDeclaration)
        (hName : NameRespelled P d.fullName e.fullName) =>
      (ht.addType hP hName).tables) h hTypes
  exact List.rel_foldl
    (fun t o ht (s e : NamespaceScope) (hName : NameRespelled P s.name e.name) =>
      (ht.addNamespace hP hName.lowerAscii_eq hName.nameParts).tables) hTyped
    hNamespaces

------------------------------------------------------------
-- References
------------------------------------------------------------

/- Both tables enter a type as written or by its segments. -/
theorem Respelled.typeParts_cases
    (hP : Respells P)
    (h : Respelled P table other)
    (hName : NameRespelled P name otherName) :
    (table.typeParts name = splitAt '.' name ∧
        other.typeParts otherName = splitAt '.' otherName) ∨
      (table.typeParts name = segments name ∧
        other.typeParts otherName = segments otherName) := by
  rw [typeParts, typeParts, segments, segments]
  rcases splitLast_cases hName.lowerAscii_eq with ⟨hSplit, hOtherSplit⟩ |
    ⟨container, last, otherContainer, otherLast, hSplit, hOtherSplit,
      hContainer, hLast⟩
  · rw [hSplit, hOtherSplit]
    exact Or.inr ⟨rfl, rfl⟩
  · rcases splitLast_eq_some_iff.mp hSplit with ⟨rfl, hDot⟩
    rcases splitLast_eq_some_iff.mp hOtherSplit with ⟨rfl, hOtherDot⟩
    rw [hSplit, hOtherSplit, splitAt_append, splitAt_append,
      splitAt_of_dot_not_mem hDot, splitAt_of_dot_not_mem hOtherDot]
    have hBoth := h.mem_names_iff hP (hName.container hContainer)
    by_cases hKnown : container ∈ table.names
    · exact Or.inl ⟨if_pos hKnown, if_pos (hBoth.mp hKnown)⟩
    · exact Or.inr ⟨if_neg hKnown, if_neg (mt hBoth.mpr hKnown)⟩

/- A member is entered below its owner, however that was entered. -/
theorem Respelled.addMember
    {ownerName otherOwner : String}
    (hP : Respells P)
    (h : Respelled P table other)
    (hOwner : NameRespelled P ownerName otherOwner)
    (hDot : '.' ∉ name.toList)
    (hName : lowerAscii name = lowerAscii otherName)
    (hWritten : P (ownerName ++ "." ++ name) (otherOwner ++ "." ++ otherName))
    (hSegments : P (join "." (segments ownerName ++ [name]))
      (join "." (segments otherOwner ++ [otherName])))
    (kind : SymbolKind) :
    Added P (table.addMember ownerName name kind)
      (other.addMember otherOwner otherName kind) := by
  have hAdd : Added P
      ((table.addType ownerName).1.child (table.addType ownerName).2 name kind)
      ((other.addType otherOwner).1.child (other.addType otherOwner).2
        otherName kind) := by
    refine (h.addType hP hOwner).child hP hDot hName ?_ kind
    have hPath := (addType_entered h.isSound ownerName).path_eq
    have hOtherPath := (addType_entered h.otherIsSound otherOwner).path_eq
    rw [Symbol.childName_eq_join, Symbol.childName_eq_join, hPath, hOtherPath]
    rcases h.typeParts_cases hP hOwner with ⟨hParts, hOther⟩ | ⟨hParts, hOther⟩
    · rwa [hParts, hOther, join_concat (splitAt_ne_nil _ _), join_splitAt,
        join_concat (splitAt_ne_nil _ _), join_splitAt]
    · rwa [hParts, hOther]
  rw [SymbolTable.addMember, SymbolTable.addMember]
  rcases h.find?_cases hP hOwner.whole with ⟨hNone, hOtherNone⟩ |
    ⟨owner, outer, hSome, hOtherSome, hAdded, hKey⟩
  · rw [hNone, hOtherNone]
    exact hAdd
  · have hKind : owner.kind = outer.kind := by
      rw [← owner.kind_fold, hAdded.fold_eq, outer.kind_fold]
    rw [hSome, hOtherSome, Option.filter_some, hKind, Option.filter_some]
    cases outer.kind == .type with
    | false => exact hAdd
    | true =>
        refine hAdded.child hP hDot hName ?_ kind
        rwa [(hKey name).1, (hKey otherName).2]

theorem Respelled.addSymbol
    (hP : Respells P)
    (h : Respelled P table other)
    {s : Symbol}
    (hNamed : s.IsNamed)
    (hSpelled : ∀ n ∈ s.spellings, P n n) :
    Respelled P (table.addSymbol s) (other.addSymbol s) := by
  have hSelf : ∀ {name : String}, (∀ n ∈ Retarget.spellings name, P n n) →
      NameRespelled P name name :=
    fun hNames => .of_spellings rfl (List.forall₂_same.mpr hNames)
  cases s with
  | global => exact h
  | declared name kind container =>
      have hMember : ∀ kind : SymbolKind, kind.isMember = true →
          (∀ n ∈ (Symbol.declared name kind container).spellings, P n n) →
          Respelled P (table.addMember container.fullName name kind).1
            (other.addMember container.fullName name kind).1 := by
        intro kind hKind hSpelled
        rw [Symbol.spellings, if_pos hKind, List.forall_mem_append] at hSpelled
        rcases hSpelled with ⟨hOwner, hKeys⟩
        exact (h.addMember hP (hSelf hOwner) (hNamed name List.mem_cons_self) rfl
          (hKeys _ (by simp)) (hKeys _ (by simp)) kind).tables
      cases kind with
      | nameSpace =>
          have hName := hSelf hSpelled
          exact (h.addNamespace hP rfl hName.nameParts).tables
      | type => exact (h.addType hP (hSelf hSpelled)).tables
      | method => exact hMember .method rfl hSpelled
      | property => exact hMember .property rfl hSpelled
      | field => exact hMember .field rfl hSpelled
      | event => exact hMember .event rfl hSpelled

/- The same references are added to both tables. -/
theorem Respelled.merge
    (hP : Respells P)
    (h : Respelled P table other)
    {references : SymbolTable}
    (hSound : references.IsSound)
    (hSpelled : ∀ n ∈ references.spellings, P n n) :
    Respelled P (table.merge references) (other.merge references) := by
  rw [SymbolTable.merge, SymbolTable.merge]
  refine List.rel_foldl (P := Respelled P) (R := fun s t =>
    s = t ∧ s.IsNamed ∧ ∀ n ∈ s.spellings, P n n) ?_ h ?_
  · rintro t o ht s _ ⟨rfl, hNamed, hNames⟩
    exact ht.addSymbol hP hNamed hNames
  · refine List.forall₂_same.mpr fun s hs => ?_
    have hMem := List.mem_mergeSort.mp hs
    rcases List.mem_map.mp hMem with ⟨e, he, rfl⟩
    exact ⟨rfl, hSound.isNamed (hSound.knows_of_mem he),
      fun n hn => hSpelled n (List.mem_flatMap.mpr ⟨_, hMem, hn⟩)⟩

end SymbolTable

end Retarget
