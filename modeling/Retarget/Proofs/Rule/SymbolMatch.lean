import Retarget.Proofs.Rule.NameMatch
import Retarget.Proofs.Symbol.Declaration

/-
  This file shows that a matcher matches the symbols of one
  full name.  The walk from a symbol outwards compares the
  names on its path, and since no name in a table has a dot,
  the full name says what is on the path.

  Key definitions include:
    * `SymbolTable.Filled`

  Key statements include:
    * `SymbolTable.Filled.isSound`
    * `NameMatcher.matchesParts_reversedPartsOf_iff`
    * `NameMatcher.matchesSymbol_iff`
-/

namespace Retarget

variable {table : SymbolTable}
variable {s : Symbol}
variable {fullName : String}

------------------------------------------------------------
-- Filled tables
------------------------------------------------------------

namespace SymbolTable

/-
  The tables that lists of references, the names in source
  files and merging lead to.  A table that is merged into
  another may give its entries in any order.
-/
inductive Filled : SymbolTable → Prop where
  | empty : Filled .empty
  | addNamespace {base : SymbolTable}
      (h : Filled base)
      (fullName : String) :
      Filled (base.addNamespace fullName).1
  | addType {base : SymbolTable}
      (h : Filled base)
      (fullName : String) :
      Filled (base.addType fullName).1
  | ofReferenceList
      (text : String) :
      Filled (.ofReferenceList text)
  | merge {base added arranged : SymbolTable}
      (h : Filled base)
      (hAdded : Filled added)
      (hOrder : arranged.entries.Perm added.entries) :
      Filled (base.merge arranged)

/-
  Every name is cut at the dots before it is entered, so no
  name that is entered has one.
-/
theorem Filled.isSound
    (h : table.Filled) :
    table.IsSound := by
  induction h with
  | empty => exact IsSound.empty_isSound
  | addNamespace _ fullName ih => exact (addNamespace_entered ih fullName).isSound
  | addType _ fullName ih => exact (addType_entered ih fullName).isSound
  | ofReferenceList text => exact ofReferenceList_isSound text
  | merge _ _ hOrder ih ihAdded =>
      refine merge_isSound_of_isNamed ih fun s hs => ?_
      exact ihAdded.isNamed_of_mem_symbols ((hOrder.map Prod.snd).mem_iff.mp hs)

end SymbolTable

------------------------------------------------------------
-- Names and paths
------------------------------------------------------------

theorem SymbolKind.isMember_eq_false_iff
    {kind : SymbolKind} :
    kind.isMember = false ↔ kind = .nameSpace ∨ kind = .type := by
  cases kind <;> simp [isMember]

namespace NameMatcher

theorem matchesParts_reversedPartsOf_iff
    (hNamed : s.IsNamed)
    (hName : ¬ HasGap fullName) :
    matchesParts (reversedPartsOf fullName) s = true ↔
      Text.equalsIgnoringAsciiCase s.fullName fullName = true := by
  by_cases hSome : s = .global
  · -- the global namespace has no path, and a name without a gap is not empty
    subst hSome
    have hEmpty : fullName ≠ "" := by
      rintro rfl
      exact hName (by decide)
    have hParts : SymbolTable.nameParts fullName ≠ [] := by
      rw [SymbolTable.nameParts_of_not_hasGap hName]
      exact Text.splitAt_ne_nil '.' fullName
    constructor
    · intro hMatch
      rw [matchesParts_iff, reversedPartsOf] at hMatch
      exact absurd (by simpa [Symbol.path] using hMatch.symm) hParts
    · intro hEqual
      have hSame := congrArg String.isEmpty (Text.lowerAscii_eq_iff.mpr hEqual)
      rw [Text.isEmpty_lowerAscii, Text.isEmpty_lowerAscii] at hSame
      exact absurd (String.isEmpty_iff.mp hSame.symm) hEmpty
  · rw [matchesParts_iff, reversedPartsOf,
      SymbolTable.nameParts_of_not_hasGap hName,
      Text.equalsIgnoringAsciiCase_iff_splitAt,
      Symbol.splitAt_fullName hNamed hSome, List.map_reverse, List.map_reverse,
      List.reverse_eq_iff]

------------------------------------------------------------
-- Matchers
------------------------------------------------------------

theorem matchesSymbol_forType
    (fullName : String)
    (s : Symbol) :
    (forType fullName).matchesSymbol s =
      (!s.isMember && matchesParts (reversedPartsOf fullName) s) := rfl

/-
  The name of a member is one more segment of the walk, which
  starts at the member itself.
-/
theorem matchesSymbol_forMemberName_iff
    (hName : ¬ HasGap fullName)
    (hDotted : 2 ≤ (Text.splitAt '.' fullName).length) :
    (forMemberName fullName).matchesSymbol s = true ↔
      s.isMember = true ∧
      (∃ c, s.container? = some c ∧ c.isMember = false) ∧
      matchesParts (reversedPartsOf fullName) s = true := by
  rw [forMemberName]
  cases hSplit : Text.splitLast '.' fullName with
  | none =>
      rw [Text.splitAt_of_dot_not_mem (Text.splitLast_eq_none_iff.mp hSplit)]
        at hDotted
      simp at hDotted
  | some pieces =>
      obtain ⟨owner, member⟩ := pieces
      rcases Text.splitLast_eq_some_iff.mp hSplit with ⟨rfl, hDot⟩
      have hMember : IsSegment member := by
        refine ⟨?_, hDot⟩
        rintro rfl
        refine hName ?_
        rw [HasGap, Text.splitAt_concat hDot]
        exact List.mem_append_right _ List.mem_cons_self
      have hParts : reversedPartsOf (owner ++ "." ++ member) =
          member :: reversedPartsOf owner := by
        rw [reversedPartsOf, SymbolTable.nameParts_append,
          SymbolTable.nameParts_of_isSegment hMember, List.reverse_concat,
          reversedPartsOf]
      rw [hParts]
      cases s with
      | global => simp [matchesSymbol, forMember, Symbol.isMember, Symbol.kind,
          SymbolKind.isMember]
      | declared name kind container =>
          simp only [matchesSymbol, forMember, matchesType, matchesParts,
            Symbol.container?, Symbol.name, Option.any_some, Bool.and_eq_true,
            Bool.not_eq_true', Option.some.injEq, exists_eq_left']
          tauto

/-
  Of the symbols that a filled table gives, a matcher for a
  type matches the namespaces and types of its name, and one
  for a member the members of its name that are not in a
  member.
-/
theorem matchesSymbol_iff
    (hTable : table.Filled)
    (hs : table.Knows s)
    (hName : ¬ HasGap fullName) :
    ((forType fullName).matchesSymbol s = true ↔
      (s.kind = .nameSpace ∨ s.kind = .type) ∧
        Text.equalsIgnoringAsciiCase s.fullName fullName = true) ∧
    (2 ≤ (Text.splitAt '.' fullName).length →
      ((forMemberName fullName).matchesSymbol s = true ↔
        s.isMember = true ∧
        (∃ c, s.container? = some c ∧ c.isMember = false) ∧
        Text.equalsIgnoringAsciiCase s.fullName fullName = true)) := by
  have hParts :=
    matchesParts_reversedPartsOf_iff (hTable.isSound.isNamed hs) hName
  refine ⟨?_, fun hDotted => ?_⟩
  · rw [matchesSymbol_forType, Bool.and_eq_true, Bool.not_eq_true', hParts,
      Symbol.isMember, SymbolKind.isMember_eq_false_iff]
  · rw [matchesSymbol_forMemberName_iff hName hDotted, hParts]

/- The member of a type, named in other letters than it is listed in. -/
theorem matchesSymbol_of_listed :
    let context := Symbol.declared "HttpContext" .type
      (.declared "Web" .nameSpace .global)
    let current := Symbol.declared "Current" .property context
    let name := "web.httpcontext.current"
    (forMemberName name).matchesSymbol current = true ∧
      (forType name).matchesSymbol current ≠ true := by
  intro context current name
  let text := "T:Web.HttpContext\nP:Web.HttpContext.Current\n"
  have hs : (current.fullName, current) ∈
      (SymbolTable.ofReferenceList text).entries := by
    decide +kernel
  have hBoth := matchesSymbol_iff (.ofReferenceList text) (Or.inr hs)
    (by decide +kernel : ¬ HasGap name)
  constructor
  · exact (hBoth.2 (by decide +kernel)).mpr
      ⟨rfl, ⟨context, rfl, rfl⟩, by decide +kernel⟩
  · intro hType
    rcases (hBoth.1.mp hType).1 with hKind | hKind
    · cases hKind
    · cases hKind

end NameMatcher

end Retarget
