import Mathlib.Data.List.Dedup
import Retarget.Proofs.Source.Tree
import Retarget.Proofs.Symbol.Resolution

/-
  This file shows what the imports of a file do for its
  names.  Their order and number do not count, and they are
  asked for a name only if it is not in scope: neither as
  written nor in one of the namespaces around it.

  Key definitions include:
    * `SemanticModel.withImports`
    * `SemanticModel.IsInScope`
    * `NameNode.boundName?`

  Key statements include:
    * `SemanticModel.mem_scopedNames_iff`
    * `SemanticModel.mem_importedSymbols_iff`
    * `SemanticModel.bind_withImports_perm`
    * `SemanticModel.bind_withImports_of_isInScope`
    * `SemanticModel.resolve_withImports`
    * `SemanticModel.Suffixed.resolve_ne_of_isInScope`
-/

namespace Retarget

/- The file with other imports. -/
def SourceTree.withImports
    (tree : SourceTree)
    (imports : List String) : SourceTree :=
  { tree with parts := { tree.parts with imports := imports } }

/-
  The name that is looked for first where a name stands: an
  attribute has the suffix of its type, and of a member it
  is what stands before the dot.
-/
def NameNode.boundName? (node : NameNode) : Option String :=
  match node.context with
  | .memberAccess => node.qualifier
  | .imported => none
  | .attribute =>
    some (SemanticModel.written node.qualifier
      (node.simpleName ++ "Attribute"))
  | _ => some node.qualifiedName

namespace SemanticModel

variable {model : SemanticModel}
variable {imports : List String}
variable {name fullName : String}
variable {offset : Nat}
variable {s : Symbol}

def withImports
    (model : SemanticModel)
    (imports : List String) : SemanticModel :=
  ⟨model.tree.withImports imports, model.table⟩

------------------------------------------------------------
-- Names in scope
------------------------------------------------------------

/-
  The full name is a name as written, or the name in a
  namespace around the offset or in one that this is in.
-/
def IsScoped
    (model : SemanticModel)
    (name : String)
    (offset : Nat)
    (fullName : String) : Prop :=
  fullName = name ∨
    ∃ scope ∈ model.tree.enclosingNamespaces offset, ∃ front,
      IsStart (Text.splitAt '.' scope) front ∧ fullName = front ++ "." ++ name

/- The table knows the name, as written or in a namespace around it. -/
def IsInScope
    (model : SemanticModel)
    (name : String)
    (offset : Nat) : Prop :=
  ∃ fullName, model.IsScoped name offset fullName ∧ model.lookup fullName ≠ []

theorem mem_enclosingNames_iff
    {parts : List String} :
    name ∈ enclosingNames parts ↔ IsStart parts name := by
  simp only [enclosingNames, List.mem_map, List.mem_range]
  constructor
  · rintro ⟨i, hi, rfl⟩
    refine ⟨parts.take (parts.length - i), ?_, List.take_prefix _ _, rfl⟩
    rw [ne_eq, List.take_eq_nil_iff, not_or]
    exact ⟨by omega, List.ne_nil_of_length_pos (by omega)⟩
  · rintro ⟨front, hSome, hFront, rfl⟩
    have hShorter := hFront.length_le
    have hLong := List.length_pos_of_ne_nil hSome
    refine ⟨parts.length - front.length, by omega, ?_⟩
    rw [Nat.sub_sub_self hShorter, ← List.prefix_iff_eq_take.mp hFront]

theorem mem_scopedNames_iff :
    fullName ∈ model.scopedNames name offset ↔
      model.IsScoped name offset fullName := by
  simp only [scopedNames, List.mem_cons, List.mem_map, List.mem_flatMap,
    mem_enclosingNames_iff, IsScoped]
  refine or_congr_right ⟨?_, ?_⟩
  · rintro ⟨front, ⟨scope, hScope, hFront⟩, rfl⟩
    exact ⟨scope, hScope, front, hFront, rfl⟩
  · rintro ⟨scope, hScope, front, hFront, rfl⟩
    exact ⟨front, ⟨scope, hScope, hFront⟩, rfl⟩

theorem isSome_firstFound_iff :
    (firstFound model.table model.tree.language
        (model.scopedNames name offset)).isSome = true ↔
      model.IsInScope name offset := by
  rw [firstFound, List.findSome?_isSome_iff]
  constructor
  · rintro ⟨n, hn, hFound⟩
    refine ⟨n, mem_scopedNames_iff.mp hn, fun hNone => ?_⟩
    rw [lookup] at hNone
    rw [hNone] at hFound
    cases hFound
  · rintro ⟨n, hn, hFound⟩
    refine ⟨n, mem_scopedNames_iff.mpr hn, ?_⟩
    rw [lookup] at hFound
    split
    · next hNone => exact absurd hNone hFound
    · rfl

------------------------------------------------------------
-- Binding
------------------------------------------------------------

/- A name in scope stands for the same, whatever is imported. -/
theorem bind_withImports_of_isInScope
    {qualifier : Option String}
    (hScope : model.IsInScope (written qualifier name) offset)
    (imports : List String) :
    (model.withImports imports).bind qualifier name offset =
        model.bind qualifier name offset ∧
      model.bind qualifier name offset ≠ [] := by
  rcases Option.isSome_iff_exists.mp (isSome_firstFound_iff.mpr hScope) with
    ⟨found, hFound⟩
  have hOther : firstFound (model.withImports imports).table
      (model.withImports imports).tree.language
      ((model.withImports imports).scopedNames (written qualifier name)
        offset) = some found := hFound
  rw [bind_eq, bind_eq, hFound, hOther]
  refine ⟨rfl, ?_⟩
  rcases List.exists_of_findSome?_eq_some hFound with ⟨n, -, hSome⟩
  split at hSome
  · cases hSome
  · next hNonempty =>
      cases hSome
      exact hNonempty

/- The imported symbols of a name are those of all imports. -/
theorem mem_importedSymbols_iff
    (hTable : model.table.IsConsistent) :
    s ∈ model.importedSymbols name ↔
      ∃ i ∈ model.tree.imports, s ∈ model.lookup (i ++ "." ++ name) := by
  let found := model.tree.imports.flatMap fun i =>
    model.lookup (i ++ "." ++ name)
  have hFound : ∀ t, t ∈ found ↔
      ∃ i ∈ model.tree.imports, t ∈ model.lookup (i ++ "." ++ name) :=
    fun t => List.mem_flatMap
  rw [← hFound s]
  change s ∈ found.foldl keepNew [] ↔ s ∈ found
  refine ⟨mem_of_mem_foldl_keepNew found, fun hs => ?_⟩
  have hEntry : ∀ t ∈ found, (t.fullName, t) ∈ model.table.entries := by
    intro t ht
    rcases (hFound t).mp ht with ⟨i, -, hLookup⟩
    exact SymbolTable.mem_entries_of_mem_lookup hTable hLookup
  have hName : s.fullName ∈ (found.foldl keepNew []).map Symbol.fullName :=
    (mem_fullNames_foldl_keepNew found []).mpr
      (Or.inr (List.mem_map_of_mem hs))
  -- the symbol that is kept under the name of another one is that symbol
  rcases List.mem_map.mp hName with ⟨t, ht, hSame⟩
  have htEntry := hEntry t (mem_of_mem_foldl_keepNew found ht)
  rw [hSame] at htEntry
  rwa [hTable.eq_of_mem (hEntry s hs) htEntry]

theorem importedSymbols_perm
    (hTable : model.table.IsConsistent)
    (hImports : ∀ i, i ∈ imports ↔ i ∈ model.tree.imports)
    (name : String) :
    ((model.withImports imports).importedSymbols name).Perm
      (model.importedSymbols name) := by
  have hNodup : ∀ m : SemanticModel, (m.importedSymbols name).Nodup :=
    fun m => List.Nodup.of_map Symbol.fullName (foldl_keepNew_nodup _)
  refine (List.perm_ext_iff_of_nodup (hNodup _) (hNodup _)).mpr fun s => ?_
  have hOther : s ∈ (model.withImports imports).importedSymbols name ↔
      ∃ i ∈ imports, s ∈ model.lookup (i ++ "." ++ name) :=
    mem_importedSymbols_iff hTable
  rw [hOther, mem_importedSymbols_iff hTable]
  exact exists_congr fun i => and_congr_left' (hImports i)

/- Imports in another order, or repeated, give the same symbols. -/
theorem bind_withImports_perm
    (hTable : model.table.IsConsistent)
    (hImports : ∀ i, i ∈ imports ↔ i ∈ model.tree.imports)
    (qualifier : Option String)
    (name : String)
    (offset : Nat) :
    ((model.withImports imports).bind qualifier name offset).Perm
      (model.bind qualifier name offset) := by
  by_cases hScope : model.IsInScope (written qualifier name) offset
  · rw [(bind_withImports_of_isInScope hScope imports).1]
  · have hNone : firstFound model.table model.tree.language
        (model.scopedNames (written qualifier name) offset) = none := by
      rwa [← isSome_firstFound_iff, Bool.not_eq_true, Option.isSome_eq_false_iff,
        Option.isNone_iff_eq_none] at hScope
    have hOther : firstFound (model.withImports imports).table
        (model.withImports imports).tree.language
        ((model.withImports imports).scopedNames (written qualifier name)
          offset) = none := hNone
    rw [bind_eq, bind_eq, hNone, hOther]
    exact importedSymbols_perm hTable hImports _

------------------------------------------------------------
-- Resolving
------------------------------------------------------------

/- Lists of the same symbols are the same, or both are ambiguous. -/
theorem eq_or_ambiguous_of_perm
    {found others : List Symbol}
    (h : found.Perm others) :
    found = others ∨
      (∃ a b more, found = a :: b :: more) ∧
        ∃ a b more, others = a :: b :: more := by
  rcases found with _ | ⟨a, _ | ⟨b, more⟩⟩
  · exact Or.inl h.nil_eq
  · exact Or.inl (List.singleton_perm.mp h)
  · have hLength := h.length_eq
    rcases others with _ | ⟨c, _ | ⟨d, rest⟩⟩
    · simp at hLength
    · simp at hLength
    · exact Or.inr ⟨⟨a, b, more, rfl⟩, c, d, rest, rfl⟩

theorem unique_congr
    {found others : List Symbol}
    (h : found.Perm others)
    (name : String) :
    unique found name = unique others name := by
  rcases eq_or_ambiguous_of_perm h with
    rfl | ⟨⟨a, b, more, rfl⟩, c, d, rest, rfl⟩
  · rfl
  · rfl

theorem resolveType_withImports
    {node : NameNode}
    (h : ((model.withImports imports).bind node.qualifier node.simpleName
      node.span.start).Perm
        (model.bind node.qualifier node.simpleName node.span.start)) :
    (model.withImports imports).resolveType node = model.resolveType node := by
  rw [resolveType, resolveType, h.isEmpty_eq, unique_congr h]

theorem resolveMember_withImports
    {node : NameNode}
    (h : ∀ qualifier ∈ node.qualifier,
      ((model.withImports imports).bind (receiverName qualifier).1
        (receiverName qualifier).2 node.span.start).Perm
          (model.bind (receiverName qualifier).1 (receiverName qualifier).2
            node.span.start)) :
    (model.withImports imports).resolveMember node =
      model.resolveMember node := by
  cases hQualifier : node.qualifier with
  | none =>
      rw [resolveMember, resolveMember, hQualifier]
  | some qualifier =>
      rw [resolveMember_eq _ hQualifier, resolveMember_eq _ hQualifier]
      rcases eq_or_ambiguous_of_perm (h qualifier hQualifier) with
        hSame | ⟨⟨a, b, more, hFound⟩, c, d, rest, hOthers⟩
      · rw [hSame]
        rfl
      · rw [hFound, hOthers]

theorem resolve_withImports_of_perm
    (node : NameNode)
    (h : ∀ qualifier name,
      ((model.withImports imports).bind qualifier name node.span.start).Perm
        (model.bind qualifier name node.span.start)) :
    (model.withImports imports).resolve node = model.resolve node := by
  have hType := resolveType_withImports (h node.qualifier node.simpleName)
  rw [resolve, resolve]
  cases node.context with
  | memberAccess => exact resolveMember_withImports fun _ _ => h _ _
  | imported => rfl
  | «attribute» =>
      have hSuffixed := h node.qualifier (node.simpleName ++ "Attribute")
      dsimp only
      rw [hSuffixed.isEmpty_eq, hType, unique_congr hSuffixed]
  | simple => exact hType
  | qualified => exact hType

theorem resolve_withImports_of_isInScope
    {node : NameNode}
    (hScope : ∀ name ∈ node.boundName?,
      model.IsInScope name node.span.start)
    (imports : List String) :
    (model.withImports imports).resolve node = model.resolve node := by
  rw [NameNode.boundName?] at hScope
  rw [resolve, resolve]
  cases hContext : node.context with
  | memberAccess =>
      rw [hContext] at hScope
      refine resolveMember_withImports fun qualifier hQualifier => ?_
      have hReceiver := hScope qualifier hQualifier
      rw [← written_receiverName qualifier] at hReceiver
      rw [(bind_withImports_of_isInScope hReceiver imports).1]
  | imported => rfl
  | «attribute» =>
      rw [hContext] at hScope
      rcases bind_withImports_of_isInScope (hScope _ rfl) imports with
        ⟨hSame, hSome⟩
      dsimp only
      rw [hSame, List.isEmpty_eq_false_iff.mpr hSome]
      rfl
  | simple =>
      rw [hContext] at hScope
      have hWritten : model.IsInScope (written node.qualifier node.simpleName)
          node.span.start := hScope _ rfl
      exact resolveType_withImports
        (.of_eq (bind_withImports_of_isInScope hWritten imports).1)
  | qualified =>
      rw [hContext] at hScope
      have hWritten : model.IsInScope (written node.qualifier node.simpleName)
          node.span.start := hScope _ rfl
      exact resolveType_withImports
        (.of_eq (bind_withImports_of_isInScope hWritten imports).1)

/-
  What a name stands for does not depend on the order of the
  imports or on how often one is written.  What a name in
  scope is bound to does not depend on them at all, and so a
  node does not whose name that is looked for first is in
  scope.
-/
theorem resolve_withImports
    {model : SemanticModel}
    (hTable : model.table.Reachable)
    (node : NameNode)
    (imports : List String) :
    ((∀ i, i ∈ imports ↔ i ∈ model.tree.imports) →
      (model.withImports imports).resolve node = model.resolve node) ∧
    (∀ qualifier name offset,
      model.IsInScope (written qualifier name) offset →
        (model.withImports imports).bind qualifier name offset =
          model.bind qualifier name offset) ∧
    ((∀ name ∈ node.boundName?, model.IsInScope name node.span.start) →
      (model.withImports imports).resolve node = model.resolve node) := by
  refine ⟨fun hImports => ?_, fun qualifier name offset hScope => ?_,
    fun hScope => ?_⟩
  · refine resolve_withImports_of_perm node fun qualifier name => ?_
    exact bind_withImports_perm hTable.isConsistent hImports qualifier name _
  · exact (bind_withImports_of_isInScope hScope imports).1
  · exact resolve_withImports_of_isInScope hScope imports

------------------------------------------------------------
-- An attribute of two spellings
------------------------------------------------------------

namespace Suffixed

def text : String :=
  "Imports X\n<Foo>\nClass C\n  Dim f As Foo\nEnd Class\n"

def file : SourceTree :=
  .ofVisualBasic ⟨"a.vb"⟩ text

/- A type of the written name, and one with the suffix in a namespace. -/
def marked : SemanticModel :=
  ⟨file, .ofReferenceList "T:Foo\nT:X.FooAttribute\n"⟩

def plain : Symbol :=
  .declared "Foo" .type .global

def suffixed : Symbol :=
  .declared "FooAttribute" .type (.declared "X" .nameSpace .global)

def target : NameNode :=
  ⟨"X", none, .imported, false, ⟨8, 9⟩, ⟨8, 9⟩⟩

def mark : NameNode :=
  ⟨"Foo", none, .attribute, false, ⟨11, 14⟩, ⟨11, 14⟩⟩

def field : NameNode :=
  ⟨"Foo", none, .simple, false, ⟨35, 38⟩, ⟨35, 38⟩⟩

theorem file_eq :
    file = ⟨⟨"a.vb"⟩, .visualBasic, text,
      { names := [target, mark, field]
        imports := ["X"]
        importSpans := [⟨0, 9⟩]
        declarations := [⟨none, "C"⟩] }⟩ :=
  SourceTree.ofVisualBasic_eq rfl (by decide +kernel)

theorem isInScope
    (offset : Nat) :
    marked.IsInScope "Foo" offset :=
  ⟨"Foo", Or.inl rfl, by decide +kernel⟩

/- Without the import the attribute is what it is written as. -/
theorem resolutions :
    marked.resolve mark = .resolved suffixed ∧
      marked.resolve field = .resolved plain ∧
      (marked.withImports []).resolve mark = .resolved plain := by
  rw [marked, file_eq]
  decide +kernel

/-
  The type of the field is in scope and not imported.  The
  attribute is imported, from a file that names its import
  twice.
-/
theorem resolve_withImports_of_repeated :
    file.names = [target, mark, field] ∧
    marked.table.Reachable ∧
    (marked.withImports ["X", "X"]).resolve mark = .resolved suffixed ∧
    marked.resolve mark = .resolved suffixed ∧
    marked.IsInScope "Foo" field.span.start ∧
    (marked.withImports []).resolve field = .resolved plain ∧
    marked.resolve field = .resolved plain := by
  have hTable : marked.table.Reachable := .ofReferenceList _
  have hImports : marked.tree.imports = ["X"] := by
    rw [marked, file_eq]
    rfl
  rcases resolutions with ⟨hMark, hField, -⟩
  have hRepeated :=
    (resolve_withImports hTable mark ["X", "X"]).1 (by simp [hImports])
  have hNone := (resolve_withImports hTable field []).2.2 fun name hName => by
    obtain rfl := Option.some.inj hName
    exact isInScope _
  exact ⟨by rw [file_eq]; rfl, hTable, hRepeated.trans hMark,
    hMark, isInScope _, hNone.trans hField, hField⟩

/-
  The name of the attribute as written is in scope, and what
  the attribute stands for depends on the import.
-/
theorem resolve_ne_of_isInScope :
    mark ∈ file.names ∧ mark.qualifiedName = "Foo" ∧
    marked.table.Reachable ∧
    marked.IsInScope mark.qualifiedName mark.span.start ∧
    marked.resolve mark = .resolved suffixed ∧
    (marked.withImports []).resolve mark = .resolved plain := by
  rcases resolutions with ⟨hMark, -, hNone⟩
  have hMem : mark ∈ file.names := by
    rw [file_eq]
    exact List.mem_cons_of_mem _ List.mem_cons_self
  exact ⟨hMem, rfl, .ofReferenceList _, isInScope _, hMark, hNone⟩

end Suffixed

end SemanticModel

end Retarget
