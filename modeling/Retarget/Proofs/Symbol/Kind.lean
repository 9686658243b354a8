import Retarget.Proofs.Symbol.Declaration

/-
  This file shows which kinds the symbols of a list of
  references have.  A line uses the names that its own name
  starts with too, and the first use of a name decides: a
  type that is listed after its nested types is a namespace.

  Key definitions include:
    * `SymbolTable.Gains`
    * `SymbolTable.referenceUses`
    * `SymbolTable.IsPlain`

  Key statements include:
    * `SymbolTable.addReference_gains`
    * `SymbolTable.foldl_gains`
    * `SymbolTable.kindOf?_of_agreeing`
    * `SymbolTable.kinds_of_references`
-/

namespace Retarget

namespace SymbolTable

variable {table next last : SymbolTable}
variable {s owner : Symbol}
variable {kind : SymbolKind}
variable {n name fullName line : String}
variable {parts front : List String}
variable {uses more : List (String × SymbolKind)}

------------------------------------------------------------
-- Kinds
------------------------------------------------------------

def kindOf? (table : SymbolTable) (fullName : String) : Option SymbolKind :=
  (table.find? fullName).map Symbol.kind

theorem kindOf?_eq_none_iff :
    table.kindOf? n = none ↔ n ∉ table.names := by
  rw [kindOf?, Option.map_eq_none_iff, find?_eq_none_iff]

/-
  A table gains the names that are used, each with its kind
  at the first use, unless it is known already.
-/
def Gains
    (next table : SymbolTable)
    (uses : List (String × SymbolKind)) : Prop :=
  ∀ n, next.kindOf? n = (table.kindOf? n).or (uses.lookup n)

namespace Gains

theorem of_known
    (hKnown : ∀ e ∈ uses, e.1 ∈ table.names) :
    table.Gains table uses := by
  intro n
  cases hUse : uses.lookup n with
  | none => exact (Option.or_none).symm
  | some kind =>
      rcases List.lookup_eq_some_iff.mp hUse with ⟨front, back, rfl, -⟩
      have hName : n ∈ table.names := hKnown (n, kind) (by simp)
      cases hKind : table.kindOf? n with
      | none => exact absurd hName (kindOf?_eq_none_iff.mp hKind)
      | some known => rfl

theorem trans
    (h : next.Gains table uses)
    (hLast : last.Gains next more) :
    last.Gains table (uses ++ more) := by
  intro n
  rw [hLast, h, List.lookup_append, Option.or_assoc]

/- A known symbol keeps its kind. -/
theorem kindOf?_eq_some
    (h : next.Gains table uses)
    (hKind : table.kindOf? n = some kind) :
    next.kindOf? n = some kind := by
  rw [h, hKind, Option.some_or]

end Gains

------------------------------------------------------------
-- Uses of names
------------------------------------------------------------

/- The namespaces that some segments name in an outer one. -/
def namespacesAlong (front : List String) :
    List String → List (String × SymbolKind)
  | [] => []
  | part :: rest =>
    (Text.join "." (front ++ [part]), .nameSpace) ::
      namespacesAlong (front ++ [part]) rest

/- The uses that the name of a type is, the type itself last. -/
def typeUses (parts : List String) : List (String × SymbolKind) :=
  namespacesAlong [] parts.dropLast ++ [(Text.join "." parts, .type)]

def memberUses
    (parts : List String)
    (member : String)
    (kind : SymbolKind) : List (String × SymbolKind) :=
  typeUses parts ++ [(Text.join "." (parts ++ [member]), kind)]

/- The uses that a line is, where types' names are cut in some way. -/
def referenceUses
    (cut : String → List String)
    (line : String) : List (String × SymbolKind) :=
  let (kind, name) := readReference line
  match kind with
  | .nameSpace => namespacesAlong [] (nameParts name)
  | .type => typeUses (cut name)
  | kind =>
    match Text.splitLast '.' name with
    | some (owner, member) => memberUses (cut owner) member kind
    | none => []

theorem referenceUses_of_member
    {owner member : String}
    (hRead : readReference line = (kind, owner ++ "." ++ member))
    (hKind : kind.isMember = true)
    (hDot : '.' ∉ member.toList)
    (cut : String → List String) :
    referenceUses cut line = memberUses (cut owner) member kind := by
  have hSplit : Text.splitLast '.' (owner ++ "." ++ member) =
      some (owner, member) :=
    Text.splitLast_eq_some_iff.mpr ⟨rfl, hDot⟩
  rw [referenceUses, hRead]
  cases kind with
  | nameSpace => cases hKind
  | type => cases hKind
  | _ => simp only [hSplit]

theorem exists_prefix_of_mem_namespacesAlong
    {e : String × SymbolKind}
    (h : e ∈ namespacesAlong front parts) :
    ∃ inner, inner ≠ [] ∧ inner <+: parts ∧
      e.1 = Text.join "." (front ++ inner) := by
  induction parts generalizing front with
  | nil => cases h
  | cons part rest ih =>
      rcases List.mem_cons.mp h with rfl | hRest
      · exact ⟨[part], by simp, by simp, rfl⟩
      · rcases ih hRest with ⟨inner, -, hInner, hName⟩
        refine ⟨part :: inner, by simp, by simpa using hInner, ?_⟩
        rwa [List.append_assoc, List.singleton_append] at hName

theorem isStart_of_mem_namespacesAlong
    {e : String × SymbolKind}
    (h : e ∈ namespacesAlong [] parts) :
    IsStart parts e.1 := by
  rcases exists_prefix_of_mem_namespacesAlong h with
    ⟨inner, hSome, hInner, hName⟩
  exact ⟨inner, hSome, hInner, hName⟩

theorem isStart_of_mem_typeUses
    {e : String × SymbolKind}
    (hSome : parts ≠ [])
    (h : e ∈ typeUses parts) :
    IsStart parts e.1 := by
  rcases List.mem_append.mp h with hOuter | hLast
  · rcases isStart_of_mem_namespacesAlong hOuter with
      ⟨front, hFront, hPrefix, hName⟩
    exact ⟨front, hFront, hPrefix.trans (List.dropLast_prefix parts), hName⟩
  · obtain rfl := List.mem_singleton.mp hLast
    exact ⟨parts, hSome, List.prefix_rfl, rfl⟩

/- No start of some segments is the name of more segments. -/
theorem ne_of_isStart
    (hParts : ∀ p ∈ parts ++ [name], '.' ∉ p.toList)
    (h : IsStart parts n) :
    n ≠ Text.join "." (parts ++ [name]) := by
  rcases h with ⟨front, hSome, hFront, rfl⟩
  intro hName
  have hPieces := congrArg (Text.splitAt '.') hName
  rw [Text.splitAt_join hParts (by simp), Text.splitAt_join _ hSome] at hPieces
  · have hLength := hFront.length_le
    rw [hPieces, List.length_append, List.length_singleton] at hLength
    omega
  · intro p hp
    exact hParts p (List.mem_append_left _ (hFront.subset hp))

theorem lookup_concat
    (hFresh : ∀ e ∈ uses, e.1 ≠ n) :
    (uses ++ [(n, kind)]).lookup n = some kind := by
  have hNone : uses.lookup n = none := by
    rw [List.lookup_eq_none_iff]
    intro e he
    exact bne_iff_ne.mpr (hFresh e he).symm
  rw [List.lookup_append, hNone, Option.none_or, List.lookup_cons_self]

theorem lookup_typeUses
    (n : String) :
    (typeUses (Text.splitAt '.' n)).lookup n = some .type := by
  have hParts : ∀ p ∈ Text.splitAt '.' n, '.' ∉ p.toList :=
    fun p => Text.dot_not_mem_of_mem_splitAt
  have hWhole := List.dropLast_append_getLast (Text.splitAt_ne_nil '.' n)
  rw [typeUses, Text.join_splitAt]
  refine lookup_concat fun e he => ?_
  rw [← hWhole] at hParts
  have hNe := ne_of_isStart hParts (isStart_of_mem_namespacesAlong he)
  rwa [hWhole, Text.join_splitAt] at hNe

theorem lookup_owner_memberUses
    (owner member : String)
    (kind : SymbolKind) :
    (memberUses (Text.splitAt '.' owner) member kind).lookup owner =
      some .type := by
  rw [memberUses, List.lookup_append, lookup_typeUses, Option.some_or]

theorem lookup_memberUses
    {member : String}
    (hDot : '.' ∉ member.toList)
    (owner : String)
    (kind : SymbolKind) :
    (memberUses (Text.splitAt '.' owner) member kind).lookup
      (owner ++ "." ++ member) = some kind := by
  have hParts : ∀ p ∈ Text.splitAt '.' owner ++ [member], '.' ∉ p.toList := by
    rw [← Text.splitAt_concat hDot]
    exact fun p => Text.dot_not_mem_of_mem_splitAt
  have hName : Text.join "." (Text.splitAt '.' owner ++ [member]) =
      owner ++ "." ++ member := by
    rw [← Text.splitAt_concat hDot, Text.join_splitAt]
  rw [memberUses, hName]
  refine lookup_concat fun e he => ?_
  have hStart := isStart_of_mem_typeUses (Text.splitAt_ne_nil '.' owner) he
  rw [← hName]
  exact ne_of_isStart hParts hStart

------------------------------------------------------------
-- Additions
------------------------------------------------------------

theorem child_gains
    (table : SymbolTable)
    (owner : Symbol)
    (name : String)
    (kind : SymbolKind) :
    (table.child owner name kind).1.Gains table
      [(Text.join "." (owner.path.reverse ++ [name]), kind)] := by
  rw [← Symbol.childName_eq_join]
  rcases child_cases table owner name kind with
    ⟨known, hFind, hChild⟩ | ⟨-, hChild⟩
  · rw [hChild]
    refine Gains.of_known fun e he => ?_
    obtain rfl := List.mem_singleton.mp he
    exact mem_names_of_find? hFind
  · intro n
    rw [hChild, kindOf?, kindOf?, find?, find?, entries_enter,
      List.find?_append, Option.map_or, Option.map_or]
    congr 1
    by_cases hName : childName owner name = n
    · subst hName
      simp [Symbol.kind]
    · have hOther : (n == childName owner name) = false :=
        beq_false_of_ne (Ne.symm hName)
      simp [hName, List.lookup_cons, hOther]

theorem addParts_gains
    (hSound : table.IsSound)
    (hOwner : table.Knows owner)
    (hParts : ∀ p ∈ parts, '.' ∉ p.toList) :
    (table.addParts owner parts).1.Gains table
      (namespacesAlong owner.path.reverse parts) := by
  induction parts generalizing table owner with
  | nil => exact Gains.of_known (by simp [namespacesAlong])
  | cons part rest ih =>
      rcases List.forall_mem_cons.mp hParts with ⟨hPart, hRest⟩
      have hFirst := child_entered hSound hOwner hPart .nameSpace
      have hLast := ih hFirst.isSound hFirst.knows hRest
      rw [hFirst.path_eq] at hLast
      exact (child_gains table owner part .nameSpace).trans hLast

theorem addNamespace_gains
    (hSound : table.IsSound)
    (fullName : String) :
    (table.addNamespace fullName).1.Gains table
      (namespacesAlong [] (nameParts fullName)) :=
  addParts_gains hSound (Or.inl rfl) fun _ hp =>
    (isSegment_of_mem_nameParts hp).2

theorem typeParts_ne_nil
    (table : SymbolTable)
    (fullName : String) :
    table.typeParts fullName ≠ [] := by
  rw [typeParts]
  split
  · exact List.cons_ne_nil _ _
  · split
    · exact List.concat_ne_nil _ _
    · exact List.concat_ne_nil _ _

/-
  Whether the container is known or not makes no difference:
  what a known name starts with is known already.
-/
theorem addType_gains
    (hSound : table.IsSound)
    (fullName : String) :
    (table.addType fullName).1.Gains table
      (typeUses (table.typeParts fullName)) := by
  rw [typeParts, addType]
  cases hSplit : Text.splitLast '.' fullName with
  | none => exact child_gains table .global fullName .type
  | some pieces =>
      obtain ⟨container, name⟩ := pieces
      dsimp only
      cases hFind : table.find? container with
      | some owner =>
          rw [if_pos (mem_names_of_find? hFind), ← hSound.path_of_find? hFind,
            typeUses, List.dropLast_concat]
          refine (Gains.of_known fun e he => ?_).trans
            (child_gains table owner name .type)
          exact hSound.mem_names_of_isStart (hSound.knows_of_find? hFind)
            (isStart_of_mem_namespacesAlong he)
      | none =>
          have hFirst := addNamespace_entered hSound container
          have hLast := child_gains (table.addNamespace container).1
            (table.addNamespace container).2 name .type
          rw [hFirst.path_eq] at hLast
          rw [if_neg (find?_eq_none_iff.mp hFind), typeUses,
            List.dropLast_concat]
          exact (addNamespace_gains hSound container).trans hLast

theorem addMember_gains
    (hSound : table.IsSound)
    (ownerName name : String)
    (kind : SymbolKind) :
    (table.addMember ownerName name kind).1.Gains table
      (memberUses (table.typeParts ownerName) name kind) := by
  rw [addMember]
  split
  · next owner hOwner =>
      have hFind := (Option.filter_eq_some_iff.mp hOwner).1
      have hLast := child_gains table owner name kind
      rw [hSound.path_of_find? hFind,
        ← typeParts_of_find? hSound hFind] at hLast
      refine (Gains.of_known fun e he => ?_).trans hLast
      have hStart := isStart_of_mem_typeUses
        (table.typeParts_ne_nil ownerName) he
      rw [typeParts_of_find? hSound hFind,
        ← hSound.path_of_find? hFind] at hStart
      exact hSound.mem_names_of_isStart (hSound.knows_of_find? hFind) hStart
  · have hType := addType_entered hSound ownerName
    have hLast := child_gains (table.addType ownerName).1
      (table.addType ownerName).2 name kind
    rw [hType.path_eq] at hLast
    exact (addType_gains hSound ownerName).trans hLast

theorem addReference_gains
    (hSound : table.IsSound)
    (line : String) :
    (table.addReference line).Gains table
      (referenceUses table.typeParts line) := by
  rw [addReference, referenceUses]
  generalize readReference line = reference
  obtain ⟨kind, name⟩ := reference
  cases kind with
  | nameSpace => exact addNamespace_gains hSound name
  | type => exact addType_gains hSound name
  | _ =>
      dsimp only
      cases Text.splitLast '.' name with
      | some pieces => exact addMember_gains hSound pieces.1 pieces.2 _
      | none => exact Gains.of_known (by simp)

------------------------------------------------------------
-- Lists of references
------------------------------------------------------------

/- The lines of a list that say something. -/
def referenceLines (text : String) : List String :=
  ((Text.lines text).map Text.trim).filter isReference

/-
  No segment of the name on the line is empty.  On other lines
  it depends on the table how the name of a type is cut.
-/
def IsPlain (line : String) : Prop :=
  ¬ HasGap (readReference line).2

instance (line : String) : Decidable (IsPlain line) := by
  unfold IsPlain
  infer_instance

theorem typeParts_of_not_hasGap
    (h : ¬ HasGap fullName)
    (table : SymbolTable) :
    table.typeParts fullName = Text.splitAt '.' fullName := by
  rw [typeParts]
  cases hSplit : Text.splitLast '.' fullName with
  | none =>
      exact (Text.splitAt_of_dot_not_mem
        (Text.splitLast_eq_none_iff.mp hSplit)).symm
  | some pieces =>
      have hContainer : ¬ HasGap pieces.1 := fun hGap =>
        h (hGap.of_splitLast hSplit)
      dsimp only
      rw [nameParts_of_not_hasGap hContainer, ite_self,
        Text.splitAt_of_splitLast hSplit]

theorem IsPlain.referenceUses_eq
    (h : IsPlain line)
    (table : SymbolTable) :
    referenceUses table.typeParts line =
      referenceUses (Text.splitAt '.') line := by
  rw [IsPlain] at h
  rw [referenceUses, referenceUses]
  generalize readReference line = reference at h
  obtain ⟨kind, name⟩ := reference
  have hOwner : ∀ pieces, Text.splitLast '.' name = some pieces →
      table.typeParts pieces.1 = Text.splitAt '.' pieces.1 :=
    fun pieces hSplit =>
      typeParts_of_not_hasGap (fun hGap => h (hGap.of_splitLast hSplit)) table
  cases kind with
  | nameSpace => rfl
  | type => exact congrArg typeUses (typeParts_of_not_hasGap h table)
  | _ =>
      dsimp only
      cases hSplit : Text.splitLast '.' name with
      | some pieces => simp only [hOwner pieces hSplit]
      | none => rfl

/-
  The lines of a list, one after the other: the uses of all of
  them count, and on plain lines they are written on the lines.
-/
theorem foldl_gains
    (hSound : table.IsSound)
    (lines : List String) :
    (lines.foldl addReference table).IsSound ∧
    ∃ uses, (lines.foldl addReference table).Gains table uses ∧
      ((∀ l ∈ lines, IsPlain l) →
        uses = lines.flatMap (referenceUses (Text.splitAt '.'))) := by
  induction lines generalizing table with
  | nil => exact ⟨hSound, [], Gains.of_known (by simp), fun _ => rfl⟩
  | cons line rest ih =>
      have hFirst := addReference_gains hSound line
      rcases ih (addReference_isSound hSound line) with
        ⟨hLast, uses, hRest, hUses⟩
      refine ⟨hLast, _, hFirst.trans hRest, fun hPlain => ?_⟩
      rcases List.forall_mem_cons.mp hPlain with ⟨hLine, hOthers⟩
      rw [hLine.referenceUses_eq, hUses hOthers, List.flatMap_cons]

theorem kindOf?_empty
    (n : String) :
    empty.kindOf? n = none := rfl

/- On plain lines, the first use of a name decides about its kind. -/
theorem kindOf?_foldl
    {lines : List String}
    (hPlain : ∀ l ∈ lines, IsPlain l)
    (n : String) :
    (lines.foldl addReference empty).kindOf? n =
      (lines.flatMap (referenceUses (Text.splitAt '.'))).lookup n := by
  rcases foldl_gains IsSound.empty_isSound lines with ⟨-, uses, hGains, hUses⟩
  rw [hGains, hUses hPlain, kindOf?_empty, Option.none_or]

/-
  Where all uses of a name agree, the lines give it this kind
  in every order.
-/
theorem kindOf?_of_agreeing
    {lines arranged : List String}
    (hOrder : arranged.Perm lines)
    (hPlain : ∀ l ∈ lines, IsPlain l)
    (hUsed : (n, kind) ∈ lines.flatMap (referenceUses (Text.splitAt '.')))
    (hAgree : ∀ e ∈ lines.flatMap (referenceUses (Text.splitAt '.')),
      e.1 = n → e.2 = kind) :
    (arranged.foldl addReference empty).kindOf? n = some kind := by
  rw [kindOf?_foldl fun l hl => hPlain l (hOrder.mem_iff.mp hl)]
  have hUses := hOrder.flatMap_right (referenceUses (Text.splitAt '.'))
  have hSome : ((arranged.flatMap
      (referenceUses (Text.splitAt '.'))).lookup n).isSome := by
    rw [List.lookup_isSome_iff]
    exact ⟨(n, kind), hUses.mem_iff.mpr hUsed, beq_self_eq_true n⟩
  rcases Option.isSome_iff_exists.mp hSome with ⟨found, hFound⟩
  rcases List.lookup_eq_some_iff.mp hFound with ⟨before, after, hSplit, -⟩
  have hMem : (n, found) ∈ arranged.flatMap
      (referenceUses (Text.splitAt '.')) := by
    rw [hSplit]
    exact List.mem_append_right _ List.mem_cons_self
  rw [hFound]
  exact congrArg some (hAgree (n, found) (hUses.mem_iff.mp hMem) rfl)

------------------------------------------------------------
-- Symbols
------------------------------------------------------------

theorem lookup_of_kindOf?
    (hSound : table.IsSound)
    (h : table.kindOf? n = some kind) :
    ∃ s, table.find? n = some s ∧ table.lookup n .cSharp = [s] ∧
      s.fullName = n ∧ s.kind = kind := by
  rcases Option.map_eq_some_iff.mp h with ⟨s, hFind, hKind⟩
  refine ⟨s, hFind, ?_, hSound.fullName_eq (mem_entries_of_find? hFind), hKind⟩
  rw [lookup, hFind]
  rfl

/- The container of a symbol has the name in front of the last dot. -/
theorem exists_container
    (hSound : table.IsSound)
    (hDot : '.' ∉ name.toList)
    (h : table.find? (fullName ++ "." ++ name) = some s) :
    ∃ c, s.container? = some c ∧ table.find? fullName = some c := by
  have hPath := hSound.path_of_find? h
  rw [Text.splitAt_concat hDot] at hPath
  cases s with
  | global => simp [Symbol.path] at hPath
  | declared last kind container =>
      rw [Symbol.path, List.reverse_cons] at hPath
      have hOuter := List.append_inj_left' hPath rfl
      have hName : container.fullName = fullName := by
        rw [Symbol.fullName, hOuter, Text.join_splitAt]
      have hSome : container ≠ .global := by
        rintro rfl
        exact Text.splitAt_ne_nil '.' fullName hOuter.symm
      have hKnown := (hSound.knows_containers (hSound.knows_of_find? h)
        container List.mem_cons_self).resolve_left hSome
      rw [hName] at hKnown
      exact ⟨container, rfl, hSound.find?_eq_some_iff.mpr hKnown⟩

/-
  A name that a line uses has, in the end, the kind that the
  lines before give it, and the one on the line if they do not.
-/
theorem kindOf?_of_lookup
    {text : String}
    {rest : List String}
    (hText : referenceLines text = front ++ line :: rest)
    (hUse : (referenceUses (front.foldl addReference empty).typeParts
      line).lookup n = some kind) :
    (ofReferenceList text).kindOf? n =
      some (((front.foldl addReference empty).kindOf? n).getD kind) := by
  let before := front.foldl addReference empty
  have hListed : ofReferenceList text =
      rest.foldl addReference (before.addReference line) := by
    rw [← List.foldl_cons, ← List.foldl_append, ← hText]
    rfl
  have hBefore : before.IsSound := (foldl_gains IsSound.empty_isSound front).1
  have hLine := addReference_gains hBefore line
  rcases foldl_gains (addReference_isSound hBefore line) rest with
    ⟨-, uses, hRest, -⟩
  rw [hListed]
  refine hRest.kindOf?_eq_some ?_
  rw [hLine, hUse]
  cases before.kindOf? n with
  | none => rfl
  | some known => rfl

theorem exists_listed_type
    {text : String}
    {rest : List String}
    (hText : referenceLines text = front ++ line :: rest)
    (hRead : readReference line = (.type, n))
    (hName : ¬ HasGap n) :
    ∃ s, (ofReferenceList text).lookup n .cSharp = [s] ∧ s.fullName = n ∧
      s.kind = ((front.foldl addReference empty).kindOf? n).getD .type := by
  let before := front.foldl addReference empty
  have hUses : referenceUses before.typeParts line =
      typeUses (before.typeParts n) := by
    rw [referenceUses, hRead]
  have hLast : (referenceUses before.typeParts line).lookup n =
      some .type := by
    rw [hUses, typeParts_of_not_hasGap hName, lookup_typeUses]
  rcases lookup_of_kindOf? (ofReferenceList_isSound text)
    (kindOf?_of_lookup hText hLast) with ⟨s, -, hFound, hFull, hs⟩
  exact ⟨s, hFound, hFull, hs⟩

/- The owner of a member is used on the line too, as a type. -/
theorem exists_listed_member
    {text outer member : String}
    {rest : List String}
    (hText : referenceLines text = front ++ line :: rest)
    (hRead : readReference line = (kind, outer ++ "." ++ member))
    (hMember : kind.isMember = true)
    (hDot : '.' ∉ member.toList)
    (hOuter : ¬ HasGap outer) :
    let before := front.foldl addReference empty
    let listed := ofReferenceList text
    ∃ s c, listed.lookup (outer ++ "." ++ member) .cSharp = [s] ∧
      s.fullName = outer ++ "." ++ member ∧
      s.kind = (before.kindOf? (outer ++ "." ++ member)).getD kind ∧
      s.container? = some c ∧ c.fullName = outer ∧
      c.kind = (before.kindOf? outer).getD .type := by
  intro before listed
  have hSound : listed.IsSound := ofReferenceList_isSound text
  have hUses : referenceUses before.typeParts line =
      memberUses (Text.splitAt '.' outer) member kind := by
    rw [referenceUses_of_member hRead hMember hDot,
      typeParts_of_not_hasGap hOuter before]
  have hLast : (referenceUses before.typeParts line).lookup
      (outer ++ "." ++ member) = some kind := by
    rw [hUses, lookup_memberUses hDot]
  have hFirst : (referenceUses before.typeParts line).lookup outer =
      some .type := by
    rw [hUses, lookup_owner_memberUses]
  have hOuterKind := kindOf?_of_lookup hText hFirst
  rcases lookup_of_kindOf? hSound (kindOf?_of_lookup hText hLast) with
    ⟨s, hFind, hFound, hFull, hs⟩
  rcases exists_container hSound hDot hFind with ⟨c, hContainer, hFindOuter⟩
  rw [kindOf?, hFindOuter] at hOuterKind
  exact ⟨s, c, hFound, hFull, hs, hContainer,
    hSound.fullName_eq (mem_entries_of_find? hFindOuter),
    Option.some.inj hOuterKind⟩

/-
  What a line lists has the kind that the lines before it give
  its name, and the one on the line if they do not use it.
  The same holds of the type that a member stands in.
-/
theorem kinds_of_references
    {text : String}
    {rest : List String}
    (hText : referenceLines text = front ++ line :: rest) :
    let before := front.foldl addReference empty
    let listed := ofReferenceList text
    (∀ n, readReference line = (.type, n) → ¬ HasGap n →
      ∃ s, listed.lookup n .cSharp = [s] ∧ s.fullName = n ∧
        s.kind = (before.kindOf? n).getD .type) ∧
    (∀ owner member kind,
      readReference line = (kind, owner ++ "." ++ member) →
      kind.isMember = true → '.' ∉ member.toList → ¬ HasGap owner →
      ∃ s c, listed.lookup (owner ++ "." ++ member) .cSharp = [s] ∧
        s.fullName = owner ++ "." ++ member ∧
        s.kind = (before.kindOf? (owner ++ "." ++ member)).getD kind ∧
        s.container? = some c ∧ c.fullName = owner ∧
        c.kind = (before.kindOf? owner).getD .type) ∧
    ((∀ l ∈ front, IsPlain l) → ∀ n, before.kindOf? n =
      (front.flatMap (referenceUses (Text.splitAt '.'))).lookup n) := by
  intro before listed
  refine ⟨fun n hRead hName => exists_listed_type hText hRead hName, ?_,
    kindOf?_foldl⟩
  intro owner member kind hRead hMember hDot hOwner
  exact exists_listed_member hText hRead hMember hDot hOwner

/- A member of a nested type, listed before the outer type. -/
theorem kinds_of_nested :
    let listed := ofReferenceList "P:A.B.M\nT:A\n"
    (∃ s c, listed.lookup "A.B.M" .cSharp = [s] ∧ s.kind = .property ∧
      s.container? = some c ∧ c.fullName = "A.B" ∧ c.kind = .type) ∧
    (∃ s, listed.lookup "A" .cSharp = [s] ∧ s.kind = .nameSpace) := by
  intro listed
  constructor
  · have hText : referenceLines "P:A.B.M\nT:A\n" = [] ++ "P:A.B.M" :: ["T:A"] := by
      decide +kernel
    rcases (kinds_of_references hText).2.1 "A.B" "M" .property
      (by decide +kernel) rfl (by decide) (by decide +kernel) with
      ⟨s, c, hFound, -, hKind, hContainer, hFull, hOuter⟩
    exact ⟨s, c, hFound, hKind, hContainer, hFull, hOuter⟩
  · have hText : referenceLines "P:A.B.M\nT:A\n" = ["P:A.B.M"] ++ "T:A" :: [] := by
      decide +kernel
    rcases (kinds_of_references hText).1 "A" (by decide +kernel)
      (by decide +kernel) with ⟨s, hFound, -, hKind⟩
    have hUsed : (["P:A.B.M"].foldl addReference empty).kindOf? "A" =
        some .nameSpace := by
      decide +kernel
    rw [hUsed] at hKind
    exact ⟨s, hFound, hKind⟩

/-
  No name on the list is listed in two kinds, and a type that
  is listed is found as a namespace; in the other order of the
  lines it is found as a type.
-/
theorem kind_ne_of_listed_later :
    (referenceLines "T:A.B\nT:A\n").map readReference =
      [(.type, "A.B"), (.type, "A")] ∧
    ((ofReferenceList "T:A.B\nT:A\n").lookup "A" .cSharp).map Symbol.kind =
      [.nameSpace] ∧
    ((ofReferenceList "T:A\nT:A.B\n").lookup "A" .cSharp).map Symbol.kind =
      [.type] := by
  decide +kernel

end SymbolTable

end Retarget
