import Mathlib.Data.List.Perm.Subperm
import Retarget.Source.CSharp.Collector
import Retarget.Proofs.Source.Name

/-
  This file shows that what is collected from a C# syntax
  tree fits the text if the tree does.  An identifier of the
  tree gives one name at most, and the full span of a name
  starts where its qualifier does.

  Key definitions include:
    * `CSharp.SyntaxNode.IsOf`
    * `CSharp.SyntaxNode.identifiers`
    * `CSharp.Collects`
    * `CSharp.Visitor.IsFor`
    * `CSharp.Grammar.Respects`

  Key statements include:
    * `CSharp.Visitor.isFor_ofNode`
    * `CSharp.SyntaxNode.visitor_isFor`
    * `CSharp.parts_fits`
-/

namespace Retarget.CSharp

variable {text : List Char}

------------------------------------------------------------
-- Trees of a text
------------------------------------------------------------

namespace SyntaxNode

variable {node first second : SyntaxNode}
variable {nodes : List SyntaxNode}
variable {p q : SyntaxNode → Bool}

/- The child stands left of the dot of the node. -/
def IsLeft (node child : SyntaxNode) : Prop :=
  node.kind = "qualified_name" ∧ child.field = some "qualifier" ∨
    node.kind = "member_access_expression" ∧ child.field = some "expression"

/-
  The nodes of the tree lie in the text, and identifiers on
  one line of it.  No identifier starts in front of the node
  that it is in, and what is left of a dot does not start
  behind the name on the right.
-/
inductive IsOf (text : List Char) : SyntaxNode → Prop
  | node
      {node : SyntaxNode}
      (isIn : node.span.IsIn text)
      (isOnLine : node.kind = "identifier" → node.span.IsOnLine text)
      (start_le : ∀ child ∈ node.children, child.kind = "identifier" →
        node.span.start ≤ child.span.start)
      (left_le : ∀ left ∈ node.children, node.IsLeft left →
        ∀ right ∈ node.children, right.field = some "name" →
          left.span.start ≤ right.span.start)
      (children : ∀ child ∈ node.children, IsOf text child) :
      IsOf text node

mutual

/- Where the identifiers of a tree are. -/
def identifiers : SyntaxNode → List Span
  | ⟨kind, _, _, span, children⟩ =>
    if kind = "identifier" then span :: identifiersIn children
    else identifiersIn children

def identifiersIn : List SyntaxNode → List Span
  | [] => []
  | node :: rest => node.identifiers ++ identifiersIn rest

end

theorem identifiersIn_children_sublist :
    (identifiersIn node.children).Sublist node.identifiers := by
  rcases node with ⟨kind, field, isNamed, span, children⟩
  rw [identifiers]
  split
  · exact List.sublist_cons_self _ _
  · exact List.Sublist.refl _

theorem span_sublist
    (hKind : node.kind = "identifier") :
    [node.span].Sublist node.identifiers := by
  rcases node with ⟨kind, field, isNamed, span, children⟩
  rw [identifiers, if_pos hKind]
  exact List.singleton_sublist.mpr List.mem_cons_self

theorem identifiersIn_append
    (others : List SyntaxNode) :
    identifiersIn (nodes ++ others) =
      identifiersIn nodes ++ identifiersIn others := by
  induction nodes with
  | nil => rfl
  | cons node rest ih =>
      rw [List.cons_append, identifiersIn, identifiersIn, ih, List.append_assoc]

theorem identifiersIn_sublist
    {others : List SyntaxNode}
    (h : nodes.Sublist others) :
    (identifiersIn nodes).Sublist (identifiersIn others) := by
  induction h with
  | slnil => exact List.Sublist.refl _
  | cons node _ ih => exact ih.trans (List.sublist_append_right _ _)
  | cons_cons node _ ih => exact (List.Sublist.refl _).append ih

theorem identifiers_sublist
    (h : node ∈ nodes) :
    node.identifiers.Sublist (identifiersIn nodes) := by
  have hOne := identifiersIn_sublist (List.singleton_sublist.mpr h)
  rwa [identifiersIn, identifiersIn, List.append_nil] at hOne

/- A node that is found and the nodes left without it. -/
theorem identifiersIn_perm
    (h : nodes.find? p = some node) :
    (node.identifiers ++ identifiersIn (nodes.eraseP p)).Perm
      (identifiersIn nodes) := by
  rcases List.find?_eq_some_iff_append.mp h with
    ⟨hPasses, before, behind, rfl, hOthers⟩
  rw [List.eraseP_append_right _ (fun n hn => by simpa using hOthers n hn),
    List.eraseP_cons_of_pos hPasses, identifiersIn_append, identifiersIn_append,
    identifiersIn]
  exact List.perm_append_comm_assoc _ _ _

/- Two nodes that are found in different ways. -/
theorem identifiers_subperm
    (hFirst : nodes.find? p = some first)
    (hSecond : nodes.find? q = some second)
    (hOther : p second = false) :
    (first.identifiers ++ second.identifiers).Subperm (identifiersIn nodes) := by
  have hLeft : second ∈ nodes.eraseP p :=
    (List.mem_eraseP_of_neg (by simp [hOther])).mpr
      (List.mem_of_find?_eq_some hSecond)
  exact ((List.Sublist.refl _).append (identifiers_sublist hLeft)).subperm.trans
    (identifiersIn_perm hFirst).subperm

end SyntaxNode

------------------------------------------------------------
-- What an action collects
------------------------------------------------------------

/- The name lies in the text as a name that fits it. -/
structure IsPlaced (text : List Char) (name : NameNode) : Prop where
  isIn : name.fullSpan.IsIn text
  isOnLine : name.span.IsOnLine text
  start_le : name.fullSpan.start ≤ name.span.start
  stop_eq : name.fullSpan.stop = name.span.stop
  eq_of_unqualified : name.qualifier = none → name.fullSpan = name.span

/-
  The action adds names, each at another one of some spans,
  and imports that end between characters.
-/
def Collects
    (text : List Char)
    (spans : List Span)
    (act : Action) : Prop :=
  ∀ c, ∃ names imports,
    (act c).parts.names = c.parts.names ++ names ∧
    (act c).parts.importSpans = c.parts.importSpans ++ imports ∧
    (names.map NameNode.span).Subperm spans ∧
    (∀ name ∈ names, IsPlaced text name) ∧
    ∀ s ∈ imports, Text.isBoundary s.stop text = true

namespace Collects

variable {spans others : List Span}
variable {act next : Action}

theorem none :
    Collects text [] id :=
  fun _ => ⟨[], [], by simp, by simp, .refl _, by simp, by simp⟩

theorem mono
    (h : Collects text spans act)
    (hMore : spans.Subperm others) :
    Collects text others act := by
  intro c
  rcases h c with ⟨names, imports, hNames, hImports, hSpans, hRest⟩
  exact ⟨names, imports, hNames, hImports, hSpans.trans hMore, hRest⟩

theorem andThen
    (h : Collects text spans act)
    (hNext : Collects text others next) :
    Collects text (spans ++ others) fun c => next (act c) := by
  intro c
  rcases h c with ⟨names, imports, hNames, hImports, hSpans, hPlaced, hEnds⟩
  rcases hNext (act c) with
    ⟨more, further, hMore, hFurther, hOthers, hMorePlaced, hFurtherEnds⟩
  refine ⟨names ++ more, imports ++ further, ?_, ?_, ?_, ?_, ?_⟩
  · rw [hMore, hNames, List.append_assoc]
  · rw [hFurther, hImports, List.append_assoc]
  · rw [List.map_append]
    exact hSpans.append hOthers
  · exact List.forall_mem_append.mpr ⟨hPlaced, hMorePlaced⟩
  · exact List.forall_mem_append.mpr ⟨hEnds, hFurtherEnds⟩

theorem enter
    (name : String)
    (span : Span) :
    Collects text [] fun c => c.enter name span :=
  Collects.none

theorem addType
    (name : String) :
    Collects text [] fun c => c.addType name :=
  Collects.none

theorem leave
    (h : Collects text spans act) :
    Collects text spans fun c => (act c).leave :=
  h

theorem addIdentifier
    {span : Span}
    {start : Option Nat}
    (hIn : span.IsIn text)
    (hLine : span.IsOnLine text)
    (hStart : ∀ s, start = some s →
      Text.isBoundary s text = true ∧ s ≤ span.start)
    (qualifier : Option String)
    (context : NameContext)
    (isGeneric : Bool) :
    Collects text [span] fun c =>
      c.addIdentifier text span qualifier start context isGeneric := by
  intro c
  refine ⟨_, [], rfl, (List.append_nil _).symm, .refl _, ?_, by simp⟩
  refine List.forall_mem_singleton.mpr ?_
  cases qualifier with
  | none => exact ⟨hIn, hLine, le_rfl, rfl, fun _ => rfl⟩
  | some qualifier =>
      cases start with
      | none => exact ⟨hIn, hLine, le_rfl, rfl, fun _ => rfl⟩
      | some start =>
          rcases hStart start rfl with ⟨hBoundary, hOrder⟩
          exact ⟨⟨hOrder.trans hIn.start_le_stop, hBoundary, hIn.stop_isBoundary⟩,
            hLine, hOrder, rfl, fun hNone => by cases hNone⟩

theorem addImport
    {span : Span}
    (hIn : span.IsIn text)
    (target : Option String) :
    Collects text [] fun c => c.addImport span target := by
  intro c
  refine ⟨[], [span], (List.append_nil _).symm, rfl, .refl _, by simp, ?_⟩
  exact List.forall_mem_singleton.mpr hIn.stop_isBoundary

end Collects

------------------------------------------------------------
-- Visitors of nodes
------------------------------------------------------------

namespace SyntaxNode

variable (node : SyntaxNode)
variable (text : List Char)

theorem visitors_eq
    (nodes : List SyntaxNode) :
    visitors text nodes = nodes.map (visitor text) := by
  induction nodes with
  | nil => rfl
  | cons node rest ih => rw [visitors, ih, List.map_cons]

theorem visitor_eq :
    node.visitor text =
      .ofNode text node.kind node.span (node.children.map (visitor text))
        node.field node.isNamed := by
  rcases node with ⟨kind, field, isNamed, span, children⟩
  rw [visitor, visitors_eq]

@[simp]
theorem visitor_kind :
    (node.visitor text).kind = node.kind := by
  rw [visitor_eq, Visitor.ofNode]

@[simp]
theorem visitor_field :
    (node.visitor text).field = node.field := by
  rw [visitor_eq, Visitor.ofNode]

@[simp]
theorem visitor_span :
    (node.visitor text).span = node.span := by
  rw [visitor_eq, Visitor.ofNode]

end SyntaxNode

namespace Visitor

open SyntaxNode

/-
  The visitor collects from the node.  Behind a qualifier it
  need know that the qualifier does not start behind it.
-/
structure IsFor
    (text : List Char)
    (node : SyntaxNode)
    (v : Visitor) : Prop where
  visit : Collects text node.identifiers v.visit
  visitChildren : Collects text node.identifiers v.visitChildren
  visitName :
    ∀ context, Collects text node.identifiers (v.visitName context)
  visitRight :
    ∀ qualifier start context,
      (∀ s, start = some s →
        Text.isBoundary s text = true ∧ s ≤ node.span.start) →
        Collects text node.identifiers (v.visitRight qualifier start context)

/- Act on the first node that passes. -/
def onFound
    (nodes : List Visitor)
    (p : Visitor → Bool)
    (act : Visitor → Action) : Action := fun c =>
  match nodes.find? p with
  | some node => act node c
  | none => c

section Children

variable {nodes : List SyntaxNode}
variable {visitors : List Visitor}
variable {v : Visitor}
variable {p q : Visitor → Bool}
variable {f g : Visitor → Action}

theorem onFound_eq
    (h : visitors.find? p = some v) :
    onFound visitors p f = f v := by
  funext c
  rw [onFound, h]

theorem onFound_eq_id
    (h : visitors.find? p = none) :
    onFound visitors p f = id := by
  funext c
  rw [onFound, h]
  rfl

/- What is found among the visitors of nodes visits one of them. -/
theorem exists_of_find?
    (h : (nodes.map (visitor text)).find? p = some v) :
    ∃ node ∈ nodes, p (node.visitor text) = true ∧
      nodes.find? (p ∘ visitor text) = some node ∧ v = node.visitor text := by
  rw [List.find?_map, Option.map_eq_some_iff] at h
  rcases h with ⟨node, hFound, rfl⟩
  have hPasses := List.find?_some (p := p ∘ visitor text) hFound
  exact ⟨node, List.mem_of_find?_eq_some hFound, hPasses, hFound, rfl⟩

theorem collects_onFound
    (h : ∀ node ∈ nodes, p (node.visitor text) = true →
      Collects text node.identifiers (f (node.visitor text))) :
    Collects text (identifiersIn nodes)
      (onFound (nodes.map (visitor text)) p f) := by
  cases hFound : (nodes.map (visitor text)).find? p with
  | none =>
      rw [onFound_eq_id hFound]
      exact Collects.none.mono List.nil_subperm
  | some v =>
      rcases exists_of_find? hFound with ⟨node, hNode, hPasses, -, rfl⟩
      rw [onFound_eq hFound]
      exact (h node hNode hPasses).mono (identifiers_sublist hNode).subperm

/- Act on two nodes, of which the second is not the first. -/
theorem collects_onFound_onFound
    (hApart : ∀ v, q v = true → p v = false)
    (h : ∀ node ∈ nodes, p (node.visitor text) = true →
      Collects text node.identifiers (f (node.visitor text)))
    (hNext : ∀ node ∈ nodes, q (node.visitor text) = true →
      Collects text node.identifiers (g (node.visitor text))) :
    Collects text (identifiersIn nodes) fun c =>
      onFound (nodes.map (visitor text)) q g
        (onFound (nodes.map (visitor text)) p f c) := by
  cases hFound : (nodes.map (visitor text)).find? p with
  | none =>
      rw [onFound_eq_id hFound]
      exact collects_onFound hNext
  | some v =>
      cases hOther : (nodes.map (visitor text)).find? q with
      | none =>
          rw [onFound_eq_id hOther]
          exact collects_onFound h
      | some w =>
          rcases exists_of_find? hFound with
            ⟨first, hFirst, hPasses, hFoundFirst, rfl⟩
          rcases exists_of_find? hOther with
            ⟨second, hSecond, hOtherPasses, hFoundSecond, rfl⟩
          rw [onFound_eq hFound, onFound_eq hOther]
          refine ((h first hFirst hPasses).andThen
            (hNext second hSecond hOtherPasses)).mono ?_
          exact identifiers_subperm hFoundFirst hFoundSecond
            (hApart _ hOtherPasses)

theorem collects_visitAll
    (h : ∀ node ∈ nodes,
      Collects text node.identifiers (node.visitor text).visit) :
    Collects text (identifiersIn nodes)
      (visitAll (nodes.map (visitor text))) := by
  induction nodes with
  | nil => exact Collects.none
  | cons node rest ih =>
      rcases List.forall_mem_cons.mp h with ⟨hNode, hRest⟩
      have hOthers := ih hRest
      rw [identifiersIn]
      cases hNamed : (node.visitor text).isNamed with
      | false =>
          have hSkip : visitAll ((node :: rest).map (visitor text)) =
              visitAll (rest.map (visitor text)) := by
            funext c
            simp [visitAll, hNamed]
          rw [hSkip]
          exact hOthers.mono (List.sublist_append_right _ _).subperm
      | true =>
          have hVisit : visitAll ((node :: rest).map (visitor text)) = fun c =>
              visitAll (rest.map (visitor text)) ((node.visitor text).visit c) := by
            funext c
            simp [visitAll, hNamed]
          rw [hVisit]
          exact hNode.andThen hOthers

/- Visit the nodes without one that passes. -/
theorem collects_eraseP
    (h : ∀ node ∈ nodes,
      Collects text node.identifiers (node.visitor text).visit)
    (p : Visitor → Bool) :
    Collects text (identifiersIn (nodes.eraseP (p ∘ visitor text)))
      (visitAll ((nodes.map (visitor text)).eraseP p)) := by
  rw [List.eraseP_map]
  exact collects_visitAll fun node hNode => h node (List.mem_of_mem_eraseP hNode)

/- Act on one node and visit the others. -/
theorem collects_onFound_eraseP
    (h : ∀ node ∈ nodes, p (node.visitor text) = true →
      Collects text node.identifiers (f (node.visitor text)))
    (hVisit : ∀ node ∈ nodes,
      Collects text node.identifiers (node.visitor text).visit) :
    Collects text (identifiersIn nodes) fun c =>
      visitAll ((nodes.map (visitor text)).eraseP p)
        (onFound (nodes.map (visitor text)) p f c) := by
  cases hFound : (nodes.map (visitor text)).find? p with
  | none =>
      rw [onFound_eq_id hFound]
      exact (collects_eraseP hVisit p).mono
        (identifiersIn_sublist List.eraseP_sublist).subperm
  | some v =>
      rcases exists_of_find? hFound with
        ⟨node, hNode, hPasses, hFoundNode, rfl⟩
      rw [onFound_eq hFound]
      exact ((h node hNode hPasses).andThen (collects_eraseP hVisit p)).mono
        (identifiersIn_perm hFoundNode).subperm

end Children

------------------------------------------------------------
-- Nodes of each kind
------------------------------------------------------------

section Nodes

variable {node : SyntaxNode}

/- What a visitor of each child gives. -/
abbrev VisitsChildren (text : List Char) (node : SyntaxNode) : Prop :=
  ∀ child ∈ node.children, (child.visitor text).IsFor text child

theorem collects_visitUnnamed
    (h : VisitsChildren text node) :
    Collects text (identifiersIn node.children)
      (visitUnnamed (node.children.map (visitor text))) :=
  (collects_eraseP (fun child hChild => (h child hChild).visit) _).mono
    (identifiersIn_sublist List.eraseP_sublist).subperm

theorem collects_visitUndeclared
    (h : VisitsChildren text node)
    (kind : String) :
    Collects text (identifiersIn node.children)
      (visitUndeclared kind (node.children.map (visitor text))) := by
  have hVisit : ∀ child ∈ node.children,
      Collects text child.identifiers (child.visitor text).visit :=
    fun child hChild => (h child hChild).visit
  unfold visitUndeclared
  split_ifs
  · exact collects_visitUnnamed h
  · exact (collects_eraseP hVisit _).mono
      (identifiersIn_sublist List.eraseP_sublist).subperm
  · exact collects_visitAll hVisit
  · exact collects_visitAll hVisit

/- A name with type arguments; its identifier is not one of them. -/
theorem collects_visitGeneric
    (hNode : node.IsOf text)
    (h : VisitsChildren text node)
    (qualifier : Option String)
    {start : Option Nat}
    (hStart : ∀ s, start = some s →
      Text.isBoundary s text = true ∧ s ≤ node.span.start)
    (context : NameContext) :
    Collects text (identifiersIn node.children)
      (visitGeneric text (node.children.map (visitor text)) qualifier start
        context) := by
  rcases hNode with ⟨hIn, -, hInside, -, hChildren⟩
  refine collects_onFound_onFound (p := isOfKind "identifier")
    (q := isOfKind "type_argument_list")
    (f := fun v c => c.addIdentifier text v.span qualifier start context true)
    (g := visitChildren) ?_ ?_ ?_
  · intro v hKind
    simp only [isOfKind, Bool.and_eq_true, beq_iff_eq] at hKind
    simp [isOfKind, hKind.2]
  · intro child hChild hKind
    have hIdentifier : child.kind = "identifier" := by
      simpa [isOfKind] using (Bool.and_eq_true_iff.mp hKind).2
    rcases hChildren child hChild with ⟨hOwn, hLine, -, -, -⟩
    rw [visitor_span]
    refine (Collects.addIdentifier hOwn (hLine hIdentifier) ?_ qualifier context
      true).mono (span_sublist hIdentifier).subperm
    intro s hs
    rcases hStart s hs with ⟨hBoundary, hOrder⟩
    exact ⟨hBoundary, hOrder.trans (hInside child hChild hIdentifier)⟩
  · exact fun child hChild _ => (h child hChild).visitChildren

/-
  The two sides of a dot.  The qualifier starts in front of
  the name.
-/
theorem collects_visitRightOf
    (hNode : node.IsOf text)
    (h : VisitsChildren text node)
    {field : String}
    (hOther : field ≠ "name")
    (hSide : ∀ child, child.field = some field → node.IsLeft child)
    {f : Visitor → Action}
    (hLeft : ∀ child ∈ node.children,
      Collects text child.identifiers (f (child.visitor text)))
    (context : NameContext) :
    Collects text (identifiersIn node.children) fun c =>
      visitRightOf (node.children.map (visitor text))
        ((node.children.map (visitor text)).find? (inField field)) context
        (onFound (node.children.map (visitor text)) (inField field) f c) := by
  rcases hNode with ⟨-, -, -, hOrder, hChildren⟩
  refine collects_onFound_onFound (q := inField "name")
    (g := fun v => v.visitRight _ _ context) ?_ (fun child hChild _ =>
      hLeft child hChild) ?_
  · intro v hName
    have hOwn : v.field = some "name" := by
      simpa [inField] using hName
    simpa [inField, hOwn] using hOther.symm
  · intro right hRight hName
    refine (h right hRight).visitRight _ _ context fun s hs => ?_
    rcases Option.map_eq_some_iff.mp hs with ⟨v, hFound, rfl⟩
    rcases exists_of_find? hFound with ⟨left, hMem, hPasses, -, rfl⟩
    have hOwn := hSide left (by simpa [inField] using hPasses)
    rcases hChildren left hMem with ⟨hIn, -, -, -, -⟩
    rw [visitor_span]
    exact ⟨hIn.start_isBoundary,
      hOrder left hMem hOwn right hRight (by simpa [inField] using hName)⟩

/- The names of a dotted name. -/
theorem collects_visitNameOf?
    (hNode : node.IsOf text)
    (h : VisitsChildren text node)
    (context : NameContext)
    {act : Action}
    (hAct : visitNameOf? text node.kind node.span
      (node.children.map (visitor text)) context = some act) :
    Collects text node.identifiers act := by
  unfold visitNameOf? at hAct
  split at hAct
  · rename_i hKind
    cases hAct
    rcases hNode with ⟨hIn, hLine, -, -, -⟩
    exact (Collects.addIdentifier hIn (hLine hKind) (by simp) none context
      false).mono (span_sublist hKind).subperm
  · cases hAct
    exact (collects_visitGeneric hNode h none (by simp) context).mono
      identifiersIn_children_sublist.subperm
  · rename_i hKind
    cases hAct
    exact (collects_visitRightOf hNode h (by decide)
      (fun child hField => Or.inl ⟨hKind, hField⟩)
      (fun child hChild => (h child hChild).visitName (leftContext context))
      (rightContext context)).mono identifiersIn_children_sublist.subperm
  · rename_i hKind
    cases hAct
    exact (collects_visitRightOf hNode h (by decide)
      (fun child hField => Or.inr ⟨hKind, hField⟩)
      (fun child hChild => (h child hChild).visit) .memberAccess).mono
        identifiersIn_children_sublist.subperm
  · cases hAct
    exact (collects_onFound (p := inField "name")
      (f := fun v => v.visitName context) fun child hChild _ =>
        (h child hChild).visitName context).mono
          identifiersIn_children_sublist.subperm
  · cases hAct

theorem collects_visitAttribute
    (h : VisitsChildren text node) :
    Collects text (identifiersIn node.children)
      (visitAttribute (node.children.map (visitor text))) :=
  collects_onFound_eraseP (p := inField "name")
    (f := fun v => v.visitName .attribute)
    (fun child hChild _ => (h child hChild).visitName .attribute)
    fun child hChild => (h child hChild).visit

theorem collects_visitUsing
    (hNode : node.IsOf text)
    (h : VisitsChildren text node) :
    Collects text (identifiersIn node.children)
      (visitUsing text node.span (node.children.map (visitor text))) := by
  rcases hNode with ⟨hIn, -, -, -, -⟩
  cases hTarget : (((node.children.map (visitor text)).eraseP
      (inField "name")).filter fun n =>
        n.isNamed && importTargetKinds.contains n.kind).getLast? with
  | none =>
      unfold visitUsing
      simp only [hTarget]
      exact Collects.none.mono List.nil_subperm
  | some target =>
      have hMem := List.mem_of_mem_eraseP
        (List.mem_of_mem_filter (List.mem_of_getLast? hTarget))
      rcases List.mem_map.mp hMem with ⟨child, hChild, rfl⟩
      unfold visitUsing
      simp only [hTarget]
      exact ((Collects.addImport hIn _).andThen
        ((h child hChild).visitName .imported)).mono
          (identifiers_sublist hChild).subperm

theorem collects_enter
    (h : VisitsChildren text node)
    (name : String)
    (span : Span) :
    Collects text (identifiersIn node.children) fun c =>
      visitUnnamed (node.children.map (visitor text)) (c.enter name span) :=
  (Collects.enter name span).andThen (collects_visitUnnamed h)

theorem collects_visitNamespace
    (h : VisitsChildren text node)
    (kind : String) :
    Collects text (identifiersIn node.children)
      (visitNamespace text kind node.span (node.children.map (visitor text))) := by
  cases hFound : (node.children.map (visitor text)).find? (inField "name") with
  | none =>
      unfold visitNamespace
      simp only [hFound]
      exact collects_visitAll fun child hChild => (h child hChild).visit
  | some name =>
      unfold visitNamespace
      simp only [hFound]
      split_ifs
      · exact (collects_enter h _ _).leave
      · exact (collects_enter h _ _).leave
      · exact collects_enter h _ _
      · exact collects_enter h _ _

theorem collects_visitType
    (h : VisitsChildren text node) :
    Collects text (identifiersIn node.children)
      (visitType text (node.children.map (visitor text))) := by
  cases hFound : (node.children.map (visitor text)).find? (inField "name") with
  | none =>
      unfold visitType
      simp only [hFound]
      exact collects_visitAll fun child hChild => (h child hChild).visit
  | some name =>
      unfold visitType
      simp only [hFound]
      exact (Collects.addType _).andThen (collects_visitUnnamed h)

/- Collect from a node of any kind. -/
theorem collects_visitOf
    (hNode : node.IsOf text)
    (h : VisitsChildren text node) :
    Collects text node.identifiers
      (visitOf text node.kind node.span (node.children.map (visitor text))) := by
  have hMore : (identifiersIn node.children).Subperm node.identifiers :=
    identifiersIn_children_sublist.subperm
  unfold visitOf
  split
  · exact (collects_visitUsing hNode h).mono hMore
  · exact (collects_visitNamespace h _).mono hMore
  · exact (collects_visitNamespace h _).mono hMore
  · exact (collects_visitAttribute h).mono hMore
  · split_ifs
    · exact (collects_visitType h).mono hMore
    · cases hAct : visitNameOf? text node.kind node.span
          (node.children.map (visitor text)) .simple with
      | none => exact (collects_visitUndeclared h node.kind).mono hMore
      | some act => exact collects_visitNameOf? hNode h .simple hAct

/- The visitor of a node collects from it if those of its children do. -/
theorem isFor_ofNode
    (hNode : node.IsOf text)
    (h : VisitsChildren text node) :
    (node.visitor text).IsFor text node := by
  have hMore : (identifiersIn node.children).Subperm node.identifiers :=
    identifiersIn_children_sublist.subperm
  have hVisit := collects_visitOf hNode h
  rw [visitor_eq]
  refine ⟨hVisit, ?_, fun context => ?_, fun qualifier start context hStart => ?_⟩
  · exact (collects_visitAll fun child hChild => (h child hChild).visit).mono hMore
  · cases hAct : visitNameOf? text node.kind node.span
        (node.children.map (visitor text)) context with
    | none => simpa only [ofNode, hAct, Option.getD_none] using hVisit
    | some act =>
        simpa only [ofNode, hAct, Option.getD_some] using
          collects_visitNameOf? hNode h context hAct
  · simp only [ofNode]
    split
    · rename_i hKind
      rcases hNode with ⟨hIn, hLine, -, -, -⟩
      exact (Collects.addIdentifier hIn (hLine hKind) hStart qualifier context
        false).mono (span_sublist hKind).subperm
    · exact (collects_visitGeneric hNode h qualifier hStart context).mono hMore
    · exact hVisit

end Nodes

end Visitor

------------------------------------------------------------
-- Reports
------------------------------------------------------------

/- The visitor of a tree collects from it. -/
theorem SyntaxNode.visitor_isFor
    {node : SyntaxNode}
    (h : node.IsOf text) :
    (node.visitor text).IsFor text node := by
  induction h with
  | node isIn isOnLine start_le left_le children ih =>
      exact Visitor.isFor_ofNode
        (.node isIn isOnLine start_le left_le children) ih

/-
  What the grammar makes of the text is a tree of the text,
  and no two identifiers in it end at one place.
-/
structure Grammar.Respects [Grammar] (text : String) : Prop where
  isOf : (Grammar.parse text).IsOf text.toList
  stops_nodup : ((Grammar.parse text).identifiers.map Span.stop).Nodup

/- What is collected fits a text that the grammar respects. -/
theorem parts_fits
    [Grammar]
    {text : String}
    (h : Grammar.Respects text) :
    (parts text).Fits text.toList := by
  rcases (SyntaxNode.visitor_isFor h.isOf).visit {} with
    ⟨names, imports, hNames, hImports, hSpans, hPlaced, hEnds⟩
  obtain rfl : (parts text).names = names := hNames
  obtain rfl : (parts text).importSpans = imports := hImports
  have hOwnStops : ((parts text).names.map fun n => n.span.stop).Nodup := by
    rcases hSpans with ⟨spans, hPerm, hSublist⟩
    have hNodup := (hPerm.map Span.stop).nodup_iff.mp
      ((hSublist.map Span.stop).nodup h.stops_nodup)
    rwa [List.map_map] at hNodup
  exact
    { isIn := fun name hName => (hPlaced name hName).isIn
      isOnLine := fun name hName => (hPlaced name hName).isOnLine
      start_le := fun name hName => (hPlaced name hName).start_le
      stop_eq := fun name hName => (hPlaced name hName).stop_eq
      eq_of_unqualified := fun name hName =>
        (hPlaced name hName).eq_of_unqualified
      apart := (List.pairwise_map.mp hOwnStops).imp_of_mem fun ha hb hStop =>
        NameNode.isApart_of_stop_ne (hPlaced _ ha).stop_eq
          (hPlaced _ hb).stop_eq hStop
      isImport := hEnds }

/- A name behind a qualifier. -/
example :
    let part : String → Span → SyntaxNode := fun field span =>
      ⟨"identifier", some field, true, span, []⟩
    let _ : Grammar :=
      ⟨fun _ => ⟨"qualified_name", none, true, ⟨0, 3⟩,
        [part "qualifier" ⟨0, 1⟩, part "name" ⟨2, 3⟩]⟩⟩
    (parts "N.T").names.map NameNode.fullSpan = [⟨0, 1⟩, ⟨0, 3⟩] := by
  rfl

end Retarget.CSharp
