import Retarget.Analysis.FixHint
import Retarget.Proofs.Dictionary
import Retarget.Proofs.Sequence

/-
  This file says which hints belong to a diagnostic and
  shows that those are read back from its bag as they were
  put in.  Analyzers and fixers meet at this contract.

  Key definitions include:
    * `FixHint.Suits`
    * `FixHint.Tells`

  Key statements include:
    * `FixHint.ofProperties_eq_ok_iff`
    * `FixHint.ofProperties_toProperties`
-/

namespace Retarget

theorem FixKind.ofTitle?_eq_some_iff
    {title : String}
    {kind : FixKind} :
    ofTitle? title = some kind ↔ title = kind.title := by
  constructor
  · intro h
    unfold ofTitle? at h
    split at h <;> cases h
    all_goals rfl
  · rintro rfl
    exact ofTitle?_title kind

namespace FixHint

variable {id : String}
variable {hint : FixHint}
variable {bag : Dictionary String}

------------------------------------------------------------
-- The bag
------------------------------------------------------------

theorem find?_kind
    (hint : FixHint) :
    hint.toProperties.find? kindKey = some hint.kind.title := by
  obtain ⟨kind, newIdentifier, documentationUrl⟩ := hint
  cases newIdentifier <;> cases documentationUrl <;>
    simp [toProperties, Dictionary.find?_ofList, kindKey, newIdentifierKey,
      documentationUrlKey]

theorem find?_newIdentifier
    (hint : FixHint) :
    hint.toProperties.find? newIdentifierKey = hint.newIdentifier := by
  obtain ⟨kind, newIdentifier, documentationUrl⟩ := hint
  cases newIdentifier <;> cases documentationUrl <;>
    simp [toProperties, Dictionary.find?_ofList, kindKey, newIdentifierKey,
      documentationUrlKey]

theorem find?_documentationUrl
    (hint : FixHint) :
    hint.toProperties.find? documentationUrlKey = hint.documentationUrl := by
  obtain ⟨kind, newIdentifier, documentationUrl⟩ := hint
  cases newIdentifier <;> cases documentationUrl <;>
    simp [toProperties, Dictionary.find?_ofList, kindKey, newIdentifierKey,
      documentationUrlKey]

------------------------------------------------------------
-- The contract
------------------------------------------------------------

/-
  The hint may come with a diagnostic: its kind is one of
  the diagnostic's, it has a name exactly if it replaces, an
  alert has no link, and a window-handle warning has one.
-/
structure Suits (id : String) (hint : FixHint) : Prop where
  isAllowed : (FixKind.allowedFor id).contains hint.kind = true
  hasName :
    hint.kind.replaces = true →
      ∃ name, hint.newIdentifier = some name ∧ name ≠ ""
  hasNoName : hint.kind.replaces = false → hint.newIdentifier = none
  isAlert :
    Text.hasStart (apiAlertBaseId ++ "_") id = true →
      hint.documentationUrl = none
  isInterop : id = interopApiId → hint.documentationUrl.isSome = true

------------------------------------------------------------
-- Reading a bag
------------------------------------------------------------

/- A bag tells what a hint holds. -/
structure Tells (bag : Dictionary String) (hint : FixHint) : Prop where
  kind : bag.find? kindKey = some hint.kind.title
  newIdentifier : bag.find? newIdentifierKey = hint.newIdentifier
  documentationUrl : bag.find? documentationUrlKey = hint.documentationUrl

theorem tells_toProperties
    (hint : FixHint) :
    Tells hint.toProperties hint :=
  ⟨find?_kind hint, find?_newIdentifier hint, find?_documentationUrl hint⟩

/- Two hints that one bag tells are the same. -/
theorem Tells.unique
    {hint' : FixHint}
    (h : Tells bag hint)
    (h' : Tells bag hint') :
    hint = hint' := by
  have hKind : some hint.kind = some hint'.kind := by
    rw [← FixKind.ofTitle?_title hint.kind, ← FixKind.ofTitle?_title hint'.kind,
      Option.some.inj (h.kind.symm.trans h'.kind)]
  have hName := h.newIdentifier.symm.trans h'.newIdentifier
  have hUrl := h.documentationUrl.symm.trans h'.documentationUrl
  cases hint
  cases hint'
  simp_all

/- The kind that a bag has to have. -/
def readKind
    (id : String)
    (text : Option String) : Except AnalysisError FixKind :=
  match text with
  | none => .error (.missingProperty id kindKey)
  | some text =>
    match (FixKind.ofTitle? text).filter (FixKind.allowedFor id).contains with
    | some kind => .ok kind
    | none => .error (.invalidProperty id kindKey text)

def checkName
    (id : String)
    (kind : FixKind)
    (name : Option String) : Except AnalysisError Unit :=
  if kind.replaces then
    if (name.getD "").isEmpty then .error (.missingProperty id newIdentifierKey)
    else .ok ()
  else refuse id newIdentifierKey name

def checkUrl
    (id : String)
    (url : Option String) : Except AnalysisError Unit := do
  if Text.hasStart (apiAlertBaseId ++ "_") id then
    refuse id documentationUrlKey url
  if id == interopApiId && url.isNone then
    throw (.missingProperty id documentationUrlKey)

/- A bag is read in three steps. -/
theorem ofProperties_eq
    (id : String)
    (bag : Dictionary String) :
    ofProperties id bag = do
      let kind ← readKind id (bag.find? kindKey)
      checkName id kind (bag.find? newIdentifierKey)
      checkUrl id (bag.find? documentationUrlKey)
      return ⟨kind, bag.find? newIdentifierKey, bag.find? documentationUrlKey⟩ := by
  unfold ofProperties readKind checkName checkUrl
  generalize bag.find? newIdentifierKey = name
  generalize bag.find? documentationUrlKey = url
  cases bag.find? kindKey with
  | none => rfl
  | some text =>
      dsimp only [bind, Except.bind]
      cases (FixKind.ofTitle? text).filter (FixKind.allowedFor id).contains with
      | none => rfl
      | some kind =>
          -- What is left is the same tree of checks on both sides.
          dsimp only
          cases kind.replaces <;> cases (name.getD "").isEmpty <;>
            cases refuse id newIdentifierKey name <;>
            cases Text.hasStart (apiAlertBaseId ++ "_") id <;>
            cases refuse id documentationUrlKey url <;>
            cases id == interopApiId && url.isNone <;> rfl

theorem readKind_eq_ok_iff
    {text : Option String}
    {kind : FixKind} :
    readKind id text = .ok kind ↔
      text = some kind.title ∧ (FixKind.allowedFor id).contains kind = true := by
  have hFilter : ∀ title : String,
      (FixKind.ofTitle? title).filter (FixKind.allowedFor id).contains = some kind ↔
        title = kind.title ∧ (FixKind.allowedFor id).contains kind = true := by
    intro title
    rw [Option.filter_eq_some_iff, FixKind.ofTitle?_eq_some_iff]
  unfold readKind
  cases text with
  | none => simp
  | some title =>
      rw [Option.some.injEq, ← hFilter title]
      dsimp only
      cases (FixKind.ofTitle? title).filter (FixKind.allowedFor id).contains with
      | none => simp
      | some read => simp

theorem refuse_eq_ok_iff
    {key : String}
    {value : Option String} :
    refuse id key value = .ok () ↔ value = none := by
  cases value <;> simp [refuse]

theorem checkName_eq_ok_iff
    {kind : FixKind}
    {name : Option String} :
    checkName id kind name = .ok () ↔
      (kind.replaces = true → ∃ n, name = some n ∧ n ≠ "") ∧
        (kind.replaces = false → name = none) := by
  unfold checkName
  cases kind.replaces with
  | true => cases name <;> simp
  | false => simp [refuse_eq_ok_iff]

theorem checkUrl_eq_ok_iff
    {url : Option String} :
    checkUrl id url = .ok () ↔
      (Text.hasStart (apiAlertBaseId ++ "_") id = true → url = none) ∧
        (id = interopApiId → url.isSome = true) := by
  have hThrow : (if id == interopApiId && url.isNone then
      throw (.missingProperty id documentationUrlKey)
      else pure () : Except AnalysisError Unit) = .ok () ↔
      (id = interopApiId → url.isSome = true) := by
    cases url <;> by_cases hId : id = interopApiId <;>
      simp [hId, throw, throwThe, MonadExceptOf.throw, pure, Except.pure]
  unfold checkUrl
  cases hAlert : Text.hasStart (apiAlertBaseId ++ "_") id with
  | true =>
      rw [if_pos rfl, bind_eq_ok_iff]
      constructor
      · rintro ⟨⟨⟩, hRefuse, hLink⟩
        exact ⟨fun _ => refuse_eq_ok_iff.mp hRefuse, hThrow.mp hLink⟩
      · rintro ⟨hNone, hLink⟩
        exact ⟨(), refuse_eq_ok_iff.mpr (hNone rfl), hThrow.mpr hLink⟩
  | false =>
      rw [if_neg Bool.false_ne_true, hThrow]
      simp

/-
  What is read from a bag is what it tells, and suits the
  diagnostic.
-/
theorem ofProperties_eq_ok_iff :
    ofProperties id bag = .ok hint ↔ hint.Suits id ∧ Tells bag hint := by
  rw [ofProperties_eq]
  constructor
  · intro h
    rcases bind_eq_ok_iff.mp h with ⟨kind, hKind, h⟩
    rcases bind_eq_ok_iff.mp h with ⟨⟨⟩, hName, h⟩
    rcases bind_eq_ok_iff.mp h with ⟨⟨⟩, hUrl, h⟩
    cases h
    rw [readKind_eq_ok_iff] at hKind
    rw [checkName_eq_ok_iff] at hName
    rw [checkUrl_eq_ok_iff] at hUrl
    exact ⟨⟨hKind.2, hName.1, hName.2, hUrl.1, hUrl.2⟩, ⟨hKind.1, rfl, rfl⟩⟩
  · rintro ⟨hSuits, hTells⟩
    have hKind : readKind id (bag.find? kindKey) = .ok hint.kind :=
      readKind_eq_ok_iff.mpr ⟨hTells.kind, hSuits.isAllowed⟩
    have hName : checkName id hint.kind hint.newIdentifier = .ok () :=
      checkName_eq_ok_iff.mpr ⟨hSuits.hasName, hSuits.hasNoName⟩
    have hUrl : checkUrl id hint.documentationUrl = .ok () :=
      checkUrl_eq_ok_iff.mpr ⟨hSuits.isAlert, hSuits.isInterop⟩
    rw [hKind, hTells.newIdentifier, hTells.documentationUrl]
    change (checkName id hint.kind hint.newIdentifier >>= _) = _
    rw [hName]
    change (checkUrl id hint.documentationUrl >>= _) = _
    rw [hUrl]
    rfl

/- A hint that suits its diagnostic survives the bag. -/
theorem ofProperties_toProperties
    (h : hint.Suits id) :
    ofProperties id hint.toProperties = .ok hint :=
  ofProperties_eq_ok_iff.mpr ⟨h, tells_toProperties hint⟩

end FixHint

end Retarget
