import Retarget.Proofs.Analysis.FixHint
import Retarget.Proofs.Dictionary.Sorted
import Retarget.Proofs.Text.Separator

/-
  This file states the contract of diagnostics row by row, as
  it is documented, and shows that the bags that can be read
  are those of the hints that obey it.  What a bag holds
  under other keys does not count.

  Key definitions include:
    * `FixHint.Obeys`
    * `FixHint.knownKeys`

  Key statements include:
    * `FixHint.obeys_iff_suits`
    * `FixHint.Tells.toProperties_eq_restrict`
    * `FixHint.ofProperties_contract`
-/

namespace Retarget

------------------------------------------------------------
-- Kinds
------------------------------------------------------------

namespace FixKind

variable {id : String}
variable {kind : FixKind}

theorem replaces_eq_false_iff :
    kind.replaces = false ↔ kind = .explainOnly := by
  cases kind <;> decide

theorem replaces_iff :
    kind.replaces = true ↔
      kind = .replaceIdentifier ∨ kind = .replaceAttribute := by
  cases kind <;> decide

/- The kinds of each diagnostic, row by row. -/
theorem allowedFor_contains_iff :
    (allowedFor id).contains kind = true ↔
      (id = typeUpgradeId →
          kind = .replaceIdentifier ∨ kind = .explainOnly) ∧
        (id = attributeUpgradeId →
          kind = .replaceAttribute ∨ kind = .explainOnly) ∧
        (Text.hasStart apiAlertBaseId id = true → kind = .explainOnly) ∧
        (id = interopApiId → kind = .explainOnly) := by
  unfold allowedFor
  by_cases hType : id = typeUpgradeId
  · subst hType
    cases kind <;> decide
  · by_cases hAttribute : id = attributeUpgradeId
    · subst hAttribute
      cases kind <;> decide
    · by_cases hInterop : id = interopApiId
      · subst hInterop
        cases kind <;> decide
      · cases hAlert : Text.hasStart apiAlertBaseId id with
        | true => cases kind <;> simp [hType, hAttribute, hInterop]
        | false => cases kind <;> simp [hType, hAttribute, hInterop]

end FixKind

------------------------------------------------------------
-- The contract
------------------------------------------------------------

namespace FixHint

variable {id : String}
variable {hint : FixHint}
variable {bag : Dictionary String}

/-
  The documented contract: the kinds of each diagnostic, a
  link where one belongs, and a name that is not empty for
  the two kinds that replace something.
-/
structure Obeys (id : String) (hint : FixHint) : Prop where
  typeUpgrade : id = typeUpgradeId →
    hint.kind = .replaceIdentifier ∨ hint.kind = .explainOnly
  attributeUpgrade : id = attributeUpgradeId →
    hint.kind = .replaceAttribute ∨ hint.kind = .explainOnly
  alert : ∀ rest, id = apiAlertBaseId ++ rest → hint.kind = .explainOnly
  alertUrl : ∀ rest, id = apiAlertBaseId ++ "_" ++ rest →
    hint.documentationUrl = none
  interop : id = interopApiId → hint.kind = .explainOnly
  interopUrl : id = interopApiId → ∃ url, hint.documentationUrl = some url
  identifier :
    (hint.kind = .explainOnly ∧ hint.newIdentifier = none) ∨
      (hint.kind = .replaceIdentifier ∨ hint.kind = .replaceAttribute) ∧
        ∃ name, name ≠ "" ∧ hint.newIdentifier = some name

theorem Obeys.suits
    (h : hint.Obeys id) :
    hint.Suits id where
  isAllowed := FixKind.allowedFor_contains_iff.mpr
    ⟨h.typeUpgrade, h.attributeUpgrade, Text.forall_eq_append_iff.mp h.alert,
      h.interop⟩
  hasName := by
    intro hReplaces
    rcases h.identifier with ⟨hKind, -⟩ | ⟨-, name, hNonempty, hName⟩
    · rw [FixKind.replaces_eq_false_iff.mpr hKind] at hReplaces
      cases hReplaces
    · exact ⟨name, hName, hNonempty⟩
  hasNoName := by
    intro hKeeps
    rcases h.identifier with ⟨-, hNone⟩ | ⟨hKind, -⟩
    · exact hNone
    · rw [FixKind.replaces_iff.mpr hKind] at hKeeps
      cases hKeeps
  isAlert := Text.forall_eq_append_iff.mp h.alertUrl
  isInterop := fun hId => Option.isSome_iff_exists.mpr (h.interopUrl hId)

theorem Suits.obeys
    (h : hint.Suits id) :
    hint.Obeys id := by
  rcases FixKind.allowedFor_contains_iff.mp h.isAllowed with
    ⟨hType, hAttribute, hAlert, hInterop⟩
  refine ⟨hType, hAttribute, Text.forall_eq_append_iff.mpr hAlert,
    Text.forall_eq_append_iff.mpr h.isAlert, hInterop,
    fun hId => Option.isSome_iff_exists.mp (h.isInterop hId), ?_⟩
  cases hReplaces : hint.kind.replaces with
  | false =>
      exact Or.inl ⟨FixKind.replaces_eq_false_iff.mp hReplaces,
        h.hasNoName hReplaces⟩
  | true =>
      rcases h.hasName hReplaces with ⟨name, hName, hNonempty⟩
      exact Or.inr ⟨FixKind.replaces_iff.mp hReplaces, name, hNonempty, hName⟩

/- The documented contract is the one that is checked. -/
theorem obeys_iff_suits :
    hint.Obeys id ↔ hint.Suits id :=
  ⟨Obeys.suits, Suits.obeys⟩

------------------------------------------------------------
-- Reading a bag
------------------------------------------------------------

/- The keys of a bag that are read. -/
def knownKeys : List String :=
  [kindKey, newIdentifierKey, documentationUrlKey]

theorem mem_knownKeys_iff
    {key : String} :
    key ∈ knownKeys ↔
      key = kindKey ∨ key = newIdentifierKey ∨ key = documentationUrlKey := by
  simp [knownKeys]

/- No other key is in the bag of a hint. -/
theorem find?_of_not_mem_knownKeys
    {key : String}
    (hint : FixHint)
    (h : key ∉ knownKeys) :
    hint.toProperties.find? key = none := by
  rw [mem_knownKeys_iff, not_or, not_or] at h
  obtain ⟨kind, newIdentifier, documentationUrl⟩ := hint
  cases newIdentifier <;> cases documentationUrl <;>
    simp [toProperties, Dictionary.find?_ofList, Ne.symm h.1, Ne.symm h.2.1,
      Ne.symm h.2.2]

theorem isSorted_toProperties
    (hint : FixHint) :
    hint.toProperties.IsSorted :=
  Dictionary.isSorted_ofList _

/- What a bag holds under other keys is not kept. -/
theorem Tells.toProperties_eq_restrict
    (h : Tells bag hint)
    (hSorted : bag.IsSorted) :
    hint.toProperties = bag.restrict knownKeys := by
  have hHint := tells_toProperties hint
  refine hint.isSorted_toProperties.ext (hSorted.restrict _) fun key => ?_
  rw [Dictionary.find?_restrict]
  split
  · next hKnown =>
      rw [List.contains_iff_mem] at hKnown
      rcases mem_knownKeys_iff.mp hKnown with rfl | rfl | rfl
      · rw [hHint.kind, h.kind]
      · rw [hHint.newIdentifier, h.newIdentifier]
      · rw [hHint.documentationUrl, h.documentationUrl]
  · next hUnknown =>
      exact find?_of_not_mem_knownKeys hint fun hMem =>
        hUnknown (List.contains_iff_mem.mpr hMem)

/-
  Hints and bags correspond.  A hint is read back from its
  bag exactly if it obeys the contract, and what is read from
  a bag puts the entries of the known keys into one again.
-/
theorem ofProperties_contract
    (id : String)
    (hint : FixHint)
    (bag : Dictionary String) :
    (hint.Obeys id → ofProperties id hint.toProperties = .ok hint) ∧
      (¬ hint.Obeys id → ∃ e, ofProperties id hint.toProperties = .error e) ∧
      (bag.IsSorted → ofProperties id bag = .ok hint →
        hint.toProperties = bag.restrict knownKeys) := by
  refine ⟨fun hObeys => ?_, fun hBreaks => ?_, fun hSorted hRead => ?_⟩
  · exact ofProperties_eq_ok_iff.mpr
      ⟨obeys_iff_suits.mp hObeys, tells_toProperties hint⟩
  · cases hRead : ofProperties id hint.toProperties with
    | error e => exact ⟨e, rfl⟩
    | ok read =>
        -- The bag tells one hint only, so it is this one that suits.
        rcases ofProperties_eq_ok_iff.mp hRead with ⟨hSuits, hTells⟩
        obtain rfl := hTells.unique (tells_toProperties hint)
        exact absurd (obeys_iff_suits.mpr hSuits) hBreaks
  · exact (ofProperties_eq_ok_iff.mp hRead).2.toProperties_eq_restrict hSorted

/- A bag with an entry that no fixer reads. -/
theorem ofProperties_contract_of_note :
    let bag := Dictionary.ofList
      [("Note", "n"), (kindKey, "ReplaceIdentifier"), (newIdentifierKey, "N.T")]
    (replaceIdentifier "N.T").Obeys typeUpgradeId ∧
      ofProperties typeUpgradeId bag = .ok (replaceIdentifier "N.T") ∧
      (replaceIdentifier "N.T").toProperties = bag.restrict knownKeys ∧
      ¬ explainOnly.Obeys interopApiId ∧
      ∃ e, ofProperties interopApiId explainOnly.toProperties = .error e := by
  intro bag
  have hObeys : (replaceIdentifier "N.T").Obeys typeUpgradeId := by
    rw [obeys_iff_suits]
    exact ⟨by decide, fun _ => ⟨"N.T", rfl, by decide⟩, by decide, by decide,
      by decide⟩
  have hBreaks : ¬ explainOnly.Obeys interopApiId := by
    intro h
    obtain ⟨url, hUrl⟩ := h.interopUrl rfl
    cases hUrl
  have hRead : ofProperties typeUpgradeId bag = .ok (replaceIdentifier "N.T") := by
    decide +kernel
  have hSorted : bag.IsSorted := Dictionary.isSorted_ofList _
  exact ⟨hObeys, hRead,
    (ofProperties_contract typeUpgradeId (replaceIdentifier "N.T") bag).2.2
      hSorted hRead,
    hBreaks,
    (ofProperties_contract interopApiId explainOnly bag).2.1 hBreaks⟩

end FixHint

end Retarget
