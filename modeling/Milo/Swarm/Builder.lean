import Milo.Reasoning.Grouping
import Milo.Swarm.Contracts
import Milo.Python.Text

/-!
# Builder — the current verdict of a claim and the fields built from it

Verdicts are indexed by claim, duplicates resolved so that an ambiguous pair fails closed; the
builder publishes a supported claim whose current verdict is verified.
-/

namespace Milo.Swarm

open Milo.Python Milo.Reasoning

/-! ## 1. The current verdict -/

/-- The first verdict that is not verified, or the first one: the maximum of the sort key, for
    verdicts that carry neither a time nor an id. -/
def currentOf (verdicts : List VerificationVerdict) : Option VerificationVerdict :=
  match verdicts.find? fun v => decide (v.verdict ≠ .verified) with
  | some verdict => some verdict
  | none => verdicts.head?

/-- Index verdicts by the text of their claim id; an empty text names no claim. -/
def currentVerdictByClaim (verdicts : List VerificationVerdict) : Dict Text VerificationVerdict :=
  let named := verdicts.filter fun v => decide (strip v.claimId ≠ [])
  let grouped := Dict.groupBy (fun v => strip v.claimId) named
  Dict.ofList (grouped.entries.filterMap fun g => (currentOf g.2).map fun v => (g.1, v))

variable {verdicts : List VerificationVerdict}

theorem currentOf_eq_some {verdict : VerificationVerdict} (h : currentOf verdicts = some verdict) :
    verdict ∈ verdicts ∧ (verdict.verdict = .verified → ∀ v ∈ verdicts, v.verdict = .verified) := by
  unfold currentOf at h
  split at h
  · rename_i found hfound
    cases h
    have hrefused := List.find?_some hfound
    rw [decide_eq_true_eq] at hrefused
    exact ⟨List.mem_of_find?_eq_some hfound, fun hverified => absurd hverified hrefused⟩
  · rename_i hnone
    refine ⟨List.mem_of_head? h, fun _ v hv => ?_⟩
    have hv' := List.find?_eq_none.mp hnone v hv
    simpa using hv'

theorem currentOf_isSome (h : verdicts ≠ []) : ∃ verdict, currentOf verdicts = some verdict := by
  unfold currentOf
  split
  · exact ⟨_, rfl⟩
  · cases verdicts with
    | nil => exact absurd rfl h
    | cons v rest => exact ⟨v, rfl⟩

section CurrentVerdict

variable {verdicts : List VerificationVerdict} {claimId : Text} {verdict : VerificationVerdict}

/-- The verdicts given under a claim id, up to surrounding whitespace. -/
def verdictsFor (verdicts : List VerificationVerdict) (claimId : Text) :
    List VerificationVerdict := verdicts.filter fun v => strip v.claimId = claimId

theorem get?_currentVerdictByClaim :
    (currentVerdictByClaim verdicts).get? claimId = some verdict ↔
      claimId ≠ [] ∧ currentOf (verdictsFor verdicts claimId) = some verdict := by
  let named := verdicts.filter fun v => decide (strip v.claimId ≠ [])
  have hkeys : (((Dict.groupBy (fun v => strip v.claimId) named).entries.filterMap fun g =>
      (currentOf g.2).map fun v => (g.1, v)).map Prod.fst).Nodup := by
    apply List.Nodup.sublist _
      (Dict.groupBy (fun v : VerificationVerdict => strip v.claimId) named).nodup
    rw [List.map_filterMap]
    have hfst : (fun g : Text × List VerificationVerdict =>
        ((currentOf g.2).map fun v => (g.1, v)).map Prod.fst) =
          fun g => ((currentOf g.2).map fun _ => g.1) := by
      funext g
      cases currentOf g.2 <;> rfl
    rw [hfst]
    induction (Dict.groupBy (fun v : VerificationVerdict => strip v.claimId) named).entries with
    | nil => exact List.Sublist.refl _
    | cons g rest ih =>
      rw [List.filterMap_cons, List.map_cons]
      cases currentOf g.2 with
      | none => exact List.Sublist.cons _ ih
      | some v => exact List.Sublist.cons_cons _ ih
  have hgroup : named.filter (fun v => strip v.claimId = claimId) =
      if claimId = [] then [] else verdictsFor verdicts claimId := by
    unfold verdictsFor
    rw [List.filter_filter]
    by_cases hempty : claimId = []
    · rw [if_pos hempty, List.filter_eq_nil_iff]
      intro v _
      simp [hempty]
    · rw [if_neg hempty]
      apply List.filter_congr
      intro v _
      by_cases hid : strip v.claimId = claimId
      · simp [hid, hempty]
      · simp [hid]
  unfold currentVerdictByClaim
  simp only
  rw [Dict.get?_eq_some, Dict.entries_ofList hkeys, List.mem_filterMap]
  constructor
  · intro h
    rcases h with ⟨⟨key, group⟩, hmem, hpicked⟩
    rcases Option.map_eq_some_iff.mp hpicked with ⟨v, hv, heq⟩
    rw [Prod.mk.injEq] at heq
    rcases Dict.mem_groupBy.mp hmem with ⟨hfilter, hne⟩
    have hkey : key = claimId := heq.1
    rw [hkey, hgroup] at hfilter
    rw [heq.2] at hv
    by_cases hempty : claimId = []
    · rw [if_pos hempty] at hfilter
      exact absurd hfilter hne
    · rw [if_neg hempty] at hfilter
      exact ⟨hempty, hfilter ▸ hv⟩
  · intro h
    rcases h with ⟨hempty, hcurrent⟩
    refine ⟨(claimId, verdictsFor verdicts claimId), ?_, by rw [hcurrent]; rfl⟩
    apply Dict.mem_groupBy.mpr
    refine ⟨by rw [hgroup, if_neg hempty], ?_⟩
    intro hnil
    rw [hnil] at hcurrent
    cases hcurrent

end CurrentVerdict

/-! ## 2. The fields -/

/-- Where a published value comes from. -/
structure Provenance where
  claimId : Text
  sourceId : Text
  runId : Text
  taskId : Text
  entity : Text
  field : Text
  geography : Option Text
  market : Option Text
  timeScope : List (Text × Json)

structure FieldValue where
  value : Json
  provenance : Provenance

def provenanceOf (item : EvidenceReference) : Provenance where
  claimId := item.claimId
  sourceId := item.sourceId
  runId := item.runId
  taskId := item.taskId
  entity := item.entity
  field := item.field
  geography := item.geography
  market := item.market
  timeScope := item.timeScope

/-- Order by field, then claim id. -/
def fieldLE (a b : EvidenceReference) : Bool :=
  if a.field ≠ b.field then keyLE a.field b.field else keyLE a.claimId b.claimId

/-- The claim is supported and its current verdict is verified. -/
def publishable (current : Dict Text VerificationVerdict) (item : EvidenceReference) : Bool :=
  item.supported && (current.get? item.claimId).any fun v => decide (v.verdict = .verified)

/-- The `fields` that `FinalBuilder.build` assembles. -/
def buildFields (evidence : List EvidenceReference) (verdicts : List VerificationVerdict) :
    Dict Text (List FieldValue) :=
  let current := currentVerdictByClaim verdicts
  let published := (evidence.insertionSort fun a b => fieldLE a b).filter (publishable current)
  published.foldl (fun fields item => fields.set item.field
    ((fields.get? item.field).getD [] ++ [⟨item.value, provenanceOf item⟩])) Dict.empty

/-- A claim appears in the fields. -/
def AppearsIn (fields : Dict Text (List FieldValue)) (claimId : Text) : Prop :=
  ∃ field values, fields.get? field = some values ∧
    ∃ value ∈ values, value.provenance.claimId = claimId

section Fields

variable {claimId : Text}

theorem appearsIn_foldl (published : List EvidenceReference) :
    ∀ {fields : Dict Text (List FieldValue)},
      AppearsIn (published.foldl (fun fields item => fields.set item.field
        ((fields.get? item.field).getD [] ++ [⟨item.value, provenanceOf item⟩])) fields) claimId ↔
        AppearsIn fields claimId ∨ ∃ item ∈ published, item.claimId = claimId := by
  induction published with
  | nil => simp
  | cons item rest ih =>
    intro fields
    rw [List.foldl_cons, ih]
    have hstep : AppearsIn (fields.set item.field
        ((fields.get? item.field).getD [] ++ [⟨item.value, provenanceOf item⟩])) claimId ↔
          AppearsIn fields claimId ∨ item.claimId = claimId := by
      constructor
      · intro h
        rcases h with ⟨field, values, hget, value, hvalue, hid⟩
        rw [Dict.get?_set] at hget
        by_cases hfield : field = item.field
        · rw [if_pos hfield, Option.some.injEq] at hget
          rw [← hget] at hvalue
          rcases List.mem_append.mp hvalue with hold | hnew
          · cases hgot : fields.get? item.field with
            | none =>
              rw [hgot] at hold
              exact absurd hold List.not_mem_nil
            | some old =>
              rw [hgot] at hold
              exact Or.inl ⟨_, old, hgot, value, hold, hid⟩
          · rw [List.mem_singleton.mp hnew] at hid
            exact Or.inr hid
        · rw [if_neg hfield] at hget
          exact Or.inl ⟨field, values, hget, value, hvalue, hid⟩
      · intro h
        rcases h with ⟨field, values, hget, value, hvalue, hid⟩ | hid
        · by_cases hfield : field = item.field
          · refine ⟨item.field, _, Dict.get?_set_self _ _ _, value, ?_, hid⟩
            rw [← hfield, hget]
            exact List.mem_append_left _ hvalue
          · exact ⟨field, values, by rw [Dict.get?_set_ne _ _ hfield]; exact hget, value, hvalue, hid⟩
        · exact ⟨item.field, _, Dict.get?_set_self _ _ _, _,
            List.mem_append_right _ (List.mem_singleton_self _), hid⟩
    rw [hstep, or_assoc]
    simp only [List.mem_cons, exists_eq_or_imp]

/-- What appears in the fields is exactly a supported claim all of whose verdicts are verified. -/
theorem appearsIn_buildFields {evidence : List EvidenceReference}
    {verdicts : List VerificationVerdict} :
    AppearsIn (buildFields evidence verdicts) claimId ↔
      ∃ item ∈ evidence, item.claimId = claimId ∧ item.supported = true ∧
        verdictsFor verdicts claimId ≠ [] ∧
          ∀ v ∈ verdictsFor verdicts claimId, v.verdict = .verified := by
  unfold buildFields
  simp only
  rw [appearsIn_foldl]
  have hnothing : ¬AppearsIn (Dict.empty : Dict Text (List FieldValue)) claimId := by
    intro h
    rcases h with ⟨field, values, hget, -⟩
    cases hget
  constructor
  · intro h
    rcases h.resolve_left hnothing with ⟨item, hmem, rfl⟩
    rcases List.mem_filter.mp hmem with ⟨hsorted, hpublishable⟩
    have hin := (List.perm_insertionSort _ evidence).mem_iff.mp hsorted
    unfold publishable at hpublishable
    rw [Bool.and_eq_true] at hpublishable
    cases hget : (currentVerdictByClaim verdicts).get? item.claimId with
    | none =>
      rw [hget] at hpublishable
      cases hpublishable.2
    | some verdict =>
      rw [hget, Option.any_some, decide_eq_true_eq] at hpublishable
      have hcurrent := currentOf_eq_some (get?_currentVerdictByClaim.mp hget).2
      exact ⟨item, hin, rfl, hpublishable.1, List.ne_nil_of_mem hcurrent.1,
        hcurrent.2 hpublishable.2⟩
  · intro h
    rcases h with ⟨item, hin, rfl, hsupported, hne, hall⟩
    right
    refine ⟨item, ?_, rfl⟩
    rw [List.mem_filter, (List.perm_insertionSort _ evidence).mem_iff]
    refine ⟨hin, ?_⟩
    rcases currentOf_isSome hne with ⟨verdict, hcurrent⟩
    have hget := get?_currentVerdictByClaim.mpr ⟨item.named, hcurrent⟩
    unfold publishable
    rw [hsupported, hget, Option.any_some]
    simpa using hall _ (currentOf_eq_some hcurrent).1

end Fields

end Milo.Swarm
