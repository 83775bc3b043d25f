import Milo.Reasoning.Batch
import Milo.Swarm.Consistency
import Milo.Swarm.EvidenceStore

/-!
# ConflictWrites — recording a contradiction and the decision about it

The board finds contradictions by quantity: a value with its unit, in one complete identity.  The
database accepts a contradiction by raw value, in one scope hash, and bounds a decision.
-/

namespace Milo.Swarm

open Milo.Python Milo.Reasoning

/-! ## 1. What the database tells apart -/

mutual

/-- A text by which the database tells two JSON values apart: a number counts by its value, an object
    by its members in whatever order. -/
def jsonbText : Json → Text
  | .null => "null".toList
  | .bool true => "true".toList
  | .bool false => "false".toList
  | .int z => fractionText z
  | .float f => fractionText (exactValue (.float f))
  | .str s => quoted s
  | .arr items => '[' :: (joinWith ',' (jsonbItems items) ++ [']'])
  | .obj members =>
    '{' :: (joinWith ',' (((jsonbMembers members).insertionSort fun a b => keyLE a.1 b.1).map
      fun m => quoted m.1 ++ ':' :: m.2) ++ ['}'])

def jsonbItems : List Json → List Text
  | [] => []
  | item :: items => jsonbText item :: jsonbItems items

def jsonbMembers : List (Text × Json) → List (Text × Text)
  | [] => []
  | (key, value) :: members => (key, jsonbText value) :: jsonbMembers members

end

/-- `SCOPE_NORMALIZATION_VERSION`. -/
def scopeNormalizationVersion : ℕ := 1

/-- `canonical_scope_hash`; `sha256` is the hex digest. -/
def canonicalScopeHash (sha256 : Text → Text) (scope : CanonicalScope) : Text :=
  sha256 (Json.arr [.str scope.entity, .str scope.field, optionalText scope.geography,
    optionalText scope.market, .str scope.timeScope]).dumps

namespace ClaimRecord

variable (claim : ClaimRecord)

/-- The columns a claim's scope is compared by. -/
def scopeColumns : Option Text × Option ℕ :=
  (claim.canonicalScopeHash, claim.scopeNormalizationVersion)

/-- The stored scope identity is one the backend computed. -/
def trusted : Bool :=
  claim.canonicalScopeHash.any isHash && claim.scopeNormalizationVersion.any fun v => decide (1 ≤ v)

def rawValue : Text := jsonbText claim.reference.value

end ClaimRecord

/-! ## 2. Recording a contradiction -/

/-- `ConflictCreate.content()`. -/
structure ConflictContent where
  entityKey : Text
  fieldKey : Text
  claimIds : List Text
  outcome : Text
  rationale : Text
  deriving DecidableEq

/-- The payload of `create_conflict`. -/
structure ConflictPayload extends ConflictContent where
  taskKey : Text
  evidenceKey : Text

/-- The claims of a run a conflict or a decision names. -/
def EvidenceStore.namedClaims (s : EvidenceStore) (runId : Text) (claimIds : List Text) :
    List ClaimRecord :=
  s.claims.filter fun c =>
    decide (c.reference.runId = runId) && claimIds.contains c.reference.claimId

def EvidenceStore.conflictByKey (s : EvidenceStore) (runId evidenceKey : Text) :
    Option ConflictRecord :=
  s.conflicts.find? fun c => decide (c.runId = runId) && decide (c.evidenceKey = evidenceKey)

def ConflictPayload.row (payload : ConflictPayload) (runId : Text) : ConflictRecord where
  runId := runId
  evidenceKey := payload.evidenceKey
  entityKey := payload.entityKey
  fieldKey := payload.fieldKey
  claimIds := sortOn id payload.claimIds
  outcome := payload.outcome

/-- `create_conflict_guarded`. -/
def createConflictGuarded (unsafeText : ConflictPayload → Bool) (writer : Writer) (s : EvidenceStore)
    (payload : ConflictPayload) : Except WriteRefusal (EvidenceStore × ConflictRecord) := do
  refuseIf (writer.holdsLease = false) .leaseNotHeld
  refuseIf (unsafeText payload = true) .unsafePayload
  refuseIf (payload.evidenceKey = [] ∨ payload.taskKey = []) .evidenceKeyRequired
  refuseIf (payload.claimIds.length < 2) .tooFewClaims
  let claims := s.namedClaims writer.runId payload.claimIds
  refuseIf ((claims.all ClaimRecord.trusted) = false) .untrustedScope
  refuseIf (claims.length ≠ payload.claimIds.length ∨
    (claims.map ClaimRecord.scopeColumns).dedup.length ≠ 1 ∨
    (claims.map ClaimRecord.rawValue).dedup.length < 2) .notContradicting
  refuseIf ((claims.any fun c => decide (c.reference.entity = payload.entityKey) &&
    decide (c.reference.field = payload.fieldKey)) = false) .provenance
  match s.conflictByKey writer.runId payload.evidenceKey with
  | some row => return (s, row)
  | none =>
    return ({ s with conflicts := s.conflicts ++ [payload.row writer.runId] },
      payload.row writer.runId)

/-- The claims of a run, as the board holds them. -/
def EvidenceStore.boardClaims (s : EvidenceStore) (runId : Text) : List EvidenceReference :=
  (s.claims.filter fun c => decide (c.reference.runId = runId)).map ClaimRecord.reference

/-- The content of a detected contradiction, keyed on its lowest claim id. -/
def detectedContent (rationale : Text) (claims : List EvidenceReference) : ConflictContent :=
  let ordered := sortOn EvidenceReference.claimId claims
  { entityKey := (ordered.head?.map EvidenceReference.entity).getD []
    fieldKey := (ordered.head?.map EvidenceReference.field).getD []
    claimIds := ordered.map EvidenceReference.claimId
    outcome := unresolvedOutcome
    rationale }

section Board

variable (u : Unicode) (conflictKey : ConflictContent → Text)

/-- What `detect_and_record_conflicts` hands to `create_conflict`. -/
def detectedPayloads (s : EvidenceStore) (runId taskKey rationale : Text) : List ConflictPayload :=
  (conflictGroups u (s.boardClaims runId)).map fun g =>
    { toConflictContent := detectedContent rationale g.2
      taskKey
      evidenceKey := conflictKey (detectedContent rationale g.2) }

/-- `EvidenceBoard.detect_and_record_conflicts`: a refusal ends the call. -/
def detectAndRecordConflicts (unsafeText : ConflictPayload → Bool) (s : EvidenceStore)
    (writer : Writer) (taskKey rationale : Text) :
    Batch EvidenceStore ConflictPayload ConflictRecord WriteRefusal :=
  writeAll (createConflictGuarded unsafeText writer)
    (detectedPayloads u conflictKey s writer.runId taskKey rationale) s

end Board

/-! ## 3. Recording a decision -/

/-- The table constraints of `conflict_resolutions`. -/
def Decision.bounded (d : Decision) : Bool :=
  isHash d.scopeHash && decide (1 ≤ d.policyVersion.length ∧ d.policyVersion.length ≤ 64) &&
    decide (2 ≤ d.claimIds.length ∧ d.claimIds.length ≤ 100) &&
    decide (d.state = .resolved ↔ d.winningClaimId ≠ none) &&
    decide (d.state = .resolved ↔ 0 < d.supersededClaimIds.length)

/-- The decision as its row keeps it. -/
def Decision.stored (d : Decision) : Decision :=
  { d with
    claimIds := sortOn id d.claimIds
    supersededClaimIds := sortOn id d.supersededClaimIds }

/-- The stored row and the decision are the same decision. -/
def ResolutionRecord.replays (row : ResolutionRecord) (d : Decision) : Bool :=
  decide (row.decision.scopeHash = d.scopeHash) && decide (row.decision.state = d.state) &&
    decide (row.decision.reason = d.reason) &&
    decide (row.decision.winningClaimId = d.winningClaimId) &&
    decide (row.decision.claimIds = sortOn id d.claimIds)

def EvidenceStore.resolutionByKey (s : EvidenceStore) (runId evidenceKey : Text) :
    Option ResolutionRecord :=
  s.resolutions.find? fun r => decide (r.runId = runId) && decide (r.evidenceKey = evidenceKey)

/-- `record_conflict_resolution_guarded`. -/
def recordConflictResolutionGuarded (unsafeText : Decision → Bool) (writer : Writer)
    (s : EvidenceStore) (evidenceKey : Text) (d : Decision) :
    Except WriteRefusal (EvidenceStore × ResolutionRecord) := do
  refuseIf (writer.holdsLease = false) .leaseNotHeld
  refuseIf (unsafeText d = true) .unsafePayload
  refuseIf (evidenceKey = []) .evidenceKeyRequired
  refuseIf (d.claimIds.length < 2) .tooFewClaims
  refuseIf ((s.namedClaims writer.runId d.claimIds).length ≠ d.claimIds.length) .claimsUnknown
  refuseIf (¬ ∀ w ∈ d.winningClaimId, w ∈ d.claimIds) .winnerOutside
  refuseIf (d.state = .resolved ∧ (¬ (∀ c ∈ d.supersededClaimIds, c ∈ d.claimIds) ∨
    (∃ w ∈ d.winningClaimId, w ∈ d.supersededClaimIds) ∨ d.supersededClaimIds = []))
      .supersedesNothing
  refuseIf (d.bounded = false) .outsideBounds
  match s.resolutionByKey writer.runId evidenceKey with
  | some row =>
    refuseIf (row.replays d = false) .idempotencyConflict
    return (s, row)
  | none =>
    let row : ResolutionRecord := ⟨writer.runId, evidenceKey, d.stored⟩
    return ({ s with resolutions := s.resolutions ++ [row] }, row)

/-- `EvidenceBoard.record_conflict_resolution`; the evidence key is a digest of the decision. -/
def recordConflictResolution (resolutionKey : Decision → Text) (unsafeText : Decision → Bool)
    (writer : Writer) (s : EvidenceStore) (resolution : ConflictResolution) :
    Except WriteRefusal (EvidenceStore × ResolutionRecord) :=
  recordConflictResolutionGuarded unsafeText writer s (resolutionKey resolution.toDecision)
    resolution.toDecision

/-! ## 4. What the database accepts -/

/-- What `create_conflict_guarded` asks of a payload. -/
structure Acceptable (unsafeText : ConflictPayload → Bool) (writer : Writer) (s : EvidenceStore)
    (payload : ConflictPayload) : Prop where
  lease : writer.holdsLease = true
  plain : unsafeText payload = false
  keyed : payload.evidenceKey ≠ [] ∧ payload.taskKey ≠ []
  several : 2 ≤ payload.claimIds.length
  trusted : ∀ c ∈ s.namedClaims writer.runId payload.claimIds, c.trusted = true
  present : (s.namedClaims writer.runId payload.claimIds).length = payload.claimIds.length
  oneScope : ((s.namedClaims writer.runId payload.claimIds).map
    ClaimRecord.scopeColumns).dedup.length = 1
  apart : ∃ a ∈ s.namedClaims writer.runId payload.claimIds,
    ∃ b ∈ s.namedClaims writer.runId payload.claimIds, a.rawValue ≠ b.rawValue
  provenance : ∃ c ∈ s.namedClaims writer.runId payload.claimIds,
    c.reference.entity = payload.entityKey ∧ c.reference.field = payload.fieldKey

section Acceptance

variable {unsafeText : ConflictPayload → Bool} {writer : Writer} {s : EvidenceStore}
  {payload : ConflictPayload}

theorem two_values_iff {claims : List ClaimRecord} :
    2 ≤ (claims.map ClaimRecord.rawValue).dedup.length ↔
      ∃ a ∈ claims, ∃ b ∈ claims, a.rawValue ≠ b.rawValue := by
  rw [← Nat.lt_iff_add_one_le, one_lt_length_dedup]
  simp only [List.mem_map, exists_exists_and_eq_and]

theorem createConflictGuarded_eq_ok {answer : EvidenceStore × ConflictRecord} :
    createConflictGuarded unsafeText writer s payload = .ok answer ↔
      Acceptable unsafeText writer s payload ∧
        answer =
          match s.conflictByKey writer.runId payload.evidenceKey with
          | some row => (s, row)
          | none =>
            ({ s with conflicts := s.conflicts ++ [payload.row writer.runId] },
              payload.row writer.runId) := by
  unfold createConflictGuarded
  simp only [except_bind_eq_ok, refuseIf_eq_ok, exists_const, Bool.not_eq_false, Bool.not_eq_true,
    not_or, not_lt, Decidable.not_not, List.all_eq_true, List.any_eq_true,
    Bool.and_eq_true, decide_eq_true_eq, ne_eq]
  constructor
  · rintro ⟨hlease, hplain, hkeyed, hseveral, htrusted, ⟨hpresent, hscope, hapart⟩, hprovenance, h⟩
    refine ⟨⟨hlease, hplain, hkeyed, hseveral, htrusted, hpresent, hscope,
      two_values_iff.mp hapart, hprovenance⟩, ?_⟩
    split at h
    · exact (Except.ok.inj h).symm
    · exact (Except.ok.inj h).symm
  · rintro ⟨h, rfl⟩
    refine ⟨h.lease, h.plain, h.keyed, h.several, h.trusted, 
      ⟨h.present, h.oneScope, two_values_iff.mpr h.apart⟩, h.provenance, ?_⟩
    split
    · rfl
    · rfl

end Acceptance

/-! ## 5. Detected contradictions -/

/-- Claims are stored once, and those of the run with the trusted identity of their scope. -/
structure ScopedStore (u : Unicode) (sha256 : Text → Text) (s : EvidenceStore) (runId : Text) :
    Prop where
  distinct : (s.claims.map fun c => c.reference.claimId).Nodup
  inScope : ∀ c ∈ s.claims, c.reference.runId = runId →
    c.scopeColumns = (some (canonicalScopeHash sha256 (referenceIdentity u c.reference).scope),
      some scopeNormalizationVersion)

section Detected

variable {u : Unicode} {sha256 : Text → Text} {s : EvidenceStore} {runId : Text}

theorem mem_namedClaims {claimIds : List Text} {c : ClaimRecord} :
    c ∈ s.namedClaims runId claimIds ↔
      c ∈ s.claims ∧ c.reference.runId = runId ∧ c.reference.claimId ∈ claimIds := by
  unfold EvidenceStore.namedClaims
  rw [List.mem_filter, Bool.and_eq_true, decide_eq_true_eq, List.contains_iff_mem]

theorem namedClaims_reference (s : EvidenceStore) (runId : Text) (claimIds : List Text) :
    (s.namedClaims runId claimIds).map ClaimRecord.reference =
      (s.boardClaims runId).filter fun item => claimIds.contains item.claimId := by
  unfold EvidenceStore.namedClaims EvidenceStore.boardClaims
  rw [List.filter_map, List.filter_filter]
  congr 1
  apply List.filter_congr
  intro c _
  exact Bool.and_comm _ _

theorem ScopedStore.board_distinct (h : ScopedStore u sha256 s runId) :
    ((s.boardClaims runId).map EvidenceReference.claimId).Nodup := by
  unfold EvidenceStore.boardClaims
  rw [List.map_map]
  exact h.distinct.sublist (List.filter_sublist.map _)

variable {g : ScopeIdentity × List EvidenceReference}

/-- The claims named by the ids of a group are the group. -/
theorem ScopedStore.namedClaims_group (h : ScopedStore u sha256 s runId)
    (hg : g ∈ conflictGroups u (s.boardClaims runId)) {claimIds : List Text}
    (hids : claimIds.Perm (g.2.map EvidenceReference.claimId)) :
    (s.namedClaims runId claimIds).map ClaimRecord.reference = g.2 := by
  have hgroup := (mem_conflictGroups.mp hg).1
  rw [namedClaims_reference]
  rw [hgroup]
  apply List.filter_congr
  intro item hitem
  rw [Bool.eq_iff_iff, List.contains_iff_mem, decide_eq_true_eq, hids.mem_iff, List.mem_map]
  constructor
  · rintro ⟨other, hother, hsame⟩
    rw [hgroup, List.mem_filter, decide_eq_true_eq] at hother
    -- a claim id names one claim
    rw [← List.inj_on_of_nodup_map h.board_distinct hother.1 hitem hsame]
    exact hother.2
  · intro hidentity
    refine ⟨item, ?_, rfl⟩
    rw [hgroup, List.mem_filter, decide_eq_true_eq]
    exact ⟨hitem, hidentity⟩

theorem group_distinct (h : ScopedStore u sha256 s runId) (hg : g ∈ conflictGroups u (s.boardClaims runId)) :
    (g.2.map EvidenceReference.claimId).Nodup := by
  rw [(mem_conflictGroups.mp hg).1]
  exact h.board_distinct.sublist (List.filter_sublist.map _)

theorem two_le_group (hg : g ∈ conflictGroups u (s.boardClaims runId)) : 2 ≤ g.2.length := by
  unfold conflictGroups at hg
  have hcontradicts := (List.mem_filter.mp hg).2
  unfold contradicts at hcontradicts
  rw [Bool.and_eq_true, decide_eq_true_eq] at hcontradicts
  exact hcontradicts.1

theorem ScopedStore.trusted (h : ScopedStore u sha256 s runId)
    (hsha : ∀ text, isHash (sha256 text) = true) {c : ClaimRecord} (hc : c ∈ s.claims)
    (hrun : c.reference.runId = runId) : c.trusted = true := by
  have hcolumns := h.inScope c hc hrun
  unfold ClaimRecord.scopeColumns at hcolumns
  rw [Prod.mk.injEq] at hcolumns
  unfold ClaimRecord.trusted
  rw [hcolumns.1, hcolumns.2, Option.any_some, Option.any_some, Bool.and_eq_true]
  exact ⟨hsha _, rfl⟩

/-- The first claim of a group in the order of the ids. -/
theorem exists_head_sorted {claims : List EvidenceReference} (hclaims : claims ≠ []) :
    ∃ first ∈ claims, (sortOn EvidenceReference.claimId claims).head? = some first := by
  cases hsorted : sortOn EvidenceReference.claimId claims with
  | nil =>
    have hperm := perm_sortOn EvidenceReference.claimId claims
    rw [hsorted] at hperm
    exact absurd (List.nil_perm.mp hperm) hclaims
  | cons first rest =>
    refine ⟨first, ?_, rfl⟩
    have hfirst : first ∈ sortOn EvidenceReference.claimId claims := by
      rw [hsorted]
      exact List.mem_cons_self
    exact mem_sortOn.mp hfirst

theorem dedup_map_const {α β : Type} [DecidableEq β] {f : α → β} {b : β} {l : List α} (hl : l ≠ [])
    (h : ∀ a ∈ l, f a = b) : (l.map f).dedup = [b] := by
  have heq : l.map f = List.replicate l.length b := by
    rw [List.eq_replicate_iff]
    refine ⟨List.length_map f, ?_⟩
    intro x hx
    obtain ⟨a, ha, rfl⟩ := List.mem_map.mp hx
    exact h a ha
  rw [heq]
  exact List.replicate_dedup (fun hlength => hl (List.length_eq_zero_iff.mp hlength))

theorem ScopedStore.namedClaims_detected (h : ScopedStore u sha256 s runId)
    (hg : g ∈ conflictGroups u (s.boardClaims runId)) (rationale : Text) :
    (s.namedClaims runId (detectedContent rationale g.2).claimIds).map ClaimRecord.reference = g.2 :=
  h.namedClaims_group hg ((perm_sortOn _ _).map _)

end Detected

/-! ## 6. When the two definitions agree -/

section Agreement

variable (u : Unicode) (sha256 : Text → Text) (conflictKey : ConflictContent → Text)
  (resolutionKey : Decision → Text) (unsafeText : ConflictPayload → Bool)
  (unsafeDecision : Decision → Bool) (writer : Writer) (taskKey rationale : Text) (s : EvidenceStore)

/-- A contradiction stated in the texts of stored claims. -/
structure StatedBy (content : ConflictContent) : Prop where
  ids : ∀ claimId ∈ content.claimIds, ∃ c ∈ s.claims, c.reference.claimId = claimId
  claim : ∃ c ∈ s.claims,
    c.reference.entity = content.entityKey ∧ c.reference.field = content.fieldKey
  outcome : content.outcome = unresolvedOutcome
  rationale : content.rationale = rationale

/-- A board that may write: its lease is held, the texts of its claims passed the scan when they were
    stored, a key is a digest, and stored decisions stand under the digest of their content. -/
structure MayWrite : Prop where
  lease : writer.holdsLease = true
  task : taskKey ≠ []
  conflictKeys : ∀ content, conflictKey content ≠ []
  plain : ∀ content, StatedBy rationale s content →
    unsafeText ⟨content, taskKey, conflictKey content⟩ = false
  resolutionKeys : ∀ d, resolutionKey d ≠ []
  digest : ∀ decisive, ∀ g ∈ conflictGroups u (s.boardClaims writer.runId),
    ∀ g' ∈ conflictGroups u (s.boardClaims writer.runId),
      resolutionKey (decideGroup u sha256 g.1 g.2 decisive) =
        resolutionKey (decideGroup u sha256 g'.1 g'.2 decisive) →
      decideGroup u sha256 g.1 g.2 decisive = decideGroup u sha256 g'.1 g'.2 decisive
  plainDecision : ∀ g ∈ conflictGroups u (s.boardClaims writer.runId), ∀ decisive,
    unsafeDecision (decideGroup u sha256 g.1 g.2 decisive) = false
  replayed : ∀ row ∈ s.resolutions, row.runId = writer.runId → ∀ d,
    row.evidenceKey = resolutionKey d → row.decision = d.stored

/-- Every contradiction found is recorded with every decision about it, and nothing else is accepted
    as a contradiction. -/
structure RecordsContradictions : Prop where
  detected : (detectAndRecordConflicts u conflictKey unsafeText s writer taskKey rationale).refused =
    none
  decided : ∀ decisive, ∃ resolutions,
    resolveConflicts u sha256 (conflictGroups u (s.boardClaims writer.runId)) decisive =
        .ok resolutions ∧
      (writeAll (recordConflictResolution resolutionKey unsafeDecision writer) resolutions s).refused =
        none
  sound : ∀ payload answer, createConflictGuarded unsafeText writer s payload = .ok answer →
    ∃ a ∈ s.namedClaims writer.runId payload.claimIds,
      ∃ b ∈ s.namedClaims writer.runId payload.claimIds,
        a.scopeColumns = b.scopeColumns ∧ statedValue u a.reference ≠ statedValue u b.reference

/-- Every contradicting group shows in its raw values and fits a decision, and claims of one scope
    with different raw values state different quantities. -/
structure RawValuesDecide : Prop where
  shown : ∀ g ∈ conflictGroups u (s.boardClaims writer.runId),
    ∃ a ∈ g.2, ∃ b ∈ g.2, jsonbText a.value ≠ jsonbText b.value
  fits : ∀ g ∈ conflictGroups u (s.boardClaims writer.runId), g.2.length ≤ 100 ∧
    ∀ first ∈ (sortOn EvidenceReference.claimId g.2).head?,
      (1 ≤ first.entity.length ∧ first.entity.length ≤ 200) ∧
        (1 ≤ first.field.length ∧ first.field.length ≤ 200)
  converted : ∀ a ∈ s.claims, ∀ b ∈ s.claims, a.reference.runId = writer.runId →
    b.reference.runId = writer.runId → a.scopeColumns = b.scopeColumns →
      a.rawValue ≠ b.rawValue → statedValue u a.reference ≠ statedValue u b.reference

end Agreement

section Detection

variable {u : Unicode} {sha256 : Text → Text} {conflictKey : ConflictContent → Text}
  {resolutionKey : Decision → Text} {unsafeText : ConflictPayload → Bool}
  {unsafeDecision : Decision → Bool} {writer : Writer} {taskKey rationale : Text}
  {s s' : EvidenceStore}

theorem namedClaims_congr (hclaims : s'.claims = s.claims) (runId : Text) (claimIds : List Text) :
    s'.namedClaims runId claimIds = s.namedClaims runId claimIds := by
  unfold EvidenceStore.namedClaims
  rw [hclaims]

/-- What is asked of a payload is asked of the claims. -/
theorem Acceptable.congr {payload : ConflictPayload} (hclaims : s'.claims = s.claims)
    (h : Acceptable unsafeText writer s payload) : Acceptable unsafeText writer s' payload := by
  have hnamed := namedClaims_congr hclaims writer.runId payload.claimIds
  constructor
  · exact h.lease
  · exact h.plain
  · exact h.keyed
  · exact h.several
  · rw [hnamed]
    exact h.trusted
  · rw [hnamed]
    exact h.present
  · rw [hnamed]
    exact h.oneScope
  · rw [hnamed]
    exact h.apart
  · rw [hnamed]
    exact h.provenance

theorem createConflictGuarded_claims {payload : ConflictPayload} {row : ConflictRecord}
    (h : createConflictGuarded unsafeText writer s payload = .ok (s', row)) :
    s'.claims = s.claims := by
  have hanswer := (createConflictGuarded_eq_ok.mp h).2
  split at hanswer
  · rw [(Prod.mk.inj hanswer).1]
  · rw [(Prod.mk.inj hanswer).1]

theorem mem_boardClaims {runId : Text} {item : EvidenceReference} :
    item ∈ s.boardClaims runId ↔ ∃ c ∈ s.claims, c.reference.runId = runId ∧ c.reference = item := by
  unfold EvidenceStore.boardClaims
  simp only [List.mem_map, List.mem_filter, decide_eq_true_eq, and_assoc]

variable {g : ScopeIdentity × List EvidenceReference}

theorem mem_board_of_group {runId : Text} (hg : g ∈ conflictGroups u (s.boardClaims runId))
    {item : EvidenceReference} (hitem : item ∈ g.2) :
    item ∈ s.boardClaims runId ∧ referenceIdentity u item = g.1 := by
  rw [(mem_conflictGroups.mp hg).1, List.mem_filter, decide_eq_true_eq] at hitem
  exact hitem

/-- A detected contradiction is accepted exactly if its claims have two raw values. -/
theorem acceptable_detected
    (hmay : MayWrite u sha256 conflictKey resolutionKey unsafeText unsafeDecision writer taskKey rationale s)
    (hscoped : ScopedStore u sha256 s writer.runId) (hsha : ∀ text, isHash (sha256 text) = true)
    (hg : g ∈ conflictGroups u (s.boardClaims writer.runId)) :
    Acceptable unsafeText writer s
        ⟨detectedContent rationale g.2, taskKey, conflictKey (detectedContent rationale g.2)⟩ ↔
      ∃ a ∈ g.2, ∃ b ∈ g.2, jsonbText a.value ≠ jsonbText b.value := by
  have hnamed := hscoped.namedClaims_detected hg rationale
  generalize hclaims : s.namedClaims writer.runId (detectedContent rationale g.2).claimIds = claims
    at hnamed
  have hmem : ∀ c ∈ claims, c ∈ s.claims ∧ c.reference.runId = writer.runId ∧ c.reference ∈ g.2 := by
    intro c hc
    have href : c.reference ∈ g.2 := by
      rw [← hnamed]
      exact List.mem_map_of_mem hc
    rw [← hclaims, mem_namedClaims] at hc
    exact ⟨hc.1, hc.2.1, href⟩
  have hne : g.2 ≠ [] := by
    intro hnil
    have hlong := two_le_group hg
    rw [hnil, List.length_nil] at hlong
    omega
  obtain ⟨first, hfirst, hhead⟩ := exists_head_sorted hne
  have hentity : (detectedContent rationale g.2).entityKey = first.entity := by
    unfold detectedContent
    dsimp only
    rw [hhead]
    rfl
  have hfield : (detectedContent rationale g.2).fieldKey = first.field := by
    unfold detectedContent
    dsimp only
    rw [hhead]
    rfl
  have hlength : (detectedContent rationale g.2).claimIds.length = g.2.length := by
    show ((sortOn _ g.2).map _).length = _
    rw [List.length_map, (perm_sortOn _ _).length_eq]
  constructor
  · intro h
    obtain ⟨a, ha, b, hb, hdiffer⟩ := h.apart
    rw [hclaims] at ha hb
    exact ⟨a.reference, (hmem a ha).2.2, b.reference, (hmem b hb).2.2, hdiffer⟩
  · -- the group names its claims and one scope; only their values are in question
    rintro ⟨a, ha, b, hb, hdiffer⟩
    obtain ⟨firstRow, hfirstRow, hfirstRef⟩ := List.mem_map.mp (hnamed ▸ hfirst)
    constructor
    · exact hmay.lease
    · apply hmay.plain
      constructor
      · intro claimId hid
        obtain ⟨item, hitem, rfl⟩ := List.mem_map.mp hid
        obtain ⟨c, hc, -, hitemRef⟩ :=
          mem_boardClaims.mp (mem_board_of_group hg (mem_sortOn.mp hitem)).1
        exact ⟨c, hc, by rw [hitemRef]⟩
      · refine ⟨firstRow, (hmem firstRow hfirstRow).1, ?_, ?_⟩
        · rw [hfirstRef, hentity]
        · rw [hfirstRef, hfield]
      · rfl
      · rfl
    · exact ⟨hmay.conflictKeys _, hmay.task⟩
    · show 2 ≤ (detectedContent rationale g.2).claimIds.length
      rw [hlength]
      exact two_le_group hg
    · rw [hclaims]
      exact fun c hc => hscoped.trusted hsha (hmem c hc).1 (hmem c hc).2.1
    · show (s.namedClaims writer.runId (detectedContent rationale g.2).claimIds).length =
        (detectedContent rationale g.2).claimIds.length
      rw [hclaims, hlength, ← hnamed, List.length_map]
    · rw [hclaims]
      have hsame : ∀ c ∈ claims, c.scopeColumns =
          (some (canonicalScopeHash sha256 g.1.scope), some scopeNormalizationVersion) := by
        intro c hc
        rw [hscoped.inScope c (hmem c hc).1 (hmem c hc).2.1,
          (mem_board_of_group hg (hmem c hc).2.2).2]
      rw [dedup_map_const (List.ne_nil_of_mem hfirstRow) hsame]
      rfl
    · rw [hclaims]
      obtain ⟨aRow, haRow, rfl⟩ := List.mem_map.mp (hnamed ▸ ha)
      obtain ⟨bRow, hbRow, rfl⟩ := List.mem_map.mp (hnamed ▸ hb)
      exact ⟨aRow, haRow, bRow, hbRow, hdiffer⟩
    · rw [hclaims]
      refine ⟨firstRow, hfirstRow, ?_, ?_⟩
      · show _ = (detectedContent rationale g.2).entityKey
        rw [hfirstRef, hentity]
      · show _ = (detectedContent rationale g.2).fieldKey
        rw [hfirstRef, hfield]

/-- A detection runs to its end exactly if every contradicting group has two raw values. -/
theorem detected_iff
    (hmay : MayWrite u sha256 conflictKey resolutionKey unsafeText unsafeDecision writer taskKey
      rationale s)
    (hscoped : ScopedStore u sha256 s writer.runId) (hsha : ∀ text, isHash (sha256 text) = true) :
    (detectAndRecordConflicts u conflictKey unsafeText s writer taskKey rationale).refused = none ↔
      ∀ g ∈ conflictGroups u (s.boardClaims writer.runId),
        ∃ a ∈ g.2, ∃ b ∈ g.2, jsonbText a.value ≠ jsonbText b.value := by
  unfold detectAndRecordConflicts
  rw [refused_eq_none_iff (I := fun s' => s'.claims = s.claims)
    (Q := fun payload => Acceptable unsafeText writer s payload) _ _ s rfl]
  · unfold detectedPayloads
    rw [List.forall_mem_map]
    constructor
    · exact fun h g hg => (acceptable_detected hmay hscoped hsha hg).mp (h g hg)
    · exact fun h g hg => (acceptable_detected hmay hscoped hsha hg).mpr (h g hg)
  · intro s' hclaims payload _
    constructor
    · exact fun h => ⟨_, createConflictGuarded_eq_ok.mpr ⟨h.congr hclaims, rfl⟩⟩
    · rintro ⟨answer, hanswer⟩
      exact (createConflictGuarded_eq_ok.mp hanswer).1.congr hclaims.symm
  · intro s' hclaims payload _ s'' row haccepted
    exact (createConflictGuarded_claims haccepted).trans hclaims

/-- What is accepted as a contradiction states two quantities, for every set of claims, exactly if
    raw values of one scope tell quantities apart. -/
theorem sound_iff
    (hmay : MayWrite u sha256 conflictKey resolutionKey unsafeText unsafeDecision writer taskKey
      rationale s)
    (hscoped : ScopedStore u sha256 s writer.runId) (hsha : ∀ text, isHash (sha256 text) = true) :
    (∀ payload answer, createConflictGuarded unsafeText writer s payload = .ok answer →
      ∃ a ∈ s.namedClaims writer.runId payload.claimIds,
        ∃ b ∈ s.namedClaims writer.runId payload.claimIds,
          a.scopeColumns = b.scopeColumns ∧ statedValue u a.reference ≠ statedValue u b.reference) ↔
      ∀ a ∈ s.claims, ∀ b ∈ s.claims, a.reference.runId = writer.runId →
        b.reference.runId = writer.runId → a.scopeColumns = b.scopeColumns →
          a.rawValue ≠ b.rawValue → statedValue u a.reference ≠ statedValue u b.reference := by
  constructor
  · -- two claims of one scope with different raw values are a payload of their own
    intro h a ha b hb hrunA hrunB hscope hraw
    have hids : a.reference.claimId ≠ b.reference.claimId := by
      intro hsame
      apply hraw
      rw [List.inj_on_of_nodup_map hscoped.distinct ha hb hsame]
    let content : ConflictContent := ⟨a.reference.entity, a.reference.field,
      [a.reference.claimId, b.reference.claimId], unresolvedOutcome, rationale⟩
    have hmem : ∀ c, c ∈ s.namedClaims writer.runId content.claimIds ↔ c = a ∨ c = b := by
      intro c
      rw [mem_namedClaims]
      constructor
      · rintro ⟨hc, -, hid⟩
        rcases List.mem_cons.mp hid with hid | hid
        · exact Or.inl (List.inj_on_of_nodup_map hscoped.distinct hc ha hid)
        · exact Or.inr (List.inj_on_of_nodup_map hscoped.distinct hc hb (List.mem_singleton.mp hid))
      · rintro (rfl | rfl)
        · exact ⟨ha, hrunA, List.mem_cons_self⟩
        · exact ⟨hb, hrunB, List.mem_cons_of_mem _ List.mem_cons_self⟩
    have hnodup : (s.namedClaims writer.runId content.claimIds).Nodup :=
      (List.Nodup.of_map _ hscoped.distinct).filter _
    have hperm : (s.namedClaims writer.runId content.claimIds).Perm [a, b] := by
      rw [List.perm_ext_iff_of_nodup hnodup
        (List.nodup_cons.mpr ⟨fun h => hraw (by rw [List.mem_singleton.mp h]), List.nodup_singleton _⟩)]
      intro c
      rw [hmem, List.mem_cons, List.mem_singleton]
    have haccepted : Acceptable unsafeText writer s ⟨content, taskKey, conflictKey content⟩ := by
      constructor
      · exact hmay.lease
      · apply hmay.plain
        constructor
        · intro claimId hid
          rcases List.mem_cons.mp hid with rfl | hid
          · exact ⟨a, ha, rfl⟩
          · exact ⟨b, hb, (List.mem_singleton.mp hid).symm⟩
        · exact ⟨a, ha, rfl, rfl⟩
        · rfl
        · rfl
      · exact ⟨hmay.conflictKeys _, hmay.task⟩
      · exact le_refl 2
      · intro c hc
        rcases (hmem c).mp hc with rfl | rfl
        · exact hscoped.trusted hsha ha hrunA
        · exact hscoped.trusted hsha hb hrunB
      · exact hperm.length_eq
      · have hsame : ∀ c ∈ s.namedClaims writer.runId content.claimIds,
            c.scopeColumns = a.scopeColumns := by
          intro c hc
          rcases (hmem c).mp hc with rfl | rfl
          · rfl
          · exact hscope.symm
        rw [dedup_map_const (List.ne_nil_of_mem ((hmem a).mpr (Or.inl rfl))) hsame]
        rfl
      · exact ⟨a, (hmem a).mpr (Or.inl rfl), b, (hmem b).mpr (Or.inr rfl), hraw⟩
      · exact ⟨a, (hmem a).mpr (Or.inl rfl), rfl, rfl⟩
    -- the write is accepted, so two of its claims state different values: these two
    obtain ⟨x, hx, y, hy, -, hdiffer⟩ := h _ _ (createConflictGuarded_eq_ok.mpr ⟨haccepted, rfl⟩)
    rcases (hmem x).mp hx with rfl | rfl
    · rcases (hmem y).mp hy with rfl | rfl
      · exact absurd rfl hdiffer
      · exact hdiffer
    · rcases (hmem y).mp hy with rfl | rfl
      · exact hdiffer.symm
      · exact absurd rfl hdiffer
  · -- an accepted payload names two claims of one scope whose raw values differ
    intro h payload answer hanswer
    have haccepted := (createConflictGuarded_eq_ok.mp hanswer).1
    obtain ⟨a, ha, b, hb, hraw⟩ := haccepted.apart
    have hscope : a.scopeColumns = b.scopeColumns := by
      obtain ⟨scope, hone⟩ := List.length_eq_one_iff.mp haccepted.oneScope
      have hall : ∀ c ∈ s.namedClaims writer.runId payload.claimIds, c.scopeColumns = scope := by
        intro c hc
        have hin := List.mem_dedup.mpr (List.mem_map_of_mem (f := ClaimRecord.scopeColumns) hc)
        rw [hone] at hin
        exact List.mem_singleton.mp hin
      rw [hall a ha, hall b hb]
    have hmemA := mem_namedClaims.mp ha
    have hmemB := mem_namedClaims.mp hb
    exact ⟨a, ha, b, hb, hscope,
      h a hmemA.1 b hmemB.1 hmemA.2.1 hmemB.2.1 hscope hraw⟩

end Detection

/-! ## 7. Decisions fit their record -/

section Decisions

variable {u : Unicode} {sha256 : Text → Text} {resolutionKey : Decision → Text}
  {unsafeDecision : Decision → Bool} {writer : Writer} {s s' : EvidenceStore}

/-- What a decision says of its group, however it is decided. -/
theorem decideGroup_fields (identity : ScopeIdentity) (claims : List EvidenceReference)
    (decisive : List Text) :
    (decideGroup u sha256 identity claims decisive).scopeHash = scopeIdentityHash sha256 identity ∧
      (decideGroup u sha256 identity claims decisive).entity =
        (((sortOn EvidenceReference.claimId claims).head?).map EvidenceReference.entity).getD [] ∧
      (decideGroup u sha256 identity claims decisive).field =
        (((sortOn EvidenceReference.claimId claims).head?).map EvidenceReference.field).getD [] ∧
      (decideGroup u sha256 identity claims decisive).policyVersion = conflictPolicyVersion ∧
      (decideGroup u sha256 identity claims decisive).claimIds =
        (sortOn EvidenceReference.claimId claims).map EvidenceReference.claimId := by
  unfold decideGroup
  dsimp only
  split
  · exact ⟨rfl, rfl, rfl, rfl, rfl⟩
  · split
    · exact ⟨rfl, rfl, rfl, rfl, rfl⟩
    · exact ⟨rfl, rfl, rfl, rfl, rfl⟩

/-- A decision leaves the scope open, or one claim wins and exactly the claims of another quantity
    are superseded. -/
theorem decideGroup_outcome (identity : ScopeIdentity) (claims : List EvidenceReference)
    (decisive : List Text) :
    ((decideGroup u sha256 identity claims decisive).state = .unresolved ∧
        (decideGroup u sha256 identity claims decisive).winningClaimId = none ∧
        (decideGroup u sha256 identity claims decisive).supersededClaimIds = []) ∨
      ∃ first ∈ claims, (decideGroup u sha256 identity claims decisive).state = .resolved ∧
        (decideGroup u sha256 identity claims decisive).winningClaimId = some first.claimId ∧
        (decideGroup u sha256 identity claims decisive).supersededClaimIds =
          ((sortOn EvidenceReference.claimId claims).filter fun item =>
            decide (statedValue u item ≠ statedValue u first)).map EvidenceReference.claimId := by
  unfold decideGroup
  dsimp only
  split
  · exact Or.inl ⟨rfl, rfl, rfl⟩
  · rename_i first rest hdecisive
    split
    · exact Or.inl ⟨rfl, rfl, rfl⟩
    · have hfirst : first ∈ first :: rest := List.mem_cons_self
      rw [← hdecisive] at hfirst
      exact Or.inr ⟨first, mem_sortOn.mp (List.mem_filter.mp hfirst).1, rfl, rfl, rfl⟩

variable {claims : List EvidenceReference} {g : ScopeIdentity × List EvidenceReference}
  {resolution : ConflictResolution} {groups : List (ScopeIdentity × List EvidenceReference)}

/-- The ruling on contradicting claims: a winner among them and losers that do not state what it does, or
    neither. -/
theorem decideGroup_ruling (identity : ScopeIdentity) (hdistinct : (claims.map EvidenceReference.claimId).Nodup)
    (hdiffer : ∃ a ∈ claims, ∃ b ∈ claims, statedValue u a ≠ statedValue u b) (decisive : List Text) {d : Decision}
    (hd : decideGroup u sha256 identity claims decisive = d) :
    d.supersededClaimIds.Sublist ((sortOn EvidenceReference.claimId claims).map EvidenceReference.claimId) ∧
      (d.state = .resolved ↔ d.winningClaimId ≠ none) ∧
      (∀ w ∈ d.winningClaimId, w ∈ (sortOn EvidenceReference.claimId claims).map EvidenceReference.claimId) ∧
      (∀ c ∈ d.supersededClaimIds, d.winningClaimId ≠ some c) ∧
      (d.state = .resolved → d.supersededClaimIds ≠ []) ∧
      (d.state = .unresolved → d.supersededClaimIds = []) := by
  have houtcome := @decideGroup_outcome u sha256 identity claims decisive
  rw [hd] at houtcome
  rcases houtcome with ⟨hstate, hwinner, hnone⟩ | ⟨winner, hmem, hstate, hwinner, hlosers⟩
  · rw [hstate, hwinner, hnone]
    exact ⟨List.nil_sublist _, ⟨(fun h => by cases h), fun h => absurd rfl h⟩, (fun _ h => by cases h),
      fun _ h => absurd h List.not_mem_nil, (fun h => by cases h), fun _ => rfl⟩
  · rw [hstate, hwinner, hlosers]
    refine ⟨List.filter_sublist.map _, ⟨(fun _ h => by cases h), fun _ => rfl⟩, ?_, ?_, fun _ => ?_,
      fun h => by cases h⟩
    · intro w hw
      rw [← Option.some.inj hw]
      exact List.mem_map_of_mem (mem_sortOn.mpr hmem)
    · intro claimId hclaim hwins
      obtain ⟨item, hitem, hsame⟩ := List.mem_map.mp hclaim
      have hloser := List.mem_filter.mp hitem
      -- the loser states another quantity, so it is not the winner
      have heq : item = winner := by
        apply List.inj_on_of_nodup_map hdistinct (mem_sortOn.mp hloser.1) hmem
        rw [hsame, ← Option.some.inj hwins]
      rw [heq, decide_eq_true_eq] at hloser
      exact hloser.2 rfl
    · obtain ⟨a, ha, b, hb, hapart⟩ := hdiffer
      have hloser : ∃ item ∈ claims, statedValue u item ≠ statedValue u winner := by
        by_cases hwins : statedValue u a = statedValue u winner
        · exact ⟨b, hb, fun h => hapart (hwins.trans h.symm)⟩
        · exact ⟨a, ha, hwins⟩
      obtain ⟨item, hitem, hlost⟩ := hloser
      apply List.ne_nil_of_mem (a := item.claimId)
      exact List.mem_map_of_mem (List.mem_filter.mpr ⟨mem_sortOn.mpr hitem, decide_eq_true hlost⟩)

/-- The decision of contradicting claims fits its record exactly if they are not too many and the first
    names its entity and its field within bounds. -/
theorem sound_decideGroup_iff (hsha : ∀ text, isHash (sha256 text) = true) (identity : ScopeIdentity)
    (htwo : 2 ≤ claims.length) (hdistinct : (claims.map EvidenceReference.claimId).Nodup)
    (hdiffer : ∃ a ∈ claims, ∃ b ∈ claims, statedValue u a ≠ statedValue u b) (decisive : List Text) :
    (decideGroup u sha256 identity claims decisive).Sound ↔
      claims.length ≤ 100 ∧ ∀ first ∈ (sortOn EvidenceReference.claimId claims).head?,
        (1 ≤ first.entity.length ∧ first.entity.length ≤ 200) ∧
          (1 ≤ first.field.length ∧ first.field.length ≤ 200) := by
  obtain ⟨hhash, hentity, hfield, hpolicy, hids⟩ :=
    @decideGroup_fields u sha256 identity claims decisive
  obtain ⟨hsublist, hwinner, hwinnerIn, hlosers, hcloses, hopen⟩ :=
    decideGroup_ruling identity hdistinct hdiffer decisive rfl
  have hlength : ((sortOn EvidenceReference.claimId claims).map EvidenceReference.claimId).length =
      claims.length := by
    rw [List.length_map, (perm_sortOn _ _).length_eq]
  have hne : claims ≠ [] := by
    intro hnil
    rw [hnil, List.length_nil] at htwo
    omega
  obtain ⟨first, hfirst, hhead⟩ := exists_head_sorted hne
  rw [hhead] at hentity hfield ⊢
  have hnodup : ((sortOn EvidenceReference.claimId claims).map EvidenceReference.claimId).Nodup :=
    ((perm_sortOn _ _).map _).nodup_iff.mpr (hdistinct)
  generalize decideGroup u sha256 identity claims decisive = d at *
  constructor
  · intro h
    refine ⟨?_, ?_⟩
    · have hclaims := h.claims.2
      rw [hids, hlength] at hclaims
      exact hclaims
    · intro first' hfirst'
      rw [← Option.some.inj hfirst']
      have hentity' := h.entity
      have hfield' := h.field
      rw [hentity] at hentity'
      rw [hfield] at hfield'
      exact ⟨hentity', hfield'⟩
  · rintro ⟨hlong, hnamed⟩
    have hnamed := hnamed first rfl
    constructor
    · rw [hhash]
      exact hsha _
    · rw [hentity]
      exact hnamed.1
    · rw [hfield]
      exact hnamed.2
    · rw [hids, hlength]
      exact ⟨htwo, hlong⟩
    · have hfew := hsublist.length_le
      rw [hlength] at hfew
      omega
    · rw [hids]
      exact hnodup
    · exact hwinner
    · rw [hids]
      exact hwinnerIn
    · exact hnodup.sublist hsublist
    · intro claimId hclaim
      rw [hids]
      exact ⟨hsublist.subset hclaim, hlosers claimId hclaim⟩
    · exact hcloses
    · exact hopen

/-- The decision of a contradicting group fits its record exactly if the group is not too large and
    its first claim names its entity and its field within bounds. -/
theorem decideGroup_sound_iff (hscoped : ScopedStore u sha256 s writer.runId)
    (hsha : ∀ text, isHash (sha256 text) = true) (hg : g ∈ conflictGroups u (s.boardClaims writer.runId))
    (decisive : List Text) :
    (decideGroup u sha256 g.1 g.2 decisive).Sound ↔
      g.2.length ≤ 100 ∧ ∀ first ∈ (sortOn EvidenceReference.claimId g.2).head?,
        (1 ≤ first.entity.length ∧ first.entity.length ≤ 200) ∧
          (1 ≤ first.field.length ∧ first.field.length ≤ 200) := by
  obtain ⟨_, hdiffer⟩ := mem_conflictGroups.mp hg
  exact sound_decideGroup_iff hsha g.1 (two_le_group hg) (group_distinct hscoped hg) hdiffer decisive

/-- No decision of `D` has the key of a stored one it is not. -/
def KeyedResolutions (resolutionKey : Decision → Text) (D : Decision → Prop) (runId : Text)
    (s : EvidenceStore) : Prop :=
  ∀ row ∈ s.resolutions, row.runId = runId → ∀ d, D d → row.evidenceKey = resolutionKey d →
    row.decision = d.stored

/-- A decision that fits its record is accepted if it is about claims of the run. -/
theorem recordConflictResolution_accepted (hlease : writer.holdsLease = true)
    (hplain : unsafeDecision resolution.toDecision = false) (hkey : resolutionKey resolution.toDecision ≠ [])
    (hpolicy : resolution.policyVersion = conflictPolicyVersion)
    (hnamed : (s.namedClaims writer.runId resolution.claimIds).length = resolution.claimIds.length)
    {D : Decision → Prop} (hD : D resolution.toDecision) (hkeyed : KeyedResolutions resolutionKey D writer.runId s) :
    ∃ answer, recordConflictResolution resolutionKey unsafeDecision writer s resolution =
      .ok answer := by
  have hsound := resolution.sound
  have hwinner : ¬¬∀ w ∈ resolution.winningClaimId, w ∈ resolution.claimIds :=
    not_not.mpr hsound.winnerIn
  have hcloses : ¬(resolution.state = .resolved ∧
      (¬(∀ c ∈ resolution.supersededClaimIds, c ∈ resolution.claimIds) ∨
        (∃ w ∈ resolution.winningClaimId, w ∈ resolution.supersededClaimIds) ∨
          resolution.supersededClaimIds = [])) := by
    rintro ⟨hresolved, houtside | ⟨w, hw, hlost⟩ | hnone⟩
    · exact houtside fun c hc => (hsound.losers c hc).1
    · exact (hsound.losers w hlost).2 hw
    · exact hsound.closes hresolved hnone
  have hheld : ¬writer.holdsLease = false := by
    rw [hlease]
    decide
  have hsafe : ¬unsafeDecision resolution.toDecision = true := by
    rw [hplain]
    decide
  have hfits : ¬resolution.toDecision.bounded = false := by
    rw [Bool.not_eq_false]
    unfold Decision.bounded
    simp only [Bool.and_eq_true, decide_eq_true_eq]
    refine ⟨⟨⟨⟨hsound.hash, ?_⟩, hsound.claims⟩, hsound.winner⟩, ?_⟩
    · rw [hpolicy]
      decide
    · rw [List.length_pos_iff]
      constructor
      · exact hsound.closes
      · intro hlosers
        cases hstate : resolution.state with
        | resolved => rfl
        | unresolved => exact absurd (hsound.open' hstate) hlosers
  have hseveral : ¬resolution.claimIds.length < 2 := not_lt.mpr hsound.claims.1
  unfold recordConflictResolution recordConflictResolutionGuarded
  simp only [except_bind_eq_ok, refuseIf_eq_ok, exists_const]
  cases hfound : s.resolutionByKey writer.runId (resolutionKey resolution.toDecision) with
  | none =>
    exact ⟨_, hheld, hsafe, hkey, hseveral, not_not.mpr hnamed, hwinner, hcloses, hfits, rfl⟩
  | some row =>
    have hrow := List.find?_some hfound
    rw [Bool.and_eq_true, decide_eq_true_eq, decide_eq_true_eq] at hrow
    have hsame := hkeyed row (List.mem_of_find?_eq_some hfound) hrow.1 _ hD hrow.2
    have hreplays : row.replays resolution.toDecision = true := by
      unfold ResolutionRecord.replays
      rw [hsame]
      simp only [Bool.and_eq_true, decide_eq_true_eq]
      exact ⟨⟨⟨⟨rfl, rfl⟩, rfl⟩, rfl⟩, rfl⟩
    refine ⟨(s, row), hheld, hsafe, hkey, hseveral, not_not.mpr hnamed, hwinner, hcloses, hfits, ?_⟩
    dsimp only
    rw [hreplays]
    rfl

/-- A decision that is accepted finds its row or adds it. -/
theorem recordConflictResolution_cases {row : ResolutionRecord}
    (h : recordConflictResolution resolutionKey unsafeDecision writer s resolution = .ok (s', row)) :
    (s.resolutionByKey writer.runId (resolutionKey resolution.toDecision) = some row ∧ s' = s) ∨
      (s.resolutionByKey writer.runId (resolutionKey resolution.toDecision) = none ∧
        row = ⟨writer.runId, resolutionKey resolution.toDecision, resolution.toDecision.stored⟩ ∧
        s' = { s with resolutions := s.resolutions ++ [row] }) := by
  unfold recordConflictResolution recordConflictResolutionGuarded at h
  simp only [except_bind_eq_ok, refuseIf_eq_ok, exists_const] at h
  obtain ⟨-, -, -, -, -, -, -, -, h⟩ := h
  cases hfound : s.resolutionByKey writer.runId (resolutionKey resolution.toDecision) with
  | none =>
    rw [hfound] at h
    have heq := Except.ok.inj h
    rw [Prod.mk.injEq] at heq
    refine Or.inr ⟨rfl, heq.2.symm, ?_⟩
    rw [← heq.1, ← heq.2]
  | some old =>
    rw [hfound] at h
    obtain ⟨_, -, h⟩ := except_bind_eq_ok.mp h
    have heq := Except.ok.inj h
    rw [Prod.mk.injEq] at heq
    exact Or.inl ⟨by rw [heq.2], heq.1.symm⟩

/-- Recording a decision keeps the claims and the digests. -/
theorem KeyedResolutions.record {D : Decision → Prop}
    (hdigest : ∀ d d', D d → D d' → resolutionKey d = resolutionKey d' → d = d') (hD : D resolution.toDecision)
    {row : ResolutionRecord}
    (h : recordConflictResolution resolutionKey unsafeDecision writer s resolution = .ok (s', row))
    (hkeyed : KeyedResolutions resolutionKey D writer.runId s) :
    s'.claims = s.claims ∧ KeyedResolutions resolutionKey D writer.runId s' := by
  rcases recordConflictResolution_cases h with ⟨-, rfl⟩ | ⟨-, hrow, rfl⟩
  · exact ⟨rfl, hkeyed⟩
  · refine ⟨rfl, ?_⟩
    intro old hold hrun d hd hkey
    rcases List.mem_append.mp hold with hold | hold
    · exact hkeyed old hold hrun d hd hkey
    · rw [List.mem_singleton.mp hold, hrow] at hkey ⊢
      rw [hdigest _ _ hD hd hkey]

theorem resolveConflicts_of_mem {decisive : List Text} {resolutions : List ConflictResolution}
    (h : resolveConflicts u sha256 groups decisive = .ok resolutions) (hmem : resolution ∈ resolutions) :
    ∃ g ∈ groups, resolution.toDecision = decideGroup u sha256 g.1 g.2 decisive := by
  obtain ⟨made, hmade, hsorted⟩ := except_bind_eq_ok.mp h
  cases hsorted
  have hin := mem_sortOn.mp hmem
  have hall := forall₂_of_mapM hmade
  clear h hmade hmem
  induction hall with
  | nil => exact absurd hin List.not_mem_nil
  | cons hhead _ ih =>
    rcases List.mem_cons.mp hin with rfl | hin
    · exact ⟨_, List.mem_cons_self, Decision.record_eq_ok hhead⟩
    · obtain ⟨g, hg, heq⟩ := ih hin
      exact ⟨g, List.mem_cons_of_mem _ hg, heq⟩

theorem resolveConflicts_isOk {decisive : List Text}
    (h : ∀ g ∈ groups, (decideGroup u sha256 g.1 g.2 decisive).Sound) :
    ∃ resolutions, resolveConflicts u sha256 groups decisive = .ok resolutions := by
  have hmade : ∀ g ∈ groups, ∃ resolution,
      resolveConflictGroup u sha256 g.1 g.2 decisive = .ok resolution ∧ True := by
    intro g hg
    refine ⟨{ decideGroup u sha256 g.1 g.2 decisive with sound := h g hg }, ?_, trivial⟩
    unfold resolveConflictGroup Decision.record
    rw [dif_pos (h g hg)]
  obtain ⟨made, hmapM, -⟩ := exists_mapM (R := fun _ _ => True) hmade
  refine ⟨sortOn (fun r => r.scopeHash) made, ?_⟩
  unfold resolveConflicts
  rw [hmapM]
  rfl

/-- A decision about a group of the board is about claims of the run. -/
theorem namedClaims_decided (hscoped : ScopedStore u sha256 s writer.runId)
    (hg : g ∈ conflictGroups u (s.boardClaims writer.runId)) (decisive : List Text) :
    (s.namedClaims writer.runId (decideGroup u sha256 g.1 g.2 decisive).claimIds).length =
      (decideGroup u sha256 g.1 g.2 decisive).claimIds.length := by
  have hids := (@decideGroup_fields u sha256 g.1 g.2 decisive).2.2.2.2
  have hperm : (decideGroup u sha256 g.1 g.2 decisive).claimIds.Perm
      (g.2.map EvidenceReference.claimId) := by
    rw [hids]
    exact (perm_sortOn _ _).map _
  have hnamed := congrArg List.length (hscoped.namedClaims_group hg hperm)
  rw [List.length_map] at hnamed
  rw [hnamed, hperm.length_eq, List.length_map]

end Decisions

/-! ## 8. Every contradiction is recorded -/

section Recorded

variable {u : Unicode} {sha256 : Text → Text} {conflictKey : ConflictContent → Text}
  {resolutionKey : Decision → Text} {unsafeText : ConflictPayload → Bool}
  {unsafeDecision : Decision → Bool} {writer : Writer} {taskKey rationale : Text} {s : EvidenceStore}

/-- All decisions are made and accepted exactly if every group fits one. -/
theorem decided_iff
    (hmay : MayWrite u sha256 conflictKey resolutionKey unsafeText unsafeDecision writer taskKey
      rationale s)
    (hscoped : ScopedStore u sha256 s writer.runId) (hsha : ∀ text, isHash (sha256 text) = true) :
    (∀ decisive, ∃ resolutions,
      resolveConflicts u sha256 (conflictGroups u (s.boardClaims writer.runId)) decisive =
          .ok resolutions ∧
        (writeAll (recordConflictResolution resolutionKey unsafeDecision writer) resolutions
          s).refused = none) ↔
      ∀ g ∈ conflictGroups u (s.boardClaims writer.runId), g.2.length ≤ 100 ∧
        ∀ first ∈ (sortOn EvidenceReference.claimId g.2).head?,
          (1 ≤ first.entity.length ∧ first.entity.length ≤ 200) ∧
            (1 ≤ first.field.length ∧ first.field.length ≤ 200) := by
  constructor
  · intro h g hg
    obtain ⟨resolutions, hresolved, -⟩ := h []
    obtain ⟨resolution, -, hdecision⟩ := resolveConflicts_complete hresolved hg
    rw [← decideGroup_sound_iff hscoped hsha hg [], ← hdecision]
    exact resolution.sound
  · intro h decisive
    obtain ⟨resolutions, hresolved⟩ :=
      resolveConflicts_isOk fun g hg => (decideGroup_sound_iff hscoped hsha hg decisive).mpr (h g hg)
    refine ⟨resolutions, hresolved, ?_⟩
    let D : Decision → Prop := fun d => ∃ g ∈ conflictGroups u (s.boardClaims writer.runId),
      d = decideGroup u sha256 g.1 g.2 decisive
    have hdigest : ∀ d d', D d → D d' → resolutionKey d = resolutionKey d' → d = d' := by
      rintro d d' ⟨g, hg, rfl⟩ ⟨g', hg', rfl⟩ hkey
      exact hmay.digest decisive g hg g' hg' hkey
    rw [refused_eq_none_iff
      (I := fun s' => s'.claims = s.claims ∧ KeyedResolutions resolutionKey D writer.runId s')
      (Q := fun _ => True) _ _ s
      ⟨rfl, fun row hrow hrun d _ hkey => hmay.replayed row hrow hrun d hkey⟩]
    · exact fun _ _ => trivial
    · intro s' hs' resolution hmem
      refine ⟨fun _ => ?_, fun _ => trivial⟩
      obtain ⟨g, hg, hdecision⟩ := resolveConflicts_of_mem hresolved hmem
      apply recordConflictResolution_accepted hmay.lease _ (hmay.resolutionKeys _) _ _
        ⟨g, hg, hdecision⟩ hs'.2
      · rw [hdecision]
        exact hmay.plainDecision g hg decisive
      · rw [hdecision]
        exact (@decideGroup_fields u sha256 g.1 g.2 decisive).2.2.2.1
      · rw [namedClaims_congr hs'.1, hdecision]
        exact namedClaims_decided hscoped hg decisive
    · intro s' hs' resolution hmem s'' row haccepted
      have hkept := KeyedResolutions.record hdigest (resolveConflicts_of_mem hresolved hmem) haccepted
        hs'.2
      exact ⟨hkept.1.trans hs'.1, hkept.2⟩

end Recorded

/-- Every contradiction the board finds is recorded with every decision about it, and nothing else is
    accepted as one, exactly if raw values of one scope decide as quantities do and every group fits
    a decision. -/
theorem recordsContradictions_iff {u : Unicode} {sha256 : Text → Text}
    {conflictKey : ConflictContent → Text} {resolutionKey : Decision → Text}
    {unsafeText : ConflictPayload → Bool} {unsafeDecision : Decision → Bool} {writer : Writer}
    {taskKey rationale : Text} {s : EvidenceStore}
    (hmay : MayWrite u sha256 conflictKey resolutionKey unsafeText unsafeDecision writer taskKey
      rationale s)
    (hscoped : ScopedStore u sha256 s writer.runId) (hsha : ∀ text, isHash (sha256 text) = true) :
    RecordsContradictions u sha256 conflictKey resolutionKey unsafeText unsafeDecision writer taskKey
        rationale s ↔
      RawValuesDecide u writer s := by
  have hdetected := detected_iff hmay hscoped hsha
  have hdecided := decided_iff hmay hscoped hsha
  have hsound := sound_iff hmay hscoped hsha
  constructor
  · exact fun h => ⟨hdetected.mp h.detected, hdecided.mp h.decided, hsound.mp h.sound⟩
  · exact fun h => ⟨hdetected.mpr h.shown, hdecided.mpr h.fits, hsound.mpr h.converted⟩

/-- Sixty-four hexadecimal digits of a text, in the place of its digest. -/
def checksum (text : Text) : Text :=
  (List.range 64).map fun i =>
    hexDigit (text.foldl (fun sum c => (31 * sum + c.toNat) % 16 ^ 64) 7 / 16 ^ i)

theorem isHash_checksum (text : Text) : isHash (checksum text) = true := by
  have hdigit : ∀ n : ℕ, isHexDigit (hexDigit n) = true := by
    intro n
    have hsmall : ∀ m < 16, isHexDigit ((Nat.toDigits 16 m).headD '0') = true := by decide
    exact hsmall (n % 16) (Nat.mod_lt _ (by decide))
  unfold isHash checksum
  rw [Bool.and_eq_true, decide_eq_true_eq, List.length_map, List.length_range, List.all_map,
    List.all_eq_true]
  exact ⟨rfl, fun i _ => hdigit _⟩

theorem c1_named : "c1".toList ≠ [] := by decide

theorem c2_named : "c2".toList ≠ [] := by decide

/-- The displacement of one car, as a source states it. -/
def displacement (claimId : Text) (value : Json) (unit : String) (named : claimId ≠ []) :
    EvidenceReference where
  claimId
  sourceId := "s1".toList
  runId := "r1".toList
  taskId := "t1".toList
  entity := "Corolla".toList
  field := "engine_displacement_cc".toList
  geography := none
  market := none
  timeScope := []
  value
  unit := some unit.toList
  locator := none
  sourceVersion := none
  identity := []
  confidence := ⟨false, 0, 0, PyFloat.normal_zero⟩
  supported := true
  named

/-- A claim stored with the trusted identity of its scope. -/
def storedClaim (reference : EvidenceReference) : ClaimRecord where
  reference
  status := "active".toList
  canonicalScopeHash :=
    some (canonicalScopeHash checksum (referenceIdentity asciiUnicode reference).scope)
  scopeNormalizationVersion := some scopeNormalizationVersion

/-- Two statements of the displacement. -/
def statements (value value' : Json) (unit unit' : String) : EvidenceStore where
  claims := [storedClaim (displacement "c1".toList value unit c1_named),
    storedClaim (displacement "c2".toList value' unit' c2_named)]
  sources := []
  fragments := []
  verdicts := []
  conflicts := []
  resolutions := []

def conflictDigest (content : ConflictContent) : Text :=
  "conflict:".toList ++ checksum (content.entityKey ++ content.fieldKey ++ content.claimIds.flatten)

def resolutionDigest (d : Decision) : Text :=
  "resolution:".toList ++ checksum (d.scopeHash ++ d.claimIds.flatten ++ d.supersededClaimIds.flatten)

def boardWriter : Writer := ⟨"r1".toList, true⟩

/-- 1600 cc and 1600 l contradict each other, and the database refuses to record it. -/
theorem contradicting_units_refused :
    (detectAndRecordConflicts asciiUnicode conflictDigest (fun _ => false)
        (statements (.int 1600) (.int 1600) "cc" "l") boardWriter "t1".toList
        "Contradictory values.".toList).refused = some .notContradicting ∧
      ¬RecordsContradictions asciiUnicode checksum conflictDigest resolutionDigest (fun _ => false)
        (fun _ => false) boardWriter "t1".toList "Contradictory values.".toList
        (statements (.int 1600) (.int 1600) "cc" "l") := by
  have hrefused : (detectAndRecordConflicts asciiUnicode conflictDigest (fun _ => false)
      (statements (.int 1600) (.int 1600) "cc" "l") boardWriter "t1".toList
      "Contradictory values.".toList).refused = some .notContradicting := by decide +kernel
  refine ⟨hrefused, fun h => ?_⟩
  have hdetected := h.detected
  rw [hrefused] at hdetected
  cases hdetected

/-- 1600 cc and 1598 cc are recorded as a contradiction, with every decision about them. -/
theorem contradicting_values_recorded :
    RecordsContradictions asciiUnicode checksum conflictDigest resolutionDigest (fun _ => false)
      (fun _ => false) boardWriter "t1".toList "Contradictory values.".toList
      (statements (.int 1600) (.int 1598) "cc" "cc") := by
  have honeGroup : ∀ g ∈ conflictGroups asciiUnicode
      ((statements (.int 1600) (.int 1598) "cc" "cc").boardClaims boardWriter.runId),
      ∀ g' ∈ conflictGroups asciiUnicode
        ((statements (.int 1600) (.int 1598) "cc" "cc").boardClaims boardWriter.runId),
        g.1 = g'.1 := by decide +kernel
  apply (recordsContradictions_iff _ _ isHash_checksum).mpr
  · constructor
    · decide +kernel
    · decide +kernel
    · decide +kernel
  · constructor
    · rfl
    · decide
    · exact fun _ => List.cons_ne_nil _ _
    · exact fun _ _ => rfl
    · exact fun _ => List.cons_ne_nil _ _
    · intro decisive g hg g' hg' _
      have hsame := honeGroup g hg g' hg'
      have hclaims : g.2 = g'.2 := by
        rw [(mem_conflictGroups.mp hg).1, (mem_conflictGroups.mp hg').1, hsame]
      rw [hsame, hclaims]
    · exact fun _ _ _ => rfl
    · exact fun _ h => absurd h List.not_mem_nil
  · constructor
    · decide +kernel
    · decide +kernel

end Milo.Swarm
