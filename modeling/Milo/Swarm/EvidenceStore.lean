import Milo.Reasoning.Action
import Milo.Swarm.CurrentVerdict
import Milo.Swarm.ConflictPolicy

/-!
# EvidenceStore — the durable evidence of a run and its guarded writes

Claims, the verdicts recorded about them, the contradictions found among them and the decisions taken.
Verdicts, contradictions and decisions are append-only; a write under a known evidence key replays the
stored row or is refused.
-/

namespace Milo.Swarm

-- Of the orders Mathlib gives the integers, the one that computes.
attribute [local instance (2000)] LinearOrder.toPartialOrder

open Milo.Python Milo.Reasoning

/-! ## 1. Rows -/

/-- A durable claim with the trusted identity of its scope. -/
structure ClaimRecord where
  reference : EvidenceReference
  status : Text
  canonicalScopeHash : Option Text
  scopeNormalizationVersion : Option ℕ

structure SourceRecord where
  id : Text
  runId : Text
  taskKey : Text

structure FragmentRecord where
  id : Text
  runId : Text
  sourceId : Text
  taskKey : Text
  contentHash : Text
  locatorKey : Option Text

/-- A row of `claim_verdict_supports`. -/
structure SupportRecord where
  fragmentId : Text
  contentHash : Text
  locatorKey : Option Text
  deriving DecidableEq

/-- A row of `claim_verdicts` with its supports. -/
structure VerdictRecord where
  id : Text
  runId : Text
  claimId : Text
  evidenceKey : Text
  verdict : VerdictValue
  reason : String
  mode : VerificationMode
  contractVersion : String
  createdAt : ℤ
  supports : List SupportRecord

/-- A row of `conflicts`; nothing writes an outcome but the default. -/
structure ConflictRecord where
  runId : Text
  evidenceKey : Text
  entityKey : Text
  fieldKey : Text
  claimIds : List Text
  outcome : Text

/-- A row of `conflict_resolutions`. -/
structure ResolutionRecord where
  runId : Text
  evidenceKey : Text
  decision : Decision

structure EvidenceStore where
  claims : List ClaimRecord
  sources : List SourceRecord
  fragments : List FragmentRecord
  verdicts : List VerdictRecord
  conflicts : List ConflictRecord
  resolutions : List ResolutionRecord

namespace EvidenceStore

variable (s : EvidenceStore)

def claim? (runId claimId : Text) : Option ClaimRecord :=
  s.claims.find? fun c =>
    decide (c.reference.claimId = claimId) && decide (c.reference.runId = runId)

def source? (runId sourceId : Text) : Option SourceRecord :=
  s.sources.find? fun r => decide (r.id = sourceId) && decide (r.runId = runId)

def fragment? (runId fragmentId : Text) : Option FragmentRecord :=
  s.fragments.find? fun f => decide (f.id = fragmentId) && decide (f.runId = runId)

end EvidenceStore

/-! ## 2. Recording a verdict -/

/-- What a guarded write raises. -/
inductive WriteRefusal
  | leaseNotHeld
  | unsafePayload
  | evidenceKeyRequired
  | unstatedMode
  | tooMuchSupport
  | claimUnknown
  | localSupport
  | unsupported
  | sourceUnknown
  | outsideBounds
  | idempotencyConflict
  | supportUnknown
  | supportSource
  | supportTask
  | supportHash
  | supportLocator
  | supportSet
  | tooFewClaims
  | untrustedScope
  | notContradicting
  | provenance
  | claimsUnknown
  | winnerOutside
  | supersedesNothing
  deriving DecidableEq, Repr

/-- Who writes: `assert_worker_lease` either holds or raises. -/
structure Writer where
  runId : Text
  holdsLease : Bool

/-- The payload of `record_claim_verdict`. -/
structure VerdictPayload where
  claimId : Text
  evidenceKey : Text
  verdict : VerdictValue
  reason : String
  mode : VerificationMode
  contractVersion : String
  support : List SupportLink

/-- The payload and the stored row are one logical verdict. -/
def VerdictRecord.replays (row : VerdictRecord) (payload : VerdictPayload) : Bool :=
  decide (row.claimId = payload.claimId) && decide (row.verdict = payload.verdict) &&
    decide (row.reason = payload.reason) && decide (row.mode = payload.mode) &&
    decide (row.contractVersion = payload.contractVersion)

/-- The table constraints of `claim_verdicts`. -/
def VerdictPayload.bounded (payload : VerdictPayload) : Bool :=
  decide (1 ≤ payload.reason.length ∧ payload.reason.length ≤ 500) &&
    decide (1 ≤ payload.contractVersion.length ∧ payload.contractVersion.length ≤ 120)

/-- One support link, held to the lineage of the claim. -/
def linkSupport (s : EvidenceStore) (runId : Text) (claim : ClaimRecord) (source : SourceRecord)
    (link : SupportLink) : Except WriteRefusal SupportRecord := do
  let fragment ← required (link.fragmentId.bind (s.fragment? runId)) .supportUnknown
  refuseIf (fragment.sourceId ≠ claim.reference.sourceId) .supportSource
  refuseIf (fragment.taskKey ≠ source.taskKey) .supportTask
  refuseIf (fragment.contentHash ≠ link.contentHash) .supportHash
  refuseIf (fragment.locatorKey ≠ link.locator) .supportLocator
  return ⟨fragment.id, fragment.contentHash, fragment.locatorKey⟩

/-- `on conflict (verdict_id, fragment_id) do nothing`. -/
def addSupport (supports : List SupportRecord) (support : SupportRecord) : List SupportRecord :=
  if support.fragmentId ∈ supports.map SupportRecord.fragmentId then supports
  else supports ++ [support]

/-- The row a verdict payload adds, before its supports. -/
def VerdictPayload.row (payload : VerdictPayload) (runId id : Text) (now : ℤ) : VerdictRecord where
  id := id
  runId := runId
  claimId := payload.claimId
  evidenceKey := payload.evidenceKey
  verdict := payload.verdict
  reason := payload.reason
  mode := payload.mode
  contractVersion := payload.contractVersion
  createdAt := now
  supports := []

def EvidenceStore.verdictByKey (s : EvidenceStore) (runId evidenceKey : Text) :
    Option VerdictRecord :=
  s.verdicts.find? fun v => decide (v.runId = runId) && decide (v.evidenceKey = evidenceKey)

/-- The stored support of a row is the set that is cited. -/
def VerdictRecord.cites (row : VerdictRecord) (support : List SupportLink) : Bool :=
  decide (row.supports.length = support.length) &&
    support.all fun link => row.supports.any fun stored => decide (some stored.fragmentId = link.fragmentId)

/-- `record_claim_verdict_guarded`. -/
def recordClaimVerdictGuarded (unsafeText : VerdictPayload → Bool) (s : EvidenceStore)
    (writer : Writer) (id : Text) (now : ℤ) (payload : VerdictPayload) :
    Except WriteRefusal (EvidenceStore × VerdictRecord) := do
  refuseIf (writer.holdsLease = false) .leaseNotHeld
  refuseIf (unsafeText payload = true) .unsafePayload
  refuseIf (payload.evidenceKey = []) .evidenceKeyRequired
  refuseIf (4 < payload.support.length) .tooMuchSupport
  let claim ← required (s.claim? writer.runId payload.claimId) .claimUnknown
  refuseIf (payload.mode = .deterministicLocal ∧ payload.support ≠ []) .localSupport
  refuseIf (payload.verdict = .verified ∧ payload.support = []) .unsupported
  let source ← required (s.source? writer.runId claim.reference.sourceId) .sourceUnknown
  let links ← payload.support.mapM (linkSupport s writer.runId claim source)
  refuseIf (¬ (payload.support.map SupportLink.fragmentId).Nodup) .supportSet
  -- a row the table does not take is refused before its key is looked at
  refuseIf (payload.bounded = false) .outsideBounds
  match s.verdictByKey writer.runId payload.evidenceKey with
  | some row =>
    refuseIf (row.replays payload = false) .idempotencyConflict
    refuseIf (row.cites payload.support = false) .supportSet
    return (s, row)
  | none =>
    let supports := links.foldl addSupport []
    refuseIf (supports.length ≠ payload.support.length) .supportSet
    let row := { payload.row writer.runId id now with supports }
    return ({ s with verdicts := s.verdicts ++ [row] }, row)

/-- `EvidenceBoard.record_verification_verdict`; the evidence key is a digest of the content. -/
def recordVerificationVerdict (verdictKey : VerificationVerdict → Text)
    (unsafeText : VerdictPayload → Bool) (s : EvidenceStore) (writer : Writer) (id : Text) (now : ℤ)
    (verdict : VerificationVerdict) : Except WriteRefusal (EvidenceStore × VerdictRecord) :=
  match verdict.mode, verdict.contractVersion with
  | some mode, some contractVersion =>
    recordClaimVerdictGuarded unsafeText s writer id now
      { claimId := verdict.claimId
        evidenceKey := verdictKey verdict
        verdict := verdict.verdict
        reason := verdict.reason
        mode
        contractVersion
        support := verdict.support }
  | _, _ => .error .unstatedMode

/-! ## 3. The current state of a claim -/

def unresolvedOutcome : Text := "unresolved_needs_review".toList

/-- `superseded_claim_ids`. -/
def supersededClaimIds (resolutions : List ResolutionRecord) : List Text :=
  (resolutions.filter fun r => decide (r.decision.state = .resolved)).flatMap fun r =>
    r.decision.supersededClaimIds

/-- `contested_claim_ids`. -/
def contestedClaimIds (conflicts : List ConflictRecord) : List Text :=
  (conflicts.filter fun c => decide (c.outcome = unresolvedOutcome)).flatMap
    ConflictRecord.claimIds

/-- The order `claim_current_verdict_id` takes the first of. -/
def VerdictRecord.rank (row : VerdictRecord) : ℤ ×ₗ ℤ ×ₗ Text :=
  toLex (row.createdAt, toLex (if row.verdict = .verified then -1 else 0, row.id))

def EvidenceStore.verdictsOf (s : EvidenceStore) (claimId : Text) : List VerdictRecord :=
  s.verdicts.filter fun v => decide (v.claimId = claimId)

/-- `claim_current_verdict_id`, with its row. -/
def EvidenceStore.currentRow (s : EvidenceStore) (claimId : Text) : Option VerdictRecord :=
  (s.verdictsOf claimId).argmax VerdictRecord.rank

/-- `btrim(contract) = ''`. -/
def blankContract (contractVersion : String) : Bool := contractVersion.toList.all fun c => decide (c = ' ')

/-- The state the current row itself implies. -/
def VerdictRecord.state (row : VerdictRecord) : CurrentState :=
  match row.verdict with
  | .needsReview => .needsReview
  | .rejected => .rejected
  | .verified =>
    if row.mode ≠ .deterministicLocal ∧ blankContract row.contractVersion = false ∧
        0 < row.supports.length then .supported
    else .unsupported

/-- What `claim_current_verdict_state` answers of a claim. -/
structure VerdictReport where
  state : CurrentState
  row : Option VerdictRecord

/-- `claim_current_verdict_state`; nothing for a claim that does not exist. -/
def claimCurrentVerdictState (s : EvidenceStore) (claimId : Text) : Option VerdictReport :=
  (s.claims.find? fun c => decide (c.reference.claimId = claimId)).map fun claim =>
    if claim.status ≠ "active".toList then ⟨.invalidated, none⟩
    else if claimId ∈ supersededClaimIds s.resolutions then ⟨.superseded, none⟩
    else if claimId ∈ contestedClaimIds s.conflicts then ⟨.contested, none⟩
    else
      match s.currentRow claimId with
      | none => ⟨.unverified, none⟩
      | some row => ⟨row.state, some row⟩

/-- A stored verdict as the row `resolve_current_verdict` reads. -/
def VerdictRecord.asRow (isoformat : ℤ → Text) (row : VerdictRecord) : VerdictRow where
  id := some row.id
  claimId := some row.claimId
  verdict := some row.verdict.text.toList
  reason := some row.reason.toList
  createdAt := .text (isoformat row.createdAt)
  verificationMode := some row.mode.text.toList
  verifierContractVersion := some row.contractVersion.toList
  support := .stated (some row.supports.length)

/-- `resolve_current_verdict` over the stored rows. -/
def resolveStored (fromisoformat : Text → Option ℤ) (isoformat : ℤ → Text) (s : EvidenceStore)
    (claimId : Text) : Option (Except String CurrentVerdict) :=
  (s.claims.find? fun c => decide (c.reference.claimId = claimId)).map fun claim =>
    resolveCurrentVerdict fromisoformat ⟨some claimId, none, some claim.status⟩
      (s.verdicts.map (VerdictRecord.asRow isoformat)) (supersededClaimIds s.resolutions)
      (contestedClaimIds s.conflicts)

end Milo.Swarm
