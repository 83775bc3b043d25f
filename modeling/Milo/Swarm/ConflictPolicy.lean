import Milo.Swarm.Structured

/-!
# ConflictPolicy — explicit conflict resolution

Claims of one scope that state different quantities contradict one another.  A contradiction closes
only when exactly one quantity is decisively supported; what the winner supersedes is recorded, and
nothing is edited.
-/

namespace Milo.Swarm

open Milo.Python Milo.Reasoning

/-! ## 1. Authority -/

/-- `_FIELD_FAMILIES`: what kind of statement a field makes. -/
def fieldFamilies : List (String × String) :=
  [("model_code", "regulatory_identity"), ("official_model_code", "regulatory_identity"),
    ("commercial_model_code", "regulatory_identity"),
    ("registration_code", "regulatory_identity"), ("trim_code", "regulatory_identity"),
    ("engine_displacement_cc", "technical_specification"),
    ("engine_code", "technical_specification"), ("transmission", "technical_specification"),
    ("fuel_type", "technical_specification"), ("power_kw", "technical_specification"),
    ("gross_weight_kg", "technical_specification"), ("seats", "technical_specification"),
    ("list_price", "market_price"), ("market_price", "market_price"), ("price", "market_price"),
    ("reliability_score", "reliability"), ("failure_rate", "reliability"),
    ("recall_count", "reliability")]

/-- `_SOURCE_TYPE_AUTHORITY`: which source type is authoritative for which family. -/
def sourceTypeAuthority : List (String × List String) :=
  [("government_registry", ["regulatory_identity", "technical_specification"]),
    ("manufacturer_specification", ["technical_specification", "regulatory_identity"]),
    ("importer_price_list", ["market_price"]),
    ("reliability_dataset", ["reliability"])]

/-- Look a text up in a table whose keys are normalized; the last of equal keys counts. -/
def normalizedLookup {α : Type} (u : Unicode) (table : List (String × α)) (text : Text) : Option α :=
  (table.map fun e => (normalizeFieldKey u e.1.toList, e.2)).reverse.lookup
    (normalizeFieldKey u text)

/-- The statement family of a field, if the policy has a rule. -/
def fieldFamily (u : Unicode) (field : Text) : Option String :=
  if strip field = [] then none else normalizedLookup u fieldFamilies field

/-- A source of this type is authoritative for this field. -/
def isAuthoritative (u : Unicode) (sourceType field : Text) : Bool :=
  match fieldFamily u field with
  | none => false
  | some family => ((normalizedLookup u sourceTypeAuthority sourceType).getD []).contains family

example : isAuthoritative asciiUnicode "Government Registry".toList "power-kw".toList = true := by
  decide +kernel

/-! ## 2. The record of a decision -/

inductive ResolutionState
  | unresolved
  | resolved
  deriving DecidableEq, Repr

inductive ResolutionReason
  | resolvedByDecisiveSource
  | unresolvedNoDecisiveSource
  | unresolvedAmbiguous
  deriving DecidableEq, Repr

def ResolutionReason.text : ResolutionReason → String
  | .resolvedByDecisiveSource => "R4_CONFLICT_RESOLVED_BY_DECISIVE_SOURCE"
  | .unresolvedNoDecisiveSource => "R4_CONFLICT_UNRESOLVED_NO_DECISIVE_SOURCE"
  | .unresolvedAmbiguous => "R4_CONFLICT_UNRESOLVED_AMBIGUOUS"

def conflictPolicyVersion : String := "r4.authority.2"

/-- What a conflict decision says, before its contract is checked. -/
structure Decision where
  scopeHash : Text
  entity : Text
  field : Text
  state : ResolutionState
  reason : ResolutionReason
  policyVersion : String
  claimIds : List Text
  winningClaimId : Option Text
  supersededClaimIds : List Text
  deriving DecidableEq

/-- The contract of a conflict resolution. -/
structure Decision.Sound (d : Decision) : Prop where
  hash : isHash d.scopeHash = true
  entity : 1 ≤ d.entity.length ∧ d.entity.length ≤ 200
  field : 1 ≤ d.field.length ∧ d.field.length ≤ 200
  claims : 2 ≤ d.claimIds.length ∧ d.claimIds.length ≤ 100
  superseded : d.supersededClaimIds.length ≤ 100
  eachOnce : d.claimIds.Nodup
  winner : d.state = .resolved ↔ d.winningClaimId ≠ none
  winnerIn : ∀ w ∈ d.winningClaimId, w ∈ d.claimIds
  supersededOnce : d.supersededClaimIds.Nodup
  losers : ∀ c ∈ d.supersededClaimIds, c ∈ d.claimIds ∧ d.winningClaimId ≠ some c
  closes : d.state = .resolved → d.supersededClaimIds ≠ []
  open' : d.state = .unresolved → d.supersededClaimIds = []

instance (d : Decision) : Decidable d.Sound :=
  decidable_of_iff (isHash d.scopeHash = true ∧ (1 ≤ d.entity.length ∧ d.entity.length ≤ 200) ∧
      (1 ≤ d.field.length ∧ d.field.length ≤ 200) ∧
      (2 ≤ d.claimIds.length ∧ d.claimIds.length ≤ 100) ∧ d.supersededClaimIds.length ≤ 100 ∧
      d.claimIds.Nodup ∧ (d.state = .resolved ↔ d.winningClaimId ≠ none) ∧
      (∀ w ∈ d.winningClaimId, w ∈ d.claimIds) ∧ d.supersededClaimIds.Nodup ∧
      (∀ c ∈ d.supersededClaimIds, c ∈ d.claimIds ∧ d.winningClaimId ≠ some c) ∧
      (d.state = .resolved → d.supersededClaimIds ≠ []) ∧
      (d.state = .unresolved → d.supersededClaimIds = []))
    ⟨fun ⟨h1, h2, h3, h4, h5, h6, h7, h8, h9, h10, h11, h12⟩ =>
        ⟨h1, h2, h3, h4, h5, h6, h7, h8, h9, h10, h11, h12⟩,
      fun ⟨h1, h2, h3, h4, h5, h6, h7, h8, h9, h10, h11, h12⟩ =>
        ⟨h1, h2, h3, h4, h5, h6, h7, h8, h9, h10, h11, h12⟩⟩

/-- The durable record of one conflict decision. -/
structure ConflictResolution extends Decision where
  sound : toDecision.Sound

/-- Check the contract, as the constructor of the record does. -/
def Decision.record (d : Decision) : Except Failure ConflictResolution :=
  if h : d.Sound then .ok { d with sound := h } else .error .invalidRecord

theorem Decision.record_eq_ok {d : Decision} {r : ConflictResolution} (h : d.record = .ok r) :
    r.toDecision = d := by
  unfold Decision.record at h
  split at h
  · cases h
    rfl
  · cases h

inductive ClaimState
  | unresolved
  | resolved
  | superseded
  | corroborating
  deriving DecidableEq, Repr

/-- The state of one claim inside this conflict. -/
def Decision.stateOf (d : Decision) (claimId : Text) : ClaimState :=
  if d.winningClaimId = some claimId then .resolved
  else if d.supersededClaimIds.contains claimId then .superseded
  else if d.state = .resolved then .corroborating
  else .unresolved

/-! ## 3. Deciding -/

/-- Decide one contradicting scope from its claims and the decisive ones among them. -/
def decideGroup (u : Unicode) (sha256 : Text → Text) (identity : ScopeIdentity)
    (claims : List EvidenceReference) (decisiveClaimIds : List Text) : Decision :=
  let ordered := sortOn EvidenceReference.claimId claims
  let decisive := ordered.filter fun item => decisiveClaimIds.contains item.claimId
  let base : Decision :=
    { scopeHash := scopeIdentityHash sha256 identity
      entity := ((ordered.head?).map EvidenceReference.entity).getD []
      field := ((ordered.head?).map EvidenceReference.field).getD []
      state := .unresolved
      reason := .unresolvedNoDecisiveSource
      policyVersion := conflictPolicyVersion
      claimIds := ordered.map EvidenceReference.claimId
      winningClaimId := none
      supersededClaimIds := [] }
  match decisive with
  | [] => base
  | first :: _ =>
    if 1 < (decisive.map (statedValue u)).dedup.length then
      { base with reason := .unresolvedAmbiguous }
    else
      { base with
        state := .resolved
        reason := .resolvedByDecisiveSource
        winningClaimId := some first.claimId
        supersededClaimIds :=
          (ordered.filter fun item => decide (statedValue u item ≠ statedValue u first)).map
            EvidenceReference.claimId }

def resolveConflictGroup (u : Unicode) (sha256 : Text → Text) (identity : ScopeIdentity)
    (claims : List EvidenceReference) (decisiveClaimIds : List Text) :
    Except Failure ConflictResolution :=
  (decideGroup u sha256 identity claims decisiveClaimIds).record

/-- Decide every contradicting scope, in scope-hash order. -/
def resolveConflicts (u : Unicode) (sha256 : Text → Text)
    (groups : List (ScopeIdentity × List EvidenceReference)) (decisiveClaimIds : List Text) :
    Except Failure (List ConflictResolution) := do
  let resolutions ← groups.mapM fun g =>
    resolveConflictGroup u sha256 g.1 g.2 decisiveClaimIds
  pure (sortOn (fun r => r.scopeHash) resolutions)

/-- Two different quantities are stated in one group. -/
def contradicts (u : Unicode) (claims : List EvidenceReference) : Bool :=
  decide (1 < claims.length) && decide (1 < (claims.map (statedValue u)).dedup.length)

/-- Group the claims that contradict one another within one exact identity. -/
def conflictGroups (u : Unicode) (references : List EvidenceReference) :
    List (ScopeIdentity × List EvidenceReference) :=
  (Dict.groupBy (referenceIdentity u) references).entries.filter fun g => contradicts u g.2

/-- The claims of all conflict groups. -/
def conflictMembers (u : Unicode) (references : List EvidenceReference) : List Text :=
  (conflictGroups u references).flatMap fun g => g.2.map EvidenceReference.claimId

end Milo.Swarm
