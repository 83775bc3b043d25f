import Milo.Catalog.SnapshotCapture
import Milo.Reasoning.StableSort
import Milo.Reasoning.Transition
import Milo.Swarm.EvidenceStore

/-!
# Promotion — canonical variants and the provenance of their fields

A promotion writes one provenance row for each field of a canonical variant, at the next revision of
the field.  Every row is held to the whole chain behind its evidence link before it is stored, and a
variant cannot commit unless its first revisions state exactly what its columns do.
-/

namespace Milo.Catalog

open Milo.Python Milo.Reasoning Milo.Swarm

/-! ## 1. Rows -/

/-- What the promotion takes from the database beside what a capture does. -/
structure PromotionDatabase extends CaptureDatabase where
  /-- a value of a claim as its column holds it -/
  column : Json → Jsonb
  /-- `r4_normalized_scope_text` -/
  normalizedScopeText : Text → Text
  /-- `r3_canonical_locator`, where it is not null -/
  canonicalLocator : Text → Option (List Text)

structure EvidenceLinkRow where
  id : Text
  candidateId : Text
  snapshotId : Text
  runId : Text
  sourceId : Text
  claimId : Option Text
  verdictId : Option Text
  recordLocator : Text
  sourceVersion : Text
  sourceVersionKind : Text

structure CatalogModelRow where
  id : Text
  manufacturer : Text
  commercialModel : Text
  canonicalKey : Text

/-- A row of `catalog_model_variants`; nothing updates it. -/
structure ModelVariantRow where
  id : Text
  modelId : Text
  promotedFromCandidateId : Text
  promotedFromVerdictId : Text
  canonicalKey : Text
  modelYearStart : ℤ
  modelYearEnd : ℤ
  officialModelCode : Option Text
  trim : Option Text
  identityDimensions : Jsonb

/-- Where and of what a claim says its value holds. -/
structure ClaimScope where
  entityKey : Text
  market : Text
  geography : Text
  timeScope : Jsonb
  identityScope : List (Text × Text)

/-- A row of `catalog_canonical_field_provenance`. -/
structure FieldProvenanceRow where
  modelId : Text
  variantId : Text
  fieldKey : Text
  fieldValue : Jsonb
  revision : ℕ
  candidateId : Text
  evidenceLinkId : Text
  snapshotId : Text
  sourceId : Text
  claimId : Text
  verdictId : Text
  runId : Text
  workerId : Text
  attempt : ℕ
  sourceVersion : Text
  sourceVersionKind : Text
  recordLocator : Text
  scope : ClaimScope
  promotionKey : Text

structure PromotionStore where
  capture : CaptureStore
  evidence : EvidenceStore
  links : List EvidenceLinkRow
  models : List CatalogModelRow
  variants : List ModelVariantRow
  provenance : List FieldProvenanceRow

/-! ## 2. Fields -/

/-- The members of an object, as `jsonb_each` lists them. -/
def objectMembers : Jsonb → List (Text × Jsonb)
  | .obj members => members
  | _ => []

/-- Equality of two objects given by their members; the first of a name counts. -/
def sameFields (a b : List (Text × Jsonb)) : Bool :=
  (a.map Prod.fst ++ b.map Prod.fst).all fun key => sameValue (a.lookup key) (b.lookup key)

/-- Equality of two objects of texts. -/
def sameTexts (a b : List (Text × Text)) : Bool :=
  (a.map Prod.fst ++ b.map Prod.fst).all fun key => decide (a.lookup key = b.lookup key)

def dimensionPrefix : Text := "identity_dimensions.".toList

/-- `catalog_canonical_stated_fields`. -/
def catalogCanonicalStatedFields (modelYearStart modelYearEnd : ℤ) (officialModelCode trim : Option Text)
    (identityDimensions : Jsonb) : List (Text × Jsonb) :=
  [("model_year_start".toList, .number modelYearStart 0),
    ("model_year_end".toList, .number modelYearEnd 0)] ++
  officialModelCode.toList.map (fun code => ("official_model_code".toList, .str code)) ++
  trim.toList.map (fun t => ("trim".toList, .str t)) ++
  (objectMembers identityDimensions).map fun d => (dimensionPrefix ++ d.1, d.2)

def ModelVariantRow.stated (v : ModelVariantRow) : List (Text × Jsonb) :=
  catalogCanonicalStatedFields v.modelYearStart v.modelYearEnd v.officialModelCode v.trim
    v.identityDimensions

/-- `catalog_canonical_identity_field`. -/
def catalogCanonicalIdentityField (fieldKey : Text) : Bool :=
  ["model_year_start".toList, "model_year_end".toList, "official_model_code".toList,
    "trim".toList].contains fieldKey

def promotableDimensions : List Text :=
  ["body_style".toList, "drivetrain".toList, "engine_code".toList, "fuel_type".toList,
    "generation".toList, "market".toList, "propulsion_technology".toList, "transmission".toList]

/-- `catalog_promotable_field`. -/
def catalogPromotableField (fieldKey : Text) : Bool :=
  catalogCanonicalIdentityField fieldKey ||
    (decide (fieldKey.take 20 = dimensionPrefix) && promotableDimensions.contains (fieldKey.drop 20))

/-- `catalog_record_locator_id`. -/
def catalogRecordLocatorId (snapshotKey upstreamRecordId : Text) : Text :=
  snapshotKey ++ ':' :: upstreamRecordId

/-- `catalog_claim_entity_key`. -/
def catalogClaimEntityKey (modelCanonicalKey : Text) (modelYear : ℤ) : Text :=
  modelCanonicalKey ++ ':' :: intText modelYear

/-- The dimensions both a candidate and a claim name. -/
def scopeDimensions : List Text :=
  ["body_style".toList, "drivetrain".toList, "generation".toList, "transmission".toList]

/-- `catalog_candidate_identity_scope`. -/
def catalogCandidateIdentityScope (db : PromotionDatabase) (c : CapturedCandidate) :
    List (Text × Text) :=
  ((objectMembers c.identityDimensions).filter fun d => scopeDimensions.contains d.1).filterMap
      (fun d => (rendered (some d.2)).map fun text => (d.1, db.normalizedScopeText text)) ++
    c.officialModelCode.toList.map (fun code => ("model_code".toList, db.normalizedScopeText code)) ++
    c.trim.toList.map fun t => ("trim".toList, db.normalizedScopeText t)

/-- The year of a claim's time scope: four digits. -/
def scopedYear (timeScope : Jsonb) : Option ℤ :=
  ((rendered (timeScope.member? "model_year".toList)).filter fun text =>
    decide (text.length = 4) && text.all Char.isDigit).map fun text => (decimalValue text : ℤ)

/-- `nullif(btrim(coalesce(text, '')), '') is null`. -/
def blankOrNull (text : Option Text) : Bool := text.all fun t => t.all fun c => decide (c = ' ')

/-! ## 3. Constraints -/

def identityScopeNames : List Text :=
  ["body_style".toList, "drivetrain".toList, "engine".toList, "generation".toList,
    "model_code".toList, "transmission".toList, "trim".toList]

/-- `r4_identity_scope_valid`, of an object of texts. -/
def identityScopeValid (scope : List (Text × Text)) : Bool :=
  scope.all fun entry => identityScopeNames.contains entry.1 && bounded 120 entry.2

/-- An object of texts as a document. -/
def textObject (members : List (Text × Text)) : Jsonb :=
  .obj (members.map fun m => (m.1, .str m.2))

/-- The CHECK constraints of `catalog_canonical_field_provenance`. -/
def FieldProvenanceRow.valid (db : PromotionDatabase) (row : FieldProvenanceRow) : Bool :=
  catalogPromotableField row.fieldKey && decide (1 ≤ row.revision) && decide (1 ≤ row.attempt) &&
    bounded 200 row.workerId && bounded 2048 row.fieldValue.text &&
    (db.canonicalLocator row.recordLocator).isSome &&
    db.sourceVersionValid row.sourceVersionKind row.sourceVersion &&
    isDerivedKey "cp1" row.promotionKey && bounded 200 row.scope.entityKey &&
    bounded 120 row.scope.market && bounded 120 row.scope.geography &&
    row.scope.timeScope.isObject && decide (row.scope.timeScope.text.length ≤ 512) &&
    decide ((textObject row.scope.identityScope).text.length ≤ 1024) &&
    identityScopeValid row.scope.identityScope

/-- Two rows at one place of a field's history, or two of one promotion for one field. -/
def FieldProvenanceRow.clashes (row other : FieldProvenanceRow) : Bool :=
  decide (row.fieldKey = other.fieldKey) &&
    (decide (row.variantId = other.variantId) && decide (row.revision = other.revision) ||
      decide (row.promotionKey = other.promotionKey))

/-- The CHECK constraints of `catalog_model_variants`. -/
def ModelVariantRow.valid (db : PromotionDatabase) (v : ModelVariantRow) : Bool :=
  isDerivedKey "cv1" v.canonicalKey && decide (1900 ≤ v.modelYearStart) &&
    decide (v.modelYearStart ≤ 2100) && decide (v.modelYearStart ≤ v.modelYearEnd) &&
    decide (v.modelYearEnd ≤ 2100) && db.dimensionsValid v.identityDimensions

/-- Two variants a unique index keeps apart. -/
def ModelVariantRow.clashes (v other : ModelVariantRow) : Bool :=
  decide (v.id = other.id) || decide (v.canonicalKey = other.canonicalKey) ||
    (decide (v.modelId = other.modelId) && decide (v.modelYearStart = other.modelYearStart) &&
      decide (v.modelYearEnd = other.modelYearEnd) &&
      decide (v.officialModelCode.getD [] = other.officialModelCode.getD []) &&
      decide (v.trim.getD [] = other.trim.getD []))

/-- The CHECK constraints of `catalog_models`. -/
def CatalogModelRow.valid (m : CatalogModelRow) : Bool :=
  isDerivedKey "cm1" m.canonicalKey && bounded 120 m.manufacturer && bounded 200 m.commercialModel

def CatalogModelRow.clashes (m other : CatalogModelRow) : Bool :=
  decide (m.id = other.id) || decide (m.canonicalKey = other.canonicalKey) ||
    (decide (m.manufacturer = other.manufacturer) &&
      decide (m.commercialModel = other.commercialModel))

/-- Two claims of one scope. -/
def ClaimScope.same (a b : ClaimScope) : Bool :=
  decide (a.entityKey = b.entityKey) && decide (a.market = b.market) &&
    decide (a.geography = b.geography) && a.timeScope.same b.timeScope &&
    sameTexts a.identityScope b.identityScope

/-- What a promotion says of every fact it writes. -/
structure PromotionAct where
  candidateId : Text
  variantId : Text
  runId : Text
  workerId : Text
  attempt : ℕ
  promotionKey : Text

/-- A stored fact of another run, worker, attempt, candidate or variant. -/
def FieldProvenanceRow.isOtherAct (row : FieldProvenanceRow) (act : PromotionAct) : Bool :=
  decide (row.runId ≠ act.runId) || decide (row.workerId ≠ act.workerId) ||
    decide (row.attempt ≠ act.attempt) || decide (row.candidateId ≠ act.candidateId) ||
    decide (row.variantId ≠ act.variantId)

namespace PromotionStore

variable (db : PromotionDatabase) (s : PromotionStore)

def candidate? (id : Text) : Option CapturedCandidate :=
  s.capture.candidates.find? fun c => decide (c.id = id)

def link? (id : Text) : Option EvidenceLinkRow := s.links.find? fun l => decide (l.id = id)

def model? (id : Text) : Option CatalogModelRow := s.models.find? fun m => decide (m.id = id)

def variant? (id : Text) : Option ModelVariantRow := s.variants.find? fun v => decide (v.id = id)

def rawRecord? (id : Text) : Option RawRecordRow :=
  s.capture.rawRecords.find? fun r => decide (r.id = id)

def verdict? (id : Text) : Option VerdictRecord :=
  s.evidence.verdicts.find? fun v => decide (v.id = id)

def claim? (id : Text) : Option ClaimRecord :=
  s.evidence.claims.find? fun c => decide (c.reference.claimId = id)

def source? (id : Text) : Option SourceRecord :=
  s.evidence.sources.find? fun r => decide (r.id = id)

/-! ## 4. One fact -/

/-- `claim_verdict_is_current_support`. -/
def claimVerdictIsCurrentSupport (claimId verdictId : Text) : Bool :=
  (claimCurrentVerdictState s.evidence claimId).any fun report =>
    decide (report.state = .supported) && report.row.any fun row => decide (row.id = verdictId)

/-- One entry of a promotion's fields. -/
structure PromotedField where
  fieldKey : Text
  value : Option Jsonb
  evidenceLinkId : Option Text

def readyForReview : Text := "ready_for_review".toList

/-- The chain behind an evidence link: what the promoted fact rests on. -/
structure SupportChain where
  link : EvidenceLinkRow
  variant : ModelVariantRow
  candidate : CapturedCandidate
  snapshot : SnapshotRow
  verdict : VerdictRecord
  claim : ClaimRecord
  model : CatalogModelRow
  modelYear : ℤ
  record : RawRecordRow
  source : SourceRecord
  scope : ClaimScope

/-- The candidate, the snapshot and the verdict a fact cites. -/
def citedEvidence (act : PromotionAct) (linkId : Text) :
    Except String (EvidenceLinkRow × ModelVariantRow × CapturedCandidate × SnapshotRow ×
      VerdictRecord) := do
  let link ← required (s.link? linkId) "canonical field provenance cites no catalog evidence link"
  let variant ← required (s.variant? act.variantId)
    "canonical field provenance cites no canonical variant"
  let candidate ← required (s.candidate? act.candidateId)
    "canonical field provenance cites no catalog candidate"
  refuseIf (link.candidateId ≠ act.candidateId)
    "canonical field provenance cites evidence of another candidate"
  refuseIf (candidate.snapshotId ≠ link.snapshotId) "canonical field provenance snapshot mismatch"
  refuseIf (candidate.status ≠ readyForReview) "catalog candidate is not ready for promotion"
  let unusable := "catalog promotion requires an active complete snapshot"
  let snapshot ← required (s.capture.snapshots.get? link.snapshotId) unusable
  refuseIf (snapshot.activatedAt.isNone = true ∨ snapshot.validationState ≠ .complete) unusable
  refuseIf (snapshot.trustState ≠ "evidence".toList)
    "an unverified catalog source cannot support a canonical fact"
  let verdictId ← required link.verdictId "canonical field provenance cites unverified evidence"
  let unverified := "canonical field provenance verdict is not verified"
  let verdict ← required (s.verdict? verdictId) unverified
  refuseIf (verdict.verdict ≠ .verified) unverified
  refuseIf (link.claimId ≠ some verdict.claimId)
    "canonical field provenance verdict claim mismatch"
  return (link, variant, candidate, snapshot, verdict)

/-- The claim a fact cites, held to the field and the value. -/
def citedClaim (link : EvidenceLinkRow) (variant : ModelVariantRow) (claimId fieldKey : Text)
    (value : Jsonb) : Except String ClaimRecord := do
  let claim ← required (s.claim? claimId) "canonical field provenance cites no claim"
  refuseIf (claim.reference.sourceId ≠ link.sourceId)
    "canonical field provenance claim source mismatch"
  refuseIf (claim.status ≠ "active".toList)
    "canonical field provenance cites a claim that is not active"
  refuseIf (claim.reference.field ≠ fieldKey)
    "canonical field provenance claim states a different field"
  refuseIf ((db.column claim.reference.value).same value = false)
    "canonical field provenance claim states a different value"
  refuseIf (claimId ∈ contestedClaimIds s.evidence.conflicts)
    "canonical field provenance claim is in an unresolved conflict"
  -- the identity of a variant is frozen by its key
  refuseIf (catalogCanonicalIdentityField fieldKey = true ∧
      sameValue ((catalogCanonicalStatedFields variant.modelYearStart variant.modelYearEnd
        variant.officialModelCode variant.trim (.obj [])).lookup fieldKey) (some value) = false)
    "canonical field provenance contradicts the canonical identity"
  return claim

/-- The vehicle of a fact: the candidate is a reading of the variant, and the claim is about it. -/
def citedVehicle (variant : ModelVariantRow) (candidate : CapturedCandidate) (claim : ClaimRecord) :
    Except String (CatalogModelRow × ℤ × ClaimScope) := do
  let model ← required (s.model? variant.modelId)
    "canonical field provenance cites no canonical model"
  refuseIf (candidate.manufacturer ≠ model.manufacturer ∨
      candidate.commercialModel ≠ model.commercialModel)
    "canonical field provenance cites a candidate for another vehicle"
  refuseIf (candidate.modelYearStart ≠ some variant.modelYearStart ∨
      candidate.modelYearEnd ≠ some variant.modelYearEnd ∨
      candidate.officialModelCode ≠ variant.officialModelCode ∨ candidate.trim ≠ variant.trim)
    "canonical field provenance cites a candidate for another variant"
  let timeScope := db.column (.obj claim.reference.timeScope)
  let modelYear ← required (scopedYear timeScope)
    "canonical field provenance claim states no model year scope"
  refuseIf (modelYear < variant.modelYearStart ∨ variant.modelYearEnd < modelYear)
    "canonical field provenance claim is scoped to another model year"
  refuseIf (claim.reference.entity ≠ catalogClaimEntityKey model.canonicalKey modelYear)
    "canonical field provenance claim is about another vehicle"
  let unscoped := "canonical field provenance claim states no market scope"
  let market ← required claim.reference.market unscoped
  let geography ← required claim.reference.geography unscoped
  refuseIf (blankOrNull (some market) = true ∨ blankOrNull (some geography) = true) unscoped
  refuseIf (sameTexts claim.reference.identity (catalogCandidateIdentityScope db candidate) = false)
    "canonical field provenance claim is scoped to another vehicle identity"
  return (model, modelYear,
    ⟨claim.reference.entity, market, geography, timeScope, claim.reference.identity⟩)

/-- The captured record of a fact, and its source; the chain is one run's. -/
def citedRecord (act : PromotionAct) (link : EvidenceLinkRow) (candidate : CapturedCandidate)
    (snapshot : SnapshotRow) (verdict : VerdictRecord) (claim : ClaimRecord) :
    Except String (RawRecordRow × SourceRecord) := do
  let record ← required (s.rawRecord? candidate.rawRecordId)
    "canonical field provenance cites no source record"
  refuseIf (claim.reference.locator ≠ some link.recordLocator)
    "canonical field provenance locator does not match its cited claim"
  refuseIf ((db.canonicalLocator link.recordLocator).bind (fun parts => parts[1]?) ≠
      some (catalogRecordLocatorId snapshot.snapshotKey record.upstreamRecordId))
    "canonical field provenance cites evidence read from another source record"
  let source ← required (s.source? link.sourceId) "canonical field provenance cites no source"
  refuseIf (act.runId ≠ link.runId) "canonical field provenance was not promoted by its linking run"
  refuseIf (source.runId ≠ act.runId ∨ claim.reference.runId ≠ act.runId ∨
      verdict.runId ≠ act.runId)
    "canonical field provenance support chain spans more than one run"
  return (record, source)

/-- `catalog_check_field_provenance` and `catalog_check_provenance_current_verdict`. -/
def checkFieldProvenance (act : PromotionAct) (linkId fieldKey : Text) (value : Jsonb) :
    Except String SupportChain := do
  let (link, variant, candidate, snapshot, verdict) ← s.citedEvidence act linkId
  let claim ← s.citedClaim db link variant verdict.claimId fieldKey value
  let (model, modelYear, scope) ← s.citedVehicle db variant candidate claim
  let (record, source) ← s.citedRecord db act link candidate snapshot verdict claim
  refuseIf (∃ p ∈ s.provenance, p.promotionKey = act.promotionKey ∧ p.isOtherAct act = true)
    "catalog promotion is not one act of one run"
  refuseIf (∃ p ∈ s.provenance, p.variantId = act.variantId ∧ p.scope.same scope = false)
    "canonical field provenance scope disagrees with this variant"
  refuseIf (s.claimVerdictIsCurrentSupport verdict.claimId verdict.id = false)
    "canonical field provenance cites a verdict that is no longer current"
  return ⟨link, variant, candidate, snapshot, verdict, claim, model, modelYear, record, source, scope⟩

/-- The history of a field of a variant. -/
def history (variantId fieldKey : Text) : List FieldProvenanceRow :=
  s.provenance.filter fun p => decide (p.variantId = variantId) && decide (p.fieldKey = fieldKey)

/-- `coalesce(max(revision), 0) + 1`. -/
def nextRevision (variantId fieldKey : Text) : ℕ :=
  ((s.history variantId fieldKey).map FieldProvenanceRow.revision).foldr max 0 + 1

/-- The row of a checked fact. -/
def provenanceRow (act : PromotionAct) (chain : SupportChain) (fieldKey : Text) (value : Jsonb) :
    FieldProvenanceRow where
  modelId := chain.variant.modelId
  variantId := act.variantId
  fieldKey := fieldKey
  fieldValue := value
  revision := s.nextRevision act.variantId fieldKey
  candidateId := act.candidateId
  evidenceLinkId := chain.link.id
  snapshotId := chain.link.snapshotId
  sourceId := chain.link.sourceId
  claimId := chain.verdict.claimId
  verdictId := chain.verdict.id
  runId := act.runId
  workerId := act.workerId
  attempt := act.attempt
  sourceVersion := chain.link.sourceVersion
  sourceVersionKind := chain.link.sourceVersionKind
  recordLocator := chain.link.recordLocator
  scope := chain.scope
  promotionKey := act.promotionKey

/-- One turn of the loop over the fields. -/
def insertFact (act : PromotionAct) (field : PromotedField) : Except String PromotionStore := do
  let linkId ← required field.evidenceLinkId "invalid catalog promotion evidence link"
  refuseIf ((s.link? linkId).isNone = true) "invalid catalog promotion evidence link"
  let value ← required field.value constraintViolated
  let chain ← s.checkFieldProvenance db act linkId field.fieldKey value
  let row := s.provenanceRow act chain field.fieldKey value
  refuseIf (row.valid db = false) constraintViolated
  refuseIf (∃ other ∈ s.provenance, row.clashes other = true) constraintViolated
  return { s with provenance := s.provenance ++ [row] }

def insertFacts (act : PromotionAct) : List PromotedField → PromotionStore →
    Except String PromotionStore
  | [], s => .ok s
  | field :: fields, s => do
    let s' ← s.insertFact db act field
    insertFacts act fields s'

/-! ## 5. The promotion -/

/-- A promotion as its document states it. -/
structure PromotionReading where
  promotionKey : Text
  canonicalKey : Text
  modelCanonicalKey : Text
  manufacturer : Text
  commercialModel : Text
  modelYearStart : ℤ
  modelYearEnd : ℤ
  officialModelCode : Option Text
  trim : Option Text
  identityDimensions : Jsonb
  fields : List Jsonb

def PromotionReading.stated (r : PromotionReading) : List (Text × Jsonb) :=
  catalogCanonicalStatedFields r.modelYearStart r.modelYearEnd r.officialModelCode r.trim
    r.identityDimensions

/-- The checks of a promotion that need no table, in their order. -/
def readPromotion (p : Jsonb) : Except String PromotionReading := do
  let incomplete := "invalid catalog promotion: identity is incomplete"
  let promotionKey ← required (p.statedText "promotion_key".toList) incomplete
  let canonicalKey ← required (p.statedText "canonical_key".toList) incomplete
  let modelCanonicalKey ← required (p.statedText "model_canonical_key".toList) incomplete
  let manufacturer ← required (p.statedText "manufacturer".toList) incomplete
  let commercialModel ← required (p.statedText "commercial_model".toList) incomplete
  let notWhole := "invalid catalog promotion: model year range is not whole"
  let first ← required ((rendered (p.member? "model_year_start".toList)).bind castInteger) notWhole
  let last ← required ((rendered (p.member? "model_year_end".toList)).bind castInteger) notWhole
  let noFields := "invalid catalog promotion: no promoted fields"
  let fields ← required ((p.member? "fields".toList).bind Jsonb.elements?) noFields
  refuseIf (fields = []) noFields
  return ⟨promotionKey, canonicalKey, modelCanonicalKey, manufacturer, commercialModel, first, last,
    p.statedText "official_model_code".toList, p.statedText "trim".toList,
    (p.member? "identity_dimensions".toList).getD (.obj []), fields⟩

/-- An entry of the fields; its key names a member of an object. -/
def readField (entry : Jsonb) : Except String PromotedField := do
  let fieldKey ← required (rendered (entry.member? "field_key".toList)) "field name must not be null"
  return ⟨fieldKey, entry.member? "value".toList, rendered (entry.member? "evidence_link_id".toList)⟩

/-- The requested fields as one object: the last entry of a key counts. -/
def requestedFields (fields : List PromotedField) : List (Text × Jsonb) :=
  (fields.map fun field => (field.fieldKey, field.value.getD .null)).reverse

/-- The facts stored under a promotion key. -/
def promoted (promotionKey : Text) : List FieldProvenanceRow :=
  s.provenance.filter fun p => decide (p.promotionKey = promotionKey)

/-- The fields stored under a promotion key, as one object. -/
def storedFields (promotionKey : Text) : List (Text × Jsonb) :=
  ((s.promoted promotionKey).map fun p => (p.fieldKey, p.fieldValue)).reverse

/-- A promotion that is stored already is answered with its variant. -/
def replayPromotion (r : PromotionReading) (candidateId : Text) (fields : List PromotedField) :
    Except String ModelVariantRow := do
  let conflict := "catalog promotion idempotency conflict"
  refuseIf (sameFields (s.storedFields r.promotionKey) (requestedFields fields) = false) conflict
  let variant ← required ((s.promoted r.promotionKey).head?.bind fun p => s.variant? p.variantId)
    conflict
  refuseIf (variant.canonicalKey ≠ r.canonicalKey ∨
    ∃ p ∈ s.promoted r.promotionKey, p.candidateId ≠ candidateId) conflict
  return variant

/-- The model of a promotion, inserted where there is none. -/
def ensureModel (modelId : Text) (r : PromotionReading) :
    Except String (PromotionStore × CatalogModelRow) :=
  match s.models.find? fun m => decide (m.canonicalKey = r.modelCanonicalKey) with
  | some model => .ok (s, model)
  | none => do
    let model : CatalogModelRow := ⟨modelId, r.manufacturer, r.commercialModel, r.modelCanonicalKey⟩
    refuseIf (model.valid = false) constraintViolated
    refuseIf (∃ other ∈ s.models, model.clashes other = true) constraintViolated
    return ({ s with models := s.models ++ [model] }, model)

/-- The verdict of the first cited link, in the order of the fields. -/
def anchorVerdict (fields : List PromotedField) : Option Text :=
  (((sortedBy PromotedField.fieldKey fields).filterMap fun field =>
    field.evidenceLinkId.bind s.link?).head?).bind EvidenceLinkRow.verdictId

def variantByKey? (canonicalKey : Text) : Option ModelVariantRow :=
  s.variants.find? fun v => decide (v.canonicalKey = canonicalKey)

/-- The variant a promotion creates. -/
def newVariant (variantId modelId candidateId verdictId : Text) (r : PromotionReading) :
    ModelVariantRow where
  id := variantId
  modelId := modelId
  promotedFromCandidateId := candidateId
  promotedFromVerdictId := verdictId
  canonicalKey := r.canonicalKey
  modelYearStart := r.modelYearStart
  modelYearEnd := r.modelYearEnd
  officialModelCode := r.officialModelCode
  trim := r.trim
  identityDimensions := r.identityDimensions

/-- The first revisions of a variant's fields, as one object. -/
def firstRevisions (variantId : Text) : List (Text × Jsonb) :=
  ((s.provenance.filter fun p => decide (p.variantId = variantId) && decide (p.revision = 1)).map
    fun p => (p.fieldKey, p.fieldValue)).reverse

/-- `catalog_require_field_provenance`, of a variant inserted by the transaction. -/
def requireFieldProvenance (v : ModelVariantRow) : Except String PUnit := do
  refuseIf (sameFields v.stated (s.firstRevisions v.id) = false)
    "a canonical catalog variant requires verified provenance for every field it states"
  refuseIf (¬ ∃ p ∈ s.provenance, p.variantId = v.id ∧ p.verdictId = v.promotedFromVerdictId)
    "a canonical catalog variant must name a verdict from its own field provenance"
  refuseIf (¬ ∃ p ∈ s.provenance, p.variantId = v.id ∧ p.candidateId = v.promotedFromCandidateId)
    "a canonical catalog variant must name a candidate from its own field provenance"

/-- The ids drawn for the rows a promotion may insert. -/
structure NewIds where
  model : Text
  variant : Text

def actOf (call : WorkerCall) (candidateId variantId promotionKey : Text) : PromotionAct :=
  ⟨candidateId, variantId, call.runId, call.lease.workerId, call.lease.attempt, promotionKey⟩

/-- A promotion that is not stored: the model, the variant and the facts, and the checks at commit. -/
def writePromotion (call : WorkerCall) (ids : NewIds) (r : PromotionReading) (candidateId : Text)
    (fields : List PromotedField) : Except String (PromotionStore × ModelVariantRow) := do
  let (withModel, model) ← s.ensureModel ids.model r
  refuseIf (model.manufacturer ≠ r.manufacturer ∨ model.commercialModel ≠ r.commercialModel)
    "catalog canonical model identity conflict"
  let verdictId ← required (s.anchorVerdict fields)
    "catalog promotion cites no verified evidence link"
  let sorted := sortedBy PromotedField.fieldKey fields
  match s.variantByKey? r.canonicalKey with
  | some variant =>
    refuseIf (variant.modelId ≠ model.id ∨ variant.modelYearStart ≠ r.modelYearStart ∨
        variant.modelYearEnd ≠ r.modelYearEnd ∨
        variant.officialModelCode ≠ r.officialModelCode ∨ variant.trim ≠ r.trim)
      "catalog canonical variant identity conflict"
    let written ← insertFacts db (actOf call candidateId variant.id r.promotionKey) sorted withModel
    return (written, variant)
  | none =>
    let variant := newVariant ids.variant model.id candidateId verdictId r
    refuseIf (variant.valid db = false) constraintViolated
    refuseIf (∃ other ∈ s.variants, variant.clashes other = true) constraintViolated
    let written ← insertFacts db (actOf call candidateId variant.id r.promotionKey) sorted
      { withModel with variants := withModel.variants ++ [variant] }
    written.requireFieldProvenance variant
    return (written, variant)

/-- `promote_catalog_variant_guarded`. -/
def promoteCatalogVariantGuarded (call : WorkerCall) (ids : NewIds) (p : Jsonb) :
    Except String (PromotionStore × ModelVariantRow) := do
  s.capture.assertWorkerLease call
  refuseIf (db.unsafePayload p.text = true) "unsafe catalog payload rejected"
  let r ← readPromotion p
  let candidate ← required ((rendered (p.member? "candidate_id".toList)).bind s.candidate?)
    "invalid catalog promotion candidate"
  refuseIf (candidate.status ≠ readyForReview) "catalog candidate is not ready for promotion"
  refuseIf (candidate.manufacturer ≠ r.manufacturer ∨ candidate.commercialModel ≠ r.commercialModel ∨
      candidate.modelYearStart ≠ some r.modelYearStart ∨
      candidate.modelYearEnd ≠ some r.modelYearEnd ∨
      candidate.officialModelCode ≠ r.officialModelCode ∨ candidate.trim ≠ r.trim)
    "catalog promotion states an identity its candidate does not"
  let fields ← r.fields.mapM readField
  refuseIf (r.identityDimensions.isObject = false) "cannot call jsonb_each on a non-object"
  refuseIf (sameFields (requestedFields fields) r.stated = false)
    "promoted catalog fields do not match the canonical row"
  if s.promoted r.promotionKey = [] then s.writePromotion db call ids r candidate.id fields
  else do
    let variant ← s.replayPromotion r candidate.id fields
    return (s, variant)

/-! ## 6. Events -/

end PromotionStore

/-- A promotion by a worker, or any other write: of evidence, of links, of a capture. -/
inductive PromotionEvent
  | promote (call : WorkerCall) (ids : PromotionStore.NewIds) (promotion : Jsonb)
  | evidence (evidence : EvidenceStore)
  | links (links : List EvidenceLinkRow)
  | capture (capture : CaptureStore)

namespace PromotionStore

variable (db : PromotionDatabase) (s : PromotionStore)

/-- A promotion that raises is rolled back. -/
def perform : PromotionEvent → PromotionStore
  | .promote call ids p =>
    match s.promoteCatalogVariantGuarded db call ids p with
    | .ok answer => answer.1
    | .error _ => s
  | .evidence evidence => { s with evidence := evidence }
  | .links links => { s with links := links }
  | .capture capture => { s with capture := capture }

theorem perform_of_promoted {call : WorkerCall} {ids : NewIds} {p : Jsonb}
    {answer : PromotionStore × ModelVariantRow}
    (h : s.promoteCatalogVariantGuarded db call ids p = .ok answer) :
    s.perform db (.promote call ids p) = answer.1 := by simp only [perform, h]

theorem perform_of_refused {call : WorkerCall} {ids : NewIds} {p : Jsonb} {message : String}
    (h : s.promoteCatalogVariantGuarded db call ids p = .error message) :
    s.perform db (.promote call ids p) = s := by simp only [perform, h]

/-- The candidates that are ready for promotion are still there, as they were. -/
def KeepsReady (s s' : PromotionStore) : Prop :=
  ∀ id candidate, s.candidate? id = some candidate → candidate.status = readyForReview →
    s'.candidate? id = some candidate

theorem KeepsReady.of_eq {s' : PromotionStore} (h : s'.capture = s.capture) : s.KeepsReady s' := by
  intro id candidate hcandidate _
  unfold candidate?
  rw [h]
  exact hcandidate

/-- A capture adds candidates and moves the status of others; those that are ready it leaves. -/
def Allowed : PromotionEvent → Prop
  | .capture capture => s.KeepsReady { s with capture }
  | .promote _ _ _ | .evidence _ | .links _ => True

abbrev PromotionStep : PromotionStore → PromotionEvent → PromotionStore → Prop :=
  Performs Allowed (perform db)

end PromotionStore

end Milo.Catalog
