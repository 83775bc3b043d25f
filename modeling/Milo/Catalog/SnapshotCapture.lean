import Milo.Finalization.RunRow
import Milo.Python.Documents
import Milo.Reasoning.Batch
import Milo.Reasoning.ReplayLog

/-!
# SnapshotCapture — the guarded writes of a register capture

A snapshot is opened by a run, filled with raw records, read into candidates, and decided once.  Its
writer is the latest run that adopted it, or the run that opened it.  Every write asserts the lease of
its run; a write that is refused changes nothing.
-/

namespace Milo.Catalog

open Milo.Reasoning Milo.Python Milo.Finalization

/-! ## 1. Rows -/

/-- What the columns and the checks take from the database. -/
structure CaptureDatabase where
  /-- `text::timestamptz`, where it does not raise -/
  instant : Text → Option ℤ
  sha256 : Text → Text
  /-- the screen for credentials and reasoning over a document's text -/
  unsafePayload : Text → Bool
  /-- `r3_source_version_valid` of a kind and an identifier -/
  sourceVersionValid : Text → Text → Bool
  /-- `catalog_identity_dimensions_valid` -/
  dimensionsValid : Jsonb → Bool

inductive ValidationState
  | pending
  | complete
  | failed
  deriving DecidableEq, Repr

/-- `catalog_source_snapshots_validation_allowlisted`. -/
def ValidationState.ofText? (text : Text) : Option ValidationState :=
  if text = "pending".toList then some .pending
  else if text = "complete".toList then some .complete
  else if text = "failed".toList then some .failed
  else none

/-- What a retrieval says of itself: the columns a replay is held to. -/
structure Retrieval where
  sourceFamily : Text
  resourceId : Text
  upstreamVersion : Text
  upstreamVersionKind : Text
  contentSha256 : Text
  declaredRecordCount : ℤ
  deriving DecidableEq

structure SnapshotRow where
  createdByRunId : Text
  retrieval : Retrieval
  trustState : Text
  retrievedAt : ℤ
  retrievalMetadata : Jsonb
  storedRecordCount : ℤ
  validationState : ValidationState
  activatedAt : Option ℤ
  snapshotKey : Text

structure RawRecordRow where
  id : Text
  snapshotId : Text
  resourceId : Text
  upstreamRecordId : Text
  payload : Jsonb
  payloadSha256 : Text
  recordKey : Text
  sourceLocator : Jsonb

structure CapturedCandidate where
  id : Text
  snapshotId : Text
  rawRecordId : Text
  manufacturer : Text
  commercialModel : Text
  modelYearStart : Option ℤ
  modelYearEnd : Option ℤ
  officialModelCode : Option Text
  trim : Option Text
  identityDimensions : Jsonb
  status : Text
  candidateKey : Text

structure AdoptionRow where
  snapshotId : Text
  adoptionSeq : ℕ
  adoptedByRunId : Text
  previousWriterRunId : Text
  adoptedAt : ℤ
  deriving DecidableEq

structure CaptureStore where
  runs : Dict Text (RunRecord Jsonb)
  snapshots : Dict Text SnapshotRow
  rawRecords : List RawRecordRow
  candidates : List CapturedCandidate
  adoptions : List AdoptionRow

/-- Who calls, with which lease, and the time of the transaction. -/
structure WorkerCall where
  runId : Text
  lease : WorkerLease
  now : ℤ

/-! ## 2. The table constraints -/

def isLowerHex (c : Char) : Bool :=
  c.isDigit || (decide ('a' ≤ c) && decide (c ≤ 'f'))

/-- `key ~ '^<kind>\.[0-9a-f]{32}$'`. -/
def isDerivedKey (kind : String) (key : Text) : Bool :=
  decide (key.take 4 = kind.toList ++ ['.']) && decide (key.length = 36) &&
    (key.drop 4).all isLowerHex

/-- `char_length(text) between 1 and bound`. -/
def bounded (bound : ℕ) (text : Text) : Bool :=
  decide (1 ≤ text.length) && decide (text.length ≤ bound)

/-- A bounded text that `btrim` leaves as it is. -/
def exactText (bound : ℕ) (text : Text) : Bool :=
  bounded bound text && decide (text.head? ≠ some ' ') && decide (text.getLast? ≠ some ' ')

/-- The trust a source family carries. -/
def derivedTrust (sourceFamily : Text) : Text :=
  if sourceFamily = "legacy_reference".toList then "unverified".toList else "evidence".toList

/-- The CHECK constraints of `catalog_source_snapshots`. -/
def SnapshotRow.valid (db : CaptureDatabase) (row : SnapshotRow) : Bool :=
  ["government".toList, "manufacturer".toList, "legacy_reference".toList].contains
      row.retrieval.sourceFamily &&
    decide (row.trustState = derivedTrust row.retrieval.sourceFamily) &&
    db.sourceVersionValid row.retrieval.upstreamVersionKind row.retrieval.upstreamVersion &&
    (decide (row.retrieval.contentSha256.length = 64) &&
      row.retrieval.contentSha256.all isLowerHex) &&
    isDerivedKey "cs1" row.snapshotKey && bounded 200 row.retrieval.resourceId &&
    (decide (0 ≤ row.retrieval.declaredRecordCount) && decide (0 ≤ row.storedRecordCount)) &&
    decide (row.retrievalMetadata.text.length ≤ 4096) &&
    (row.activatedAt.isNone || (decide (row.validationState = .complete) &&
      decide (row.storedRecordCount = row.retrieval.declaredRecordCount))) &&
    (decide (row.validationState ≠ .failed) || row.activatedAt.isNone)

/-- The columns of `catalog_source_snapshots_natural_uidx`. -/
def Retrieval.natural (r : Retrieval) : Text × Text × Text × Text × Text :=
  (r.sourceFamily, r.resourceId, r.upstreamVersionKind, r.upstreamVersion, r.contentSha256)

def locatorKeys : List Text :=
  ["capture_index".toList, "page_index".toList, "page_number".toList, "page_offset".toList]

/-- `catalog_source_locator_valid`. -/
def catalogSourceLocatorValid : Jsonb → Bool
  | .obj members =>
    members.all fun entry =>
      locatorKeys.contains entry.1 &&
        match entry.2 with
        | .number n 0 => decide (0 ≤ n) && decide (n ≤ 2147483647)
        | _ => false
  | _ => false

/-- `(source_locator->>'capture_index')::integer`. -/
def capturePosition (locator : Jsonb) : Option ℤ :=
  (rendered (locator.member? "capture_index".toList)).bind castInteger

/-- The CHECK constraints of `catalog_raw_records`. -/
def RawRecordRow.valid (row : RawRecordRow) : Bool :=
  (decide (2 ≤ row.payload.text.length) && decide (row.payload.text.length ≤ 16384)) &&
    row.payload.isObject &&
    (decide (row.payloadSha256.length = 64) && row.payloadSha256.all isLowerHex) &&
    isDerivedKey "cr1" row.recordKey && bounded 200 row.upstreamRecordId &&
    bounded 200 row.resourceId && decide (row.sourceLocator.text.length ≤ 256) &&
    catalogSourceLocatorValid row.sourceLocator

/-- Two raw records that a unique index keeps apart, the replay identity aside. -/
def RawRecordRow.clashes (row other : RawRecordRow) : Bool :=
  decide (row.id = other.id) ||
    decide (row.snapshotId = other.snapshotId) &&
      (decide (row.upstreamRecordId = other.upstreamRecordId) ||
        (capturePosition row.sourceLocator).isSome &&
          decide (capturePosition row.sourceLocator = capturePosition other.sourceLocator))

def statusAllowlist : List Text :=
  ["candidate".toList, "ambiguous".toList, "rejected".toList, "ready_for_review".toList]

/-- The CHECK constraints of `catalog_candidate_variants`. -/
def CapturedCandidate.valid (db : CaptureDatabase) (row : CapturedCandidate) : Bool :=
  statusAllowlist.contains row.status && exactText 120 row.manufacturer &&
    exactText 200 row.commercialModel && row.officialModelCode.all (exactText 120) &&
    row.trim.all (exactText 120) &&
    (match row.modelYearStart, row.modelYearEnd with
    | none, none => true
    | some first, some last =>
      decide (1900 ≤ first) && decide (first ≤ 2100) && decide (first ≤ last) &&
        decide (last ≤ 2100)
    | _, _ => false) &&
    decide (row.identityDimensions.text.length ≤ 2048) && db.dimensionsValid row.identityDimensions &&
    isDerivedKey "cc1" row.candidateKey

/-- Two candidates of one record that state the same reading. -/
def CapturedCandidate.sameReading (row other : CapturedCandidate) : Bool :=
  decide (row.rawRecordId = other.rawRecordId) && decide (row.manufacturer = other.manufacturer) &&
    decide (row.commercialModel = other.commercialModel) &&
    decide (row.modelYearStart = other.modelYearStart) &&
    decide (row.modelYearEnd = other.modelYearEnd) &&
    decide (row.officialModelCode = other.officialModelCode) && decide (row.trim = other.trim) &&
    row.identityDimensions.same other.identityDimensions

/-- What a unique index or a CHECK raises. -/
def constraintViolated : String := "the row violates a constraint of its table"

namespace CaptureStore

variable (db : CaptureDatabase) (s : CaptureStore)

/-! ## 3. Who may write -/

def workflowKey (row : RunRecord Jsonb) : Option Text :=
  rendered (row.runIdentity.bind fun identity => identity.member? "workflow_key".toList)

def isOperatorCapture (row : RunRecord Jsonb) : Bool :=
  decide (workflowKey row = some "operator_capture".toList)

/-- `assert_worker_lease`. -/
def assertWorkerLease (call : WorkerCall) : Except String PUnit :=
  refuseIf (¬ (s.runs.get? call.runId).any fun row => row.assertWorkerLease call.now call.lease)
    "STALE_WORKER_WRITE"

def adoptionsOf (snapshotId : Text) : List AdoptionRow :=
  s.adoptions.filter fun a => decide (a.snapshotId = snapshotId)

/-- The adopter of the latest adoption. -/
def latestAdopter? (snapshotId : Text) : Option Text :=
  ((s.adoptionsOf snapshotId).argmax AdoptionRow.adoptionSeq).map AdoptionRow.adoptedByRunId

/-- `catalog_snapshot_current_writer`. -/
def currentWriter? (snapshotId : Text) : Option Text :=
  (s.latestAdopter? snapshotId).or ((s.snapshots.get? snapshotId).map SnapshotRow.createdByRunId)

/-- `assert_snapshot_write_authority`. -/
def assertSnapshotWriteAuthority (snapshotId runId : Text) (allowDecided : Bool) :
    Except String SnapshotRow := do
  let row ← required (s.snapshots.get? snapshotId) "invalid catalog snapshot"
  refuseIf ((s.latestAdopter? snapshotId).getD row.createdByRunId ≠ runId)
    "this catalog snapshot does not belong to this run"
  refuseIf (allowDecided = false ∧ row.validationState = .failed)
    "a failed catalog snapshot is terminal"
  refuseIf (allowDecided = false ∧ row.activatedAt.isSome = true)
    "an active catalog snapshot is immutable"
  return row

/-! ## 4. Opening a snapshot -/

/-- The screens both snapshot writes pass a document through. -/
def screenSnapshot (p : Jsonb) : Except String PUnit := do
  refuseIf (db.unsafePayload p.text = true) "unsafe catalog payload rejected"

/-- A snapshot is never born active, and its counter is never supplied. -/
def refuseActivation (p : Jsonb) : Except String PUnit :=
  refuseIf (p.states "activated_at".toList ∨ p.states "stored_record_count".toList)
    "catalog snapshot activation is not a caller-supplied field"

def snapshotByKey? (key : Text) : Option (Text × SnapshotRow) :=
  s.snapshots.entries.find? fun e => decide (e.2.snapshotKey = key)

/-- `retrieval_metadata`, an empty object where none is given. -/
def statedMetadata (p : Jsonb) : Jsonb := (p.member? "retrieval_metadata".toList).getD (.obj [])

/-- `record_catalog_snapshot_guarded`; `id` is the identifier a new row is given. -/
def recordCatalogSnapshot (call : WorkerCall) (id : Text) (p : Jsonb) :
    Except String (CaptureStore × SnapshotRow) := do
  s.assertWorkerLease call
  screenSnapshot db p
  let incomplete := "invalid catalog snapshot: provenance is incomplete"
  let malformed := "invalid catalog snapshot: malformed count or retrieval time"
  let key ← required (p.statedText "snapshot_key".toList) incomplete
  let family ← required (p.statedText "source_family".toList) incomplete
  let resource ← required (p.statedText "resource_id".toList) incomplete
  let version ← required (p.statedText "upstream_version".toList) incomplete
  let kind ← required (p.statedText "upstream_version_kind".toList) incomplete
  let hash ← required (p.statedText "content_sha256".toList) incomplete
  let declared ←
    required ((rendered (p.member? "declared_record_count".toList)).bind castInteger) malformed
  let retrieved ← required ((rendered (p.member? "retrieved_at".toList)).bind db.instant) malformed
  refuseIf (declared < 0) malformed
  refuseIf ((p.statedText "trust_state".toList).any fun trust => trust ≠ derivedTrust family)
    "catalog trust state is pinned to the source family"
  refuseActivation p
  let retrieval : Retrieval := ⟨family, resource, version, kind, hash, declared⟩
  match s.snapshotByKey? key with
  | some (_, row) =>
    -- the same key may only resolve to the same retrieval
    refuseIf (row.retrieval ≠ retrieval) "catalog snapshot idempotency conflict"
    return (s, row)
  | none =>
    let state ← required
      (ValidationState.ofText? ((p.statedText "validation_state".toList).getD "pending".toList))
      constraintViolated
    let row : SnapshotRow :=
      { createdByRunId := call.runId
        retrieval := retrieval
        trustState := derivedTrust family
        retrievedAt := retrieved
        retrievalMetadata := statedMetadata p
        storedRecordCount := 0
        validationState := state
        activatedAt := none
        snapshotKey := key }
    refuseIf (¬ row.valid db) constraintViolated
    refuseIf (id ∈ s.snapshots.keys ∨
      ∃ e ∈ s.snapshots.entries, e.2.retrieval.natural = retrieval.natural) constraintViolated
    return ({ s with snapshots := s.snapshots.set id row }, row)

/-! ## 5. Raw records -/

/-- A raw record as a document states it. -/
structure RawReading where
  recordKey : Text
  upstreamRecordId : Text
  payload : Jsonb
  locator : Jsonb

/-- The checks of one raw record that need no table, in their order. -/
def readRawRecord (record : Jsonb) : Except String RawReading := do
  let missing := "invalid catalog raw record: identity or payload is missing"
  let key ← required (record.statedText "record_key".toList) missing
  let upstream ← required (record.statedText "upstream_record_id".toList) missing
  let payload ← required (record.member? "payload".toList) missing
  refuseIf (payload.isObject = false) missing
  refuseIf (record.states "payload_sha256".toList = true)
    "catalog raw record payload digest is derived, not supplied"
  refuseIf (16384 < payload.text.length)
    "invalid catalog raw record: payload exceeds the durable bound"
  let locator := (record.member? "source_locator".toList).getD (.obj [])
  refuseIf (catalogSourceLocatorValid locator = false) "invalid catalog raw record source locator"
  return ⟨key, upstream, payload, locator⟩

/-- A raw record states the resource of its snapshot. -/
def checkResource (record : Jsonb) (row : SnapshotRow) : Except String PUnit :=
  refuseIf (record.statedText "resource_id".toList ≠ some row.retrieval.resourceId)
    "catalog raw record resource mismatch"

def rawRecordsOf (snapshotId : Text) : List RawRecordRow :=
  s.rawRecords.filter fun r => decide (r.snapshotId = snapshotId)

def rawRecord? (snapshotId recordKey : Text) : Option RawRecordRow :=
  s.rawRecords.find? fun r => decide (r.snapshotId = snapshotId) && decide (r.recordKey = recordKey)

/-- Whether a stored record is not the one a replay states. -/
def rawConflict (stored : RawRecordRow) (reading : RawReading) : Bool :=
  decide (stored.upstreamRecordId ≠ reading.upstreamRecordId) ||
    decide (stored.payloadSha256 ≠ db.sha256 reading.payload.text) ||
    !stored.payload.same reading.payload || !stored.sourceLocator.same reading.locator

/-- The row a reading is stored as. -/
def rawRow (snapshotId : Text) (row : SnapshotRow) (id : Text) (reading : RawReading) : RawRecordRow where
  id := id
  snapshotId := snapshotId
  resourceId := row.retrieval.resourceId
  upstreamRecordId := reading.upstreamRecordId
  payload := reading.payload
  payloadSha256 := db.sha256 reading.payload.text
  recordKey := reading.recordKey
  sourceLocator := reading.locator

/-- What the table asks of one more row. -/
def admitRaw (stored : List RawRecordRow) (row : RawRecordRow) : Except String PUnit := do
  refuseIf (¬ row.valid) constraintViolated
  refuseIf (∃ other ∈ stored, row.clashes other = true) constraintViolated

/-- `stored_record_count = stored_record_count + n`, with the rows that were inserted. -/
def withRaw (snapshotId : Text) (row : SnapshotRow) (rows : List RawRecordRow) : CaptureStore :=
  { s with
    rawRecords := s.rawRecords ++ rows
    snapshots := s.snapshots.set snapshotId
      { row with storedRecordCount := row.storedRecordCount + rows.length } }

/-- `record_catalog_raw_record_guarded`.  The snapshot is locked, so a key that is not stored is
    inserted. -/
def recordCatalogRawRecord (call : WorkerCall) (id : Text) (record : Jsonb) :
    Except String (CaptureStore × RawRecordRow) := do
  s.assertWorkerLease call
  let reading ← readRawRecord record
  let snapshotId ← required (rendered (record.member? "snapshot_id".toList))
    "invalid catalog raw record snapshot"
  refuseIf (s.snapshots.get? snapshotId).isNone "invalid catalog raw record snapshot"
  let row ← s.assertSnapshotWriteAuthority snapshotId call.runId false
  checkResource record row
  match s.rawRecord? snapshotId reading.recordKey with
  | some stored =>
    refuseIf (rawConflict db stored reading) "catalog raw record idempotency conflict"
    return (s, stored)
  | none =>
    let new := rawRow db snapshotId row id reading
    admitRaw s.rawRecords new
    return (s.withRaw snapshotId row [new], new)

/-- The snapshot a batch names: every item is an object that names it. -/
def batchSnapshot (items : List Jsonb) (refusal : String) : Except String Text := do
  let first ← required items.head? refusal
  let snapshotId ← required (first.statedText "snapshot_id".toList) refusal
  refuseIf (¬ items.all fun e =>
    e.isObject && decide (e.statedText "snapshot_id".toList = some snapshotId)) refusal
  return snapshotId

/-- What a batch answers. -/
structure BatchAnswer (α : Type) where
  rows : List α
  inserted : ℕ
  alreadyPresent : ℕ

/-- `record_catalog_raw_records_batch_guarded`; `newId` gives the row of a record key its id. -/
def recordCatalogRawRecordsBatch (call : WorkerCall) (newId : Text → Text) (records : Jsonb) :
    Except String (CaptureStore × BatchAnswer RawRecordRow) := do
  s.assertWorkerLease call
  let items ← required records.elements? "invalid catalog raw record batch: 1 to 500 records"
  refuseIf (items = [] ∨ 500 < items.length) "invalid catalog raw record batch: 1 to 500 records"
  let snapshotId ← batchSnapshot items "invalid catalog raw record batch: one snapshot per batch"
  let row ← s.assertSnapshotWriteAuthority snapshotId call.runId false
  let readings ← items.mapM fun record => do
    let reading ← readRawRecord record
    checkResource record row
    return reading
  -- the first occurrence of every key that is not stored, in input order
  let missing := novel RawReading.recordKey
    (readings.filter fun reading => (s.rawRecord? snapshotId reading.recordKey).isNone)
  let new := missing.map fun reading => rawRow db snapshotId row (newId reading.recordKey) reading
  admitAll admitRaw s.rawRecords new
  let stored := s.withRaw snapshotId row new
  let rows ← readings.mapM fun reading => do
    let kept ← required (stored.rawRecord? snapshotId reading.recordKey)
      "catalog raw record idempotency conflict"
    refuseIf (rawConflict db kept reading) "catalog raw record idempotency conflict"
    return kept
  return (stored, ⟨rows, new.length, items.length - new.length⟩)

/-! ## 6. Candidates -/

/-- `nullif(payload ->> field, '')::integer`, checked as the batch checks it. -/
def statedYear (e : Jsonb) (field : String) : Except String (Option ℤ) :=
  match e.statedText field.toList with
  | none => return none
  | some text => do
    let year ← required (castInteger text) "invalid catalog candidate: malformed model year"
    return some year

/-- The checks of one candidate, in their order; the reading has no id yet. -/
def readCandidate (snapshotId : Text) (e : Jsonb) : Except String CapturedCandidate := do
  refuseIf (db.unsafePayload e.text = true) "unsafe catalog payload rejected"
  let incomplete := "invalid catalog candidate: identity is incomplete"
  let key ← required (e.statedText "candidate_key".toList) incomplete
  let manufacturer ← required (e.statedText "manufacturer".toList) incomplete
  let model ← required (e.statedText "commercial_model".toList) incomplete
  let status := (e.statedText "status".toList).getD "candidate".toList
  refuseIf (¬ statusAllowlist.contains status) "invalid catalog candidate status"
  let first ← statedYear e "model_year_start"
  let last ← statedYear e "model_year_end"
  refuseIf (first.isNone ≠ last.isNone)
    "invalid catalog candidate: a model year range must be whole"
  let record ← required
    ((rendered (e.member? "raw_record_id".toList)).bind fun rawId =>
      s.rawRecords.find? fun r => decide (r.id = rawId))
    "invalid catalog candidate raw record"
  refuseIf (record.snapshotId ≠ snapshotId) "catalog candidate snapshot mismatch"
  return {
    id := []
    snapshotId := snapshotId
    rawRecordId := record.id
    manufacturer := manufacturer
    commercialModel := model
    modelYearStart := first
    modelYearEnd := last
    officialModelCode := e.statedText "official_model_code".toList
    trim := e.statedText "trim".toList
    identityDimensions := (e.member? "identity_dimensions".toList).getD (.obj [])
    status := status
    candidateKey := key }

def candidate? (snapshotId candidateKey : Text) : Option CapturedCandidate :=
  s.candidates.find? fun c =>
    decide (c.snapshotId = snapshotId) && decide (c.candidateKey = candidateKey)

/-- The status of the last reading under a key. -/
def lastStatus? (readings : List CapturedCandidate) (key : Text) : Option Text :=
  (readings.reverse.find? fun c => decide (c.candidateKey = key)).map CapturedCandidate.status

/-- What the table asks of one more candidate. -/
def admitCandidate (stored : List CapturedCandidate) (row : CapturedCandidate) :
    Except String PUnit := do
  refuseIf (¬ row.valid db) constraintViolated
  refuseIf (∃ other ∈ stored, row.id = other.id ∨ row.sameReading other = true) constraintViolated

/-- The stored candidates of the snapshot take the last status the batch states for their key. -/
def restate (snapshotId : Text) (readings : List CapturedCandidate) (c : CapturedCandidate) :
    CapturedCandidate :=
  if c.snapshotId = snapshotId then
    { c with status := (lastStatus? readings c.candidateKey).getD c.status }
  else c

/-- `record_catalog_candidates_batch_guarded`. -/
def recordCatalogCandidatesBatch (call : WorkerCall) (newId : Text → Text) (candidates : Jsonb) :
    Except String (CaptureStore × BatchAnswer CapturedCandidate) := do
  s.assertWorkerLease call
  let items ← required candidates.elements? "invalid catalog candidate batch: 1 to 500 candidates"
  refuseIf (items = [] ∨ 500 < items.length)
    "invalid catalog candidate batch: 1 to 500 candidates"
  let snapshotId ← batchSnapshot items "invalid catalog candidate batch: one snapshot per batch"
  let _ ← s.assertSnapshotWriteAuthority snapshotId call.runId false
  let readings ← items.mapM (s.readCandidate db snapshotId)
  let missing := novel CapturedCandidate.candidateKey
    (readings.filter fun c => (s.candidate? snapshotId c.candidateKey).isNone)
  let new := missing.map fun c =>
    { c with
      id := newId c.candidateKey
      status := (lastStatus? readings c.candidateKey).getD c.status }
  admitAll (admitCandidate db) s.candidates new
  let stored := { s with candidates := (s.candidates ++ new).map (restate snapshotId readings) }
  let rows ← readings.mapM fun c => do
    let kept ← required (stored.candidate? snapshotId c.candidateKey)
      "catalog candidate idempotency conflict"
    refuseIf (¬ kept.sameReading c) "catalog candidate idempotency conflict"
    return kept
  return (stored, ⟨rows, new.length, items.length - new.length⟩)

/-! ## 7. The decision -/

/-- `activate_catalog_snapshot_guarded`. -/
def activateCatalogSnapshot (call : WorkerCall) (activation : Jsonb) :
    Except String (CaptureStore × SnapshotRow) := do
  s.assertWorkerLease call
  let stateText := (activation.statedText "validation_state".toList).getD "complete".toList
  refuseIf (stateText ≠ "complete".toList ∧ stateText ≠ "failed".toList)
    "invalid catalog snapshot validation state"
  let snapshotId ← required (rendered (activation.member? "snapshot_id".toList))
    "invalid catalog snapshot"
  let row ← s.assertSnapshotWriteAuthority snapshotId call.runId true
  if row.validationState = .failed then
    refuseIf (stateText ≠ "failed".toList) "a failed catalog snapshot is terminal"
    return (s, row)
  else if row.activatedAt.isSome = true then
    refuseIf (stateText ≠ "complete".toList) "an active catalog snapshot is immutable"
    return (s, row)
  else if stateText = "failed".toList then
    let decided := { row with validationState := .failed }
    return ({ s with snapshots := s.snapshots.set snapshotId decided }, decided)
  else
    -- the completeness gate
    refuseIf (row.storedRecordCount ≠ row.retrieval.declaredRecordCount)
      "catalog snapshot is incomplete"
    let decided := { row with validationState := .complete, activatedAt := some call.now }
    return ({ s with snapshots := s.snapshots.set snapshotId decided }, decided)

/-! ## 8. Adoption -/

/-- Whether a lease has time left. -/
def leaseLive (row : RunRecord Jsonb) (now : ℤ) : Bool :=
  row.leaseExpiresAt.any fun expires => decide (now < expires)

/-- A run that ended without a result. -/
def endedUnsuccessfully (row : RunRecord Jsonb) : Bool :=
  decide (row.status = .failed) || decide (row.status = .cancelled) || decide (row.status = .timedOut)

/-- An operator capture run, alive and leased. -/
def liveOperatorCapture (row : RunRecord Jsonb) (now : ℤ) : Bool :=
  isOperatorCapture row && (decide (row.status = .starting) || decide (row.status = .running)) &&
    leaseLive row now

/-- `catalog_check_snapshot_adoption` and the constraints of `catalog_snapshot_adoptions`. -/
def checkSnapshotAdoption (now : ℤ) (snapshotId adopterId previousId : Text) :
    Except String AdoptionRow := do
  let previous ← required (s.runs.get? previousId) "CATALOG_SNAPSHOT_ADOPTION_REFUSED: unknown run"
  let adopter ← required (s.runs.get? adopterId) "CATALOG_SNAPSHOT_ADOPTION_REFUSED: unknown run"
  refuseIf (¬ liveOperatorCapture adopter now)
    "CATALOG_SNAPSHOT_ADOPTION_REFUSED: only a live operator capture run adopts"
  refuseIf (¬ endedUnsuccessfully previous ∨ leaseLive previous now)
    "CATALOG_SNAPSHOT_ADOPTION_REFUSED: the writing run is live or did not fail"
  let row ← required (s.snapshots.get? snapshotId)
    "CATALOG_SNAPSHOT_ADOPTION_REFUSED: unknown snapshot"
  refuseIf (s.currentWriter? snapshotId ≠ some previousId)
    "CATALOG_SNAPSHOT_ADOPTION_REFUSED: that run is not the snapshot's writer"
  refuseIf (row.activatedAt.isSome = true ∨ row.validationState ≠ .pending)
    "CATALOG_SNAPSHOT_ADOPTION_REFUSED: only a pending snapshot is adopted"
  refuseIf (adopterId = previousId) constraintViolated
  refuseIf (∃ a ∈ s.adoptionsOf snapshotId, a.adoptedByRunId = adopterId) constraintViolated
  -- numbered here, never by a caller
  let seq := ((s.adoptionsOf snapshotId).map AdoptionRow.adoptionSeq).foldl max 0 + 1
  return ⟨snapshotId, seq, adopterId, previousId, now⟩

def adoptionFields : List Text :=
  ["capture_scope".toList, "capture_contract".toList, "page_chain_sha256".toList,
    "normalization_contract".toList, "normalized_record_count".toList,
    "normalization_issue_count".toList, "normalization_issues".toList,
    "normalization_issue_records".toList]

/-- The same declared scope, and the same reading of it. -/
def sameCapture (row : SnapshotRow) (metadata : Jsonb) : Bool :=
  adoptionFields.all fun field =>
    sameValue (row.retrievalMetadata.member? field) (metadata.member? field)

/-- `adopt_catalog_snapshot_guarded`. -/
def adoptCatalogSnapshot (call : WorkerCall) (p : Jsonb) :
    Except String (CaptureStore × SnapshotRow × Option AdoptionRow) := do
  s.assertWorkerLease call
  refuseIf (¬ (s.runs.get? call.runId).any isOperatorCapture)
    "CATALOG_SNAPSHOT_ADOPTION_REFUSED: only an operator capture run adopts"
  let invalid := "invalid catalog snapshot adoption"
  refuseIf (p.isObject = false) invalid
  screenSnapshot db p
  refuseActivation p
  let declared ←
    required ((rendered (p.member? "declared_record_count".toList)).bind castInteger) invalid
  let key ← required (p.statedText "snapshot_key".toList) invalid
  let family ← required (p.statedText "source_family".toList) invalid
  let resource ← required (p.statedText "resource_id".toList) invalid
  let version ← required (p.statedText "upstream_version".toList) invalid
  let kind ← required (p.statedText "upstream_version_kind".toList) invalid
  let hash ← required (p.statedText "content_sha256".toList) invalid
  let metadata := statedMetadata p
  refuseIf (metadata.isObject = false) invalid
  let (snapshotId, row) ← required (s.snapshotByKey? key)
    "CATALOG_SNAPSHOT_ADOPTION_REFUSED: unknown snapshot"
  refuseIf (row.retrieval ≠ ⟨family, resource, version, kind, hash, declared⟩)
    "catalog snapshot idempotency conflict"
  refuseIf (sameCapture row metadata = false)
    "CATALOG_SNAPSHOT_ADOPTION_REFUSED: the capture does not match the snapshot"
  let writer := (s.currentWriter? snapshotId).getD []
  if writer = call.runId then
    -- already this run's to write: a replay
    return (s, row, (s.adoptionsOf snapshotId).find? fun a => decide (a.adoptedByRunId = call.runId))
  else
    let adoption ← s.checkSnapshotAdoption call.now snapshotId call.runId writer
    return ({ s with adoptions := s.adoptions ++ [adoption] }, row, some adoption)

end CaptureStore

end Milo.Catalog
