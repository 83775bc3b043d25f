import Milo.Catalog.CaptureProtocol
import Milo.Reasoning.Grouping
import Milo.Reasoning.StableSort

/-!
# RegisterCaptures — the requests for captures of the register, and their jobs

The directory names the units of the register.  A request claims units in a group, one group is one
execution of the capture job, and the job reports each unit under the lease of the group's run.  A
group is stale when its work will not happen; then its units may be claimed again.
-/

namespace Milo.Catalog

-- Of the orders Mathlib gives the integers, the one that computes.
attribute [local instance (2000)] LinearOrder.toPartialOrder

open Milo.Reasoning Milo.Python Milo.Finalization

/-! ## 1. Rows -/

/-- A row of `catalog_register_directory_versions` with its units. -/
structure DirectoryVersion where
  id : Text
  createdAt : ℤ
  resourceId : Text
  registerVersion : Text
  fetchedAt : ℤ
  units : List (Text × ℕ)
  deriving DecidableEq

inductive GroupKind
  | capture
  | directory
  deriving DecidableEq, Repr

inductive TriggerState
  | claimed
  | triggered
  | triggerFailed
  | triggerUnknown
  deriving DecidableEq, Repr

structure RegisterGroup where
  kind : GroupKind
  registerVersion : Option Text
  requestedBy : Text
  expectedRows : ℕ
  runId : Option Text := none
  triggerState : TriggerState := .claimed
  executionName : Option Text := none
  claimedAt : ℤ
  triggeredAt : Option ℤ := none
  deriving DecidableEq

inductive UnitStatus
  | requested
  | capturing
  | captured
  | failed
  deriving DecidableEq, Repr

/-- A row of `catalog_register_capture_units`, stored under its version and tozar. -/
structure RegisterUnit where
  id : Text
  groupId : Text
  expectedRows : ℕ
  attempt : ℕ := 1
  status : UnitStatus := .requested
  failureCode : Option Text := none
  snapshotId : Option Text := none
  snapshotKey : Option Text := none
  apiTotal : Option ℤ := none
  capturedRows : Option ℤ := none
  countVerified : Option Bool := none
  measuredBytes : Option ℤ := none
  measurementMethod : Option String := none
  updatedAt : ℤ
  deriving DecidableEq

structure SnapshotArchive where
  snapshotId : Text
  snapshotKey : Text
  gcsUri : Text
  byteSize : ℤ
  sha256 : Text
  lineCount : ℤ
  recordedByRunId : Text
  deriving DecidableEq

structure RegisterStore where
  catalog : CaptureStore
  versions : List DirectoryVersion
  groups : Dict Text RegisterGroup
  units : Dict (Text × Text) RegisterUnit
  archives : List SnapshotArchive

/-! ## 2. Staleness -/

/-- `catalog_register_group_stale`, of a group and the run it is bound to. -/
def RegisterGroup.stale (g : RegisterGroup) (run : Option (RunRecord Jsonb)) (now grace : ℤ) : Bool :=
  let limit := now - grace
  let started := g.triggeredAt.getD g.claimedAt
  decide (g.triggerState = .triggerFailed) ||
    (decide (g.triggerState = .claimed) && g.runId.isNone && decide (g.claimedAt < limit)) ||
    match run with
    | none => false
    | some r =>
      r.status.isTerminal ||
        (decide (r.status = .queued) && r.workerId.isNone && decide (started < limit)) ||
        ((decide (r.status = .starting) || decide (r.status = .running)) &&
          r.leaseExpiresAt.any fun expires => decide (expires < limit)) ||
        ((decide (r.status = .launching) || decide (r.status = .waiting) ||
            decide (r.status = .cancellationRequested) ||
              (decide (r.status = .queued) && r.workerId.isSome)) &&
          decide (r.leaseExpiresAt.getD started < limit))

/-- `make_interval(secs => seconds)`. -/
def graceOf (seconds : ℤ) : ℤ := seconds * 1000000

/-- What the register functions raise. -/
def requestInvalid : String := "CATALOG_REGISTER_REQUEST_INVALID: invalid register capture request"

/-- `text ~ '^[0-9a-f]{64}$'`. -/
def isSha256 (text : Text) : Bool := decide (text.length = 64) && text.all isLowerHex

/-- `text ~ '^[A-Z][A-Z0-9_]{2,79}$'`. -/
def isFailureCode (text : Text) : Bool :=
  let upper : Char → Bool := fun c => decide ('A' ≤ c) && decide (c ≤ 'Z')
  decide (3 ≤ text.length) && decide (text.length ≤ 80) && (text.head?.any upper) &&
    text.all fun c => upper c || c.isDigit || decide (c = '_')

/-! ## 3. What the functions are given -/

/-- A request for captures: what it asks for, and the caps it comes with. -/
structure CaptureRequest where
  registerVersion : Text
  tozars : List Text
  requestedBy : Text
  groupMaxRows : ℤ
  capacityLimitBytes : ℤ
  bytesPerRow : ℤ
  graceSeconds : ℤ

/-- What a request answers: the group it claimed, if any, and the units it names. -/
structure CaptureClaim where
  group : Option (Text × RegisterGroup)
  units : List ((Text × Text) × RegisterUnit)

/-- The outcome of one unit as the job reports it. -/
structure UnitReport where
  unitId : Text
  status : UnitStatus
  failureCode : Option Text := none
  snapshotId : Option Text := none
  apiTotal : Option ℤ := none
  capturedRows : Option ℤ := none
  countVerified : Option Bool := none

/-- An archive as the job records it. -/
structure ArchiveReport where
  snapshotId : Text
  gcsUri : Text
  byteSize : ℤ
  sha256 : Text
  lineCount : ℤ

namespace RegisterStore

variable (db : CaptureDatabase) (s : RegisterStore)

def run? (g : RegisterGroup) : Option (RunRecord Jsonb) := g.runId.bind s.catalog.runs.get?

/-- `catalog_register_group_stale`. -/
def groupStale (now grace : ℤ) (groupId : Text) : Bool :=
  match s.groups.get? groupId with
  | none => true
  | some g => g.stale (s.run? g) now grace

/-! ## 4. The directory -/

/-- `catalog_register_version`. -/
def catalogRegisterVersion (resourceId : Text) (units : List (Text × ℕ)) : Text :=
  db.sha256 ("gov.register.directory.1\n".toList ++ resourceId ++ ['\n'] ++
    (sortedBy Prod.fst units).flatMap fun u =>
      jsonbQuoted u.1 ++ [':'] ++ natText u.2 ++ ['\n'])

/-- The newest directory version. -/
def latestDirectory? : Option DirectoryVersion :=
  s.versions.argmax fun v => toLex (v.createdAt, v.id)

/-- `record_register_directory`; `id` is the identifier a new version is given. -/
def recordRegisterDirectory (now : ℤ) (id resourceId : Text) (fetchedAt : ℤ)
    (units : List (Text × ℕ)) : Except String (RegisterStore × DirectoryVersion) := do
  refuseIf (¬ (resourceId.length = 36 ∧ resourceId.all fun c => isLowerHex c || decide (c = '-')) ∨
      5000 < units.length) "CATALOG_REGISTER_DIRECTORY_INVALID: invalid register directory"
  refuseIf ((∃ u ∈ units, ¬ (1 ≤ u.1.length ∧ u.1.length ≤ 200 ∧ u.2 < 1000000000)) ∨
      ¬ (units.map Prod.fst).Nodup)
    "CATALOG_REGISTER_DIRECTORY_INVALID: invalid register directory unit"
  let version := catalogRegisterVersion db resourceId units
  match s.latestDirectory? with
  | some latest =>
    if latest.registerVersion = version then return (s, latest)
    else
      let row : DirectoryVersion := ⟨id, now, resourceId, version, fetchedAt, units⟩
      return ({ s with versions := s.versions ++ [row] }, row)
  | none =>
    let row : DirectoryVersion := ⟨id, now, resourceId, version, fetchedAt, units⟩
    return ({ s with versions := s.versions ++ [row] }, row)

/-! ## 5. Claiming units -/

/-- Whether a unit may be claimed: nobody asked for it, or what was asked came to nothing. -/
def startable (now grace : ℤ) (key : Text × Text) : Bool :=
  match s.units.get? key with
  | none => true
  | some u =>
    decide (u.status ≠ .captured) &&
      (decide (u.status = .failed) || s.groupStale now grace u.groupId)

/-- A unit whose rows are claimed and not yet in the database. -/
def inFlight (now grace : ℤ) (u : RegisterUnit) : Bool :=
  (decide (u.status = .requested) || decide (u.status = .capturing)) &&
    !s.groupStale now grace u.groupId

/-- The rows in flight, the units under `keys` left out. -/
def inFlightRows (now grace : ℤ) (keys : List (Text × Text)) : ℕ :=
  s.units.total fun key u => if key ∉ keys ∧ s.inFlight now grace u = true then u.expectedRows else 0

/-- The row of a unit claimed now: a new one, or the stored one reset. -/
def claimedUnit (now : ℤ) (groupId : Text) (key : Text × Text) (newId : Text) (rows : ℕ) :
    RegisterUnit :=
  match s.units.get? key with
  | none => { id := newId, groupId := groupId, expectedRows := rows, updatedAt := now }
  | some u =>
    { u with
      groupId := groupId
      attempt := u.attempt + 1
      status := .requested
      failureCode := none
      snapshotId := none
      snapshotKey := none
      apiTotal := none
      capturedRows := none
      countVerified := none
      measuredBytes := none
      measurementMethod := none
      updatedAt := now }

def unitIds (units : Dict (Text × Text) RegisterUnit) : List Text := units.values.map RegisterUnit.id

/-- The stored units of a request. -/
def unitsNamed (request : CaptureRequest) : List ((Text × Text) × RegisterUnit) :=
  s.units.entries.filter fun e =>
    decide (e.1.1 = request.registerVersion) && decide (e.1.2 ∈ request.tozars)

/-- `request_register_capture`; a new group and new units are given the identifiers `groupId` and
    `newId`, and the database holds `databaseBytes`. -/
def requestRegisterCapture (now : ℤ) (groupId : Text) (newId : Text → Text) (databaseBytes : ℤ)
    (request : CaptureRequest) : Except String (RegisterStore × CaptureClaim) := do
  refuseIf (¬ (isSha256 request.registerVersion ∧ 1 ≤ request.tozars.length ∧
    request.tozars.length ≤ 1000 ∧ 1 ≤ request.groupMaxRows ∧ 1 ≤ request.capacityLimitBytes ∧
    1 ≤ request.bytesPerRow ∧ 300 ≤ request.graceSeconds ∧ request.graceSeconds ≤ 86400 ∧
    request.tozars.Nodup)) requestInvalid
  let grace := graceOf request.graceSeconds
  let stale :=
    "CATALOG_REGISTER_VERSION_STALE: that is not the current register directory version"
  let latest ← required s.latestDirectory? stale
  refuseIf (latest.registerVersion ≠ request.registerVersion) stale
  let named ← request.tozars.mapM fun tozar => do
    let rows ← required (latest.units.lookup tozar)
      "CATALOG_REGISTER_UNIT_UNKNOWN: a requested tozar is not in the register directory"
    return ((request.registerVersion, tozar), rows)
  let new := named.filter fun e => s.startable now grace e.1
  if new = [] then return (s, ⟨none, s.unitsNamed request⟩)
  else
    let newRows := (new.map Prod.snd).sum
    -- one tozar larger than the cap is captured alone
    refuseIf (1 < new.length ∧ request.groupMaxRows < newRows) "CATALOG_REGISTER_GROUP_TOO_LARGE"
    refuseIf (request.capacityLimitBytes <
        databaseBytes + (newRows + s.inFlightRows now grace (new.map Prod.fst) : ℕ) *
          request.bytesPerRow) "CATALOG_CAPACITY_THRESHOLD_EXCEEDED"
    let group : RegisterGroup :=
      { kind := .capture
        registerVersion := some request.registerVersion
        requestedBy := request.requestedBy
        expectedRows := newRows
        claimedAt := now }
    refuseIf (groupId ∈ s.groups.keys) constraintViolated
    let claimed := new.map fun e => (e.1, s.claimedUnit now groupId e.1 (newId e.1.2) e.2)
    refuseIf (∃ e ∈ claimed, 1000 < e.2.attempt) constraintViolated
    let units := s.units.setAll claimed
    refuseIf (¬ (unitIds units).Nodup) constraintViolated
    let stored : RegisterStore :=
      { s with
        groups := s.groups.set groupId group
        units := units }
    return (stored,
      ⟨some (groupId, group), stored.units.entries.filter fun e => decide (e.2.groupId = groupId)⟩)

/-! ## 6. Directory refreshes -/

/-- The newest group of a directory refresh. -/
def latestDirectoryGroup? : Option (Text × RegisterGroup) :=
  (s.groups.entries.filter fun e => decide (e.2.kind = .directory)).argmax fun e =>
    toLex (e.2.claimedAt, e.1)

/-- `request_register_directory_refresh`: the group, and whether it was claimed now. -/
def requestRegisterDirectoryRefresh (now : ℤ) (groupId requestedBy : Text) (graceSeconds : ℤ) :
    Except String (RegisterStore × (Text × RegisterGroup) × Bool) := do
  refuseIf (¬ (300 ≤ graceSeconds ∧ graceSeconds ≤ 86400))
    "CATALOG_REGISTER_REQUEST_INVALID: invalid directory refresh request"
  let live := s.latestDirectoryGroup?.filter fun e => !s.groupStale now (graceOf graceSeconds) e.1
  match live with
  | some e => return (s, e, false)
  | none =>
    refuseIf (groupId ∈ s.groups.keys) constraintViolated
    let group : RegisterGroup :=
      { kind := .directory
        registerVersion := none
        requestedBy := requestedBy
        expectedRows := 0
        claimedAt := now }
    return ({ s with groups := s.groups.set groupId group }, (groupId, group), true)

/-! ## 7. Triggers -/

/-- The failure of a unit whose group's trigger failed. -/
def failRequested (now : ℤ) (groupId : Text) (u : RegisterUnit) : RegisterUnit :=
  if u.groupId = groupId ∧ u.status = .requested then
    { u with
      status := .failed
      failureCode := some "CATALOG_REGISTER_TRIGGER_FAILED".toList
      updatedAt := now }
  else u

/-- `record_register_capture_trigger`. -/
def recordRegisterCaptureTrigger (now : ℤ) (groupId : Text) (runId : Option Text)
    (state : TriggerState) (executionName : Option Text) :
    Except String (RegisterStore × RegisterGroup) := do
  refuseIf (executionName.any fun name => 400 < name.length)
    "CATALOG_REGISTER_REQUEST_INVALID: invalid trigger record"
  let conflict := "CATALOG_REGISTER_TRIGGER_CONFLICT: that group is not claimed by this attempt"
  let group ← required (s.groups.get? groupId) conflict
  refuseIf (group.triggerState ≠ .claimed ∨ (group.runId.isSome = true ∧ runId ≠ group.runId))
    conflict
  let recorded : RegisterGroup :=
    { group with
      runId := runId.or group.runId
      triggerState := state
      executionName := if state = .claimed then group.executionName else executionName
      triggeredAt := if state = .claimed then group.triggeredAt else some now }
  let units :=
    if state = .triggerFailed then s.units.mapValues fun _ u => failRequested now groupId u
    else s.units
  return ({ s with groups := s.groups.set groupId recorded, units := units }, recorded)

/-! ## 8. What a job reports -/

def archive? (snapshotId : Text) : Option SnapshotArchive :=
  s.archives.find? fun a => decide (a.snapshotId = snapshotId)

/-- What a captured unit has to show: an active, count-verified, archived snapshot. -/
def captureVerified (report : UnitReport) (snapshot : Option (Text × SnapshotRow)) : Bool :=
  match snapshot, report.apiTotal, report.capturedRows with
  | some (snapshotId, row), some apiTotal, some captured =>
    row.activatedAt.isSome && decide (report.countVerified = some true) &&
      decide (apiTotal = captured) && decide (row.storedRecordCount = captured) &&
        (s.archive? snapshotId).isSome
  | _, _, _ => false

/-- The row of a unit after a report; the snapshot's rows take `measured` bytes. -/
def reportedUnit (now measured : ℤ) (report : UnitReport) (snapshot : Option (Text × SnapshotRow))
    (u : RegisterUnit) : RegisterUnit :=
  let measures := snapshot.isSome && decide (report.status ≠ .capturing)
  { u with
    status := report.status
    failureCode := report.failureCode
    snapshotId := (snapshot.map Prod.fst).or u.snapshotId
    snapshotKey := (snapshot.map fun e => e.2.snapshotKey).or u.snapshotKey
    apiTotal := report.apiTotal.or u.apiTotal
    capturedRows := report.capturedRows.or u.capturedRows
    countVerified := report.countVerified.or u.countVerified
    measuredBytes := if measures then some measured else u.measuredBytes
    measurementMethod :=
      if measures then some "pg_column_size(raw_records+candidates)" else u.measurementMethod
    updatedAt := now }

/-- `record_register_unit_status`. -/
def recordRegisterUnitStatus (call : WorkerCall) (measured : ℤ) (report : UnitReport) :
    Except String (RegisterStore × RegisterUnit) := do
  s.catalog.assertWorkerLease call
  refuseIf (report.status = .requested ∨
      (report.status = .failed ∧ ¬ report.failureCode.any isFailureCode) ∨
      (report.status ≠ .failed ∧ report.failureCode.isSome))
    "CATALOG_REGISTER_REQUEST_INVALID: invalid unit status"
  let (key, u) ← required (s.units.entries.find? fun e => decide (e.2.id = report.unitId))
    "CATALOG_REGISTER_UNIT_UNKNOWN: unknown register capture unit"
  refuseIf ((s.groups.get? u.groupId).bind RegisterGroup.runId ≠ some call.runId)
    "CATALOG_REGISTER_UNIT_NOT_THIS_RUN: that unit is not captured by this run"
  if u.status = .captured then return (s, u)
  else
    let snapshot := report.snapshotId.bind fun snapshotId =>
      (s.catalog.snapshots.get? snapshotId).map fun row => (snapshotId, row)
    refuseIf (report.snapshotId.isSome = true ∧ snapshot.isNone = true)
      "CATALOG_REGISTER_REQUEST_INVALID: unknown snapshot"
    refuseIf (report.status = .captured ∧ s.captureVerified report snapshot = false)
      "CATALOG_REGISTER_CAPTURE_UNVERIFIED: a captured unit needs an active, count-verified, archived snapshot"
    let reported := reportedUnit call.now measured report snapshot u
    refuseIf (reported.apiTotal.any (· < 0) ∨ reported.capturedRows.any (· < 0) ∨
      reported.measuredBytes.any (· < 0)) constraintViolated
    return ({ s with units := s.units.set key reported }, reported)

/-- `record_register_snapshot_archive`; `uriValid` is the pattern of the column. -/
def recordRegisterSnapshotArchive (uriValid : Text → Bool) (call : WorkerCall)
    (report : ArchiveReport) : Except String (RegisterStore × SnapshotArchive) := do
  s.catalog.assertWorkerLease call
  let row ← required (s.catalog.snapshots.get? report.snapshotId)
    "CATALOG_REGISTER_REQUEST_INVALID: unknown snapshot"
  let lines := ((s.catalog.rawRecordsOf report.snapshotId).filter fun r =>
    r.sourceLocator.states "capture_index".toList).length
  refuseIf ((lines : ℤ) ≠ report.lineCount ∨ row.retrieval.declaredRecordCount ≠ report.lineCount)
    "CATALOG_CAPTURE_COUNT_MISMATCH: the archive does not hold exactly the stored rows"
  let object := ['/'] ++ row.snapshotKey ++ ".jsonl.gz".toList
  refuseIf (¬ (object <:+ report.gcsUri ∧
      ("/register/".toList ++ row.retrieval.resourceId ++ ['/']) <:+: report.gcsUri))
    "CATALOG_REGISTER_REQUEST_INVALID: the archive object does not name this snapshot"
  match s.archive? report.snapshotId with
  | some stored =>
    refuseIf (¬ (stored.sha256 = report.sha256 ∧ stored.gcsUri = report.gcsUri ∧
      stored.byteSize = report.byteSize))
      "CATALOG_ARCHIVE_CONFLICT: a different archive is already recorded for that snapshot"
    return (s, stored)
  | none =>
    let archive : SnapshotArchive :=
      ⟨report.snapshotId, row.snapshotKey, report.gcsUri, report.byteSize, report.sha256,
        report.lineCount, call.runId⟩
    refuseIf (¬ (uriValid report.gcsUri ∧ 0 < report.byteSize ∧ isSha256 report.sha256) ∨
      ∃ a ∈ s.archives, a.snapshotKey = row.snapshotKey) constraintViolated
    return ({ s with archives := s.archives ++ [archive] }, archive)

end RegisterStore

end Milo.Catalog
