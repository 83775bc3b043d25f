import Milo.Catalog.RegisterCaptures

/-!
# RegisterRounds — one tozar, from directory to compaction

A round records the directory, requests the tozar under its version, captures it, builds the snapshot's
variants and compacts.  A snapshot is stored under its content; nothing else reads it meanwhile and
nothing fails.  Instants are microseconds; the payloads of rows are of type `π`.
-/

namespace Milo.Catalog

-- Of the orders Mathlib gives the integers, the one that computes.
attribute [local instance (2000)] LinearOrder.toPartialOrder

open Milo.Reasoning Milo.Python

/-! ## 1. The rows -/

/-- The rows of a tozar, by upstream record. -/
abbrev RegisterContent (π : Type) := List (Text × π)

/-- A directory: what `register_version` is the digest of. -/
abbrev DirectoryContent := List (Text × ℕ)

/-- A row of `catalog_source_snapshots` with its raw records; a compacted row has no payload. -/
structure TozarSnapshot (π : Type) where
  activatedAt : Option ℤ := none
  declaredRecordCount : ℕ
  storedRecordCount : ℕ
  rawRecords : List (Text × Option π)

/-- A row of `catalog_variant_builds` under the current mapper version. -/
structure VariantBuild where
  activatedAt : ℤ
  expectedRows : ℕ
  builtRows : ℕ
  completedAt : Option ℤ

/-- A row of `catalog_register_capture_units` of the tozar. -/
structure TozarUnit (π : Type) where
  status : UnitStatus
  failureCode : Option String := none
  snapshot : Option (RegisterContent π) := none
  capturedRows : Option ℕ := none
  countVerified : Option Bool := none
  updatedAt : ℤ

/-- Who answers for what a compaction removed. -/
inductive CompactionReaders
  | variants
  | archive
  deriving DecidableEq, Repr

/-- What the database holds of one tozar. -/
structure TozarStore (π : Type) where
  tozar : Text
  now : ℤ
  directory : Option DirectoryContent
  snapshots : Dict (RegisterContent π) (TozarSnapshot π)
  builds : Dict (RegisterContent π) VariantBuild
  archives : Dict (RegisterContent π) ℕ
  compactions : List (RegisterContent π × CompactionReaders)
  units : Dict DirectoryContent (TozarUnit π)

/-- What a refused step leaves: a code, and the rows as they are. -/
structure Refused (α : Type) where
  code : String
  left : α

namespace TozarStore

variable {π : Type} [DecidableEq π] (s : TozarStore π)

/-! ## 2. What is current -/

/-- The newest of the dated entries. -/
def newest {α : Type} (dated : List (α × ℤ)) : Option α := (dated.argmax Prod.snd).map Prod.fst

/-- The activated snapshots, with their instants. -/
def activated : List (RegisterContent π × ℤ) :=
  s.snapshots.entries.filterMap fun e => e.2.activatedAt.map fun at' => (e.1, at')

/-- Rank 1: the snapshot activated last. -/
def activeSnapshot : Option (RegisterContent π) := newest s.activated

/-- `catalog_variant_current_snapshot`. -/
def catalogVariantCurrentSnapshot : Option (RegisterContent π) :=
  newest ((s.builds.entries.filter fun e => e.2.completedAt.isSome).map fun e => (e.1, e.2.activatedAt))

/-- A compaction of the snapshot with these readers is recorded. -/
def compactedFor (key : RegisterContent π) (readers : CompactionReaders) : Bool :=
  s.compactions.contains (key, readers)

/-- `catalog_readable_snapshot` does not refuse it. -/
def readable (key : RegisterContent π) : Bool := !s.compactedFor key .archive

/-- What the newest register unit that captured the snapshot says of its count. -/
def countVerified (key : RegisterContent π) : Option (Option Bool) :=
  newest ((s.units.entries.filter fun e => decide (e.2.snapshot = some key)).map fun e =>
    (e.2.countVerified, e.2.updatedAt))

/-- The rows of the last capture of the tozar. -/
def lastCapturedRows : Option ℕ :=
  (newest ((s.units.entries.filter fun e => decide (e.2.status = .captured)).map fun e =>
    (e.2.capturedRows, e.2.updatedAt))).join

def withSnapshot (key : RegisterContent π) (snapshot : TozarSnapshot π) : TozarStore π :=
  { s with snapshots := s.snapshots.set key snapshot }

def withBuild (key : RegisterContent π) (build : VariantBuild) : TozarStore π :=
  { s with builds := s.builds.set key build }

/-! ## 3. Directory and request -/

/-- `record_register_directory`: a new version only when it differs from the newest. -/
def recordRegisterDirectory (found : DirectoryContent) : TozarStore π :=
  if s.directory = some found then s else { s with directory := some found }

/-- `request_register_capture` of the tozar, once every earlier run has ended: whether it is claimed. -/
def requestRegisterCapture (version : DirectoryContent) : Except String (Bool × TozarStore π) := do
  refuseIf (s.directory ≠ some version) "CATALOG_REGISTER_VERSION_STALE"
  let _ ← required (version.lookup s.tozar) "CATALOG_REGISTER_UNIT_UNKNOWN"
  let claimed := { s with units := s.units.set version { status := .requested, updatedAt := s.now } }
  match s.units.get? version with
  | none => pure (true, claimed)
  | some unit => if unit.status = .captured then pure (false, s) else pure (true, claimed)

def recordUnit (version : DirectoryContent) (unit : TozarUnit π) : TozarStore π :=
  { s with units := s.units.set version unit }

/-! ## 4. The capture -/

def countMismatch : String := "CATALOG_CAPTURE_COUNT_MISMATCH"

/-- `count_catalog_raw_records`. -/
def countRawRecords (key : RegisterContent π) : ℕ :=
  ((s.snapshots.get? key).map fun snapshot => snapshot.rawRecords.length).getD 0

/-- `_verify_count` against the fresh count of the source. -/
def verifyCount (key : RegisterContent π) (apiTotal : ℕ) : Except (Refused (TozarStore π)) ℕ :=
  if s.countRawRecords key = apiTotal then .ok apiTotal else .error ⟨countMismatch, s⟩

/-- `_Archiver.ensure`: a recorded archive stands. -/
def ensureArchive (key content : RegisterContent π) : TozarStore π :=
  if (s.archives.get? key).isSome then s
  else { s with archives := s.archives.set key content.length }

/-- The snapshot with the rows of a capture written. -/
def writeRecords (content : RegisterContent π) : TozarStore π :=
  s.withSnapshot content
    { declaredRecordCount := content.length
      storedRecordCount := content.length
      rawRecords := content.map fun row => (row.1, some row.2) }

def activate (key : RegisterContent π) : TozarStore π :=
  match s.snapshots.get? key with
  | none => s
  | some snapshot => s.withSnapshot key { snapshot with activatedAt := some s.now }

/-- `ingest_capture` with its check before activation: an activated snapshot of the content is used as it
    is. -/
def ingestCapture (content : RegisterContent π) : Except (Refused (TozarStore π)) (TozarStore π) :=
  if ((s.snapshots.get? content).bind TozarSnapshot.activatedAt).isSome then .ok s
  else do
    let written := s.writeRecords content
    let _ ← written.verifyCount content content.length
    pure ((written.ensureArchive content content).activate content)

/-! ## 5. The build -/

inductive BuildStatus
  | built
  | unchanged
  | failed
  deriving DecidableEq, Repr

/-- `record_catalog_variants` of all rows of a snapshot. -/
def recordCatalogVariants (key : RegisterContent π) : Except String (TozarStore π) :=
  match s.snapshots.get? key with
  | none => .error "CATALOG_VARIANT_SNAPSHOT_INELIGIBLE"
  | some snapshot =>
    match snapshot.activatedAt with
    | none => .error "CATALOG_VARIANT_SNAPSHOT_INELIGIBLE"
    | some activatedAt => do
      refuseIf (snapshot.storedRecordCount ≠ snapshot.declaredRecordCount ∨
        s.countVerified key = some (some false)) "CATALOG_VARIANT_SNAPSHOT_INELIGIBLE"
      refuseIf (s.activeSnapshot ≠ some key) "CATALOG_VARIANT_SNAPSHOT_SUPERSEDED"
      refuseIf (s.compactions.any (fun c => decide (c.1 = key)) = true ∧ snapshot.rawRecords ≠ [])
        "CATALOG_VARIANT_SNAPSHOT_COMPACTED"
      let builtRows := snapshot.rawRecords.length
      pure (s.withBuild key
        { activatedAt
          expectedRows := snapshot.storedRecordCount
          builtRows
          completedAt := if builtRows = snapshot.storedRecordCount then some s.now else none })

/-- `build_snapshot_variants`, as `build_after_capture` reports it. -/
def buildAfterCapture (key : RegisterContent π) : BuildStatus × TozarStore π :=
  if ((s.builds.get? key).bind VariantBuild.completedAt).isSome then (.unchanged, s)
  else if ((s.snapshots.get? key).any fun snapshot =>
      snapshot.rawRecords.any fun record => record.2.isNone) then (.failed, s)
  else
    match s.recordCatalogVariants key with
    | .error _ => (.failed, s)
    | .ok s' => (.built, s')

/-! ## 6. The compaction -/

inductive CompactionStatus
  | compacted
  | unchanged
  | refused (code : String)
  deriving DecidableEq, Repr

/-- What a round's surroundings decide: whether a row's variant reads as its payload, and which records
    something outside the snapshot references. -/
structure CompactionRules (π : Type) where
  readsAs : Text × π → Bool
  referenced : Text → Bool

/-- Every row has its variant, which reads as its payload. -/
def typedExactly (rules : CompactionRules π) (snapshot : TozarSnapshot π) : Bool :=
  snapshot.rawRecords.all fun record => record.2.all fun payload => rules.readsAs (record.1, payload)

/-- The rows a compaction leaves. -/
def compactedRecords (rules : CompactionRules π) (superseded : Bool) (snapshot : TozarSnapshot π) :
    List (Text × Option π) :=
  ((if superseded then snapshot.rawRecords.filter fun record => rules.referenced record.1
    else snapshot.rawRecords).map fun record => (record.1, none))

/-- What refuses a compaction of the tozar's snapshot, in either mode. -/
def compactionRefusal (rules : CompactionRules π) (key : RegisterContent π)
    (snapshot : TozarSnapshot π) : Option String :=
  let raw := snapshot.rawRecords.length
  if snapshot.activatedAt.isNone then some "CATALOG_COMPACTION_SNAPSHOT_INELIGIBLE"
  else if (s.countVerified key).any (fun verified => decide (verified ≠ some true)) ∨
      snapshot.storedRecordCount ≠ snapshot.declaredRecordCount ∨ snapshot.storedRecordCount ≠ raw then
    some "CATALOG_COMPACTION_COUNT_UNVERIFIED"
  else if s.activeSnapshot ≠ some key then
    if (((s.activeSnapshot.bind s.builds.get?).bind VariantBuild.completedAt).isNone) then
      some "CATALOG_COMPACTION_BUILD_INCOMPLETE"
    else if s.archives.get? key ≠ some raw then some "CATALOG_COMPACTION_ARCHIVE_MISSING"
    else none
  else
    match s.builds.get? key with
    | none => some "CATALOG_COMPACTION_BUILD_INCOMPLETE"
    | some build =>
      if build.completedAt.isNone ∨ build.builtRows ≠ raw ∨ build.expectedRows ≠ raw then
        some "CATALOG_COMPACTION_BUILD_INCOMPLETE"
      else if typedExactly rules snapshot = false then some "CATALOG_COMPACTION_TYPED_MISMATCH"
      else if s.archives.get? key ≠ some raw then some "CATALOG_COMPACTION_ARCHIVE_MISSING"
      else none

/-- `compact_register_snapshot`, applied with the archive read back and verified. -/
def compactRegisterSnapshot (rules : CompactionRules π) (key : RegisterContent π) :
    CompactionStatus × TozarStore π :=
  match s.snapshots.get? key with
  | none => (.refused "CATALOG_COMPACTION_SNAPSHOT_UNKNOWN", s)
  | some snapshot =>
    let superseded := decide (s.activeSnapshot ≠ some key)
    if s.compactedFor key .archive then (.unchanged, s)
    else if snapshot.activatedAt.isSome && !superseded && s.compactedFor key .variants then (.unchanged, s)
    else
      match s.compactionRefusal rules key snapshot with
      | some code => (.refused code, s)
      | none =>
        (.compacted,
          { s with
            snapshots := s.snapshots.set key { snapshot with
              rawRecords := compactedRecords rules superseded snapshot }
            builds := if superseded then s.builds.erase key else s.builds
            compactions := s.compactions ++ [(key, if superseded then .archive else .variants)] })

/-- `catalog_register_superseded_snapshots`: the tozar's other activated snapshots not yet skeletons. -/
def supersededSnapshots (key : RegisterContent π) : List (RegisterContent π) :=
  (s.activated.map Prod.fst).filter fun other =>
    decide (other ≠ key) && !s.compactedFor other .archive

/-- `compact_after_build`. -/
def compactAfterBuild (rules : CompactionRules π) (key : RegisterContent π) (build : BuildStatus) :
    TozarStore π :=
  if build = .failed then s
  else
    match s.compactRegisterSnapshot rules key with
    | (.refused _, s') => s'
    | (_, s') =>
      (s'.supersededSnapshots key).foldl (fun s older => (s.compactRegisterSnapshot rules older).2) s'

/-! ## 7. The unit and the round -/

/-- How a unit's capture ends. -/
inductive CaptureOutcome
  | captured
  | failed (code : String)
  deriving DecidableEq, Repr

/-- `capture_unit` of a content taken faithfully. -/
def captureUnit (rules : CompactionRules π) (version : DirectoryContent) (content : RegisterContent π) :
    CaptureOutcome × TozarStore π :=
  let s := s.recordUnit version { status := .capturing, updatedAt := s.now }
  let taken : Except (Refused (TozarStore π)) (TozarStore π) := do
    let s ← s.ingestCapture content
    let _ ← s.verifyCount content content.length
    pure (s.ensureArchive content content)
  match taken with
  | .error refused =>
    (.failed refused.code, refused.left.recordUnit version
      { status := .failed
        failureCode := some refused.code
        snapshot := some content
        countVerified := some false
        updatedAt := s.now })
  | .ok s =>
    let s := s.recordUnit version
      { status := .captured
        snapshot := some content
        capturedRows := some content.length
        countVerified := some true
        updatedAt := s.now }
    let (build, s) := s.buildAfterCapture content
    (.captured, s.compactAfterBuild rules content build)

end TozarStore

/-- One round: the tozar's rows and the rest of the directory, the time since the last round, and what the
    compaction's surroundings decide. -/
structure RegisterRound (π : Type) where
  content : RegisterContent π
  others : DirectoryContent
  elapsed : ℕ
  rules : TozarStore.CompactionRules π

inductive RoundAnswer
  | existing
  | captured
  | failed (code : String)
  | refused (code : String)
  deriving DecidableEq, Repr

namespace TozarStore

variable {π : Type} [DecidableEq π] (s : TozarStore π)

/-- The directory of a round: the tozar with the count of its rows, and the others. -/
def directoryOf (r : RegisterRound π) : DirectoryContent := (s.tozar, r.content.length) :: r.others

/-- A round, later than the one before. -/
def round (r : RegisterRound π) : RoundAnswer × TozarStore π :=
  let version := s.directoryOf r
  let s := ({ s with now := s.now + r.elapsed + 1 } : TozarStore π).recordRegisterDirectory version
  match s.requestRegisterCapture version with
  | .error code => (.refused code, s)
  | .ok (false, s) => (.existing, s)
  | .ok (true, s) =>
    match s.captureUnit r.rules version r.content with
    | (.captured, s) => (.captured, s)
    | (.failed code, s) => (.failed code, s)

end TozarStore

end Milo.Catalog
