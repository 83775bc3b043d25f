import Milo.Catalog.SnapshotCapture
import Milo.Reasoning.Transition

/-!
# CaptureProtocol — snapshot capture over every order of writes

Any runs open, fill, read, decide and adopt snapshots, one transaction after another, while their rows
change in any way: they end, lose their leases, are claimed again.
-/

namespace Milo.Catalog

open Milo.Reasoning Milo.Python Milo.Finalization

/-! ## 1. Histories -/

inductive CaptureEvent
  | runRow (runId : Text) (row : RunRecord Jsonb)
  | snapshot (call : WorkerCall) (id : Text) (p : Jsonb)
  | rawRecord (call : WorkerCall) (id : Text) (record : Jsonb)
  | rawRecords (call : WorkerCall) (newId : Text → Text) (records : Jsonb)
  | candidates (call : WorkerCall) (newId : Text → Text) (candidates : Jsonb)
  | activate (call : WorkerCall) (activation : Jsonb)
  | adopt (call : WorkerCall) (p : Jsonb)

/-- The call of a write. -/
def CaptureEvent.call? : CaptureEvent → Option WorkerCall
  | runRow _ _ => none
  | snapshot call _ _ | rawRecord call _ _ | rawRecords call _ _ | candidates call _ _ => some call
  | activate call _ | adopt call _ => some call

namespace CaptureStore

/-- The store a write leaves: a refused one changes nothing. -/
def kept {α : Type} (s : CaptureStore) : Except String (CaptureStore × α) → CaptureStore
  | .ok (s', _) => s'
  | .error _ => s

variable (db : CaptureDatabase)

def perform (s : CaptureStore) : CaptureEvent → CaptureStore
  | .runRow runId row => { s with runs := s.runs.set runId row }
  | .snapshot call id p => s.kept (s.recordCatalogSnapshot db call id p)
  | .rawRecord call id record => s.kept (s.recordCatalogRawRecord db call id record)
  | .rawRecords call newId records => s.kept (s.recordCatalogRawRecordsBatch db call newId records)
  | .candidates call newId candidates =>
    s.kept (s.recordCatalogCandidatesBatch db call newId candidates)
  | .activate call activation => s.kept (s.activateCatalogSnapshot call activation)
  | .adopt call p => s.kept (s.adoptCatalogSnapshot db call p)

/-- Any event may come in any state. -/
abbrev CaptureStep : CaptureStore → CaptureEvent → CaptureStore → Prop :=
  Performs (fun _ _ => True) (perform db)

/-- No snapshot has been captured. -/
structure Unused (s : CaptureStore) : Prop where
  snapshots : s.snapshots.entries = []
  rawRecords : s.rawRecords = []
  adoptions : s.adoptions = []

end CaptureStore

/-! ## 2. What the checks say -/

/-- The snapshot is failed or active. -/
def SnapshotRow.Decided (row : SnapshotRow) : Prop :=
  row.validationState = .failed ∨ row.activatedAt.isSome = true

namespace CaptureStore

/-- The caller holds the lease of its run. -/
def HoldsLease (s : CaptureStore) (call : WorkerCall) : Prop :=
  ∃ row, s.runs.get? call.runId = some row ∧ row.assertWorkerLease call.now call.lease = true

/-- The latest adopter, or the run that opened the snapshot. -/
def writerOf (s : CaptureStore) (snapshotId : Text) (row : SnapshotRow) : Text :=
  (s.latestAdopter? snapshotId).getD row.createdByRunId

variable {row : SnapshotRow} {snapshotId id : Text} {call : WorkerCall} {e : CaptureEvent}

theorem currentWriter?_eq {s : CaptureStore} (h : s.snapshots.get? snapshotId = some row) :
    s.currentWriter? snapshotId = some (s.writerOf snapshotId row) := by
  unfold currentWriter? writerOf
  rw [h]
  cases s.latestAdopter? snapshotId <;> rfl

theorem assertWorkerLease_eq_ok {s : CaptureStore} {u : PUnit} :
    s.assertWorkerLease call = .ok u ↔ s.HoldsLease call := by
  unfold assertWorkerLease HoldsLease
  rw [refuseIf_eq_ok, not_not, Option.any_eq_true]

theorem assertSnapshotWriteAuthority_eq_ok {s : CaptureStore} {runId : Text} {allowDecided : Bool} :
    s.assertSnapshotWriteAuthority snapshotId runId allowDecided = .ok row ↔
      s.snapshots.get? snapshotId = some row ∧ s.writerOf snapshotId row = runId ∧
        (allowDecided = false → ¬ row.Decided) := by
  unfold assertSnapshotWriteAuthority SnapshotRow.Decided writerOf
  simp only [except_bind_eq_ok, required_eq_ok, refuseIf_eq_ok, exists_const]
  constructor
  · rintro ⟨row', hrow, hwriter, hfailed, hactive, hsame⟩
    cases hsame
    refine ⟨hrow, not_not.mp hwriter, fun hpending hdecided => ?_⟩
    exact hdecided.elim (fun h => hfailed ⟨hpending, h⟩) (fun h => hactive ⟨hpending, h⟩)
  · rintro ⟨hrow, hwriter, hdecided⟩
    refine ⟨row, hrow, not_not.mpr hwriter, ?_, ?_, rfl⟩
    · exact fun h => hdecided h.1 (Or.inl h.2)
    · exact fun h => hdecided h.1 (Or.inr h.2)

/-- The caller may write the snapshot's rows. -/
structure Authorized (s : CaptureStore) (call : WorkerCall) (snapshotId : Text) (row : SnapshotRow) :
    Prop where
  lease : s.HoldsLease call
  stored : s.snapshots.get? snapshotId = some row
  writer : s.writerOf snapshotId row = call.runId
  pending : ¬ row.Decided

/-- The document presents the capture the snapshot holds. -/
structure Presents (p : Jsonb) (row : SnapshotRow) : Prop where
  key : p.statedText "snapshot_key".toList = some row.snapshotKey
  family : p.statedText "source_family".toList = some row.retrieval.sourceFamily
  resource : p.statedText "resource_id".toList = some row.retrieval.resourceId
  version : p.statedText "upstream_version".toList = some row.retrieval.upstreamVersion
  kind : p.statedText "upstream_version_kind".toList = some row.retrieval.upstreamVersionKind
  content : p.statedText "content_sha256".toList = some row.retrieval.contentSha256
  declared : (rendered (p.member? "declared_record_count".toList)).bind castInteger =
    some row.retrieval.declaredRecordCount
  metadata : sameCapture row (statedMetadata p) = true

/-- The writer may pass from `previousId` to the caller. -/
structure MayPass (s : CaptureStore) (call : WorkerCall) (row : SnapshotRow) (previousId : Text) :
    Prop where
  pending : row.validationState = .pending ∧ row.activatedAt = none
  ended : ∃ previous, s.runs.get? previousId = some previous ∧
    endedUnsuccessfully previous = true ∧ leaseLive previous call.now = false
  live : ∃ adopter, s.runs.get? call.runId = some adopter ∧
    liveOperatorCapture adopter call.now = true
  other : call.runId ≠ previousId

/-! ## 3. What one event can do -/

/-- What an event may change, and when. -/
inductive Change (s : CaptureStore) : CaptureEvent → CaptureStore → Prop
  | nothing (e : CaptureEvent) : Change s e s
  | runRow (runId : Text) (row : RunRecord Jsonb) :
    Change s (.runRow runId row) { s with runs := s.runs.set runId row }
  | opened (call : WorkerCall) (id : Text) (p : Jsonb) (row : SnapshotRow) :
    s.HoldsLease call → id ∉ s.snapshots.keys → row.createdByRunId = call.runId →
    row.storedRecordCount = 0 → row.activatedAt = none →
    Change s (.snapshot call id p) { s with snapshots := s.snapshots.set id row }
  | filled (e : CaptureEvent) (call : WorkerCall) (snapshotId : Text) (row : SnapshotRow)
    (rows : List RawRecordRow) :
    (∃ id record, e = .rawRecord call id record) ∨
      (∃ newId records, e = .rawRecords call newId records) →
    s.Authorized call snapshotId row → (∀ r ∈ rows, r.snapshotId = snapshotId) →
    Change s e (s.withRaw snapshotId row rows)
  | read (call : WorkerCall) (newId : Text → Text) (p : Jsonb) (snapshotId : Text)
    (row : SnapshotRow) (candidates : List CapturedCandidate) :
    s.Authorized call snapshotId row →
    candidates.filter (fun c => decide (c.snapshotId ≠ snapshotId)) =
      s.candidates.filter (fun c => decide (c.snapshotId ≠ snapshotId)) →
    Change s (.candidates call newId p) { s with candidates := candidates }
  | failed (call : WorkerCall) (activation : Jsonb) (snapshotId : Text) (row : SnapshotRow) :
    s.Authorized call snapshotId row →
    Change s (.activate call activation)
      { s with snapshots := s.snapshots.set snapshotId { row with validationState := .failed } }
  | activated (call : WorkerCall) (activation : Jsonb) (snapshotId : Text) (row : SnapshotRow) :
    s.Authorized call snapshotId row →
    row.storedRecordCount = row.retrieval.declaredRecordCount →
    Change s (.activate call activation)
      { s with
        snapshots := s.snapshots.set snapshotId
          { row with validationState := .complete, activatedAt := some call.now } }
  | adopted (call : WorkerCall) (p : Jsonb) (snapshotId : Text) (row : SnapshotRow)
    (adoption : AdoptionRow) :
    s.HoldsLease call → s.snapshots.get? snapshotId = some row → Presents p row →
    s.MayPass call row (s.writerOf snapshotId row) →
    adoption = ⟨snapshotId,
      ((s.adoptionsOf snapshotId).map AdoptionRow.adoptionSeq).foldl max 0 + 1, call.runId,
      s.writerOf snapshotId row, call.now⟩ →
    Change s (.adopt call p) { s with adoptions := s.adoptions ++ [adoption] }

variable {db : CaptureDatabase} {s s' : CaptureStore}

theorem change_of_recordCatalogSnapshot {p : Jsonb} (h : s.recordCatalogSnapshot db call id p = .ok (s', row)) :
    s.Change (.snapshot call id p) s' := by
  unfold recordCatalogSnapshot at h
  simp only [except_bind_eq_ok, required_eq_ok, refuseIf_eq_ok, exists_const,
    assertWorkerLease_eq_ok] at h
  obtain ⟨hlease, _, -, key, hkey, family, hfamily, resource, hresource, version, hversion, kind,
    hkind, hash, hhash, declared, hdeclared, retrieved, hretrieved, -, -, _, -, h⟩ := h
  split at h
  · simp only [except_bind_eq_ok, refuseIf_eq_ok, exists_const] at h
    cases h.2
    exact .nothing _
  · simp only [except_bind_eq_ok, required_eq_ok, refuseIf_eq_ok, exists_const] at h
    obtain ⟨state, hstate, hvalid, hfree, h⟩ := h
    cases h
    exact .opened _ _ _ _ hlease (fun hmem => hfree (Or.inl hmem)) rfl rfl rfl

theorem change_of_recordCatalogRawRecord {record : Jsonb} {row : RawRecordRow}
    (h : s.recordCatalogRawRecord db call id record = .ok (s', row)) : s.Change (.rawRecord call id record) s' := by
  unfold recordCatalogRawRecord at h
  simp only [except_bind_eq_ok, required_eq_ok, refuseIf_eq_ok, exists_const,
    assertWorkerLease_eq_ok, assertSnapshotWriteAuthority_eq_ok] at h
  obtain ⟨hlease, reading, hreading, snapshotId, hid, hknown, row', ⟨hrow, hwriter, hpending⟩, _, -,
    h⟩ := h
  split at h
  · simp only [except_bind_eq_ok, refuseIf_eq_ok, exists_const] at h
    cases h.2
    exact .nothing _
  · rw [except_bind_eq_ok] at h
    obtain ⟨_, -, h⟩ := h
    cases h
    refine .filled _ call snapshotId row' _ (Or.inl ⟨id, record, rfl⟩)
      ⟨hlease, hrow, hwriter, hpending trivial⟩ ?_
    intro r hr
    rw [List.mem_singleton.mp hr]
    rfl

theorem change_of_recordCatalogRawRecordsBatch {newId : Text → Text} {records : Jsonb}
    {answer : BatchAnswer RawRecordRow}
    (h : s.recordCatalogRawRecordsBatch db call newId records = .ok (s', answer)) :
    s.Change (.rawRecords call newId records) s' := by
  unfold recordCatalogRawRecordsBatch at h
  simp only [except_bind_eq_ok, required_eq_ok, refuseIf_eq_ok, exists_const,
    assertWorkerLease_eq_ok, assertSnapshotWriteAuthority_eq_ok] at h
  obtain ⟨hlease, items, hitems, hbound, snapshotId, hid, row, ⟨hrow, hwriter, hpending⟩, readings,
    hreadings, _, hadmit, rows, hrows, h⟩ := h
  cases h
  refine .filled _ call snapshotId row _ (Or.inr ⟨newId, records, rfl⟩)
    ⟨hlease, hrow, hwriter, hpending trivial⟩ ?_
  intro r hr
  obtain ⟨reading, -, rfl⟩ := List.mem_map.mp hr
  rfl

theorem snapshotId_of_readCandidate {e : Jsonb} {c : CapturedCandidate}
    (h : s.readCandidate db snapshotId e = .ok c) : c.snapshotId = snapshotId := by
  unfold readCandidate at h
  simp only [except_bind_eq_ok, required_eq_ok, refuseIf_eq_ok, exists_const] at h
  obtain ⟨-, key, -, manufacturer, -, model, -, -, first, -, last, -, -, record, -, -, h⟩ := h
  cases h
  rfl

/-- A batch leaves the candidates of the other snapshots as they are. -/
theorem filter_map_restate {readings : List CapturedCandidate} (candidates : List CapturedCandidate) :
    (candidates.map (restate snapshotId readings)).filter
        (fun c => decide (c.snapshotId ≠ snapshotId)) =
      candidates.filter fun c => decide (c.snapshotId ≠ snapshotId) := by
  induction candidates with
  | nil => rfl
  | cons c rest ih =>
    have hsame : (restate snapshotId readings c).snapshotId = c.snapshotId := by
      unfold restate
      split <;> rfl
    rw [List.map_cons, List.filter_cons, List.filter_cons, ih, hsame]
    by_cases hother : c.snapshotId = snapshotId
    · rw [if_neg (by simpa using hother), if_neg (by simpa using hother)]
    · have hkeep : restate snapshotId readings c = c := by
        unfold restate
        rw [if_neg hother]
      rw [hkeep]

theorem change_of_recordCatalogCandidatesBatch {newId : Text → Text} {p : Jsonb}
    {answer : BatchAnswer CapturedCandidate} (h : s.recordCatalogCandidatesBatch db call newId p = .ok (s', answer)) :
    s.Change (.candidates call newId p) s' := by
  unfold recordCatalogCandidatesBatch at h
  simp only [except_bind_eq_ok, required_eq_ok, refuseIf_eq_ok, exists_const,
    assertWorkerLease_eq_ok, assertSnapshotWriteAuthority_eq_ok] at h
  obtain ⟨hlease, items, hitems, hbound, snapshotId, hid, row, ⟨hrow, hwriter, hpending⟩, readings,
    hreadings, _, hadmit, rows, hrows, h⟩ := h
  cases h
  refine .read call newId p snapshotId row _ ⟨hlease, hrow, hwriter, hpending trivial⟩ ?_
  rw [filter_map_restate, List.filter_append]
  apply List.append_right_eq_self.mpr
  rw [List.filter_eq_nil_iff]
  intro c hc
  obtain ⟨reading, hreading, rfl⟩ := List.mem_map.mp hc
  have hmem : reading ∈ readings := List.mem_of_mem_filter (mem_of_mem_novel hreading)
  obtain ⟨e, -, hread⟩ := exists_of_mem_mapM hreadings hmem
  have hread := snapshotId_of_readCandidate hread
  rw [decide_eq_true_eq, not_not]
  exact hread

theorem change_of_activateCatalogSnapshot {activation : Jsonb}
    (h : s.activateCatalogSnapshot call activation = .ok (s', row)) : s.Change (.activate call activation) s' := by
  unfold activateCatalogSnapshot at h
  simp only [except_bind_eq_ok, required_eq_ok, refuseIf_eq_ok, exists_const,
    assertWorkerLease_eq_ok, assertSnapshotWriteAuthority_eq_ok] at h
  obtain ⟨hlease, -, snapshotId, hid, row', ⟨hrow, hwriter, -⟩, h⟩ := h
  split at h
  · simp only [except_bind_eq_ok, refuseIf_eq_ok, exists_const] at h
    cases h.2
    exact .nothing _
  · rename_i hfailed
    split at h
    · simp only [except_bind_eq_ok, refuseIf_eq_ok, exists_const] at h
      cases h.2
      exact .nothing _
    · rename_i hactive
      have hauthorized : s.Authorized call snapshotId row' :=
        ⟨hlease, hrow, hwriter, fun h => h.elim hfailed hactive⟩
      split at h
      · cases h
        exact .failed call activation snapshotId row' hauthorized
      · simp only [except_bind_eq_ok, refuseIf_eq_ok, exists_const] at h
        obtain ⟨hcomplete, h⟩ := h
        cases h
        exact .activated call activation snapshotId row' hauthorized (not_not.mp hcomplete)

theorem mayPass_of_checkSnapshotAdoption {previousId : Text} {adoption : AdoptionRow}
    (hrow : s.snapshots.get? snapshotId = some row)
    (h : s.checkSnapshotAdoption call.now snapshotId call.runId previousId = .ok adoption) :
    s.MayPass call row previousId ∧
      adoption = ⟨snapshotId,
        ((s.adoptionsOf snapshotId).map AdoptionRow.adoptionSeq).foldl max 0 + 1, call.runId,
        previousId, call.now⟩ := by
  unfold checkSnapshotAdoption at h
  simp only [except_bind_eq_ok, required_eq_ok, refuseIf_eq_ok, exists_const] at h
  obtain ⟨previous, hprevious, adopter, hadopter, hlive, hended, row', hrow', hwriter, hpending,
    hother, hfresh, h⟩ := h
  cases h
  rw [hrow] at hrow'
  cases hrow'
  rw [not_or, not_not] at hended hpending
  refine ⟨⟨?_, ⟨previous, hprevious, hended.1, ?_⟩, ⟨adopter, hadopter, ?_⟩, hother⟩, rfl⟩
  · exact ⟨hpending.2, Option.not_isSome_iff_eq_none.mp hpending.1⟩
  · exact Bool.not_eq_true _ ▸ hended.2
  · exact not_not.mp hlive

theorem of_snapshotByKey? {key : Text} (h : s.snapshotByKey? key = some (id, row)) :
    s.snapshots.get? id = some row ∧ row.snapshotKey = key := by
  unfold snapshotByKey? at h
  exact ⟨Dict.get?_eq_some.mpr (List.mem_of_find?_eq_some h), by simpa using List.find?_some h⟩

theorem change_of_adoptCatalogSnapshot {p : Jsonb} {answer : SnapshotRow × Option AdoptionRow}
    (h : s.adoptCatalogSnapshot db call p = .ok (s', answer)) : s.Change (.adopt call p) s' := by
  unfold adoptCatalogSnapshot at h
  simp only [except_bind_eq_ok, required_eq_ok, refuseIf_eq_ok, exists_const,
    assertWorkerLease_eq_ok] at h
  obtain ⟨hlease, -, -, _, -, _, -, declared, hdeclared, key, hkey, family, hfamily, resource,
    hresource, version, hversion, kind, hkind, hash, hhash, -, ⟨snapshotId, row⟩, hfound, hsame,
    hcapture, h⟩ := h
  obtain ⟨hrow, hrowkey⟩ := of_snapshotByKey? hfound
  have hretrieval : row.retrieval = ⟨family, resource, version, kind, hash, declared⟩ :=
    not_not.mp hsame
  have hpresents : Presents p row := by
    refine ⟨?_, ?_, ?_, ?_, ?_, ?_, ?_, by simpa using hcapture⟩
    · rw [hrowkey]
      exact hkey
    all_goals
      rw [hretrieval]
      assumption
  split at h
  · cases h
    exact .nothing _
  · obtain ⟨adoption, hadoption, h⟩ := except_bind_eq_ok.mp h
    cases h
    dsimp only at hadoption
    rw [currentWriter?_eq hrow, Option.getD_some] at hadoption
    obtain ⟨hpass, hnumbered⟩ := mayPass_of_checkSnapshotAdoption hrow hadoption
    exact .adopted call p snapshotId row adoption hlease hrow hpresents hpass hnumbered

/-- An event changes nothing but what its writes may change. -/
theorem change_perform (db : CaptureDatabase) (s : CaptureStore) (e : CaptureEvent) :
    s.Change e (s.perform db e) := by
  cases e with
  | runRow runId row => exact .runRow runId row
  | snapshot call id p =>
    show s.Change _ (s.kept _)
    cases h : s.recordCatalogSnapshot db call id p with
    | error e => exact .nothing _
    | ok answer => exact change_of_recordCatalogSnapshot h
  | rawRecord call id record =>
    show s.Change _ (s.kept _)
    cases h : s.recordCatalogRawRecord db call id record with
    | error e => exact .nothing _
    | ok answer => exact change_of_recordCatalogRawRecord h
  | rawRecords call newId records =>
    show s.Change _ (s.kept _)
    cases h : s.recordCatalogRawRecordsBatch db call newId records with
    | error e => exact .nothing _
    | ok answer => exact change_of_recordCatalogRawRecordsBatch h
  | candidates call newId candidates =>
    show s.Change _ (s.kept _)
    cases h : s.recordCatalogCandidatesBatch db call newId candidates with
    | error e => exact .nothing _
    | ok answer => exact change_of_recordCatalogCandidatesBatch h
  | activate call activation =>
    show s.Change _ (s.kept _)
    cases h : s.activateCatalogSnapshot call activation with
    | error e => exact .nothing _
    | ok answer => exact change_of_activateCatalogSnapshot h
  | adopt call p =>
    show s.Change _ (s.kept _)
    cases h : s.adoptCatalogSnapshot db call p with
    | error e => exact .nothing _
    | ok answer => exact change_of_adoptCatalogSnapshot h

/-! ## 4. Counters and numbers -/

/-- What every reachable store keeps. -/
structure Sound (s : CaptureStore) : Prop where
  counted : ∀ id row, s.snapshots.get? id = some row →
    row.storedRecordCount = (s.rawRecordsOf id).length
  complete : ∀ id row, s.snapshots.get? id = some row → row.activatedAt.isSome = true →
    row.validationState = .complete ∧ row.storedRecordCount = row.retrieval.declaredRecordCount
  numbered : ∀ id, (s.adoptionsOf id).map AdoptionRow.adoptionSeq =
    List.range' 1 (s.adoptionsOf id).length
  owned : ∀ r ∈ s.rawRecords, r.snapshotId ∈ s.snapshots.keys

theorem Unused.sound (h : s.Unused) : s.Sound := by
  have hnone : ∀ id, s.snapshots.get? id = none := by
    intro id
    unfold Dict.get?
    rw [h.snapshots]
    rfl
  constructor
  · intro id row hrow
    rw [hnone] at hrow
    cases hrow
  · intro id row hrow
    rw [hnone] at hrow
    cases hrow
  · intro id
    unfold adoptionsOf
    rw [h.adoptions]
    rfl
  · intro r hr
    rw [h.rawRecords] at hr
    cases hr

theorem rawRecordsOf_withRaw {rows : List RawRecordRow} (hrows : ∀ r ∈ rows, r.snapshotId = snapshotId) :
    (s.withRaw snapshotId row rows).rawRecordsOf id =
      s.rawRecordsOf id ++ if id = snapshotId then rows else [] := by
  show (s.rawRecords ++ rows).filter _ = _
  rw [List.filter_append]
  congr 1
  split
  · rename_i hsame
    rw [List.filter_eq_self]
    intro r hr
    rw [hrows r hr, hsame]
    exact decide_eq_true rfl
  · rename_i hother
    rw [List.filter_eq_nil_iff]
    intro r hr
    rw [hrows r hr, decide_eq_true_eq]
    exact fun h => hother h.symm

theorem foldl_max_range' (n : ℕ) : (List.range' 1 n).foldl max 0 = n := by
  induction n with
  | zero => rfl
  | succ n ih =>
    rw [List.range'_1_concat, List.foldl_append, ih]
    show max n (1 + n) = n + 1
    omega

theorem adoptionsOf_snoc {adoption : AdoptionRow} :
    ({ s with adoptions := s.adoptions ++ [adoption] } : CaptureStore).adoptionsOf id =
      s.adoptionsOf id ++ if adoption.snapshotId = id then [adoption] else [] := by
  show (s.adoptions ++ [adoption]).filter _ = _
  rw [List.filter_append]
  congr 1
  rw [List.filter_singleton]
  by_cases h : adoption.snapshotId = id
  · rw [decide_eq_true h, if_pos h]
    rfl
  · rw [decide_eq_false h, if_neg h]
    rfl

/-- Rewriting one snapshot's row, with the rest of the store as it is. -/
theorem Sound.rewrite (h : s.Sound) {row' : SnapshotRow} (hstored : s.snapshots.get? snapshotId = some row)
    (hcount : row'.storedRecordCount = row.storedRecordCount)
    (hactive : row'.activatedAt.isSome = true → row'.validationState = .complete ∧
      row'.storedRecordCount = row'.retrieval.declaredRecordCount) :
    ({ s with snapshots := s.snapshots.set snapshotId row' } : CaptureStore).Sound := by
  constructor
  · intro id old hold
    rw [Dict.get?_set] at hold
    split at hold
    · rename_i hid
      cases hold
      rw [hcount, hid]
      exact h.counted snapshotId row hstored
    · exact h.counted id old hold
  · intro id old hold hsome
    rw [Dict.get?_set] at hold
    split at hold
    · cases hold
      exact hactive hsome
    · exact h.complete id old hold hsome
  · exact h.numbered
  · exact fun r hr => Dict.mem_keys_set.mpr (Or.inr (h.owned r hr))

theorem Change.sound (hchange : s.Change e s') (h : s.Sound) : s'.Sound := by
  cases hchange with
  | nothing => exact h
  | runRow runId row => exact ⟨h.counted, h.complete, h.numbered, h.owned⟩
  | opened call id p row hlease hfree hcreator hempty hinactive =>
    constructor
    · intro id' row' hrow'
      rw [Dict.get?_set] at hrow'
      split at hrow'
      · rename_i hid
        cases hrow'
        -- no raw record names a snapshot that was not stored
        have hnone : s.rawRecordsOf id' = [] := by
          rw [rawRecordsOf, List.filter_eq_nil_iff]
          intro r hr hmine
          rw [decide_eq_true_eq] at hmine
          rw [hid] at hmine
          exact hfree (hmine ▸ h.owned r hr)
        show row.storedRecordCount = ((s.rawRecordsOf id').length : ℤ)
        rw [hempty, hnone]
        rfl
      · exact h.counted id' row' hrow'
    · intro id' row' hrow' hactive
      rw [Dict.get?_set] at hrow'
      split at hrow'
      · cases hrow'
        rw [hinactive] at hactive
        cases hactive
      · exact h.complete id' row' hrow' hactive
    · exact h.numbered
    · exact fun r hr => Dict.mem_keys_set.mpr (Or.inr (h.owned r hr))
  | filled _ call snapshotId row rows hwrite hauth hrows =>
    have hcounted := h.counted snapshotId row hauth.stored
    constructor
    · intro id row' hrow'
      rw [rawRecordsOf_withRaw hrows]
      have hget : (s.snapshots.set snapshotId _).get? id = some row' := hrow'
      rw [Dict.get?_set] at hget
      split at hget
      · rename_i hid
        cases hget
        rw [if_pos hid, List.length_append, hid]
        show row.storedRecordCount + (rows.length : ℤ) = _
        rw [hcounted]
        push_cast
        rfl
      · rename_i hid
        rw [if_neg hid, List.append_nil]
        exact h.counted id row' hget
    · intro id row' hrow' hactive
      have hget : (s.snapshots.set snapshotId _).get? id = some row' := hrow'
      rw [Dict.get?_set] at hget
      split at hget
      · cases hget
        exact absurd (Or.inr hactive) hauth.pending
      · exact h.complete id row' hget hactive
    · exact h.numbered
    · intro r hr
      refine Dict.mem_keys_set.mpr ?_
      rcases List.mem_append.mp hr with hr | hr
      · exact Or.inr (h.owned r hr)
      · exact Or.inl (hrows r hr)
  | read call newId p snapshotId row candidates hauth hothers =>
    exact ⟨h.counted, h.complete, h.numbered, h.owned⟩
  | failed call activation snapshotId row hauth =>
    refine h.rewrite hauth.stored rfl ?_
    intro hactive
    exact absurd (Or.inr hactive) hauth.pending
  | activated call activation snapshotId row hauth hgate =>
    exact h.rewrite hauth.stored rfl fun _ => ⟨rfl, hgate⟩
  | adopted call p snapshotId row adoption hlease hstored hpresents hpass hadoption =>
    refine ⟨h.counted, h.complete, ?_, h.owned⟩
    intro id
    rw [adoptionsOf_snoc]
    split
    · rename_i hid
      have hseq : adoption.adoptionSeq = (s.adoptionsOf id).length + 1 := by
        have hsame : snapshotId = id := by rw [← hid, hadoption]
        rw [hadoption, hsame, h.numbered id, foldl_max_range']
      rw [List.map_append, List.length_append, h.numbered id, List.map_singleton, hseq,
        List.length_singleton, List.range'_1_concat, Nat.add_comm 1]
    · rw [List.append_nil]
      exact h.numbered id

/-! ## 5. What no event undoes -/

def candidatesOf (s : CaptureStore) (snapshotId : Text) : List CapturedCandidate :=
  s.candidates.filter fun c => decide (c.snapshotId = snapshotId)

/-- What a store still holds of an earlier one. -/
structure Keeps (s s' : CaptureStore) : Prop where
  creator : ∀ id row, s.snapshots.get? id = some row →
    ∃ row', s'.snapshots.get? id = some row' ∧ row'.createdByRunId = row.createdByRunId
  appended : ∀ id, s.rawRecordsOf id <+: s'.rawRecordsOf id
  adoptions : ∀ id, s.adoptionsOf id <+: s'.adoptionsOf id
  settled : ∀ id row, s.snapshots.get? id = some row → row.Decided →
    s'.snapshots.get? id = some row ∧ s'.rawRecordsOf id = s.rawRecordsOf id

theorem Keeps.refl (s : CaptureStore) : s.Keeps s where
  creator _ row h := ⟨row, h, rfl⟩
  appended _ := List.prefix_refl _
  adoptions _ := List.prefix_refl _
  settled _ _ h _ := ⟨h, rfl⟩

theorem Keeps.trans {s'' : CaptureStore} (h : s.Keeps s') (h' : s'.Keeps s'') : s.Keeps s'' where
  creator id row hrow := by
    obtain ⟨row', hrow', hsame⟩ := h.creator id row hrow
    obtain ⟨row'', hrow'', hsame'⟩ := h'.creator id row' hrow'
    exact ⟨row'', hrow'', hsame'.trans hsame⟩
  appended id := (h.appended id).trans (h'.appended id)
  adoptions id := (h.adoptions id).trans (h'.adoptions id)
  settled id row hrow hdecided := by
    obtain ⟨hrow', hraw⟩ := h.settled id row hrow hdecided
    obtain ⟨hrow'', hraw'⟩ := h'.settled id row hrow' hdecided
    exact ⟨hrow'', hraw'.trans hraw⟩

theorem keeps_rewrite {row' : SnapshotRow} (hstored : s.snapshots.get? snapshotId = some row)
    (hpending : ¬ row.Decided) (hcreator : row'.createdByRunId = row.createdByRunId) :
    s.Keeps { s with snapshots := s.snapshots.set snapshotId row' } where
  creator id old hold := by
    by_cases hid : id = snapshotId
    · subst hid
      rw [hstored] at hold
      cases hold
      exact ⟨row', by rw [Dict.get?_set, if_pos rfl], hcreator⟩
    · exact ⟨old, by rw [Dict.get?_set, if_neg hid]; exact hold, rfl⟩
  appended _ := List.prefix_refl _
  adoptions _ := List.prefix_refl _
  settled id old hold hdecided := by
    by_cases hid : id = snapshotId
    · subst hid
      rw [hstored] at hold
      cases hold
      exact absurd hdecided hpending
    · exact ⟨by rw [Dict.get?_set, if_neg hid]; exact hold, rfl⟩

theorem Change.keeps (hchange : s.Change e s') : s.Keeps s' := by
  cases hchange with
  | nothing => exact Keeps.refl s
  | runRow runId row => exact ⟨(Keeps.refl s).creator, (Keeps.refl s).appended,
      (Keeps.refl s).adoptions, (Keeps.refl s).settled⟩
  | opened call id p row hlease hfree hcreator hempty hinactive =>
    have hother : ∀ id' old, s.snapshots.get? id' = some old →
        (s.snapshots.set id row).get? id' = some old := by
      intro id' old hold
      rw [Dict.get?_set, if_neg]
      · exact hold
      · rintro rfl
        exact hfree (Dict.mem_keys_iff.mpr ⟨old, hold⟩)
    exact
      { creator := fun id' old hold => ⟨old, hother id' old hold, rfl⟩
        appended := fun _ => List.prefix_refl _
        adoptions := fun _ => List.prefix_refl _
        settled := fun id' old hold _ => ⟨hother id' old hold, rfl⟩ }
  | filled _ call snapshotId row rows hwrite hauth hrows =>
    let grown : SnapshotRow := { row with storedRecordCount := row.storedRecordCount + rows.length }
    have hkept : s.Keeps { s with snapshots := s.snapshots.set snapshotId grown } :=
      keeps_rewrite hauth.stored hauth.pending rfl
    refine ⟨hkept.creator, ?_, hkept.adoptions, ?_⟩
    · intro id
      rw [rawRecordsOf_withRaw hrows]
      exact List.prefix_append _ _
    · intro id old hold hdecided
      refine ⟨(hkept.settled id old hold hdecided).1, ?_⟩
      rw [rawRecordsOf_withRaw hrows, if_neg, List.append_nil]
      rintro rfl
      rw [hauth.stored] at hold
      cases hold
      exact hauth.pending hdecided
  | read call newId p snapshotId row candidates hauth hothers =>
    exact ⟨(Keeps.refl s).creator, (Keeps.refl s).appended, (Keeps.refl s).adoptions,
      (Keeps.refl s).settled⟩
  | failed call activation snapshotId row hauth =>
    exact keeps_rewrite hauth.stored hauth.pending rfl
  | activated call activation snapshotId row hauth hgate =>
    exact keeps_rewrite hauth.stored hauth.pending rfl
  | adopted call p snapshotId row adoption hlease hstored hpresents hpass hadoption =>
    refine ⟨(Keeps.refl s).creator, (Keeps.refl s).appended, ?_, (Keeps.refl s).settled⟩
    intro id
    rw [adoptionsOf_snoc]
    exact List.prefix_append _ _

/-! ## 6. One writer -/

/-- The event changes what the store holds of the snapshot. -/
def Rewrites (s s' : CaptureStore) (id : Text) : Prop :=
  s'.snapshots.get? id ≠ s.snapshots.get? id ∨ s'.rawRecordsOf id ≠ s.rawRecordsOf id ∨
    s'.candidatesOf id ≠ s.candidatesOf id

theorem candidatesOf_congr {candidates : List CapturedCandidate}
    (h : candidates.filter (fun c => decide (c.snapshotId ≠ snapshotId)) =
      s.candidates.filter fun c => decide (c.snapshotId ≠ snapshotId)) (hid : id ≠ snapshotId) :
    ({ s with candidates := candidates } : CaptureStore).candidatesOf id = s.candidatesOf id := by
  have hpart : ∀ cs : List CapturedCandidate, cs.filter (fun c => decide (c.snapshotId = id)) =
      (cs.filter fun c => decide (c.snapshotId ≠ snapshotId)).filter
        fun c => decide (c.snapshotId = id) := by
    intro cs
    rw [List.filter_filter]
    apply List.filter_congr
    intro c _
    by_cases hc : c.snapshotId = id
    · rw [hc, decide_eq_true hid, Bool.and_true]
    · rw [decide_eq_false hc]
      rfl
  show candidates.filter _ = s.candidates.filter _
  rw [hpart candidates, hpart s.candidates, h]

/-- Only the current writer, with a live lease, rewrites a snapshot, and only a pending one. -/
theorem Change.authorized (hchange : s.Change e s') (hrow : s.snapshots.get? id = some row)
    (hrewrites : s.Rewrites s' id) : ∃ call, e.call? = some call ∧ s.Authorized call id row := by
  have hset : ∀ {call : WorkerCall} {snapshotId : Text} {old new : SnapshotRow},
      s.Authorized call snapshotId old →
      (s.snapshots.set snapshotId new).get? id ≠ s.snapshots.get? id → s.Authorized call id row := by
    intro call snapshotId old new hauth hchanged
    rw [Dict.get?_set] at hchanged
    split at hchanged
    · rename_i hid
      subst hid
      rw [hauth.stored] at hrow
      cases hrow
      exact hauth
    · exact absurd rfl hchanged
  cases hchange with
  | nothing => exact absurd hrewrites (by simp [Rewrites])
  | runRow runId run => exact absurd hrewrites (by simp [Rewrites, rawRecordsOf, candidatesOf])
  | opened call id' p new hlease hfree hcreator hempty hinactive =>
    rcases hrewrites with hsnapshot | hraw | hcandidates
    · exfalso
      apply hsnapshot
      rw [Dict.get?_set, if_neg]
      rintro rfl
      exact hfree (Dict.mem_keys_iff.mpr ⟨row, hrow⟩)
    · exact absurd rfl hraw
    · exact absurd rfl hcandidates
  | filled _ call snapshotId old rows hwrite hauth hrows =>
    refine ⟨call, ?_, ?_⟩
    · rcases hwrite with ⟨_, _, rfl⟩ | ⟨_, _, rfl⟩ <;> rfl
    · rcases hrewrites with hsnapshot | hraw | hcandidates
      · exact hset hauth hsnapshot
      · rw [rawRecordsOf_withRaw hrows] at hraw
        split at hraw
        · rename_i hid
          subst hid
          rw [hauth.stored] at hrow
          cases hrow
          exact hauth
        · exact absurd (List.append_nil _) hraw
      · exact absurd rfl hcandidates
  | read call newId p snapshotId old candidates hauth hothers =>
    refine ⟨call, rfl, ?_⟩
    rcases hrewrites with hsnapshot | hraw | hcandidates
    · exact absurd rfl hsnapshot
    · exact absurd rfl hraw
    · by_cases hid : id = snapshotId
      · subst hid
        rw [hauth.stored] at hrow
        cases hrow
        exact hauth
      · exact absurd (candidatesOf_congr hothers hid) hcandidates
  | failed call activation snapshotId old hauth =>
    refine ⟨call, rfl, ?_⟩
    rcases hrewrites with hsnapshot | hraw | hcandidates
    · exact hset hauth hsnapshot
    · exact absurd rfl hraw
    · exact absurd rfl hcandidates
  | activated call activation snapshotId old hauth hgate =>
    refine ⟨call, rfl, ?_⟩
    rcases hrewrites with hsnapshot | hraw | hcandidates
    · exact hset hauth hsnapshot
    · exact absurd rfl hraw
    · exact absurd rfl hcandidates
  | adopted call p snapshotId old adoption hlease hstored hpresents hpass hadoption =>
    exact absurd hrewrites (by simp [Rewrites, rawRecordsOf, candidatesOf])

/-- The latest adopter is the adopter of the last adoption. -/
theorem Sound.latestAdopter?_eq (h : s.Sound) (id : Text) :
    s.latestAdopter? id = (s.adoptionsOf id).getLast?.map AdoptionRow.adoptedByRunId := by
  have hrising : (s.adoptionsOf id).Pairwise fun a b => a.adoptionSeq < b.adoptionSeq := by
    apply List.pairwise_map.mp
    rw [h.numbered id]
    exact List.pairwise_lt_range'
  rw [latestAdopter?, argmax_eq_getLast? hrising]

/-- Without an adoption a stored snapshot keeps its writer. -/
theorem Keeps.currentWriter?_eq (h : s.Keeps s') (hrow : s.snapshots.get? id = some row)
    (hadoptions : s'.adoptionsOf id = s.adoptionsOf id) : s'.currentWriter? id = s.currentWriter? id := by
  obtain ⟨row', hrow', hcreator⟩ := h.creator id row hrow
  unfold currentWriter? latestAdopter?
  rw [hadoptions, hrow, hrow', Option.map_some, Option.map_some, hcreator]

/-- How the writer of a snapshot passes to another run. -/
def Passed (s s' : CaptureStore) (e : CaptureEvent) (id : Text) (row : SnapshotRow) : Prop :=
  ∃ call p, e = .adopt call p ∧ s.HoldsLease call ∧ Presents p row ∧
    s.MayPass call row (s.writerOf id row) ∧ s'.currentWriter? id = some call.runId

theorem Change.passed (hchange : s.Change e s') (h' : s'.Sound) (hrow : s.snapshots.get? id = some row)
    (hmoved : s'.currentWriter? id ≠ s.currentWriter? id) : s.Passed s' e id row := by
  have hkeeps := hchange.keeps
  have hsame : s'.adoptionsOf id ≠ s.adoptionsOf id :=
    fun hsame => hmoved (hkeeps.currentWriter?_eq hrow hsame)
  cases hchange with
  | adopted call p snapshotId old adoption hlease hstored hpresents hpass hadoption =>
    rw [adoptionsOf_snoc] at hsame
    split at hsame
    · rename_i hid
      have hmine : snapshotId = id := by rw [← hid, hadoption]
      subst hmine
      rw [hstored] at hrow
      cases hrow
      refine ⟨call, p, rfl, hlease, hpresents, hpass, ?_⟩
      unfold currentWriter?
      rw [h'.latestAdopter?_eq, adoptionsOf_snoc, if_pos hid, List.getLast?_concat, hadoption]
      rfl
    · exact absurd (List.append_nil _) hsame
  | _ => exact absurd rfl hsame

/-! ## 7. Every run -/

/-- What holds in the store a run reaches, and of every event of the run. -/
structure CaptureHolds (db : CaptureDatabase) (hist : List (CaptureStore × CaptureEvent))
    (s : CaptureStore) : Prop where
  counted : ∀ id row, s.snapshots.get? id = some row →
    row.storedRecordCount = (s.rawRecordsOf id).length
  complete : ∀ id row, s.snapshots.get? id = some row → row.activatedAt.isSome = true →
    row.storedRecordCount = row.retrieval.declaredRecordCount
  kept : ∀ e ∈ hist, e.1.Keeps s
  numbered : ∀ id, (s.adoptionsOf id).map AdoptionRow.adoptionSeq =
    List.range' 1 (s.adoptionsOf id).length
  oneWriter : ∀ id row, s.snapshots.get? id = some row → ∀ runId,
    (∃ granted, s.assertSnapshotWriteAuthority id runId false = .ok granted) ↔
      ¬ row.Decided ∧
        runId = ((s.adoptionsOf id).getLast?.map AdoptionRow.adoptedByRunId).getD row.createdByRunId
  writes : ∀ e ∈ hist, ∀ id row, e.1.snapshots.get? id = some row →
    e.1.Rewrites (e.1.perform db e.2) id →
      ∃ call, e.2.call? = some call ∧ e.1.Authorized call id row
  passes : ∀ e ∈ hist, ∀ id row, e.1.snapshots.get? id = some row →
    (e.1.perform db e.2).currentWriter? id ≠ e.1.currentWriter? id →
      e.1.Passed (e.1.perform db e.2) e.2 id row

variable {hist : List (CaptureStore × CaptureEvent)} {start : CaptureStore}

theorem run_sound (hstart : start.Unused) (hrun : Run (CaptureStep db) start hist s) :
    Throughout Sound hist s := by
  apply hrun.throughout hstart.sound
  rintro m e m' h ⟨-, rfl⟩
  exact (change_perform db m e).sound h

theorem run_keeps (hrun : Run (CaptureStep db) start hist s) : ∀ e ∈ hist, e.1.Keeps s := by
  apply hrun.history_invariant (J := fun hist m => ∀ e ∈ hist, e.1.Keeps m)
  · exact fun e he => absurd he List.not_mem_nil
  · rintro hist m e m' - ih ⟨-, rfl⟩ e' he'
    have hstep := (change_perform db m e).keeps
    rcases List.mem_append.mp he' with he' | he'
    · exact (ih e' he').trans hstep
    · rw [List.mem_singleton.mp he']
      exact hstep

/-- Capture keeps its counters, its gate and its single writer over every order of events. -/
theorem capture_holds (hstart : start.Unused) (hrun : Run (CaptureStep db) start hist s) :
    CaptureHolds db hist s := by
  have hsound := run_sound hstart hrun
  exact
    { counted := hsound.2.counted
      complete := fun id row hrow hactive => (hsound.2.complete id row hrow hactive).2
      kept := run_keeps hrun
      numbered := hsound.2.numbered
      oneWriter := by
        intro id row hrow runId
        rw [← hsound.2.latestAdopter?_eq]
        constructor
        · rintro ⟨granted, hgranted⟩
          obtain ⟨hstored, hwriter, hpending⟩ := assertSnapshotWriteAuthority_eq_ok.mp hgranted
          rw [hrow] at hstored
          cases hstored
          exact ⟨hpending rfl, hwriter.symm⟩
        · rintro ⟨hpending, hwriter⟩
          exact ⟨row, assertSnapshotWriteAuthority_eq_ok.mpr
            ⟨hrow, hwriter.symm, fun _ => hpending⟩⟩
      writes := fun e _ id row hrow => (change_perform db e.1 e.2).authorized hrow
      passes := by
        intro e he id row hrow hmoved
        have hchange := change_perform db e.1 e.2
        exact hchange.passed (hchange.sound (hsound.1 e he)) hrow hmoved }

/-! ### An orphaned capture, adopted and finished -/

def registerDatabase : CaptureDatabase where
  instant _ := some 1790208000000000
  sha256 text :=
    if text = "\x7b\"m\": 1\x7d".toList then
      "bc63c11b44d5eb79770fe8aca3e9f3b2584df4400db74d94ce48710ea2305541".toList
    else "2a036b7d9ecae0500d1c32c6ee86250075fc963286d53948a1e6c1f051178ea5".toList
  unsafePayload _ := false
  sourceVersionValid _ _ := true
  dimensionsValid _ := true

/-- A capture run under a lease. -/
def captureRun (status : RunStatus) (worker : String) (expires : ℤ) : RunRecord Jsonb where
  status := status
  launchState := .launched
  runIdentity := some (.obj [("workflow_key".toList, .str "operator_capture".toList)])
  workerId := some worker.toList
  leaseToken := some worker.toList
  leaseExpiresAt := some expires
  usage := .null

def callOf (worker : String) (now : ℤ) : WorkerCall :=
  ⟨worker.toList, ⟨worker.toList, 1, worker.toList⟩, now⟩

def emptyCatalog : CaptureStore where
  runs :=
    ⟨[("a".toList, captureRun .running "a" 10), ("b".toList, captureRun .running "b" 90)], by decide⟩
  snapshots := Dict.empty
  rawRecords := []
  candidates := []
  adoptions := []

def textMember (field value : String) : Text × Jsonb := (field.toList, .str value.toList)

def carsSnapshot : Jsonb :=
  .obj [textMember "snapshot_key" "cs1.0123456789abcdef0123456789abcdef",
    textMember "source_family" "government", textMember "resource_id" "cars",
    textMember "upstream_version" "2026-09", textMember "upstream_version_kind" "dataset_version",
    textMember "content_sha256" "bc51e9e65d79e1c90ba544ab2eae1044ccdf8c1af7a559ba375cba4276f7d99e",
    textMember "retrieved_at" "2026-09-24T00:00:00Z", ("declared_record_count".toList, .number 2 0)]

def carRecord (n : ℕ) : Jsonb :=
  .obj [textMember "snapshot_id" "s", textMember "resource_id" "cars",
    ("record_key".toList, .str ("cr1.0123456789abcdef0123456789abcde".toList ++ natText n)),
    ("upstream_record_id".toList, .str (natText n)),
    ("payload".toList, .obj [("m".toList, .number n 0)])]

def carCandidate : Jsonb :=
  .obj [textMember "snapshot_id" "s", textMember "raw_record_id" "r1",
    textMember "candidate_key" "cc1.0123456789abcdef0123456789abcdef",
    textMember "manufacturer" "Mazda", textMember "commercial_model" "3"]

/-- Run `a` stores one of two records and fails; run `b` adopts the snapshot and finishes it. -/
def adoptedCapture : List CaptureEvent :=
  [.snapshot (callOf "a" 1) "s".toList carsSnapshot,
    .rawRecord (callOf "a" 2) "r1".toList (carRecord 1),
    .runRow "a".toList (captureRun .failed "a" 10),
    .adopt (callOf "b" 20) carsSnapshot,
    .rawRecords (callOf "b" 21) (fun _ => "r2".toList) (.arr [carRecord 1, carRecord 2]),
    .candidates (callOf "b" 22) (fun _ => "c".toList) (.arr [carCandidate]),
    .activate (callOf "b" 23) (.obj [textMember "snapshot_id" "s"])]

theorem capture_holds_adoptedCapture :
    ∃ hist s, CaptureHolds registerDatabase hist s ∧ hist.map Prod.snd = adoptedCapture ∧
      (s.snapshots.get? "s".toList).map SnapshotRow.activatedAt = some (some 23) ∧
        s.currentWriter? "s".toList = some "b".toList ∧ s.candidates.length = 1 := by
  have hrun : Run (CaptureStep registerDatabase) emptyCatalog _ _ :=
    run_performed adoptedCapture emptyCatalog fun _ _ => trivial
  exact ⟨_, _, capture_holds ⟨rfl, rfl, rfl⟩ hrun, rfl, by decide +kernel, by decide +kernel,
    by decide +kernel⟩

end CaptureStore

end Milo.Catalog
