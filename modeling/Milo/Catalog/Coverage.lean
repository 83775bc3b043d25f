import Milo.Catalog.Runs
import Milo.Python.Json
import Milo.Reasoning.Action
import Milo.Reasoning.Grouping
import Milo.Reasoning.RankedWrite

/-!
# Coverage — the variant coverage ledger

One row for each (variant identity key, level): what the latest finished run that was settled
established, the snapshot it read, and the content hash of the register row it read.  A settlement
names candidates of the run's snapshot and the status each earned; keys, contents and the vocabulary
are the repository's own.
-/

namespace Milo.Catalog

open Milo.Reasoning Milo.Python

/-! ## 1. Statuses and decisions -/

/-- `COVERAGE_STATUSES`. -/
inductive CoverageStatus
  | enriched
  | unresolvedAmbiguous
  | unresolvedNotFound
  | failed
  | pending
  deriving DecidableEq, Repr

namespace CoverageStatus

def text : CoverageStatus → Text
  | enriched => "enriched".toList
  | unresolvedAmbiguous => "unresolved_ambiguous".toList
  | unresolvedNotFound => "unresolved_not_found".toList
  | failed => "failed".toList
  | pending => "pending".toList

/-- `STATUS_RANK`: how strongly a status settles a variant. -/
def rank : CoverageStatus → ℕ
  | enriched => 4
  | unresolvedAmbiguous => 3
  | unresolvedNotFound => 3
  | pending => 2
  | failed => 1

/-- `UNRESOLVED_STATUSES`. -/
def isUnresolved : CoverageStatus → Bool
  | unresolvedAmbiguous | unresolvedNotFound => true
  | _ => false

/-- The order of `(-STATUS_RANK[status], status)`: the stronger one, of equal rank the lesser
    text. -/
def strongerThan (status current : CoverageStatus) : Bool :=
  decide (current.rank < status.rank) ||
    decide (status.rank = current.rank) && decide (status.text < current.text)

theorem rank_of_isUnresolved {status : CoverageStatus} (h : status.isUnresolved = true) :
    status.rank = 3 := by
  cases status <;> first | rfl | cases h

/-- Only an enrichment outranks an unresolved answer. -/
theorem eq_enriched_of_rank {status : CoverageStatus} (h : 3 < status.rank) : status = enriched := by
  cases status <;> first | rfl | exact absurd h (by decide)

end CoverageStatus

/-- A level of work.  A Mapping Plan batch may name `COVERAGE_LEVELS` only; the others are written by
    the variant build. -/
inductive CoverageLevel
  | register
  | identity
  | governmentFields
  deriving DecidableEq, Repr

inductive CoverageReason
  | keyCollision
  deriving DecidableEq, Repr

def CoverageReason.code : CoverageReason → String
  | .keyCollision => "CATALOG_COVERAGE_KEY_COLLISION"

inductive CoverageDecision
  | queue
  | excludedAlreadyEnriched
  | excludedKnownUnresolved
  deriving DecidableEq, Repr

/-- One row of the ledger. -/
structure LedgerRow where
  status : CoverageStatus
  lastRunId : Text
  snapshotKey : Text
  contentSha256 : Text
  vocabularyVersion : Text
  reasonCode : Option CoverageReason
  deriving DecidableEq

/-- Queue a candidate, or say why it is left out. -/
def coverageDecision (row : Option LedgerRow) (content : Text) (includeUnresolved : Bool)
    (vocabulary : Text) : CoverageDecision :=
  match row with
  | none => .queue
  | some row =>
    if row.status = .enriched ∧ row.contentSha256 = content then .excludedAlreadyEnriched
    else if row.status.isUnresolved ∧ ¬ includeUnresolved ∧ row.contentSha256 = content ∧
        row.vocabularyVersion = vocabulary then .excludedKnownUnresolved
    else .queue

/-- When a candidate is left out as known to be unresolved. -/
theorem coverageDecision_eq_knownUnresolved {row : Option LedgerRow} {content vocabulary : Text} :
    coverageDecision row content false vocabulary = .excludedKnownUnresolved ↔
      ∃ held, row = some held ∧ held.status.isUnresolved = true ∧ held.contentSha256 = content ∧
        held.vocabularyVersion = vocabulary := by
  cases row with
  | none => simp [coverageDecision]
  | some held =>
    cases hstatus : held.status <;>
      by_cases hcontent : held.contentSha256 = content <;>
      simp [coverageDecision, CoverageStatus.isUnresolved, hstatus, hcontent]

/-! ## 2. What one run settles -/

/-- What one run's entries settle for one identity key. -/
structure KeySettlement where
  status : CoverageStatus
  contentSha256 : Text
  reasonCode : Option CoverageReason := none
  deriving DecidableEq

/-- One entry under its identity key, with the content hash of its row. -/
structure KeyedEntry where
  identityKey : Text
  contentSha256 : Text
  status : CoverageStatus
  deriving DecidableEq

/-- The strongest status of a non-empty group. -/
def strongest : List KeyedEntry → CoverageStatus
  | [] => .failed
  | entry :: entries =>
    entries.foldl (fun current e => if e.status.strongerThan current then e.status else current)
      entry.status

section Settle

variable (sha256 : Text → Text)

/-- `collision_content_sha256`: every distinct content, sorted, joined and hashed. -/
def collisionContentSha256 (contents : List Text) : Text :=
  sha256 (joinWith ',' (contents.dedup.insertionSort fun a b => a ≤ b))

/-- What the entries of one key settle, `peers` being the contents its snapshot states. -/
def settlementOf (group : List KeyedEntry) (peers : List Text) : KeySettlement :=
  let seen := (group.map KeyedEntry.contentSha256 ++ peers).dedup
  if 1 < seen.length then
    { status := .failed
      contentSha256 := collisionContentSha256 sha256 seen
      reasonCode := some .keyCollision }
  else
    { status := strongest group
      contentSha256 := seen.headD [] }

/-- Per identity key, what one run's entries settle. -/
def settleKeys (entries : List KeyedEntry) (snapshotContents : Text → List Text) :
    Dict Text KeySettlement :=
  (Dict.groupBy KeyedEntry.identityKey entries).mapValues fun key group =>
    settlementOf sha256 group (snapshotContents key)

end Settle

/-! ## 3. The store -/

/-- A run row, as far as the ledger and the claims read it. -/
structure RunRow where
  status : RunStatus
  finishedAt : ℤ := 0
  workerId : Option Text := none
  attempt : ℕ := 0
  leaseToken : Option Text := none
  leaseExpiresAt : Option ℤ := none
  deriving DecidableEq

/-- A stored candidate row: its identity columns, and the key and content hash that its register row
    gives it. -/
structure Candidate where
  snapshotId : Text
  columns : List (Option Text)
  identityKey : Text
  contentSha256 : Text
  upstreamRecordId : Text
  deriving DecidableEq

/-- A batch of a Mapping Plan: its snapshot, its queue items, and what its plan revision says of
    unresolved variants. -/
structure Batch where
  snapshotId : Text
  snapshotKey : Text
  candidateIds : List Text
  includeUnresolved : Bool
  deriving DecidableEq

/-- A paid-work claim. -/
structure Reservation where
  runId : Text
  attempt : ℕ
  batchId : Text
  candidateId : Text
  contentSha256 : Text
  previousRunId : Option Text
  deriving DecidableEq

abbrev Ledger := Dict (Text × CoverageLevel) LedgerRow

/-- The tables the ledger reads and writes; a run is bound to at most one batch. -/
structure CoverageStore where
  runs : Dict Text RunRow
  batchRuns : Dict Text Text
  batches : Dict Text Batch
  candidates : Dict Text Candidate
  coverage : Ledger
  reservations : Dict (Text × CoverageLevel) Reservation

/-! ## 4. Writing the ledger -/

/-- A candidate of the run's snapshot and the status it earned. -/
structure CoverageEntry where
  candidateId : Text
  status : CoverageStatus
  deriving DecidableEq

structure CoverageAnswer where
  runId : Text
  level : CoverageLevel
  snapshotKey : Text
  entries : ℕ
  written : ℕ
  released : ℕ
  collisions : ℕ

/-- `_coverage_level`. -/
def coverageLevel (level : CoverageLevel) : Except AppError CoverageLevel :=
  if level = .register then .ok level
  else .error ⟨"CATALOG_COVERAGE_INVALID", "invalid coverage ledger request", 422⟩

def maxCoverageEntries : ℕ := 200

/-- Whether an incoming row replaces the one recorded. -/
def LedgerRow.replacedBy (row incoming : LedgerRow) : Bool :=
  decide (row.contentSha256 ≠ incoming.contentSha256) ||
    decide (row.status.rank < incoming.status.rank) ||
    decide (incoming.status.rank = row.status.rank) &&
      (decide (row.status ≠ incoming.status) || decide (row.lastRunId ≠ incoming.lastRunId) ||
        decide (row.snapshotKey ≠ incoming.snapshotKey) ||
        decide (row.vocabularyVersion ≠ incoming.vocabularyVersion) ||
        decide (row.reasonCode ≠ incoming.reasonCode))

/-- Insert the row of a key, or replace the one recorded; with the number of rows written. -/
def upsert (level : CoverageLevel) (ledger : Ledger × ℕ) (incoming : Text × LedgerRow) :
    Ledger × ℕ :=
  match ledger.1.get? (incoming.1, level) with
  | none => (ledger.1.set (incoming.1, level) incoming.2, ledger.2 + 1)
  | some row =>
    if row.replacedBy incoming.2 then
      (ledger.1.set (incoming.1, level) incoming.2, ledger.2 + 1)
    else ledger

section Apply

variable (sha256 : Text → Text)

/-- The entries under their identity keys; none if one names no candidate of the snapshot. -/
def CoverageStore.keyed (store : CoverageStore) (snapshotId : Text) (entries : List CoverageEntry) :
    Option (List KeyedEntry) :=
  entries.mapM fun entry =>
    match store.candidates.get? entry.candidateId with
    | none => none
    | some candidate =>
      if candidate.snapshotId = snapshotId then
        some ⟨candidate.identityKey, candidate.contentSha256, entry.status⟩
      else none

/-- `_snapshot_key_contents`: the content of every row of the snapshot that states the identity
    columns of an entry and has the key. -/
def CoverageStore.snapshotKeyContents (store : CoverageStore) (snapshotId : Text)
    (entries : List CoverageEntry) (key : Text) : List Text :=
  let wanted := entries.filterMap fun entry =>
    (store.candidates.get? entry.candidateId).map Candidate.columns
  ((store.candidates.values.filter fun candidate =>
    decide (candidate.snapshotId = snapshotId) && wanted.contains candidate.columns &&
      decide (candidate.identityKey = key)).map Candidate.contentSha256)

/-- What a run settles, under each identity key: the run must have finished, execute a batch, and
    name candidates of the batch's snapshot only. -/
def CoverageStore.settled (store : CoverageStore) (runId : Text) (entries : List CoverageEntry) :
    Except AppError (Batch × Dict Text KeySettlement) :=
  match store.runs.get? runId with
  | none => .error ⟨"CATALOG_COVERAGE_RUN_NOT_FINISHED", "the run has not finished with a result", 409⟩
  | some run =>
    if run.status.isFinished then
      match (store.batchRuns.get? runId).bind store.batches.get? with
      | none =>
        .error ⟨"CATALOG_COVERAGE_RUN_UNBOUND", "the run executes no mapping plan batch", 422⟩
      | some batch =>
        match store.keyed batch.snapshotId entries with
        | none =>
          .error ⟨"CATALOG_COVERAGE_CANDIDATE_INVALID",
            "a coverage entry names no candidate of the run's snapshot", 422⟩
        | some keyed =>
          .ok (batch, settleKeys sha256 keyed (store.snapshotKeyContents batch.snapshotId entries))
    else
      .error ⟨"CATALOG_COVERAGE_RUN_NOT_FINISHED", "the run has not finished with a result", 409⟩

/-- The row a settlement writes, under the vocabulary in force. -/
def KeySettlement.row (settlement : KeySettlement) (runId snapshotKey vocabulary : Text) : LedgerRow where
  status := settlement.status
  lastRunId := runId
  snapshotKey := snapshotKey
  contentSha256 := settlement.contentSha256
  vocabularyVersion := vocabulary
  reasonCode := settlement.reasonCode

/-- The keys settled, each once and in order, with the rows to write. -/
def incomingRows (settled : Dict Text KeySettlement) (runId snapshotKey vocabulary : Text) :
    List (Text × LedgerRow) :=
  (settled.entries.insertionSort fun a b => a.1 ≤ b.1).map fun e =>
    (e.1, e.2.row runId snapshotKey vocabulary)

/-- `_apply_catalog_variant_coverage`: the ledger rows of one finished run, and the release of the
    claims it holds at the level. -/
def applyCatalogVariantCoverage (vocabulary : Text) (store : CoverageStore) (runId : Text)
    (level : CoverageLevel) (entries : List CoverageEntry) :
    Except AppError (CoverageStore × CoverageAnswer) := do
  let level ← coverageLevel level
  if maxCoverageEntries < entries.length then
    .error ⟨"CATALOG_COVERAGE_INVALID", "invalid coverage ledger request", 422⟩
  else
    let (batch, settled) ← store.settled sha256 runId entries
    let (coverage, written) :=
      (incomingRows settled runId batch.snapshotKey vocabulary).foldl (upsert level)
        (store.coverage, 0)
    let held := store.reservations.filter fun key row =>
      decide (row.runId = runId) && decide (key.2 = level)
    .ok
      ({ store with
          coverage := coverage
          reservations := store.reservations.filter fun key row =>
            !(decide (row.runId = runId) && decide (key.2 = level)) },
        { runId := runId
          level := level
          snapshotKey := batch.snapshotKey
          entries := entries.length
          written := written
          released := held.entries.length
          collisions := (settled.values.filter fun settlement =>
            decide (settlement.reasonCode = some .keyCollision)).length })

end Apply

/-! ## 5. What a write leaves at one key -/

/-- What an upsert compares: the content, and how strongly the status settles. -/
def ledgerRanking : Ranking LedgerRow Text where
  content := LedgerRow.contentSha256
  rank row := row.status.rank

variable {row : LedgerRow} {rows : List (Text × LedgerRow)}

/-- A row of the content and rank recorded that replaces nothing is the row recorded. -/
theorem eq_of_not_replacedBy {incoming : LedgerRow} (hkeep : row.replacedBy incoming = false)
    (hle : row.status.rank ≤ incoming.status.rank) : row = incoming := by
  cases row
  cases incoming
  simp only [LedgerRow.replacedBy, Bool.or_eq_false_iff, Bool.and_eq_false_iff,
    decide_eq_false_iff_not, not_not] at hkeep hle
  rcases hkeep with ⟨⟨hcontent, hrank⟩, hne | hfields⟩
  · omega
  · rw [hcontent, hfields.2, hfields.1.2, hfields.1.1.2, hfields.1.1.1.2, hfields.1.1.1.1]

/-- The upsert is an offer: a row that does not replace the one recorded is the same, or weaker. -/
theorem offer_eq (row incoming : LedgerRow) :
    ledgerRanking.offer (some row) incoming =
      if row.replacedBy incoming then incoming else row := by
  by_cases hweaker : row.contentSha256 = incoming.contentSha256 ∧
      incoming.status.rank < row.status.rank
  · have hkeep : row.replacedBy incoming = false := by
      have hge : ¬ row.status.rank < incoming.status.rank := by omega
      have hne : ¬ incoming.status.rank = row.status.rank := by omega
      simp [LedgerRow.replacedBy, hweaker.1, hge, hne]
    rw [hkeep]
    exact if_pos hweaker
  · have hoffer : ledgerRanking.offer (some row) incoming = incoming := if_neg hweaker
    rw [hoffer]
    by_cases hreplace : row.replacedBy incoming = true
    · rw [if_pos hreplace]
    · rw [if_neg hreplace]
      have hcontent : row.contentSha256 = incoming.contentSha256 := by
        by_contra hne
        exact hreplace (by simp [LedgerRow.replacedBy, hne])
      have hle : row.status.rank ≤ incoming.status.rank := by
        by_contra hlt
        exact hweaker ⟨hcontent, by omega⟩
      exact (eq_of_not_replacedBy (by simpa using hreplace) hle).symm

theorem get?_upsert (level : CoverageLevel) (ledger : Ledger × ℕ) (key : Text) (row : LedgerRow)
    (place : Text × CoverageLevel) :
    (upsert level ledger (key, row)).1.get? place =
      if place = (key, level) then
        some (ledgerRanking.offer (ledger.1.get? (key, level)) row)
      else ledger.1.get? place := by
  unfold upsert
  simp only
  cases hget : ledger.1.get? (key, level) with
  | none =>
    simp only
    rw [Dict.get?_set]
    rfl
  | some held =>
    simp only
    rw [offer_eq]
    by_cases hreplace : held.replacedBy row = true
    · simp only [if_pos hreplace, Dict.get?_set]
    · simp only [if_neg hreplace]
      split
      · rename_i hplace
        rw [hplace, hget]
      · rfl

theorem get?_upserts_of_notMem (level : CoverageLevel) {place : Text × CoverageLevel}
    (h : ∀ row, (place.1, row) ∈ rows → place.2 ≠ level) :
    ∀ ledger : Ledger × ℕ, (rows.foldl (upsert level) ledger).1.get? place = ledger.1.get? place := by
  induction rows with
  | nil => exact fun _ => rfl
  | cons row rows ih =>
    intro ledger
    rw [List.foldl_cons, ih fun other hother => h other (List.mem_cons_of_mem _ hother),
      get?_upsert, if_neg]
    intro heq
    apply h row.2
    · rw [heq]
      exact List.mem_cons_self
    · rw [heq]

theorem get?_upserts_of_mem (level : CoverageLevel) (hnodup : (rows.map Prod.fst).Nodup) {key : Text}
    (h : (key, row) ∈ rows) :
    ∀ ledger : Ledger × ℕ, (rows.foldl (upsert level) ledger).1.get? (key, level) =
      some (ledgerRanking.offer (ledger.1.get? (key, level)) row) := by
  induction rows with
  | nil => exact absurd h List.not_mem_nil
  | cons first rows ih =>
    intro ledger
    rw [List.map_cons, List.nodup_cons] at hnodup
    rw [List.foldl_cons]
    rcases List.mem_cons.mp h with heq | hrest
    · rw [← heq] at hnodup ⊢
      rw [get?_upserts_of_notMem, get?_upsert, if_pos rfl]
      intro other hother
      exact absurd (List.mem_map_of_mem hother) hnodup.1
    · rw [ih hnodup.2 hrest, get?_upsert, if_neg]
      intro heq
      apply hnodup.1
      rw [← (Prod.mk.inj heq).1]
      exact List.mem_map_of_mem hrest

theorem mem_incomingRows {settled : Dict Text KeySettlement} {runId snapshotKey vocabulary key : Text} :
    (key, row) ∈ incomingRows settled runId snapshotKey vocabulary ↔
      ∃ settlement, settled.get? key = some settlement ∧
        row = settlement.row runId snapshotKey vocabulary := by
  unfold incomingRows
  simp only [List.mem_map, Prod.mk.injEq, List.mem_insertionSort, Prod.exists]
  apply Iff.intro
  · intro h
    rcases h with ⟨key', settlement, hmem, hkey, hrow⟩
    rw [hkey] at hmem
    exact ⟨settlement, Dict.get?_eq_some.mpr hmem, hrow.symm⟩
  · intro h
    rcases h with ⟨settlement, hget, hrow⟩
    exact ⟨key, settlement, Dict.get?_eq_some.mp hget, rfl, hrow.symm⟩

theorem nodup_incomingRows (settled : Dict Text KeySettlement) (runId snapshotKey vocabulary : Text) :
    ((incomingRows settled runId snapshotKey vocabulary).map Prod.fst).Nodup := by
  unfold incomingRows
  rw [List.map_map]
  have hperm := (List.perm_insertionSort (fun a b : Text × KeySettlement => a.1 ≤ b.1)
    settled.entries).map Prod.fst
  exact hperm.nodup_iff.mpr settled.nodup

end Milo.Catalog
