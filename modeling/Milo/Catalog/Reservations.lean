import Milo.Catalog.Coverage
import Milo.Reasoning.RowLocks

/-!
# Reservations — the paid-work claims

One row for each (variant identity key, level) while a run owns the paid work on the variant.  A call
claims items of its run's batch one after another, each with its row locked; what it writes is seen by
others when it returns.
-/

namespace Milo.Catalog

open Milo.Reasoning Milo.Python

/-! ## 1. Owners -/

/-- What a claim's owner run says about it. -/
inductive OwnerState
  | active
  | settling
  | dead
  deriving DecidableEq, Repr

/-- `RESERVATION_TAKEOVER_GRACE_SECONDS`, in microseconds. -/
def reservationGrace : ℤ := 15 * 60 * 1000000

/-- `catalog_variant_reservation_state`; an owner nobody knows is dead. -/
def reservationState (runs : Dict Text RunRow) (now : ℤ) (runId : Option Text) : OwnerState :=
  match runId.bind runs.get? with
  | none => .dead
  | some run =>
    if run.status.isFinished then .settling
    else if run.status.isTerminal then .dead
    else
      match run.leaseExpiresAt with
      | none => .dead
      | some expires => if now - reservationGrace < expires then .active else .dead

/-- An owner that is dead stays dead while its run does not change. -/
theorem reservationState_dead_mono {runs : Dict Text RunRow} {earlier later : ℤ}
    {runId : Option Text} (hle : earlier ≤ later)
    (h : reservationState runs earlier runId = .dead) : reservationState runs later runId = .dead := by
  unfold reservationState at h ⊢
  cases hrun : runId.bind runs.get? with
  | none => rfl
  | some run =>
    rw [hrun] at h
    simp only at h ⊢
    by_cases hfinished : run.status.isFinished = true
    · rw [if_pos hfinished] at h
      cases h
    · rw [if_neg hfinished] at h ⊢
      by_cases hterminal : run.status.isTerminal = true
      · rw [if_pos hterminal]
      · rw [if_neg hterminal] at h ⊢
        cases hlease : run.leaseExpiresAt with
        | none => rfl
        | some expires =>
          rw [hlease] at h
          by_cases hlive : earlier - reservationGrace < expires
          · simp only [if_pos hlive] at h
            cases h
          · have hover : ¬ later - reservationGrace < expires := by omega
            simp only [if_neg hover]

/-- A worker's lease, as a call presents it. -/
structure WorkerLease where
  workerId : Text
  attempt : ℕ
  leaseToken : Text
  deriving DecidableEq

/-- `assert_worker_lease`. -/
def RunRow.holdsLease (run : RunRow) (workerId : Text) (attempt : ℕ) (leaseToken : Text) (now : ℤ) :
    Bool :=
  decide (run.workerId = some workerId) && decide (run.attempt = attempt) &&
    decide (run.leaseToken = some leaseToken) && run.leaseExpiresAt.any fun expires => decide (now < expires)

/-! ## 2. A call -/

/-- A named item of the batch, under the key and the content its register row gives it. -/
structure ClaimItem where
  candidateId : Text
  identityKey : Text
  contentSha256 : Text
  upstreamRecordId : Text
  deriving DecidableEq

inductive ClaimDecision
  | reserved
  | excludedAlreadyEnriched
  | excludedKnownUnresolved
  | reservedByOther
  | settlementPending
  deriving DecidableEq, Repr

structure ClaimAnswer where
  candidateId : Text
  upstreamRecordId : Text
  identityKey : Text
  decision : ClaimDecision
  ownerRunId : Option Text
  deriving DecidableEq

/-- A call under way: the items left, whether the insert of the first of them has run and took the
    row, the rows locked, and the answers given. -/
structure AcquireCall where
  runId : Text
  attempt : ℕ
  level : CoverageLevel
  batchId : Text
  includeUnresolved : Bool
  startedAt : ℤ
  items : List ClaimItem
  inserted : Option Bool := none
  rows : Overlay (Text × CoverageLevel) Reservation := Dict.empty
  answers : List ClaimAnswer := []

namespace ClaimItem

/-- The order of `(identity_key, candidate_id)`. -/
def before (a b : ClaimItem) : Prop :=
  a.identityKey < b.identityKey ∨ a.identityKey = b.identityKey ∧ a.candidateId ≤ b.candidateId

instance (a b : ClaimItem) : Decidable (a.before b) :=
  inferInstanceAs (Decidable (_ < _ ∨ _ = _ ∧ _ ≤ _))

end ClaimItem

def maxClaimCandidates : ℕ := 20

namespace CoverageStore

variable (store : CoverageStore)

/-- The named items, in the order in which they are claimed. -/
def claimItems (candidateIds : List Text) : List ClaimItem :=
  (candidateIds.filterMap fun id =>
    (store.candidates.get? id).map fun candidate =>
      ⟨id, candidate.identityKey, candidate.contentSha256, candidate.upstreamRecordId⟩).insertionSort
    ClaimItem.before

/-- The checks of `acquire_catalog_variant_reservations_guarded`. -/
def beginAcquire (now : ℤ) (runId workerId : Text) (attempt : ℕ) (leaseToken : Text)
    (level : CoverageLevel) (candidateIds : List Text) : Except AppError AcquireCall := do
  let run ← required
    ((store.runs.get? runId).filter fun run => run.holdsLease workerId attempt leaseToken now)
    ⟨"RUN_LEASE_LOST", "run lease is held by another worker", 409⟩
  let level ← coverageLevel level
  refuseIf (run.status.isTerminal = true)
    ⟨"CATALOG_COVERAGE_RUN_FINISHED", "the run already finished", 409⟩
  refuseIf (candidateIds = [] ∨ maxClaimCandidates < candidateIds.length ∨ ¬ candidateIds.Nodup)
    ⟨"CATALOG_COVERAGE_INVALID", "invalid coverage ledger request", 422⟩
  let batchId ← required (store.batchRuns.get? runId)
    ⟨"CATALOG_COVERAGE_RUN_UNBOUND", "the run executes no mapping plan batch", 422⟩
  let batch ← required (store.batches.get? batchId)
    ⟨"CATALOG_COVERAGE_RUN_UNBOUND", "the run executes no mapping plan batch", 422⟩
  refuseIf (∃ id ∈ candidateIds, id ∉ batch.candidateIds)
    ⟨"CATALOG_COVERAGE_CANDIDATE_INVALID",
      "a coverage entry names no candidate of the run's snapshot", 422⟩
  .ok
    { runId := runId
      attempt := attempt
      level := level
      batchId := batchId
      includeUnresolved := batch.includeUnresolved
      startedAt := now
      items := store.claimItems candidateIds }

/-- What the ledger says of an item. -/
def itemDecision (vocabulary : Text) (call : AcquireCall) (item : ClaimItem) : CoverageDecision :=
  coverageDecision (store.coverage.get? (item.identityKey, call.level)) item.contentSha256
    call.includeUnresolved vocabulary

end CoverageStore

namespace AcquireCall

variable (call : AcquireCall)

def place (item : ClaimItem) : Text × CoverageLevel := (item.identityKey, call.level)

/-- The row that claims an item. -/
def claim (item : ClaimItem) : Reservation where
  runId := call.runId
  attempt := call.attempt
  batchId := call.batchId
  candidateId := item.candidateId
  contentSha256 := item.contentSha256
  previousRunId := none

/-- The row of a dead owner, taken over. -/
def takeOver (item : ClaimItem) (row : Reservation) : Reservation :=
  { call.claim item with previousRunId := some row.runId }

/-- A claim the run holds is given back. -/
def giveBack (row : Option Reservation) : Option Reservation :=
  row.filter fun row => decide (row.runId ≠ call.runId)

/-- What an item is answered, and what is left in its row.  A row that is gone has no owner, and an
    update of it changes nothing. -/
def decideItem (store : CoverageStore) (vocabulary : Text) (item : ClaimItem)
    (row : Option Reservation) : ClaimDecision × Option Reservation :=
  match store.itemDecision vocabulary call item with
  | .excludedAlreadyEnriched => (.excludedAlreadyEnriched, call.giveBack row)
  | .excludedKnownUnresolved => (.excludedKnownUnresolved, call.giveBack row)
  | .queue =>
    if row.map Reservation.runId = some call.runId then
      (.reserved, row.map fun row => { row with attempt := call.attempt })
    else
      match reservationState store.runs call.startedAt (row.map Reservation.runId) with
      | .dead => (.reserved, row.map (call.takeOver item))
      | .settling => (.settlementPending, row)
      | .active => (.reservedByOther, row)

def answer (item : ClaimItem) (decision : ClaimDecision) (row : Option Reservation) : ClaimAnswer where
  candidateId := item.candidateId
  upstreamRecordId := item.upstreamRecordId
  identityKey := item.identityKey
  decision := decision
  ownerRunId :=
    match decision with
    | .reservedByOther | .settlementPending => row.map Reservation.runId
    | _ => none

/-- The insert of the first item left: it takes a row that is not there. -/
def insertItem (rows : Dict (Text × CoverageLevel) Reservation) (item : ClaimItem) : AcquireCall :=
  match call.rows.view rows (call.place item) with
  | some _ => { call with inserted := some false }
  | none =>
    { call with
      inserted := some true
      rows := call.rows.set (call.place item) (some (call.claim item)) }

/-- The first item left, decided with its row locked; a row that is gone is not locked. -/
def lockItem (store : CoverageStore) (vocabulary : Text) (item : ClaimItem) (rest : List ClaimItem) :
    AcquireCall :=
  let row := call.rows.view store.reservations (call.place item)
  let (decision, left) := call.decideItem store vocabulary item row
  { call with
    items := rest
    inserted := none
    rows := if row = none then call.rows else call.rows.set (call.place item) left
    answers := call.answers ++ [answer item decision row] }

end AcquireCall

/-! ## 3. What an item is answered -/

namespace AcquireCall

variable {call : AcquireCall} {store : CoverageStore} {vocabulary : Text} {item : ClaimItem}

/-- How an item whose row is there can end. -/
inductive ItemOutcome (call : AcquireCall) (store : CoverageStore) (vocabulary : Text)
    (item : ClaimItem) (row : Reservation) : ClaimDecision × Option Reservation → Prop
  /-- The run owned the row, and keeps it. -/
  | kept (left : Reservation) : row.runId = call.runId → left.runId = call.runId →
      ItemOutcome call store vocabulary item row (.reserved, some left)
  /-- The owner is dead. -/
  | takenOver (left : Reservation) :
      reservationState store.runs call.startedAt (some row.runId) = .dead →
      left.runId = call.runId → ItemOutcome call store vocabulary item row (.reserved, some left)
  /-- The row is another run's, and stays. -/
  | left (decision : ClaimDecision) : decision ≠ .reserved →
      ItemOutcome call store vocabulary item row (decision, some row)
  | givenBack (decision : ClaimDecision) : decision ≠ .reserved → row.runId = call.runId →
      store.itemDecision vocabulary call item ≠ .queue →
      ItemOutcome call store vocabulary item row (decision, none)

theorem giveBack_some (call : AcquireCall) (row : Reservation) :
    call.giveBack (some row) = if row.runId = call.runId then none else some row := by
  unfold giveBack
  rw [Option.filter_some]
  by_cases h : row.runId = call.runId <;> simp [h]

theorem itemOutcome_giveBack {row : Reservation} {decision : ClaimDecision}
    (hexcluded : decision ≠ .reserved) (hledger : store.itemDecision vocabulary call item ≠ .queue) :
    ItemOutcome call store vocabulary item row (decision, call.giveBack (some row)) := by
  rw [giveBack_some]
  by_cases hown : row.runId = call.runId
  · rw [if_pos hown]
    exact .givenBack decision hexcluded hown hledger
  · rw [if_neg hown]
    exact .left decision hexcluded

theorem decideItem_cases (call : AcquireCall) (store : CoverageStore) (vocabulary : Text)
    (item : ClaimItem) (row : Reservation) :
    ItemOutcome call store vocabulary item row
      (call.decideItem store vocabulary item (some row)) := by
  unfold decideItem
  cases hledger : store.itemDecision vocabulary call item with
  | excludedAlreadyEnriched =>
    exact itemOutcome_giveBack (by decide) (by rw [hledger]; decide)
  | excludedKnownUnresolved =>
    exact itemOutcome_giveBack (by decide) (by rw [hledger]; decide)
  | queue =>
    simp only [Option.map_some, Option.some.injEq]
    by_cases hown : row.runId = call.runId
    · rw [if_pos hown]
      exact .kept _ hown hown
    · rw [if_neg hown]
      cases howner : reservationState store.runs call.startedAt (some row.runId) with
      | dead => exact .takenOver _ howner rfl
      | settling => exact .left _ (by decide)
      | active => exact .left _ (by decide)

/-- The claims of the ledger's candidates that are queued are never given back. -/
theorem decideItem_some_of_queue {row : Reservation}
    (hledger : row.runId = call.runId → store.itemDecision vocabulary call item = .queue) :
    ∃ left, (call.decideItem store vocabulary item (some row)).2 = some left := by
  generalize hdecided : call.decideItem store vocabulary item (some row) = decided
  have hcases := decideItem_cases call store vocabulary item row
  rw [hdecided] at hcases
  cases hcases with
  | kept left _ _ => exact ⟨left, rfl⟩
  | takenOver left _ _ => exact ⟨left, rfl⟩
  | left decision _ => exact ⟨row, rfl⟩
  | givenBack decision _ hown hqueue => exact absurd (hledger hown) hqueue

end AcquireCall

end Milo.Catalog
