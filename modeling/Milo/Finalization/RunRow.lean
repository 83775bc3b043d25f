import Milo.Catalog.Reservations

/-!
# RunRow — the run row, and every write of its status

Workers claim the row for a time and prove it by the `(worker, attempt, token)` they present; the
expiry is judged by the database clock.  The status is written by four paths: the claim, the
transition, the finalization and the cancellation request.  A transition and a cancellation request
read the status first and write in a second statement.  Documents are of type `δ`; instants are
microseconds.
-/

namespace Milo.Finalization

open Milo.Reasoning Milo.Catalog

variable {δ : Type}

/-! ## 1. The row -/

/-- `runs_launch_state_check`. -/
inductive RunLaunch
  | none
  | pending
  | launching
  | launched
  | launchFailed
  | launchUnknown
  deriving DecidableEq, Repr

structure RunRecord (δ : Type) where
  status : RunStatus
  launchState : RunLaunch
  runIdentity : Option δ
  attempt : ℕ := 1
  workerId : Option Text := none
  leaseToken : Option Text := none
  leaseExpiresAt : Option ℤ := none
  output : Option δ := none
  error : Option δ := none
  usage : δ
  startedAt : Option ℤ := none
  finishedAt : Option ℤ := none
  lastHeartbeatAt : Option ℤ := none
  cancellationRequestedAt : Option ℤ := none
  cancellationReason : Option String := none
  deriving DecidableEq

/-- The ownership a call presents; an attempt or a token left out is not compared. -/
structure Ownership where
  workerId : Text
  attempt : Option ℕ
  leaseToken : Option Text
  deriving DecidableEq

/-- The lease an ownership states in full, if it does. -/
def Ownership.lease? (owner : Ownership) : Option WorkerLease :=
  match owner.attempt, owner.leaseToken with
  | some attempt, some token => some ⟨owner.workerId, attempt, token⟩
  | _, _ => none

namespace RunRecord

variable (row : RunRecord δ)

/-- `assert_worker_lease`. -/
def assertWorkerLease (now : ℤ) (lease : WorkerLease) : Bool :=
  decide (row.workerId = some lease.workerId) && decide (row.attempt = lease.attempt) &&
    decide (row.leaseToken = some lease.leaseToken) &&
      row.leaseExpiresAt.any fun expires => decide (now < expires)

/-- The predicate of the writes that compare only what they are given. -/
def ownedBy (now : ℤ) (owner : Ownership) : Bool :=
  decide (row.workerId = some owner.workerId) &&
    owner.attempt.all (fun attempt => decide (row.attempt = attempt)) &&
      owner.leaseToken.all (fun token => decide (row.leaseToken = some token)) &&
        row.leaseExpiresAt.any fun expires => decide (now < expires)

/-- Whether the lease is over, or was never given. -/
def leaseOver (now : ℤ) : Bool := row.leaseExpiresAt.all fun expires => decide (expires < now)

/-- The rows that `claim_run_lease` takes. -/
def claimable (now : ℤ) (workerId : Text) : Bool :=
  row.runIdentity.isSome &&
    match row.status with
    | .queued | .launching | .waiting | .cancellationRequested =>
      row.workerId.isNone || decide (row.workerId = some workerId) || row.leaseOver now
    | .starting | .running => decide (row.workerId = some workerId) || row.leaseOver now
    | _ => false

/-- What `claim_run_lease` writes; another worker's lease that ran out makes a new attempt. -/
def claimed (now : ℤ) (workerId token : Text) (leaseSeconds : ℤ) : RunRecord δ :=
  { row with
    status := if row.status = .cancellationRequested then row.status else .starting
    attempt :=
      if row.workerId.any (fun owner => decide (owner ≠ workerId)) &&
          row.leaseExpiresAt.any (fun expires => decide (expires < now)) then row.attempt + 1
      else row.attempt
    workerId := some workerId
    leaseToken := some token
    leaseExpiresAt := some (now + leaseSeconds * 1000000)
    startedAt := some (row.startedAt.getD now) }

end RunRecord

/-! ## 2. What a write carries -/

/-- The columns a status write may set; `error` is `some none` where the call passes a null. -/
structure RunFields (δ : Type) where
  output : Option δ := none
  error : Option (Option δ) := none
  usage : Option δ := none
  startedAt : Option ℤ := none
  finishedAt : Option ℤ := none

/-- The event a finalization owes. -/
structure RunEventRow (δ : Type) where
  eventType : String
  message : Option String
  payload : δ
  deriving DecidableEq

/-- A status write of a worker: usage merges, and a null keeps what there is but for an error that is
    cleared. -/
def RunRecord.withFields (merge : δ → δ → δ) (row : RunRecord δ) (fields : RunFields δ) :
    RunRecord δ :=
  { row with
    output := fields.output.or row.output
    error := match fields.error with
      | some none => none
      | some (some error) => some error
      | none => row.error
    usage := match fields.usage with
      | none => row.usage
      | some usage => merge row.usage usage
    startedAt := fields.startedAt.or row.startedAt
    finishedAt := fields.finishedAt.or row.finishedAt }

/-- A direct update sets the columns it is given. -/
def RunRecord.updateFields (row : RunRecord δ) (fields : RunFields δ) : RunRecord δ :=
  { row with
    output := fields.output.or row.output
    error := fields.error.getD row.error
    usage := fields.usage.getD row.usage
    startedAt := fields.startedAt.or row.startedAt
    finishedAt := fields.finishedAt.or row.finishedAt }

/-! ## 3. The database functions -/

/-- The run row, and the events written with its terminal statuses. -/
structure RunTable (δ : Type) where
  row : RunRecord δ
  events : List (RunEventRow δ) := []

/-- What `_guarded_rpc` raises for `STALE_WORKER_WRITE`. -/
def runLeaseLost : AppError := ⟨"RUN_LEASE_LOST", "run lease is held by another worker", 409⟩

/-- What `_guarded_rpc` raises for any other exception of a function. -/
def guardedWriteFailed : AppError := ⟨"REPOSITORY_ERROR", "guarded persistence operation failed", 502⟩

/-- The arguments of a finalization; an expected status that names no run state is `none`. -/
structure FinalizeCall (δ : Type) where
  status : RunStatus
  expectedStatus : Option RunStatus
  event : Option (RunEventRow δ)
  owner : Ownership
  fields : RunFields δ

namespace RunTable

variable (table : RunTable δ) (now : ℤ)

/-- `claim_run_lease`; `token` is the one drawn for the claim. -/
def claimRunLease (workerId token : Text) (leaseSeconds : ℤ) : Option (RunTable δ) :=
  if table.row.claimable now workerId then
    some { table with row := table.row.claimed now workerId token leaseSeconds }
  else none

/-- `heartbeat_run_guarded`. -/
def heartbeatRunGuarded (owner : Ownership) (leaseSeconds : Option ℤ) :
    Except AppError (RunTable δ) :=
  if table.row.ownedBy now owner &&
      decide (table.row.status = .starting ∨ table.row.status = .running ∨
        table.row.status = .cancellationRequested) then
    .ok { table with
      row := { table.row with
        lastHeartbeatAt := some now
        leaseExpiresAt := some (now + max 1 (leaseSeconds.getD 300) * 1000000) } }
  else .error runLeaseLost

/-- `transition_run_worker_guarded`; a null expected status compares nothing. -/
def transitionRunWorkerGuarded (merge : δ → δ → δ) (status : RunStatus)
    (expectedStatus : Option RunStatus) (owner : Ownership) (fields : RunFields δ) :
    Except AppError (RunTable δ) :=
  if status.isTerminal then .error guardedWriteFailed
  else
    match owner.lease? with
    | none => .error runLeaseLost
    | some lease =>
      if table.row.assertWorkerLease now lease &&
          expectedStatus.all (fun expected => decide (table.row.status = expected)) then
        .ok { table with row := { table.row.withFields merge fields with status := status } }
      else .error runLeaseLost

/-- `finalize_run_guarded`: the transition and its event, or neither. -/
def finalizeRunGuarded (merge : δ → δ → δ) (call : FinalizeCall δ) : Except AppError (RunTable δ) :=
  if call.status.isTerminal then
    if table.row.ownedBy now call.owner && decide (some table.row.status = call.expectedStatus) then
      let written := table.row.withFields merge call.fields
      .ok
        { row := { written with
            status := call.status
            finishedAt := some (written.finishedAt.getD now) }
          events := table.events ++ call.event.toList }
    else .error runLeaseLost
  else .error guardedWriteFailed

end RunTable

/-! ## 4. The repository -/

def statusText : RunStatus → String
  | .queued => "queued"
  | .launching => "launching"
  | .starting => "starting"
  | .running => "running"
  | .waiting => "waiting"
  | .completed => "completed"
  | .partialSuccess => "partial_success"
  | .failed => "failed"
  | .cancellationRequested => "cancellation_requested"
  | .cancelled => "cancelled"
  | .timedOut => "timed_out"
  | .budgetExhausted => "budget_exhausted"

/-- `validate_transition`, as the repository raises it. -/
def validateTransition (current new : RunStatus) : Except AppError Unit :=
  if new ∈ current.validTransitions then .ok ()
  else .error ⟨"INVALID_RUN_TRANSITION",
    "invalid run state transition '" ++ statusText current ++ "' -> '" ++ statusText new ++ "'", 409⟩

/-- The arguments of a transition; without an owner it is not a worker's. -/
structure TransitionCall (δ : Type) where
  status : RunStatus
  owner : Option Ownership
  fields : RunFields δ

/-- `CLAIMED_RUN_STATES`. -/
def isClaimedState : RunStatus → Bool
  | .starting | .running | .waiting => true
  | _ => false

/-- `cancellation_refusal`. -/
def cancellationRefusal (status : RunStatus) (launchState : RunLaunch) : Option String :=
  match status, launchState with
  | .queued, .launched | .launching, .launched => none
  | .queued, .launching | .launching, .launching => some "RUN_LAUNCH_UNRESOLVED"
  | .queued, .launchUnknown | .launching, .launchUnknown => some "RUN_LAUNCH_UNRESOLVED"
  | .queued, _ | .launching, _ => some "RUN_NOT_LAUNCHED"
  | _, _ => none

namespace RunTable

variable (table : RunTable δ) (now : ℤ)

/-- The status read of `transition_run`: what the write is to compare the status with.  A request for
    the status that was read compares it with nothing. -/
def transitionRead (call : TransitionCall δ) : Except AppError (Option RunStatus) :=
  let current := table.row.status
  if call.status.isTerminal then
    .error ⟨"CANONICAL_FINALIZER_REQUIRED",
      "terminal run states must be written through the canonical finalizer", 409⟩
  else if call.status = current then .ok none
  else do
    validateTransition current call.status
    pure (some current)

/-- The write of `transition_run`. -/
def transitionWrite (merge : δ → δ → δ) (call : TransitionCall δ)
    (expectedStatus : Option RunStatus) : Except AppError (RunTable δ) :=
  match call.owner with
  | some owner => table.transitionRunWorkerGuarded now merge call.status expectedStatus owner call.fields
  | none =>
    if expectedStatus.all fun expected => decide (table.row.status = expected) then
      .ok { table with row := { table.row.updateFields call.fields with status := call.status } }
    else .error ⟨"RUN_TRANSITION_CONFLICT",
      "run was modified concurrently or the lease is no longer held", 409⟩

/-- `finalize_run`. -/
def finalizeRun (merge : δ → δ → δ) (call : FinalizeCall δ) : Except AppError (RunTable δ) :=
  if call.status.isTerminal then do
    match call.expectedStatus with
    | some expected => validateTransition expected call.status
    | none => pure ()
    table.finalizeRunGuarded now merge call
  else .error ⟨"INVALID_RUN_TRANSITION",
    "'" ++ statusText call.status ++ "' is not a terminal run status", 409⟩

/-- The read of `request_cancellation`: the status the write is to compare. -/
def cancellationRead : Except AppError RunStatus :=
  match cancellationRefusal table.row.status table.row.launchState with
  | some refusal => .error ⟨refusal, "a cancellation of this run could never be finalized", 409⟩
  | none => do
    validateTransition table.row.status .cancellationRequested
    pure table.row.status

/-- The write of `request_cancellation`; a run no worker has claimed must also be launched. -/
def cancellationWrite (status : RunStatus) (reason : Option String) (requestedAt : ℤ) :
    Except AppError (RunTable δ) :=
  if decide (table.row.status = status) &&
      (isClaimedState status || decide (table.row.launchState = .launched)) then
    .ok { table with
      row := { table.row with
        status := .cancellationRequested
        cancellationRequestedAt := some requestedAt
        cancellationReason := reason } }
  else .error ⟨"RUN_TRANSITION_CONFLICT", "run was modified concurrently", 409⟩

end RunTable

end Milo.Finalization
