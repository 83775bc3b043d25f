import Milo.Catalog.Reservations

/-!
# CallReservations — the daily budget ledger of model calls

A model call reserves its worst case before the provider is asked and settles the row afterwards.
One row, under its `(run, attempt, call)` identity, counts against the day of its user and of its
project at once.  Amounts are exact rationals; instants are microseconds of the database clock.
-/

namespace Milo.Budget

open Milo.Reasoning Milo.Catalog

/-! ## 1. Rows -/

inductive CallStatus
  | reserved
  | settled
  | released
  | rejected
  | overage
  deriving DecidableEq, Repr

/-- The statuses that `model_call_budget_committed` sums. -/
def CallStatus.isCounted : CallStatus → Bool
  | reserved | settled | overage => true
  | released | rejected => false

/-- The unique index `(run_id, attempt, call_seq)`. -/
structure CallIdentity where
  runId : Text
  attempt : ℕ
  callSeq : ℤ
  deriving DecidableEq

structure CallReservation where
  id : Text
  userId : Option Text
  projectId : Option Text
  budgetDate : ℤ
  provider : String
  model : String
  estimatedCost : ℚ
  actualCost : Option ℚ := none
  status : CallStatus
  rejectionReason : Option String := none
  settledAt : Option ℤ := none
  deriving DecidableEq

namespace CallReservation

/-- `coalesce(actual_cost, estimated_cost, 0)`. -/
def cost (row : CallReservation) : ℚ := row.actualCost.getD row.estimatedCost

/-- What a settled row cost beyond its estimate. -/
def excess (row : CallReservation) : ℚ :=
  if row.status = .settled ∨ row.status = .overage then max 0 (row.cost - row.estimatedCost) else 0

end CallReservation

/-- A row as a function returns it, with its key columns. -/
abbrev CallRow := CallIdentity × CallReservation

structure CallDatabase where
  runs : Dict Text RunRow
  now : ℤ
  reservations : Dict CallIdentity CallReservation

namespace CallDatabase

/-- `(now() at time zone 'utc')::date`. -/
def today (db : CallDatabase) : ℤ := db.now / 86400000000

/-- A stated id equals a column; a null is equal to nothing. -/
def names (id column : Option Text) : Bool := id.isSome && decide (column = id)

/-- `model_call_budget_committed`. -/
def modelCallBudgetCommitted (db : CallDatabase) (userId projectId : Option Text) (day : ℤ) :
    ℚ × ℚ :=
  let selected (row : CallReservation) : Bool :=
    decide (row.budgetDate = day) && row.status.isCounted &&
      (names userId row.userId || names projectId row.projectId)
  (db.reservations.total fun _ row =>
      if selected row then (if names userId row.userId then row.cost else 0) else 0,
    db.reservations.total fun _ row =>
      if selected row then (if names projectId row.projectId then row.cost else 0) else 0)

end CallDatabase

/-- An exception a database function raises. -/
structure DatabaseError where
  message : String
  errcode : String
  deriving DecidableEq, Repr

/-- `assert_worker_lease`. -/
def CallDatabase.assertWorkerLease (db : CallDatabase) (runId : Text) (lease : WorkerLease) :
    Except DatabaseError Unit :=
  if (db.runs.get? runId).any fun run =>
      run.holdsLease lease.workerId lease.attempt lease.leaseToken db.now then .ok ()
  else .error
    { message := "STALE_WORKER_WRITE: lease (worker " ++ String.ofList lease.workerId ++
        ", attempt " ++ toString lease.attempt ++ ") is not current for run " ++ String.ofList runId
      errcode := "55000" }

/-! ## 2. Reserving -/

/-- The arguments of a reservation, and the id drawn for its row should it be a new one. -/
structure ReserveCall where
  runId : Text
  callSeq : ℤ
  userId : Option Text
  projectId : Option Text
  estimatedCost : ℚ
  dailyUserLimit : Option ℚ
  dailyProjectLimit : Option ℚ
  lease : WorkerLease
  provider : String := "moonshot"
  model : String := "kimi"
  newId : Text

namespace ReserveCall

/-- The lease attempt is the reservation attempt. -/
def identity (call : ReserveCall) : CallIdentity := ⟨call.runId, call.lease.attempt, call.callSeq⟩

/-- The arguments that `reserve_model_call_budget_for_attempt` takes. -/
def WellFormed (call : ReserveCall) : Prop :=
  0 < call.lease.attempt ∧ 0 < call.callSeq ∧ 0 ≤ call.estimatedCost

instance (call : ReserveCall) : Decidable call.WellFormed :=
  inferInstanceAs (Decidable (_ ∧ _ ∧ _))

def row (call : ReserveCall) (day : ℤ) (status : CallStatus) (reason : Option String) :
    CallReservation :=
  { id := call.newId
    userId := call.userId
    projectId := call.projectId
    budgetDate := day
    provider := call.provider
    model := call.model
    estimatedCost := call.estimatedCost
    status := status
    rejectionReason := reason }

end ReserveCall

/-- Whether an owner's spend and a new estimate pass the stated limit. -/
def overLimit (limit : Option ℚ) (owner : Option Text) (spend estimatedCost : ℚ) : Bool :=
  match limit, owner with
  | some limit, some _ => decide (limit < spend + estimatedCost)
  | _, _ => false

namespace CallDatabase

/-- The budget that refuses a reservation; the user's is asked first. -/
def refusal (db : CallDatabase) (call : ReserveCall) : Option String :=
  let spend := db.modelCallBudgetCommitted call.userId call.projectId db.today
  if overLimit call.dailyUserLimit call.userId spend.1 call.estimatedCost then
    some "DAILY_USER_BUDGET_REACHED"
  else if overLimit call.dailyProjectLimit call.projectId spend.2 call.estimatedCost then
    some "DAILY_PROJECT_BUDGET_REACHED"
  else none

/-- A refused reservation is recorded; a row already there is turned into a rejected one. -/
def reject (db : CallDatabase) (call : ReserveCall) (reason : String) : CallRow × CallDatabase :=
  let row := match db.reservations.get? call.identity with
    | some row => { row with status := .rejected, rejectionReason := some reason }
    | none => call.row db.today .rejected (some reason)
  ((call.identity, row), { db with reservations := db.reservations.set call.identity row })

/-- A granted reservation is a new row, or else whatever row is already there. -/
def grant (db : CallDatabase) (call : ReserveCall) : CallRow × CallDatabase :=
  match db.reservations.get? call.identity with
  | some row => ((call.identity, row), db)
  | none =>
    let row := call.row db.today .reserved none
    ((call.identity, row), { db with reservations := db.reservations.set call.identity row })

/-- `reserve_model_call_budget_for_attempt`. -/
def reserveForAttempt (db : CallDatabase) (call : ReserveCall) :
    Except DatabaseError (CallRow × CallDatabase) :=
  if call.WellFormed then
    match db.refusal call with
    | some reason => .ok (db.reject call reason)
    | none => .ok (db.grant call)
  else .error ⟨"invalid model-call budget reservation", "22023"⟩

/-- `reserve_model_call_budget_guarded`. -/
def reserveGuarded (db : CallDatabase) (call : ReserveCall) :
    Except DatabaseError (CallRow × CallDatabase) := do
  db.assertWorkerLease call.runId call.lease
  db.reserveForAttempt call

end CallDatabase

/-! ## 3. Settling -/

structure SettleCall where
  reservationId : Text
  actualCost : ℚ
  runId : Text
  lease : WorkerLease
  status : String := "settled"
  rejectionReason : Option String := none

/-- What a settlement writes to its row. -/
def SettleCall.write (call : SettleCall) (status : CallStatus) (now : ℤ) (row : CallReservation) :
    CallReservation :=
  { row with
    actualCost := some call.actualCost
    status := status
    rejectionReason := call.rejectionReason
    settledAt := some now }

/-- The statuses a settlement may write. -/
def settlementStatus? : String → Option CallStatus
  | "settled" => some .settled
  | "released" => some .released
  | "overage" => some .overage
  | _ => none

namespace CallDatabase

/-- The row a settlement is bound to: its own, of this run and attempt, and still reserved. -/
def settles (call : SettleCall) (row : CallRow) : Bool :=
  decide (row.2.id = call.reservationId) && decide (row.1.runId = call.runId) &&
    decide (row.1.attempt = call.lease.attempt) && decide (row.2.status = .reserved)

/-- `settle_model_call_budget_guarded`. -/
def settleGuarded (db : CallDatabase) (call : SettleCall) :
    Except DatabaseError (CallRow × CallDatabase) := do
  db.assertWorkerLease call.runId call.lease
  if call.actualCost < 0 then
    throw ⟨"invalid model-call budget settlement", "22023"⟩
  match settlementStatus? call.status with
  | none => throw ⟨"invalid model-call settlement status", "22023"⟩
  | some status =>
    match db.reservations.entries.find? (settles call) with
    | none =>
      throw
        { message := "RESERVATION_RUN_MISMATCH_OR_SETTLED: reservation " ++
            String.ofList call.reservationId ++ " is not a reserved entry of run " ++
            String.ofList call.runId ++ " attempt " ++ toString call.lease.attempt
          errcode := "55000" }
    | some found =>
      let row := call.write status db.now found.2
      pure ((found.1, row), { db with reservations := db.reservations.set found.1 row })

end CallDatabase

/-! ## 4. The repository -/

/-- What `_guarded_rpc` raises for a failed call. -/
def guardedFailure (error : DatabaseError) : AppError :=
  if error.message.startsWith "STALE_WORKER_WRITE" then
    ⟨"RUN_LEASE_LOST", "run lease is held by another worker", 409⟩
  else ⟨"REPOSITORY_ERROR", "guarded persistence operation failed", 502⟩

namespace CallDatabase

/-- `SupabaseRepository.reserve_model_call_budget` of a worker. -/
def reserveModelCallBudget (db : CallDatabase) (call : ReserveCall) :
    Except AppError CallRow × CallDatabase :=
  match db.reserveGuarded call with
  | .error error => (.error (guardedFailure error), db)
  | .ok (row, db') =>
    if row.2.status = .rejected then
      (.error ⟨row.2.rejectionReason.getD "DAILY_BUDGET_REACHED", "daily budget exhausted", 429⟩, db')
    else (.ok row, db')

/-- `SupabaseRepository.settle_model_call_budget` of a worker. -/
def settleModelCallBudget (db : CallDatabase) (call : SettleCall) :
    Except AppError CallRow × CallDatabase :=
  match db.settleGuarded call with
  | .error error => (.error (guardedFailure error), db)
  | .ok (row, db') => (.ok row, db')

end CallDatabase

end Milo.Budget
