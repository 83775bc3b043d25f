import Milo.Creation.RunCreation
import Milo.Finalization.RunRow

/-!
# Launch — the launch of a queued run, its operators and its workers

A request thread takes the launch by a compare-and-set, calls the launcher, and records what came of
it with an update that compares nothing.  Operators reconcile a launch whose outcome was never
recorded and retire a run that was never launched; workers claim the run and write under their lease.
-/

namespace Milo.Creation

open Milo.Catalog Milo.Finalization Milo.Python Milo.Reasoning

/-! ## 1. Threads -/

/-- What the launcher answered. -/
inductive LaunchAnswer
  | started (mode execution : Text)
  | uncertain (message : Text)
  | failed (message : Text)

/-- The state a thread records for an answer. -/
def LaunchAnswer.state : LaunchAnswer → RunLaunch
  | started _ _ => .launched
  | uncertain _ => .launchUnknown
  | failed _ => .launchFailed

/-- Where a thread that took the launch is. -/
inductive LaunchPhase
  | acquired
  | answered (answer : LaunchAnswer)
  | invocationRecorded (mode execution : Text)
  | reported (answer : LaunchAnswer)
  | ended

/-- The answer a thread is about to record. -/
def LaunchPhase.toReport? : LaunchPhase → Option LaunchAnswer
  | answered (.uncertain message) => some (.uncertain message)
  | answered (.failed message) => some (.failed message)
  | invocationRecorded mode execution => some (.started mode execution)
  | acquired | answered (.started _ _) | reported _ | ended => none

/-- The thread has taken the launch and has not recorded its outcome. -/
def LaunchPhase.inFlight : LaunchPhase → Bool
  | acquired | answered _ | invocationRecorded _ _ => true
  | reported _ | ended => false

def LaunchPhase.isAcquired : LaunchPhase → Bool
  | acquired => true
  | answered _ | invocationRecorded _ _ | reported _ | ended => false

/-- A thread; `reconciled` when an operator has decided since that its launch did not happen, which
    the thread does not see. -/
structure LaunchThread where
  phase : LaunchPhase
  reconciled : Bool

/-- The arguments of `reconcile_lost_launch`. -/
structure ReconcileCall where
  outcome : Text
  minQuietSeconds : ℤ
  operator : Text

/-- The arguments of `retire_unlaunched_run`. -/
structure RetireCall where
  minQuietSeconds : ℤ
  operator : Text

/-- One run with its events, the rows other tables hold of it, and its threads. -/
structure LaunchWorld where
  table : RunTable Jsonb
  updatedAt : ℤ
  launchedAt : Option ℤ
  launchError : Option Jsonb
  invocations : List (Text × Text)
  otherRows : ℕ
  threads : Dict Text LaunchThread
  now : ℤ

inductive LaunchEvent
  | acquire (thread : Text)
  | launch (thread : Text) (answer : LaunchAnswer)
  | recordInvocation (thread : Text)
  | report (thread : Text)
  | announce (thread : Text)
  | stop (thread : Text)
  | reconcile (call : ReconcileCall)
  | retire (call : RetireCall)
  | claim (workerId token : Text) (leaseSeconds : ℤ)
  | heartbeat (owner : Ownership) (leaseSeconds : Option ℤ)
  | transition (status : RunStatus) (expectedStatus : Option RunStatus) (owner : Ownership)
      (fields : RunFields Jsonb)
  | finalize (call : FinalizeCall Jsonb)
  | cancel (status : RunStatus) (reason : Option String)
  | otherRow
  | runEvent (event : RunEventRow Jsonb)
  | tick (now : ℤ)

def codeMember : Text := "code".toList

def document (members : List (String × Jsonb)) : Jsonb :=
  .obj (members.map fun member => (member.1.toList, member.2))

namespace LaunchWorld

variable (w : LaunchWorld)

def row : RunRecord Jsonb := w.table.row

/-! ## 2. The launch -/

/-- An update of the run; the trigger stamps it. -/
def withRow (row : RunRecord Jsonb) : LaunchWorld :=
  { w with table := { w.table with row := row }, updatedAt := w.now }

def withEvent (event : RunEventRow Jsonb) : LaunchWorld :=
  { w with table := { w.table with events := w.table.events ++ [event] } }

def withThread (id : Text) (thread : LaunchThread) : LaunchWorld :=
  { w with threads := w.threads.set id thread }

/-- `pending` or `launch_failed`. -/
def isUnlaunched (state : RunLaunch) : Bool :=
  decide (state = .pending) || decide (state = .launchFailed)

def tryAcquireLaunch : Option LaunchWorld :=
  if decide (w.row.status = .queued) && isUnlaunched w.row.launchState then
    some (w.withRow { w.row with launchState := .launching })
  else none

def setLaunchState (state : RunLaunch) (error : Option Jsonb) : LaunchWorld :=
  { w.withRow { w.row with launchState := state } with
    launchedAt := if state = .launched then some w.now else w.launchedAt
    launchError := error.or w.launchError }

/-- The error `_launch_created_run` records. -/
def launchErrorOf : LaunchAnswer → Option Jsonb
  | .started _ _ => none
  | .uncertain message | .failed message => some (document [("message", .str (message.take 500))])

/-- The event `_launch_created_run` appends after its record. -/
def launchEvent : LaunchAnswer → RunEventRow Jsonb
  | .started mode execution =>
    ⟨"run_created", some "Run queued and worker invocation requested",
      document [("launcher", .str mode), ("execution", .str execution)]⟩
  | .uncertain _ =>
    ⟨"launch_failed", some "Worker launch outcome unknown; run parked for reconciliation",
      document [("recoverable", .bool false), ("reconciliation_required", .bool true)]⟩
  | .failed _ =>
    ⟨"launch_failed", some "Worker launch failed; run remains queued and the request can be retried",
      document [("recoverable", .bool true)]⟩

/-! ## 3. Operators -/

/-- `v_floor`, in seconds. -/
def quietFloor : ℤ := 900

/-- No worker has claimed the run. -/
def unclaimed : Bool :=
  w.row.workerId.isNone && w.row.leaseToken.isNone && w.row.leaseExpiresAt.isNone &&
    w.row.startedAt.isNone && w.row.finishedAt.isNone

/-- More than the API wrote about the run; `known` are the types of the API's own events. -/
def traced (known : List String) : Bool :=
  !w.invocations.isEmpty || decide (0 < w.otherRows) ||
    w.table.events.any fun event => !known.contains event.eventType

/-- The run changed within the quiet period. -/
def changedWithin (minQuietSeconds : ℤ) : Bool :=
  decide (w.now - minQuietSeconds * 1000000 < w.updatedAt)

def operatorRefused (operator : Text) : Bool :=
  CreationState.isBlankText (some operator) || decide (200 < operator.length)

def launchLostEvent : RunEventRow Jsonb :=
  ⟨"launch_failed", some ("The worker launch was never confirmed and an operator verified that no "
    ++ "worker was started; the run remains queued and can be launched again"),
    document [("recoverable", .bool true), ("reconciled", .bool true),
      ("previous_launch_state", .str "launching".toList)]⟩

/-- `reconcile_lost_launch`; `none` when the run already is where the decision leads. -/
def reconcileLostLaunch (call : ReconcileCall) : Except String (Option LaunchWorld) := do
  refuseIf ((call.outcome ≠ "launched".toList ∧ call.outcome ≠ "not_launched".toList) ∨
    operatorRefused call.operator = true) "LOST_LAUNCH_INVALID"
  refuseIf (call.minQuietSeconds < quietFloor) "LOST_LAUNCH_THRESHOLD_TOO_SHORT"
  let target := if call.outcome = "launched".toList then RunLaunch.launched else .launchFailed
  if w.row.launchState = target then pure none
  else do
    refuseIf (w.row.status ≠ .queued ∨ w.row.launchState ≠ .launching) "LOST_LAUNCH_WRONG_STATE"
    refuseIf (w.unclaimed = false) "LOST_LAUNCH_CLAIMED"
    refuseIf (w.changedWithin call.minQuietSeconds = true) "LOST_LAUNCH_NOT_QUIET"
    refuseIf (call.outcome = "not_launched".toList ∧ w.traced ["launch_failed"] = true)
      "LOST_LAUNCH_TRACED"
    let written := w.withRow { w.row with launchState := target }
    if call.outcome = "not_launched".toList then
      pure (some
        { written.withEvent launchLostEvent with
          launchError := some (document
            [("code", .str "RUN_LAUNCH_LOST".toList),
              ("message", .str ("launch ownership was taken but its outcome was never recorded; "
                ++ "an operator verified that no worker was started").toList),
              ("reconciled_by", .str call.operator)]) })
    else pure (some written)

def retiredMessage : String := "No worker was ever started for this run; an operator retired it"

def retiredCode : Text := "RUN_NOT_LAUNCHED".toList

/-- `error->>'code'`. -/
def errorCode : Option Text := w.row.error.bind fun error => rendered (error.member? codeMember)

/-- The run with its cancellation requested, as the first statement of a retirement leaves it. -/
def requestedRow : RunRecord Jsonb :=
  if w.row.status = .queued then
    { w.row with
      status := .cancellationRequested
      cancellationRequestedAt := some w.now
      cancellationReason := some "retired by an operator: no worker was ever started" }
  else w.row

/-- The run as the second statement leaves it. -/
def retiredRow : RunRecord Jsonb :=
  { w.requestedRow with
    status := .cancelled
    error := some (document [("code", .str retiredCode), ("message", .str retiredMessage.toList)])
    finishedAt := some w.now }

/-- `retire_unlaunched_run`; `none` when the run is already retired. -/
def retireUnlaunchedRun (call : RetireCall) : Except String (Option LaunchWorld) := do
  refuseIf (operatorRefused call.operator = true) "UNLAUNCHED_RUN_INVALID"
  refuseIf (call.minQuietSeconds < quietFloor) "UNLAUNCHED_RUN_THRESHOLD_TOO_SHORT"
  if w.row.status = .cancelled ∧ w.errorCode = some retiredCode then pure none
  else do
    refuseIf ((w.row.status ≠ .queued ∧ w.row.status ≠ .cancellationRequested) ∨
      isUnlaunched w.row.launchState = false) "UNLAUNCHED_RUN_WRONG_STATE"
    refuseIf (w.unclaimed = false) "UNLAUNCHED_RUN_CLAIMED"
    refuseIf (w.traced ["launch_failed", "cancellation_requested"] = true) "UNLAUNCHED_RUN_TRACED"
    refuseIf (w.changedWithin call.minQuietSeconds = true) "UNLAUNCHED_RUN_NOT_QUIET"
    pure (some ((w.withRow w.retiredRow).withEvent
      ⟨"run_cancelled", some retiredMessage, document [("code", .str retiredCode)]⟩))

/-! ## 4. Events -/

/-- Every launch under way has been decided not to have happened. -/
def withReconciled : LaunchWorld :=
  { w with threads := w.threads.mapValues fun _ thread =>
      if thread.phase.inFlight then { thread with reconciled := true } else thread }

/-- What a guarded write leaves behind. -/
def afterWrite (result : Except AppError (RunTable Jsonb)) : LaunchWorld :=
  match result with
  | .ok table => { w with table := table, updatedAt := w.now }
  | .error _ => w

/-- The next call of a thread, if the event is that call. -/
def advance (id : Text) (thread : LaunchThread) : LaunchEvent → LaunchWorld
  | .launch _ answer =>
    match thread.phase with
    | .acquired => w.withThread id { thread with phase := .answered answer }
    | _ => w
  | .recordInvocation _ =>
    match thread.phase with
    | .answered (.started mode execution) =>
      { w.withThread id { thread with phase := .invocationRecorded mode execution } with
        invocations := w.invocations ++ [(mode, execution)] }
    | _ => w
  | .report _ =>
    match thread.phase.toReport? with
    | some answer =>
      (w.setLaunchState answer.state (launchErrorOf answer)).withThread id
        { thread with phase := .reported answer }
    | none => w
  | .announce _ =>
    match thread.phase with
    | .reported answer => (w.withEvent (launchEvent answer)).withThread id { thread with phase := .ended }
    | _ => w
  | .stop _ => w.withThread id { thread with phase := .ended }
  | _ => w

/-- The thread of an event, once it has taken the launch. -/
def threadOf? : LaunchEvent → Option Text
  | .launch id _ | .recordInvocation id | .report id | .announce id | .stop id => some id
  | _ => none

def perform (merge : Jsonb → Jsonb → Jsonb) (e : LaunchEvent) : LaunchWorld :=
  match e with
  | .acquire id =>
    match w.threads.get? id, w.tryAcquireLaunch with
    | none, some taken => taken.withThread id ⟨.acquired, false⟩
    | _, _ => w
  | .reconcile call =>
    match w.reconcileLostLaunch call with
    | .ok (some written) =>
      if call.outcome = "not_launched".toList then written.withReconciled else written
    | .ok none | .error _ => w
  | .retire call =>
    match w.retireUnlaunchedRun call with
    | .ok (some written) => written
    | .ok none | .error _ => w
  | .claim workerId token leaseSeconds =>
    match w.table.claimRunLease w.now workerId token leaseSeconds with
    | some table => { w with table := table, updatedAt := w.now }
    | none => w
  | .heartbeat owner leaseSeconds =>
    w.afterWrite (w.table.heartbeatRunGuarded w.now owner leaseSeconds)
  | .transition status expected owner fields =>
    w.afterWrite (w.table.transitionRunWorkerGuarded w.now merge status expected owner fields)
  | .finalize call => w.afterWrite (w.table.finalizeRun w.now merge call)
  | .cancel status reason =>
    if RunStatus.cancellationRequested ∈ status.validTransitions then
      w.afterWrite (w.table.cancellationWrite status reason w.now)
    else w
  | .otherRow => { w with otherRows := w.otherRows + 1 }
  | .runEvent event => w.withEvent event
  | .tick now => { w with now := now }
  | e =>
    match (threadOf? e).bind fun id => (w.threads.get? id).map fun thread => (id, thread) with
    | none => w
    | some (id, thread) => w.advance id thread e

/-- An event of a thread advances that thread, if it is there. -/
theorem perform_of_threadOf (merge : Jsonb → Jsonb → Jsonb) {e : LaunchEvent} {id : Text}
    (he : threadOf? e = some id) :
    w.perform merge e = ((w.threads.get? id).map fun thread => w.advance id thread e).getD w := by
  cases e <;> cases he <;> unfold perform <;> dsimp only [threadOf?, Option.bind_some] <;>
    cases w.threads.get? id <;> rfl

/-- The clock never goes back. -/
def Allowed : LaunchEvent → Prop
  | .tick now => w.now ≤ now
  | _ => True

instance : (e : LaunchEvent) → Decidable (w.Allowed e)
  | .tick _ => inferInstanceAs (Decidable (_ ≤ _))
  | .acquire _ | .launch _ _ | .recordInvocation _ | .report _ | .announce _ | .stop _
  | .reconcile _ | .retire _ | .claim _ _ _ | .heartbeat _ _ | .transition _ _ _ _ | .finalize _
  | .cancel _ _ | .otherRow | .runEvent _ => inferInstanceAs (Decidable True)

abbrev LaunchStep (merge : Jsonb → Jsonb → Jsonb) : LaunchWorld → LaunchEvent → LaunchWorld → Prop :=
  Performs Allowed fun w => w.perform merge

end LaunchWorld

end Milo.Creation
