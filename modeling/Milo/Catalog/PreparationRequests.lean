import Milo.Catalog.RegisterCaptures
import Milo.Creation.Launch

/-!
# PreparationRequests — preparing a plan revision from the website

A revision has one request row.  A member's thread claims an attempt of it, makes an operator capture
run, binds it, executes the capture job and records what the trigger answered.  Whether an attempt is
still alive is read from that record, its instants and the bound run.  Instants are microseconds.
-/

namespace Milo.Catalog

open Milo.Reasoning Milo.Finalization Milo.Creation Milo.Python

/-! ## 1. The rows -/

/-- A row of `catalog_work_scope_preparation_requests`. -/
structure PreparationRequest where
  scopeDigest : Text
  attempt : ℕ := 1
  requestedBy : Text
  runId : Option Text := none
  triggerState : TriggerState := .claimed
  executionName : Option Text := none
  claimedAt : ℤ
  triggeredAt : Option ℤ := none
  deriving DecidableEq

/-- The plan, as far as a preparation reads it. -/
structure PlanHead where
  headRevision : ℤ
  headDigest : Text
  closed : Bool
  conversationId : Text
  deriving DecidableEq

/-- A run row with its conversation and the workflow of its identity. -/
structure ScopedRun where
  table : RunTable Jsonb
  conversationId : Text
  workflowKey : Text

namespace ScopedRun

variable (run : ScopedRun)

/-- `queued`, and no worker has claimed it. -/
def waiting : Bool := decide (run.table.row.status = .queued) && run.table.row.workerId.isNone

/-- Still the operator's, queued and never claimed. -/
def keepable : Bool := run.waiting && decide (run.table.row.launchState = .none)

/-- A worker has claimed it, and it has not ended. -/
def live : Bool := run.table.row.workerId.isSome && !run.table.row.status.isTerminal

def withLaunch (state : RunLaunch) : ScopedRun :=
  { run with table := { run.table with row := { run.table.row with launchState := state } } }

end ScopedRun

/-! ## 2. Threads -/

/-- What a trigger answers: the state to record, and the execution it names. -/
structure TriggerOutcome where
  state : TriggerState
  executionName : Option Text

/-- Where a thread of `_request_preparation` is. -/
inductive PreparationPhase
  | reading
  | releasing
  | requesting
  | creating (attempt : ℕ)
  | acquiring (attempt : ℕ) (runId : Text)
  | resting (attempt : ℕ) (runId : Text)
  | binding (attempt : ℕ) (runId : Text)
  | triggering (attempt : ℕ) (runId : Text)
  | failing (attempt : ℕ) (runId : Option Text)
  | recording (attempt : ℕ) (runId : Text) (outcome : TriggerOutcome)
  | ended

/-- The attempt a thread was answered. -/
def PreparationPhase.attempt? : PreparationPhase → Option ℕ
  | creating attempt | acquiring attempt _ | resting attempt _ | binding attempt _
  | triggering attempt _ | failing attempt _ | recording attempt _ _ => some attempt
  | reading | releasing | requesting | ended => none

structure PreparationThread where
  requestedBy : Text
  digest : Text
  phase : PreparationPhase

/-- How a call of `prepare_capture_run` ends: answered, done with its answer lost, or not done. -/
inductive CallFate
  | answered
  | lost
  | refused
  deriving DecidableEq, Repr

/-- A write of the capture job, or of a member, on a run. -/
inductive RunWrite
  | claim (workerId token : Text) (leaseSeconds : ℤ)
  | heartbeat (owner : Ownership) (leaseSeconds : Option ℤ)
  | finalize (call : FinalizeCall Jsonb)
  | cancel (status : RunStatus) (reason : Option String)

/-- What a write leaves of a run; a refused one leaves it as it is. -/
def RunWrite.perform (merge : Jsonb → Jsonb → Jsonb) (now : ℤ) (table : RunTable Jsonb) :
    RunWrite → RunTable Jsonb
  | .claim workerId token leaseSeconds =>
    (table.claimRunLease now workerId token leaseSeconds).getD table
  | .heartbeat owner leaseSeconds => (table.heartbeatRunGuarded now owner leaseSeconds).toOption.getD table
  | .finalize call => (table.finalizeRun now merge call).toOption.getD table
  | .cancel status reason =>
    if RunStatus.cancellationRequested ∈ status.validTransitions then
      (table.cancellationWrite status reason now).toOption.getD table
    else table

/-- One plan revision with its request, the runs, the threads, and the runs whose execution the capture
    job may start. -/
structure PreparationWorld where
  revision : ℤ
  plan : PlanHead
  preparation : Option Text
  request : Option PreparationRequest
  runs : Dict Text ScopedRun
  threads : Dict Text PreparationThread
  executions : List Text
  now : ℤ

inductive PreparationEvent
  | enter (thread requestedBy digest : Text)
  | read (thread : Text)
  | release (thread : Text) (refused : Bool)
  | request (thread : Text)
  | create (thread runId : Text) (identity usage : Jsonb) (fate : CallFate)
  | acquire (thread : Text) (fate : CallFate)
  | rest (thread : Text) (fate : CallFate)
  | bind (thread : Text)
  | refuseInvocation (thread : Text)
  | trigger (thread : Text) (outcome : TriggerOutcome)
  | record (thread : Text)
  | stop (thread : Text)
  | run (runId : Text) (write : RunWrite)
  | plan (plan : PlanHead)
  | prepare (digest : Text)
  | tick (now : ℤ)

/-! ## 3. The claim -/

def preparationInvalid : String := "WORK_SCOPE_PREPARATION_REQUEST_INVALID"
def preparationStale : String := "WORK_SCOPE_PREPARATION_REQUEST_STALE"

/-- `START_GRACE_SECONDS`. -/
def startGraceSeconds : ℤ := 900

inductive PreparationDecision
  | stale
  | prepared
  | existing
  | claimed
  deriving DecidableEq, Repr

namespace PreparationRequest

variable (request : PreparationRequest)

/-- The trigger definitely failed, or the claimer never recorded one within the grace. -/
def overdue (now graceSeconds : ℤ) : Bool :=
  match request.triggerState with
  | .triggerFailed => true
  | .claimed => decide (request.claimedAt < now - graceOf graceSeconds)
  | .triggered | .triggerUnknown => false

/-- `v_retry`. -/
def retries (run : Option ScopedRun) (now graceSeconds : ℤ) : Bool :=
  match request.triggerState with
  | .triggerFailed => true
  | .claimed => decide (request.claimedAt < now - graceOf graceSeconds)
  | .triggered | .triggerUnknown =>
    match run with
    | none => false
    | some run =>
      run.table.row.status.isTerminal || run.waiting &&
        decide (request.triggeredAt.getD request.claimedAt < now - graceOf graceSeconds)

/-- The next attempt; the run is kept only where re-triggering it is safe. -/
def retried (requestedBy : Text) (run : Option ScopedRun) (now : ℤ) : PreparationRequest :=
  { request with
    attempt := request.attempt + 1
    requestedBy := requestedBy
    runId := if run.any ScopedRun.keepable then request.runId else none
    triggerState := .claimed
    executionName := none
    claimedAt := now
    triggeredAt := none }

end PreparationRequest

namespace PreparationWorld

variable (w : PreparationWorld)

/-- The run the request is bound to. -/
def boundRun : Option Text := w.request.bind PreparationRequest.runId

/-- The row of that run. -/
def boundRow : Option ScopedRun := w.boundRun.bind w.runs.get?

/-- The plan is open, and its head is this revision with this digest. -/
def isHead (digest : Text) : Bool :=
  !w.plan.closed && decide (w.plan.headRevision = w.revision) && decide (w.plan.headDigest = digest)

/-- `request_work_scope_preparation`; the attempt's column is checked to be at most 1000. -/
def requestWorkScopePreparation (digest requestedBy : Text) (graceSeconds : ℤ) :
    Except String (PreparationDecision × PreparationWorld) := do
  refuseIf (w.revision < 1 ∨ isSha256 digest = false ∨ graceSeconds < 300 ∨ 86400 < graceSeconds)
    preparationInvalid
  if w.isHead digest = false then pure (.stale, w)
  else if w.preparation.isSome then pure (.prepared, w)
  else
    match w.request with
    | none =>
      pure (.claimed,
        { w with request := some { scopeDigest := digest, requestedBy := requestedBy, claimedAt := w.now } })
    | some request =>
      if request.retries w.boundRow w.now graceSeconds then do
        refuseIf (1000 < request.attempt + 1) "catalog_work_scope_preparation_requests_attempt"
        pure (.claimed, { w with request := some (request.retried requestedBy w.boundRow w.now) })
      else pure (.existing, w)

/-- `execution_name ~ '^[A-Za-z0-9][A-Za-z0-9/._-]*$'`, of 1 to 300 characters. -/
def isExecutionName (name : Text) : Bool :=
  let plain : Char → Bool := fun c => decide (c.toNat < 128) && c.isAlphanum
  decide (name.length ≤ 300) && name.head?.any plain &&
    name.all fun c => plain c || ['/', '.', '_', '-'].contains c

def operatorCaptureKey : Text := "operator_capture".toList

/-- `record_work_scope_preparation_trigger`: the compare-and-set of one attempt. -/
def recordWorkScopePreparationTrigger (attempt : ℕ) (runId : Option Text) (state : TriggerState)
    (executionName : Option Text) : Except String PreparationWorld := do
  refuseIf ((state ≠ .triggerFailed ∧ runId = none) ∨
    executionName.any (fun name => !isExecutionName name) = true) preparationInvalid
  let request ← required w.request preparationStale
  refuseIf (request.attempt ≠ attempt ∨ request.triggerState ≠ .claimed) preparationStale
  match runId with
  | none => pure ()
  | some id => do
    let run ← required (w.runs.get? id) preparationInvalid
    refuseIf (run.conversationId ≠ w.plan.conversationId ∨ run.workflowKey ≠ operatorCaptureKey ∨
      (request.runId.isSome = true ∧ request.runId ≠ some id)) preparationInvalid
  let recorded : PreparationRequest :=
    { request with
      runId := runId.or request.runId
      triggerState := state
      executionName := if state = .claimed then request.executionName else executionName
      triggeredAt :=
        if state = .triggered ∨ state = .triggerUnknown then some w.now else request.triggeredAt }
  pure { w with request := some recorded }

/-! ## 4. The status -/

inductive PreparationState
  | notRequested
  | preparing
  | prepared
  | failed (reasonCode : Text) (retryable : Bool)
  | stale
  deriving DecidableEq

/-- Whole seconds since an instant, and at least none. -/
def secondsSince (instant : ℤ) : ℤ := max 0 ((w.now - instant) / 1000000)

/-- `error->>'code'`. -/
def runErrorCode (row : RunRecord Jsonb) : Option Text :=
  row.error.bind fun error => rendered (error.member? codeMember)

/-- `derive_status` of what `work_scope_preparation_state` reads; `captureReason` is
    `_capture_reason`. -/
def deriveStatus (captureReason : Option Text → Option Text) (digest : Text) : PreparationState :=
  if w.isHead digest = false then .stale
  else if w.preparation = some digest then .prepared
  else
    match w.request.filter fun request => decide (request.scopeDigest = digest) with
    | none => .notRequested
    | some request =>
      match request.triggerState with
      | .triggerFailed => .failed "PREPARATION_TRIGGER_FAILED".toList true
      | .claimed =>
        if startGraceSeconds < w.secondsSince request.claimedAt then
          .failed "PREPARATION_NOT_STARTED".toList true
        else .preparing
      | .triggered | .triggerUnknown =>
        match request.runId.bind w.runs.get? with
        | none => .preparing
        | some run =>
          let row := run.table.row
          if row.status.isTerminal then
            if row.status = .cancelled then .failed "PREPARATION_CANCELLED".toList true
            else if row.status.isFinished then .failed "PREPARATION_INCOMPLETE".toList true
            else .failed ((captureReason (runErrorCode row)).getD "PREPARATION_FAILED".toList) true
          else if row.workerId.isNone then
            if row.status = .queued ∧
                startGraceSeconds < w.secondsSince (request.triggeredAt.getD request.claimedAt) then
              .failed "PREPARATION_NOT_STARTED".toList true
            else .preparing
          else if row.leaseExpiresAt.any fun expires =>
              decide (expires ≤ w.now) && decide (startGraceSeconds < (w.now - expires) / 1000000) then
            .failed "PREPARATION_INTERRUPTED".toList false
          else .preparing

/-- The states in which a thread is answered before it claims anything. -/
def PreparationState.answersAtOnce : PreparationState → Bool
  | .prepared | .preparing => true
  | .failed _ retryable => !retryable
  | .notRequested | .stale => false

/-! ## 5. The run of an attempt -/

def withRun (runId : Text) (run : ScopedRun) : PreparationWorld :=
  { w with runs := w.runs.set runId run }

/-- The row `create_message_and_run` inserts for `--prepare`. -/
def newCaptureRun (identity usage : Jsonb) : ScopedRun where
  table :=
    { row := { status := .queued, launchState := .pending, runIdentity := some identity, usage := usage } }
  conversationId := w.plan.conversationId
  workflowKey := operatorCaptureKey

/-- `try_acquire_launch`. -/
def tryAcquireLaunch (runId : Text) : Option PreparationWorld :=
  match w.runs.get? runId with
  | none => none
  | some run =>
    let row := run.table.row
    if decide (row.status = .queued) && LaunchWorld.isUnlaunched row.launchState then
      some (w.withRun runId (run.withLaunch .launching))
    else none

/-- `set_launch_state(OPERATOR_OWNED_LAUNCH_STATE)`. -/
def setLaunchNone (runId : Text) : PreparationWorld :=
  match w.runs.get? runId with
  | none => w
  | some run => w.withRun runId (run.withLaunch .none)

/-! ## 6. Events -/

def withThread (id : Text) (thread : PreparationThread) (phase : PreparationPhase) : PreparationWorld :=
  { w with threads := w.threads.set id { thread with phase := phase } }

/-- The next call of a thread, if the event is that call. -/
def advance (captureReason : Option Text → Option Text) (id : Text) (thread : PreparationThread) :
    PreparationEvent → PreparationPhase → PreparationWorld
  | .read _, .reading =>
    w.withThread id thread
      (if (w.deriveStatus captureReason thread.digest).answersAtOnce then .ended else .releasing)
  | .release _ refused, .releasing => w.withThread id thread (if refused then .ended else .requesting)
  | .request _, .requesting =>
    match w.requestWorkScopePreparation thread.digest thread.requestedBy startGraceSeconds with
    | .ok (.claimed, w') =>
      match w'.request with
      | none => w.withThread id thread .ended
      | some request => w'.withThread id thread
          (match request.runId with
          | none => .creating request.attempt
          | some runId => .triggering request.attempt runId)
    | .ok _ | .error _ => w.withThread id thread .ended
  | .create _ runId identity usage fate, .creating attempt =>
    if (w.runs.get? runId).isSome then w
    else
      let created := w.withRun runId (w.newCaptureRun identity usage)
      match fate with
      | .answered => created.withThread id thread (.acquiring attempt runId)
      | .lost => created.withThread id thread (.failing attempt none)
      | .refused => w.withThread id thread (.failing attempt none)
  | .acquire _ fate, .acquiring attempt runId =>
    match fate, w.tryAcquireLaunch runId with
    | .answered, some taken => taken.withThread id thread (.resting attempt runId)
    | .lost, some taken => taken.withThread id thread (.failing attempt none)
    | _, _ => w.withThread id thread (.failing attempt none)
  | .rest _ fate, .resting attempt runId =>
    match fate with
    | .answered => (w.setLaunchNone runId).withThread id thread (.binding attempt runId)
    | .lost => (w.setLaunchNone runId).withThread id thread (.failing attempt none)
    | .refused => w.withThread id thread (.failing attempt none)
  | .bind _, .binding attempt runId =>
    match w.recordWorkScopePreparationTrigger attempt (some runId) .claimed none with
    | .ok w' => w'.withThread id thread (.triggering attempt runId)
    | .error _ => w.withThread id thread .ended
  | .refuseInvocation _, .triggering attempt runId =>
    w.withThread id thread (.failing attempt (some runId))
  | .trigger _ outcome, .triggering attempt runId =>
    let asked := if outcome.state = .triggerFailed then w
      else { w with executions := w.executions ++ [runId] }
    asked.withThread id thread (.recording attempt runId
      (if outcome.state = .claimed then ⟨.triggerUnknown, none⟩ else outcome))
  | .record _, .recording attempt runId outcome =>
    match w.recordWorkScopePreparationTrigger attempt (some runId) outcome.state outcome.executionName with
    | .ok w' => w'.withThread id thread .ended
    | .error _ => w.withThread id thread .ended
  | .record _, .failing attempt runId =>
    match w.recordWorkScopePreparationTrigger attempt runId .triggerFailed none with
    | .ok w' => w'.withThread id thread .ended
    | .error _ => w.withThread id thread .ended
  | .stop _, _ => w.withThread id thread .ended
  | _, _ => w

/-- The thread whose call an event is. -/
def threadOf? : PreparationEvent → Option Text
  | .read id | .release id _ | .request id | .create id _ _ _ _ | .acquire id _ | .rest id _ | .bind id
  | .refuseInvocation id | .trigger id _ | .record id | .stop id => some id
  | .enter _ _ _ | .run _ _ | .plan _ | .prepare _ | .tick _ => none

/-- What the surroundings fix: how usages merge, and the capture's own reason codes. -/
structure PreparationRules where
  merge : Jsonb → Jsonb → Jsonb
  captureReason : Option Text → Option Text

def perform (rules : PreparationRules) (e : PreparationEvent) : PreparationWorld :=
  match e with
  | .enter id requestedBy digest =>
    if (w.threads.get? id).isSome ∨ w.plan.headRevision ≠ w.revision ∨ w.plan.headDigest ≠ digest then w
    else { w with threads := w.threads.set id ⟨requestedBy, digest, .reading⟩ }
  | .run runId write =>
    match w.runs.get? runId with
    | none => w
    | some run =>
      w.withRun runId { run with table := write.perform rules.merge w.now run.table }
  | .plan plan => { w with plan := { plan with conversationId := w.plan.conversationId } }
  | .prepare digest => { w with preparation := some digest }
  | .tick now => { w with now := now }
  | e =>
    match (threadOf? e).bind fun id => (w.threads.get? id).map fun thread => (id, thread) with
    | none => w
    | some (id, thread) => w.advance rules.captureReason id thread e thread.phase

/-- An event of a thread advances that thread, if it is there. -/
theorem perform_of_threadOf {rules : PreparationRules} {e : PreparationEvent} {id : Text}
    (he : threadOf? e = some id) :
    w.perform rules e = ((w.threads.get? id).map fun thread =>
      w.advance rules.captureReason id thread e thread.phase).getD w := by
  cases e <;> cases he <;> unfold perform <;> dsimp only [threadOf?, Option.bind_some] <;>
    cases w.threads.get? id <;> rfl

/-- The clock never goes back, and a run is claimed by an execution a trigger may have started. -/
def Allowed : PreparationEvent → Prop
  | .tick now => w.now ≤ now
  | .run runId (.claim _ _ _) => runId ∈ w.executions
  | _ => True

instance : (e : PreparationEvent) → Decidable (w.Allowed e)
  | .tick _ => inferInstanceAs (Decidable (_ ≤ _))
  | .run runId (.claim _ _ _) => inferInstanceAs (Decidable (runId ∈ w.executions))
  | .run _ (.heartbeat _ _) | .run _ (.finalize _) | .run _ (.cancel _ _) | .enter _ _ _ | .read _
  | .release _ _ | .request _ | .create _ _ _ _ _ | .acquire _ _ | .rest _ _ | .bind _
  | .refuseInvocation _ | .trigger _ _ | .record _ | .stop _ | .plan _ | .prepare _ =>
    inferInstanceAs (Decidable True)

abbrev PreparationStep (rules : PreparationRules) :
    PreparationWorld → PreparationEvent → PreparationWorld → Prop :=
  Performs Allowed fun w => w.perform rules

end PreparationWorld

end Milo.Catalog
