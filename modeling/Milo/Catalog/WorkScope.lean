import Milo.Catalog.Runs
import Milo.Python.Text
import Milo.Reasoning.Action
import Milo.Reasoning.Dict

/-!
# WorkScope — starting the batches of a Mapping Plan

A prepared plan has numbered batches.  A run executes a batch through a binding; a batch whose run
ended with a result is settled.  Two entry points add bindings, `bind_work_scope_batch_run` for a run
that exists and `create_work_scope_batch_run` for one it creates, and both obey the continuation
rules: the plan is not paused, no batch of it is live, and the batch is the next unsettled one.
-/

namespace Milo.Catalog

-- Of the orders Mathlib gives the integers, the one that computes.
attribute [local instance (2000)] LinearOrder.toPartialOrder

open Milo.Reasoning Milo.Python

/-! ## 1. Rows -/

structure WorkScope where
  conversationId : Text
  projectId : Text
  headRevision : ℕ
  headDigest : Text
  closed : Bool
  deriving DecidableEq

structure ScopeBatch where
  preparationId : Text
  workScopeId : Text
  revision : ℕ
  scopeDigest : Text
  batchNumber : ℕ
  deriving DecidableEq

/-- One attempt of a batch. -/
structure BatchRun where
  batchId : Text
  workScopeId : Text
  runId : Text
  attempt : ℕ
  boundBy : Text
  boundAt : ℤ
  deriving DecidableEq

inductive ControlAction
  | pause
  | resume
  deriving DecidableEq, Repr

structure ScopeControl where
  workScopeId : Text
  sequence : ℕ
  action : ControlAction
  requestedBy : Text
  deriving DecidableEq

inductive LaunchState
  | none
  | pending
  | launching
  | launched
  | launchFailed
  deriving DecidableEq, Repr

/-- A run row, as far as a batch start reads it. -/
structure ScopeRun where
  conversationId : Text
  status : RunStatus
  launchState : LaunchState
  requestedBy : Option Text
  idempotencyKey : Option Text
  requestFingerprint : Text
  identityWorkflow : Option Text
  deriving DecidableEq

/-- The tables of the plans; `preparations` holds the (plan, revision) each was made for. -/
structure ScopeStore where
  projects : Dict Text Text
  members : List (Text × Text)
  conversations : Dict Text Text
  workScopes : Dict Text WorkScope
  preparations : Dict Text (Text × ℕ)
  batches : Dict Text ScopeBatch
  batchRuns : List BatchRun
  controls : List ScopeControl
  runs : Dict Text ScopeRun

/-! ## 2. Errors -/

def notFound (resource : String) (identifier : Text) : AppError :=
  ⟨resource.toUpper ++ "_NOT_FOUND", resource ++ " not found: " ++ String.ofList identifier, 404⟩

def runInvalid : AppError :=
  ⟨"WORK_SCOPE_BATCH_RUN_INVALID", "this run cannot execute this batch", 422⟩

def workflowUnsupported : AppError :=
  ⟨"WORK_SCOPE_WORKFLOW_UNSUPPORTED", "this project's engine does not read a mapping plan", 409⟩

def notEditable : AppError :=
  ⟨"WORK_SCOPE_NOT_EDITABLE", "the mapping plan is not editable", 409⟩

def stale : AppError :=
  ⟨"WORK_SCOPE_STALE", "the plan changed since it was read; reload it and try again", 409⟩

def runTaken : AppError :=
  ⟨"WORK_SCOPE_BATCH_RUN_TAKEN", "this run is already bound to another batch", 409⟩

def paused : AppError :=
  ⟨"WORK_SCOPE_PAUSED", "the mapping plan is paused; resume it before starting a batch", 409⟩

def inProgress : AppError :=
  ⟨"WORK_SCOPE_BATCH_IN_PROGRESS", "another batch of this plan is still running", 409⟩

def alreadyCompleted : AppError :=
  ⟨"WORK_SCOPE_BATCH_ALREADY_COMPLETED", "this batch already completed", 409⟩

def notNext : AppError :=
  ⟨"WORK_SCOPE_BATCH_NOT_NEXT", "only the next batch of the plan can start", 409⟩

def idempotencyRequired : AppError :=
  ⟨"WORK_SCOPE_BATCH_IDEMPOTENCY_REQUIRED", "starting a batch requires an idempotency key", 422⟩

def idempotencyConflict : AppError :=
  ⟨"IDEMPOTENCY_CONFLICT", "idempotency key was already used with a different payload", 409⟩

/-- The engine that reads a mapping plan. -/
def swarmV2 : Text := "swarm_v2".toList

def operatorCapture : Text := "operator_capture".toList

/-! ## 3. The continuation rules -/

namespace ScopeStore

variable (store : ScopeStore)

def workScopePaused (workScopeId : Text) : Bool :=
  match (store.controls.filter fun row => row.workScopeId = workScopeId).argmax
    ScopeControl.sequence with
  | none => false
  | some latest => decide (latest.action = .pause)

def batchRunStatus (binding : BatchRun) : Option RunStatus :=
  (store.runs.get? binding.runId).map ScopeRun.status

/-- The run of the binding has not ended. -/
def isLive (binding : BatchRun) : Bool :=
  match store.batchRunStatus binding with
  | none => true
  | some status => !status.isTerminal

/-- The run of the binding ended with a result. -/
def isSettled (binding : BatchRun) : Bool :=
  match store.batchRunStatus binding with
  | none => false
  | some status => status.isFinished

def liveBatchBinding (workScopeId : Text) : Option BatchRun :=
  (store.batchRuns.filter fun row => decide (row.workScopeId = workScopeId) && store.isLive row).argmax
    BatchRun.boundAt

def batchSettled (batchId : Text) : Bool :=
  store.batchRuns.any fun row => decide (row.batchId = batchId) && store.isSettled row

/-- The unsettled batch of the least number. -/
def nextBatch (preparationId : Text) : Option (Text × ScopeBatch) :=
  (store.batches.entries.filter fun row =>
    decide (row.2.preparationId = preparationId) && !store.batchSettled row.1).argmin
      fun row => row.2.batchNumber

/-- `_check_batch_continuation`. -/
def checkBatchContinuation (workScopeId batchId : Text) (batch : ScopeBatch) :
    Except AppError Unit := do
  refuseIf (store.workScopePaused workScopeId = true) paused
  refuseIf (store.liveBatchBinding workScopeId ≠ none) inProgress
  refuseIf (store.batchSettled batchId = true) alreadyCompleted
  refuseIf ((store.nextBatch batch.preparationId).map Prod.fst ≠ some batchId) notNext

/-- `1 + max(attempts, default=0)`. -/
def nextAttempt (batchId : Text) : ℕ :=
  1 + ((store.batchRuns.filter fun row => row.batchId = batchId).map BatchRun.attempt).foldr max 0

/-- `_bind_batch`. -/
def bindBatch (workScopeId batchId runId boundBy : Text) (now : ℤ) : ScopeStore × BatchRun :=
  let binding : BatchRun :=
    { batchId := batchId
      workScopeId := workScopeId
      runId := runId
      attempt := store.nextAttempt batchId
      boundBy := boundBy
      boundAt := now }
  ({ store with batchRuns := store.batchRuns ++ [binding] }, binding)

def isMember (projectId userId : Text) : Bool := store.members.contains (projectId, userId)

def workflowOf (projectId : Text) : Option Text := store.projects.get? projectId

/-! ## 4. The entry points -/

/-- Bind a run that exists; the flag tells a replayed binding from a new one. -/
def bindWorkScopeBatchRun (batchId runId : Text) (expectedRevision : ℕ)
    (expectedDigest boundBy : Text) (now : ℤ) : Except AppError (ScopeStore × BatchRun × Bool) := do
  let batch ← required (store.batches.get? batchId) (notFound "work_scope_batch" batchId)
  let plan ← required (store.workScopes.get? batch.workScopeId) (notFound "work_scope_batch" batchId)
  refuseIf (store.isMember plan.projectId boundBy = false) (notFound "work_scope_batch" batchId)
  refuseIf (store.workflowOf plan.projectId ≠ some swarmV2) workflowUnsupported
  refuseIf (plan.closed = true) notEditable
  refuseIf (plan.headRevision ≠ batch.revision ∨ plan.headDigest ≠ batch.scopeDigest ∨
    expectedRevision ≠ batch.revision ∨ expectedDigest ≠ batch.scopeDigest) stale
  let run ← required (store.runs.get? runId) runInvalid
  refuseIf (run.conversationId ≠ plan.conversationId ∨ run.identityWorkflow ≠ some swarmV2) runInvalid
  match store.batchRuns.find? fun row => row.runId = runId with
  | some existing =>
    refuseIf (existing.batchId ≠ batchId) runTaken
    .ok (store, existing, true)
  | none =>
    refuseIf (run.status.isTerminal = true) runInvalid
    store.checkBatchContinuation batch.workScopeId batchId batch
    let bound := store.bindBatch batch.workScopeId batchId runId boundBy now
    .ok (bound.1, bound.2, false)

def setWorkScopePaused (workScopeId : Text) (pause : Bool) (requestedBy : Text) :
    Except AppError (ScopeStore × Bool) := do
  let plan ← required (store.workScopes.get? workScopeId) (notFound "work_scope" workScopeId)
  refuseIf (store.isMember plan.projectId requestedBy = false) (notFound "work_scope" workScopeId)
  refuseIf (store.workflowOf plan.projectId ≠ some swarmV2) workflowUnsupported
  refuseIf (plan.closed = true) notEditable
  if store.workScopePaused workScopeId = pause then .ok (store, false)
  else
    let last := (store.controls.filter fun row => row.workScopeId = workScopeId).argmax
      ScopeControl.sequence
    let row : ScopeControl :=
      { workScopeId := workScopeId
        sequence := (last.map ScopeControl.sequence).getD 0 + 1
        action := if pause then .pause else .resume
        requestedBy := requestedBy }
    .ok ({ store with controls := store.controls ++ [row] }, true)

def findRunByIdempotency (conversationId userId idempotencyKey : Text) : Option (Text × ScopeRun) :=
  store.runs.entries.find? fun e =>
    decide (e.2.conversationId = conversationId) && decide (e.2.requestedBy = some userId) &&
      decide (e.2.idempotencyKey = some idempotencyKey)

def isActive (run : ScopeRun) : Bool := !run.status.isTerminal

def countActiveRunsForUser (userId : Text) : ℕ :=
  (store.runs.values.filter fun run => decide (run.requestedBy = some userId) && isActive run).length

def countActiveRunsForProject (projectId : Text) : ℕ :=
  (store.runs.values.filter fun run =>
    decide (store.conversations.get? run.conversationId = some projectId) && isActive run).length

/-- What a request to create a run carries. -/
structure RunRequest where
  runId : Text
  identityRunId : Option Text
  identityWorkflow : Option Text
  requestedBy : Text
  idempotencyKey : Option Text
  requestFingerprint : Text
  captureMarker : Bool := false
  maxUserActive : Option ℕ := none
  maxProjectActive : Option ℕ := none

/-- The run a request would replay: a key that is not empty has been used. -/
def replayed (conversationId : Text) (request : RunRequest) : Option (Text × ScopeRun) :=
  request.idempotencyKey.bind fun key =>
    if key = [] then none else store.findRunByIdempotency conversationId request.requestedBy key

/-- The one run creator: the replay lookup, admission, the run and its identity. -/
def createMessageAndRun (conversationId : Text) (request : RunRequest) :
    Except AppError (ScopeStore × Text × Bool) := do
  refuseIf (request.requestFingerprint = [])
    ⟨"IDEMPOTENCY_FINGERPRINT_REQUIRED", "run creation requires a request fingerprint", 409⟩
  match store.replayed conversationId request with
  | some existing =>
    refuseIf (existing.2.requestFingerprint ≠ request.requestFingerprint) idempotencyConflict
    .ok (store, existing.1, false)
  | none =>
    refuseIf (∃ bound ∈ request.maxUserActive,
        bound ≤ store.countActiveRunsForUser request.requestedBy)
      ⟨"USER_CONCURRENCY_LIMIT", "too many active runs for this user", 429⟩
    let projectId ← required (store.conversations.get? conversationId)
      (notFound "conversation" conversationId)
    refuseIf (request.identityRunId ≠ some request.runId)
      ⟨"RUN_IDENTITY_INVALID", "identity names a different run", 409⟩
    refuseIf (request.identityWorkflow = some operatorCapture ∧ request.captureMarker = false)
      ⟨"RUN_IDENTITY_INVALID", "operator capture identity requires capture marker", 409⟩
    refuseIf (request.identityWorkflow ≠ some operatorCapture ∧
        request.identityWorkflow ≠ store.workflowOf projectId)
      ⟨"RUN_IDENTITY_WORKFLOW_DRIFT", "project workflow changed before run creation", 409⟩
    refuseIf (∃ bound ∈ request.maxProjectActive, bound ≤ store.countActiveRunsForProject projectId)
      ⟨"PROJECT_CONCURRENCY_LIMIT", "too many active runs for this project", 429⟩
    let run : ScopeRun :=
      { conversationId := conversationId
        status := .queued
        launchState := .pending
        requestedBy := some request.requestedBy
        idempotencyKey := request.idempotencyKey
        requestFingerprint := request.requestFingerprint
        identityWorkflow := request.identityWorkflow }
    .ok ({ store with runs := store.runs.set request.runId run }, request.runId, true)

/-- The answer to a start whose key was used: the run it created, if it is the same request.  A run
    the caller would launch obeys the start rules as they stand now. -/
def replayBatchRun (plan : WorkScope) (workScopeId requestFingerprint : Text)
    (existing : Text × ScopeRun) : Except AppError (Text × BatchRun) := do
  let binding ← required (store.batchRuns.find? fun row => row.runId = existing.1) idempotencyConflict
  refuseIf (existing.2.requestFingerprint ≠ requestFingerprint ∨ binding.workScopeId ≠ workScopeId)
    idempotencyConflict
  if existing.2.status = .queued ∧
      (existing.2.launchState = .pending ∨ existing.2.launchState = .launchFailed) then do
    refuseIf (plan.closed = true) notEditable
    let bound ← required (store.batches.get? binding.batchId) stale
    refuseIf (bound.revision ≠ plan.headRevision ∨ bound.scopeDigest ≠ plan.headDigest) stale
    refuseIf (store.workScopePaused workScopeId = true) paused
    .ok (existing.1, binding)
  else .ok (existing.1, binding)

/-- A start whose key is new: the live run of the same batch, or a run created and bound. -/
def startBatchRun (plan : WorkScope) (workScopeId batchId : Text) (expectedRevision : ℕ)
    (expectedDigest : Text) (request : RunRequest) (now : ℤ) :
    Except AppError (ScopeStore × Text × BatchRun × Bool) := do
  refuseIf (store.workflowOf plan.projectId ≠ some swarmV2) workflowUnsupported
  refuseIf (request.identityWorkflow ≠ some swarmV2) runInvalid
  refuseIf (plan.closed = true) notEditable
  refuseIf (expectedRevision ≠ plan.headRevision ∨ expectedDigest ≠ plan.headDigest) stale
  let batch ← required (store.batches.get? batchId) (notFound "work_scope_batch" batchId)
  refuseIf (batch.workScopeId ≠ workScopeId) (notFound "work_scope_batch" batchId)
  refuseIf (batch.revision ≠ plan.headRevision ∨ batch.scopeDigest ≠ plan.headDigest) stale
  refuseIf (store.workScopePaused workScopeId = true) paused
  match store.liveBatchBinding workScopeId with
  | some live =>
    refuseIf (live.batchId ≠ batchId) inProgress
    .ok (store, live.runId, live, false)
  | none =>
    store.checkBatchContinuation workScopeId batchId batch
    let created ← store.createMessageAndRun plan.conversationId request
    refuseIf (created.2.2 = false ∨ created.2.1 ≠ request.runId) runInvalid
    let bound := created.1.bindBatch workScopeId batchId request.runId request.requestedBy now
    .ok (bound.1, request.runId, bound.2, true)

/-- Create a batch's run and bind it, together or not at all; the run, its binding, and whether they
    are new. -/
def createWorkScopeBatchRun (workScopeId batchId : Text) (expectedRevision : ℕ)
    (expectedDigest : Text) (request : RunRequest) (now : ℤ) :
    Except AppError (ScopeStore × Text × BatchRun × Bool) := do
  let idempotencyKey ← required request.idempotencyKey idempotencyRequired
  refuseIf (strip idempotencyKey = [] ∨ strip request.requestFingerprint = []) idempotencyRequired
  let plan ← required (store.workScopes.get? workScopeId) (notFound "work_scope" workScopeId)
  refuseIf (store.isMember plan.projectId request.requestedBy = false)
    (notFound "work_scope" workScopeId)
  match store.findRunByIdempotency plan.conversationId request.requestedBy idempotencyKey with
  | some existing =>
    let answer ← store.replayBatchRun plan workScopeId request.requestFingerprint existing
    .ok (store, answer.1, answer.2, false)
  | none => store.startBatchRun plan workScopeId batchId expectedRevision expectedDigest request now

end ScopeStore

end Milo.Catalog
