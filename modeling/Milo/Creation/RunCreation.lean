import Milo.Catalog.Runs
import Milo.Python.Documents
import Milo.Reasoning.Dict
import Milo.Reasoning.Transition

/-!
# RunCreation — a message and its run, created in one transaction

`create_message_and_run_v3`, statement by statement.  A call takes the lock of its user and then the
lock of its project, answers a replay, is admitted under two caps, and inserts the message and the run;
others see both at its commit.  What it read of the project before it had the locks may be old by then.
-/

namespace Milo.Creation

open Milo.Catalog Milo.Python Milo.Reasoning

/-! ## 1. Rows -/

structure RunInput where
  messageId : ℕ
  content : Text
  metadata : Jsonb

structure StoredRun where
  id : Text
  conversationId : Text
  status : RunStatus
  requestedBy : Text
  idempotencyKey : Option Text
  requestFingerprint : Option Text
  input : RunInput
  runIdentity : Jsonb

/-- A row of `messages` with the role `user`. -/
structure UserMessage where
  id : ℕ
  conversationId : Text
  content : Text
  metadata : Jsonb

/-- The statuses both caps count. -/
def isActive (status : RunStatus) : Bool :=
  [RunStatus.queued, .launching, .starting, .running, .waiting, .cancellationRequested].contains status

theorem isActive_eq (status : RunStatus) : isActive status = !status.isTerminal := by
  cases status <;> rfl

/-- What a call is given. -/
structure CreateArgs where
  runId : Text
  runIdentity : Option Jsonb
  conversationId : Text
  content : Text
  metadata : Option Jsonb
  requestedBy : Text
  idempotencyKey : Option Text
  requestFingerprint : Option Text
  maxUserActive : Option ℤ
  maxProjectActive : Option ℤ

/-- A run of the conversation, the user and the key. -/
def StoredRun.isKeyed (conversationId user key : Text) (run : StoredRun) : Bool :=
  decide (run.conversationId = conversationId) && decide (run.requestedBy = user) &&
    decide (run.idempotencyKey = some key)

/-- The run a call's key names. -/
def StoredRun.isReplayOf (run : StoredRun) (args : CreateArgs) (key : Text) : Bool :=
  run.isKeyed args.conversationId args.requestedBy key

/-- A run as it was stored; only its status moves. -/
def StoredRun.asCreated (run : StoredRun) : StoredRun := { run with status := .queued }

/-! ## 2. Calls -/

/-- Where a call is: what its next statement is, or how it ended. -/
inductive CreatePhase
  | started
  | userLocked
  | locked
  | fresh
  | userAdmitted
  | admitted
  | messageInserted (message : UserMessage)
  | inserted (message : UserMessage) (run : StoredRun)
  | answered (run : StoredRun) (created : Bool)
  | refused (message : String)

namespace CreatePhase

def holdsUser : CreatePhase → Bool
  | userLocked | locked | fresh | userAdmitted | admitted | messageInserted _ | inserted _ _ => true
  | started | answered _ _ | refused _ => false

def holdsProject : CreatePhase → Bool
  | locked | fresh | userAdmitted | admitted | messageInserted _ | inserted _ _ => true
  | started | userLocked | answered _ _ | refused _ => false

/-- The call has found no run under its key. -/
def isFresh : CreatePhase → Bool
  | fresh | userAdmitted | admitted | messageInserted _ | inserted _ _ => true
  | started | userLocked | locked | answered _ _ | refused _ => false

/-- The call has passed the user's cap. -/
def isUserAdmitted : CreatePhase → Bool
  | userAdmitted | admitted | messageInserted _ | inserted _ _ => true
  | started | userLocked | locked | fresh | answered _ _ | refused _ => false

/-- The call has passed both caps. -/
def isAdmitted : CreatePhase → Bool
  | admitted | messageInserted _ | inserted _ _ => true
  | started | userLocked | locked | fresh | userAdmitted | answered _ _ | refused _ => false

/-- The run a call has inserted and not committed. -/
def insertedRun? : CreatePhase → Option StoredRun
  | inserted _ run => some run
  | _ => none

/-- The call has ended. -/
def isOver : CreatePhase → Bool
  | answered _ _ | refused _ => true
  | _ => false

end CreatePhase

/-- A call with what it read of its project before the locks. -/
structure CreateCall where
  args : CreateArgs
  project : Text
  workflowKey : Option Text
  phase : CreatePhase

/-- The tables, the sequence of the message ids, and the calls. -/
structure CreationState where
  projects : Dict Text (Option Text)
  conversations : Dict Text Text
  runs : List StoredRun
  messages : List UserMessage
  nextMessageId : ℕ
  calls : Dict Text CreateCall

inductive CreationEvent
  | begin (callId : Text) (args : CreateArgs)
  | lockUser (callId : Text)
  | lockProject (callId : Text)
  | lookup (callId : Text)
  | admitUser (callId : Text)
  | admitProject (callId : Text)
  | insertMessage (callId : Text)
  | insertRun (callId : Text)
  | commit (callId : Text)
  | abort (callId : Text)
  | runStatus (runId : Text) (status : RunStatus)
  | workflow (project : Text) (workflowKey : Option Text)
  | conversation (id project : Text)

namespace CreationState

variable (s : CreationState)

/-! ## 3. The statements of a call -/

/-- `count(*)` of the user's active runs. -/
def activeForUser (user : Text) : ℕ :=
  s.runs.countP fun run => decide (run.requestedBy = user) && isActive run.status

/-- `count(*)` of the active runs in the project's conversations. -/
def activeForProject (project : Text) : ℕ :=
  s.runs.countP fun run =>
    decide (s.conversations.get? run.conversationId = some project) && isActive run.status

/-- `count >= cap`, where there is a cap. -/
def capReached (cap : Option ℤ) (active : ℕ) : Bool := cap.any fun n => decide (n ≤ (active : ℤ))

/-- `btrim(text) = ''`, or null. -/
def isBlankText (text : Option Text) : Bool := text.all fun t => t.all fun c => decide (c = ' ')

/-- The answer to a call whose key is known, and the way on for any other. -/
def lookupPhase (args : CreateArgs) : CreatePhase :=
  if isBlankText args.requestFingerprint then .refused "IDEMPOTENCY_FINGERPRINT_REQUIRED"
  else
    match args.idempotencyKey.bind fun key => s.runs.find? fun run => run.isReplayOf args key with
    | none => .fresh
    | some run =>
      if run.requestFingerprint = none ∨ run.requestFingerprint ≠ args.requestFingerprint then
        .refused "IDEMPOTENCY_CONFLICT"
      else .answered run false

def identityField (identity : Jsonb) (field : String) : Option Text :=
  rendered (identity.member? field.toList)

def captureMarker : Text := "catalog.government.capture".toList

/-- `coalesce(metadata->>'milo_operation', '')`. -/
def operationOf (metadata : Option Jsonb) : Text :=
  ((metadata.bind fun m => rendered (m.member? "milo_operation".toList))).getD []

/-- What is wrong with the identity, given the workflow the call read. -/
def identityRefusal (args : CreateArgs) (workflowKey : Option Text) : Option String :=
  match args.runIdentity with
  | none => some "RUN_IDENTITY_INVALID: identity must be an object"
  | some identity =>
    if identity.isObject = false then some "RUN_IDENTITY_INVALID: identity must be an object"
    else if identityField identity "run_id" ≠ some args.runId then
      some "RUN_IDENTITY_INVALID: identity names a different run"
    else if identityField identity "workflow_key" = some "operator_capture".toList then
      if operationOf args.metadata ≠ captureMarker then
        some "RUN_IDENTITY_INVALID: operator capture identity requires the capture marker"
      else none
    else if identityField identity "workflow_key" ≠ workflowKey then
      some "RUN_IDENTITY_WORKFLOW_DRIFT: project workflow changed before creation"
    else none

/-- The identity checks and the user's cap. -/
def admitUserPhase (call : CreateCall) : CreatePhase :=
  match identityRefusal call.args call.workflowKey with
  | some refusal => .refused refusal
  | none =>
    if capReached call.args.maxUserActive (s.activeForUser call.args.requestedBy) then
      .refused "USER_CONCURRENCY_LIMIT"
    else .userAdmitted

/-- The project's cap. -/
def admitProjectPhase (call : CreateCall) : CreatePhase :=
  if capReached call.args.maxProjectActive (s.activeForProject call.project) then
    .refused "PROJECT_CONCURRENCY_LIMIT"
  else .admitted

/-- `coalesce(p_metadata, '{}')`. -/
def storedMetadata (args : CreateArgs) : Jsonb := args.metadata.getD (.obj [])

/-- The message a call inserts. -/
def newMessage (args : CreateArgs) : UserMessage :=
  ⟨s.nextMessageId, args.conversationId, args.content, storedMetadata args⟩

/-- The run a call inserts. -/
def newRun (args : CreateArgs) (identity : Jsonb) (message : UserMessage) : StoredRun where
  id := args.runId
  conversationId := args.conversationId
  status := .queued
  requestedBy := args.requestedBy
  idempotencyKey := args.idempotencyKey
  requestFingerprint := args.requestFingerprint
  input := ⟨message.id, args.content, storedMetadata args⟩
  runIdentity := identity

/-- The workflow of a conversation's project as it is now. -/
def trustedWorkflow (conversationId : Text) : Option Text :=
  (s.conversations.get? conversationId).bind fun project => (s.projects.get? project).bind id

/-- `runs_require_identity_on_insert`. -/
def insertRefusal (run : StoredRun) : Option String :=
  match s.trustedWorkflow run.conversationId with
  | none => some "RUN_IDENTITY_INVALID: run conversation has no trusted project workflow"
  | some workflow =>
    if identityField run.runIdentity "workflow_key" = some "operator_capture".toList then
      if operationOf (some run.input.metadata) ≠ captureMarker then
        some "RUN_IDENTITY_INVALID: operator capture identity requires the capture marker"
      else none
    else if identityField run.runIdentity "workflow_key" ≠ some workflow then
      some "RUN_IDENTITY_WORKFLOW_DRIFT: identity does not match trusted project workflow"
    else none

def isHex (length : ℕ) (text : Text) : Bool :=
  decide (text.length = length) &&
    text.all fun c => c.isDigit || (decide ('a' ≤ c) && decide (c ≤ 'f'))

/-- The engine each workflow runs on. -/
def engineVersions : List (Text × Text) :=
  [("vehicle_catalog_v1".toList, "vehicle_catalog_v1.stage3".toList),
    ("swarm_v2".toList, "swarm_v2.1".toList),
    ("operator_capture".toList, "operator_capture.1".toList)]

/-- `runs_run_identity_shape_check`. -/
def identityShape (run : StoredRun) : Bool :=
  let field := identityField run.runIdentity
  decide (field "identity_version" = some "milo-run-identity/1".toList) &&
    (field "policy_version").any (fun t => decide (t ≠ [])) &&
    (field "policy_fingerprint").any (isHex 64) &&
    (field "event_registry_version").any (fun t => decide (t ≠ [])) &&
    (field "event_registry_fingerprint").any (isHex 64) && (field "release_sha").any (isHex 40) &&
    engineVersions.any (fun e =>
      decide (field "workflow_key" = some e.1) && decide (field "engine_version" = some e.2)) &&
    decide (field "run_id" = some run.id)

/-- Two runs that a unique index keeps apart. -/
def clash (run other : StoredRun) : Bool :=
  decide (run.id = other.id) ||
    (run.idempotencyKey.isSome && decide (run.conversationId = other.conversationId) &&
      decide (run.requestedBy = other.requestedBy) &&
        decide (run.idempotencyKey = other.idempotencyKey))

/-- The insertion of the run: the trigger, the checks and the unique indexes. -/
def insertRunPhase (args : CreateArgs) (message : UserMessage) : CreatePhase :=
  match args.runIdentity with
  | none => .refused "RUN_IDENTITY_REQUIRED: new runs must be born with immutable identity"
  | some identity =>
    let run := newRun args identity message
    match s.insertRefusal run with
    | some refusal => .refused refusal
    | none =>
      if identityShape run = false ∨ ∃ other ∈ s.runs, clash run other = true then
        .refused "the row violates a constraint of its table"
      else .inserted message run

/-! ## 4. Events -/

/-- A call moves on. -/
def withPhase (callId : Text) (call : CreateCall) (phase : CreatePhase) : CreationState :=
  { s with calls := s.calls.set callId { call with phase := phase } }

/-- A run takes another status. -/
def withStatus (runId : Text) (status : RunStatus) : CreationState :=
  { s with
    runs := s.runs.map fun run => if run.id = runId then { run with status := status } else run }

/-- What a call does at its next statement, if the event is that statement. -/
def advance (callId : Text) (call : CreateCall) : CreationEvent → CreationState
  | .lockUser _ =>
    match call.phase with
    | .started => s.withPhase callId call .userLocked
    | _ => s
  | .lockProject _ =>
    match call.phase with
    | .userLocked => s.withPhase callId call .locked
    | _ => s
  | .lookup _ =>
    match call.phase with
    | .locked => s.withPhase callId call (s.lookupPhase call.args)
    | _ => s
  | .admitUser _ =>
    match call.phase with
    | .fresh => s.withPhase callId call (s.admitUserPhase call)
    | _ => s
  | .admitProject _ =>
    match call.phase with
    | .userAdmitted => s.withPhase callId call (s.admitProjectPhase call)
    | _ => s
  | .insertMessage _ =>
    match call.phase with
    | .admitted =>
      { s.withPhase callId call (.messageInserted (s.newMessage call.args)) with
        nextMessageId := s.nextMessageId + 1 }
    | _ => s
  | .insertRun _ =>
    match call.phase with
    | .messageInserted message => s.withPhase callId call (s.insertRunPhase call.args message)
    | _ => s
  | .commit _ =>
    match call.phase with
    | .inserted message run =>
      { s.withPhase callId call (.answered run true) with
        runs := s.runs ++ [run]
        messages := s.messages ++ [message] }
    | _ => s
  | .abort _ =>
    if call.phase.isOver then s else s.withPhase callId call (.refused "connection lost")
  | _ => s

/-- The call of an event, if it is a statement of one. -/
def callOf? : CreationEvent → Option Text
  | .lockUser callId | .lockProject callId | .lookup callId | .admitUser callId
  | .admitProject callId | .insertMessage callId | .insertRun callId | .commit callId
  | .abort callId => some callId
  | .begin _ _ | .runStatus _ _ | .workflow _ _ | .conversation _ _ => none

/-- A call starts: it reads the project of its conversation. -/
def beginCall (callId : Text) (args : CreateArgs) : CreationState :=
  match s.conversations.get? args.conversationId with
  | none =>
    { s with calls := s.calls.set callId ⟨args, [], none, .refused "CONVERSATION_NOT_FOUND"⟩ }
  | some project =>
    { s with
      calls := s.calls.set callId ⟨args, project, (s.projects.get? project).bind id, .started⟩ }

def perform (e : CreationEvent) : CreationState :=
  match e with
  | .begin callId args => s.beginCall callId args
  | .runStatus runId status => s.withStatus runId status
  | .workflow project workflowKey => { s with projects := s.projects.set project workflowKey }
  | .conversation id project => { s with conversations := s.conversations.set id project }
  | e =>
    match (callOf? e).bind fun callId => (s.calls.get? callId).map fun call => (callId, call) with
    | none => s
    | some (callId, call) => s.advance callId call e

/-- A statement of a call advances that call, if there is one. -/
theorem perform_of_callOf {e : CreationEvent} {callId : Text} (he : callOf? e = some callId) :
    s.perform e = ((s.calls.get? callId).map fun call => s.advance callId call e).getD s := by
  cases e <;> cases he <;> unfold perform <;> dsimp only [callOf?, Option.bind_some] <;>
    cases s.calls.get? callId <;> rfl

/-! ## 5. Waiting -/

variable (hashtext : Text → ℤ)

def userLock (args : CreateArgs) : ℤ := hashtext ("milo_run_user_".toList ++ args.requestedBy)

def projectLock (call : CreateCall) : ℤ := hashtext ("milo_run_project_".toList ++ call.project)

/-- The advisory locks a call holds. -/
def locksOf (call : CreateCall) : List ℤ :=
  (if call.phase.holdsUser then [userLock hashtext call.args] else []) ++
    if call.phase.holdsProject then [projectLock hashtext call] else []

/-- No other call holds the lock. -/
def Free (callId : Text) (lock : ℤ) : Prop :=
  ∀ e ∈ s.calls.entries, e.1 ≠ callId → lock ∉ locksOf hashtext e.2

/-- Nobody else has inserted a run that clashes and is not committed yet. -/
def NotWaiting (callId : Text) (args : CreateArgs) : Prop :=
  ∀ e ∈ s.calls.entries, e.1 ≠ callId → ∀ run ∈ e.2.phase.insertedRun?, run.id ≠ args.runId ∧
    ¬ (args.idempotencyKey.isSome = true ∧ run.conversationId = args.conversationId ∧
      run.requestedBy = args.requestedBy ∧ run.idempotencyKey = args.idempotencyKey)

instance (callId : Text) (lock : ℤ) : Decidable (s.Free hashtext callId lock) :=
  inferInstanceAs (Decidable (∀ e ∈ s.calls.entries, _))

instance (callId : Text) (args : CreateArgs) : Decidable (s.NotWaiting callId args) :=
  inferInstanceAs (Decidable (∀ e ∈ s.calls.entries, _))

/-- What each event waits for.  A terminal status is never left, a conversation is created once, and
    a statement of a call waits for the locks it takes. -/
def Allowed : CreationEvent → Prop
  | .begin callId _ => s.calls.get? callId = none
  | .lockUser callId =>
    ∀ call ∈ s.calls.get? callId, s.Free hashtext callId (userLock hashtext call.args)
  | .lockProject callId =>
    ∀ call ∈ s.calls.get? callId, s.Free hashtext callId (projectLock hashtext call)
  | .insertRun callId => ∀ call ∈ s.calls.get? callId, s.NotWaiting callId call.args
  | .runStatus runId status =>
    ∀ run ∈ s.runs, run.id = runId → status ∈ run.status.validTransitions
  | .conversation id _ => s.conversations.get? id = none
  | .lookup _ | .admitUser _ | .admitProject _ | .insertMessage _ | .commit _ | .abort _
  | .workflow _ _ => True

instance : (e : CreationEvent) → Decidable (s.Allowed hashtext e)
  | .begin callId _ => decidable_of_iff (callId ∉ s.calls.keys) Dict.get?_eq_none.symm
  | .lockUser callId => inferInstanceAs (Decidable (∀ call ∈ s.calls.get? callId, _))
  | .lockProject callId => inferInstanceAs (Decidable (∀ call ∈ s.calls.get? callId, _))
  | .insertRun callId => inferInstanceAs (Decidable (∀ call ∈ s.calls.get? callId, _))
  | .runStatus _ _ => inferInstanceAs (Decidable (∀ run ∈ s.runs, _))
  | .conversation _ _ => inferInstanceAs (Decidable (_ = none))
  | .lookup _ | .admitUser _ | .admitProject _ | .insertMessage _ | .commit _ | .abort _
  | .workflow _ _ => inferInstanceAs (Decidable True)

/-- One event of the system. -/
abbrev CreationStep : CreationState → CreationEvent → CreationState → Prop :=
  Performs (fun s e => s.Allowed hashtext e) perform

end CreationState

end Milo.Creation
