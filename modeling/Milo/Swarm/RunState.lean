import Milo.Reasoning.Graded
import Milo.Swarm.Plans
import Milo.Swarm.Verification

/-!
# RunState — what a run keeps, the calls it makes and the record of both

The checkpointed state of a run, the guarded model call every role goes through, and a worker with
its one bounded repair.  Everything outside the engine is a capability over an unknown state `Y`,
and each may raise.  The world a run acts on keeps a journal: the guarded calls, the steps they
record, the feasibility checks, the executions of the graph and the checkpoints, in the order in
which they happen.
-/

namespace Milo.Swarm

open Milo.Python Milo.Reasoning

/-! ## 1. The run state -/

/-- One entry of `state.replans`; a correction round's entry carries its number. -/
inductive ReplanEntry
  | accepted (kind : ReplanKind) (reason : Text) (correctionRound : Option ℕ)
  | rejected (code : String) (graphRevision : ℕ) (correctionRound : Option ℕ)
  deriving DecidableEq

structure RunState extends SwarmState where
  runId : Text
  approvedPlan : Option CommanderPlan
  completedTaskIds : List String
  taskOutputs : Dict String (List (Text × Json))
  taskResolutions : Dict String (List CandidateOutcome)
  evidenceReferences : List EvidenceReference
  replans : List ReplanEntry
  correctionRounds : ℕ
  correctionDeclined : Bool

namespace RunState

variable (state : RunState)

/-- `_replan_rejected_for_pass`: this pass's decision was already rejected. -/
def replanRejectedForPass : Bool :=
  state.replans.any fun
    | .rejected _ graphRevision none => decide (graphRevision = state.graphRevision)
    | _ => false

/-- `_correction_rejected`: the correction round's decision was rejected. -/
def correctionRejected : Bool :=
  state.replans.any fun
    | .rejected _ _ (some _) => true
    | _ => false

/-- The correction round has its answer: it was spent, declined or rejected. -/
def Answered : Prop :=
  correctionPathClosed state.correctionRounds state.correctionDeclined = true ∨
    state.correctionRejected = true

instance : Decidable state.Answered := by
  unfold Answered
  infer_instance

def acceptedReplans : ℕ :=
  state.replans.countP fun
    | .accepted _ _ _ => true
    | .rejected _ _ _ => false

end RunState

/-! ## 2. Exceptions -/

/-- What the engine and its collaborators may raise. -/
inductive RunFault
  /-- A cancellation, a budget stop, a repository or lease fault, or the end of the process. -/
  | infrastructure
  /-- `AssertionError`. -/
  | assertion
  /-- `ModelRequestRefused`. -/
  | refused (code : String)
  /-- `ProviderTransportFailure`. -/
  | transport (error : TaskError)
  /-- `CommanderPlanFailure`. -/
  | commander (code : String)
  /-- `SwarmExecutionFailure`. -/
  | execution (code : String)
  /-- Any other `ValueError`. -/
  | value (message : String)
  /-- What final verification raises. -/
  | verification (failure : Failure)
  /-- What fails one task with its own error. -/
  | task (error : TaskError)
  | other
  /-- The loop of the model was given too few rounds. -/
  | exhausted
  deriving DecidableEq

namespace RunFault

/-- `NOT_DEGRADABLE`. -/
def notDegradable : RunFault → Bool
  | .infrastructure => true
  | .assertion => true
  | .verification .notDegradable => true
  | _ => false

/-- The `ValueError`s among them. -/
def isValueError : RunFault → Bool
  | .execution _ => true
  | .value _ => true
  | .verification .budgetInsufficient => true
  | .verification .invalidRecord => true
  | _ => false

/-- The fault as final verification sees it. -/
def toFailure : RunFault → Failure
  | .verification failure => failure
  | .infrastructure => .notDegradable
  | .assertion => .notDegradable
  | _ => .other

/-- The error a failed task reports; `none` for what fails the run instead. -/
def taskError : RunFault → Option TaskError
  | .infrastructure => none
  | .refused _ => none
  | .task error => some error
  | .transport error => some error
  | _ => some ⟨"TASK_FAILED", "task execution failed"⟩

end RunFault

/-! ## 3. The world and its journal -/

inductive Role
  | commanderPlanning
  | commanderReplanning
  | worker (taskId : String)
  | verifier
  deriving DecidableEq, Repr

inductive RunEvent
  /-- `ModelGateway.call` was entered. -/
  | gatewayCall (role : Role)
  | agentStep (role : Role)
  /-- `_check_feasible` compared a plan with what remains of the budget. -/
  | feasibilityChecked (pendingTasks maxReplans : ℕ) (passed : Bool)
  /-- The executor was handed the graph. -/
  | graphExecuted (graphRevision : ℕ)
  /-- A task was handed to a worker. -/
  | taskStarted (taskId : String)
  /-- The Commander was asked for a correction decision. -/
  | correctionAsked (round : ℕ)
  /-- Final verification partitioned its claims into so many batches. -/
  | batchesPartitioned (count : ℕ)
  | checkpointSaved (state : RunState)

/-- What a run acts on: its journal and whatever its capabilities keep. -/
structure World (Y : Type) where
  journal : List RunEvent
  surroundings : Y

namespace World

variable {Y : Type} {ε α : Type}

/-- Let a capability act on its own state. -/
def lift (c : Action Y ε α) : Action (World Y) ε α :=
  Action.zoom World.surroundings (fun y w => { w with surroundings := y }) c

def record (event : RunEvent) : Action (World Y) ε PUnit :=
  Action.modify fun w => { w with journal := w.journal ++ [event] }

end World

/-- The last checkpoint of a journal. -/
def lastCheckpoint (journal : List RunEvent) : Option RunState :=
  journal.reverse.findSome? fun
    | .checkpointSaved state => some state
    | _ => none

/-! ## 4. The guarded model call -/

def CompletionCode.text : CompletionCode → String
  | .reasoningExhaustedOutput => "MODEL_REASONING_EXHAUSTED_OUTPUT"
  | .outputTruncated => "MODEL_OUTPUT_TRUNCATED"
  | .emptyCompletion => "MODEL_EMPTY_COMPLETION"

def CompletionCode.message : CompletionCode → String
  | .reasoningExhaustedOutput =>
    "the model spent its whole output cap reasoning and returned no answer"
  | .outputTruncated => "the model's answer was cut off at the output cap"
  | .emptyCompletion => "the model finished without an answer"

structure Gateway (Y : Type) where
  cancelled : Action Y RunFault Bool
  agentStep : Role → Action Y RunFault PUnit
  /-- The request built for the role, sent through the provider authority and classified. -/
  dispatch : Role → Text → CallShape → Action Y RunFault Reply

namespace Gateway

variable {Y : Type} (gateway : Gateway Y)

def checkCancelled : Action (World Y) RunFault PUnit := do
  let stop ← World.lift gateway.cancelled
  Action.ofExcept (refuseIf (stop = true) .infrastructure)

/-- `ModelGateway.call`: one agent step is recorded before the request is sent. -/
def call (role : Role) (request : Text) (shape : CallShape) : Action (World Y) RunFault Reply := do
  World.record (.gatewayCall role)
  gateway.checkCancelled
  World.record (.agentStep role)
  World.lift (gateway.agentStep role)
  World.lift (gateway.dispatch role request shape)

end Gateway

/-! ## 5. Workers -/

/-- What `validate_worker_output` refuses a completion with. -/
inductive OutputFailure
  | jsonInvalid
  | schemaInvalid
  /-- The completion exceeds a deterministic bound. -/
  | tooLarge (error : TaskError)

/-- `WORKER_OUTPUT_REASONS` are repairable, a bound is not. -/
def OutputFailure.repairReason : OutputFailure → Option String
  | .jsonInvalid => some "WORKER_OUTPUT_JSON_INVALID"
  | .schemaInvalid => some "WORKER_OUTPUT_SCHEMA_INVALID"
  | .tooLarge _ => none

def OutputFailure.error : OutputFailure → TaskError
  | .jsonInvalid => ⟨"WORKER_OUTPUT_JSON_INVALID", "worker output is not valid JSON"⟩
  | .schemaInvalid => ⟨"WORKER_OUTPUT_SCHEMA_INVALID",
      "worker output does not satisfy the declared output schema"⟩
  | .tooLarge error => error

abbrev DependencyOutputs : Type := List (String × Option TaskAnswer)

structure Worker (Y : Type) where
  /-- The planned tool calls, in order; a tool calls no model. -/
  runPlannedCalls : PlannedTask → DependencyOutputs → Action Y RunFault (Json × List CandidateOutcome)
  /-- The optional deterministic strategy in place of the model. -/
  taskOutputStrategy :
    Option (PlannedTask → DependencyOutputs → Json → Action Y RunFault ResponseContent)
  validateOutput : PlannedTask → ResponseContent → Except OutputFailure (List (Text × Json))
  buildRequest : PlannedTask → DependencyOutputs → Json → Option String → Text
  emit : String → Action Y RunFault PUnit
  retryCallback : String → String → Action Y RunFault PUnit
  initialShape : CallShape
  escalate : CallShape → Option CallShape

namespace Worker

variable {Y : Type} (worker : Worker Y) (gateway : Gateway Y)

/-- One attempt at an output: the output, or the fault with the repair that may answer it. -/
inductive Attempt
  | done (output : List (Text × Json))
  | failed (fault : RunFault) (repair : Option (String × CallShape))

/-- Announce and account for a repair before it is made. -/
def beginRepair (taskId : String) (repairReason : Option String) :
    Action (World Y) RunFault PUnit :=
  match repairReason with
  | none => pure ⟨⟩
  | some reason => do
    gateway.checkCancelled
    World.lift (worker.emit "worker_output_repair_started")
    World.lift (worker.retryCallback taskId reason)

/-- What a classified completion comes to. -/
def judge (task : PlannedTask) (shape : CallShape) : Reply → Attempt
  | .shapeInvalid => .failed .other none
  | .failed code =>
    .failed (.task ⟨code.text, code.message⟩)
      (if code.truncation then (worker.escalate shape).map fun s => (code.text, s) else none)
  | .answer content =>
    match worker.validateOutput task content with
    | .ok output => .done output
    | .error failure =>
      .failed (.task failure.error) (failure.repairReason.map fun reason => (reason, shape))

def attempt (task : PlannedTask) (request : Option String → Text) (repairReason : Option String)
    (shape : CallShape) : Action (World Y) RunFault Attempt := do
  worker.beginRepair gateway task.taskId repairReason
  let reply ← gateway.call (.worker task.taskId) (request repairReason) shape
  pure (worker.judge task shape reply)

/-- At most `left` repairs follow the attempt. -/
def resolveAttempts (task : PlannedTask) (request : Option String → Text) :
    ℕ → Option String → CallShape → Action (World Y) RunFault (List (Text × Json))
  | 0, repairReason, shape => do
    match ← worker.attempt gateway task request repairReason shape with
    | .done output => pure output
    | .failed fault _ => Action.raise fault
  | left + 1, repairReason, shape => do
    match ← worker.attempt gateway task request repairReason shape with
    | .done output => pure output
    | .failed fault none => Action.raise fault
    | .failed _ (some repair) => resolveAttempts task request left (some repair.1) repair.2

/-- `_deterministic_output`: the strategy's answer passes the same validation, without a repair. -/
def deterministicOutput (task : PlannedTask)
    (produce : Action Y RunFault ResponseContent) :
    Action (World Y) RunFault (List (Text × Json)) := do
  match ← Action.attempt (World.lift produce) with
  | .error _ => Action.raise (.task ⟨"WORKER_OUTPUT_STRATEGY_FAILED",
      "the deterministic task-output strategy failed"⟩)
  | .ok content =>
    match worker.validateOutput task content with
    | .ok output => pure output
    | .error _ => Action.raise (.task ⟨"WORKER_OUTPUT_STRATEGY_INVALID",
        "the deterministic task output does not satisfy the declared output schema"⟩)

/-- `_resolve_output`. -/
def resolveOutput (task : PlannedTask) (dependencyOutputs : DependencyOutputs)
    (toolOutputs : Json) : Action (World Y) RunFault (List (Text × Json)) :=
  match worker.taskOutputStrategy with
  | some strategy => worker.deterministicOutput task (strategy task dependencyOutputs toolOutputs)
  | none =>
    worker.resolveAttempts gateway task (worker.buildRequest task dependencyOutputs toolOutputs)
      (maxWorkerOutputModelAttempts - 1) none worker.initialShape

/-- The tools, then the model-output boundary. -/
def perform (task : PlannedTask) (dependencyOutputs : DependencyOutputs) :
    Action (World Y) RunFault TaskAnswer := do
  gateway.checkCancelled
  let tools ← World.lift (worker.runPlannedCalls task dependencyOutputs)
  gateway.checkCancelled
  let output ← worker.resolveOutput gateway task dependencyOutputs tools.1
  pure ⟨output, tools.2⟩

/-- `execute`: what the future of a task holds, a result or an exception that fails the run. -/
def execute (task : PlannedTask) (dependencyOutputs : DependencyOutputs) :
    Action (World Y) RunFault (Except RunFault (TaskResult TaskAnswer)) := do
  match ← Action.attempt (worker.perform gateway task dependencyOutputs) with
  | .ok answer => pure (.ok ⟨task.taskId, .completed, some answer, none⟩)
  | .error fault =>
    match fault.taskError with
    | some error => pure (.ok ⟨task.taskId, .failed, none, some error⟩)
    | none => pure (.error fault)

end Worker

/-! ## 6. The Commander -/

/-- `REJECTABLE_REPLAN_CODES`: the answer to a replan was refused. -/
def rejectableReplanCodes : List String :=
  ["COMMANDER_DECISION_INVALID", "COMMANDER_PLAN_JSON_INVALID", "COMMANDER_PLAN_SCHEMA_INVALID",
    "COMMANDER_PLAN_LIMIT_EXCEEDED"]

/-- The code of a fault that rejects a replan decision rather than fail the run. -/
def RunFault.rejectableCode : RunFault → Option String
  | .commander code => if rejectableReplanCodes.contains code then some code else none
  | _ => none

/-- What may escape a Commander call as it is; anything else is a failed completion. -/
def RunFault.ofCommanderCall : RunFault → RunFault
  | .infrastructure => .infrastructure
  | .refused code => .refused code
  | .transport error => .transport error
  | .commander code => .commander code
  | _ => .commander "COMMANDER_COMPLETION_FAILED"

/-- A plan that did not come about: its code, and the reason and shape of a repair. -/
structure PlanFailure where
  code : String
  repair : Option (String × CallShape)

structure Commander (limits : PlanLimits) (Y : Type) where
  /-- The firewall over a planning answer, or the code and reason it refuses the answer with. -/
  readPlan : ResponseContent → Except (String × String) (AcceptedPlan limits)
  /-- The decision contract, and the firewall over its plan. -/
  readDecision : ResponseContent → Except String (CommanderDecision limits)
  validateSavedPlan : Option CommanderPlan → Except RunFault (AcceptedPlan limits)
  planRequest : Option String → Text
  replanRequest : Text
  retryCallback : String → Action Y RunFault PUnit
  planningShape : CallShape
  replanningShape : CallShape
  escalate : CallShape → Option CallShape

namespace Commander

variable {limits : PlanLimits} {Y : Type} (commander : Commander limits Y) (gateway : Gateway Y)

def judgePlan (shape : CallShape) : Reply → Except PlanFailure (AcceptedPlan limits)
  | .shapeInvalid => .error ⟨"COMMANDER_COMPLETION_SHAPE_INVALID", none⟩
  | .failed code =>
    .error ⟨code.text,
      if code.truncation then (commander.escalate shape).map fun s => (code.text, s) else none⟩
  | .answer content =>
    match commander.readPlan content with
    | .ok plan => .ok plan
    | .error refusal => .error ⟨refusal.1, some (refusal.2, commander.planningShape)⟩

def planAttempt (repairReason : Option String) (shape : CallShape) :
    Action (World Y) RunFault (Except PlanFailure (AcceptedPlan limits)) := do
  let reply ← Action.mapError RunFault.ofCommanderCall
    (gateway.call .commanderPlanning (commander.planRequest repairReason) shape)
  pure (commander.judgePlan shape reply)

/-- `Commander.plan`: one semantic repair, if the refusal has one. -/
def plan : Action (World Y) RunFault (AcceptedPlan limits) := do
  match ← commander.planAttempt gateway none commander.planningShape with
  | .ok plan => pure plan
  | .error ⟨code, none⟩ => Action.raise (.commander code)
  | .error ⟨_, some (reason, shape)⟩ => do
    World.lift (commander.retryCallback reason)
    match ← commander.planAttempt gateway (some reason) shape with
    | .ok plan => pure plan
    | .error failure => Action.raise (.commander failure.code)

def judgeDecision : Reply → Except RunFault (CommanderDecision limits)
  | .shapeInvalid => .error (.commander "COMMANDER_COMPLETION_SHAPE_INVALID")
  | .failed code => .error (.commander code.text)
  | .answer content =>
    match commander.readDecision content with
    | .ok decision => .ok decision
    | .error code => .error (.commander code)

/-- `Commander.replan`: exactly one guarded call, without a repair. -/
def replan : Action (World Y) RunFault (CommanderDecision limits) := do
  let reply ← Action.mapError RunFault.ofCommanderCall
    (gateway.call .commanderReplanning commander.replanRequest commander.replanningShape)
  Action.ofExcept (commander.judgeDecision reply)

end Commander

end Milo.Swarm
