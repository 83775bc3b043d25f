import Milo.Reasoning.Checks
import Milo.Reasoning.GraphSearch
import Milo.Swarm.Normalization
import Milo.Swarm.Plans

/-!
# PlanFirewall — the deterministic firewall in front of a plan

`PlanValidator._validate_plan`: the limits, each task in turn, then the graph and the assignments.  The
graph is searched for the longest chain of dependencies, which finds cycles on the way; each assignment
must show its worker everything its task depends on.
-/

namespace Milo.Swarm

open Milo.Python Milo.Reasoning

/-! ## 1. The contract -/

/-- One argument taken from the output of a dependency. -/
structure DependencyBinding where
  argument : Text
  taskId : String
  path : List (Text ⊕ ℤ)

structure PlannedToolCall where
  callId : Text
  name : Text
  operation : Text
  arguments : List (Text × Json)
  dependencyBindings : List DependencyBinding

/-- A task as the Commander states it. -/
structure SubmittedTask extends DynamicTask where
  goal : Text
  scope : Text
  tools : List PlannedToolCall
  outputSchema : List (Text × Json)
  evidence : EvidenceRequirement
  recursionDepth : ℕ
  estimatedCostUnits : ℕ
  completion : CompletionCriteria

structure WorkerAssignment where
  taskId : String
  contextTaskIds : List String

/-- A plan that satisfies the field contracts. -/
structure SubmittedPlan where
  tasks : List SubmittedTask
  assignments : List WorkerAssignment
  maxReplans : ℕ
  estimatedCostUnits : ℕ
  stated : tasks ≠ []
  unique : (tasks.map fun task => task.taskId).Nodup
  assignedOnce : (assignments.map WorkerAssignment.taskId).Nodup
  assigned : ∀ taskId, taskId ∈ assignments.map WorkerAssignment.taskId ↔
    taskId ∈ tasks.map fun task => task.taskId
  known : ∀ assignment ∈ assignments, ∀ taskId ∈ assignment.contextTaskIds,
    taskId ∈ tasks.map fun task => task.taskId

namespace SubmittedPlan

variable (plan : SubmittedPlan)

def ids : List String := plan.tasks.map fun task => task.taskId

/-- `by_id[task_id].dependencies`. -/
def dependencies : String → List String :=
  dependenciesIn (plan.tasks.map SubmittedTask.toDynamicTask)

end SubmittedPlan

structure FirewallLimits extends PlanLimits where
  maxTasks : ℕ
  maxGraphDepth : ℕ
  maxRecursionDepth : ℕ
  maxCostUnits : ℕ
  maxToolCallsPerTask : ℕ
  maxToolCalls : ℕ

/-- The static reasons a plan is refused with after its contract. -/
inductive PlanReason
  | taskCountLimit
  | replanLimit
  | costLimit
  | duplicateTaskId
  | duplicateTaskSignature
  | recursionLimit
  | evidenceCompletionMismatch
  | outputSchemaNestedInvalid
  | requiredOutputNotInSchema
  | taskToolCallLimit
  | aggregateToolCallLimit
  | missingDependency
  | dependencyCycle
  | graphDepthLimit
  | assignmentContextIncomplete
  | duplicateToolCallId
  | toolNotAllowlisted
  | toolOperationUnknown
  | toolArgumentsTooLarge
  | toolBindingDuplicate
  | toolBindingConflict
  | toolBindingUnknownDependency
  | toolBindingPathInvalid
  | toolArgumentsInvalid
  | evidenceRequiresEvidenceTool
  | evidenceFieldNotProducible
  | registerCodesRequired
  | registerCodeNotInBatch
  deriving DecidableEq, Repr

def PlanReason.text : PlanReason → String
  | .taskCountLimit => "TASK_COUNT_LIMIT"
  | .replanLimit => "REPLAN_LIMIT"
  | .costLimit => "COST_LIMIT"
  | .duplicateTaskId => "DUPLICATE_TASK_ID"
  | .duplicateTaskSignature => "DUPLICATE_TASK_SIGNATURE"
  | .recursionLimit => "RECURSION_LIMIT"
  | .evidenceCompletionMismatch => "EVIDENCE_COMPLETION_MISMATCH"
  | .outputSchemaNestedInvalid => "OUTPUT_SCHEMA_NESTED_INVALID"
  | .requiredOutputNotInSchema => "REQUIRED_OUTPUT_NOT_IN_SCHEMA"
  | .taskToolCallLimit => "TASK_TOOL_CALL_LIMIT"
  | .aggregateToolCallLimit => "AGGREGATE_TOOL_CALL_LIMIT"
  | .missingDependency => "MISSING_DEPENDENCY"
  | .dependencyCycle => "DEPENDENCY_CYCLE"
  | .graphDepthLimit => "GRAPH_DEPTH_LIMIT"
  | .assignmentContextIncomplete => "ASSIGNMENT_CONTEXT_INCOMPLETE"
  | .duplicateToolCallId => "DUPLICATE_TOOL_CALL_ID"
  | .toolNotAllowlisted => "TOOL_NOT_ALLOWLISTED"
  | .toolOperationUnknown => "TOOL_OPERATION_UNKNOWN"
  | .toolArgumentsTooLarge => "TOOL_ARGUMENTS_TOO_LARGE"
  | .toolBindingDuplicate => "TOOL_BINDING_DUPLICATE"
  | .toolBindingConflict => "TOOL_BINDING_CONFLICT"
  | .toolBindingUnknownDependency => "TOOL_BINDING_UNKNOWN_DEPENDENCY"
  | .toolBindingPathInvalid => "TOOL_BINDING_PATH_INVALID"
  | .toolArgumentsInvalid => "TOOL_ARGUMENTS_INVALID"
  | .evidenceRequiresEvidenceTool => "EVIDENCE_REQUIRES_EVIDENCE_TOOL"
  | .evidenceFieldNotProducible => "EVIDENCE_FIELD_NOT_PRODUCIBLE"
  | .registerCodesRequired => "REGISTER_CODES_REQUIRED"
  | .registerCodeNotInBatch => "REGISTER_CODE_NOT_IN_BATCH"

/-- A plan is refused for a reason; a search that ran out of fuel would be a fault of this model. -/
inductive FirewallFailure
  | refused (reason : PlanReason)
  | outOfFuel
  deriving DecidableEq, Repr

def refuse (condition : Prop) [Decidable condition] (reason : PlanReason) : Except FirewallFailure Unit :=
  refuseIf condition (.refused reason)

/-! ## 2. The planned calls of a task -/

/-- An input schema, as far as the firewall reads it. -/
structure InputSchema where
  properties : List (Text × Json)
  required : List Text

structure ToolOperationDescriptor where
  name : Text
  inputSchema : InputSchema
  producesEvidence : Option Bool
  evidenceFields : Option (List Text)

structure ToolDescriptor where
  name : Text
  operations : List ToolOperationDescriptor

def ToolDescriptor.operation (descriptor : ToolDescriptor) (name : Text) : Option ToolOperationDescriptor :=
  descriptor.operations.find? fun item => decide (item.name = name)

/-- The validator with what it was injected, and the two schema validators it calls. -/
structure PlanValidator where
  tools : List ToolDescriptor
  limits : FirewallLimits
  callRules : List (PlannedToolCall → Option PlanReason)
  unicode : Unicode
  outputSchemaIsRuntimeValid : List (Text × Json) → Bool
  validateJsonSchema : List (Text × Json) → List (Text × Json) → Bool

def maxToolArgumentKeys : ℕ := 32

def maxToolInputJsonBytes : ℕ := 4096

def maxToolValueDepth : ℕ := 8

def maxToolCollectionItems : ℕ := 200

def maxBindingPathSegments : ℕ := 6

def maxBindingPathSegmentChars : ℕ := 64

def maxBindingArrayIndex : ℤ := 999

mutual

/-- `check_shape`: nothing too deep and no collection too large; `room` is the depth that is left. -/
def checkShape (room : ℕ) : Json → Bool
  | .obj members => decide (members.length ≤ maxToolCollectionItems) && checkMembers room members
  | .arr items => decide (items.length ≤ maxToolCollectionItems) && checkItems room items
  | _ => true

def checkItems (room : ℕ) : List Json → Bool
  | [] => true
  | item :: items => decide (0 < room) && checkShape (room - 1) item && checkItems room items

def checkMembers (room : ℕ) : List (Text × Json) → Bool
  | [] => true
  | (_, item) :: members => decide (0 < room) && checkShape (room - 1) item && checkMembers room members

end

/-- `check_material`: shape, then the size of the canonical text. -/
def checkMaterial (value : Json) (limit : ℕ) : Bool :=
  checkShape maxToolValueDepth value && decide (value.dumps.length ≤ limit)

/-- `PATH_SEGMENT_PATTERN`. -/
def isPathSegment (segment : Text) : Bool :=
  match segment with
  | [] => false
  | first :: rest =>
    (first.isAlphanum || first == '_') && rest.all (fun c => c.isAlphanum || "_.-".toList.contains c) &&
      decide (rest.length ≤ 63)

/-- `validate_binding_path`. -/
def validBindingPath (path : List (Text ⊕ ℤ)) : Bool :=
  decide (path ≠ [] ∧ path.length ≤ maxBindingPathSegments) &&
    path.all fun segment =>
      match segment with
      | .inl key => decide (key.length ≤ maxBindingPathSegmentChars) && isPathSegment key
      | .inr index => decide (0 ≤ index ∧ index ≤ maxBindingArrayIndex)

namespace PlanValidator

variable (v : PlanValidator)

/-- `self._tools.get(name)`; of two descriptors of one name the last. -/
def tool? (name : Text) : Option ToolDescriptor :=
  v.tools.reverse.find? fun descriptor => decide (descriptor.name = name)

def operation? (call : PlannedToolCall) : Option ToolOperationDescriptor :=
  (v.tool? call.name).bind fun descriptor => descriptor.operation call.operation

/-- One binding, after the arguments bound before it. -/
def validateBinding (task : SubmittedTask) (call : PlannedToolCall) (bound : List Text)
    (binding : DependencyBinding) : Except FirewallFailure (List Text) := do
  refuse (binding.argument ∈ bound) .toolBindingDuplicate
  refuse (binding.argument ∈ call.arguments.map Prod.fst) .toolBindingConflict
  refuse (binding.taskId ∉ task.dependencies) .toolBindingUnknownDependency
  refuse (validBindingPath binding.path = false) .toolBindingPathInvalid
  pure (bound ++ [binding.argument])

/-- `_validate_call_arguments`. -/
def validateCallArguments (task : SubmittedTask) (call : PlannedToolCall) (schema : InputSchema) :
    Except FirewallFailure Unit := do
  refuse (maxToolArgumentKeys < call.arguments.length) .toolArgumentsTooLarge
  refuse (checkMaterial (.obj call.arguments) maxToolInputJsonBytes = false) .toolArgumentsTooLarge
  let bound ← call.dependencyBindings.foldlM (validateBinding task call) []
  let supplied := call.arguments.map Prod.fst ++ bound
  refuse ((∃ name ∈ supplied, name ∉ schema.properties.map Prod.fst) ∨
    ∃ name ∈ schema.required, name ∉ supplied) .toolArgumentsInvalid
  refuse (v.validateJsonSchema
    (schema.properties.filter fun p => decide (p.1 ∈ call.arguments.map Prod.fst)) call.arguments = false)
    .toolArgumentsInvalid

/-- One planned call, after the call ids seen before it. -/
def validateToolCall (task : SubmittedTask) (seen : List Text) (call : PlannedToolCall) :
    Except FirewallFailure (List Text) := do
  refuse (call.callId ∈ seen) .duplicateToolCallId
  let descriptor ← required (v.tool? call.name) (.refused .toolNotAllowlisted)
  let operation ← required (descriptor.operation call.operation) (.refused .toolOperationUnknown)
  v.validateCallArguments task call operation.inputSchema
  match v.callRules.findSome? fun rule => rule call with
  | some reason => .error (.refused reason)
  | none => pure (seen ++ [call.callId])

def validateToolCalls (task : SubmittedTask) : Except FirewallFailure Unit := do
  let _ ← task.tools.foldlM (v.validateToolCall task) []
  pure ()

/-- The task requires evidence. -/
def requiresEvidence (task : SubmittedTask) : Bool :=
  decide (0 < task.evidence.minimumSources) || !task.evidence.requiredFields.isEmpty

/-- `_validate_evidence_tool`: some call of the task may produce evidence. -/
def validateEvidenceTool (task : SubmittedTask) : Except FirewallFailure Unit :=
  refuse (requiresEvidence task = true ∧ task.tools ≠ [] ∧
    ∀ call ∈ task.tools, (v.operation? call).bind ToolOperationDescriptor.producesEvidence = some false)
    .evidenceRequiresEvidenceTool

/-- What a call's operation states of its evidence: nothing, or the fields it can carry. -/
def statedEvidence (call : PlannedToolCall) : Option (List Text) :=
  (v.operation? call).bind fun operation =>
    match operation.producesEvidence with
    | none => none
    | some false => some []
    | some true => operation.evidenceFields

/-- `_validate_evidence_fields`: every required field is one the calls can carry, if all of them say. -/
def validateEvidenceFields (task : SubmittedTask) : Except FirewallFailure Unit :=
  match task.tools.mapM v.statedEvidence with
  | none => pure ()
  | some stated =>
    refuse (task.evidence.requiredFields ≠ [] ∧ task.tools ≠ [] ∧ stated.flatten ≠ [] ∧
      ∃ field ∈ task.evidence.requiredFields, field ∉ stated.flatten) .evidenceFieldNotProducible

end PlanValidator

/-! ## 3. The validation -/

/-- A binding as the plan's dump writes it. -/
def DependencyBinding.dump (binding : DependencyBinding) : Json :=
  .obj [("argument".toList, .str binding.argument), ("task_id".toList, .str binding.taskId.toList),
    ("path".toList, .arr (binding.path.map fun segment =>
      match segment with
      | .inl key => .str key
      | .inr index => .int index))]

/-- `call.model_dump(mode="json")`. -/
def PlannedToolCall.dump (call : PlannedToolCall) : Json :=
  .obj [("call_id".toList, .str call.callId), ("name".toList, .str call.name),
    ("operation".toList, .str call.operation), ("arguments".toList, .obj call.arguments),
    ("dependency_bindings".toList, .arr (call.dependencyBindings.map DependencyBinding.dump))]

/-- `" ".join(text.casefold().split())`. -/
def foldedText (u : Unicode) (text : Text) : Text := joinWords (words (u.casefold text))

/-- What tells two tasks apart beyond their ids. -/
def taskSignature (u : Unicode) (task : SubmittedTask) : Text :=
  (Json.obj [("goal".toList, .str (foldedText u task.goal)), ("scope".toList, .str (foldedText u task.scope)),
    ("tools".toList, .arr (task.tools.map PlannedToolCall.dump)),
    ("output".toList, .obj task.outputSchema)]).dumps

/-- The texts of a list, as far as it is one. -/
def textItems : Json → List Text
  | .arr items => items.filterMap fun item =>
    match item with
    | .str text => some text
    | _ => none
  | _ => []

def memberNames : Json → List Text
  | .obj members => members.map Prod.fst
  | _ => []

/-- `output_schema["required"]` and the names of `output_schema["properties"]`. -/
def schemaRequired (schema : List (Text × Json)) : List Text :=
  ((schema.lookup "required".toList).map textItems).getD []

def schemaProperties (schema : List (Text × Json)) : List Text :=
  ((schema.lookup "properties".toList).map memberNames).getD []

/-- What the tasks read so far leave for the next. -/
structure TaskScan where
  ids : List String
  signatures : List Text
  toolCalls : ℕ

namespace PlanValidator

variable (v : PlanValidator)

/-- One task, after the tasks before it. -/
def validateTask (scan : TaskScan) (task : SubmittedTask) : Except FirewallFailure TaskScan := do
  refuse (task.taskId ∈ scan.ids) .duplicateTaskId
  refuse (taskSignature v.unicode task ∈ scan.signatures) .duplicateTaskSignature
  refuse (v.limits.maxRecursionDepth < task.recursionDepth) .recursionLimit
  refuse (task.completion.evidenceSatisfied = false ∧ requiresEvidence task = true)
    .evidenceCompletionMismatch
  refuse (v.outputSchemaIsRuntimeValid task.outputSchema = false) .outputSchemaNestedInvalid
  refuse (∃ name ∈ task.completion.requiredOutputs,
    name ∉ schemaRequired task.outputSchema ∨ name ∉ schemaProperties task.outputSchema)
    .requiredOutputNotInSchema
  refuse (v.limits.maxToolCallsPerTask < task.tools.length) .taskToolCallLimit
  v.validateToolCalls task
  v.validateEvidenceTool task
  v.validateEvidenceFields task
  pure
    { ids := scan.ids ++ [task.taskId]
      signatures := scan.signatures ++ [taskSignature v.unicode task]
      toolCalls := scan.toolCalls + task.tools.length }

/-- The dependencies of one task exist, and it is not among them. -/
def validateDependencies (plan : SubmittedPlan) (task : SubmittedTask) : Except FirewallFailure Unit := do
  refuse (∃ d ∈ task.dependencies, d ∉ plan.ids) .missingDependency
  refuse (task.taskId ∈ task.dependencies) .dependencyCycle

/-- `max(depth(task_id) for task_id in by_id)`; every task may be visited once more than there are tasks. -/
def graphDepth (plan : SubmittedPlan) : Except DepthError (ℕ × DepthState String) :=
  depthAll (depthFrom plan.dependencies (plan.ids.length + 1)) plan.ids 0 ⟨[], .empty⟩

/-- The checks of the graph. -/
def validateGraph (plan : SubmittedPlan) : Except FirewallFailure Unit := do
  plan.tasks.forM (validateDependencies plan)
  match graphDepth plan with
  | .error .cycle => .error (.refused .dependencyCycle)
  | .error .outOfFuel => .error .outOfFuel
  | .ok (depth, _) => refuse (v.limits.maxGraphDepth < depth) .graphDepthLimit

/-- `_dependency_closure`; each dependency of the graph is put on the stack once. -/
def dependencyClosure (plan : SubmittedPlan) (taskId : String) : Option (List String) :=
  reach plan.dependencies
    ((plan.dependencies taskId).length + unlooked plan.dependencies plan.ids [])
    (plan.dependencies taskId).reverse []

/-- An assignment shows its worker everything the task depends on. -/
def validateAssignment (plan : SubmittedPlan) (assignment : WorkerAssignment) : Except FirewallFailure Unit := do
  let dependencies ← required (dependencyClosure plan assignment.taskId) .outOfFuel
  refuse (∃ d ∈ dependencies, d ∉ assignment.contextTaskIds) .assignmentContextIncomplete

/-- `_validate_plan`. -/
def validatePlan (plan : SubmittedPlan) : Except FirewallFailure Unit := do
  refuse (v.limits.maxTasks < plan.tasks.length) .taskCountLimit
  refuse (v.limits.maxReplans < plan.maxReplans) .replanLimit
  refuse (v.limits.maxCostUnits < plan.estimatedCostUnits) .costLimit
  let calculatedCost := (plan.tasks.map SubmittedTask.estimatedCostUnits).sum
  refuse (v.limits.maxCostUnits < calculatedCost ∨ plan.estimatedCostUnits < calculatedCost) .costLimit
  let scan ← plan.tasks.foldlM v.validateTask ⟨[], [], 0⟩
  refuse (v.limits.maxToolCalls < scan.toolCalls) .aggregateToolCallLimit
  v.validateGraph plan
  plan.assignments.forM (validateAssignment plan)

end PlanValidator

/-! ## 4. What a validated plan is -/

/-- Everything the firewall promises of a plan it lets through. -/
structure SafePlan (limits : FirewallLimits) (plan : SubmittedPlan) : Prop where
  unique : plan.ids.Nodup
  exist : ∀ task ∈ plan.tasks, ∀ d ∈ task.dependencies, d ∈ plan.ids
  acyclic : Acyclic plan.dependencies
  shallow : ∀ tasks, IsChainOf plan.dependencies tasks → (∀ t ∈ tasks, t ∈ plan.ids) →
    tasks.length ≤ limits.maxGraphDepth
  contexts : ∀ assignment ∈ plan.assignments, ∀ d, Needs plan.dependencies assignment.taskId d →
    d ∈ assignment.contextTaskIds
  callsPerTask : ∀ task ∈ plan.tasks, task.tools.length ≤ limits.maxToolCallsPerTask
  calls : (plan.tasks.map fun task => task.tools.length).sum ≤ limits.maxToolCalls
  costs : (plan.tasks.map SubmittedTask.estimatedCostUnits).sum ≤ plan.estimatedCostUnits
  cost : plan.estimatedCostUnits ≤ limits.maxCostUnits
  count : plan.tasks.length ≤ limits.maxTasks
  replans : plan.maxReplans ≤ limits.maxReplans

/-- Some chain of the plan's tasks is longer than the limit. -/
def TooDeep (limits : FirewallLimits) (plan : SubmittedPlan) : Prop :=
  ∃ tasks, IsChainOf plan.dependencies tasks ∧ (∀ t ∈ tasks, t ∈ plan.ids) ∧
    limits.maxGraphDepth < tasks.length

/-- A plan that is let through is safe, and the graph is refused only for what it is. -/
structure Firewall (v : PlanValidator) (plan : SubmittedPlan) : Prop where
  safe : v.validatePlan plan = .ok () → SafePlan v.limits plan
  cycle : v.validateGraph plan = .error (.refused .dependencyCycle) → ¬Acyclic plan.dependencies
  deep : v.validateGraph plan = .error (.refused .graphDepthLimit) →
    Acyclic plan.dependencies ∧ TooDeep v.limits plan
  fuel : v.validatePlan plan ≠ .error .outOfFuel

/-! ## 5. The graph -/

section Graph

variable {v : PlanValidator} {plan : SubmittedPlan}

theorem mem_dependencies {taskId d : String} (h : d ∈ plan.dependencies taskId) :
    ∃ task ∈ plan.tasks, task.taskId = taskId ∧ d ∈ task.dependencies := by
  unfold SubmittedPlan.dependencies dependenciesIn at h
  split at h
  · cases h
  · rename_i found hfound
    obtain ⟨task, htask, rfl⟩ := List.mem_map.mp (List.mem_of_find?_eq_some hfound)
    have hid := List.find?_some hfound
    exact ⟨task, htask, of_decide_eq_true hid, h⟩

variable {task : SubmittedTask} {s : DepthState String}

theorem dependencies_of_mem (h : task ∈ plan.tasks) : plan.dependencies task.taskId = task.dependencies := by
  unfold SubmittedPlan.dependencies dependenciesIn
  have hmem : task.toDynamicTask ∈ plan.tasks.map SubmittedTask.toDynamicTask := List.mem_map_of_mem h
  cases hfound : (plan.tasks.map SubmittedTask.toDynamicTask).find? fun t => decide (t.taskId = task.taskId) with
  | none =>
    have hnone := List.find?_eq_none.mp hfound _ hmem
    exact absurd (decide_eq_true rfl) hnone
  | some found =>
    obtain ⟨other, hother, rfl⟩ := List.mem_map.mp (List.mem_of_find?_eq_some hfound)
    have hid := List.find?_some hfound
    have hsame := List.inj_on_of_nodup_map plan.unique hother h (of_decide_eq_true hid)
    rw [hsame]

/-- Every dependency is a task of the plan. -/
def Closed (plan : SubmittedPlan) : Prop := ∀ taskId d, d ∈ plan.dependencies taskId → d ∈ plan.ids

theorem validateDependencies_ok (h : PlanValidator.validateDependencies plan task = .ok ()) :
    (∀ d ∈ task.dependencies, d ∈ plan.ids) ∧ task.taskId ∉ task.dependencies := by
  rcases except_bind_eq_ok.mp h with ⟨_, hexist, hself⟩
  have hexist := refuseIf_eq_ok.mp hexist
  push Not at hexist
  exact ⟨hexist, refuseIf_eq_ok.mp hself⟩

theorem closed_of_checked (h : plan.tasks.forM (PlanValidator.validateDependencies plan) = .ok ()) :
    Closed plan := by
  intro taskId d hd
  obtain ⟨task, htask, _, hdep⟩ := mem_dependencies hd
  exact (validateDependencies_ok (forM_eq_ok.mp h task htask)).1 d hdep

theorem mem_ids_of_needs {a b : String} (h : Needs plan.dependencies a b) : a ∈ plan.ids := by
  induction h using Relation.TransGen.head_induction_on with
  | single hdep =>
    obtain ⟨task, htask, rfl, _⟩ := mem_dependencies hdep
    exact List.mem_map_of_mem htask
  | head hdep _ _ =>
    obtain ⟨task, htask, rfl, _⟩ := mem_dependencies hdep
    exact List.mem_map_of_mem htask

theorem remembers_empty (deps : String → List String) : Remembers deps ⟨[], .empty⟩ := by
  intro a d h
  cases h

/-- A depth that is found is the length of the longest chain, and there is no cycle. -/
theorem graphDepth_ok {depth : ℕ} (h : PlanValidator.graphDepth plan = .ok (depth, s)) :
    (∀ a ∈ plan.ids, ∃ d, HasHeight plan.dependencies a d ∧ d ≤ depth) ∧
      ∃ a ∈ plan.ids, HasHeight plan.dependencies a depth := by
  obtain ⟨_, _, hall, hmost⟩ := depthAll_ok (J := Remembers plan.dependencies)
    (P := HasHeight plan.dependencies) (fun b _ t d t' hb ht => depthFrom_hasHeight hb ht) h
    (remembers_empty _)
  refine ⟨hall, ?_⟩
  rcases hmost with rfl | hmost
  · -- A plan has a task, and the height of a task is not 0.
    obtain ⟨task, htask⟩ := List.exists_mem_of_ne_nil _ plan.stated
    have hid : task.taskId ∈ plan.ids := List.mem_map_of_mem htask
    obtain ⟨d, hd, hle⟩ := hall task.taskId hid
    have hzero : d = 0 := Nat.le_zero.mp hle
    rw [hzero] at hd
    exact ⟨task.taskId, hid, hd⟩
  · exact hmost

theorem acyclic_of_graphDepth {depth : ℕ} (h : PlanValidator.graphDepth plan = .ok (depth, s)) :
    Acyclic plan.dependencies := by
  intro a hcycle
  obtain ⟨d, hd, _⟩ := (graphDepth_ok h).1 a (mem_ids_of_needs hcycle)
  exact hd.not_needs hcycle

theorem graphDepth_cycle (h : PlanValidator.graphDepth plan = .error .cycle) :
    ¬Acyclic plan.dependencies := by
  obtain ⟨b, _, s, hs, herror⟩ := depthAll_error (J := fun s => s.visiting = [])
    (fun b _ t d t' hb ht => (depthFrom_visiting hb).trans ht) h rfl
  have hstack : Stacked plan.dependencies b s.visiting := by
    rw [hs]
    trivial
  obtain ⟨c, hc⟩ := depthFrom_cycle herror hstack
  exact fun hacyclic => hacyclic c hc

theorem graphDepth_fuel (hclosed : Closed plan) : PlanValidator.graphDepth plan ≠ .error .outOfFuel := by
  intro h
  obtain ⟨b, hb, s, hs, herror⟩ := depthAll_error (J := fun s => s.visiting = [])
    (fun b _ t d t' hb ht => (depthFrom_visiting hb).trans ht) h rfl
  refine depthFrom_enough (fun a _ d hd => hclosed a d hd) hb ?_ ?_ ?_ herror
  · rw [hs]
    exact fun c hc => absurd hc List.not_mem_nil
  · rw [hs]
    exact List.nodup_nil
  · rw [hs, List.length_nil]
    omega

/-- A closure that is found is everything the task needs. -/
theorem mem_dependencyClosure {taskId d : String} {found : List String}
    (h : PlanValidator.dependencyClosure plan taskId = some found) :
    d ∈ found ↔ Needs plan.dependencies taskId d := mem_reach_iff (reaching_start _ _) h

theorem dependencyClosure_isSome (hclosed : Closed plan) (taskId : String) :
    ∃ found, PlanValidator.dependencyClosure plan taskId = some found := by
  apply reach_isSome plan.unique (fun a _ d hd => hclosed a d hd)
  · exact fun d hd => hclosed taskId d (List.mem_reverse.mp hd)
  · rw [List.length_reverse]
    exact le_refl _

/-- Why the checks of the graph may refuse a plan. -/
def RefusesGraph (limits : FirewallLimits) (plan : SubmittedPlan) : FirewallFailure → Prop
  | .refused .missingDependency => ¬Closed plan
  | .refused .dependencyCycle => ¬Acyclic plan.dependencies
  | .refused .graphDepthLimit => Acyclic plan.dependencies ∧ TooDeep limits plan
  | _ => False

theorem validateDependencies_raises (htask : task ∈ plan.tasks) :
    RaisesOnly (RefusesGraph v.limits plan) (PlanValidator.validateDependencies plan task) := by
  have hdeps := dependencies_of_mem htask
  unfold PlanValidator.validateDependencies
  apply RaisesOnly.bind
  · apply raisesOnly_refuseIf
    rintro ⟨d, hd, hmissing⟩ hclosed
    rw [← hdeps] at hd
    exact hmissing (hclosed task.taskId d hd)
  · intro _ _
    apply raisesOnly_refuseIf
    intro hself hacyclic
    rw [← hdeps] at hself
    exact hacyclic.notMem_self task.taskId hself

theorem tooDeep_of_graphDepth {depth : ℕ} (hclosed : Closed plan)
    (h : PlanValidator.graphDepth plan = .ok (depth, s)) (hdeep : v.limits.maxGraphDepth < depth) :
    TooDeep v.limits plan := by
  obtain ⟨a, ha, hheight⟩ := (graphDepth_ok h).2
  obtain ⟨rest, hchain, hlength⟩ := hheight.reached
  refine ⟨a :: rest, hchain, ?_, ?_⟩
  · exact mem_of_isChainOf (fun b _ c hc => hclosed b c hc) ha hchain
  · rw [hlength]
    exact hdeep

theorem validateGraph_raises : RaisesOnly (RefusesGraph v.limits plan) (v.validateGraph plan) := by
  unfold PlanValidator.validateGraph
  apply RaisesOnly.bind
  · exact RaisesOnly.forM fun task htask => validateDependencies_raises htask
  · intro _ hchecked
    have hclosed := closed_of_checked hchecked
    cases hdepth : PlanValidator.graphDepth plan with
    | error e =>
      cases e with
      | cycle =>
        have hcycle : RefusesGraph v.limits plan (.refused .dependencyCycle) := graphDepth_cycle hdepth
        exact RaisesOnly.error hcycle
      | outOfFuel => exact absurd hdepth (graphDepth_fuel hclosed)
    | ok found =>
      obtain ⟨depth, s⟩ := found
      apply raisesOnly_refuseIf
      intro hdeep
      exact ⟨acyclic_of_graphDepth hdepth, tooDeep_of_graphDepth hclosed hdepth hdeep⟩

theorem validateGraph_ok (h : v.validateGraph plan = .ok ()) :
    Closed plan ∧ ∃ depth s, PlanValidator.graphDepth plan = .ok (depth, s) ∧ depth ≤ v.limits.maxGraphDepth := by
  rcases except_bind_eq_ok.mp h with ⟨_, hchecked, hdepth⟩
  refine ⟨closed_of_checked hchecked, ?_⟩
  cases hfound : PlanValidator.graphDepth plan with
  | error e =>
    rw [hfound] at hdepth
    cases e <;> cases hdepth
  | ok found =>
    obtain ⟨depth, s⟩ := found
    rw [hfound] at hdepth
    have hle := refuseIf_eq_ok.mp hdepth
    exact ⟨depth, s, rfl, not_lt.mp hle⟩

end Graph

/-! ## 6. The tasks -/

section Tasks

variable {v : PlanValidator} {task : SubmittedTask}

/-- A search that ran out of fuel is not among the failures of a check. -/
theorem refuse_raises {p : Prop} [Decidable p] {reason : PlanReason} :
    RaisesOnly (fun e => e ≠ .outOfFuel) (refuse p reason) := by
  apply raisesOnly_refuseIf
  intro _ h
  cases h

theorem validateCallArguments_raises {call : PlannedToolCall} {schema : InputSchema} :
    RaisesOnly (fun e => e ≠ .outOfFuel) (v.validateCallArguments task call schema) := by
  unfold PlanValidator.validateCallArguments
  refine refuse_raises.bind fun _ _ => refuse_raises.bind fun _ _ => RaisesOnly.bind ?_ ?_
  · apply RaisesOnly.foldlM
    intro binding _ bound
    unfold PlanValidator.validateBinding
    exact refuse_raises.bind fun _ _ => refuse_raises.bind fun _ _ => refuse_raises.bind fun _ _ =>
      refuse_raises.bind fun _ _ => RaisesOnly.ok _
  · exact fun bound _ => refuse_raises.bind fun _ _ => refuse_raises

theorem validateToolCall_raises {seen : List Text} {call : PlannedToolCall} :
    RaisesOnly (fun e => e ≠ .outOfFuel) (v.validateToolCall task seen call) := by
  unfold PlanValidator.validateToolCall
  refine refuse_raises.bind fun _ _ => RaisesOnly.bind ?_ fun descriptor _ => RaisesOnly.bind ?_ ?_
  · exact raisesOnly_required fun _ h => by cases h
  · exact raisesOnly_required fun _ h => by cases h
  · intro operation _
    apply validateCallArguments_raises.bind
    intro _ _
    split
    · exact RaisesOnly.error fun h => by cases h
    · exact RaisesOnly.ok _

variable {scan : TaskScan}

theorem validateTask_raises : RaisesOnly (fun e => e ≠ .outOfFuel) (v.validateTask scan task) := by
  have hfields : RaisesOnly (fun e => e ≠ .outOfFuel) (v.validateEvidenceFields task) := by
    unfold PlanValidator.validateEvidenceFields
    split
    · exact RaisesOnly.ok _
    · exact refuse_raises
  have hcalls : RaisesOnly (fun e => e ≠ .outOfFuel) (v.validateToolCalls task) := by
    unfold PlanValidator.validateToolCalls
    apply RaisesOnly.bind
    · exact RaisesOnly.foldlM (fun call _ seen => validateToolCall_raises) _
    · exact fun _ _ => RaisesOnly.ok _
  unfold PlanValidator.validateTask
  -- The checks of the task's own fields, then its calls, then its evidence.
  refine refuse_raises.bind fun _ _ => refuse_raises.bind fun _ _ => refuse_raises.bind fun _ _ =>
    refuse_raises.bind fun _ _ => refuse_raises.bind fun _ _ => refuse_raises.bind fun _ _ =>
    refuse_raises.bind fun _ _ => hcalls.bind fun _ _ => ?_
  exact refuse_raises.bind fun _ _ => hfields.bind fun _ _ => RaisesOnly.ok _

theorem validateTask_ok {scan' : TaskScan} (h : v.validateTask scan task = .ok scan') :
    task.tools.length ≤ v.limits.maxToolCallsPerTask ∧
      scan'.toolCalls = scan.toolCalls + task.tools.length := by
  rcases except_bind_eq_ok.mp h with ⟨_, _, h⟩
  rcases except_bind_eq_ok.mp h with ⟨_, _, h⟩
  rcases except_bind_eq_ok.mp h with ⟨_, _, h⟩
  rcases except_bind_eq_ok.mp h with ⟨_, _, h⟩
  rcases except_bind_eq_ok.mp h with ⟨_, _, h⟩
  rcases except_bind_eq_ok.mp h with ⟨_, _, h⟩
  rcases except_bind_eq_ok.mp h with ⟨_, hcalls, h⟩
  rcases except_bind_eq_ok.mp h with ⟨_, _, h⟩
  rcases except_bind_eq_ok.mp h with ⟨_, _, h⟩
  rcases except_bind_eq_ok.mp h with ⟨_, _, h⟩
  cases h
  exact ⟨not_lt.mp (refuseIf_eq_ok.mp hcalls), rfl⟩

/-- The calls that are counted are the calls of the tasks. -/
theorem validateTasks_ok {tasks : List SubmittedTask} {scan' : TaskScan}
    (h : tasks.foldlM v.validateTask scan = .ok scan') :
    (∀ task ∈ tasks, task.tools.length ≤ v.limits.maxToolCallsPerTask) ∧
      scan'.toolCalls = scan.toolCalls + (tasks.map fun task => task.tools.length).sum := by
  induction tasks generalizing scan with
  | nil =>
    cases h
    exact ⟨fun task htask => absurd htask List.not_mem_nil, rfl⟩
  | cons task rest ih =>
    rw [List.foldlM_cons] at h
    rcases except_bind_eq_ok.mp h with ⟨scan1, hfirst, hrest⟩
    obtain ⟨hper, hcount⟩ := validateTask_ok hfirst
    obtain ⟨hall, htotal⟩ := ih hrest
    refine ⟨List.forall_mem_cons.mpr ⟨hper, hall⟩, ?_⟩
    rw [htotal, hcount, List.map_cons, List.sum_cons]
    omega

end Tasks

/-! ## 7. The firewall -/

section Firewall

variable {v : PlanValidator} {plan : SubmittedPlan}

/-- What a plan passed before its graph was looked at. -/
structure PassedTasks (v : PlanValidator) (plan : SubmittedPlan) : Prop where
  count : plan.tasks.length ≤ v.limits.maxTasks
  replans : plan.maxReplans ≤ v.limits.maxReplans
  cost : plan.estimatedCostUnits ≤ v.limits.maxCostUnits
  costs : (plan.tasks.map SubmittedTask.estimatedCostUnits).sum ≤ plan.estimatedCostUnits
  callsPerTask : ∀ task ∈ plan.tasks, task.tools.length ≤ v.limits.maxToolCallsPerTask
  calls : (plan.tasks.map fun task => task.tools.length).sum ≤ v.limits.maxToolCalls

theorem validatePlan_ok (h : v.validatePlan plan = .ok ()) :
    PassedTasks v plan ∧ v.validateGraph plan = .ok () ∧
      ∀ assignment ∈ plan.assignments, PlanValidator.validateAssignment plan assignment = .ok () := by
  rcases except_bind_eq_ok.mp h with ⟨_, hcount, h⟩
  rcases except_bind_eq_ok.mp h with ⟨_, hreplans, h⟩
  rcases except_bind_eq_ok.mp h with ⟨_, hcost, h⟩
  rcases except_bind_eq_ok.mp h with ⟨_, hcosts, h⟩
  rcases except_bind_eq_ok.mp h with ⟨scan, htasks, h⟩
  rcases except_bind_eq_ok.mp h with ⟨_, hcalls, h⟩
  rcases except_bind_eq_ok.mp h with ⟨_, hgraph, hassigned⟩
  have hcosts := refuseIf_eq_ok.mp hcosts
  rw [not_or, not_lt, not_lt] at hcosts
  obtain ⟨hper, htotal⟩ := validateTasks_ok htasks
  have hcalls := not_lt.mp (refuseIf_eq_ok.mp hcalls)
  rw [htotal, Nat.zero_add] at hcalls
  refine ⟨?_, hgraph, forM_eq_ok.mp hassigned⟩
  exact
    { count := not_lt.mp (refuseIf_eq_ok.mp hcount)
      replans := not_lt.mp (refuseIf_eq_ok.mp hreplans)
      cost := not_lt.mp (refuseIf_eq_ok.mp hcost)
      costs := hcosts.2
      callsPerTask := hper
      calls := hcalls }

/-- An assignment that passes shows its worker everything the task needs. -/
theorem validateAssignment_ok {assignment : WorkerAssignment}
    (h : PlanValidator.validateAssignment plan assignment = .ok ()) {d : String}
    (hd : Needs plan.dependencies assignment.taskId d) : d ∈ assignment.contextTaskIds := by
  rcases except_bind_eq_ok.mp h with ⟨found, hfound, hshown⟩
  have hmem := (mem_dependencyClosure (required_eq_ok.mp hfound)).mpr hd
  have hshown := refuseIf_eq_ok.mp hshown
  push Not at hshown
  exact hshown d hmem

theorem safePlan_of_validatePlan (h : v.validatePlan plan = .ok ()) : SafePlan v.limits plan := by
  obtain ⟨hpassed, hgraph, hassigned⟩ := validatePlan_ok h
  obtain ⟨hclosed, depth, s, hdepth, hle⟩ := validateGraph_ok hgraph
  exact
    { unique := plan.unique
      exist := by
        intro task htask d hd
        rw [← dependencies_of_mem htask] at hd
        exact hclosed task.taskId d hd
      acyclic := acyclic_of_graphDepth hdepth
      shallow := by
        intro tasks hchain hids
        cases tasks with
        | nil => exact Nat.zero_le _
        | cons a rest =>
          obtain ⟨d, hd, hdle⟩ := (graphDepth_ok hdepth).1 a (hids a List.mem_cons_self)
          exact (hd.bound rest hchain).trans (hdle.trans hle)
      contexts := fun assignment hmem d hd => validateAssignment_ok (hassigned assignment hmem) hd
      callsPerTask := hpassed.callsPerTask
      calls := hpassed.calls
      costs := hpassed.costs
      cost := hpassed.cost
      count := hpassed.count
      replans := hpassed.replans }

theorem validatePlan_fuel : v.validatePlan plan ≠ .error .outOfFuel := by
  have hraises : RaisesOnly (fun e => e ≠ .outOfFuel) (v.validatePlan plan) := by
    unfold PlanValidator.validatePlan
    refine refuse_raises.bind fun _ _ => refuse_raises.bind fun _ _ => refuse_raises.bind fun _ _ =>
      refuse_raises.bind fun _ _ => RaisesOnly.bind ?_ fun scan _ => refuse_raises.bind fun _ _ => ?_
    · exact RaisesOnly.foldlM (fun task _ scan => validateTask_raises) _
    · apply RaisesOnly.bind
      · intro e he heq
        rw [heq] at he
        exact validateGraph_raises _ he
      · -- The graph has passed, so every closure is found.
        intro _ hgraph
        apply RaisesOnly.forM
        intro assignment _
        obtain ⟨found, hfound⟩ := dependencyClosure_isSome (validateGraph_ok hgraph).1 assignment.taskId
        unfold PlanValidator.validateAssignment
        rw [hfound]
        exact refuse_raises
  exact fun h => hraises _ h rfl

/-- The firewall lets through safe plans only, and refuses a graph only for what it is. -/
theorem firewall (v : PlanValidator) (plan : SubmittedPlan) : Firewall v plan where
  safe := safePlan_of_validatePlan
  cycle := fun h => validateGraph_raises _ h
  deep := fun h => validateGraph_raises _ h
  fuel := validatePlan_fuel

/-- A plan that is let through is a graph the executor accepts. -/
def SafePlan.graph {limits : FirewallLimits} (h : SafePlan limits plan) : TaskGraph where
  tasks := plan.tasks.map SubmittedTask.toDynamicTask
  unique := by
    rw [List.map_map]
    exact h.unique
  closed := by
    intro taskId d hd
    obtain ⟨task, htask, _, hdep⟩ := mem_dependencies hd
    rw [List.map_map]
    exact h.exist task htask d hdep
  acyclic := h.acyclic

end Firewall

end Milo.Swarm
