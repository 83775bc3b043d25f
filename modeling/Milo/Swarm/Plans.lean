import Milo.Swarm.Builder
import Milo.Swarm.Executor

/-!
# Plans — approved plans, what they may cost and what they leave open

A plan the firewall accepted, the worst case it is admitted under, the coverage gaps its results
leave and the conditions of the one correction round.
-/

namespace Milo.Swarm

open Milo.Python Milo.Reasoning

/-! ## 1. Plans -/

structure EvidenceRequirement where
  minimumSources : ℕ
  requiredFields : List Text
  minConfidence : PyFloat
  deriving DecidableEq

structure CompletionCriteria where
  requiredOutputs : List Text
  evidenceSatisfied : Bool
  allowPartial : Bool
  deriving DecidableEq

deriving instance DecidableEq for DynamicTask

/-- A task of a plan; `rest` is the canonical text of the members nothing here reads. -/
structure PlannedTask extends DynamicTask where
  tools : List Text
  evidence : EvidenceRequirement
  estimatedCostUnits : ℕ
  completion : CompletionCriteria
  rest : Text
  deriving DecidableEq

structure CommanderPlan where
  tasks : List PlannedTask
  maxReplans : ℕ

namespace CommanderPlan

variable (plan : CommanderPlan)

def task? (taskId : String) : Option PlannedTask :=
  plan.tasks.find? fun task => decide (task.taskId = taskId)

/-- The tasks still to be executed. -/
def pending (completed : List String) : List PlannedTask :=
  plan.tasks.filter fun task => decide (task.taskId ∉ completed)

end CommanderPlan

/-- `PlanLimits`, the part that bounds the run loop. -/
structure PlanLimits where
  maxReplans : ℕ

/-- A plan the firewall accepted under `limits`. -/
structure AcceptedPlan (limits : PlanLimits) extends CommanderPlan where
  graph : TaskGraph
  graph_tasks : graph.tasks = tasks.map PlannedTask.toDynamicTask
  replans_le : maxReplans ≤ limits.maxReplans

theorem AcceptedPlan.graph_ids {limits : PlanLimits} (plan : AcceptedPlan limits) :
    plan.graph.ids = plan.tasks.map fun task => task.taskId := by
  unfold TaskGraph.ids
  rw [plan.graph_tasks, List.map_map]
  rfl

/-- The executor starts with exactly the pending tasks. -/
theorem AcceptedPlan.length_pending {limits : PlanLimits} (plan : AcceptedPlan limits)
    (completed : List String) :
    (plan.graph.ids.filter fun taskId => decide (taskId ∉ completed)).length =
      (plan.pending completed).length := by
  rw [plan.graph_ids, List.filter_map, List.length_map]
  rfl

/-- `ADD_TASKS` and `REVISE_TASK`. -/
inductive ReplanKind
  | addTasks
  | reviseTask
  deriving DecidableEq, Repr

/-- A decision of the Commander carries a replacement plan exactly where one is needed. -/
inductive CommanderDecision (limits : PlanLimits)
  | replace (kind : ReplanKind) (plan : AcceptedPlan limits) (reason : Text)
  | requestVerification (reason : Text)
  | finish (reason : Text)

/-! ## 2. The worst case of a plan -/

structure RemainingBudget where
  costUnits : ℕ
  toolCalls : ℕ
  tasks : ℕ
  modelCalls : ℕ
  retries : ℕ
  agentSteps : ℕ

structure WorstCase where
  modelCalls : ℕ
  agentSteps : ℕ
  retries : ℕ
  providerAttempts : ℕ
  deriving DecidableEq, Repr

def maxCorrectionRounds : ℕ := 1

def minCorrectionModelCalls : ℕ := 3

def maxWorkerOutputModelAttempts : ℕ := 2

def maxCommanderPlanRepairs : ℕ := 1

def minVerifierBatches : ℕ := 1

def minimumViableModelCalls : ℕ := 4

/-- Bound one plan's remaining cost. -/
def planWorstCase (pendingTasks maxReplans maxRateLimitRetries verifierBatches : ℕ) : WorstCase :=
  let batches := max minVerifierBatches verifierBatches
  let workerRepairs := pendingTasks * (maxWorkerOutputModelAttempts - 1)
  let commanderDecisions := maxReplans + 1
  let correction := minCorrectionModelCalls * maxCorrectionRounds
  let modelCalls := pendingTasks + workerRepairs + commanderDecisions + batches + correction +
    maxCommanderPlanRepairs
  { modelCalls := modelCalls
    agentSteps := modelCalls
    retries := workerRepairs + maxCommanderPlanRepairs
    providerAttempts := modelCalls * (1 + maxRateLimitRetries) }

theorem planWorstCase_modelCalls (pendingTasks maxReplans : ℕ) :
    (planWorstCase pendingTasks maxReplans 0 minVerifierBatches).modelCalls =
      2 * pendingTasks + maxReplans + 6 := by
  show pendingTasks + pendingTasks * 1 + (maxReplans + 1) + 1 + 3 + 1 = _
  omega

theorem planWorstCase_agentSteps (pendingTasks maxReplans retries batches : ℕ) :
    (planWorstCase pendingTasks maxReplans retries batches).agentSteps =
      (planWorstCase pendingTasks maxReplans retries batches).modelCalls := rfl

def envelopeSupportsARun (remaining : RemainingBudget) : Prop :=
  minimumViableModelCalls ≤ remaining.modelCalls ∧
    minimumViableModelCalls ≤ remaining.agentSteps ∧ 1 ≤ remaining.tasks

instance : DecidablePred envelopeSupportsARun := fun _ => by
  unfold envelopeSupportsARun
  infer_instance

/-- The plan's remaining tasks do not fit what remains of the budget. -/
def ExceedsBudget (plan : CommanderPlan) (completed : List String) (completedCost : ℕ)
    (remaining : RemainingBudget) : Prop :=
  let pending := plan.pending completed
  let worst := planWorstCase pending.length plan.maxReplans 0 minVerifierBatches
  remaining.costUnits - completedCost < (pending.map PlannedTask.estimatedCostUnits).sum ∨
    remaining.toolCalls < (pending.map fun task => task.tools.length).sum ∨
    remaining.tasks < pending.length ∨
    remaining.modelCalls < worst.modelCalls ∨
    remaining.agentSteps < worst.agentSteps

instance (plan : CommanderPlan) (completed : List String) (completedCost : ℕ)
    (remaining : RemainingBudget) :
    Decidable (ExceedsBudget plan completed completedCost remaining) := by
  unfold ExceedsBudget
  infer_instance

/-! ## 3. Coverage gaps -/

/-- The outcome of one `resolve_variant` call. -/
inductive ResolutionOutcome
  | resolved
  | unresolvedAmbiguous
  | unresolvedNotFound
  deriving DecidableEq, Repr

structure CandidateOutcome where
  taskId : String
  callId : String
  outcome : ResolutionOutcome
  registerFieldsAbsent : List Text
  deriving DecidableEq

/-- What a worker's completed task hands over. -/
structure TaskAnswer where
  output : List (Text × Json)
  resolutions : List CandidateOutcome

inductive GapCode
  | requiredOutputMissing
  | candidateUnresolvedAmbiguous
  | candidateUnresolvedNotFound
  | evidenceRequirementsUnmet
  | registerFieldAbsent
  deriving DecidableEq, Repr

/-- `SOFT_GAP_CODES`. -/
def GapCode.soft : GapCode → Bool
  | .candidateUnresolvedAmbiguous => true
  | .candidateUnresolvedNotFound => true
  | .registerFieldAbsent => true
  | _ => false

structure Gap where
  taskId : String
  code : GapCode
  deriving DecidableEq, Repr

/-- The distinct unresolved kinds among the outcomes, in the order of their texts. -/
def unresolvedKinds (outcomes : List CandidateOutcome) : List GapCode :=
  (if outcomes.any fun o => decide (o.outcome = .unresolvedAmbiguous)
    then [.candidateUnresolvedAmbiguous] else []) ++
  (if outcomes.any fun o => decide (o.outcome = .unresolvedNotFound)
    then [.candidateUnresolvedNotFound] else [])

/-- Every resolved outcome says its row lacks the field; without one, no field is absent. -/
def fieldAbsent (outcomes : List CandidateOutcome) (field : Text) : Bool :=
  let rows := outcomes.filter fun o => decide (o.outcome = .resolved)
  !rows.isEmpty && rows.all fun o => o.registerFieldsAbsent.contains field

/-- The gap of a task whose evidence requirement is not met, if it is one. -/
def evidenceGap (task : PlannedTask) (refs : List EvidenceReference)
    (outcomes : List CandidateOutcome) : Option GapCode :=
  let eligible := refs.filter fun item =>
    decide (item.taskId = task.taskId.toList) && item.supported &&
      decide (task.evidence.minConfidence.value ≤ item.confidence.value)
  let sources := (eligible.map EvidenceReference.sourceId).dedup
  let missing := task.evidence.requiredFields.filter fun field =>
    !(eligible.map EvidenceReference.field).contains field
  if sources.length < task.evidence.minimumSources ∨ missing ≠ [] then
    if unresolvedKinds outcomes ≠ [] then none
    else if task.evidence.minimumSources ≤ sources.length ∧ missing.all (fieldAbsent outcomes) then
      some .registerFieldAbsent
    else some .evidenceRequirementsUnmet
  else none

/-- The gaps of one completed task. -/
def taskGaps (task : PlannedTask) (output : List (Text × Json)) (refs : List EvidenceReference)
    (outcomes : List CandidateOutcome) : List GapCode :=
  if task.completion.requiredOutputs.any fun name => !(output.map Prod.fst).contains name then
    [.requiredOutputMissing]
  else
    unresolvedKinds outcomes ++
      if task.completion.evidenceSatisfied then (evidenceGap task refs outcomes).toList else []

/-- Every coverage gap of the completed tasks, hard and soft. -/
def coverageGaps (plan : CommanderPlan) (results : Results TaskAnswer)
    (evidence : List EvidenceReference) (resolutions : Dict String (List CandidateOutcome)) :
    List Gap :=
  plan.tasks.flatMap fun task =>
    match results.get? task.taskId with
    | none => []
    | some result =>
      if result.status = .completed then
        let output := (result.output.map TaskAnswer.output).getD []
        (taskGaps task output evidence ((resolutions.get? task.taskId).getD [])).map
          fun code => ⟨task.taskId, code⟩
      else []

/-! ## 4. The correction round -/

inductive IssueCode
  | unresolvedConflict
  | structuredMismatch
  | missingEvidence
  | unverified
  deriving DecidableEq, Repr

/-- `_ISSUE_BY_REASON`. -/
def issueByReason : List (String × IssueCode) :=
  [("unresolved conflict", .unresolvedConflict),
    ("SOURCE_CONTEXT_UNAVAILABLE", .missingEvidence),
    ("R4_VALUE_MISMATCH", .structuredMismatch),
    ("R4_VALUE_NOT_COMPARABLE", .structuredMismatch),
    ("R4_UNIT_MISSING", .structuredMismatch),
    ("R4_UNIT_NOT_CONVERTIBLE", .structuredMismatch),
    ("R4_FIELD_NOT_IN_SOURCE", .structuredMismatch),
    ("R4_SCOPE_MISMATCH", .structuredMismatch),
    ("R4_IDENTITY_MISMATCH", .structuredMismatch),
    ("R4_SOURCE_VERSION_MISMATCH", .structuredMismatch),
    ("R4_AMBIGUOUS_SOURCE_FACT", .unresolvedConflict),
    ("R4_AMBIGUOUS_SUPPORT_EVIDENCE", .unverified),
    ("source evidence is insufficient or ambiguous", .unverified),
    ("source evidence does not support claim", .unverified),
    ("verifier omitted claim", .unverified)]

/-- The claims the correction issues are built from, each with its issue. -/
def correctionIssues (references : List EvidenceReference) (verdicts : List VerificationVerdict) :
    List (IssueCode × EvidenceReference) :=
  let byClaim := currentVerdictByClaim verdicts
  (sortOn EvidenceReference.claimId references).filterMap fun reference =>
    match byClaim.get? reference.claimId with
    | none => none
    | some verdict =>
      if verdict.verdict = .verified then none
      else (issueByReason.lookup verdict.reason).map fun code => (code, reference)

/-- Why a correction round was refused. -/
inductive CorrectionBlock
  | allowanceSpent
  | noTaskBudget
  | noToolCallBudget
  | noModelCallBudget
  | noRetryBudget
  | noCostBudget
  | noReplanBudget
  deriving DecidableEq, Repr

/-- The run's one correction round has been finally answered. -/
def correctionPathClosed (roundsUsed : ℕ) (declined : Bool) : Bool :=
  declined || decide (maxCorrectionRounds ≤ roundsUsed)

/-- Why no further correction round may start; `none` when one may. -/
def correctionAllowance (roundsUsed : ℕ) (remaining : RemainingBudget)
    (replansUsed maxReplans : ℕ) : Option CorrectionBlock :=
  if maxCorrectionRounds ≤ roundsUsed then some .allowanceSpent
  else if remaining.tasks < 1 then some .noTaskBudget
  else if remaining.toolCalls < 1 then some .noToolCallBudget
  else if remaining.modelCalls < minCorrectionModelCalls then some .noModelCallBudget
  else if remaining.retries < 1 then some .noRetryBudget
  else if remaining.costUnits < 1 then some .noCostBudget
  else if maxReplans ≤ replansUsed then some .noReplanBudget
  else none

/-- A round is allowed only before the first one, within the plan's replans. -/
theorem correctionAllowance_eq_none {roundsUsed replansUsed maxReplans : ℕ}
    {remaining : RemainingBudget}
    (h : correctionAllowance roundsUsed remaining replansUsed maxReplans = none) :
    roundsUsed < maxCorrectionRounds ∧ replansUsed < maxReplans := by
  unfold correctionAllowance at h
  split at h
  · cases h
  · rename_i hrounds
    iterate 5
      split at h
      · cases h
    split at h
    · cases h
    · rename_i hreplans
      exact ⟨not_le.mp hrounds, not_le.mp hreplans⟩

end Milo.Swarm
