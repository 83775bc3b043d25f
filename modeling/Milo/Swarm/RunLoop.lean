import Milo.Swarm.RunState

/-!
# RunLoop — one run of the engine, from its checkpoint to its result

`SwarmV2Engine.run`: plan or resume, then execute the graph, ask whether to replan, verify, and
offer the one correction round, until a pass neither replans nor corrects.  A task's model calls
are made when the task is handed to its worker; the executor collects the result later, as the
threads of the pool do.
-/

namespace Milo.Swarm

open Milo.Python Milo.Reasoning

/-! ## 1. The engine and its capabilities -/

/-- How the sink answers: the checkpoint is durable, or durable although the sink then raised. -/
inductive SaveReply
  | stored
  | storedThenRaised (fault : RunFault)

/-- What one pass of the executor finds: an order of the remaining set, and finished futures. -/
structure PassChoice where
  iterate : List String → List String
  finished : List String → List String
  iterate_perm : ∀ remaining, (iterate remaining).Perm remaining
  finished_nodup : ∀ running, (finished running).Nodup
  finished_subset : ∀ running, finished running ⊆ running

structure RunEngine (limits : PlanLimits) (Y : Type) where
  runId : Text
  gateway : Gateway Y
  worker : Worker Y
  commander : Commander limits Y
  maxActiveWorkers : ℕ
  /-- The passes an execution makes before it ends or the process does. -/
  passes : Action Y RunFault (List PassChoice)
  unicode : Unicode
  sha256 : Text → Text
  resolver : List EvidenceReference → Action Y RunFault (Text → Option ResolvedSourceEvidence)
  verifierRetry : CompletionCode → Action Y RunFault PUnit
  verifierShape : CallShape
  verifierEscalate : CallShape → Option CallShape
  remainingBudget : Action Y RunFault RemainingBudget
  usageSnapshot : Action Y RunFault (List (Text × Json))
  loadEvidence : Results TaskAnswer → Action Y RunFault (List EvidenceReference)
  verdictSink : VerificationVerdict → Action Y RunFault PUnit
  resolutionSink : ConflictResolution → Action Y RunFault PUnit
  ledgerSink : String → Action Y RunFault PUnit
  emit : String → Action Y RunFault PUnit
  save : RunState → Action Y RunFault SaveReply
  /-- `safe_durable_value` over a task's output. -/
  durableOutput : List (Text × Json) → Except RunFault PUnit
  /-- The canonical text of a reference. -/
  canonical : EvidenceReference → Text
  /-- A deterministic step may still raise on what it is given. -/
  deterministicStep : String → Action Y RunFault PUnit
  /-- The canonical payload with the candidate outcomes, the reduced one and the static one. -/
  build : RunState → List VerificationVerdict → List CandidateOutcome → Except RunFault Json
  buildReduced : RunState → Except RunFault Json
  buildStatic : RunState → Json

/-- A computation of the run: the run state, and the world around it. -/
abbrev RunM (Y : Type) (α : Type) := Action (RunState × World Y) RunFault α

namespace RunEngine

variable {limits : PlanLimits} {Y : Type} (engine : RunEngine limits Y)

def current : RunM Y RunState := do
  let s ← Action.get
  pure s.1

def update (f : RunState → RunState) : RunM Y PUnit := Action.modify fun s => (f s.1, s.2)

/-- Call a capability. -/
def call {α : Type} (c : Action Y RunFault α) : RunM Y α := Action.outside (World.lift c)

def note (event : RunEvent) : RunM Y PUnit := Action.outside (World.record event)

/-- `_save`. -/
def saveCheckpoint (state : RunState) : Action (World Y) RunFault PUnit := do
  match ← World.lift (engine.save state) with
  | .stored => World.record (.checkpointSaved state)
  | .storedThenRaised fault => do
    World.record (.checkpointSaved state)
    Action.raise fault

def saveState : RunM Y PUnit := do
  let state ← current
  Action.outside (engine.saveCheckpoint state)

def refreshUsage : RunM Y PUnit := do
  let usage ← call engine.usageSnapshot
  update fun state => { state with usageSnapshot := usage }

def emitAll (kind : String) : ℕ → RunM Y PUnit
  | 0 => pure ⟨⟩
  | n + 1 => do
    call (engine.emit kind)
    emitAll kind n

/-! ## 2. Evidence -/

/-- One reference into the merged evidence. -/
def mergeOne (runId : Text) (completed : List String) (fromCheckpoint : Bool)
    (merged : Dict Text (Text × EvidenceReference)) (item : EvidenceReference) :
    Except RunFault (Dict Text (Text × EvidenceReference)) :=
  if item.runId ≠ runId then .error (.value "incompatible evidence provenance")
  else if ¬(completed.map String.toList).contains item.taskId then
    if fromCheckpoint then .error (.value "incompatible evidence provenance") else .ok merged
  else
    let encoded := engine.canonical item
    match merged.get? item.claimId with
    | none => .ok (merged.set item.claimId (encoded, item))
    | some previous =>
      if previous.1 ≠ encoded then .error (.value "conflicting evidence reference identity")
      else .ok (merged.set item.claimId (encoded, item))

def mergeAll (runId : Text) (completed : List String) (fromCheckpoint : Bool) :
    List EvidenceReference → Dict Text (Text × EvidenceReference) →
      Except RunFault (Dict Text (Text × EvidenceReference))
  | [], merged => .ok merged
  | item :: rest, merged => do
    let merged ← engine.mergeOne runId completed fromCheckpoint merged item
    mergeAll runId completed fromCheckpoint rest merged

/-- `_merge_evidence`: checkpointed references first, then the live ones. -/
def mergeEvidence (incoming : List EvidenceReference) (completed : List String) :
    RunM Y (List EvidenceReference) := do
  let state ← current
  let merged ← Action.ofExcept do
    let checkpointed ← engine.mergeAll state.runId completed true state.evidenceReferences
      Dict.empty
    engine.mergeAll state.runId completed false incoming checkpointed
  let evidence := (sortOn Prod.fst merged.entries).map fun e => e.2.2
  update fun state => { state with evidenceReferences := evidence }
  pure evidence

/-! ## 3. Feasibility -/

/-- `by_id[task_id]` for each completed task. -/
def completedSpecs (plan : CommanderPlan) (completed : List String) :
    Except RunFault (List PlannedTask) :=
  completed.mapM fun taskId => required (plan.task? taskId) .other

/-- `_check_feasible`. -/
def checkFeasible (plan : CommanderPlan) (completed : Results TaskAnswer) : RunM Y PUnit := do
  let remaining ← call engine.remainingBudget
  let specs ← Action.ofExcept (completedSpecs plan completed.keys)
  let completedCost := (specs.map PlannedTask.estimatedCostUnits).sum
  let pending := (plan.pending completed.keys).length
  if ExceedsBudget plan completed.keys completedCost remaining then do
    note (.feasibilityChecked pending plan.maxReplans false)
    Action.raise (.value "plan exceeds remaining budget")
  else note (.feasibilityChecked pending plan.maxReplans true)

/-! ## 4. Executing the graph -/

/-- The executor, what the futures of its pool hold, and the results already persisted. -/
structure Pool where
  state : ExecutorState TaskAnswer
  replies : List (String × Except RunFault (TaskResult TaskAnswer))
  persisted : Results TaskAnswer

/-- A completed task enters the run state. -/
def storeResult (result : TaskResult TaskAnswer) (state : RunState) : RunState :=
  let answer := result.output.getD ⟨[], []⟩
  { state with
    completedTaskIds :=
      (state.completedTaskIds ++ [result.taskId]).insertionSort fun a b => a ≤ b
    taskOutputs := state.taskOutputs.set result.taskId answer.output
    taskResolutions := if answer.resolutions.isEmpty then state.taskResolutions
      else state.taskResolutions.set result.taskId answer.resolutions }

/-- `persist`: result, evidence and usage are durable together. -/
def persist (result : TaskResult TaskAnswer) (persisted : Results TaskAnswer) : RunM Y PUnit := do
  Action.ofExcept (engine.durableOutput (result.output.getD ⟨[], []⟩).output)
  update (storeResult result)
  let incoming ← call (engine.loadEvidence persisted)
  let _ ← engine.mergeEvidence incoming persisted.keys
  call (engine.ledgerSink "task_completed")
  engine.refreshUsage
  engine.saveState

/-- Hand one task to a worker of the pool. -/
def startTask (plan : AcceptedPlan limits) (taskId : String) (pool : Pool) : RunM Y Pool := do
  call (engine.emit "task_ready")
  call (engine.emit "task_started")
  let task ← Action.ofExcept (required (plan.task? taskId) .other)
  note (.taskStarted taskId)
  let reply ← Action.outside (engine.worker.execute engine.gateway task
    (pool.state.results.outputs (plan.graph.dependencies taskId)))
  pure { pool with
    state := submitTask plan.graph pool.state taskId
    replies := pool.replies ++ [(taskId, reply)] }

/-- Submit ready tasks, in heap order, while a worker is free. -/
def submitTasks (plan : AcceptedPlan limits) : List String → Pool → RunM Y Pool
  | [], pool => pure pool
  | taskId :: ready, pool =>
    if pool.state.running.length < engine.maxActiveWorkers then
      if taskId ∈ pool.state.remaining then do
        let pool ← engine.startTask plan taskId pool
        submitTasks plan ready pool
      else submitTasks plan ready pool
    else pure pool

/-- Record one finished future; a completed task is persisted. -/
def collectResult (taskId : String) (result : TaskResult TaskAnswer) (pool : Pool) :
    RunM Y Pool := do
  let recorded := recordResult pool.state result
  let replies := pool.replies.filter fun reply => decide (reply.1 ≠ taskId)
  if result.status = .completed then do
    call (engine.emit "task_completed")
    let persisted := pool.persisted.set result.taskId result
    engine.persist result persisted
    pure ⟨recorded, replies, persisted⟩
  else do
    call (engine.emit "task_failed")
    pure ⟨recorded, replies, pool.persisted⟩

def collectResults : List String → Pool → RunM Y Pool
  | [], pool => pure pool
  | taskId :: done, pool =>
    match pool.replies.lookup taskId with
    | none => collectResults done pool
    | some (.error fault) => Action.raise fault
    | some (.ok result) => do
      let pool ← engine.collectResult taskId result pool
      collectResults done pool

/-- The pool after the scan of a pass, and the tasks the scan found ready. -/
def scanPool (plan : AcceptedPlan limits) (pass : PassChoice) (pool : Pool) :
    Pool × List String :=
  let scan := scanTasks plan.graph pool.state.results pool.state.remaining
    (pass.iterate pool.state.remaining)
  ({ pool with
      state := { pool.state with results := scan.results, remaining := scan.remaining } },
    scan.ready.insertionSort (heapLE plan.graph))

def runPasses (plan : AcceptedPlan limits) : List PassChoice → Pool → RunM Y (Results TaskAnswer)
  | [], _ => Action.raise .infrastructure
  | pass :: passes, pool =>
    if pool.state.remaining = [] ∧ pool.state.running = [] then pure pool.state.results
    else do
      Action.outside engine.gateway.checkCancelled
      let scanned := scanPool plan pass pool
      let pool ← engine.submitTasks plan scanned.2 scanned.1
      if pool.state.running = [] then
        if pool.state.remaining = [] then pure pool.state.results
        else Action.raise (.value "task graph is cyclic or has missing dependencies")
      else do
        let pool ← engine.collectResults (pass.finished pool.state.runningIds) pool
        runPasses plan passes pool

/-- `BoundedTaskExecutor.execute`, with the engine's callbacks. -/
def executeTasks (plan : AcceptedPlan limits) (completed : Results TaskAnswer) :
    RunM Y (Results TaskAnswer) :=
  if Resumable plan.graph completed then do
    let passes ← call engine.passes
    engine.runPasses plan passes ⟨initialState plan.graph completed, [], completed⟩
  else Action.raise (.value "resume results are incompatible with task graph")

def idsWith (status : TaskStatus) (results : Results TaskAnswer) : List String :=
  (results.filter fun _ result => decide (result.status = status)).keys

/-- A task that ran and failed is a consumption of the run. -/
def consumeFailures : List String → RunM Y PUnit
  | [] => pure ⟨⟩
  | _ :: rest => do
    call (engine.ledgerSink "task_failed")
    consumeFailures rest

def executeGraph (plan : AcceptedPlan limits) (completed : Results TaskAnswer) :
    RunM Y (Results TaskAnswer) := do
  let state ← current
  note (.graphExecuted state.graphRevision)
  let results ← engine.executeTasks plan completed
  engine.consumeFailures (idsWith .failed results)
  pure results

/-! ## 5. What a pass found -/

structure Findings where
  completed : Results TaskAnswer
  failed : List String
  evidence : List EvidenceReference
  conflictIds : List Text
  gaps : List Gap

/-- The run has something a replan could address. -/
def Findings.Unresolved (findings : Findings) : Prop :=
  findings.failed ≠ [] ∨ findings.gaps ≠ [] ∨ findings.conflictIds ≠ []

instance (findings : Findings) : Decidable findings.Unresolved := by
  unfold Findings.Unresolved
  infer_instance

/-- `_degrade`: record one degraded step, once. -/
def degradeStep (step code : String) (state : RunState) : RunState :=
  let entry : DegradedStep := ⟨step, code, state.graphRevision⟩
  if state.degradedSteps.contains entry then state
  else { state with degradedSteps := state.degradedSteps ++ [entry] }

/-- A deterministic step whose failure degrades the run once there is evidence. -/
def guarded {α : Type} (step code : String) (evidence : List EvidenceReference)
    (fallback value : α) : RunM Y α := do
  match ← Action.attempt (call (engine.deterministicStep step)) with
  | .ok _ => pure value
  | .error fault =>
    if fault.notDegradable = true ∨ evidence = [] then Action.raise fault
    else do
      update (degradeStep step code)
      pure fallback

def assess (plan : AcceptedPlan limits) (results : Results TaskAnswer) : RunM Y Findings := do
  let completed := results.filter fun _ result => decide (result.status = .completed)
  let incoming ← call (engine.loadEvidence results)
  let evidence ← engine.mergeEvidence incoming completed.keys
  engine.emitAll "evidence_added" evidence.length
  let conflictIds ← engine.guarded "conflict_detection" "CONFLICT_DETECTION_FAILED" evidence []
    (conflictMembers engine.unicode evidence)
  engine.emitAll "conflict_found" conflictIds.dedup.length
  let failed := results.keys.filter fun taskId => decide (taskId ∉ completed.keys)
  let state ← current
  let gaps ← engine.guarded "coverage_check" "COVERAGE_CHECK_FAILED" evidence []
    (coverageGaps plan.toCommanderPlan results evidence state.taskResolutions)
  let _ ← call engine.remainingBudget
  pure ⟨completed, failed, evidence, conflictIds, gaps⟩

/-! ## 6. Replanning -/

/-- `_reject_replan`: one rejected decision is checkpointed and charged as a replan. -/
def rejectReplan (code : String) (correctionRound : Option ℕ) : RunM Y PUnit := do
  update fun state =>
    { state with replans := state.replans ++ [.rejected code state.graphRevision correctionRound] }
  call (engine.ledgerSink "replan")
  engine.refreshUsage
  engine.saveState

/-- `_replan_or_reject`: with evidence in hand an invalid answer is rejected, not raised. -/
def replanOrReject (evidence : List EvidenceReference) (correctionRound : Option ℕ) :
    RunM Y (Option (CommanderDecision limits)) := do
  match ← Action.attempt (Action.outside (engine.commander.replan engine.gateway)) with
  | .ok decision => pure (some decision)
  | .error fault =>
    match fault.rejectableCode with
    | none => Action.raise fault
    | some code =>
      if evidence = [] then Action.raise fault
      else do
        engine.rejectReplan code correctionRound
        pure none

/-- `_completed_tasks_unchanged`. -/
def completedTasksUnchanged (plan replacement : CommanderPlan) (completed : List String) : Bool :=
  completed.all fun taskId =>
    (replacement.task? taskId).isSome &&
      decide (plan.task? taskId = replacement.task? taskId)

/-- `_replan_refusal`: the rule a replacement plan breaks, with its error. -/
def replanRefusal (plan replacement : AcceptedPlan limits) (completed : Results TaskAnswer) :
    RunM Y (Option (String × RunFault)) :=
  if completedTasksUnchanged plan.toCommanderPlan replacement.toCommanderPlan completed.keys then do
    match ← Action.attempt (engine.checkFeasible replacement.toCommanderPlan completed) with
    | .ok _ => pure none
    | .error fault =>
      if fault.isValueError then pure (some ("SWARM_V2_REPLAN_INFEASIBLE", fault))
      else Action.raise fault
  else
    pure (some ("SWARM_V2_REPLAN_REWRITES_COMPLETED",
      .execution "SWARM_V2_REPLAN_REWRITES_COMPLETED"))

/-- The rules a replan before verification has to meet. -/
def ordinaryRefusal (plan replacement : AcceptedPlan limits) (findings : Findings) :
    RunM Y (Option (String × RunFault)) := do
  let state ← current
  if ¬findings.Unresolved then
    pure (some ("SWARM_V2_REPLAN_REQUIRES_GAP", .execution "SWARM_V2_REPLAN_REQUIRES_GAP"))
  else if plan.maxReplans ≤ state.replans.length then
    pure (some ("SWARM_V2_MAX_REPLANS_EXCEEDED", .execution "SWARM_V2_MAX_REPLANS_EXCEEDED"))
  else engine.replanRefusal plan replacement findings.completed

/-- The run state with an accepted replacement plan. -/
def acceptedState (kind : ReplanKind) (replacement : AcceptedPlan limits) (reason : Text)
    (correctionRound : Option ℕ) (state : RunState) : RunState :=
  { state with
    replans := state.replans ++ [.accepted kind reason correctionRound]
    correctionRounds := if correctionRound.isSome then state.correctionRounds + 1
      else state.correctionRounds
    graphRevision := state.graphRevision + 1
    approvedPlan := some replacement.toCommanderPlan }

/-- Accept a replacement plan: charged, announced and checkpointed. -/
def acceptReplan (kind : ReplanKind) (replacement : AcceptedPlan limits) (reason : Text)
    (correctionRound : Option ℕ) : RunM Y PUnit := do
  update (acceptedState kind replacement reason correctionRound)
  call (engine.ledgerSink (if correctionRound.isSome then "correction_round" else "replan"))
  engine.refreshUsage
  call (engine.emit "commander_replanned")
  engine.saveState

/-- Settle a proposed plan against its refusal: rejected, raised or accepted. -/
def settleProposal (evidence : List EvidenceReference) (kind : ReplanKind)
    (replacement : AcceptedPlan limits) (reason : Text) (correctionRound : Option ℕ) :
    Option (String × RunFault) → RunM Y (Option (AcceptedPlan limits))
  | some (code, fault) =>
    if evidence = [] then Action.raise fault
    else do
      engine.rejectReplan code correctionRound
      pure none
  | none => do
    engine.acceptReplan kind replacement reason correctionRound
    pure (some replacement)

/-- The replan decision before verification; a closed path asks nothing. -/
def decideReplan (findings : Findings) : RunM Y (Option (CommanderDecision limits)) := do
  let state ← current
  if state.Answered then do
    call (engine.emit "correction_round_finalizing")
    pure none
  else if state.replanRejectedForPass then pure none
  else engine.replanOrReject findings.evidence none

/-- The replan before verification: the plan to go on with, if one was accepted. -/
def replanPass (plan : AcceptedPlan limits) (findings : Findings) :
    RunM Y (Option (AcceptedPlan limits)) := do
  match ← engine.decideReplan findings with
  | some (.replace kind replacement reason) => do
    let refusal ← engine.ordinaryRefusal plan replacement findings
    engine.settleProposal findings.evidence kind replacement reason none refusal
  | _ => pure none

/-! ## 7. Verification and the correction round -/

/-- The verification step, given the part of the run state it does not touch. -/
def verificationEngine (base : RunState) : Engine (World Y) where
  verifier :=
    { unicode := engine.unicode
      sha256 := engine.sha256
      resolve := fun claims =>
        Action.mapError RunFault.toFailure (World.lift (engine.resolver claims))
      call := fun payload shape =>
        Action.mapError RunFault.toFailure (engine.gateway.call .verifier payload shape)
      retryCallback := fun code =>
        Action.mapError RunFault.toFailure (World.lift (engine.verifierRetry code))
      initialShape := engine.verifierShape
      escalate := engine.verifierEscalate }
  remainingModelCalls := Action.mapError RunFault.toFailure do
    let remaining ← World.lift engine.remainingBudget
    pure remaining.modelCalls
  usageSnapshot := Action.mapError RunFault.toFailure (World.lift engine.usageSnapshot)
  verdictSink := fun verdict =>
    Action.mapError RunFault.toFailure (World.lift (engine.verdictSink verdict))
  resolutionSink := fun resolution =>
    Action.mapError RunFault.toFailure (World.lift (engine.resolutionSink resolution))
  emit := fun kind => Action.mapError RunFault.toFailure (World.lift (engine.emit kind))
  save := fun state =>
    Action.mapError RunFault.toFailure (engine.saveCheckpoint { base with toSwarmState := state })

/-- Run a step of verification on its part of the run state. -/
def inVerification {α : Type} (step : Step (World Y) α) : RunM Y α :=
  Action.mapError RunFault.verification
    (Action.zoom (fun s : RunState × World Y => (s.1.toSwarmState, s.2))
      (fun part s => ({ s.1 with toSwarmState := part.1 }, part.2)) step)

/-- How many batches the pass partitions its claims into; none if it makes no pass. -/
def batchCount (evidence : List EvidenceReference) (conflictIds : List Text)
    (s : RunState × World Y) : ℕ :=
  if Engine.alreadyDegraded s.1.toSwarmState then 0
  else
    match ((engine.verificationEngine s.1).preparePass evidence conflictIds).result
      (s.1.toSwarmState, s.2) with
    | .ok plan => plan.batches.length
    | .error _ => 0

/-- `_verify_or_degrade`, with a note of how many batches it partitioned its claims into. -/
def verifyPass (findings : Findings) :
    RunM Y (List ConflictResolution × List VerificationVerdict × Bool) := do
  let s ← Action.get
  let outcome ← Action.attempt (inVerification
    ((engine.verificationEngine s.1).verifyOrDegrade findings.evidence findings.conflictIds))
  note (.batchesPartitioned (engine.batchCount findings.evidence findings.conflictIds s))
  Action.ofExcept outcome

/-- The Commander chose not to research the findings. -/
def declineCorrection : RunM Y PUnit := do
  update fun state => { state with correctionDeclined := true }
  call (engine.emit "correction_round_declined")
  engine.saveState

/-- Ask for the correction decision and settle the answer. -/
def askCorrection (plan : AcceptedPlan limits) (findings : Findings) (round : ℕ) :
    RunM Y (Option (AcceptedPlan limits)) := do
  call (engine.emit "correction_round_started")
  note (.correctionAsked round)
  match ← engine.replanOrReject findings.evidence (some round) with
  | none => pure none
  | some (.replace kind replacement reason) => do
    let refusal ← engine.replanRefusal plan replacement findings.completed
    engine.settleProposal findings.evidence kind replacement reason (some round) refusal
  | some _ => do
    engine.declineCorrection
    pure none

/-- `_start_correction_round`: spend the run's one bounded round, or not. -/
def startCorrectionRound (plan : AcceptedPlan limits) (findings : Findings)
    (verdicts : List VerificationVerdict) : RunM Y (Option (AcceptedPlan limits)) := do
  let state ← current
  if state.correctionDeclined = true ∨ state.correctionRejected = true then pure none
  else if (correctionIssues findings.evidence verdicts).isEmpty then pure none
  else do
    let remaining ← call engine.remainingBudget
    match correctionAllowance state.correctionRounds remaining state.replans.length
      plan.maxReplans with
    | some _ => do
      call (engine.emit "correction_round_blocked")
      pure none
    | none => engine.askCorrection plan findings (state.correctionRounds + 1)

/-! ## 8. The loop -/

/-- A required task failed, or left a hard gap. -/
def hardFailure (plan : AcceptedPlan limits) (findings : Findings) : Option RunFault :=
  let partialAllowed (taskId : String) : Bool :=
    (plan.task? taskId).any fun task => task.completion.allowPartial
  if findings.failed.any fun taskId => !partialAllowed taskId then
    some (.execution "SWARM_V2_REQUIRED_TASK_FAILED")
  else if findings.gaps.any fun gap => !gap.code.soft && !partialAllowed gap.taskId then
    some (.execution "SWARM_V2_COMPLETION_CRITERIA_UNMET")
  else none

/-- With nothing usable a required failure fails the run. -/
def refuseHardFailure (plan : AcceptedPlan limits) (findings : Findings) : RunM Y PUnit :=
  match hardFailure plan findings with
  | some fault => if findings.evidence = [] then Action.raise fault else pure ⟨⟩
  | none => pure ⟨⟩

/-- The typed outcomes of the plan's completed tasks. -/
def candidateOutcomes (plan : AcceptedPlan limits) (findings : Findings) (state : RunState) :
    List CandidateOutcome :=
  (plan.tasks.filter fun task => decide (task.taskId ∈ findings.completed.keys)).flatMap
    fun task => (state.taskResolutions.get? task.taskId).getD []

/-- `_finalize`: the canonical payload, or a reduced valid one. -/
def finalize (findings : Findings) (verdicts : List VerificationVerdict)
    (outcomes : List CandidateOutcome) : RunM Y Json := do
  let state ← current
  match engine.build state verdicts outcomes with
  | .ok final => pure final
  | .error fault =>
    if fault.notDegradable = true ∨ findings.evidence = [] then Action.raise fault
    else do
      update (degradeStep "final_build" "FINAL_BUILD_DEGRADED")
      let state ← current
      match engine.build state verdicts [] with
      | .ok final => pure final
      | .error fault =>
        if fault.notDegradable = true then Action.raise fault
        else
          match engine.buildReduced state with
          | .ok final => pure final
          | .error fault =>
            if fault.notDegradable = true then Action.raise fault
            else pure (engine.buildStatic state)

def finish (plan : AcceptedPlan limits) (findings : Findings)
    (verdicts : List VerificationVerdict) : RunM Y Json := do
  let state ← current
  let outcomes ← engine.guarded "candidate_outcomes" "CANDIDATE_OUTCOMES_FAILED" findings.evidence
    [] (candidateOutcomes plan findings state)
  engine.finalize findings verdicts outcomes

/-- The second half of a pass: verify, and correct or finish. -/
def concludePass (plan : AcceptedPlan limits) (findings : Findings) :
    RunM Y (AcceptedPlan limits ⊕ Json) := do
  refuseHardFailure plan findings
  let (_, verdicts, degraded) ← engine.verifyPass findings
  let correction ← if degraded then pure none
    else engine.startCorrectionRound plan findings verdicts
  match correction with
  | some replacement => pure (.inl replacement)
  | none => do
    let final ← engine.finish plan findings verdicts
    pure (.inr final)

/-- One round of `while True`. -/
def pass (head : AcceptedPlan limits × Results TaskAnswer) :
    RunM Y ((AcceptedPlan limits × Results TaskAnswer) ⊕ Json) := do
  let results ← engine.executeGraph head.1 head.2
  let findings ← engine.assess head.1 results
  match ← engine.replanPass head.1 findings with
  | some replacement => pure (.inl (replacement, findings.completed))
  | none => do
    match ← engine.concludePass head.1 findings with
    | .inl replacement => pure (.inl (replacement, findings.completed))
    | .inr final => pure (.inr final)

/-- The results a checkpoint restores. -/
def restoredResults (state : RunState) : Results TaskAnswer :=
  (state.taskOutputs.filter fun taskId _ => decide (taskId ∈ state.completedTaskIds)).mapValues
    fun taskId output => ⟨taskId, .completed, some ⟨output, []⟩, none⟩

/-- Everything from the first feasibility check on. -/
def continueRun (rounds : ℕ) (plan : AcceptedPlan limits) : RunM Y Json := do
  let state ← current
  let completed := restoredResults state
  engine.checkFeasible plan.toCommanderPlan completed
  Action.loop .exhausted engine.pass rounds (plan, completed)

/-- `SwarmState.resume`. -/
def resume (saved : RunState) : Except RunFault RunState := do
  refuseIf (maxCorrectionRounds < saved.correctionRounds) (.value "incompatible checkpoint")
  refuseIf (saved.runId ≠ engine.runId) (.value "incompatible Swarm V2 checkpoint")
  refuseIf (¬saved.completedTaskIds.Nodup) (.value "checkpoint contains duplicate completed tasks")
  pure saved

/-- The state of a run that has just been planned. -/
def plannedState (plan : AcceptedPlan limits) (usage : List (Text × Json)) : RunState where
  graphRevision := 1
  verifierState := Dict.empty
  verifierGroundingVersion := 0
  verifierContractVersion := ""
  conflictResolutions := []
  degradedSteps := []
  usageSnapshot := usage
  runId := engine.runId
  approvedPlan := some plan.toCommanderPlan
  completedTaskIds := []
  taskOutputs := Dict.empty
  taskResolutions := Dict.empty
  evidenceReferences := []
  replans := []
  correctionRounds := 0
  correctionDeclined := false

/-- Plan a run that has no checkpoint. -/
def planRun : Action (World Y) RunFault (RunState × AcceptedPlan limits) := do
  let remaining ← World.lift engine.remainingBudget
  Action.ofExcept (refuseIf (¬envelopeSupportsARun remaining)
    (.value "run budget cannot support any plan"))
  let plan ← engine.commander.plan engine.gateway
  let usage ← World.lift engine.usageSnapshot
  let state := engine.plannedState plan usage
  World.lift (engine.emit "commander_plan_created")
  engine.saveCheckpoint state
  pure (state, plan)

/-- Resume a run from its checkpoint. -/
def resumeRun (saved : RunState) : Except RunFault (RunState × AcceptedPlan limits) := do
  let state ← engine.resume saved
  let plan ← engine.commander.validateSavedPlan state.approvedPlan
  pure (state, plan)

/-- Run with a run state of its own; what remains of it is what was checkpointed. -/
def withState {α : Type} (state : RunState) (c : RunM Y α) : Action (World Y) RunFault α :=
  fun w => ((c (state, w)).1, (c (state, w)).2.2)

/-- `SwarmV2Engine.run`, from the last checkpoint; at most `rounds` rounds of its loop. -/
def run (rounds : ℕ) : Action (World Y) RunFault Json := do
  let w ← Action.get
  let begun ← match lastCheckpoint w.journal with
    | some saved => Action.ofExcept (engine.resumeRun saved)
    | none => engine.planRun
  withState begun.1 (engine.continueRun rounds begun.2)

/-- The life of a run: so many invocations, each from the checkpoint the ones before it left. -/
def life (rounds : ℕ) : ℕ → World Y → World Y
  | 0, w => w
  | invocations + 1, w => (engine.run rounds).after (life rounds invocations w)

end RunEngine

end Milo.Swarm
