import Milo.Swarm.Builder
import Milo.Swarm.Verifier

/-!
# Verification — the verification step of a run

The engine plans a pass, commits what the plan settles to the checkpointed state, runs the batches
and records each.  With evidence in hand a failure does not fail the run: what the checkpoint holds
for the evidence is what the run goes on with.
-/

namespace Milo.Swarm

open Milo.Python Milo.Reasoning

/-! ## 1. The run state -/

/-- The codes a verification step degrades with. -/
inductive DegradedCode
  | verifierFailed
  | verificationBudgetInsufficient
  deriving DecidableEq, Repr

def DegradedCode.text : DegradedCode → String
  | .verifierFailed => "VERIFIER_FAILED"
  | .verificationBudgetInsufficient => "VERIFICATION_BUDGET_INSUFFICIENT"

/-- One entry of `degraded_steps`. -/
structure DegradedStep where
  step : String
  code : String
  graphRevision : ℕ
  deriving DecidableEq

/-- The part of the run state that verification reads and writes. -/
structure SwarmState where
  graphRevision : ℕ
  verifierState : Dict Text StoredVerdict
  verifierGroundingVersion : ℕ
  verifierContractVersion : String
  conflictResolutions : List ConflictResolution
  degradedSteps : List DegradedStep
  usageSnapshot : List (Text × Json)

namespace SwarmState

variable (state : SwarmState)

/-- This pass already degraded with `code`. -/
def stepDegraded (code : DegradedCode) : Bool :=
  state.degradedSteps.any fun entry =>
    decide (entry.code = code.text ∧ entry.graphRevision = state.graphRevision)

/-- Record one degraded step, once. -/
def degrade (code : DegradedCode) : SwarmState :=
  let entry : DegradedStep := ⟨"verification", code.text, state.graphRevision⟩
  if state.degradedSteps.contains entry then state
  else { state with degradedSteps := state.degradedSteps ++ [entry] }

/-- The grounded verdicts already durable for this evidence set. -/
def settledVerdicts (evidence : List EvidenceReference) : List VerificationVerdict :=
  if state.verifierGroundingVersion ≠ Swarm.verifierGroundingVersion then []
  else
    let claims := evidence.map EvidenceReference.claimId
    (sortOn Prod.fst state.verifierState.entries).filterMap fun e =>
      if claims.contains e.1 then e.2 else none

def storeVerdict (verdict : VerificationVerdict) : SwarmState :=
  { state with verifierState := state.verifierState.set verdict.claimId (some verdict) }

/-- The checkpointed verdicts of a plan replace whatever the state held. -/
def commit (plan : GroundedVerificationPlan) : SwarmState :=
  { state with
    verifierState := Dict.ofList (plan.settled.map fun v => (v.claimId, some v))
    verifierGroundingVersion := Swarm.verifierGroundingVersion
    verifierContractVersion := Swarm.verifierContractVersion
    conflictResolutions := plan.resolutions }

/-- One verdict for each claim, by the shared resolution. -/
def complete (verdicts : List VerificationVerdict) : SwarmState :=
  { state with
    verifierState :=
      Dict.ofList ((currentVerdictByClaim verdicts).entries.map fun e => (e.1, some e.2)) }

end SwarmState

/-! ## 2. The engine -/

/-- The engine with its injected capabilities; none of them writes the run state. -/
structure Engine (X : Type) where
  verifier : Verifier X
  remainingModelCalls : Action X Failure ℕ
  usageSnapshot : Action X Failure (List (Text × Json))
  verdictSink : VerificationVerdict → Action X Failure PUnit
  resolutionSink : ConflictResolution → Action X Failure PUnit
  emit : String → Action X Failure PUnit
  save : SwarmState → Action X Failure PUnit

/-- A computation of the engine: the run state, and whatever its capabilities keep. -/
abbrev Step (X : Type) (α : Type) := Action (SwarmState × X) Failure α

namespace Engine

variable {X : Type} (engine : Engine X)

def runState : Step X SwarmState := do
  let w ← Action.get
  pure w.1

def update (f : SwarmState → SwarmState) : Step X PUnit := Action.modify fun w => (f w.1, w.2)

/-- The verifier as the engine runs it: its capabilities leave the run state alone. -/
def stepVerifier : Verifier (SwarmState × X) where
  unicode := engine.verifier.unicode
  sha256 := engine.verifier.sha256
  resolve := fun claims => Action.outside (engine.verifier.resolve claims)
  call := fun payload shape => Action.outside (engine.verifier.call payload shape)
  retryCallback := fun code => Action.outside (engine.verifier.retryCallback code)
  initialShape := engine.verifier.initialShape
  escalate := engine.verifier.escalate

def persistVerdicts : List VerificationVerdict → Step X PUnit
  | [] => pure ⟨⟩
  | verdict :: rest => do
    Action.outside (engine.verdictSink verdict)
    persistVerdicts rest

def announceResolutions : List ConflictResolution → Step X PUnit
  | [] => pure ⟨⟩
  | resolution :: rest => do
    Action.outside (engine.resolutionSink resolution)
    Action.outside (engine.emit "conflict_resolution_recorded")
    announceResolutions rest

def refreshUsage : Step X PUnit := do
  let usage ← Action.outside engine.usageSnapshot
  update fun state => { state with usageSnapshot := usage }

def saveState : Step X PUnit := do
  let state ← runState
  Action.outside (engine.save state)

/-- A completed batch is announced; the settled verdicts before the first one are not. -/
def announceBatch (progress : VerifierProgress) : Step X PUnit :=
  if 1 ≤ progress.batchIndex then Action.outside (engine.emit "verification_batch_completed")
  else pure ⟨⟩

/-- `record`: validated verdicts, the usage snapshot and the checkpoint move together. -/
def record (progress : VerifierProgress) : Step X PUnit := do
  update fun state => progress.verdicts.foldl SwarmState.storeVerdict state
  engine.persistVerdicts progress.verdicts
  engine.refreshUsage
  engine.saveState
  engine.announceBatch progress

/-- Plan the pass; a plan whose batches cannot be paid for is refused. -/
def preparePass (evidence : List EvidenceReference) (conflictIds : List Text) :
    Step X GroundedVerificationPlan := do
  let state ← runState
  let plan ← Action.outside (engine.verifier.prepare evidence conflictIds state.verifierState
    state.verifierGroundingVersion)
  let calls ← Action.outside engine.remainingModelCalls
  Action.ofExcept (refuseIf (calls < plan.batches.length) .budgetInsufficient)
  pure plan

/-- Everything from the commit of the plan on. -/
def executePass (plan : GroundedVerificationPlan) :
    Step X (List ConflictResolution × List VerificationVerdict) := do
  update fun state => state.commit plan
  engine.announceResolutions plan.resolutions
  Action.outside (engine.emit "grounding_context_resolved")
  let verdicts ← engine.stepVerifier.verifyPrepared engine.record plan
  update fun state => state.complete verdicts
  engine.persistVerdicts verdicts
  engine.refreshUsage
  Action.outside (engine.emit "verification_completed")
  engine.saveState
  pure (plan.resolutions, verdicts)

/-- Verify every claim under an exact, resumable model-call budget. -/
def runVerification (evidence : List EvidenceReference) (conflictIds : List Text) :
    Step X (List ConflictResolution × List VerificationVerdict) := do
  let plan ← engine.preparePass evidence conflictIds
  engine.executePass plan

/-- What a failure degrades to, if it is not left fatal. -/
def degradedCode (evidence : List EvidenceReference) : Failure → Option DegradedCode
  | .notDegradable => none
  | .verifier reason => if evidence.isEmpty || reason.ofState then none else some .verifierFailed
  | .budgetInsufficient =>
    if evidence.isEmpty then none else some .verificationBudgetInsufficient
  | _ => if evidence.isEmpty then none else some .verifierFailed

/-- Go on with the verdicts already settled. -/
def degradeAndSettle (code : DegradedCode) (evidence : List EvidenceReference) :
    Step X (List ConflictResolution × List VerificationVerdict × Bool) := do
  update fun state => state.degrade code
  let state ← runState
  let verdicts := state.settledVerdicts evidence
  engine.persistVerdicts verdicts
  engine.refreshUsage
  engine.saveState
  pure ([], verdicts, true)

/-- The pass, its failures degraded. -/
def attemptPass (evidence : List EvidenceReference) (conflictIds : List Text) :
    Step X (List ConflictResolution × List VerificationVerdict × Bool) := do
  match ← Action.attempt (engine.runVerification evidence conflictIds) with
  | .ok (resolutions, verdicts) => pure (resolutions, verdicts, false)
  | .error failure =>
    match degradedCode evidence failure with
    | none => Action.raise failure
    | some code => engine.degradeAndSettle code evidence

/-- The step of this graph revision is already recorded as degraded. -/
def alreadyDegraded (state : SwarmState) : Bool :=
  state.stepDegraded .verifierFailed || state.stepDegraded .verificationBudgetInsufficient

/-- Final verification that never discards the run's paid work. -/
def verifyOrDegrade (evidence : List EvidenceReference) (conflictIds : List Text) :
    Step X (List ConflictResolution × List VerificationVerdict × Bool) := do
  let state ← runState
  if alreadyDegraded state then pure ([], state.settledVerdicts evidence, true)
  else engine.attemptPass evidence conflictIds

end Engine

end Milo.Swarm
