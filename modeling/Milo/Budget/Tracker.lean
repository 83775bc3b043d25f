import Milo.Reasoning.Action
import Milo.Reasoning.Binary64
import Milo.Reasoning.Dict
import Milo.Budget.ModelProfile

/-!
# Tracker — the run's budget tracker

The hard server-side budget of a run: `openCall` admits one model call and holds the capacity it
may use, `settleCall` releases what that call held and records what it used, and the search pair
does the same for standalone searches.  Every injected collaborator (checks, cost providers,
reservers, recorders, the event emitter) is a value of `Collaborators`, stated afresh for each
operation, so a collaborator may answer anything or raise at any call.  Token counts and limits
are integers and amounts are exact rationals.
-/

namespace Milo.Budget

open Milo.Reasoning

/-! ## 1. Exceptions and configuration -/

/-- What an injected collaborator raised; `except Exception` does not catch a `baseException`. -/
inductive Fault
  | exception (name : String)
  | baseException (name : String)
  deriving DecidableEq, Repr

abbrev Reply (α : Type) : Type := Except Fault α

structure BudgetExceeded where
  code : String
  message : String
  eventType : String
  terminalStatus : String
  deriving DecidableEq, Repr

inductive BudgetError
  | exceeded (stop : BudgetExceeded)
  | cancellationRequested (message : String)
  | valueError (message : String)
  | collaborator (fault : Fault)
  deriving DecidableEq, Repr

structure BudgetConfig where
  maxModelCallsPerRun : Option ℤ
  maxInputTokensPerRun : Option ℤ
  maxOutputTokensPerRun : Option ℤ
  maxTotalTokensPerRun : Option ℤ
  maxEstimatedCostPerRun : Option ℚ
  maxCostPerRun : Option ℚ
  maxRunDurationSeconds : Option ℤ
  maxAgentSteps : Option ℤ
  maxRetries : Option ℤ
  dailyUserBudget : Option ℚ
  dailyProjectBudget : Option ℚ
  estimatedCostPerCall : ℚ
  maxSearchInvocationsPerRun : Option ℤ
  searchCostPerInvocation : ℚ

/-- The defaults of the source: every ceiling but the search one is unset. -/
def BudgetConfig.default : BudgetConfig where
  maxModelCallsPerRun := none
  maxInputTokensPerRun := none
  maxOutputTokensPerRun := none
  maxTotalTokensPerRun := none
  maxEstimatedCostPerRun := none
  maxCostPerRun := none
  maxRunDurationSeconds := none
  maxAgentSteps := none
  maxRetries := none
  dailyUserBudget := none
  dailyProjectBudget := none
  estimatedCostPerCall := 1 / 20
  maxSearchInvocationsPerRun := some 60
  searchCostPerInvocation := 0

structure CallContract where
  role : String
  minAnswerReserve : ℤ

structure ModelCallReservation where
  id : String
  callSeq : ℤ
  estimatedCost : ℚ
  deriving DecidableEq

/-! ## 2. The request -/

/-- An output cap as `_read_output_cap` lets it through: a positive number. -/
def OutputCap : Type := { cap : ℤ // 0 < cap }

structure CallRequest where
  estimatedInputTokens : ℤ
  requestedMaxTokens : Option OutputCap
  contract : Option CallContract
  costProfile : Option ModelProfile
  inputUpperBound : ℤ

def CallRequest.estimatedInput (call : CallRequest) : ℤ := max 0 call.estimatedInputTokens

/-! ## 3. Collaborators -/

/-- `round(value, 6)` of a float. -/
def round6 (value : ℚ) : ℚ := roundDecimals 6 value

structure UsageBreakdown where
  inputTokens : ℤ
  outputTokens : ℤ
  cachedInputTokens : Option ℤ
  cacheWriteTokens : Option ℤ
  reasoningTokens : Option ℤ
  answerTokens : Option ℤ
  reasoningTokensEstimated : Option ℤ
  reasoningEstimated : Bool

/-- One row of the per-call usage ledger. -/
structure LedgerRow where
  decision : String
  callSeq : ℤ
  rejectionReason : Option String := none
  reservedInputTokens : Option ℤ := none
  reservedOutputTokens : Option ℤ := none
  estimatedCost : Option ℚ := none
  actualInputTokens : Option ℤ := none
  actualOutputTokens : Option ℤ := none
  actualCost : Option ℚ := none
  usage : Option UsageBreakdown := none
  model : Option String := none

structure Event where
  eventType : String
  message : String
  code : String

/-- What a daily reserver answers. -/
inductive RawReservation
  | handle (reservation : ModelCallReservation)
  | text (id : String)
  | record (status rejectionReason id reservationId : Option String) (callSeq : Option ℤ)
      (estimatedCost : Option ℚ)
  | none

/-- The injected collaborators and how they answer during one operation. -/
structure Collaborators where
  killSwitch : Reply Bool
  leaseChecker : Option (Reply Bool)
  cancellationChecker : Option (Reply Bool)
  /-- `elapsed()`, the seconds since the run started. -/
  elapsed : ℚ
  /-- The first and the second read within one operation may differ. -/
  dailyUserCostProvider : Option (Bool → Reply ℚ)
  dailyProjectCostProvider : Option (Bool → Reply ℚ)
  dailyUserReserver : Option (ℚ → ℤ → Reply RawReservation)
  dailyProjectReserver : Option (ℚ → ℤ → Reply RawReservation)
  dailySettler : Option (ModelCallReservation → ℚ → String → Option String → Reply Unit)
  ledgerRecorder : Option (LedgerRow → Reply Unit)
  /-- The recorder answers with the version of the durable record, or with nothing usable. -/
  usageRecorder : Option (Reply (Option ℤ))
  eventEmitter : Option (Event → Reply Unit)

/-- Collaborators of a deployment that wires nothing but an open kill switch. -/
def Collaborators.quiet : Collaborators where
  killSwitch := .ok true
  leaseChecker := none
  cancellationChecker := none
  elapsed := 0
  dailyUserCostProvider := none
  dailyProjectCostProvider := none
  dailyUserReserver := none
  dailyProjectReserver := none
  dailySettler := none
  ledgerRecorder := none
  usageRecorder := none
  eventEmitter := none

/-! ## 4. State -/

/-- What the run has consumed and what is held for calls and searches in flight. -/
structure Accounts where
  modelCalls : ℤ
  inputTokens : ℤ
  outputTokens : ℤ
  reservedInputTokens : ℤ
  reservedOutputTokens : ℤ
  reservedSearchInvocations : ℤ
  estimatedCost : ℚ
  actualCost : ℚ
  retries : ℤ
  agentSteps : ℤ
  providerAttempts : ℤ
  providerFailures : ℤ
  searchInvocations : ℤ
  searchCost : ℚ
  cachedInputTokens : ℤ
  cacheWriteTokens : ℤ
  reasoningTokens : ℤ
  reasoningTokensEstimated : ℤ
  reasoningEstimatedCalls : ℤ
  answerTokens : ℤ
  reservedCost : ℚ
  /-- call_seq ↦ (reserved input, reserved output) of the calls still in flight. -/
  openReservations : Dict ℤ (ℤ × ℤ)
  /-- call_seq ↦ worst-case dollars held, for contract calls. -/
  openCostReservations : Dict ℤ ℚ
  openSearchReservations : Dict ℤ ℤ
  searchSeq : ℤ

structure Tracker extends Accounts where
  stop : Option BudgetExceeded
  warned : List String
  ledgerVersion : ℤ
  reservations : Dict ℤ ModelCallReservation

/-- A tracker as it is constructed. -/
def Tracker.fresh : Tracker where
  modelCalls := 0
  inputTokens := 0
  outputTokens := 0
  reservedInputTokens := 0
  reservedOutputTokens := 0
  reservedSearchInvocations := 0
  estimatedCost := 0
  actualCost := 0
  retries := 0
  agentSteps := 0
  providerAttempts := 0
  providerFailures := 0
  searchInvocations := 0
  searchCost := 0
  cachedInputTokens := 0
  cacheWriteTokens := 0
  reasoningTokens := 0
  reasoningTokensEstimated := 0
  reasoningEstimatedCalls := 0
  answerTokens := 0
  reservedCost := 0
  openReservations := .empty
  openCostReservations := .empty
  openSearchReservations := .empty
  searchSeq := 0
  stop := none
  warned := []
  ledgerVersion := 0
  reservations := .empty

abbrev BudgetM (α : Type) : Type := Action Tracker BudgetError α

def ofReply {α : Type} : Reply α → BudgetM α
  | .ok a => pure a
  | .error f => Action.raise (.collaborator f)

/-! ## 5. Recording and stopping -/

def emit (env : Collaborators) (event : Event) : BudgetM Unit :=
  match env.eventEmitter with
  | none => pure ()
  | some emitter => ofReply (emitter event)

def ledger (env : Collaborators) (row : LedgerRow) : BudgetM Unit :=
  match env.ledgerRecorder with
  | none => pure ()
  | some recorder => ofReply (recorder row)

/-- Make the ledger durable; the recorder's version only ever moves the sequence forward. -/
def record (env : Collaborators) : BudgetM Unit :=
  match env.usageRecorder with
  | none => pure ()
  | some reported => do
    match ← ofReply reported with
    | none => pure ()
    | some version =>
      Action.modify fun t => { t with ledgerVersion := max t.ledgerVersion version }

/-- `_stop`: the first refusal of a run is kept and announced. -/
def stopRun (env : Collaborators) (exceeded : BudgetExceeded) : BudgetM BudgetExceeded := do
  let t ← Action.get
  match t.stop with
  | some _ => pure exceeded
  | none =>
    Action.modify fun t => { t with stop := some exceeded }
    emit env ⟨exceeded.eventType, exceeded.message, exceeded.code⟩
    pure exceeded

def raiseStop {α : Type} (env : Collaborators) (exceeded : BudgetExceeded) : BudgetM α := do
  let raised ← stopRun env exceeded
  Action.raise (.exceeded raised)

def rejectedRow (t : Tracker) (exceeded : BudgetExceeded) : LedgerRow :=
  { decision := "rejected", callSeq := t.modelCalls, rejectionReason := some exceeded.code }

/-- `raise self._reject(...)`. -/
def raiseReject {α : Type} (env : Collaborators) (exceeded : BudgetExceeded) : BudgetM α := do
  let t ← Action.get
  ledger env (rejectedRow t exceeded)
  raiseStop env exceeded

/-! ## 6. The admission checks of `openCall` -/

/-- How an admission check fails: through `_reject`, or by raising something else. -/
inductive Refusal
  | reject (exceeded : BudgetExceeded)
  | raise (error : BudgetError)

def asked {α : Type} : Reply α → Except Refusal α
  | .ok a => .ok a
  | .error f => .error (.raise (.collaborator f))

def exhausted (code message : String) : Refusal :=
  .reject ⟨code, message, "budget_exhausted", "budget_exhausted"⟩

def checkPermitted (env : Collaborators) : Except Refusal Unit := do
  let enabled ← asked env.killSwitch
  refuseIf (enabled = false) (.reject ⟨"PAID_EXECUTION_DISABLED",
    "global paid-execution kill switch is off", "kill_switch_activated", "failed"⟩)
  if let some holds := env.leaseChecker then
    refuseIf ((← asked holds) = false) (.reject ⟨"WORKER_LEASE_LOST",
      "worker no longer holds the run lease", "run_failed", "failed"⟩)
  if let some cancelled := env.cancellationChecker then
    refuseIf ((← asked cancelled) = true) (.raise (.cancellationRequested "RUN_CANCELLED"))

/-- Refuse when a configured limit is exceeded; an unset limit refuses nothing. -/
def refuseOver {α : Type} (limit : Option α) (exceeds : α → Prop) [DecidablePred exceeds]
    (refusal : α → Refusal) : Except Refusal Unit :=
  match limit with
  | none => pure ()
  | some limit => refuseIf (exceeds limit) (refusal limit)

def checkCounts (cfg : BudgetConfig) (env : Collaborators) (t : Tracker) : Except Refusal Unit := do
  refuseOver cfg.maxRunDurationSeconds (fun limit => env.elapsed ≥ limit) fun limit =>
    .reject ⟨"RUN_DURATION_EXCEEDED", s!"run exceeded {limit}s", "run_timed_out", "timed_out"⟩
  refuseOver cfg.maxModelCallsPerRun (fun limit => t.modelCalls ≥ limit) fun limit =>
    exhausted "MODEL_CALL_LIMIT_REACHED" s!"run reached {limit} model calls"
  refuseOver cfg.maxAgentSteps (fun limit => t.agentSteps > limit) fun _ =>
    exhausted "AGENT_STEP_LIMIT_REACHED" "agent step limit reached"
  refuseOver cfg.maxRetries (fun limit => t.retries > limit) fun _ =>
    .reject ⟨"RETRY_LIMIT_REACHED", "retry limit reached", "retry_limit_reached", "failed"⟩

def Accounts.committedInput (t : Accounts) : ℤ := t.inputTokens + t.reservedInputTokens

def Accounts.committedOutput (t : Accounts) : ℤ := t.outputTokens + t.reservedOutputTokens

def tokenLimit (code message : String) : Refusal :=
  .reject ⟨code, message, "token_limit_reached", "budget_exhausted"⟩

/-- The output allowance left by the output limit. -/
def remainingByOutput (cfg : BudgetConfig) (t : Accounts) : Option ℤ :=
  cfg.maxOutputTokensPerRun.map (· - t.committedOutput)

/-- The output allowance left by both token limits, `none` when neither bounds the output. -/
def remainingByTotal (cfg : BudgetConfig) (t : Accounts) (call : CallRequest) : Option ℤ :=
  match cfg.maxTotalTokensPerRun with
  | none => remainingByOutput cfg t
  | some limit =>
    let byTotal := limit - t.committedInput - t.committedOutput - call.estimatedInput
    some (match remainingByOutput cfg t with
      | none => byTotal
      | some remaining => min remaining byTotal)

def remainingOutput (cfg : BudgetConfig) (t : Accounts) (call : CallRequest) :
    Except Refusal (Option ℤ) := do
  refuseOver cfg.maxInputTokensPerRun
    (fun limit => t.committedInput + call.estimatedInput > limit) fun _ =>
      tokenLimit "INPUT_TOKEN_LIMIT_REACHED" "input token limit reached"
  refuseOver (remainingByOutput cfg t) (fun remaining => remaining ≤ 0) fun _ =>
    tokenLimit "OUTPUT_TOKEN_LIMIT_REACHED" "output token limit reached"
  refuseOver (remainingByTotal cfg t call) (fun remaining => remaining ≤ 0) fun _ =>
    tokenLimit "TOTAL_TOKEN_LIMIT_REACHED" "token budget exhausted before the call"
  pure (remainingByTotal cfg t call)

def checkDaily (limit : Option ℚ) (provider : Option (Bool → Reply ℚ)) (exceeds : ℚ → ℚ → Bool)
    (second : Bool) (refusal : Refusal) : Except Refusal Unit :=
  match limit, provider with
  | some budget, some spent => do
    refuseIf (exceeds (← asked (spent second)) budget = true) refusal
  | _, _ => pure ()

def checkCosts (cfg : BudgetConfig) (env : Collaborators) (t : Tracker) : Except Refusal Unit := do
  refuseOver cfg.maxEstimatedCostPerRun
    (fun limit => t.estimatedCost + cfg.estimatedCostPerCall > limit) fun _ =>
      exhausted "ESTIMATED_COST_LIMIT_REACHED" "estimated cost budget exhausted"
  refuseOver cfg.maxCostPerRun (fun limit => t.actualCost ≥ limit) fun _ =>
    exhausted "COST_LIMIT_REACHED" "recorded cost budget exhausted"
  checkDaily cfg.dailyUserBudget env.dailyUserCostProvider (fun spent budget => spent ≥ budget)
    false (exhausted "DAILY_USER_BUDGET_REACHED" "daily user budget exhausted")
  checkDaily cfg.dailyProjectBudget env.dailyProjectCostProvider
    (fun spent budget => spent ≥ budget)
    false (exhausted "DAILY_PROJECT_BUDGET_REACHED" "daily project budget exhausted")

/-- The output-token allowance of the call, clamped to what the caller asked for. -/
def allowedOutput (remaining : Option ℤ) (call : CallRequest) : Option ℤ :=
  match call.requestedMaxTokens with
  | none => remaining
  | some requested =>
    some (match remaining with
      | none => requested.1
      | some tokens => min tokens requested.1)

/-- A role call is refused below the answer reserve of its contract, never silently shrunk. -/
def checkAnswerReserve (call : CallRequest) (allowed : Option ℤ) : Except Refusal Unit :=
  match call.contract, allowed with
  | some contract, some tokens =>
    refuseIf (tokens < contract.minAnswerReserve) (exhausted "BUDGET_INSUFFICIENT_FOR_ROLE"
      "remaining budget cannot grant the role's minimum answer reserve")
  | _, _ => pure ()

def costReservationExceeded (message terminalStatus : String) : Refusal :=
  .reject ⟨"COST_RESERVATION_EXCEEDED", message, "budget_exhausted", terminalStatus⟩

/-- The most a contract call can cost, checked against every remaining dollar ceiling. -/
def worstCase (cfg : BudgetConfig) (env : Collaborators) (t : Tracker) (call : CallRequest)
    (allowed : Option ℤ) : Except Refusal (Option ℚ) :=
  match call.contract with
  | none => pure none
  | some _ =>
    match call.costProfile with
    | none => .error (costReservationExceeded
        "a role call reached the gate without a priced model profile" "failed")
    | some profile =>
      match allowed.or (call.requestedMaxTokens.map (·.1)) with
      | none => .error (costReservationExceeded
          "a role call cannot be reserved without an output cap" "failed")
      | some cap => do
        let worst := profile.worstCaseCost call.inputUpperBound cap
        refuseOver cfg.maxCostPerRun
          (fun limit => t.actualCost + t.reservedCost + worst > limit) fun _ =>
            costReservationExceeded
              "the call's worst-case cost exceeds the run's remaining cost budget"
              "budget_exhausted"
        checkDaily cfg.dailyUserBudget env.dailyUserCostProvider
          (fun spent budget => spent + worst > budget) true
          (costReservationExceeded
            "the call's worst-case cost exceeds the remaining daily user budget"
            "budget_exhausted")
        checkDaily cfg.dailyProjectBudget env.dailyProjectCostProvider
          (fun spent budget => spent + worst > budget) true
          (costReservationExceeded
            "the call's worst-case cost exceeds the remaining daily project budget"
            "budget_exhausted")
        pure (some worst)

def nonempty (text : Option String) : Option String := text.filter (· ≠ "")

def normalizeReservation (raw : RawReservation) (callSeq : ℤ) (estimatedCost : ℚ) :
    Except Refusal ModelCallReservation :=
  let missing : Refusal := .reject ⟨"BUDGET_RESERVATION_MISSING",
    "model-call budget reservation did not return an id", "budget_exhausted", "failed"⟩
  match raw with
  | .handle reservation => .ok reservation
  | .text id => if id = "" then .error missing else .ok ⟨id, callSeq, estimatedCost⟩
  | .record status rejectionReason id reservationId seq amount =>
    if status = some "rejected" then
      .error (exhausted ((nonempty rejectionReason).getD "DAILY_BUDGET_REACHED")
        "daily model-call budget exhausted")
    else
      match (nonempty id).or (nonempty reservationId) with
      | some rid => .ok ⟨rid, (seq.filter (· ≠ 0)).getD callSeq,
          (amount.filter (· ≠ 0)).getD estimatedCost⟩
      | none => .error missing
  | .none => .error missing

def reserveDailyOne (limit : Option ℚ) (reserver : Option (ℚ → ℤ → Reply RawReservation))
    (amount : ℚ) (callSeq : ℤ) (before : Option ModelCallReservation) :
    Except Refusal (Option ModelCallReservation) :=
  match limit, reserver with
  | some _, some reserve => do
    some <$> normalizeReservation (← asked (reserve amount callSeq)) callSeq amount
  | _, _ => pure before

def reserveDaily (cfg : BudgetConfig) (env : Collaborators) (amount : ℚ) (callSeq : ℤ) :
    Except Refusal (Option ModelCallReservation) := do
  let user ← reserveDailyOne cfg.dailyUserBudget env.dailyUserReserver amount callSeq none
  reserveDailyOne cfg.dailyProjectBudget env.dailyProjectReserver amount callSeq user

/-- What an admitted call was granted. -/
structure Admission where
  callSeq : ℤ
  allowedOutput : Option ℤ
  worstCase : Option ℚ
  reservation : Option ModelCallReservation

def Admission.reserveAmount (cfg : BudgetConfig) (adm : Admission) : ℚ :=
  adm.worstCase.getD cfg.estimatedCostPerCall

def Admission.heldOutput (adm : Admission) : ℤ := adm.allowedOutput.getD 0

/-- The checks of `openCall`, in the order the source makes them. -/
def admitCall (cfg : BudgetConfig) (env : Collaborators) (t : Tracker) (call : CallRequest) :
    Except Refusal Admission := do
  checkPermitted env
  checkCounts cfg env t
  let remaining ← remainingOutput cfg t.toAccounts call
  checkCosts cfg env t
  let allowed := allowedOutput remaining call
  checkAnswerReserve call allowed
  let worst ← worstCase cfg env t call allowed
  let reservation ← reserveDaily cfg env (worst.getD cfg.estimatedCostPerCall) (t.modelCalls + 1)
  pure ⟨t.modelCalls + 1, allowed, worst, reservation⟩

/-! ## 7. Opening and settling a call -/

/-- Hold the capacity an admitted call may consume. -/
def Accounts.reserveCapacity (cfg : BudgetConfig) (call : CallRequest) (adm : Admission)
    (t : Accounts) : Accounts :=
  { t with
    modelCalls := t.modelCalls + 1
    providerAttempts := t.providerAttempts + 1
    estimatedCost := t.estimatedCost + cfg.estimatedCostPerCall
    reservedInputTokens := t.reservedInputTokens + call.estimatedInput
    reservedOutputTokens := if 0 < adm.heldOutput then t.reservedOutputTokens + adm.heldOutput
      else t.reservedOutputTokens
    openReservations := t.openReservations.set adm.callSeq (call.estimatedInput, adm.heldOutput)
    reservedCost := t.reservedCost + adm.worstCase.getD 0
    openCostReservations := match adm.worstCase with
      | none => t.openCostReservations
      | some worst => t.openCostReservations.set adm.callSeq worst }

def keepReservation (adm : Admission) (held : Dict ℤ ModelCallReservation) :
    Dict ℤ ModelCallReservation :=
  match adm.reservation with
  | none => held
  | some reservation => held.set adm.callSeq reservation

def reservedRow (cfg : BudgetConfig) (call : CallRequest) (adm : Admission) : LedgerRow :=
  { decision := "reserved", callSeq := adm.callSeq
    reservedInputTokens := some call.estimatedInput
    reservedOutputTokens := some adm.heldOutput
    estimatedCost := some (round6 (adm.reserveAmount cfg))
    model := call.costProfile.map (·.model) }

/-- Reserve capacity for one model call before it happens; returns its sequence number and the
    output allowance. -/
def openCall (cfg : BudgetConfig) (env : Collaborators) (call : CallRequest) :
    BudgetM (ℤ × Option ℤ) := do
  let t ← Action.get
  match t.stop with
  | some exceeded => Action.raise (.exceeded exceeded)
  | none =>
    match admitCall cfg env t call with
    | .error (.reject exceeded) => raiseReject env exceeded
    | .error (.raise error) => Action.raise error
    | .ok adm =>
      Action.modify fun t =>
        { t with
          toAccounts := t.toAccounts.reserveCapacity cfg call adm
          reservations := keepReservation adm t.reservations }
      ledger env (reservedRow cfg call adm)
      record env
      pure (adm.callSeq, adm.allowedOutput)

structure Settlement where
  reservedInputTokens : ℤ
  reservedOutputTokens : Option ℤ
  inputTokens : ℤ
  outputTokens : ℤ
  cost : Option ℚ
  status : String
  rejectionReason : Option String
  callSeq : Option ℤ
  usage : Option UsageBreakdown
  model : String

/-- The reservation a settlement is for: its own, or the latest call's. -/
def Settlement.seq (settled : Settlement) (t : Accounts) : ℤ := settled.callSeq.getD t.modelCalls

def Settlement.actualCost (settled : Settlement) : ℚ := settled.cost.getD 0

/-- What the settled call held: its record, or the caller's own numbers when there is none. -/
def Accounts.held (settled : Settlement) (t : Accounts) : ℤ × ℤ :=
  match t.openReservations.get? (settled.seq t) with
  | some held => held
  | none => (max 0 settled.reservedInputTokens, max 0 (settled.reservedOutputTokens.getD 0))

def Accounts.heldCost (settled : Settlement) (t : Accounts) : ℚ :=
  (t.openCostReservations.get? (settled.seq t)).getD 0

/-- Release exactly what the settled call held. -/
def Accounts.releaseCall (settled : Settlement) (t : Accounts) : Accounts :=
  { t with
    openReservations := t.openReservations.erase (settled.seq t)
    reservedInputTokens := max 0 (t.reservedInputTokens - (t.held settled).1)
    reservedOutputTokens := if (t.held settled).2 = 0 then t.reservedOutputTokens
      else max 0 (t.reservedOutputTokens - (t.held settled).2)
    openCostReservations := t.openCostReservations.erase (settled.seq t)
    reservedCost := if t.heldCost settled = 0 then t.reservedCost
      else max 0 (t.reservedCost - t.heldCost settled) }

def Accounts.recordUsage (usage : Option UsageBreakdown) (t : Accounts) : Accounts :=
  match usage with
  | none => t
  | some usage =>
    { t with
      cachedInputTokens := t.cachedInputTokens + usage.cachedInputTokens.getD 0
      cacheWriteTokens := t.cacheWriteTokens + usage.cacheWriteTokens.getD 0
      reasoningTokens := t.reasoningTokens + usage.reasoningTokens.getD 0
      answerTokens := t.answerTokens + usage.answerTokens.getD 0
      reasoningEstimatedCalls := if usage.reasoningEstimated then t.reasoningEstimatedCalls + 1
        else t.reasoningEstimatedCalls
      reasoningTokensEstimated := if usage.reasoningEstimated then
          t.reasoningTokensEstimated + usage.reasoningTokensEstimated.getD 0
        else t.reasoningTokensEstimated }

/-- Record what the settled call really used. -/
def Accounts.recordActuals (settled : Settlement) (t : Accounts) : Accounts :=
  { t.recordUsage settled.usage with
    inputTokens := t.inputTokens + max 0 settled.inputTokens
    outputTokens := t.outputTokens + max 0 settled.outputTokens
    actualCost := if 0 < settled.actualCost then t.actualCost + settled.actualCost
      else t.actualCost
    providerFailures := if settled.status = "settled" then t.providerFailures
      else t.providerFailures + 1 }

def settlementFailed : BudgetExceeded :=
  ⟨"BUDGET_SETTLEMENT_FAILED", "model-call budget settlement failed", "budget_exhausted", "failed"⟩

/-- Settle the daily reservation of the call; a settler that fails gets its reservation back. -/
def settleDaily (env : Collaborators) (settled : Settlement) (seq : ℤ) : BudgetM Unit := do
  let t ← Action.get
  let reservation := t.reservations.get? seq
  Action.modify fun t => { t with reservations := t.reservations.erase seq }
  match reservation, env.dailySettler with
  | some reservation, some settler =>
    match settler reservation settled.actualCost settled.status settled.rejectionReason with
    | .ok _ => pure ()
    | .error (.exception _) =>
      Action.modify fun t => { t with reservations := t.reservations.set seq reservation }
      raiseStop env settlementFailed
    | .error fault => Action.raise (.collaborator fault)
  | _, _ => pure ()

/-- `budget_warning` once for each limit that is used to 80%. -/
def warnIfClose (env : Collaborators) (name : String) (used : ℚ) (limit : Option ℚ) :
    BudgetM Unit := do
  let t ← Action.get
  match limit with
  | none => pure ()
  | some limit =>
    if limit ≤ 0 ∨ name ∈ t.warned then pure ()
    else if used ≥ 8 / 10 * limit then
      Action.modify fun t => { t with warned := name :: t.warned }
      emit env ⟨"budget_warning", s!"{name} at {used} of {limit} (>=80%)", name⟩
    else pure ()

def warnings (cfg : BudgetConfig) (env : Collaborators) : BudgetM Unit := do
  let t ← Action.get
  warnIfClose env "model_calls" t.modelCalls (cfg.maxModelCallsPerRun.map (↑·))
  warnIfClose env "total_tokens" (t.inputTokens + t.outputTokens) (cfg.maxTotalTokensPerRun.map (↑·))
  warnIfClose env "estimated_cost" t.estimatedCost cfg.maxEstimatedCostPerRun
  warnIfClose env "elapsed_seconds" env.elapsed (cfg.maxRunDurationSeconds.map (↑·))

def settledRow (settled : Settlement) (seq : ℤ) : LedgerRow :=
  { decision := "settled", callSeq := seq
    actualInputTokens := some settled.inputTokens
    actualOutputTokens := some settled.outputTokens
    actualCost := if settled.actualCost = 0 then none else some settled.actualCost
    usage := settled.usage
    model := nonempty (some settled.model) }

def overage {α : Type} (env : Collaborators) (seq : ℤ) (exceeded : BudgetExceeded) : BudgetM α := do
  ledger env { decision := "overage", callSeq := seq, rejectionReason := some exceeded.code }
  raiseStop env exceeded

/-- Stop the run when what was really used passed a limit. -/
def checkActuals (cfg : BudgetConfig) (env : Collaborators) (seq : ℤ) : BudgetM Unit := do
  let t ← Action.get
  if ∃ limit ∈ cfg.maxInputTokensPerRun, t.inputTokens > limit then
    overage env seq ⟨"INPUT_TOKEN_LIMIT_EXCEEDED", "actual input token limit exceeded",
      "token_limit_reached", "budget_exhausted"⟩
  else if ∃ limit ∈ cfg.maxOutputTokensPerRun, t.outputTokens > limit then
    overage env seq ⟨"OUTPUT_TOKEN_LIMIT_EXCEEDED", "actual output token limit exceeded",
      "token_limit_reached", "budget_exhausted"⟩
  else if ∃ limit ∈ cfg.maxTotalTokensPerRun, t.inputTokens + t.outputTokens > limit then
    overage env seq ⟨"TOTAL_TOKEN_LIMIT_EXCEEDED", "actual total token limit exceeded",
      "token_limit_reached", "budget_exhausted"⟩
  else if ∃ limit ∈ cfg.maxCostPerRun, t.actualCost > limit then
    overage env seq ⟨"COST_LIMIT_EXCEEDED", "actual cost limit exceeded",
      "budget_exhausted", "budget_exhausted"⟩
  else pure ()

/-- Announce an estimated reasoning share, once per run. -/
def diagnose (env : Collaborators) (settled : Settlement) (before : Accounts) : BudgetM Unit :=
  match settled.usage with
  | none => pure ()
  | some usage =>
    if usage.reasoningEstimated ∧ before.reasoningEstimatedCalls = 0 then
      emit env ⟨"model_usage_diagnostic",
        "provider usage did not report reasoning tokens; the reasoning share is estimated",
        "USAGE_REASONING_FIELD_ABSENT"⟩
    else pure ()

/-- Release the reservation of a call and record what it used. -/
def settleCall (cfg : BudgetConfig) (env : Collaborators) (settled : Settlement) :
    BudgetM Unit := do
  let t ← Action.get
  let seq := settled.seq t.toAccounts
  settleDaily env settled seq
  Action.modify fun t =>
    { t with toAccounts := (t.toAccounts.releaseCall settled).recordActuals settled }
  warnings cfg env
  ledger env (settledRow settled seq)
  record env
  diagnose env settled t.toAccounts
  checkActuals cfg env seq

/-! ## 8. Standalone searches -/

def Accounts.holdSearch (wanted : ℤ) (t : Accounts) : Accounts :=
  { t with
    searchSeq := t.searchSeq + 1
    reservedSearchInvocations := t.reservedSearchInvocations + wanted
    openSearchReservations := t.openSearchReservations.set (t.searchSeq + 1) wanted }

/-- Hold capacity for the most searches a request could perform; returns the reservation. -/
def reserveSearch (cfg : BudgetConfig) (env : Collaborators) (count : ℤ) : BudgetM ℤ := do
  let wanted := max 0 count
  if wanted = 0 then pure 0
  else
    let t ← Action.get
    match t.stop with
    | some exceeded => Action.raise (.exceeded exceeded)
    | none =>
      let committed := t.searchInvocations + t.reservedSearchInvocations
      if ∃ limit ∈ cfg.maxSearchInvocationsPerRun, committed + wanted > limit then
        raiseReject env ⟨"SEARCH_LIMIT_REACHED", "search invocation limit reached",
          "budget_exhausted", "budget_exhausted"⟩
      else
        Action.modify fun t => { t with toAccounts := t.toAccounts.holdSearch wanted }
        pure (t.searchSeq + 1)

structure SearchSettlement where
  reservationSeq : ℤ
  actual : Option ℤ
  cost : Option ℚ
  preExecution : Bool

/-- The searches charged for a hold: all of it when the provider's count is unknown. -/
def SearchSettlement.charged (settled : SearchSettlement) (held : ℤ) : ℤ :=
  match settled.actual with
  | none => held
  | some actual => max 0 actual

def SearchSettlement.unit (cfg : BudgetConfig) (settled : SearchSettlement) : ℚ :=
  settled.cost.getD cfg.searchCostPerInvocation

def SearchSettlement.amount (cfg : BudgetConfig) (settled : SearchSettlement) (held : ℤ) : ℚ :=
  settled.unit cfg * settled.charged held

def Accounts.releaseSearch (seq held : ℤ) (t : Accounts) : Accounts :=
  { t with
    openSearchReservations := t.openSearchReservations.erase seq
    reservedSearchInvocations := max 0 (t.reservedSearchInvocations - held) }

def Accounts.chargeSearch (charged : ℤ) (amount : ℚ) (t : Accounts) : Accounts :=
  if charged = 0 then t
  else
    { t with
      searchInvocations := t.searchInvocations + charged
      searchCost := t.searchCost + amount
      actualCost := t.actualCost + amount }

def Accounts.spendSearch (cfg : BudgetConfig) (settled : SearchSettlement) (held : ℤ)
    (t : Accounts) : Accounts :=
  (t.releaseSearch settled.reservationSeq held).chargeSearch (settled.charged held)
    (settled.amount cfg held)

/-- The pre-execution price check of a standalone search: what is recorded, plus its charge. -/
def SearchSettlement.refused (cfg : BudgetConfig) (settled : SearchSettlement) (held : ℤ)
    (t : Accounts) : Prop :=
  settled.preExecution = true ∧ settled.charged held ≠ 0 ∧
    ∃ limit ∈ cfg.maxCostPerRun, t.actualCost + settled.amount cfg held > limit

instance (cfg : BudgetConfig) (settled : SearchSettlement) (held : ℤ) (t : Accounts) :
    Decidable (settled.refused cfg held t) := by
  unfold SearchSettlement.refused
  infer_instance

def checkSearches (cfg : BudgetConfig) (env : Collaborators) (charged held : ℤ) :
    BudgetM Unit := do
  let t ← Action.get
  if charged > held then
    raiseStop env ⟨"SEARCH_MULTIPLICITY_EXCEEDED",
      "a provider request performed more searches than the reviewed maximum",
      "budget_exhausted", "budget_exhausted"⟩
  else if ∃ limit ∈ cfg.maxSearchInvocationsPerRun, t.searchInvocations > limit then
    raiseReject env ⟨"SEARCH_LIMIT_EXCEEDED", "search invocation limit exceeded",
      "budget_exhausted", "budget_exhausted"⟩
  else if ∃ limit ∈ cfg.maxCostPerRun, t.actualCost > limit then
    raiseStop env ⟨"COST_LIMIT_EXCEEDED", "actual cost limit exceeded",
      "budget_exhausted", "budget_exhausted"⟩
  else pure ()

/-- Release a search reservation and record what was really spent. -/
def settleSearch (cfg : BudgetConfig) (env : Collaborators) (settled : SearchSettlement) :
    BudgetM Unit := do
  if settled.unit cfg < 0 then Action.raise (.valueError "search cost cannot be negative")
  else
    let t ← Action.get
    match t.openSearchReservations.get? settled.reservationSeq with
    | none => pure ()
    | some held =>
      if settled.refused cfg held t.toAccounts then
        Action.modify fun t =>
          { t with toAccounts := t.toAccounts.releaseSearch settled.reservationSeq held }
        raiseStop env ⟨"COST_LIMIT_REACHED",
          "recorded cost budget cannot admit another search",
          "budget_exhausted", "budget_exhausted"⟩
      else
        Action.modify fun t => { t with toAccounts := t.toAccounts.spendSearch cfg settled held }
        record env
        checkSearches cfg env (settled.charged held) held

end Milo.Budget
