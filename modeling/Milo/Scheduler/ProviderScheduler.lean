import Milo.Quota.Lease
import Milo.Reasoning.Action

/-!
# ProviderScheduler — the guarded call path

`ProviderScheduler.execute` with every wait, refusal and retry it makes.  Whatever the scheduler
does not decide itself is an answer of its surroundings: the clock, the process-local slots, the
organization coordinator and its shared store, the probe thread and the provider.  Each of them may
raise.  The world keeps the leases and slots the scheduler took, so that what an exit leaves behind
can be read off it.
-/

namespace Milo.Scheduler

open Milo.Reasoning
open Milo.Quota (LeaseOutcome LeaseState)

/-! ## 1. Configuration and verdicts -/

structure ProviderLimitsConfig where
  maxConcurrency : ℕ
  rpmLimit : Option ℕ
  tpmLimit : Option ℕ
  maxRateLimitRetries : ℕ
  maxBackpressureWaitSeconds : ℚ
  backoffBaseSeconds : ℚ
  backoffMaxSeconds : ℚ

def defaultProviderLimits : ProviderLimitsConfig :=
  ⟨2, some 3, none, 5, 240, 2, 30⟩

/-- A waiting time as Python computes it: a `Retry-After` header may read `inf` or `nan`. -/
inductive Seconds
  | finite (seconds : ℚ)
  | infinite
  | nan
  deriving DecidableEq, Repr

namespace Seconds

def add : Seconds → Seconds → Seconds
  | nan, _ => nan
  | _, nan => nan
  | infinite, _ => infinite
  | _, infinite => infinite
  | finite a, finite b => finite (a + b)

instance : Add Seconds := ⟨add⟩

instance : Coe ℚ Seconds := ⟨finite⟩

/-- `seconds > bound`; no comparison with `nan` holds. -/
def exceeds (bound : ℚ) : Seconds → Bool
  | finite seconds => decide (seconds > bound)
  | infinite => true
  | nan => false

end Seconds

def windowSeconds : ℚ := 60

def slotPollSeconds : ℚ := 1 / 20

inductive ProviderOutcome
  | success
  | rateLimit
  | retryableFailure
  | nonRetryableFailure
  | timeout
  | cancellation
  | unknown
  deriving DecidableEq, Repr

/-- One classification of one attempt. -/
structure ProviderVerdict where
  outcome : ProviderOutcome
  providerCode : Option String
  completionProven : Bool
  unprovenReason : String
  retryAfter : Option Seconds

def ProviderVerdict.isBackpressure (verdict : ProviderVerdict) : Prop :=
  verdict.outcome = .rateLimit

def ProviderVerdict.isQuotaExhaustion (verdict : ProviderVerdict) : Prop :=
  verdict.providerCode = some "exceeded_current_quota_error"

instance (verdict : ProviderVerdict) : Decidable verdict.isBackpressure := by
  unfold ProviderVerdict.isBackpressure
  infer_instance

instance (verdict : ProviderVerdict) : Decidable verdict.isQuotaExhaustion := by
  unfold ProviderVerdict.isQuotaExhaustion
  infer_instance

/-! ## 2. The surroundings -/

section Surroundings

variable (Exc α : Type)

inductive AcquireReply
  | granted
  | refused
  | raised (exception : Exc)

inductive AdmitReply
  | admitted
  | refused (dimension : String) (retry : ℚ)
  | raised (exception : Exc)

/-- The store's answer to a removal; one that raises may or may not have removed the lease. -/
inductive RemovalReply
  | done
  | raised (removed : Bool) (exception : Exc)

/-- Whether the lease is out of the store afterwards. -/
def RemovalReply.removed {Exc : Type} : RemovalReply Exc → Bool
  | .done => true
  | .raised removed _ => removed

/-- What the scheduler does not decide: the answer each of these gives when it is asked as the
    `n`-th thing the scheduler asks. -/
structure SchedulerSurroundings where
  coordinated : Bool
  cancelled : ℕ → Bool
  clock : ℕ → ℚ
  slotFree : ℕ → Bool
  acquire : ℕ → AcquireReply Exc
  /-- `try_admit_request`. -/
  admission : ℕ → AdmitReply Exc
  removal : ℕ → RemovalReply Exc
  /-- The diagnostic sink of a quarantine. -/
  diagnostic : ℕ → Option Exc
  probeStart : ℕ → Option Exc
  /-- `record_rate_limit_signal`. -/
  signal : ℕ → Option Exc
  /-- The backpressure callback. -/
  callback : ℕ → Option Exc
  /-- One provider request. -/
  call : ℕ → Except Exc α
  rng : ℕ → ℚ
  classifyOutcome : Exc → ProviderVerdict
  /-- `isinstance(exc, Exception)`; `KeyboardInterrupt` and `SystemExit` are not. -/
  isException : Exc → Bool
  /-- How many rounds each wait is followed for. -/
  rounds : ℕ

end Surroundings

/-! ## 3. The world -/

/-- One organization lease `execute` acquired. -/
structure LeaseRecord where
  outcome : LeaseState
  settlements : ℕ
  /-- Whether the shared store still records it. -/
  recorded : Bool
  /-- Whether RPM and TPM were admitted under it. -/
  admitted : Bool
  deriving DecidableEq, Repr

def LeaseRecord.settleAs (outcome : LeaseOutcome) (lease : LeaseRecord) : LeaseRecord :=
  { lease with outcome := some outcome, settlements := lease.settlements + 1 }

def LeaseRecord.removedIf (removed : Bool) (lease : LeaseRecord) : LeaseRecord :=
  { lease with recorded := lease.recorded && !removed }

/-- One request that was sent: the lease it was sent under, and whether its completion is proven. -/
structure SentRequest where
  lease : Option ℕ
  completionProven : Bool
  deriving DecidableEq, Repr

inductive SlotEvent
  | acquired
  | released
  deriving DecidableEq, Repr

/-- Where in `execute` a lease is given back. -/
inductive ReleaseStage
  | refusedAdmission
  | failedProbe
  | settlement
  deriving DecidableEq, Repr

/-- What the coordinator answered while `execute` held a lease. -/
inductive CoordinatorReply (Exc : Type)
  | admission (reply : AdmitReply Exc)
  | removal (stage : ReleaseStage) (reply : RemovalReply Exc)

/-- The slots and leases `execute` took, the requests it sent under them, and what the coordinator
    answered meanwhile. -/
structure Ledger (Exc : Type) where
  slotEvents : List SlotEvent
  leases : Dict ℕ LeaseRecord
  requests : List SentRequest
  replies : List (CoordinatorReply Exc)

def Ledger.empty (Exc : Type) : Ledger Exc := ⟨[], .empty, [], []⟩

structure SchedulerWorld (Exc : Type) where
  asked : ℕ
  requestStarts : List ℚ
  tokenStarts : List (ℚ × ℕ)
  ledger : Ledger Exc
  /-- The seconds slept so far. -/
  slept : ℚ

def SchedulerWorld.initial (Exc : Type) : SchedulerWorld Exc := ⟨0, [], [], .empty Exc, 0⟩

inductive SchedulerError (Exc : Type)
  | runCancelled
  | backpressureExceeded (attempts : ℕ) (waitedSeconds : Seconds)
  | quotaExceeded
  | raised (exception : Exc)
  /-- A wait still goes on after the rounds it was followed for. -/
  | exhausted

abbrev Scheduling (Exc β : Type) : Type := Action (SchedulerWorld Exc) (SchedulerError Exc) β

section Scheduler

variable {Exc α : Type}

/-- Ask the surroundings. -/
def ask {β : Type} (answer : ℕ → β) : Scheduling Exc β := do
  let w ← Action.get
  Action.modify fun w => { w with asked := w.asked + 1 }
  pure (answer w.asked)

def raiseIfAny : Option Exc → Scheduling Exc Unit
  | none => pure ()
  | some exception => Action.raise (.raised exception)

def checkCancelled (env : SchedulerSurroundings Exc α) : Scheduling Exc Unit := do
  let cancelled ← ask env.cancelled
  if cancelled then Action.raise .runCancelled else pure ()

def sleep (seconds : ℚ) : Scheduling Exc Unit :=
  Action.modify fun w => { w with slept := w.slept + seconds }

/-- `_wait` sleeps in chunks of one second and looks for a cancellation before each of them. -/
def waitChunks (env : SchedulerSurroundings Exc α) : ℕ → ℚ → Scheduling Exc Unit
  | 0, _ => checkCancelled env
  | chunks + 1, remaining => do
    checkCancelled env
    sleep (min remaining 1)
    waitChunks env chunks (remaining - min remaining 1)

def wait (env : SchedulerSurroundings Exc α) : Seconds → Scheduling Exc Unit
  | .finite seconds => waitChunks env ⌈seconds⌉.toNat seconds
  | .infinite => do
    waitChunks env env.rounds env.rounds
    Action.raise .exhausted
  | .nan => checkCancelled env

def notify (env : SchedulerSurroundings Exc α) : Scheduling Exc Unit := do
  let raised ← ask env.callback
  raiseIfAny raised

/-! ## 4. Process-local capacity -/

def prune (now : ℚ) (w : SchedulerWorld Exc) : SchedulerWorld Exc :=
  { w with
    requestStarts := w.requestStarts.dropWhile fun start => now - start ≥ windowSeconds
    tokenStarts := w.tokenStarts.dropWhile fun start => now - start.1 ≥ windowSeconds }

/-- The delay the request window asks for. -/
def requestDelay (cfg : ProviderLimitsConfig) (now : ℚ) (starts : List ℚ) : ℚ :=
  match cfg.rpmLimit, starts with
  | some limit, first :: _ => if starts.length ≥ limit then max 0 (windowSeconds - (now - first)) else 0
  | _, _ => 0

/-- The delay the token window asks for. -/
def tokenDelay (cfg : ProviderLimitsConfig) (now : ℚ) (estimatedTokens : ℕ)
    (starts : List (ℚ × ℕ)) : ℚ :=
  match cfg.tpmLimit, starts with
  | some limit, first :: _ =>
    if estimatedTokens > 0 ∧ (starts.map Prod.snd).sum + estimatedTokens > limit then
      max 0 (windowSeconds - (now - first.1))
    else 0
  | _, _ => 0

/-- Admit the request (and answer 0) or answer the seconds to wait. -/
def tryAdmit (cfg : ProviderLimitsConfig) (env : SchedulerSurroundings Exc α)
    (estimatedTokens : ℕ) : Scheduling Exc ℚ := do
  let now ← ask env.clock
  Action.modify (prune now)
  let w ← Action.get
  let delay := max (requestDelay cfg now w.requestStarts)
    (tokenDelay cfg now estimatedTokens w.tokenStarts)
  if delay > 0 then pure (max delay (1 / 1000))
  else do
    Action.modify fun w =>
      { w with
        requestStarts := w.requestStarts ++ [now]
        tokenStarts := if estimatedTokens > 0 then w.tokenStarts ++ [(now, estimatedTokens)]
          else w.tokenStarts }
    pure 0

/-- One round of the wait for RPM/TPM capacity. -/
def admitRound (cfg : ProviderLimitsConfig) (env : SchedulerSurroundings Exc α)
    (estimatedTokens : ℕ) (waitedTotal waited : Seconds) : Scheduling Exc (Seconds ⊕ Seconds) := do
  checkCancelled env
  let delay ← tryAdmit cfg env estimatedTokens
  if delay = 0 then pure (.inr waited)
  else if (waitedTotal + waited + delay).exceeds cfg.maxBackpressureWaitSeconds then
    Action.raise (.backpressureExceeded 0 (waitedTotal + waited))
  else do
    notify env
    wait env delay
    pure (.inl (waited + delay))

/-- Wait for RPM/TPM capacity; return the seconds waited. -/
def admitLocally (cfg : ProviderLimitsConfig) (env : SchedulerSurroundings Exc α) (estimatedTokens : ℕ)
    (waitedTotal : Seconds) : Scheduling Exc Seconds :=
  if cfg.tpmLimit.any (fun limit => decide (estimatedTokens > limit)) then
    Action.raise (.backpressureExceeded 0 waitedTotal)
  else
    Action.loop .exhausted (admitRound cfg env estimatedTokens waitedTotal)
      env.rounds
      (0 : ℚ)

/-- Write to the ledger. -/
def record (f : Ledger Exc → Ledger Exc) : Scheduling Exc Unit :=
  Action.modify fun w => { w with ledger := f w.ledger }

def takeSlot : Scheduling Exc Unit :=
  record fun l => { l with slotEvents := l.slotEvents ++ [.acquired] }

def releaseSlot : Scheduling Exc Unit :=
  record fun l => { l with slotEvents := l.slotEvents ++ [.released] }

def notifyOnce (env : SchedulerSurroundings Exc α) (notified : Bool) : Scheduling Exc Unit :=
  if notified then pure () else notify env

/-- One round of the wait for a slot; the callback hears of the wait once. -/
def slotRound (cfg : ProviderLimitsConfig) (env : SchedulerSurroundings Exc α)
    (waitedTotal : Seconds) (state : Seconds × Bool) :
    Scheduling Exc ((Seconds × Bool) ⊕ Seconds) := do
  checkCancelled env
  if (waitedTotal + state.1 + slotPollSeconds).exceeds cfg.maxBackpressureWaitSeconds then
    Action.raise (.backpressureExceeded 0 (waitedTotal + state.1))
  else do
    notifyOnce env state.2
    sleep slotPollSeconds
    checkCancelled env
    let free ← ask env.slotFree
    if free then do
      takeSlot
      pure (.inr (state.1 + slotPollSeconds))
    else pure (.inl (state.1 + slotPollSeconds, true))

/-- Acquire a process-local slot; return the seconds waited. -/
def acquireSlot (cfg : ProviderLimitsConfig) (env : SchedulerSurroundings Exc α)
    (waitedTotal : Seconds) : Scheduling Exc Seconds := do
  let free ← ask env.slotFree
  if free then do
    takeSlot
    pure (0 : ℚ)
  else
    Action.loop .exhausted (slotRound cfg env waitedTotal) env.rounds ((0 : ℚ), false)

/-! ## 5. Organization leases -/

def updateLease (id : ℕ) (f : LeaseRecord → LeaseRecord) (l : Ledger Exc) : Ledger Exc :=
  match l.leases.get? id with
  | none => l
  | some lease => { l with leases := l.leases.set id (f lease) }

def noteReply (reply : CoordinatorReply Exc) (l : Ledger Exc) : Ledger Exc :=
  { l with replies := l.replies ++ [reply] }

/-- Open a lease under a fresh id. -/
def openLease : Scheduling Exc ℕ := do
  let w ← Action.get
  let id := w.ledger.leases.keys.length
  record fun l => { l with leases := l.leases.set id ⟨none, 0, true, false⟩ }
  pure id

def isOpen (id : ℕ) : Scheduling Exc Bool := do
  let w ← Action.get
  pure ((w.ledger.leases.get? id).any fun lease => lease.outcome.isNone)

/-- `InferenceLease.release`. -/
def releaseLease (env : SchedulerSurroundings Exc α) (stage : ReleaseStage) (id : ℕ) :
    Scheduling Exc Unit := do
  let unsettled ← isOpen id
  if unsettled then do
    record (updateLease id (LeaseRecord.settleAs .released))
    let reply ← ask env.removal
    record (noteReply (.removal stage reply))
    record (updateLease id (LeaseRecord.removedIf reply.removed))
    match reply with
    | .done => pure ()
    | .raised _ exception => Action.raise (.raised exception)
  else pure ()

/-- `InferenceLease.quarantine`: the slot stays held, and a diagnostic says so. -/
def quarantineLease (env : SchedulerSurroundings Exc α) (id : ℕ) : Scheduling Exc Unit := do
  let unsettled ← isOpen id
  if unsettled then do
    record (updateLease id (LeaseRecord.settleAs .quarantined))
    let raised ← ask env.diagnostic
    raiseIfAny raised
  else pure ()

/-- `InferenceLease.settle`: proof releases, everything else holds. -/
def settleLease (env : SchedulerSurroundings Exc α) (provenFinished : Bool) :
    Option ℕ → Scheduling Exc Unit
  | none => pure ()
  | some id =>
    match Quota.settleOutcome provenFinished with
    | .released => releaseLease env .settlement id
    | .quarantined => quarantineLease env id

/-- Wait before the next round of the organization gate, or give up. -/
def pace (cfg : ProviderLimitsConfig) (env : SchedulerSurroundings Exc α)
    (waitedTotal waited delay : Seconds) : Scheduling Exc (Seconds ⊕ (ℕ × Seconds)) :=
  if (waitedTotal + waited + delay).exceeds cfg.maxBackpressureWaitSeconds then
    Action.raise (.backpressureExceeded 0 (waitedTotal + waited))
  else do
    notify env
    wait env delay
    pure (.inl (waited + delay))

/-- Offer the request to the RPM and TPM windows under a lease just taken. -/
def admitUnder (cfg : ProviderLimitsConfig) (env : SchedulerSurroundings Exc α)
    (waitedTotal waited : Seconds) (id : ℕ) : Scheduling Exc (Seconds ⊕ (ℕ × Seconds)) := do
  let reply ← ask env.admission
  record (noteReply (.admission reply))
  match reply with
  | .raised exception =>
    -- only an `Exception` gives the lease back on the way out
    if env.isException exception then do
      releaseLease env .refusedAdmission id
      Action.raise (.raised exception)
    else Action.raise (.raised exception)
  | .admitted => do
    record (updateLease id fun lease => { lease with admitted := true })
    pure (.inr (id, waited))
  | .refused _ retry => do
    releaseLease env .refusedAdmission id
    pace cfg env waitedTotal waited (.finite (max retry slotPollSeconds))

/-- One round of the organization gate: a lease first, then the windows. -/
def globalRound (cfg : ProviderLimitsConfig) (env : SchedulerSurroundings Exc α)
    (waitedTotal waited : Seconds) : Scheduling Exc (Seconds ⊕ (ℕ × Seconds)) := do
  checkCancelled env
  let reply ← ask env.acquire
  match reply with
  | .raised exception => Action.raise (.raised exception)
  | .refused => pace cfg env waitedTotal waited (.finite slotPollSeconds)
  | .granted => do
    let id ← openLease
    admitUnder cfg env waitedTotal waited id

/-- Hold one organization lease with RPM and TPM admitted. -/
def acquireGlobal (cfg : ProviderLimitsConfig) (env : SchedulerSurroundings Exc α)
    (waitedTotal : Seconds) : Scheduling Exc (ℕ × Seconds) :=
  Action.loop .exhausted (globalRound cfg env waitedTotal) env.rounds (0 : ℚ)

/-! ## 6. `execute` -/

/-- The lease of one attempt and the seconds waited for it; none without a coordinator. -/
def acquirePermit (cfg : ProviderLimitsConfig) (env : SchedulerSurroundings Exc α)
    (waitedTotal : Seconds) : Scheduling Exc (Option ℕ × Seconds) :=
  if env.coordinated then do
    let permit ← acquireGlobal cfg env waitedTotal
    pure (some permit.1, permit.2)
  else pure (none, (0 : ℚ))

def startOwnershipProbe (env : SchedulerSurroundings Exc α) : Option ℕ → Scheduling Exc Unit
  | none => pure ()
  | some _ => do
    let raised ← ask env.probeStart
    raiseIfAny raised

/-- What the source does in `except BaseException` before anything was sent. -/
def giveBack (env : SchedulerSurroundings Exc α) : Option ℕ → Scheduling Exc Unit
  | none => releaseSlot
  | some id => do
    releaseLease env .failedProbe id
    releaseSlot

/-- A lease with its ownership probe started, or nothing held at all. -/
def preparePermit (cfg : ProviderLimitsConfig) (env : SchedulerSurroundings Exc α)
    (waitedTotal : Seconds) : Scheduling Exc (Option ℕ × Seconds) := do
  let permit ← Action.attempt (acquirePermit cfg env waitedTotal)
  match permit with
  | .error e => do
    giveBack env none
    Action.raise e
  | .ok permit => do
    let probe ← Action.attempt (startOwnershipProbe env permit.1)
    match probe with
    | .error e => do
      giveBack env permit.1
      Action.raise e
    | .ok _ => pure permit

/-- Send one request. -/
def sendRequest (env : SchedulerSurroundings Exc α) (lease : Option ℕ) :
    Scheduling Exc (Except Exc α) := do
  let reply ← ask env.call
  let proven := match reply with
    | .ok _ => true
    | .error exception => (env.classifyOutcome exception).completionProven
  record fun l => { l with requests := l.requests ++ [⟨lease, proven⟩] }
  pure reply

/-- The delay before a retry without a `Retry-After`: exponential, with jitter. -/
def backoff (cfg : ProviderLimitsConfig) (attempts : ℕ) (jitter : ℚ) : ℚ :=
  min cfg.backoffMaxSeconds (cfg.backoffBaseSeconds * 2 ^ (attempts - 1)) * (1 + jitter / 4)

/-- Reconcile the shared limiter with a refusal of the provider. -/
def reportBackpressure (env : SchedulerSurroundings Exc α) : Scheduling Exc Unit :=
  if env.coordinated then do
    let raised ← ask env.signal
    raiseIfAny raised
  else pure ()

/-- `Retry-After` where the provider sent one, otherwise the backoff. -/
def retryDelay (cfg : ProviderLimitsConfig) (env : SchedulerSurroundings Exc α) (attempts : ℕ) :
    Option Seconds → Scheduling Exc Seconds
  | some seconds => pure seconds
  | none => do
    let jitter ← ask env.rng
    pure (.finite (backoff cfg attempts jitter))

/-- The body of `except BaseException` around the request: the delay before the next attempt. -/
def onFailure (cfg : ProviderLimitsConfig) (env : SchedulerSurroundings Exc α) (attempts : ℕ)
    (waitedTotal : Seconds) (exception : Exc) : Scheduling Exc Seconds := do
  let verdict := env.classifyOutcome exception
  if env.isException exception = false then Action.raise (.raised exception)
  else if verdict.isQuotaExhaustion then Action.raise .quotaExceeded
  else if ¬ verdict.isBackpressure then Action.raise (.raised exception)
  else do
    reportBackpressure env
    let delay ← retryDelay cfg env (attempts + 1) verdict.retryAfter
    if attempts + 1 > cfg.maxRateLimitRetries ∨
        (waitedTotal + delay).exceeds cfg.maxBackpressureWaitSeconds then
      Action.raise (.backpressureExceeded (attempts + 1) waitedTotal)
    else pure delay

/-- The `finally` of an attempt: the local slot first, then the settlement of the lease. -/
def finishAttempt (env : SchedulerSurroundings Exc α) (lease : Option ℕ) (provenFinished : Bool) :
    Scheduling Exc Unit := do
  releaseSlot
  settleLease env provenFinished lease

/-- One request under a permit: its value, or the delay before the next attempt. -/
def attemptRequest (cfg : ProviderLimitsConfig) (env : SchedulerSurroundings Exc α)
    (attempts : ℕ) (waitedTotal : Seconds) (lease : Option ℕ) : Scheduling Exc (Seconds ⊕ α) := do
  let reply ← sendRequest env lease
  match reply with
  | .ok value => do
    finishAttempt env lease true
    pure (.inr value)
  | .error exception => do
    let delay ← Action.attempt (onFailure cfg env attempts waitedTotal exception)
    finishAttempt env lease (env.classifyOutcome exception).completionProven
    match delay with
    | .error e => Action.raise e
    | .ok delay => pure (.inl delay)

/-- One turn of the loop of `execute`, from the attempts made and the seconds waited so far. -/
def executeRound (cfg : ProviderLimitsConfig) (env : SchedulerSurroundings Exc α)
    (estimatedTokens : ℕ) (state : ℕ × Seconds) : Scheduling Exc ((ℕ × Seconds) ⊕ α) := do
  let admitted ← admitLocally cfg env estimatedTokens state.2
  checkCancelled env
  let slotted ← acquireSlot cfg env (state.2 + admitted)
  let permit ← preparePermit cfg env (state.2 + admitted + slotted)
  let waitedTotal := state.2 + admitted + slotted + permit.2
  let outcome ← attemptRequest cfg env state.1 waitedTotal permit.1
  match outcome with
  | .inr value => pure (.inr value)
  | .inl delay => do
    notify env
    wait env delay
    pure (.inl (state.1 + 1, waitedTotal + delay))

/-- Run one provider request under capacity scheduling and bounded backpressure retries. -/
def execute (cfg : ProviderLimitsConfig) (env : SchedulerSurroundings Exc α)
    (estimatedTokens : ℕ) : Scheduling Exc α :=
  Action.loop .exhausted (executeRound cfg env estimatedTokens) (cfg.maxRateLimitRetries + 2)
    (0, (0 : ℚ))

end Scheduler

end Milo.Scheduler
