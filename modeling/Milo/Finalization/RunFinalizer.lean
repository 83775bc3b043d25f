import Milo.Finalization.Claim
import Milo.Reasoning.Action
import Milo.Reasoning.Transition

/-!
# RunFinalizer — the single authority that terminalizes one run

`note`, `add_claim_source` and `finalize` as computations over the finalizer's own state and the
record of what the repository accepted.  The repository is an oracle: it may answer every read with
any status or none, and accept or reject every write as it likes.
-/

namespace Milo.Finalization

open Milo.Reasoning

/-! ## 1. The finalizer and its repository -/

/-- What actually happened to the run, and who decided it. -/
structure FinalizationResult (δ : Type) where
  status : String
  claim : Option (TerminalClaim δ)
  outcome : Option ProductOutcome
  wrote : Bool
  duplicate : Bool
  superseded : Bool
  alreadyTerminal : Bool
  evidenceRecorded : Bool

/-- The state of one `RunFinalizer`; `σ` names the live claim sources. -/
structure RunFinalizer (δ σ : Type) where
  decision : Option (TerminalClaim δ)
  result : Option (FinalizationResult δ)
  pending : List (TerminalClaim δ)
  sources : List σ

/-- The arguments of one `finalize_run` call of the repository. -/
structure TerminalWrite (δ : Type) where
  status : TerminalStatus
  expectedStatus : String
  event : Option (TerminalEvent δ)
  output : Option δ
  error : Option ClaimError
  usage : Option δ

inductive WriteReply
  | committed
  | refused (code : String)
  | raised (exception : String)

/-- Every behaviour of a repository: its reply to the `n`-th call made to it. -/
structure Repository (δ : Type) where
  /-- Whether it offers the atomic `finalize_run`. -/
  atomic : Bool
  /-- The status `get_run` reports, or `none` when the read fails. -/
  status : ℕ → Option String
  write : ℕ → TerminalWrite δ → WriteReply

/-- A finalizer, the calls made to its repository, and the writes the repository accepted with the
    claim each of them decided. -/
structure FinalizerWorld (δ σ : Type) where
  finalizer : RunFinalizer δ σ
  calls : ℕ
  written : List (TerminalClaim δ × TerminalWrite δ)
  observed : List (TerminalEvent δ)

def FinalizerWorld.initial (δ σ : Type) : FinalizerWorld δ σ :=
  ⟨⟨none, none, [], []⟩, 0, [], []⟩

/-- An `AppError` with its code, or any other exception. -/
inductive FinalizeError
  | app (code : String)
  | other (exception : String)
  deriving DecidableEq, Repr

abbrev Finalizing (δ σ α : Type) : Type := Action (FinalizerWorld δ σ) FinalizeError α

inductive SourceReply (δ : Type)
  | claim (live : TerminalClaim δ)
  | nothing
  | raised

def raceCodes : List String :=
  ["INVALID_RUN_TRANSITION", "RUN_TRANSITION_CONFLICT", "RUN_LEASE_LOST", "STALE_WORKER_WRITE",
    "RUN_NOT_FOUND"]

def finalizationUnavailable : FinalizeError := .app "RUN_FINALIZATION_UNAVAILABLE"

/-! ## 2. The methods -/

section Methods

variable {δ σ : Type}

def FinalizerWorld.setFinalizer (w : FinalizerWorld δ σ)
    (f : RunFinalizer δ σ → RunFinalizer δ σ) : FinalizerWorld δ σ :=
  { w with finalizer := f w.finalizer }

def note (claim : TerminalClaim δ) : Finalizing δ σ Unit :=
  Action.modify fun w => w.setFinalizer fun f =>
    match f.result with
    | none => { f with pending := f.pending ++ [claim] }
    | some _ => f

def addClaimSource (source : σ) : Finalizing δ σ Unit :=
  Action.modify fun w => w.setFinalizer fun f => { f with sources := f.sources ++ [source] }

/-- A second finalization after a decision is already in force. -/
def repeated (f : RunFinalizer δ σ) (decided : FinalizationResult δ) (claim : TerminalClaim δ) :
    FinalizationResult δ :=
  let same := decide (f.decision.map TerminalClaim.identity = some claim.identity)
  { status := decided.status
    claim := f.decision
    outcome := decided.outcome
    wrote := false
    duplicate := same
    superseded := !same
    alreadyTerminal := decided.alreadyTerminal
    evidenceRecorded := decided.evidenceRecorded }

/-- Every other claim known about this run, noted or live; a source that raises is ignored. -/
def knownClaims (f : RunFinalizer δ σ) (offer : σ → SourceReply δ) : List (TerminalClaim δ) :=
  f.pending ++ f.sources.filterMap fun source =>
    match offer source with
    | .claim live => some live
    | .nothing => none
    | .raised => none

variable (repo : Repository δ)

def observedStatus : Finalizing δ σ (Option String) := do
  let w ← Action.get
  Action.modify fun w => { w with calls := w.calls + 1 }
  pure (repo.status w.calls)

/-- Defer to a terminal state another legitimate path already won. -/
def adopt (observed : Option String) : Finalizing δ σ (Option (FinalizationResult δ)) :=
  match observed.bind TerminalStatus.ofText? with
  | none => pure none
  | some status => do
    let result : FinalizationResult δ :=
      { status := status.text, claim := none, outcome := none, wrote := false, duplicate := false
        superseded := false, alreadyTerminal := true, evidenceRecorded := true }
    Action.modify fun w => w.setFinalizer fun f => { f with result := some result }
    pure (some result)

/-- One call of the repository's atomic `finalize_run`. -/
def finalizeRun (claim : TerminalClaim δ) (write : TerminalWrite δ) : Finalizing δ σ Unit := do
  let w ← Action.get
  Action.modify fun w => { w with calls := w.calls + 1 }
  match repo.write w.calls write with
  | .committed => Action.modify fun w => { w with written := w.written ++ [(claim, write)] }
  | .refused code => Action.raise (.app code)
  | .raised exception => Action.raise (.other exception)

/-- Tell the observer about an event that is now durable; an observer that raises is ignored. -/
def observe : Option (TerminalEvent δ) → Finalizing δ σ Unit
  | none => pure ()
  | some event => Action.modify fun w => { w with observed := w.observed ++ [event] }

/-- The status a write is compared against: the observed one, or a second read. -/
def expectedStatus : Option String → Finalizing δ σ (Option String)
  | some status => pure (some status)
  | none => observedStatus repo

/-- Atomically commit terminal state and the event this decision owes. -/
def persist (claim : TerminalClaim δ) (observed : Option String) : Finalizing δ σ Bool :=
  if repo.atomic = false then Action.raise finalizationUnavailable
  else do
    let expected ← expectedStatus repo observed
    match expected with
    | none => Action.raise finalizationUnavailable
    | some expected => do
      let event := claim.terminalEvent claim.durableStatus
      finalizeRun repo claim ⟨claim.durableStatus, expected, event, claim.output, claim.error,
        claim.usage⟩
      observe event
      pure true

/-- The decision is durable: claim it. -/
def decided (claim : TerminalClaim δ) (evidenceRecorded : Bool) :
    Finalizing δ σ (FinalizationResult δ) := do
  let result : FinalizationResult δ :=
    { status := claim.durableStatus.text, claim := some claim, outcome := some claim.outcome
      wrote := true, duplicate := false, superseded := false, alreadyTerminal := false
      evidenceRecorded := evidenceRecorded }
  Action.modify fun w => w.setFinalizer fun f =>
    { f with decision := some claim, result := some result }
  if evidenceRecorded = false ∧ claim.reason = .product then
    Action.raise (.app "RUN_EVIDENCE_UNAVAILABLE")
  else pure result

/-- Make the decision durable, then claim it; a rejected write re-reads the run once, and what
    `redecide` does with the status it then has is left to `commit`. -/
def commitOr (redecide : String → Option String → Finalizing δ σ (FinalizationResult δ))
    (claim : TerminalClaim δ) (observed : Option String) :
    Finalizing δ σ (FinalizationResult δ) := do
  let persisted ← Action.attempt (persist repo claim observed)
  match persisted with
  | .ok evidenceRecorded => decided claim evidenceRecorded
  | .error (.other exception) => Action.raise (.other exception)
  | .error (.app code) =>
    if code ∉ raceCodes then Action.raise (.app code)
    else do
      let current ← observedStatus repo
      let adopted ← adopt current
      match adopted with
      | some result => pure result
      | none =>
        if current ≠ none ∧ current ≠ observed then redecide code current
        else Action.raise (.app code)

def commit : ℕ → TerminalClaim δ → Option String → Finalizing δ σ (FinalizationResult δ)
  | 0, claim, observed => commitOr repo (fun code _ => Action.raise (.app code)) claim observed
  | redecisionsLeft + 1, claim, observed =>
    -- the state moved but the run is still ours: decide again under what holds now
    commitOr repo (fun _ current => commit redecisionsLeft (claim.legalize current) current) claim
      observed

def finalize (offer : σ → SourceReply δ) (claim : TerminalClaim δ) :
    Finalizing δ σ (FinalizationResult δ) := do
  let w ← Action.get
  match w.finalizer.result with
  | some decided => pure (repeated w.finalizer decided claim)
  | none => do
    let winner := claim.strongest (knownClaims w.finalizer offer)
    let observed ← observedStatus repo
    let adopted ← adopt observed
    match adopted with
    | some result => pure result
    | none => commit repo 1 (winner.legalize observed) observed

/-- With a decision in force a call repeats it and touches nothing. -/
theorem finalize_repeats (offer : σ → SourceReply δ) (claim : TerminalClaim δ)
    {w : FinalizerWorld δ σ} {result : FinalizationResult δ} (h : w.finalizer.result = some result) :
    finalize repo offer claim w = (.ok (repeated w.finalizer result claim), w) := by
  show (match w.finalizer.result with
    | some decided => _
    | none => _ : Finalizing δ σ (FinalizationResult δ)) w = _
  rw [h]
  rfl

end Methods

end Milo.Finalization
