import Milo.Reasoning.Dict

/-!
# Claim — terminal claims and what they weigh

A `TerminalClaim` says why a run ended and carries the evidence for it; the durable status is
derived from the reason.  Statuses are ordered by authority: an operator's cancellation outranks a
tripped safety rail, which outranks a failure, and `completed` is the weakest claim of all.
-/

namespace Milo.Finalization

open Milo.Reasoning

/-! ## 1. Statuses -/

inductive TerminalStatus
  | completed
  | partialSuccess
  | failed
  | cancelled
  | timedOut
  | budgetExhausted
  deriving DecidableEq, Repr

namespace TerminalStatus

def text : TerminalStatus → String
  | completed => "completed"
  | partialSuccess => "partial_success"
  | failed => "failed"
  | cancelled => "cancelled"
  | timedOut => "timed_out"
  | budgetExhausted => "budget_exhausted"

/-- `TERMINAL_AUTHORITY`. -/
def authority : TerminalStatus → ℕ
  | cancelled => 50
  | timedOut => 40
  | budgetExhausted => 40
  | failed => 30
  | partialSuccess => 20
  | completed => 10

def all : List TerminalStatus :=
  [completed, partialSuccess, failed, cancelled, timedOut, budgetExhausted]

/-- The terminal state a status read from the repository names, if it is one of `TERMINAL_STATES`. -/
def ofText? (status : String) : Option TerminalStatus := all.find? fun t => t.text = status

/-- `_TERMINAL_EVENT`: budget and timeout stops have none. -/
def terminalEvent : TerminalStatus → Option String
  | completed => some "run_completed"
  | partialSuccess => some "run_partial_success"
  | failed => some "run_failed"
  | cancelled => some "run_cancelled"
  | timedOut => none
  | budgetExhausted => none

theorem authority_le_cancelled (status : TerminalStatus) :
    status.authority ≤ cancelled.authority := by
  cases status <;> decide

end TerminalStatus

/-! ## 2. Outcomes -/

inductive SemanticStatus
  | complete
  | partly
  | unusable
  | refused
  | notProduced
  deriving DecidableEq, Repr

/-- The part of a product outcome that a terminal decision reads. -/
structure ProductOutcome where
  engine : String
  semanticStatus : SemanticStatus
  payloadDigest : Option String
  resultKind : Option String
  deriving DecidableEq, Repr

/-- `_DURABLE_PRODUCT_STATUS`. -/
def ProductOutcome.durableProductStatus (outcome : ProductOutcome) : TerminalStatus :=
  match outcome.semanticStatus with
  | .complete => .completed
  | .partly => .partialSuccess
  | .unusable => .partialSuccess
  | .refused => .failed
  | .notProduced => .failed

/-! ## 3. Claims -/

inductive ClaimReason
  | product
  | controlSuccess
  | cancelled
  | budgetStop
  | failure
  | refusal
  deriving DecidableEq, Repr

structure ClaimError where
  code : String
  message : String
  deriving DecidableEq, Repr

/-- One branch's claim about how the run ended; documents are of type `δ`.  A budget stop names its
    status, which the source checks when the claim is built. -/
structure TerminalClaim (δ : Type) where
  reason : ClaimReason
  outcome : ProductOutcome
  output : Option δ
  error : Option ClaimError
  usage : Option δ
  stopStatus : Option TerminalStatus
  eventEmitted : Bool
  eventPayload : List (String × δ)
  stopNamed : reason = .budgetStop → stopStatus.isSome

namespace TerminalClaim

variable {δ : Type}

def durableStatus (claim : TerminalClaim δ) : TerminalStatus :=
  match hreason : claim.reason with
  | .budgetStop => claim.stopStatus.get (claim.stopNamed hreason)
  | .product => claim.outcome.durableProductStatus
  | .controlSuccess => .completed
  | .cancelled => .cancelled
  | .failure => .failed
  | .refusal => .failed

def authority (claim : TerminalClaim δ) : ℕ := claim.durableStatus.authority

/-- What makes two claims the same decision. -/
structure Identity where
  reason : ClaimReason
  durableStatus : TerminalStatus
  errorCode : Option String
  semanticStatus : SemanticStatus
  payloadDigest : Option String
  deriving DecidableEq, Repr

def identity (claim : TerminalClaim δ) : Identity where
  reason := claim.reason
  durableStatus := claim.durableStatus
  errorCode := claim.error.map ClaimError.code
  semanticStatus := claim.outcome.semanticStatus
  payloadDigest := claim.outcome.payloadDigest

/-- The strongest of the claims; on a tie the earlier one is kept. -/
def strongest (claim : TerminalClaim δ) (others : List (TerminalClaim δ)) : TerminalClaim δ :=
  others.foldl (fun winner other => if winner.authority < other.authority then other else winner)
    claim

theorem strongest_bound (claim : TerminalClaim δ) (others : List (TerminalClaim δ)) :
    claim.authority ≤ (strongest claim others).authority ∧
      ∀ other ∈ others, other.authority ≤ (strongest claim others).authority := by
  induction others generalizing claim with
  | nil => exact ⟨Nat.le_refl _, fun other hother => absurd hother List.not_mem_nil⟩
  | cons first rest ih =>
    show claim.authority ≤ (strongest _ rest).authority ∧ _
    by_cases hlt : claim.authority < first.authority
    · have hnext := ih first
      simp only [strongest, List.foldl_cons, if_pos hlt] at *
      refine ⟨by omega, ?_⟩
      intro other hother
      rcases List.mem_cons.mp hother with rfl | hrest
      · exact hnext.1
      · exact hnext.2 other hrest
    · have hnext := ih claim
      simp only [strongest, List.foldl_cons, if_neg hlt] at *
      refine ⟨hnext.1, ?_⟩
      intro other hother
      rcases List.mem_cons.mp hother with rfl | hrest
      · omega
      · exact hnext.2 other hrest

/-- Reconcile a claim with a cancellation the run has already accepted. -/
def legalize (claim : TerminalClaim δ) (observed : Option String) : TerminalClaim δ :=
  if observed ≠ some "cancellation_requested" then claim
  else if claim.durableStatus = .cancelled ∨ claim.durableStatus = .failed then claim
  else
    { reason := .cancelled
      outcome := claim.outcome
      output := claim.output
      error := some ⟨"RUN_CANCELLED_AFTER_RESULT",
        "Run cancelled; the result produced before cancellation is preserved"⟩
      usage := claim.usage
      stopStatus := none
      eventEmitted := false
      eventPayload := []
      stopNamed := by simp }

theorem authority_le_legalize (claim : TerminalClaim δ) (observed : Option String) :
    claim.authority ≤ (claim.legalize observed).authority := by
  unfold legalize
  split
  · exact Nat.le_refl _
  · split
    · exact Nat.le_refl _
    · -- the reconciled claim is a cancellation, and nothing outranks one
      exact TerminalStatus.authority_le_cancelled claim.durableStatus

end TerminalClaim

/-! ## 4. The event a decision owes -/

inductive EventValue (δ : Type)
  | outcome (record : ProductOutcome)
  | text (value : String)
  | document (value : δ)

structure TerminalEvent (δ : Type) where
  type : String
  message : String
  payload : Dict String (EventValue δ)

/-- `None` for a claim whose cause event the tracker already emitted. -/
def TerminalClaim.terminalEvent {δ : Type} (claim : TerminalClaim δ) (status : TerminalStatus) :
    Option (TerminalEvent δ) :=
  match status.terminalEvent with
  | none => none
  | some type =>
    if claim.eventEmitted then none
    else
      let product : Dict String (EventValue δ) :=
        if claim.reason = .product then
          let record := Dict.empty.set "product_outcome" (.outcome claim.outcome)
          match claim.outcome.resultKind with
          | none => record
          | some kind => record.set "result_kind" (.text kind)
        else Dict.empty
      let coded := match claim.error with
        | none => product
        | some error => product.set "code" (.text error.code)
      some
        { type := type
          message := match claim.error with
            | some error => if error.message = "" then "Run " ++ status.text else error.message
            | none => "Run " ++ status.text
          payload := claim.eventPayload.foldl (fun payload item => payload.set item.1
            (.document item.2)) coded }

end Milo.Finalization
