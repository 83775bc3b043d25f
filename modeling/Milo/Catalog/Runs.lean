import Milo.Python.Text

/-!
# Runs — the states of a run, and the errors a repository answers

A run moves along `VALID_TRANSITIONS`; a terminal state is never left.
-/

namespace Milo.Catalog

abbrev Text := List Char

/-- `RUN_STATES`. -/
inductive RunStatus
  | queued
  | launching
  | starting
  | running
  | waiting
  | completed
  | partialSuccess
  | failed
  | cancellationRequested
  | cancelled
  | timedOut
  | budgetExhausted
  deriving DecidableEq, Repr

namespace RunStatus

/-- `TERMINAL_STATES`. -/
def isTerminal : RunStatus → Bool
  | completed | partialSuccess | failed | cancelled | timedOut | budgetExhausted => true
  | _ => false

/-- `_COVERAGE_FINISHED`: the run ended with a result. -/
def isFinished : RunStatus → Bool
  | completed | partialSuccess => true
  | _ => false

/-- `VALID_TRANSITIONS`. -/
def validTransitions : RunStatus → List RunStatus
  | queued => [launching, starting, cancellationRequested, failed]
  | launching => [queued, starting, running, cancellationRequested, failed]
  | starting =>
    [running, waiting, completed, partialSuccess, cancellationRequested, failed, timedOut]
  | running =>
    [waiting, completed, partialSuccess, failed, cancellationRequested, timedOut, budgetExhausted]
  | waiting => [running, failed, cancellationRequested, timedOut, budgetExhausted]
  | cancellationRequested => [cancelled, failed]
  | completed | partialSuccess | failed | cancelled | timedOut | budgetExhausted => []

theorem isTerminal_of_isFinished {status : RunStatus} (h : status.isFinished = true) :
    status.isTerminal = true := by
  cases status <;> first | rfl | cases h

/-- A terminal state is exactly one that no transition leaves. -/
theorem isTerminal_iff (status : RunStatus) :
    status.isTerminal = true ↔ status.validTransitions = [] := by
  cases status <;> decide

end RunStatus

/-- `AppError`. -/
structure AppError where
  code : String
  message : String
  statusCode : ℕ
  deriving DecidableEq, Repr

end Milo.Catalog
