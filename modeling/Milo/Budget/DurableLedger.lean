import Milo.Budget.UsageMerge
import Milo.Finalization.RunRow
import Milo.Python.Documents
import Milo.Reasoning.Transition

/-!
# DurableLedger — the usage ledger the database keeps of a run

A worker records the run's usage under its lease.  The database merges the record into one row of the
run, numbers the changes, and merges the public part of the row into the usage of the run.  A record
is a JSON object; Python reads the same object.
-/

namespace Milo.Budget

open Milo.Reasoning Milo.Python Milo.Catalog Milo.Finalization

/-- A usage record as the database holds it: a JSON object. -/
abbrev UsageDocument := Dict String Jsonb

/-! ## 1. Numbers -/

/-- `(value::text)::numeric`, where `jsonb_typeof(value) = 'number'`. -/
def numericOf : Jsonb → Option ℚ
  | .number unscaled scale => some (unscaled / 10 ^ scale)
  | _ => none

def isNegative (value : Jsonb) : Bool := (numericOf value).any fun q => decide (q < 0)

/-- What Python reads of a value: a number with a scale is a float, spelled as it is stored. -/
def pythonValue : Jsonb → UsageValue
  | .null => .none
  | .bool b => .bool b
  | .number n 0 => .int n
  | .number n (scale + 1) => .float (some (n / 10 ^ (scale + 1)))
  | _ => .other

def pythonRecord (document : UsageDocument) : Snapshot :=
  document.mapValues fun _ value => pythonValue value

/-- `validate_usage_snapshot` accepts the record. -/
def isValidUsage (document : UsageDocument) : Bool :=
  (validateUsageSnapshot (pythonRecord document)).toOption.isSome

/-- `a is distinct from b`, of objects. -/
def isDistinct (a b : UsageDocument) : Bool :=
  (a.keys ++ b.keys).any fun key => !sameValue (a.get? key) (b.get? key)

/-! ## 2. The merge -/

def negativeUsage (key : String) : String := "USAGE_LEDGER_INVALID: negative usage value for " ++ key

/-- What the merge takes at one key: the greater number, or what the incoming record has. -/
def mergedValue (key : String) : Option Jsonb → Option Jsonb → Except String Jsonb
  | some a, some b =>
    match numericOf a, numericOf b with
    | some x, some y =>
      if x < 0 ∨ y < 0 then .error (negativeUsage key) else .ok (if y ≤ x then a else b)
    | _, _ => if isNegative b then .error (negativeUsage key) else .ok b
  | none, some b => if isNegative b then .error (negativeUsage key) else .ok b
  | some a, none => if isNegative a then .error (negativeUsage key) else .ok a
  | none, none => .ok .null

/-- `select distinct key` over both records. -/
def mergeKeys (current incoming : UsageDocument) : List String :=
  current.keys ++ incoming.keys.filter fun key => !current.keys.contains key

def mergeLoop (current incoming : UsageDocument) :
    List String → UsageDocument → Except String UsageDocument
  | [], merged => .ok merged
  | key :: keys, merged =>
    if key = "total_tokens" then mergeLoop current incoming keys merged
    else do
      let value ← mergedValue key (current.get? key) (incoming.get? key)
      mergeLoop current incoming keys (merged.set key value)

/-- The sum of two numerics, at the greater scale. -/
def numericSum : ℤ × ℕ → ℤ × ℕ → Jsonb
  | (n, scale), (m, scale') =>
    .number (n * 10 ^ (max scale scale' - scale) + m * 10 ^ (max scale scale' - scale'))
      (max scale scale')

section Merge

/-! `castNumeric` is `text::numeric` of a value that is not a number. -/

variable (castNumeric : List Char → Option (ℤ × ℕ))

/-- `coalesce((record ->> key)::numeric, 0)`. -/
def tokensOf : Option Jsonb → Except String (ℤ × ℕ)
  | some (.number unscaled scale) => .ok (unscaled, scale)
  | value =>
    match rendered value with
    | none => .ok (0, 0)
    | some text => required (castNumeric text) "invalid input syntax for type numeric"

/-- The derived total, where a token dimension is there. -/
def withTokenTotal (merged : UsageDocument) : Except String UsageDocument :=
  if (merged.get? "input_tokens").isSome || (merged.get? "output_tokens").isSome then do
    let input ← tokensOf castNumeric (merged.get? "input_tokens")
    let output ← tokensOf castNumeric (merged.get? "output_tokens")
    pure (merged.set "total_tokens" (numericSum input output))
  else .ok merged

/-- `merge_execution_usage`. -/
def mergeExecutionUsage (current incoming : UsageDocument) : Except String UsageDocument := do
  let merged ← mergeLoop current incoming (mergeKeys current incoming) Dict.empty
  withTokenTotal castNumeric merged

end Merge

/-- The keys of `execution_usage_public_projection`. -/
def publicUsageFields : List String :=
  ["model_calls", "input_tokens", "output_tokens", "total_tokens", "estimated_cost", "actual_cost",
    "retries", "provider_backpressure_events", "agent_steps", "elapsed_seconds",
    "cached_input_tokens", "cache_write_tokens", "reasoning_tokens", "reasoning_tokens_estimated",
    "reasoning_estimated_calls", "answer_tokens"]

/-- `execution_usage_public_projection`. -/
def publicProjection (ledger : UsageDocument) : UsageDocument :=
  ledger.filter fun key _ => publicUsageFields.contains key

/-! ## 3. The row and its trigger -/

/-- A row of `run_execution_usage`. -/
structure UsageRow where
  schemaVersion : ℤ
  version : ℕ
  attempt : ℕ
  workerId : Option Text
  ledger : UsageDocument

/-- A number of the old ledger that the new one lowers, or no longer has as a number. -/
def isLowered (old new : UsageDocument) (key : String) : Bool :=
  decide (key ≠ "total_tokens") &&
    ((old.get? key).bind numericOf).any fun held =>
      ((new.get? key).bind numericOf).all fun stored => decide (stored < held)

/-- `run_execution_usage_enforce_monotonic`. -/
def enforceMonotonic (old new : UsageRow) : Except String Unit :=
  match old.ledger.keys.find? (isLowered old.ledger new.ledger) with
  | some key => .error ("USAGE_LEDGER_NOT_MONOTONIC: " ++ key ++ " may not decrease")
  | none => do
    refuseIf (isDistinct new.ledger old.ledger = true ∧ new.version ≤ old.version)
      "USAGE_LEDGER_NOT_MONOTONIC: a changed ledger must advance the version"
    refuseIf (new.version < old.version)
      "USAGE_LEDGER_NOT_MONOTONIC: version may not decrease"

/-- `greatest(1, coalesce((v_incoming ->> 'schema_version')::integer, 1))`. -/
def schemaOf (incoming : UsageDocument) : Except String ℤ :=
  match rendered (incoming.get? "schema_version") with
  | none => .ok 1
  | some text => do
    let schema ← required (castInteger text) "invalid input syntax for type integer"
    pure (max 1 schema)

/-- The row after a change, with its bookkeeping. -/
def UsageRow.advanced (row : UsageRow) (lease : WorkerLease) (schema : ℤ) (merged : UsageDocument) :
    UsageRow where
  schemaVersion := max schema row.schemaVersion
  version := row.version + 1
  attempt := max row.attempt lease.attempt
  workerId := some lease.workerId
  ledger := (merged.set "ledger_version" (.number (row.version + 1) 0)).set "schema_version"
    (.number (max schema row.schemaVersion) 0)

/-! ## 4. The two calls -/

/-- The run with its usage, and the ledger row once there is one. -/
structure UsageState where
  run : RunRecord UsageDocument
  row : Option UsageRow

/-- What a call found, and what it merged from it. -/
structure Recording where
  existing : UsageRow
  schema : ℤ
  merged : UsageDocument

/-- The row `insert … on conflict do nothing` leaves. -/
def UsageState.existing (s : UsageState) (lease : WorkerLease) (schema : ℤ) : UsageRow :=
  s.row.getD ⟨schema, 0, lease.attempt, some lease.workerId, Dict.empty⟩

/-- Whether the call writes the row. -/
def Recording.changes (r : Recording) : Bool :=
  isDistinct r.merged r.existing.ledger || decide (r.existing.version = 0)

def Recording.written (r : Recording) (lease : WorkerLease) : UsageRow :=
  r.existing.advanced lease r.schema r.merged

/-- The row the call returns: the one written past the trigger, or the one that was there. -/
def Recording.stored (r : Recording) (lease : WorkerLease) : Except String UsageRow :=
  if r.changes then do
    enforceMonotonic r.existing (r.written lease)
    pure (r.written lease)
  else .ok r.existing

section Calls

variable (castNumeric : List Char → Option (ℤ × ℕ))

/-- The merge of a record; the sequence number is never the caller's. -/
def UsageState.recording (s : UsageState) (lease : WorkerLease) (ledger : UsageDocument) :
    Except String Recording := do
  let incoming := ledger.erase "ledger_version"
  let schema ← schemaOf incoming
  let existing := s.existing lease schema
  let merged ← mergeExecutionUsage castNumeric existing.ledger incoming
  pure ⟨existing, schema, merged⟩

/-- `record_run_usage_guarded`. -/
def recordRunUsage (s : UsageState) (now : ℤ) (lease : WorkerLease) (ledger : UsageDocument) :
    Except String UsageState := do
  refuseIf (s.run.assertWorkerLease now lease = false) "STALE_WORKER_WRITE"
  let recording ← s.recording castNumeric lease ledger
  let row ← recording.stored lease
  let usage ← mergeExecutionUsage castNumeric s.run.usage (publicProjection row.ledger)
  pure { s with run := { s.run with usage }, row := some row }

/-- `update_run_usage_guarded`. -/
def updateRunUsage (s : UsageState) (now : ℤ) (owner : Ownership) (usage : UsageDocument) :
    Except String UsageState := do
  refuseIf (s.run.ownedBy now owner = false) "STALE_WORKER_WRITE"
  let usage ← mergeExecutionUsage castNumeric s.run.usage usage
  pure { s with run := { s.run with usage } }

/-! ## 5. Runs -/

/-- The calls of the leaseholders, and every change of the lease. -/
inductive UsageEvent
  | leased (workerId : Option Text) (attempt : ℕ) (leaseToken : Option Text)
      (leaseExpiresAt : Option ℤ)
  | record (now : ℤ) (lease : WorkerLease) (ledger : UsageDocument)
  | update (now : ℤ) (owner : Ownership) (usage : UsageDocument)

/-- What an event leads to, if it is not refused. -/
def UsageState.call (s : UsageState) : UsageEvent → Except String UsageState
  | .leased workerId attempt leaseToken leaseExpiresAt =>
    .ok { s with run := { s.run with workerId, attempt, leaseToken, leaseExpiresAt } }
  | .record now lease ledger => recordRunUsage castNumeric s now lease ledger
  | .update now owner usage => updateRunUsage castNumeric s now owner usage

/-- A refused call changes nothing. -/
def UsageState.exec (s : UsageState) (event : UsageEvent) : UsageState :=
  (s.call castNumeric event).toOption.getD s

end Calls

/-- The record of a call is valid. -/
def UsageEvent.Valid : UsageState → UsageEvent → Prop
  | _, .leased _ _ _ _ => True
  | _, .record _ _ ledger => isValidUsage ledger = true
  | _, .update _ _ usage => isValidUsage usage = true

namespace UsageState

variable (s : UsageState)

/-- The stored ledger, empty before the first record. -/
def ledger : UsageDocument := (s.row.map UsageRow.ledger).getD Dict.empty

def version : ℕ := (s.row.map UsageRow.version).getD 0

end UsageState

end Milo.Budget
