import Milo.Budget.Tracker
import Milo.Reasoning.Grouping

/-!
# UsageLedger — the durable usage record of a run

A record is a mapping of named dimensions.  Records of one run are folded into the most advanced of
them before a resume, a fresh tracker is restored from the result, and the tracker states its ledger
again.  Counters are whole numbers; an amount is the double its number is read as.
-/

namespace Milo.Budget

open Milo.Reasoning

/-! ## 1. The dimensions -/

/-- `LEDGER_COUNTERS`. -/
def ledgerCounters : List String :=
  ["model_calls", "provider_attempts", "provider_failures", "input_tokens", "output_tokens",
    "retries", "provider_backpressure_events", "agent_steps", "tool_calls", "tasks_completed",
    "tasks_failed", "search_invocations", "replans", "correction_rounds", "cached_input_tokens",
    "cache_write_tokens", "reasoning_tokens", "reasoning_tokens_estimated",
    "reasoning_estimated_calls", "answer_tokens"]

/-- `LEDGER_AMOUNTS`. -/
def ledgerAmounts : List String :=
  ["estimated_cost", "actual_cost", "search_cost", "elapsed_seconds"]

/-- `LEDGER_METADATA`. -/
def ledgerMetadata : List String := ["ledger_version", "schema_version"]

/-- `LEDGER_SNAPSHOT_FIELDS`. -/
def ledgerSnapshotFields : List String :=
  ledgerCounters ++ ledgerAmounts ++ ["total_tokens"] ++ ledgerMetadata

/-- A value of a record; a float is the number it is spelled by, and none if it is not finite. -/
inductive UsageValue
  | none
  | bool (value : Bool)
  | int (value : ℤ)
  | float (value : Option ℚ)
  | other
  deriving DecidableEq

/-- A usage record, as the storage hands it over. -/
abbrev Snapshot := Dict String UsageValue

namespace UsageValue

/-- `_counter`. -/
def counter : UsageValue → Except String ℤ
  | .int value =>
    if value < 0 then .error "budget snapshot contains an invalid counter" else .ok value
  | _ => .error "budget snapshot contains an invalid counter"

/-- The number a value stands for. -/
def number : UsageValue → ℚ
  | .int value => value
  | .float (some value) => value
  | _ => 0

/-- `float(value)` of a number. -/
def toFloat (value : UsageValue) : ℚ := nearest value.number

/-- `_amount`; an integer beyond the doubles raises an `OverflowError`. -/
def amount : UsageValue → Except String ℚ
  | .int value => do
    let numeric ← required (toDouble? value) "int too large to convert to float"
    refuseIf (numeric < 0) "budget snapshot contains an invalid amount"
    pure numeric
  | .float (some value) => do
    let numeric ← required (toDouble? value) "budget snapshot contains an invalid amount"
    refuseIf (numeric < 0) "budget snapshot contains an invalid amount"
    pure numeric
  | _ => .error "budget snapshot contains an invalid amount"

def readCounter (value : UsageValue) : Except String UsageValue := do
  let parsed ← value.counter
  pure (.int parsed)

def readAmount (value : UsageValue) : Except String UsageValue := do
  let parsed ← value.amount
  pure (.float (some parsed))

end UsageValue

/-- Parse the fields of `names` that the record carries. -/
def parseFields (read : UsageValue → Except String UsageValue) (snapshot : Snapshot) :
    List String → Snapshot → Except String Snapshot
  | [], parsed => .ok parsed
  | name :: names, parsed =>
    match snapshot.get? name with
    | none => parseFields read snapshot names parsed
    | some value => do
      let readValue ← read value
      parseFields read snapshot names (parsed.set name readValue)

/-- `_counter(snapshot.get(name, 0))`. -/
def Snapshot.counterAt (snapshot : Snapshot) (name : String) : Except String ℤ :=
  ((snapshot.get? name).getD (.int 0)).counter

/-- A declared `total_tokens` must equal its components. -/
def parseTotal (snapshot parsed : Snapshot) : Except String Snapshot :=
  match snapshot.get? "total_tokens" with
  | none => .ok parsed
  | some .none => .ok parsed
  | some declared => do
    let total ← declared.counter
    let input ← snapshot.counterAt "input_tokens"
    let output ← snapshot.counterAt "output_tokens"
    if total ≠ input + output then .error "budget snapshot token total is inconsistent"
    else .ok (parsed.set "total_tokens" declared)

/-- Parse one record fail-closed, keeping only the fields it carries. -/
def validateUsageSnapshot (snapshot : Snapshot) : Except String Snapshot := do
  let parsed ← parseFields UsageValue.readCounter snapshot ledgerCounters Dict.empty
  let parsed ← parseFields UsageValue.readAmount snapshot ledgerAmounts parsed
  let parsed ← parseFields UsageValue.readCounter snapshot ledgerMetadata parsed
  parseTotal snapshot parsed

/-! ## 3. The merge -/

/-- What one durable source holds: nothing usable, or a record. -/
inductive UsageRecord
  | absent
  | mapping (snapshot : Snapshot)

/-- `max(merged.get(name, zero), value)`. -/
def maximum (zero : UsageValue) (held : Option UsageValue) (value : UsageValue) : UsageValue :=
  let held := held.getD zero
  if held.number < value.number then value else held

/-- Maximise the fields of `names` that `parsed` carries. -/
def maximiseFields (zero : UsageValue) (parsed : Snapshot) : List String → Snapshot → Snapshot
  | [], merged => merged
  | name :: names, merged =>
    match parsed.get? name with
    | none => maximiseFields zero parsed names merged
    | some value =>
      maximiseFields zero parsed names (merged.set name (maximum zero (merged.get? name) value))

/-- One record is folded in; one that is absent or empty contributes nothing. -/
def mergeRecord (merged : Snapshot) : UsageRecord → Except String Snapshot
  | .absent => .ok merged
  | .mapping snapshot =>
    if snapshot.entries = [] then .ok merged
    else do
      let parsed ← validateUsageSnapshot snapshot
      let merged := maximiseFields (.int 0) parsed (ledgerCounters ++ ledgerMetadata) merged
      pure (maximiseFields (.float (some 0)) parsed ledgerAmounts merged)

def mergeRecords : Snapshot → List UsageRecord → Except String Snapshot
  | merged, [] => .ok merged
  | merged, record :: records => do
    let merged ← mergeRecord merged record
    mergeRecords merged records

/-- `int(merged.get(name, 0))`. -/
def Snapshot.intAt (snapshot : Snapshot) (name : String) : ℤ :=
  match snapshot.get? name with
  | some (.int value) => value
  | _ => 0

/-- The token total is recomputed from the merged components. -/
def withTotal (merged : Snapshot) : Snapshot :=
  if (merged.get? "input_tokens").isSome || (merged.get? "output_tokens").isSome then
    merged.set "total_tokens"
      (.int (merged.intAt "input_tokens" + merged.intAt "output_tokens"))
  else merged

/-- Fold durable usage records of one run into the most advanced of them. -/
def mergeUsageSnapshots (records : List UsageRecord) : Except String Snapshot := do
  let merged ← mergeRecords Dict.empty records
  pure (withTotal merged)

/-! ## 4. What is compared and what remains -/

/-- `float(snapshot.get(name, 0))`. -/
def Snapshot.numberAt (snapshot : Snapshot) (name : String) : ℚ :=
  ((snapshot.get? name).getD (.int 0)).toFloat

/-- What the ledger shows as used of a dimension. -/
def Snapshot.used (ledger : Snapshot) (dimension : String) : ℚ :=
  if dimension = "total_tokens" then
    ((ledger.intAt "input_tokens" + ledger.intAt "output_tokens" : ℤ) : ℚ)
  else ledger.numberAt dimension

/-- The tracker with the counters that no admission check reads, and its start time. -/
structure RunTracker extends Tracker where
  providerBackpressureEvents : ℤ
  toolCalls : ℤ
  tasksCompleted : ℤ
  tasksFailed : ℤ
  replans : ℤ
  correctionRounds : ℤ
  startedAt : ℚ

/-- A tracker as it is constructed at `clock`. -/
def RunTracker.fresh (clock : ℚ) : RunTracker where
  toTracker := Tracker.fresh
  providerBackpressureEvents := 0
  toolCalls := 0
  tasksCompleted := 0
  tasksFailed := 0
  replans := 0
  correctionRounds := 0
  startedAt := clock

namespace RunTracker

variable (t : RunTracker)

/-- Nothing is recorded yet, and nothing is held. -/
def isFresh : Bool :=
  [t.modelCalls, t.providerAttempts, t.providerFailures, t.inputTokens, t.outputTokens, t.retries,
    t.providerBackpressureEvents, t.agentSteps, t.toolCalls, t.tasksCompleted, t.tasksFailed,
    t.searchInvocations, t.replans, t.correctionRounds, t.cachedInputTokens, t.cacheWriteTokens,
    t.reasoningTokens, t.reasoningTokensEstimated, t.reasoningEstimatedCalls, t.answerTokens,
    t.reservedInputTokens, t.reservedOutputTokens, t.reservedSearchInvocations].all (· == 0) &&
  [t.estimatedCost, t.actualCost, t.searchCost, t.reservedCost].all (· == 0)

end RunTracker

end Milo.Budget
