import Milo.Reasoning.Dependency
import Milo.Reasoning.Dict

/-!
# Executor — the bounded dependency-aware task executor

`BoundedTaskExecutor.execute` as a loop of passes.  A pass scans the tasks still remaining, marks
the ones behind a failed dependency as blocked, submits ready ones up to the worker limit and then
collects the futures that have finished.  Which order a pass iterates the remaining set in, which
futures have finished and what a worker returns are the choices of `Surroundings`.
-/

namespace Milo.Swarm

open Milo.Reasoning

/-! ## 1. Graphs and results -/

structure DynamicTask where
  taskId : String
  dependencies : List String
  priority : ℤ

def dependenciesIn (tasks : List DynamicTask) (taskId : String) : List String :=
  match tasks.find? fun t => t.taskId = taskId with
  | none => []
  | some task => task.dependencies

def priorityIn (tasks : List DynamicTask) (taskId : String) : ℤ :=
  match tasks.find? fun t => t.taskId = taskId with
  | none => 0
  | some task => task.priority

/-- A task graph the plan validator accepts: distinct ids, dependencies of the graph, no cycle. -/
structure TaskGraph where
  tasks : List DynamicTask
  unique : (tasks.map DynamicTask.taskId).Nodup
  closed : ∀ taskId, ∀ d ∈ dependenciesIn tasks taskId, d ∈ tasks.map DynamicTask.taskId
  acyclic : Acyclic (dependenciesIn tasks)

namespace TaskGraph

def ids (graph : TaskGraph) : List String := graph.tasks.map DynamicTask.taskId

def dependencies (graph : TaskGraph) : String → List String := dependenciesIn graph.tasks

def priority (graph : TaskGraph) : String → ℤ := priorityIn graph.tasks

end TaskGraph

inductive TaskStatus
  | completed
  | failed
  | blocked
  deriving DecidableEq, Repr

structure TaskError where
  code : String
  message : String
  deriving DecidableEq, Repr

/-- One task's result; the type of outputs stays open. -/
structure TaskResult (α : Type) where
  taskId : String
  status : TaskStatus
  output : Option α
  error : Option TaskError

/-- What a worker returns for a task it was handed. -/
inductive WorkerReply (α : Type)
  | completed (output : α)
  | failed (error : TaskError)
  | raised (exception : String)

def blockedResult {α : Type} (taskId : String) : TaskResult α :=
  ⟨taskId, .blocked, none, some ⟨"DEPENDENCY_FAILED", "a dependency failed"⟩⟩

abbrev Results (α : Type) : Type := Dict String (TaskResult α)

namespace Results

variable {α : Type}

def status? (results : Results α) (taskId : String) : Option TaskStatus :=
  (results.get? taskId).map TaskResult.status

/-- Every dependency has a result. -/
def Settled (results : Results α) (deps : List String) : Prop := ∀ d ∈ deps, d ∈ results.keys

/-- Every dependency has completed. -/
def Completed (results : Results α) (deps : List String) : Prop :=
  ∀ d ∈ deps, results.status? d = some .completed

instance (results : Results α) (deps : List String) : Decidable (results.Settled deps) := by
  unfold Settled
  infer_instance

instance (results : Results α) (deps : List String) : Decidable (results.Completed deps) := by
  unfold Completed
  infer_instance

/-- `{d: results[d].output for d in dependencies}`. -/
def outputs (results : Results α) (deps : List String) : List (String × Option α) :=
  deps.map fun d => (d, (results.get? d).bind TaskResult.output)

end Results

/-! ## 2. State and surroundings -/

inductive SwarmEvent
  | taskReady (taskId : String)
  | taskStarted (taskId : String)
  | taskCompleted (taskId : String)
  | taskFailed (taskId code : String)
  deriving DecidableEq, Repr

/-- A future: the task and the dependency outputs its worker was handed. -/
structure Submission (α : Type) where
  taskId : String
  outputs : List (String × Option α)

structure ExecutorState (α : Type) where
  results : Results α
  remaining : List String
  running : List (Submission α)
  events : List SwarmEvent
  /-- The tasks `task_completed` was called for. -/
  reported : List String

namespace ExecutorState

variable {α : Type}

def runningIds (s : ExecutorState α) : List String := s.running.map Submission.taskId

end ExecutorState

/-- What decides a run besides the graph. -/
structure Surroundings (α : Type) where
  worker : Submission α → WorkerReply α
  /-- The order in which pass `n` iterates the remaining set. -/
  iterate : ℕ → List String → List String
  /-- The futures pass `n` finds finished, in the order it collects them. -/
  finished : ℕ → List String → List String
  cancelled : ℕ → Bool
  iterate_perm : ∀ n remaining, (iterate n remaining).Perm remaining
  finished_nodup : ∀ n running, (finished n running).Nodup
  finished_subset : ∀ n running, finished n running ⊆ running

/-! ## 3. One pass -/

section Pass

variable {α : Type} (graph : TaskGraph)

structure Scan (α : Type) where
  results : Results α
  remaining : List String
  ready : List String

/-- One task of the scan: blocked behind a failed dependency, ready, or left waiting. -/
def scanTask (scan : Scan α) (taskId : String) : Scan α :=
  let deps := graph.dependencies taskId
  if scan.results.Settled deps then
    if scan.results.Completed deps then { scan with ready := taskId :: scan.ready }
    else
      { scan with
        results := scan.results.set taskId (blockedResult taskId)
        remaining := scan.remaining.erase taskId }
  else scan

def scanTasks (results : Results α) (remaining order : List String) : Scan α :=
  order.foldl (scanTask graph) ⟨results, remaining, []⟩

/-- Heap order of the ready tasks: higher priority first, then by task id. -/
def heapLE (a b : String) : Prop :=
  graph.priority b < graph.priority a ∨ (graph.priority b = graph.priority a ∧ a ≤ b)

instance : DecidableRel (heapLE graph) := fun a b => by
  unfold heapLE
  infer_instance

/-- Hand one task to the pool. -/
def submitTask (s : ExecutorState α) (taskId : String) : ExecutorState α :=
  { s with
    remaining := s.remaining.erase taskId
    running := s.running ++ [⟨taskId, s.results.outputs (graph.dependencies taskId)⟩]
    events := s.events ++ [.taskReady taskId, .taskStarted taskId] }

/-- Submit ready tasks, in heap order, while a worker is free. -/
def submitReady (limit : ℕ) : List String → ExecutorState α → ExecutorState α
  | [], s => s
  | taskId :: ready, s =>
    if s.running.length < limit then
      if taskId ∈ s.remaining then submitReady limit ready (submitTask graph s taskId)
      else submitReady limit ready s
    else s

/-- The result a finished future carries, or the exception it raises. -/
def futureResult (env : Surroundings α) (future : Submission α) : Except String (TaskResult α) :=
  match env.worker future with
  | .completed output => .ok ⟨future.taskId, .completed, some output, none⟩
  | .failed error => .ok ⟨future.taskId, .failed, none, some error⟩
  | .raised exception => .error exception

/-- Record one finished future. -/
def recordResult (s : ExecutorState α) (result : TaskResult α) : ExecutorState α :=
  { s with
    results := s.results.set result.taskId result
    running := s.running.filter fun future => decide (future.taskId ≠ result.taskId)
    events := s.events ++ [if result.status = .completed then .taskCompleted result.taskId
      else .taskFailed result.taskId ((result.error.map TaskError.code).getD "TASK_FAILED")]
    reported := if result.status = .completed then s.reported ++ [result.taskId] else s.reported }

def collect (env : Surroundings α) : List String → ExecutorState α → Except String (ExecutorState α)
  | [], s => .ok s
  | taskId :: done, s =>
    match s.running.find? fun future => future.taskId = taskId with
    | none => collect env done s
    | some future =>
      match futureResult env future with
      | .error exception => .error exception
      | .ok result => collect env done (recordResult s result)

inductive ExecutorOutcome (α : Type)
  | returned (results : Results α)
  | incompatibleResume
  | cyclicOrMissing
  | cancelled
  | raised (exception : String)

/-- Where the loop stands before a pass. -/
inductive LoopState (α : Type)
  | looping (s : ExecutorState α)
  | ended (outcome : ExecutorOutcome α)

/-- The state after the scan and the submissions of a pass. -/
def submitted (limit : ℕ) (env : Surroundings α) (n : ℕ) (s : ExecutorState α) :
    ExecutorState α :=
  let scan := scanTasks graph s.results s.remaining (env.iterate n s.remaining)
  submitReady graph limit (scan.ready.insertionSort (heapLE graph))
    { s with results := scan.results, remaining := scan.remaining }

def loopPass (limit : ℕ) (env : Surroundings α) (n : ℕ) (s : ExecutorState α) : LoopState α :=
  if s.remaining = [] ∧ s.running = [] then .ended (.returned s.results)
  else if env.cancelled n then .ended .cancelled
  else
    let s' := submitted graph limit env n s
    if s'.running = [] then
      if s'.remaining = [] then .ended (.returned s'.results) else .ended .cyclicOrMissing
    else
      match collect env (env.finished n s'.runningIds) s' with
      | .error exception => .ended (.raised exception)
      | .ok s'' => .looping s''

/-- `execute` starts with the tasks that are not resumed as completed. -/
def initialState (completed : Results α) : ExecutorState α where
  results := completed
  remaining := graph.ids.filter fun taskId => decide (taskId ∉ completed.keys)
  running := []
  events := []
  reported := []

/-- Resumed results are completed results of tasks of the graph. -/
def Resumable (completed : Results α) : Prop :=
  completed.keys ⊆ graph.ids ∧ ∀ e ∈ completed.entries, e.2.status = .completed

instance (completed : Results α) : Decidable (Resumable graph completed) := by
  unfold Resumable
  infer_instance

/-- The loop before pass `n`, from the resumed results. -/
def loopAt (limit : ℕ) (env : Surroundings α) (completed : Results α) : ℕ → LoopState α
  | 0 => if Resumable graph completed then .looping (initialState graph completed)
    else .ended .incompatibleResume
  | n + 1 =>
    match loopAt limit env completed n with
    | .looping s => loopPass graph limit env n s
    | .ended outcome => .ended outcome

/-- `execute` ends with `outcome`. -/
def Executes (limit : ℕ) (env : Surroundings α) (completed : Results α)
    (outcome : ExecutorOutcome α) : Prop :=
  ∃ n, loopAt graph limit env completed n = .ended outcome

end Pass

end Milo.Swarm
