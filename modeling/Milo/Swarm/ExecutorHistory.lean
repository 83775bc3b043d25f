import Milo.Reasoning.Transition
import Milo.Swarm.ExecutorRuns

/-!
# ExecutorHistory — what an execution does, step by step

Every change of the executor's state is one of four acts: a task is blocked, a task is submitted, a
result is recorded, a completed task is reported.  The acts of the passes, in the order of the source,
are a run of the transition system in which each act is allowed where the executor's own tests allow it.
What holds of every such run holds of every execution, whatever order the set of remaining tasks is
iterated in and whichever futures a pass finds finished.
-/

namespace Milo.Swarm

open Milo.Reasoning

variable {α : Type}

/-! ## 1. Acts -/

inductive ExecutorAct (α : Type)
  | block (taskId : String)
  | submit (future : Submission α)
  | record (result : TaskResult α)
  | report (taskId : String)

namespace ExecutorState

def perform (s : ExecutorState α) : ExecutorAct α → ExecutorState α
  | .block taskId =>
    { s with
      results := s.results.set taskId (blockedResult taskId)
      remaining := s.remaining.erase taskId }
  | .submit future =>
    { s with
      remaining := s.remaining.erase future.taskId
      running := s.running ++ [future]
      events := s.events ++ [.taskReady future.taskId, .taskStarted future.taskId] }
  | .record result =>
    { s with
      results := s.results.set result.taskId result
      running := s.running.filter fun future => decide (future.taskId ≠ result.taskId)
      events := s.events ++ [if result.status = .completed then .taskCompleted result.taskId
        else .taskFailed result.taskId ((result.error.map TaskError.code).getD "TASK_FAILED")] }
  | .report taskId => { s with reported := s.reported ++ [taskId] }

end ExecutorState

section Acts

variable (graph : TaskGraph) (limit : ℕ) (env : Surroundings α)

/-- Where the executor may do what. -/
def ExecutorAct.Allowed (s : ExecutorState α) : ExecutorAct α → Prop
  | .block taskId => taskId ∈ s.remaining ∧ s.results.Settled (graph.dependencies taskId) ∧
      ¬s.results.Completed (graph.dependencies taskId)
  | .submit future => future.taskId ∈ s.remaining ∧ s.results.Completed (graph.dependencies future.taskId) ∧
      future.outputs = s.results.outputs (graph.dependencies future.taskId) ∧ s.running.length < limit
  | .record result => ∃ future ∈ s.running, futureResult env future = .ok result
  | .report taskId => s.results.status? taskId = some .completed

abbrev ExecutorStep : ExecutorState α → ExecutorAct α → ExecutorState α → Prop :=
  Performs (ExecutorAct.Allowed graph limit env) ExecutorState.perform

/-- What a scan does: it blocks tasks. -/
def scanActs : List String → Scan α → List (ExecutorAct α)
  | [], _ => []
  | taskId :: order, scan =>
    (if scan.results.Settled (graph.dependencies taskId) ∧ ¬scan.results.Completed (graph.dependencies taskId)
      then [.block taskId] else []) ++ scanActs order (scanTask graph scan taskId)

def submitActs : List String → ExecutorState α → List (ExecutorAct α)
  | [], _ => []
  | taskId :: ready, s =>
    if s.running.length < limit then
      if taskId ∈ s.remaining then
        .submit ⟨taskId, s.results.outputs (graph.dependencies taskId)⟩ ::
          submitActs ready (submitTask graph s taskId)
      else submitActs ready s
    else []

/-- A result is recorded, and then a completed task is reported. -/
def resultActs (result : TaskResult α) : List (ExecutorAct α) :=
  .record result :: if result.status = .completed then [.report result.taskId] else []

/-- What the collecting of futures does until one of them raises. -/
def collectActs : List String → ExecutorState α → List (ExecutorAct α)
  | [], _ => []
  | taskId :: done, s =>
    match s.running.find? fun future => decide (future.taskId = taskId) with
    | none => collectActs done s
    | some future =>
      match futureResult env future with
      | .error _ => []
      | .ok result => resultActs result ++ collectActs done (recordResult s result)

def passActs (n : ℕ) (s : ExecutorState α) : List (ExecutorAct α) :=
  if s.remaining = [] ∧ s.running = [] then []
  else if env.cancelled n then []
  else
    scanActs graph (env.iterate n s.remaining) ⟨s.results, s.remaining, []⟩ ++
      (submitActs graph limit ((passScan graph env n s).ready.insertionSort (heapLE graph))
        ((passScan graph env n s).apply s) ++
      if (submitted graph limit env n s).running = [] then []
      else collectActs env (env.finished n (submitted graph limit env n s).runningIds)
        (submitted graph limit env n s))

/-- Everything the first `n` passes do. -/
def executionActs (completed : Results α) : ℕ → List (ExecutorAct α)
  | 0 => []
  | n + 1 => executionActs completed n ++
      match loopAt graph limit env completed n with
      | .looping s => passActs graph limit env n s
      | .ended _ => []

/-- The history of the first `n` passes: every act with the state it was done in. -/
def executionHistory (completed : Results α) (n : ℕ) : List (ExecutorState α × ExecutorAct α) :=
  performed ExecutorState.perform (initialState graph completed) (executionActs graph limit env completed n)

/-- The state the acts lead to. -/
def executionState (completed : Results α) (n : ℕ) : ExecutorState α :=
  (executionActs graph limit env completed n).foldl ExecutorState.perform (initialState graph completed)

end Acts

section Histories

variable (hist : List (ExecutorState α × ExecutorAct α))

def ExecutorAct.submission? : ExecutorAct α → Option (Submission α)
  | .submit future => some future
  | _ => none

def ExecutorAct.recorded? : ExecutorAct α → Option (TaskResult α)
  | .record result => some result
  | _ => none

def ExecutorAct.reported? : ExecutorAct α → Option String
  | .report taskId => some taskId
  | _ => none

def submissions : List (Submission α) := hist.filterMap fun e => e.2.submission?

def recordedResults : List (TaskResult α) := hist.filterMap fun e => e.2.recorded?

/-- The calls of `task_completed`. -/
def reports : List String := hist.filterMap fun e => e.2.reported?

end Histories

/-! ## 2. The acts lead where the passes lead -/

section Performed

variable {graph : TaskGraph} {limit : ℕ} {env : Surroundings α} {s : ExecutorState α}

theorem perform_scanActs (order : List String) (scan : Scan α) :
    (scanActs graph order scan).foldl ExecutorState.perform (scan.apply s) =
      (order.foldl (scanTask graph) scan).apply s := by
  induction order generalizing scan with
  | nil => rfl
  | cons t rest ih =>
    rw [scanActs, List.foldl_append, List.foldl_cons, ← ih]
    congr 1
    unfold scanTask
    by_cases hsettled : scan.results.Settled (graph.dependencies t)
    · by_cases hcompleted : scan.results.Completed (graph.dependencies t)
      · simp only [hsettled, hcompleted, not_true_eq_false, and_false, if_false, if_true]
        rfl
      · simp only [hsettled, hcompleted, not_false_eq_true, and_self, if_false, if_true]
        rfl
    · simp only [hsettled, false_and, if_false]
      rfl

theorem perform_submitActs (ready : List String) (s : ExecutorState α) :
    (submitActs graph limit ready s).foldl ExecutorState.perform s = submitReady graph limit ready s := by
  induction ready generalizing s with
  | nil => rfl
  | cons t rest ih =>
    unfold submitActs submitReady
    by_cases hfree : s.running.length < limit
    · rw [if_pos hfree, if_pos hfree]
      by_cases hmem : t ∈ s.remaining
      · rw [if_pos hmem, if_pos hmem, List.foldl_cons]
        exact ih (submitTask graph s t)
      · rw [if_neg hmem, if_neg hmem]
        exact ih s
    · rw [if_neg hfree, if_neg hfree]
      rfl

theorem perform_resultActs (s : ExecutorState α) (result : TaskResult α) :
    (resultActs result).foldl ExecutorState.perform s = recordResult s result := by
  unfold resultActs recordResult
  by_cases hcompleted : result.status = .completed
  · simp only [hcompleted, if_true]
    rw [List.foldl_cons, List.foldl_cons, List.foldl_nil]
    simp only [ExecutorState.perform, hcompleted, if_true]
  · simp only [hcompleted, if_false]
    rw [List.foldl_cons, List.foldl_nil]
    simp only [ExecutorState.perform, hcompleted, if_false]

theorem perform_collectActs {done : List String} {s s' : ExecutorState α} (h : collect env done s = .ok s') :
    (collectActs env done s).foldl ExecutorState.perform s = s' := by
  induction done generalizing s with
  | nil =>
    cases h
    rfl
  | cons t rest ih =>
    unfold collect at h
    unfold collectActs
    cases hfind : s.running.find? fun future => decide (future.taskId = t) with
    | none =>
      simp only [hfind] at h ⊢
      exact ih h
    | some future =>
      simp only [hfind] at h ⊢
      cases hresult : futureResult env future with
      | error e =>
        simp only [hresult] at h
        cases h
      | ok result =>
        simp only [hresult] at h ⊢
        rw [List.foldl_append, perform_resultActs]
        exact ih h

theorem perform_passActs {n : ℕ} {s' : ExecutorState α} (h : loopPass graph limit env n s = .looping s') :
    (passActs graph limit env n s).foldl ExecutorState.perform s = s' := by
  unfold loopPass at h
  unfold passActs
  split at h
  · cases h
  · rename_i hgoing
    rw [if_neg hgoing]
    split at h
    · cases h
    · rename_i hcancelled
      have hscan : (scanActs graph (env.iterate n s.remaining) ⟨s.results, s.remaining, []⟩).foldl
          ExecutorState.perform s = (passScan graph env n s).apply s :=
        perform_scanActs (env.iterate n s.remaining) ⟨s.results, s.remaining, []⟩
      rw [if_neg hcancelled, List.foldl_append, List.foldl_append, hscan, perform_submitActs,
        ← submitted_eq limit env n]
      by_cases hidle : (submitted graph limit env n s).running = []
      · simp only [hidle, if_true] at h
        split at h
        · cases h
        · cases h
      · simp only [hidle, if_false] at h
        rw [if_neg hidle]
        cases hcollect : collect env (env.finished n (submitted graph limit env n s).runningIds)
            (submitted graph limit env n s) with
        | error e =>
          simp only [hcollect] at h
          cases h
        | ok s1 =>
          simp only [hcollect] at h
          cases h
          exact perform_collectActs hcollect

variable {completed : Results α}

theorem executionActs_of_looping {n : ℕ} (h : loopAt graph limit env completed n = .looping s) :
    executionActs graph limit env completed (n + 1) =
      executionActs graph limit env completed n ++ passActs graph limit env n s := by
  rw [executionActs, h]

theorem executionActs_of_ended {n : ℕ} {outcome : ExecutorOutcome α}
    (h : loopAt graph limit env completed n = .ended outcome) :
    executionActs graph limit env completed (n + 1) = executionActs graph limit env completed n := by
  rw [executionActs, h, List.append_nil]

/-- The loop stands where the acts of its passes lead. -/
theorem executionState_of_looping {n : ℕ} (h : loopAt graph limit env completed n = .looping s) :
    executionState graph limit env completed n = s := by
  induction n generalizing s with
  | zero =>
    unfold loopAt at h
    split at h
    · cases h
      rfl
    · cases h
  | succ n ih =>
    cases hbefore : loopAt graph limit env completed n with
    | looping s1 =>
      rw [loopAt_succ_of_looping hbefore] at h
      have hs1 : (executionActs graph limit env completed n).foldl ExecutorState.perform
          (initialState graph completed) = s1 := ih hbefore
      unfold executionState
      rw [executionActs_of_looping hbefore, List.foldl_append, hs1]
      exact perform_passActs h
    | ended outcome =>
      rw [loopAt_succ_of_ended hbefore] at h
      cases h

end Performed

/-! ## 3. The acts are allowed -/

section Allowed

variable {graph : TaskGraph} {limit : ℕ} {env : Surroundings α} {s : ExecutorState α}

/-- Every act of the list is allowed in the state it is done in. -/
def AllAllowed (graph : TaskGraph) (limit : ℕ) (env : Surroundings α) (s : ExecutorState α) :
    List (ExecutorAct α) → Prop
  | [] => True
  | act :: acts => act.Allowed graph limit env s ∧ AllAllowed graph limit env (s.perform act) acts

variable {acts : List (ExecutorAct α)}

theorem allAllowed_append {later : List (ExecutorAct α)} :
    AllAllowed graph limit env s (acts ++ later) ↔ AllAllowed graph limit env s acts ∧
      AllAllowed graph limit env (acts.foldl ExecutorState.perform s) later := by
  induction acts generalizing s with
  | nil => exact ⟨fun h => ⟨trivial, h⟩, fun h => h.2⟩
  | cons act acts ih =>
    show act.Allowed graph limit env s ∧ AllAllowed graph limit env (s.perform act) (acts ++ later) ↔ _
    rw [ih, ← and_assoc]
    rfl

theorem run_of_allAllowed (h : AllAllowed graph limit env s acts) :
    Run (ExecutorStep graph limit env) s (performed ExecutorState.perform s acts)
      (acts.foldl ExecutorState.perform s) := by
  apply run_performed
  induction acts generalizing s with
  | nil => exact fun e he => absurd he List.not_mem_nil
  | cons act acts ih =>
    intro e he
    rcases List.mem_cons.mp he with rfl | he
    · exact h.1
    · exact ih h.2 e he

/-- A task is in one place: it has a result, is still to be run, or runs. -/
def OnePlace (s : ExecutorState α) : Prop := (s.results.keys ++ (s.remaining ++ s.runningIds)).Nodup

theorem OnePlace.notMem_keys (h : OnePlace s) {t : String} (ht : t ∈ s.remaining ++ s.runningIds) :
    t ∉ s.results.keys := fun hk => (List.nodup_append.mp h).2.2 t hk t ht rfl

theorem OnePlace.remaining_nodup (h : OnePlace s) : s.remaining.Nodup :=
  (List.nodup_append.mp (List.nodup_append.mp h).2.1).1

theorem OnePlace.running_nodup (h : OnePlace s) : s.runningIds.Nodup :=
  (List.nodup_append.mp (List.nodup_append.mp h).2.1).2.1

theorem taskId_of_futureResult {future : Submission α} {result : TaskResult α}
    (h : futureResult env future = .ok result) : result.taskId = future.taskId ∧ result.status ≠ .blocked := by
  unfold futureResult at h
  split at h
  · cases h
    exact ⟨rfl, fun h => by cases h⟩
  · cases h
    exact ⟨rfl, fun h => by cases h⟩
  · cases h

/-- Each act takes a task from one place to the next. -/
theorem OnePlace.perform {act : ExecutorAct α} (h : OnePlace s) (hact : act.Allowed graph limit env s) :
    OnePlace (s.perform act) := by
  have hsettle : ∀ (t : String) (r : TaskResult α) (places : List String), t ∈ s.remaining ++ s.runningIds →
      (t :: places).Perm (s.remaining ++ s.runningIds) → ((s.results.set t r).keys ++ places).Nodup := by
    intro t r places ht hperm
    rw [Dict.keys_set_of_notMem (h.notMem_keys ht), List.append_assoc]
    exact ((hperm.append_left s.results.keys).nodup_iff).mpr h
  cases act with
  | block t =>
    apply hsettle t _ _ (List.mem_append_left _ hact.1)
    exact (List.perm_cons_erase hact.1).symm.append_right s.runningIds
  | submit future =>
    have hperm : (s.remaining.erase future.taskId ++ (s.runningIds ++ [future.taskId])).Perm
        (s.remaining ++ s.runningIds) := by
      rw [← List.append_assoc]
      apply (List.perm_append_singleton _ _).trans
      exact (List.perm_cons_erase hact.1).symm.append_right s.runningIds
    have hids : (s.perform (.submit future)).runningIds = s.runningIds ++ [future.taskId] := by
      simp [ExecutorState.perform, ExecutorState.runningIds]
    show (s.results.keys ++ (s.remaining.erase future.taskId ++ _)).Nodup
    rw [hids]
    exact ((hperm.append_left s.results.keys).nodup_iff).mpr h
  | record result =>
    obtain ⟨future, hfuture, hresult⟩ := hact
    have hid : result.taskId ∈ s.runningIds := by
      rw [(taskId_of_futureResult hresult).1]
      exact List.mem_map_of_mem hfuture
    apply hsettle result.taskId result _ (List.mem_append_right _ hid)
    have hids : (recordResult s result).runningIds = s.runningIds.erase result.taskId :=
      runningIds_recordResult h.running_nodup result
    have hsame : (s.perform (.record result)).runningIds = (recordResult s result).runningIds := rfl
    show (result.taskId :: (s.remaining ++ (s.perform (.record result)).runningIds)).Perm _
    rw [hsame, hids]
    exact List.perm_middle.symm.trans ((List.perm_cons_erase hid).symm.append_left s.remaining)
  | report t => exact h

theorem OnePlace.performAll (h : OnePlace s) (hacts : AllAllowed graph limit env s acts) :
    OnePlace (acts.foldl ExecutorState.perform s) :=
  (run_of_allAllowed hacts).invariant h fun m act m' hm hstep => by
    rw [hstep.2]
    exact hm.perform hstep.1

/-- A scan blocks tasks that are still to be run, and what it finds ready has completed dependencies. -/
theorem scan_allowed {order : List String} (hnodup : order.Nodup) {scan : Scan α}
    (hplace : OnePlace (scan.apply s)) (horder : ∀ t ∈ order, t ∈ scan.remaining)
    (hready : ∀ t ∈ scan.ready, scan.results.Completed (graph.dependencies t)) :
    AllAllowed graph limit env (scan.apply s) (scanActs graph order scan) ∧
      ∀ t ∈ (order.foldl (scanTask graph) scan).ready,
        (order.foldl (scanTask graph) scan).results.Completed (graph.dependencies t) := by
  induction order generalizing scan with
  | nil => exact ⟨trivial, hready⟩
  | cons t rest ih =>
    rw [List.nodup_cons] at hnodup
    have hmem : t ∈ scan.remaining := horder t List.mem_cons_self
    have hrest : ∀ t' ∈ rest, t' ∈ scan.remaining := fun t' ht' => horder t' (List.mem_cons_of_mem _ ht')
    rw [scanActs, List.foldl_cons]
    by_cases hsettled : scan.results.Settled (graph.dependencies t)
    · by_cases hcompleted : scan.results.Completed (graph.dependencies t)
      · have hstep : scanTask graph scan t = { scan with ready := t :: scan.ready } := by
          unfold scanTask
          simp only [hsettled, hcompleted, if_true]
        rw [if_neg (fun h => h.2 hcompleted), List.nil_append, hstep]
        refine @ih hnodup.2 { scan with ready := t :: scan.ready } hplace hrest ?_
        intro t' ht'
        rcases List.mem_cons.mp ht' with rfl | ht'
        · exact hcompleted
        · exact hready t' ht'
      · have hstep : scanTask graph scan t = { scan with
            results := scan.results.set t (blockedResult t)
            remaining := scan.remaining.erase t } := by
          unfold scanTask
          simp only [hsettled, hcompleted, if_true, if_false]
        have hallowed : (ExecutorAct.block t).Allowed graph limit env (scan.apply s) :=
          ⟨hmem, hsettled, hcompleted⟩
        have hext : scan.results.Extends (scan.results.set t (blockedResult t)) :=
          Results.extends_set (hplace.notMem_keys (List.mem_append_left _ hmem)) _
        have hleft : ∀ t' ∈ rest, t' ∈ scan.remaining.erase t := by
          intro t' ht'
          have hne : t' ≠ t := fun heq => hnodup.1 (heq ▸ ht')
          exact (List.mem_erase_of_ne hne).mpr (hrest t' ht')
        rw [if_pos ⟨hsettled, hcompleted⟩, hstep]
        obtain ⟨hacts, hfound⟩ := @ih hnodup.2 { scan with
            results := scan.results.set t (blockedResult t)
            remaining := scan.remaining.erase t } (hplace.perform hallowed) hleft
          fun t' ht' => (hready t' ht').mono hext
        exact ⟨⟨hallowed, hacts⟩, hfound⟩
    · have hstep : scanTask graph scan t = scan := by
        unfold scanTask
        simp only [hsettled, if_false]
      rw [if_neg (fun h => hsettled h.1), List.nil_append, hstep]
      exact ih hnodup.2 hplace hrest hready

theorem submit_allowed {ready : List String} {s : ExecutorState α}
    (hready : ∀ t ∈ ready, s.results.Completed (graph.dependencies t)) :
    AllAllowed graph limit env s (submitActs graph limit ready s) := by
  induction ready generalizing s with
  | nil => exact trivial
  | cons t rest ih =>
    have hcompleted := hready t List.mem_cons_self
    have hrest : ∀ t' ∈ rest, s.results.Completed (graph.dependencies t') :=
      fun t' ht' => hready t' (List.mem_cons_of_mem _ ht')
    unfold submitActs
    split
    · rename_i hfree
      split
      · rename_i hmem
        exact ⟨⟨hmem, hcompleted, rfl, hfree⟩, ih (s := submitTask graph s t) hrest⟩
      · exact ih hrest
    · exact trivial

theorem result_allowed {future : Submission α} {result : TaskResult α} (hfuture : future ∈ s.running)
    (hresult : futureResult env future = .ok result) :
    AllAllowed graph limit env s (resultActs result) := by
  refine ⟨⟨future, hfuture, hresult⟩, ?_⟩
  split
  · rename_i hcompleted
    refine ⟨?_, trivial⟩
    show Results.status? (s.results.set result.taskId result) result.taskId = some .completed
    unfold Results.status?
    rw [Dict.get?_set_self, Option.map_some, hcompleted]
  · exact trivial

theorem collect_allowed {done : List String} {s : ExecutorState α} :
    AllAllowed graph limit env s (collectActs env done s) := by
  induction done generalizing s with
  | nil => exact trivial
  | cons t rest ih =>
    unfold collectActs
    cases hfind : s.running.find? fun future => decide (future.taskId = t) with
    | none => exact ih
    | some future =>
      cases hresult : futureResult env future with
      | error e =>
        simp only [hresult]
        exact trivial
      | ok result =>
        simp only [hresult]
        rw [allAllowed_append, perform_resultActs]
        exact ⟨result_allowed (List.mem_of_find?_eq_some hfind) hresult, ih⟩

theorem pass_allowed {n : ℕ} (hplace : OnePlace s) :
    AllAllowed graph limit env s (passActs graph limit env n s) := by
  have horder := env.iterate_perm n s.remaining
  have hscan : AllAllowed graph limit env s
      (scanActs graph (env.iterate n s.remaining) ⟨s.results, s.remaining, []⟩) ∧
      ∀ t ∈ (passScan graph env n s).ready,
        (passScan graph env n s).results.Completed (graph.dependencies t) :=
    @scan_allowed α graph limit env s _ (horder.nodup_iff.mpr hplace.remaining_nodup)
      ⟨s.results, s.remaining, []⟩ hplace (fun t ht => horder.mem_iff.mp ht)
      fun t ht => absurd ht List.not_mem_nil
  have hscanned : (scanActs graph (env.iterate n s.remaining) ⟨s.results, s.remaining, []⟩).foldl
      ExecutorState.perform s = (passScan graph env n s).apply s :=
    perform_scanActs (env.iterate n s.remaining) ⟨s.results, s.remaining, []⟩
  unfold passActs
  split
  · exact trivial
  · split
    · exact trivial
    · rw [allAllowed_append, allAllowed_append, hscanned, perform_submitActs, ← submitted_eq limit env n]
      refine ⟨hscan.1, ?_, ?_⟩
      · apply submit_allowed
        intro t ht
        exact hscan.2 t ((mem_sorted_ready env n).mp ht)
      · split
        · exact trivial
        · exact collect_allowed

theorem onePlace_initialState (graph : TaskGraph) (completed : Results α) :
    OnePlace (initialState graph completed) := by
  have hremaining : (graph.ids.filter fun t => decide (t ∉ completed.keys)).Nodup := graph.unique.filter _
  show (completed.keys ++ ((graph.ids.filter _) ++ [])).Nodup
  rw [List.append_nil, List.nodup_append]
  refine ⟨completed.keys_nodup, hremaining, ?_⟩
  rintro t hk t' ht' rfl
  exact of_decide_eq_true (List.mem_filter.mp ht').2 hk

theorem execution_allowed (graph : TaskGraph) (limit : ℕ) (env : Surroundings α) (completed : Results α)
    (n : ℕ) : AllAllowed graph limit env (initialState graph completed)
      (executionActs graph limit env completed n) := by
  induction n with
  | zero => exact trivial
  | succ n ih =>
    cases hbefore : loopAt graph limit env completed n with
    | ended outcome =>
      rw [executionActs_of_ended hbefore]
      exact ih
    | looping s =>
      have hs : (executionActs graph limit env completed n).foldl ExecutorState.perform
          (initialState graph completed) = s := executionState_of_looping hbefore
      rw [executionActs_of_looping hbefore, allAllowed_append, hs]
      refine ⟨ih, pass_allowed ?_⟩
      rw [← hs]
      exact (onePlace_initialState graph completed).performAll ih

theorem execution_run (graph : TaskGraph) (limit : ℕ) (env : Surroundings α) (completed : Results α) (n : ℕ) :
    Run (ExecutorStep graph limit env) (initialState graph completed)
      (executionHistory graph limit env completed n) (executionState graph limit env completed n) :=
  run_of_allAllowed (execution_allowed graph limit env completed n)

end Allowed

/-! ## 4. What holds of every run -/

section Runs

variable {graph : TaskGraph} {limit : ℕ} {env : Surroundings α} {completed : Results α}
  {s s' : ExecutorState α} {hist : List (ExecutorState α × ExecutorAct α)}

/-- The futures of the pool were handed what their dependencies have put out, and are not too many. -/
structure HandedOut (graph : TaskGraph) (limit : ℕ) (s : ExecutorState α) : Prop where
  place : OnePlace s
  bounded : s.running.length ≤ limit
  handed : ∀ future ∈ s.running, s.results.Completed (graph.dependencies future.taskId) ∧
    future.outputs = s.results.outputs (graph.dependencies future.taskId)

theorem outputs_of_extends {results results' : Results α} (hext : results.Extends results')
    {deps : List String} (h : results.Completed deps) : results'.outputs deps = results.outputs deps := by
  unfold Results.outputs
  apply List.map_congr_left
  intro d hd
  rw [hext d (h.settled d hd)]

theorem HandedOut.perform {act : ExecutorAct α} (h : HandedOut graph limit s)
    (hact : act.Allowed graph limit env s) : HandedOut graph limit (s.perform act) := by
  have hkept : ∀ t ∈ s.remaining ++ s.runningIds, ∀ r, ∀ future ∈ s.running,
      Results.Completed (s.results.set t r) (graph.dependencies future.taskId) ∧
        future.outputs = Results.outputs (s.results.set t r) (graph.dependencies future.taskId) := by
    intro t ht r future hfuture
    obtain ⟨hcompleted, houtputs⟩ := h.handed future hfuture
    have hext : s.results.Extends (s.results.set t r) := Results.extends_set (h.place.notMem_keys ht) r
    exact ⟨hcompleted.mono hext, houtputs.trans (outputs_of_extends hext hcompleted).symm⟩
  refine ⟨h.place.perform hact, ?_, ?_⟩
  · cases act with
    | block t => exact h.bounded
    | submit future =>
      show (s.running ++ [future]).length ≤ limit
      rw [List.length_append, List.length_singleton]
      exact hact.2.2.2
    | record result =>
      show (s.running.filter _).length ≤ limit
      exact (List.length_filter_le _ _).trans h.bounded
    | report t => exact h.bounded
  · cases act with
    | block t => exact hkept t (List.mem_append_left _ hact.1) _
    | submit future =>
      intro other hother
      rcases List.mem_append.mp hother with hother | hother
      · exact h.handed other hother
      · rw [List.mem_singleton.mp hother]
        exact ⟨hact.2.1, hact.2.2.1⟩
    | record result =>
      obtain ⟨future, hfuture, hresult⟩ := hact
      have hid : result.taskId ∈ s.runningIds := by
        rw [(taskId_of_futureResult hresult).1]
        exact List.mem_map_of_mem hfuture
      intro other hother
      exact hkept result.taskId (List.mem_append_right _ hid) result other (List.mem_filter.mp hother).1
    | report t => exact h.handed

theorem handedOut_initialState (graph : TaskGraph) (limit : ℕ) (completed : Results α) :
    HandedOut graph limit (initialState graph completed) where
  place := onePlace_initialState graph completed
  bounded := Nat.zero_le _
  handed := fun _ hfuture => absurd hfuture List.not_mem_nil

/-- What a history says of the state it led to. -/
structure Logged (env : Surroundings α) (completed : Results α) (hist : List (ExecutorState α × ExecutorAct α))
    (s : ExecutorState α) : Prop where
  resumed : ∀ t ∈ completed.keys, t ∈ s.results.keys
  once : ((submissions hist).map Submission.taskId).Nodup
  gone : ∀ future ∈ submissions hist, future.taskId ∉ s.remaining ∧ future.taskId ∉ completed.keys
  running : ∀ future ∈ s.running, future ∈ submissions hist
  settled : ∀ future ∈ submissions hist, future ∈ s.running ∨
    ∃ result ∈ recordedResults hist, futureResult env future = .ok result
  origin : ∀ result ∈ recordedResults hist, ∃ future ∈ submissions hist, futureResult env future = .ok result
  recordedOnce : ((recordedResults hist).map TaskResult.taskId).Nodup
  kept : ∀ result ∈ recordedResults hist, result.taskId ∈ s.results.keys

theorem submissions_snoc (hist : List (ExecutorState α × ExecutorAct α)) (s : ExecutorState α)
    (act : ExecutorAct α) : submissions (hist ++ [(s, act)]) = submissions hist ++ act.submission?.toList := by
  unfold submissions
  rw [List.filterMap_append]
  cases act <;> rfl

theorem recordedResults_snoc (hist : List (ExecutorState α × ExecutorAct α)) (s : ExecutorState α)
    (act : ExecutorAct α) :
    recordedResults (hist ++ [(s, act)]) = recordedResults hist ++ act.recorded?.toList := by
  unfold recordedResults
  rw [List.filterMap_append]
  cases act <;> rfl

/-- An act that neither submits nor records keeps what the history says. -/
theorem Logged.quiet (h : Logged env completed hist s) {hist' : List (ExecutorState α × ExecutorAct α)}
    (hsubmissions : submissions hist' = submissions hist)
    (hrecorded : recordedResults hist' = recordedResults hist)
    (hkeys : ∀ t ∈ s.results.keys, t ∈ s'.results.keys) (hremaining : ∀ t ∈ s'.remaining, t ∈ s.remaining)
    (hrunning : s'.running = s.running) : Logged env completed hist' s' := by
  constructor
  · exact fun t ht => hkeys t (h.resumed t ht)
  · rw [hsubmissions]
    exact h.once
  · rw [hsubmissions]
    intro future hfuture
    obtain ⟨hleft, hnew⟩ := h.gone future hfuture
    exact ⟨fun hmem => hleft (hremaining _ hmem), hnew⟩
  · rw [hsubmissions, hrunning]
    exact h.running
  · rw [hsubmissions, hrecorded, hrunning]
    exact h.settled
  · rw [hsubmissions, hrecorded]
    exact h.origin
  · rw [hrecorded]
    exact h.recordedOnce
  · rw [hrecorded]
    exact fun result hresult => hkeys _ (h.kept result hresult)

theorem Logged.submit {future : Submission α} (h : Logged env completed hist s) (hplace : OnePlace s)
    (hmem : future.taskId ∈ s.remaining) :
    Logged env completed (hist ++ [(s, .submit future)]) (s.perform (.submit future)) := by
  have hsubmissions : submissions (hist ++ [(s, .submit future)]) = submissions hist ++ [future] :=
    submissions_snoc hist s (.submit future)
  have hrecorded : recordedResults (hist ++ [(s, .submit future)]) = recordedResults hist :=
    (recordedResults_snoc hist s (.submit future)).trans (List.append_nil _)
  have hnew : ∀ other ∈ submissions hist, other.taskId ≠ future.taskId :=
    fun other hother heq => (h.gone other hother).1 (heq ▸ hmem)
  constructor
  · exact h.resumed
  · rw [hsubmissions, List.map_append, List.nodup_append]
    refine ⟨h.once, List.nodup_singleton _, ?_⟩
    intro t ht t' ht' heq
    obtain ⟨other, hother, rfl⟩ := List.mem_map.mp ht
    exact hnew other hother (heq.trans (List.mem_singleton.mp ht'))
  · rw [hsubmissions]
    intro other hother
    rcases List.mem_append.mp hother with hother | hother
    · obtain ⟨hleft, hfresh⟩ := h.gone other hother
      exact ⟨fun hmem => hleft (List.mem_of_mem_erase hmem), hfresh⟩
    · rw [List.mem_singleton.mp hother]
      refine ⟨fun hmem => ((hplace.remaining_nodup.mem_erase_iff).mp hmem).1 rfl, ?_⟩
      exact fun hkey => hplace.notMem_keys (List.mem_append_left _ hmem) (h.resumed _ hkey)
  · rw [hsubmissions]
    intro other hother
    rcases List.mem_append.mp hother with hother | hother
    · exact List.mem_append_left _ (h.running other hother)
    · exact List.mem_append_right _ hother
  · rw [hsubmissions, hrecorded]
    intro other hother
    rcases List.mem_append.mp hother with hother | hother
    · rcases h.settled other hother with hrunning | hdone
      · exact Or.inl (List.mem_append_left _ hrunning)
      · exact Or.inr hdone
    · exact Or.inl (List.mem_append_right _ hother)
  · rw [hsubmissions, hrecorded]
    intro result hresult
    obtain ⟨other, hother, heq⟩ := h.origin result hresult
    exact ⟨other, List.mem_append_left _ hother, heq⟩
  · rw [hrecorded]
    exact h.recordedOnce
  · rw [hrecorded]
    exact h.kept

theorem Logged.record {future : Submission α} {result : TaskResult α} (h : Logged env completed hist s)
    (hplace : OnePlace s) (hfuture : future ∈ s.running) (hresult : futureResult env future = .ok result) :
    Logged env completed (hist ++ [(s, .record result)]) (s.perform (.record result)) := by
  have hsubmissions : submissions (hist ++ [(s, .record result)]) = submissions hist :=
    (submissions_snoc hist s (.record result)).trans (List.append_nil _)
  have hrecorded : recordedResults (hist ++ [(s, .record result)]) = recordedResults hist ++ [result] :=
    recordedResults_snoc hist s (.record result)
  have hid := (taskId_of_futureResult hresult).1
  have hrunning : result.taskId ∈ s.runningIds := by
    rw [hid]
    exact List.mem_map_of_mem hfuture
  have hfresh : result.taskId ∉ s.results.keys := hplace.notMem_keys (List.mem_append_right _ hrunning)
  constructor
  · exact fun t' ht' => Dict.mem_keys_set.mpr (Or.inr (h.resumed t' ht'))
  · rw [hsubmissions]
    exact h.once
  · rw [hsubmissions]
    exact h.gone
  · rw [hsubmissions]
    exact fun other hother => h.running other (List.mem_filter.mp hother).1
  · rw [hsubmissions, hrecorded]
    intro other hother
    by_cases hsame : other.taskId = result.taskId
    · -- The submissions have different tasks, so this is the future that finished.
      have hother' : other = future := List.inj_on_of_nodup_map h.once hother (h.running future hfuture)
        (hsame.trans hid)
      rw [hother']
      exact Or.inr ⟨result, List.mem_append_right _ (List.mem_singleton.mpr rfl), hresult⟩
    · rcases h.settled other hother with hrunning | ⟨r, hr, heq⟩
      · exact Or.inl (List.mem_filter.mpr ⟨hrunning, decide_eq_true hsame⟩)
      · exact Or.inr ⟨r, List.mem_append_left _ hr, heq⟩
  · rw [hsubmissions, hrecorded]
    intro r hr
    rcases List.mem_append.mp hr with hr | hr
    · exact h.origin r hr
    · rw [List.mem_singleton.mp hr]
      exact ⟨future, h.running future hfuture, hresult⟩
  · rw [hrecorded, List.map_append, List.nodup_append]
    refine ⟨h.recordedOnce, List.nodup_singleton _, ?_⟩
    intro t ht t' ht' heq
    obtain ⟨r, hr, rfl⟩ := List.mem_map.mp ht
    have hkey := h.kept r hr
    rw [heq, List.mem_singleton.mp ht'] at hkey
    exact hfresh hkey
  · rw [hrecorded]
    intro r hr
    rcases List.mem_append.mp hr with hr | hr
    · exact Dict.mem_keys_set.mpr (Or.inr (h.kept r hr))
    · rw [List.mem_singleton.mp hr]
      exact Dict.mem_keys_set.mpr (Or.inl rfl)

theorem Logged.step {act : ExecutorAct α} (h : Logged env completed hist s) (hplace : OnePlace s)
    (hact : act.Allowed graph limit env s) : Logged env completed (hist ++ [(s, act)]) (s.perform act) := by
  cases act with
  | block t =>
    apply h.quiet ((submissions_snoc hist s (.block t)).trans (List.append_nil _))
      ((recordedResults_snoc hist s (.block t)).trans (List.append_nil _))
    · exact fun t' ht' => Dict.mem_keys_set.mpr (Or.inr ht')
    · exact fun t' ht' => List.mem_of_mem_erase ht'
    · rfl
  | submit future => exact h.submit hplace hact.1
  | record result =>
    obtain ⟨future, hfuture, hresult⟩ := hact
    exact h.record hplace hfuture hresult
  | report t =>
    exact h.quiet ((submissions_snoc hist s (.report t)).trans (List.append_nil _))
      ((recordedResults_snoc hist s (.report t)).trans (List.append_nil _)) (fun _ ht => ht) (fun _ ht => ht) rfl

theorem logged_initialState (env : Surroundings α) (completed : Results α) :
    Logged env completed [] (initialState graph completed) where
  resumed := fun _ ht => ht
  once := List.nodup_nil
  gone := fun _ h => absurd h List.not_mem_nil
  running := fun _ h => absurd h List.not_mem_nil
  settled := fun _ h => absurd h List.not_mem_nil
  origin := fun _ h => absurd h List.not_mem_nil
  recordedOnce := List.nodup_nil
  kept := fun _ h => absurd h List.not_mem_nil

theorem handedOut_throughout (hrun : Run (ExecutorStep graph limit env) (initialState graph completed) hist s) :
    Throughout (HandedOut graph limit) hist s := by
  apply hrun.throughout (handedOut_initialState graph limit completed)
  intro m act m' hm hstep
  rw [hstep.2]
  exact hm.perform hstep.1

theorem logged_of_run (hrun : Run (ExecutorStep graph limit env) (initialState graph completed) hist s) :
    Logged env completed hist s := by
  apply hrun.history_invariant (J := fun hist m => Logged env completed hist m)
    (logged_initialState env completed)
  intro hist m act m' hpre hlogged hstep
  have hplace : OnePlace m := (handedOut_throughout hpre).2.place
  rw [hstep.2]
  exact hlogged.step hplace hstep.1

end Runs

/-! ## 5. Every execution -/

section Executions

variable {graph : TaskGraph} {limit : ℕ} {env : Surroundings α} {completed : Results α} {n : ℕ}

/-- The tasks that a list of results reports: the completed ones. -/
def reportable (results : List (TaskResult α)) : List String :=
  (results.filter fun result => decide (result.status = .completed)).map TaskResult.taskId

/-- The acts report exactly the completed results they record. -/
def ReportsWhatItRecords (acts : List (ExecutorAct α)) : Prop :=
  acts.filterMap ExecutorAct.reported? = reportable (acts.filterMap ExecutorAct.recorded?)

theorem ReportsWhatItRecords.append {acts later : List (ExecutorAct α)} (h : ReportsWhatItRecords acts)
    (hlater : ReportsWhatItRecords later) : ReportsWhatItRecords (acts ++ later) := by
  unfold ReportsWhatItRecords reportable at h hlater ⊢
  rw [List.filterMap_append, List.filterMap_append, List.filter_append, List.map_append, h, hlater]

theorem scanActs_reports (order : List String) (scan : Scan α) :
    ReportsWhatItRecords (scanActs graph order scan) := by
  induction order generalizing scan with
  | nil => rfl
  | cons t rest ih =>
    apply ReportsWhatItRecords.append _ (ih _)
    split
    · rfl
    · rfl

theorem submitActs_reports (ready : List String) (s : ExecutorState α) :
    ReportsWhatItRecords (submitActs graph limit ready s) := by
  induction ready generalizing s with
  | nil => rfl
  | cons t rest ih =>
    unfold submitActs
    split
    · split
      · exact ih _
      · exact ih s
    · rfl

theorem resultActs_reports (result : TaskResult α) : ReportsWhatItRecords (resultActs result) := by
  unfold ReportsWhatItRecords reportable resultActs
  by_cases hcompleted : result.status = .completed
  · have hkept : [result].filter (fun r => decide (r.status = .completed)) = [result] :=
      List.filter_cons_of_pos (decide_eq_true hcompleted)
    rw [if_pos hcompleted]
    show [result.taskId] = ([result].filter _).map TaskResult.taskId
    rw [hkept]
    rfl
  · have hleft : [result].filter (fun r => decide (r.status = .completed)) = [] :=
      List.filter_cons_of_neg fun h => hcompleted (of_decide_eq_true h)
    rw [if_neg hcompleted]
    show [] = ([result].filter _).map TaskResult.taskId
    rw [hleft]
    rfl

theorem collectActs_reports (done : List String) (s : ExecutorState α) :
    ReportsWhatItRecords (collectActs env done s) := by
  induction done generalizing s with
  | nil => rfl
  | cons t rest ih =>
    unfold collectActs
    split
    · exact ih s
    · split
      · rfl
      · exact (resultActs_reports _).append (ih _)

theorem passActs_reports (n : ℕ) (s : ExecutorState α) :
    ReportsWhatItRecords (passActs graph limit env n s) := by
  unfold passActs
  split
  · rfl
  · split
    · rfl
    · apply (scanActs_reports _ _).append ((submitActs_reports _ _).append _)
      split
      · rfl
      · exact collectActs_reports _ _

theorem executionActs_reports (graph : TaskGraph) (limit : ℕ) (env : Surroundings α) (completed : Results α)
    (n : ℕ) : ReportsWhatItRecords (executionActs graph limit env completed n) := by
  induction n with
  | zero => rfl
  | succ n ih =>
    apply ih.append
    split
    · exact passActs_reports _ _
    · rfl

theorem map_snd_performed {σ Λ : Type} (exec : σ → Λ → σ) (s : σ) (acts : List Λ) :
    (performed exec s acts).map Prod.snd = acts := by
  induction acts generalizing s with
  | nil => rfl
  | cons act acts ih =>
    show act :: (performed exec (exec s act) acts).map Prod.snd = act :: acts
    rw [ih]

theorem reports_executionHistory : reports (executionHistory graph limit env completed n) =
    reportable (recordedResults (executionHistory graph limit env completed n)) := by
  have hacts := executionActs_reports graph limit env completed n
  rw [← map_snd_performed ExecutorState.perform (initialState graph completed)
    (executionActs graph limit env completed n)] at hacts
  unfold ReportsWhatItRecords at hacts
  rw [List.filterMap_map, List.filterMap_map] at hacts
  exact hacts

/-- An execution that returns has nothing running and returns what it recorded. -/
theorem executionState_of_returned {results : Results α}
    (h : loopAt graph limit env completed n = .ended (.returned results)) :
    (executionState graph limit env completed n).running = [] ∧
      (executionState graph limit env completed n).results = results := by
  induction n with
  | zero =>
    unfold loopAt at h
    split at h <;> cases h
  | succ n ih =>
    unfold executionState
    cases hbefore : loopAt graph limit env completed n with
    | ended outcome =>
      rw [loopAt_succ_of_ended hbefore] at h
      cases h
      rw [executionActs_of_ended hbefore]
      exact ih hbefore
    | looping s =>
      have hs : (executionActs graph limit env completed n).foldl ExecutorState.perform
          (initialState graph completed) = s := executionState_of_looping hbefore
      have hscan : (scanActs graph (env.iterate n s.remaining) ⟨s.results, s.remaining, []⟩).foldl
          ExecutorState.perform s = (passScan graph env n s).apply s :=
        perform_scanActs (env.iterate n s.remaining) ⟨s.results, s.remaining, []⟩
      rw [loopAt_succ_of_looping hbefore] at h
      rw [executionActs_of_looping hbefore, List.foldl_append, hs]
      unfold loopPass at h
      unfold passActs
      split at h
      · rename_i hdone
        cases h
        rw [if_pos hdone]
        exact ⟨hdone.2, rfl⟩
      · rename_i hgoing
        rw [if_neg hgoing]
        split at h
        · cases h
        · rename_i hcancelled
          rw [if_neg hcancelled, List.foldl_append, List.foldl_append, hscan, perform_submitActs,
            ← submitted_eq limit env n]
          by_cases hidle : (submitted graph limit env n s).running = []
          · simp only [hidle, if_true] at h
            rw [if_pos hidle]
            split at h
            · cases h
              exact ⟨hidle, rfl⟩
            · cases h
          · simp only [hidle, if_false] at h
            split at h <;> cases h

/-- What the executor keeps to, whatever it has done so far. -/
structure SchedulingSafety (graph : TaskGraph) (limit : ℕ) (env : Surroundings α) (completed : Results α)
    (n : ℕ) : Prop where
  /-- The loop stands where the acts of the history lead. -/
  follows : ∀ s, loopAt graph limit env completed n = .looping s →
    s = executionState graph limit env completed n
  once : ((submissions (executionHistory graph limit env completed n)).map Submission.taskId).Nodup
  fresh : ∀ future ∈ submissions (executionHistory graph limit env completed n),
    future.taskId ∉ completed.keys
  ready : ∀ s future, (s, .submit future) ∈ executionHistory graph limit env completed n →
    s.results.Completed (graph.dependencies future.taskId) ∧
      future.outputs = s.results.outputs (graph.dependencies future.taskId)
  /-- A worker may read the outputs at any time before its future is collected. -/
  handed : Throughout (fun s => ∀ future ∈ s.running,
    future.outputs = s.results.outputs (graph.dependencies future.taskId))
    (executionHistory graph limit env completed n) (executionState graph limit env completed n)
  /-- A submitted future is in the pool until its result is recorded. -/
  unfinished : ∀ future ∈ submissions (executionHistory graph limit env completed n),
    future ∈ (executionState graph limit env completed n).running ∨
      ∃ result ∈ recordedResults (executionHistory graph limit env completed n),
        futureResult env future = .ok result
  bounded : Throughout (fun s => s.running.length ≤ limit) (executionHistory graph limit env completed n)
    (executionState graph limit env completed n)
  /-- `task_completed` is called for exactly the tasks whose completed result was recorded. -/
  reported : reports (executionHistory graph limit env completed n) =
    reportable (recordedResults (executionHistory graph limit env completed n))
  reportedOnce : (reports (executionHistory graph limit env completed n)).Nodup
  reportedAfter : ∀ s taskId, (s, .report taskId) ∈ executionHistory graph limit env completed n →
    s.results.status? taskId = some .completed
  /-- An execution that returns has recorded the result of everything it submitted. -/
  returned : ∀ results, loopAt graph limit env completed n = .ended (.returned results) →
    results = (executionState graph limit env completed n).results ∧
    ∀ future ∈ submissions (executionHistory graph limit env completed n),
      ∃ result ∈ recordedResults (executionHistory graph limit env completed n),
        futureResult env future = .ok result

/-- Scheduling is safe in every execution, after any number of passes. -/
theorem schedulingSafety (graph : TaskGraph) (limit : ℕ) (env : Surroundings α) (completed : Results α)
    (n : ℕ) : SchedulingSafety graph limit env completed n := by
  have hrun := execution_run graph limit env completed n
  have hsound := handedOut_throughout hrun
  have hlogged := logged_of_run hrun
  refine
    { follows := fun s hs => (executionState_of_looping hs).symm
      once := hlogged.once
      fresh := fun future hfuture => (hlogged.gone future hfuture).2
      ready := ?_
      handed := ⟨fun e he future hfuture => ((hsound.1 e he).handed future hfuture).2,
        fun future hfuture => (hsound.2.handed future hfuture).2⟩
      unfinished := hlogged.settled
      bounded := ⟨fun e he => (hsound.1 e he).bounded, hsound.2.bounded⟩
      reported := reports_executionHistory
      reportedOnce := ?_
      reportedAfter := fun s taskId hmem => hrun.allowed hmem
      returned := ?_ }
  · intro s future hmem
    have hallowed : (ExecutorAct.submit future).Allowed graph limit env s := hrun.allowed hmem
    exact ⟨hallowed.2.1, hallowed.2.2.1⟩
  · rw [reports_executionHistory]
    exact hlogged.recordedOnce.sublist (List.filter_sublist.map _)
  · intro results hreturned
    obtain ⟨hidle, hresults⟩ := executionState_of_returned hreturned
    refine ⟨hresults.symm, ?_⟩
    intro future hfuture
    rcases hlogged.settled future hfuture with hrunning | hrecorded
    · rw [hidle] at hrunning
      cases hrunning
    · exact hrecorded

end Executions

end Milo.Swarm
