import Milo.Swarm.ExecutorPasses

/-!
# ExecutorRuns — what a whole execution returns

From the passes to the loop.  A pass either ends the execution or leaves no more tasks pending than
it found, so an execution whose workers finish ends.  It ends as cyclic exactly when some pass that
found nothing running and nothing ready visited a task before one of its dependencies.
-/

namespace Milo.Swarm

open Milo.Reasoning

variable {α : Type} {graph : TaskGraph}

/-! ## 1. The submissions of a pass -/

/-- Nothing runs and every remaining task is behind a dependency that did not complete. -/
def ExecutorState.Blocked (graph : TaskGraph) (s : ExecutorState α) : Prop :=
  s.running = [] ∧ ∀ t ∈ s.remaining, ¬ s.results.Completed (graph.dependencies t)

section Pass

variable {s : ExecutorState α} (limit : ℕ) (env : Surroundings α) (n : ℕ)

/-- The scan of pass `n`. -/
def passScan (graph : TaskGraph) (env : Surroundings α) (n : ℕ) (s : ExecutorState α) : Scan α :=
  scanTasks graph s.results s.remaining (env.iterate n s.remaining)

theorem iterate_nodup (h : Placed graph s) : (env.iterate n s.remaining).Nodup :=
  (env.iterate_perm n s.remaining).nodup_iff.mpr h.remaining_nodup

theorem passScan_scanned (h : Placed graph s) : Scanned graph s [] (passScan graph env n s) :=
  Scanned.visitAll (iterate_nodup env n h) _ (Scanned.start h (env.iterate_perm n s.remaining))

theorem mem_ready_passScan (h : Placed graph s) {t : String} :
    t ∈ (passScan graph env n s).ready ↔
      t ∈ s.remaining ∧ s.results.Completed (graph.dependencies t) := by
  have hstart := Scanned.start h (env.iterate_perm n s.remaining)
  have hiff := Scanned.mem_ready_iff (iterate_nodup env n h) (t := t) _ hstart
  rw [(env.iterate_perm n s.remaining).mem_iff] at hiff
  unfold passScan scanTasks
  rw [hiff]
  simp

theorem submitted_eq : submitted graph limit env n s =
    submitReady graph limit ((passScan graph env n s).ready.insertionSort (heapLE graph))
      ((passScan graph env n s).apply s) := rfl

theorem mem_sorted_ready {t : String} :
    t ∈ (passScan graph env n s).ready.insertionSort (heapLE graph) ↔
      t ∈ (passScan graph env n s).ready :=
  (List.perm_insertionSort _ _).mem_iff

theorem submitted_spec (h : Placed graph s) : Placed graph (submitted graph limit env n s) ∧
    (submitted graph limit env n s).pending ≤ s.pending ∧
    s.running.length ≤ (submitted graph limit env n s).running.length := by
  have hscan := passScan_scanned env n h
  have hspec := submitReady_spec graph limit
    ((passScan graph env n s).ready.insertionSort (heapLE graph))
    ((passScan graph env n s).apply s) hscan.placed
    fun t ht => (hscan.ready t ((mem_sorted_ready env n).mp ht)).2
  rw [submitted_eq]
  have hshrinks : ((passScan graph env n s).apply s).pending ≤ s.pending :=
    Nat.add_le_add_right hscan.shrinks s.running.length
  exact ⟨hspec.1, hspec.2.1 ▸ hshrinks, hspec.2.2⟩

theorem ready_eq_nil_of_blocked (h : Placed graph s) (hblocked : s.Blocked graph) :
    (passScan graph env n s).ready = [] := by
  apply List.eq_nil_iff_forall_not_mem.mpr
  intro t ht
  have hready := (mem_ready_passScan env n h).mp ht
  exact hblocked.2 t hready.1 hready.2

/-- After the submissions nothing runs exactly when nothing ran and nothing was ready. -/
theorem submitted_running_iff (hlimit : 1 ≤ limit) (h : Placed graph s) :
    (submitted graph limit env n s).running = [] ↔ s.Blocked graph := by
  have hscan := passScan_scanned env n h
  constructor
  · intro hidle
    have hgrow := (submitted_spec limit env n h).2.2
    rw [hidle, List.length_nil, Nat.le_zero, List.length_eq_zero_iff] at hgrow
    refine ⟨hgrow, ?_⟩
    intro t ht hcompleted
    have hready := (mem_sorted_ready env n).mpr ((mem_ready_passScan env n h).mpr ⟨ht, hcompleted⟩)
    rw [submitted_eq] at hidle
    cases hsorted : (passScan graph env n s).ready.insertionSort (heapLE graph) with
    | nil => simp [hsorted] at hready
    | cons t' rest =>
      rw [hsorted] at hidle
      apply submitReady_running hlimit hscan.placed ?_ hidle
      intro t'' ht''
      rw [← hsorted] at ht''
      exact hscan.ready t'' ((mem_sorted_ready env n).mp ht'')
  · intro hblocked
    rw [submitted_eq, ready_eq_nil_of_blocked env n h hblocked]
    exact hblocked.1

theorem submitted_remaining_of_blocked (h : Placed graph s) (hblocked : s.Blocked graph) :
    (submitted graph limit env n s).remaining = (passScan graph env n s).remaining := by
  rw [submitted_eq, ready_eq_nil_of_blocked env n h hblocked]
  rfl

/-- A blocked state is emptied by exactly the scans that go dependencies first. -/
theorem submitted_remaining_iff (h : Placed graph s) (hblocked : s.Blocked graph) :
    (submitted graph limit env n s).remaining = [] ↔
      DependenciesFirst graph.dependencies (env.iterate n s.remaining) := by
  have hperm := env.iterate_perm n s.remaining
  have hnodup := iterate_nodup env n h
  rw [submitted_remaining_of_blocked limit env n h hblocked]
  constructor
  · intro hempty
    apply dependenciesFirst_of_none_remaining hnodup ⟨s.results, s.remaining, []⟩ h.remaining_nodup
    · exact fun t ht => hperm.mem_iff.mp ht
    · exact fun t ht => h.notMem_keys_of_remaining ht
    · intro t _ hmem
      have hleft : t ∈ (passScan graph env n s).remaining := hmem
      rw [hempty] at hleft
      exact List.not_mem_nil hleft
  · intro hfirst
    apply none_remaining_of_dependenciesFirst hfirst hnodup ⟨s.results, s.remaining, []⟩ hperm.symm
    · exact fun t ht => h.notMem_keys_of_remaining (hperm.mem_iff.mp ht)
    · exact fun t ht => hblocked.2 t (hperm.mem_iff.mp ht)
    · intro t _ d hd
      -- nothing runs, so a dependency without a result is one of the remaining tasks
      have hplace : d ∈ s.results.keys ++ (s.remaining ++ s.runningIds) :=
        h.partition.mem_iff.mpr (graph.closed t d hd)
      rw [ExecutorState.runningIds, hblocked.1, List.map_nil, List.append_nil] at hplace
      rcases List.mem_append.mp hplace with hkey | hmem
      · exact Or.inl hkey
      · exact Or.inr (hperm.mem_iff.mpr hmem)

end Pass

/-! ## 2. One pass -/

/-- Everything has a result. -/
def Complete (graph : TaskGraph) (results : Results α) : Prop :=
  ∃ s : ExecutorState α, Placed graph s ∧ s.results = results ∧ s.remaining = [] ∧ s.running = []

section LoopPass

variable {s : ExecutorState α} {limit : ℕ} {env : Surroundings α}

theorem loopPass_cases (hlimit : 1 ≤ limit) (henv : env.Uninterrupted) (n : ℕ)
    (h : Placed graph s) :
    (∃ results, loopPass graph limit env n s = .ended (.returned results) ∧
      Complete graph results ∧
      (s.Blocked graph → DependenciesFirst graph.dependencies (env.iterate n s.remaining))) ∨
    (loopPass graph limit env n s = .ended .cyclicOrMissing ∧ s.Blocked graph ∧
      ¬ DependenciesFirst graph.dependencies (env.iterate n s.remaining)) ∨
    (∃ s', loopPass graph limit env n s = .looping s' ∧ ¬ s.Blocked graph ∧ Placed graph s' ∧
      s'.pending ≤ s.pending ∧
      ((∀ running, running ≠ [] → env.finished n running ≠ []) → s'.pending < s.pending)) := by
  unfold loopPass
  by_cases hdone : s.remaining = [] ∧ s.running = []
  · left
    rw [if_pos hdone]
    refine ⟨s.results, rfl, ⟨s, h, rfl, hdone.1, hdone.2⟩, ?_⟩
    intro _
    have hnil : env.iterate n s.remaining = [] := by
      have hperm := env.iterate_perm n s.remaining
      rw [hdone.1] at hperm
      rw [hdone.1]
      exact hperm.eq_nil
    rw [hnil]
    exact List.Pairwise.nil
  · rw [if_neg hdone, henv.notCancelled n]
    have hspec := submitted_spec limit env n h
    have hidle := submitted_running_iff limit env n hlimit h
    by_cases hrunning : (submitted graph limit env n s).running = []
    · have hblocked := hidle.mp hrunning
      have hempty := submitted_remaining_iff limit env n h hblocked
      by_cases hremaining : (submitted graph limit env n s).remaining = []
      · left
        refine ⟨(submitted graph limit env n s).results, ?_, ?_, fun _ => hempty.mp hremaining⟩
        · simp [hrunning, hremaining]
        · exact ⟨_, hspec.1, rfl, hremaining, hrunning⟩
      · right
        left
        refine ⟨?_, hblocked, fun hfirst => hremaining (hempty.mpr hfirst)⟩
        simp [hrunning, hremaining]
    · right
      right
      have hsub := env.finished_subset n (submitted graph limit env n s).runningIds
      rcases collect_ok henv (env.finished_nodup n _) _ hspec.1 hsub with
        ⟨s', hcollect, hplaced, hpending⟩
      refine ⟨s', ?_, fun hblocked => hrunning (hidle.mpr hblocked), hplaced, by omega, ?_⟩
      · simp [hrunning, hcollect]
      · intro hprogress
        have hids : (submitted graph limit env n s).runningIds ≠ [] := by
          simp [ExecutorState.runningIds, hrunning]
        have hpos := List.length_pos_of_ne_nil (hprogress _ hids)
        omega

end LoopPass

/-! ## 3. The loop -/

section Loop

variable {limit : ℕ} {env : Surroundings α}

/-- An execution from scratch. -/
abbrev loopFromScratch (graph : TaskGraph) (limit : ℕ) (env : Surroundings α) : ℕ → LoopState α :=
  loopAt graph limit env Dict.empty

theorem placed_initialState : Placed graph (initialState graph (Dict.empty : Results α)) where
  partition := by
    show ([] ++ (graph.ids.filter _ ++ [])).Perm graph.ids
    rw [List.nil_append, List.append_nil]
    have hall : graph.ids.filter (fun t => decide (t ∉ (Dict.empty : Results α).keys)) =
        graph.ids := List.filter_eq_self.mpr fun t _ => decide_eq_true List.not_mem_nil
    rw [hall]
  running := by simp [initialState]
  ran := by simp [initialState]
  blocked := by simp [initialState]

theorem loopFromScratch_zero : loopFromScratch graph limit env 0 =
    .looping (initialState graph Dict.empty) := by
  have hresumable : Resumable graph (Dict.empty : Results α) := by
    constructor
    · exact List.nil_subset _
    · exact fun e he => absurd he List.not_mem_nil
  exact if_pos hresumable

variable {completed : Results α}

theorem loopAt_succ_of_looping {n : ℕ} {s : ExecutorState α} (h : loopAt graph limit env completed n = .looping s) :
    loopAt graph limit env completed (n + 1) = loopPass graph limit env n s := by
  rw [loopAt, h]

theorem loopAt_succ_of_ended {n : ℕ} {outcome : ExecutorOutcome α}
    (h : loopAt graph limit env completed n = .ended outcome) :
    loopAt graph limit env completed (n + 1) = .ended outcome := by
  rw [loopAt, h]

theorem loopAt_add_of_ended {n : ℕ} {outcome : ExecutorOutcome α}
    (h : loopAt graph limit env completed n = .ended outcome) (k : ℕ) :
    loopAt graph limit env completed (n + k) = .ended outcome := by
  induction k with
  | zero => exact h
  | succ k ih => exact loopAt_succ_of_ended ih

theorem Executes.unique {o o' : ExecutorOutcome α} (h : Executes graph limit env completed o)
    (h' : Executes graph limit env completed o') : o = o' := by
  rcases h with ⟨n, hn⟩
  rcases h' with ⟨m, hm⟩
  have hleft := loopAt_add_of_ended hn m
  have hright := loopAt_add_of_ended hm n
  rw [Nat.add_comm m n, hleft] at hright
  cases hright
  rfl

/-- The invariant of the loop: placed while it runs, complete or cyclic when it has ended. -/
theorem loopFromScratch_invariant (graph : TaskGraph) (hlimit : 1 ≤ limit) (henv : env.Uninterrupted) (n : ℕ) :
    (∃ s, loopFromScratch graph limit env n = .looping s ∧ Placed graph s) ∨
    (∃ results, loopFromScratch graph limit env n = .ended (.returned results) ∧
      Complete graph results) ∨
    (loopFromScratch graph limit env n = .ended .cyclicOrMissing ∧
      ∃ m s, loopFromScratch graph limit env m = .looping s ∧ s.Blocked graph ∧
        ¬ DependenciesFirst graph.dependencies (env.iterate m s.remaining)) := by
  induction n with
  | zero => exact Or.inl ⟨_, loopFromScratch_zero, placed_initialState⟩
  | succ n ih =>
    rcases ih with ⟨s, hs, hplaced⟩ | ⟨results, hresults, hcomplete⟩ | ⟨hcyclic, hpass⟩
    · rw [loopFromScratch, loopAt_succ_of_looping hs]
      rcases loopPass_cases hlimit henv n hplaced with
        ⟨results, hend, hcomplete, -⟩ | ⟨hend, hblocked, hnot⟩ | ⟨s', hnext, -, hplaced', -⟩
      · exact Or.inr (Or.inl ⟨results, hend, hcomplete⟩)
      · exact Or.inr (Or.inr ⟨hend, n, s, hs, hblocked, hnot⟩)
      · exact Or.inl ⟨s', hnext, hplaced'⟩
    · exact Or.inr (Or.inl ⟨results, loopAt_succ_of_ended hresults, hcomplete⟩)
    · exact Or.inr (Or.inr ⟨loopAt_succ_of_ended hcyclic, hpass⟩)

/-- While the loop goes on nothing is added to the pending tasks. -/
theorem pending_le_of_looping (hlimit : 1 ≤ limit) (henv : env.Uninterrupted) {n : ℕ}
    {s : ExecutorState α} (hs : loopFromScratch graph limit env n = .looping s)
    (hplaced : Placed graph s) (k : ℕ) :
    (∃ outcome, loopFromScratch graph limit env (n + k) = .ended outcome) ∨
    ∃ s', loopFromScratch graph limit env (n + k) = .looping s' ∧ Placed graph s' ∧
      s'.pending ≤ s.pending := by
  induction k with
  | zero => exact Or.inr ⟨s, hs, hplaced, le_rfl⟩
  | succ k ih =>
    rcases ih with ⟨outcome, hend⟩ | ⟨s', hs', hplaced', hle⟩
    · exact Or.inl ⟨outcome, loopAt_succ_of_ended hend⟩
    · rw [← Nat.add_assoc, loopFromScratch, loopAt_succ_of_looping hs']
      rcases loopPass_cases hlimit henv (n + k) hplaced' with
        ⟨results, hend, -⟩ | ⟨hend, -⟩ | ⟨s'', hnext, -, hplaced'', hle', -⟩
      · exact Or.inl ⟨_, hend⟩
      · exact Or.inl ⟨_, hend⟩
      · exact Or.inr ⟨s'', hnext, hplaced'', hle'.trans hle⟩

/-- The loop ends: the next pass that finds a finished future leaves less pending. -/
theorem loopFromScratch_ends (graph : TaskGraph) (hlimit : 1 ≤ limit) (henv : env.Uninterrupted) :
    ∃ n outcome, loopFromScratch graph limit env n = .ended outcome := by
  have hends : ∀ p n s, s.pending ≤ p → loopFromScratch graph limit env n = .looping s →
      Placed graph s → ∃ m outcome, loopFromScratch graph limit env m = .ended outcome := by
    intro p
    induction p with
    | zero =>
      intro n s hp hs hplaced
      rcases loopPass_cases hlimit henv n hplaced with
        ⟨results, hend, -⟩ | ⟨hend, -⟩ | ⟨s', hnext, hnot, -⟩
      · exact ⟨n + 1, _, (loopAt_succ_of_looping hs).trans hend⟩
      · exact ⟨n + 1, _, (loopAt_succ_of_looping hs).trans hend⟩
      · -- with nothing pending the state is blocked, so the pass was the last
        unfold ExecutorState.pending at hp
        have hrunning : s.running = [] := List.length_eq_zero_iff.mp (by omega)
        have hremaining : s.remaining = [] := List.length_eq_zero_iff.mp (by omega)
        refine absurd ⟨hrunning, ?_⟩ hnot
        rw [hremaining]
        exact fun t ht => absurd ht List.not_mem_nil
    | succ p ih =>
      intro n s hp hs hplaced
      rcases henv.progress n with ⟨m, hnm, hprogress⟩
      have hm : n + (m - n) = m := by omega
      rcases pending_le_of_looping hlimit henv hs hplaced (m - n) with
        ⟨outcome, hend⟩ | ⟨s', hs', hplaced', hle⟩
      · exact ⟨_, outcome, hend⟩
      · rw [hm] at hs'
        rcases loopPass_cases hlimit henv m hplaced' with
          ⟨results, hend, -⟩ | ⟨hend, -⟩ | ⟨s'', hnext, -, hplaced'', -, hless⟩
        · exact ⟨m + 1, _, (loopAt_succ_of_looping hs').trans hend⟩
        · exact ⟨m + 1, _, (loopAt_succ_of_looping hs').trans hend⟩
        · have hlt := hless hprogress
          exact ih (m + 1) s'' (by omega) ((loopAt_succ_of_looping hs').trans hnext) hplaced''
  exact hends _ 0 _ le_rfl loopFromScratch_zero placed_initialState

end Loop

/-! ## 4. What is returned -/

/-- Exactly one result for each task, and `blocked` exactly behind a task that did not complete. -/
def Reports (graph : TaskGraph) (results : Results α) : Prop :=
  results.keys.Perm graph.ids ∧
  ∀ t ∈ graph.ids, (results.status? t = some .blocked ↔
    ∃ d, Needs graph.dependencies t d ∧ results.status? d ≠ some .completed)

theorem Complete.reports {results : Results α} (h : Complete graph results) :
    Reports graph results := by
  rcases h with ⟨s, hplaced, rfl, hremaining, hrunning⟩
  have hkeys : s.results.keys.Perm graph.ids := by
    have hpartition := hplaced.partition
    rw [hremaining, ExecutorState.runningIds, hrunning, List.map_nil, List.append_nil,
      List.append_nil] at hpartition
    exact hpartition
  refine ⟨hkeys, ?_⟩
  intro t ht
  rcases Dict.mem_keys_iff.mp (hkeys.mem_iff.mpr ht) with ⟨r, hget⟩
  have hstatus : s.results.status? t = some r.status := by
    unfold Results.status?
    rw [hget]
    rfl
  constructor
  · intro hblocked
    rw [hstatus] at hblocked
    rcases hplaced.blocked t r hget (Option.some.inj hblocked) with ⟨d, hd, -, hnot⟩
    exact ⟨d, Relation.TransGen.single hd, hnot⟩
  · intro hneeds
    rcases hneeds with ⟨d, hneeds, hnot⟩
    rw [hstatus]
    congr 1
    by_contra hran
    -- completed results have completed dependencies, all the way down
    have hclosed : ∀ a, s.results.Completed (graph.dependencies a) →
        ∀ b ∈ graph.dependencies a, s.results.Completed (graph.dependencies b) := by
      intro a ha b hb
      have hb' := ha b hb
      unfold Results.status? at hb'
      rcases Option.map_eq_some_iff.mp hb' with ⟨r', hget', hcompleted⟩
      apply hplaced.ran b r' hget'
      rw [hcompleted]
      decide
    have hdeps := hplaced.ran t r hget hran
    cases hneeds with
    | single hstep => exact hnot (hdeps d hstep)
    | tail hpath hstep => exact hnot (Needs.closed hclosed hdeps hpath d hstep)

/-- An execution reports on every task exactly when each pass that starts with nothing running and
every remaining task behind a failed dependency visits dependencies first. -/
theorem execute_reports_iff (graph : TaskGraph) (limit : ℕ) (env : Surroundings α)
    (hlimit : 1 ≤ limit) (henv : env.Uninterrupted) :
    (∃ results, Executes graph limit env Dict.empty (.returned results) ∧
      Reports graph results) ↔
    ∀ n s, loopAt graph limit env Dict.empty n = .looping s → s.Blocked graph →
      DependenciesFirst graph.dependencies (env.iterate n s.remaining) := by
  constructor
  · intro hreturned n s hs hblocked
    rcases hreturned with ⟨results, hexecutes, -⟩
    by_contra hnot
    have hplaced : Placed graph s := by
      rcases loopFromScratch_invariant graph hlimit henv n with
        ⟨s', hs', hplaced⟩ | ⟨results', hend, -⟩ | ⟨hend, -⟩
      · rw [loopFromScratch, hs] at hs'
        cases hs'
        exact hplaced
      · rw [loopFromScratch, hs] at hend
        cases hend
      · rw [loopFromScratch, hs] at hend
        cases hend
    have hcyclic : Executes graph limit env Dict.empty .cyclicOrMissing := by
      refine ⟨n + 1, ?_⟩
      rw [loopAt_succ_of_looping hs]
      rcases loopPass_cases hlimit henv n hplaced with
        ⟨_, -, -, hfirst⟩ | ⟨hend, -⟩ | ⟨_, -, hnotBlocked, -⟩
      · exact absurd (hfirst hblocked) hnot
      · exact hend
      · exact absurd hblocked hnotBlocked
    have hsame := hexecutes.unique hcyclic
    cases hsame
  · intro hfirst
    rcases loopFromScratch_ends graph hlimit henv with ⟨n, outcome, hend⟩
    rcases loopFromScratch_invariant graph hlimit henv n with
      ⟨s, hs, -⟩ | ⟨results, hresults, hcomplete⟩ | ⟨-, m, s, hs, hblocked, hnot⟩
    · rw [hs] at hend
      cases hend
    · exact ⟨results, ⟨n, hresults⟩, hcomplete.reports⟩
    · exact absurd (hfirst m s hs hblocked) hnot

/-! ## 5. A chain behind a failed task -/

/-- A graph that lists every task after its dependencies. -/
def TaskGraph.ofListed (tasks : List DynamicTask) (unique : (tasks.map DynamicTask.taskId).Nodup)
    (listed : ∀ t ∈ tasks, ∀ d ∈ t.dependencies,
      (tasks.map DynamicTask.taskId).idxOf d < (tasks.map DynamicTask.taskId).idxOf t.taskId) :
    TaskGraph :=
  have hrank : ∀ taskId, ∀ d ∈ dependenciesIn tasks taskId,
      (tasks.map DynamicTask.taskId).idxOf d < (tasks.map DynamicTask.taskId).idxOf taskId := by
    intro taskId d hd
    unfold dependenciesIn at hd
    split at hd
    · exact absurd hd List.not_mem_nil
    · rename_i task hfind
      have hfound := List.find?_some hfind
      rw [← of_decide_eq_true hfound]
      exact listed task (List.mem_of_find?_eq_some hfind) d hd
  { tasks := tasks
    unique := unique
    closed := fun taskId d hd => List.idxOf_lt_length_iff.mp
      (Nat.lt_of_lt_of_le (hrank taskId d hd) List.idxOf_le_length)
    acyclic := acyclic_of_rank _ hrank }

def chain : TaskGraph :=
  TaskGraph.ofListed [⟨"A", [], 0⟩, ⟨"B", ["A"], 0⟩, ⟨"C", ["B"], 0⟩] (by decide +kernel)
    (by decide +kernel)

/-- The first task fails, a pass finds the oldest future finished and iterates by `order`. -/
def failingFirst (order : List String → List String)
    (perm : ∀ remaining, (order remaining).Perm remaining) : Surroundings ℕ where
  worker := fun future =>
    if future.taskId = "A" then .failed ⟨"TASK_FAILED", "failed"⟩ else .completed 0
  iterate := fun _ => order
  finished := fun _ running => running.take 1
  cancelled := fun _ => false
  iterate_perm := fun _ => perm
  finished_nodup := by
    intro _ running
    cases running <;> simp
  finished_subset := fun _ running => List.take_subset 1 running

theorem failingFirst_uninterrupted (order : List String → List String)
    (perm : ∀ remaining, (order remaining).Perm remaining) :
    (failingFirst order perm).Uninterrupted where
  notCancelled := fun _ => rfl
  returns := by
    intro future exception
    show (if _ then _ else _) ≠ _
    split <;> simp
  progress := by
    intro n
    refine ⟨n, le_rfl, ?_⟩
    intro running hne
    cases running with
    | nil => exact absurd rfl hne
    | cons _ _ =>
      show List.take 1 (_ :: _) ≠ []
      simp

abbrev listedOrder : Surroundings ℕ := failingFirst id fun _ => List.Perm.refl _

abbrev reversedOrder : Surroundings ℕ := failingFirst List.reverse List.reverse_perm

/-- The remaining tasks while the loop goes on. -/
def LoopState.remaining? : LoopState α → Option (List String)
  | .looping s => some s.remaining
  | .ended _ => none

def LoopState.isCyclic : LoopState α → Bool
  | .ended .cyclicOrMissing => true
  | _ => false

theorem execute_reports_iff_chain :
    ∃ results, Executes chain 2 listedOrder Dict.empty (.returned results) ∧
      Reports chain results := by
  apply (execute_reports_iff chain 2 listedOrder (by decide)
    (failingFirst_uninterrupted _ _)).mpr
  intro n s hs hblocked
  show DependenciesFirst chain.dependencies s.remaining
  have hremaining : (loopAt chain 2 listedOrder Dict.empty n).remaining? = some s.remaining := by
    rw [hs]
    rfl
  match n with
  | 0 =>
    have hfirst : "A" ∈ s.remaining := by
      have hrun : (loopAt chain 2 listedOrder Dict.empty 0).remaining? =
        some ["A", "B", "C"] := by decide +kernel
      rw [hrun] at hremaining
      rw [← Option.some.inj hremaining]
      exact List.mem_cons_self
    have hfree : chain.dependencies "A" = [] := by decide +kernel
    have hcompleted : s.results.Completed (chain.dependencies "A") := by
      rw [hfree]
      exact fun d hd => absurd hd List.not_mem_nil
    exact absurd hcompleted (hblocked.2 "A" hfirst)
  | 1 =>
    have hrun : (loopAt chain 2 listedOrder Dict.empty 1).remaining? = some ["B", "C"] := by
      decide +kernel
    rw [hrun] at hremaining
    rw [← Option.some.inj hremaining]
    unfold DependenciesFirst
    decide +kernel
  | n + 2 =>
    have hrun : (loopAt chain 2 listedOrder Dict.empty 2).remaining? = none := by decide +kernel
    cases hend : loopAt chain 2 listedOrder Dict.empty 2 with
    | looping s' =>
      rw [hend] at hrun
      cases hrun
    | ended outcome =>
      have hlater := loopAt_add_of_ended hend n
      rw [Nat.add_comm n 2, hlater] at hs
      cases hs

/-- `C` visited before `B`, both behind the failed `A`: an acyclic graph ends as cyclic. -/
theorem execute_cyclic_on_chain :
    reversedOrder.Uninterrupted ∧
    Executes chain 2 reversedOrder Dict.empty .cyclicOrMissing ∧
    ¬ ∃ results, Executes chain 2 reversedOrder Dict.empty (.returned results) ∧
      Reports chain results := by
  have hcyclic : Executes chain 2 reversedOrder Dict.empty .cyclicOrMissing := by
    have hrun : (loopAt chain 2 reversedOrder Dict.empty 2).isCyclic = true := by decide +kernel
    refine ⟨2, ?_⟩
    cases hend : loopAt chain 2 reversedOrder Dict.empty 2 with
    | looping s =>
      rw [hend] at hrun
      cases hrun
    | ended outcome =>
      rw [hend] at hrun
      cases outcome <;> first | rfl | cases hrun
  refine ⟨failingFirst_uninterrupted _ _, hcyclic, ?_⟩
  intro hreturned
  rcases hreturned with ⟨results, hexecutes, -⟩
  have hsame := hexecutes.unique hcyclic
  cases hsame

end Milo.Swarm
