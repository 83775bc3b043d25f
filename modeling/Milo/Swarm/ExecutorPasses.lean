import Milo.Swarm.Executor

/-!
# ExecutorPasses — what a pass of the executor does

Every id of the graph is in exactly one of three places: it has a result, it remains, or it runs.
A pass keeps that, keeps every result justified by the results of its dependencies, and ends the
execution as cyclic in exactly one situation, which is a matter of the iteration order.
-/

namespace Milo.Swarm

open Milo.Reasoning

variable {α : Type} {graph : TaskGraph}

/-! ## 1. Results only grow -/

namespace Results

/-- `results'` still has every result of `results`. -/
def Extends (results results' : Results α) : Prop :=
  ∀ d ∈ results.keys, results'.get? d = results.get? d

variable {results : Results α}

theorem extends_set {taskId : String} (h : taskId ∉ results.keys) (r : TaskResult α) :
    results.Extends (results.set taskId r) := by
  intro d hd
  apply Dict.get?_set_ne
  exact fun heq => h (heq ▸ hd)

theorem mem_keys_of_status {d : String} {status : TaskStatus} (h : results.status? d = some status) :
    d ∈ results.keys := by
  unfold status? at h
  rcases Option.map_eq_some_iff.mp h with ⟨r, hget, -⟩
  exact Dict.mem_keys_iff.mpr ⟨r, hget⟩

theorem Extends.status {results results' : Results α} (h : results.Extends results') {d : String}
    (hd : d ∈ results.keys) : results'.status? d = results.status? d := by
  unfold status?
  rw [h d hd]

theorem Completed.settled {deps : List String} (h : results.Completed deps) : results.Settled deps :=
  fun d hd => mem_keys_of_status (h d hd)

theorem Completed.mono {results' : Results α} (hext : results.Extends results') {deps : List String}
    (h : results.Completed deps) : results'.Completed deps := by
  intro d hd
  rw [hext.status (mem_keys_of_status (h d hd))]
  exact h d hd

theorem status_set_blocked {taskId : String} (h : taskId ∉ results.keys) (d : String) :
    Results.status? (results.set taskId (blockedResult taskId)) d = some .completed ↔
      results.status? d = some .completed := by
  unfold status?
  rw [Dict.get?_set]
  by_cases hd : d = taskId
  · rw [if_pos hd, hd, Dict.get?_eq_none.mpr h]
    simp [blockedResult]
  · rw [if_neg hd]

end Results

/-! ## 2. The invariant -/

/-- Each id is in one place, and each result and each future is justified by its dependencies. -/
structure Placed (graph : TaskGraph) (s : ExecutorState α) : Prop where
  partition : (s.results.keys ++ (s.remaining ++ s.runningIds)).Perm graph.ids
  running : ∀ future ∈ s.running, s.results.Completed (graph.dependencies future.taskId)
  ran : ∀ taskId r, s.results.get? taskId = some r → r.status ≠ .blocked →
    s.results.Completed (graph.dependencies taskId)
  blocked : ∀ taskId r, s.results.get? taskId = some r → r.status = .blocked →
    ∃ d ∈ graph.dependencies taskId, d ∈ s.results.keys ∧ s.results.status? d ≠ some .completed

namespace Placed

variable {s s' : ExecutorState α}

theorem nodup (h : Placed graph s) :
    (s.results.keys ++ (s.remaining ++ s.runningIds)).Nodup :=
  h.partition.nodup_iff.mpr graph.unique

theorem remaining_nodup (h : Placed graph s) : s.remaining.Nodup :=
  (List.nodup_append.mp (List.nodup_append.mp h.nodup).2.1).1

theorem running_nodup (h : Placed graph s) : s.runningIds.Nodup :=
  (List.nodup_append.mp (List.nodup_append.mp h.nodup).2.1).2.1

variable {taskId : String}

theorem notMem_keys_of_remaining (h : Placed graph s) (ht : taskId ∈ s.remaining) : taskId ∉ s.results.keys :=
  fun hk => (List.nodup_append.mp h.nodup).2.2 taskId hk taskId
    (List.mem_append_left _ ht) rfl

theorem notMem_keys_of_running (h : Placed graph s) (ht : taskId ∈ s.runningIds) : taskId ∉ s.results.keys :=
  fun hk => (List.nodup_append.mp h.nodup).2.2 taskId hk taskId
    (List.mem_append_right _ ht) rfl

/-- Recording a result of a task that had none: the task leaves its place. -/
theorem record (h : Placed graph s) {r : TaskResult α} (hfresh : taskId ∉ s.results.keys)
    (hresults : s'.results = s.results.set taskId r)
    (hplaces : (taskId :: (s'.remaining ++ s'.runningIds)).Perm (s.remaining ++ s.runningIds))
    (hrunning : ∀ future ∈ s'.running, future ∈ s.running)
    (hran : r.status ≠ .blocked → s.results.Completed (graph.dependencies taskId))
    (hblocked : r.status = .blocked → ∃ d ∈ graph.dependencies taskId, d ∈ s.results.keys ∧
      s.results.status? d ≠ some .completed) : Placed graph s' := by
  have hext : s.results.Extends s'.results := by
    rw [hresults]
    exact Results.extends_set hfresh r
  have hkept : ∀ d ∈ s.results.keys, d ∈ s'.results.keys := by
    intro d hd
    rw [hresults]
    exact Dict.mem_keys_set.mpr (Or.inr hd)
  have hget : ∀ t r', s'.results.get? t = some r' →
      (t = taskId ∧ r' = r) ∨ s.results.get? t = some r' := by
    intro t r' ht
    rw [hresults, Dict.get?_set] at ht
    by_cases heq : t = taskId
    · rw [if_pos heq] at ht
      exact Or.inl ⟨heq, (Option.some.inj ht).symm⟩
    · rw [if_neg heq] at ht
      exact Or.inr ht
  refine ⟨?_, ?_, ?_, ?_⟩
  · have hkeys : s'.results.keys = s.results.keys ++ [taskId] := by
      rw [hresults]
      exact Dict.keys_set_of_notMem hfresh
    rw [hkeys, List.append_assoc]
    exact (hplaces.append_left s.results.keys).trans h.partition
  · intro future hfuture
    exact (h.running future (hrunning future hfuture)).mono hext
  · intro t r' ht hstatus
    rcases hget t r' ht with ⟨rfl, rfl⟩ | hold
    · exact (hran hstatus).mono hext
    · exact (h.ran t r' hold hstatus).mono hext
  · intro t r' ht hstatus
    have hjust : ∃ d ∈ graph.dependencies t, d ∈ s.results.keys ∧
        s.results.status? d ≠ some .completed := by
      rcases hget t r' ht with ⟨rfl, rfl⟩ | hold
      · exact hblocked hstatus
      · exact h.blocked t r' hold hstatus
    rcases hjust with ⟨d, hd, hmem, hnot⟩
    refine ⟨d, hd, hkept d hmem, ?_⟩
    rw [hext.status hmem]
    exact hnot

end Placed

/-- How many tasks have no result yet. -/
def ExecutorState.pending (s : ExecutorState α) : ℕ := s.remaining.length + s.running.length

/-! ## 3. The scan -/

/-- The executor's state with what a scan has written. -/
def Scan.apply (scan : Scan α) (s : ExecutorState α) : ExecutorState α :=
  { s with results := scan.results, remaining := scan.remaining }

/-- Where a scan stands when the tasks of `rest` are still to be visited. -/
structure Scanned (graph : TaskGraph) (s : ExecutorState α) (rest : List String) (scan : Scan α) :
    Prop where
  placed : Placed graph (scan.apply s)
  todo : ∀ t ∈ rest, t ∈ scan.remaining ∧ t ∉ scan.ready
  ready : ∀ t ∈ scan.ready, t ∈ scan.remaining ∧ scan.results.Completed (graph.dependencies t)
  shrinks : scan.remaining.length ≤ s.remaining.length
  completed : ∀ d, scan.results.status? d = some .completed ↔ s.results.status? d = some .completed

variable {order : List String} {s : ExecutorState α} {t : String}

theorem Scanned.start (h : Placed graph s) (horder : order.Perm s.remaining) :
    Scanned graph s order ⟨s.results, s.remaining, []⟩ where
  placed := h
  todo := fun t ht => ⟨horder.mem_iff.mp ht, List.not_mem_nil⟩
  ready := by simp
  shrinks := le_rfl
  completed := fun _ => Iff.rfl

theorem Scanned.visit {rest : List String} {scan : Scan α} (h : Scanned graph s (t :: rest) scan) (hrest : t ∉ rest) :
    Scanned graph s rest (scanTask graph scan t) := by
  have htodo := h.todo t List.mem_cons_self
  have hlater : ∀ t' ∈ rest, t' ∈ scan.remaining ∧ t' ∉ scan.ready :=
    fun t' ht' => h.todo t' (List.mem_cons_of_mem _ ht')
  have hfresh : t ∉ scan.results.keys := h.placed.notMem_keys_of_remaining htodo.1
  unfold scanTask
  by_cases hsettled : scan.results.Settled (graph.dependencies t)
  · by_cases hcompleted : scan.results.Completed (graph.dependencies t)
    · simp only [if_pos hsettled, if_pos hcompleted]
      refine ⟨h.placed, ?_, ?_, h.shrinks, h.completed⟩
      · intro t' ht'
        refine ⟨(hlater t' ht').1, ?_⟩
        intro hmem
        rcases List.mem_cons.mp hmem with rfl | hold
        · exact hrest ht'
        · exact (hlater t' ht').2 hold
      · intro t' ht'
        rcases List.mem_cons.mp ht' with rfl | hold
        · exact ⟨htodo.1, hcompleted⟩
        · exact h.ready t' hold
    · -- behind a failed dependency: the task gets a blocked result and leaves the remaining set
      simp only [if_pos hsettled, if_neg hcompleted]
      have hext : scan.results.Extends (scan.results.set t (blockedResult t)) :=
        Results.extends_set hfresh _
      have hplaces : (t :: (scan.remaining.erase t ++ s.runningIds)).Perm
          (scan.remaining ++ s.runningIds) :=
        (List.perm_cons_erase htodo.1).symm.append_right s.runningIds
      have hnot : ∃ d ∈ graph.dependencies t, d ∈ scan.results.keys ∧
          scan.results.status? d ≠ some .completed := by
        unfold Results.Completed at hcompleted
        push Not at hcompleted
        rcases hcompleted with ⟨d, hd, hstatus⟩
        exact ⟨d, hd, hsettled d hd, hstatus⟩
      refine ⟨?_, ?_, ?_, ?_, ?_⟩
      · exact h.placed.record hfresh rfl hplaces (fun _ hfuture => hfuture)
          (fun hstatus => absurd rfl hstatus) fun _ => hnot
      · intro t' ht'
        have hne : t' ≠ t := fun heq => hrest (heq ▸ ht')
        exact ⟨(List.mem_erase_of_ne hne).mpr (hlater t' ht').1, (hlater t' ht').2⟩
      · intro t' ht'
        have hne : t' ≠ t := fun heq => htodo.2 (heq ▸ ht')
        exact ⟨(List.mem_erase_of_ne hne).mpr (h.ready t' ht').1, (h.ready t' ht').2.mono hext⟩
      · exact List.erase_sublist.length_le.trans h.shrinks
      · intro d
        exact (Results.status_set_blocked hfresh d).trans (h.completed d)
  · simp only [if_neg hsettled]
    exact ⟨h.placed, hlater, h.ready, h.shrinks, h.completed⟩

theorem Scanned.visitAll (hnodup : order.Nodup) :
    ∀ scan, Scanned graph s order scan →
      Scanned graph s [] (order.foldl (scanTask graph) scan) := by
  induction order with
  | nil => exact fun scan h => h
  | cons t rest ih =>
    intro scan h
    rw [List.nodup_cons] at hnodup
    exact ih hnodup.2 _ (h.visit hnodup.1)

/-- A scan finds exactly the tasks whose dependencies have all completed before it. -/
theorem Scanned.mem_ready_iff (hnodup : order.Nodup) :
    ∀ scan, Scanned graph s order scan → (t ∈ (order.foldl (scanTask graph) scan).ready ↔
      t ∈ scan.ready ∨ (t ∈ order ∧ s.results.Completed (graph.dependencies t))) := by
  induction order with
  | nil => simp
  | cons t' rest ih =>
    intro scan h
    rw [List.nodup_cons] at hnodup
    have hsame : ∀ deps, scan.results.Completed deps ↔ s.results.Completed deps :=
      fun deps => forall₂_congr fun d _ => h.completed d
    have hvisit : t ∈ (scanTask graph scan t').ready ↔
        t ∈ scan.ready ∨ (t = t' ∧ s.results.Completed (graph.dependencies t)) := by
      unfold scanTask
      by_cases hcompleted : scan.results.Completed (graph.dependencies t')
      · simp only [if_pos hcompleted.settled, if_pos hcompleted, List.mem_cons]
        rw [hsame] at hcompleted
        constructor
        · rintro (rfl | hold)
          · exact Or.inr ⟨rfl, hcompleted⟩
          · exact Or.inl hold
        · rintro (hold | ⟨rfl, -⟩)
          · exact Or.inr hold
          · exact Or.inl rfl
      · have hready : (scanTask graph scan t').ready = scan.ready := by
          unfold scanTask
          simp only [if_neg hcompleted]
          split <;> rfl
        unfold scanTask at hready
        rw [hready]
        rw [hsame] at hcompleted
        constructor
        · exact Or.inl
        · rintro (hold | ⟨rfl, hdone⟩)
          · exact hold
          · exact absurd hdone hcompleted
    rw [List.foldl_cons, ih hnodup.2 _ (h.visit hnodup.1), hvisit, List.mem_cons]
    tauto

/-! ## 4. A scan that finds nothing ready -/

theorem mem_remaining_of_notVisited (ht : t ∉ order) :
    ∀ scan : Scan α, t ∈ scan.remaining → t ∈ (order.foldl (scanTask graph) scan).remaining := by
  induction order with
  | nil => exact fun scan h => h
  | cons t' rest ih =>
    intro scan hmem
    rw [List.mem_cons, not_or] at ht
    apply ih ht.2
    unfold scanTask
    simp only
    split
    · split
      · exact hmem
      · exact (List.mem_erase_of_ne ht.1).mpr hmem
    · exact hmem

/-- A scan that leaves none of its tasks remaining visited them dependencies first. -/
theorem dependenciesFirst_of_none_remaining (hnodup : order.Nodup) :
    ∀ scan : Scan α, scan.remaining.Nodup → (∀ t ∈ order, t ∈ scan.remaining) →
      (∀ t ∈ scan.remaining, t ∉ scan.results.keys) →
      (∀ t ∈ order, t ∉ (order.foldl (scanTask graph) scan).remaining) →
      DependenciesFirst graph.dependencies order := by
  induction order with
  | nil => exact fun _ _ _ _ _ => List.Pairwise.nil
  | cons t rest ih =>
    intro scan hremaining htodo hfresh hnone
    rw [List.nodup_cons] at hnodup
    have hgone := hnone t List.mem_cons_self
    rw [List.foldl_cons] at hnone hgone
    -- a task the scan leaves in place is never removed by a later visit
    have hblocks : scan.results.Settled (graph.dependencies t) ∧
        ¬ scan.results.Completed (graph.dependencies t) := by
      by_contra hcontra
      apply hgone
      apply mem_remaining_of_notVisited hnodup.1
      unfold scanTask
      simp only
      by_cases hsettled : scan.results.Settled (graph.dependencies t)
      · by_cases hcompleted : scan.results.Completed (graph.dependencies t)
        · rw [if_pos hsettled, if_pos hcompleted]
          exact htodo t List.mem_cons_self
        · exact absurd ⟨hsettled, hcompleted⟩ hcontra
      · rw [if_neg hsettled]
        exact htodo t List.mem_cons_self
    have hstep : scanTask graph scan t =
        ⟨scan.results.set t (blockedResult t), scan.remaining.erase t, scan.ready⟩ := by
      unfold scanTask
      rw [if_pos hblocks.1, if_neg hblocks.2]
    have hne : ∀ t' ∈ scan.remaining.erase t, t' ≠ t := by
      intro t' ht' heq
      rw [heq] at ht'
      exact hremaining.not_mem_erase ht'
    rw [hstep] at hnone
    apply List.Pairwise.cons
    · intro later hlater hmem
      exact hfresh later (htodo later (List.mem_cons_of_mem _ hlater)) (hblocks.1 later hmem)
    · apply ih hnodup.2 ⟨scan.results.set t (blockedResult t), scan.remaining.erase t, scan.ready⟩
        (hremaining.erase t)
      · intro t' ht'
        have hne' : t' ≠ t := fun heq => hnodup.1 (heq ▸ ht')
        exact (List.mem_erase_of_ne hne').mpr (htodo t' (List.mem_cons_of_mem _ ht'))
      · intro t' ht' hkey
        rcases Dict.mem_keys_set.mp hkey with heq | hold
        · exact hne t' ht' heq
        · exact hfresh t' (List.mem_of_mem_erase ht') hold
      · exact fun t' ht' => hnone t' (List.mem_cons_of_mem _ ht')

/-- Visited dependencies first, tasks that are all behind a failed dependency are all blocked. -/
theorem none_remaining_of_dependenciesFirst (hfirst : DependenciesFirst graph.dependencies order)
    (hnodup : order.Nodup) :
    ∀ scan : Scan α, scan.remaining.Perm order → (∀ t ∈ order, t ∉ scan.results.keys) →
      (∀ t ∈ order, ¬ scan.results.Completed (graph.dependencies t)) →
      (∀ t ∈ order, ∀ d ∈ graph.dependencies t, d ∈ scan.results.keys ∨ d ∈ order) →
      (order.foldl (scanTask graph) scan).remaining = [] := by
  induction order with
  | nil => exact fun scan hperm _ _ _ => hperm.eq_nil
  | cons t rest ih =>
    intro scan hperm hfresh hnone hdeps
    rw [List.nodup_cons] at hnodup
    rw [DependenciesFirst, List.pairwise_cons] at hfirst
    have hsettled : scan.results.Settled (graph.dependencies t) := by
      intro d hd
      rcases hdeps t List.mem_cons_self d hd with hkey | hmem
      · exact hkey
      · rcases List.mem_cons.mp hmem with rfl | hlater
        · exact absurd hd (graph.acyclic.notMem_self d)
        · exact absurd hd (hfirst.1 d hlater)
    have hstep : scanTask graph scan t =
        ⟨scan.results.set t (blockedResult t), scan.remaining.erase t, scan.ready⟩ := by
      unfold scanTask
      rw [if_pos hsettled, if_neg (hnone t List.mem_cons_self)]
    rw [List.foldl_cons, hstep]
    apply ih hfirst.2 hnodup.2
    · have herase := hperm.erase t
      rwa [List.erase_cons_head] at herase
    · intro t' ht' hkey
      rcases Dict.mem_keys_set.mp hkey with heq | hold
      · exact hnodup.1 (heq ▸ ht')
      · exact hfresh t' (List.mem_cons_of_mem _ ht') hold
    · intro t' ht' hcompleted
      apply hnone t' (List.mem_cons_of_mem _ ht')
      intro d hd
      exact (Results.status_set_blocked (hfresh t List.mem_cons_self) d).mp (hcompleted d hd)
    · intro t' ht' d hd
      rcases hdeps t' (List.mem_cons_of_mem _ ht') d hd with hkey | hmem
      · exact Or.inl (Dict.mem_keys_set.mpr (Or.inr hkey))
      · rcases List.mem_cons.mp hmem with rfl | hlater
        · exact Or.inl (Dict.mem_keys_set.mpr (Or.inl rfl))
        · exact Or.inr hlater

/-! ## 5. Submissions -/

theorem runningIds_submitTask (s : ExecutorState α) (taskId : String) :
    (submitTask graph s taskId).runningIds = s.runningIds ++ [taskId] := by
  simp [submitTask, ExecutorState.runningIds]

theorem pending_submitTask {taskId : String} (h : taskId ∈ s.remaining) :
    (submitTask graph s taskId).pending = s.pending := by
  have hpos := List.length_pos_of_mem h
  show (s.remaining.erase taskId).length + (s.running ++ [_]).length = _
  rw [List.length_erase_of_mem h, List.length_append, List.length_singleton]
  unfold ExecutorState.pending
  omega

theorem Placed.submit (h : Placed graph s) {taskId : String} (hmem : taskId ∈ s.remaining)
    (hcompleted : s.results.Completed (graph.dependencies taskId)) :
    Placed graph (submitTask graph s taskId) where
  partition := by
    rw [runningIds_submitTask]
    have hmove : (s.remaining.erase taskId ++ (s.runningIds ++ [taskId])).Perm
        (s.remaining ++ s.runningIds) := by
      have hfront : (s.remaining.erase taskId ++ (s.runningIds ++ [taskId])).Perm
          (taskId :: (s.remaining.erase taskId ++ s.runningIds)) := by
        rw [← List.append_assoc]
        exact List.perm_append_singleton taskId _
      exact hfront.trans ((List.perm_cons_erase hmem).symm.append_right s.runningIds)
    exact (hmove.append_left s.results.keys).trans h.partition
  running := by
    intro future hfuture
    rcases List.mem_append.mp hfuture with hold | hnew
    · exact h.running future hold
    · rw [List.mem_singleton.mp hnew]
      exact hcompleted
  ran := h.ran
  blocked := h.blocked

theorem submitReady_spec (graph : TaskGraph) (limit : ℕ) (ready : List String) :
    ∀ s : ExecutorState α, Placed graph s →
      (∀ t ∈ ready, s.results.Completed (graph.dependencies t)) →
      Placed graph (submitReady graph limit ready s) ∧
      (submitReady graph limit ready s).pending = s.pending ∧
      s.running.length ≤ (submitReady graph limit ready s).running.length := by
  induction ready with
  | nil => exact fun s h _ => ⟨h, rfl, le_rfl⟩
  | cons t ready ih =>
    intro s h hready
    have hlater : ∀ t' ∈ ready, s.results.Completed (graph.dependencies t') :=
      fun t' ht' => hready t' (List.mem_cons_of_mem _ ht')
    unfold submitReady
    by_cases hfree : s.running.length < limit
    · rw [if_pos hfree]
      by_cases hmem : t ∈ s.remaining
      · rw [if_pos hmem]
        have hnext := ih (submitTask graph s t) (h.submit hmem (hready t List.mem_cons_self)) hlater
        have hgrow : (submitTask graph s t).running.length = s.running.length + 1 := by
          simp [submitTask]
        rw [pending_submitTask hmem] at hnext
        exact ⟨hnext.1, hnext.2.1, by omega⟩
      · rw [if_neg hmem]
        exact ih s h hlater
    · rw [if_neg hfree]
      exact ⟨h, rfl, le_rfl⟩

/-- With a ready task and a free worker something runs after the submissions. -/
theorem submitReady_running {limit : ℕ} (hlimit : 1 ≤ limit) {ready : List String} (h : Placed graph s)
    (hready : ∀ t' ∈ t :: ready, t' ∈ s.remaining ∧ s.results.Completed (graph.dependencies t')) :
    (submitReady graph limit (t :: ready) s).running ≠ [] := by
  apply List.ne_nil_of_length_pos
  have ht := hready t List.mem_cons_self
  unfold submitReady
  by_cases hfree : s.running.length < limit
  · rw [if_pos hfree, if_pos ht.1]
    have hspec := submitReady_spec graph limit ready (submitTask graph s t)
      (h.submit ht.1 ht.2) fun t' ht' => (hready t' (List.mem_cons_of_mem _ ht')).2
    have hone : (submitTask graph s t).running.length = s.running.length + 1 := by
      simp [submitTask]
    omega
  · rw [if_neg hfree]
    omega

/-! ## 6. Collecting finished futures -/

/-- No cancellation, every worker returns a completed or a failed result, and again and again a pass finds
a future finished. -/
structure Surroundings.Uninterrupted (env : Surroundings α) : Prop where
  notCancelled : ∀ n, env.cancelled n = false
  returns : ∀ future exception, env.worker future ≠ .raised exception
  progress : ∀ n, ∃ m, n ≤ m ∧ ∀ running, running ≠ [] → env.finished m running ≠ []

theorem futureResult_ok {env : Surroundings α} (henv : env.Uninterrupted)
    (future : Submission α) : ∃ result, futureResult env future = .ok result ∧
      result.taskId = future.taskId ∧ result.status ≠ .blocked := by
  unfold futureResult
  cases hreply : env.worker future with
  | completed output => exact ⟨_, rfl, rfl, by simp⟩
  | failed error => exact ⟨_, rfl, rfl, by simp⟩
  | raised exception => exact absurd hreply (henv.returns future exception)

theorem runningIds_recordResult (h : s.runningIds.Nodup) (result : TaskResult α) :
    (recordResult s result).runningIds = s.runningIds.erase result.taskId := by
  rw [h.erase_eq_filter]
  show ((s.running.filter _).map Submission.taskId) = _
  unfold ExecutorState.runningIds
  rw [List.filter_map]
  congr 1
  apply List.filter_congr
  intro future _
  simp [bne, BEq.beq]

theorem Placed.recordResult (h : Placed graph s) {result : TaskResult α} (hrunning : result.taskId ∈ s.runningIds)
    (hstatus : result.status ≠ .blocked) : Placed graph (recordResult s result) := by
  apply h.record (h.notMem_keys_of_running hrunning) rfl
  · rw [runningIds_recordResult h.running_nodup]
    show (result.taskId :: (s.remaining ++ _)).Perm _
    have hback : (result.taskId :: s.runningIds.erase result.taskId).Perm s.runningIds :=
      (List.perm_cons_erase hrunning).symm
    exact List.perm_middle.symm.trans (hback.append_left s.remaining)
  · exact fun future hfuture => (List.mem_filter.mp hfuture).1
  · intro _
    rcases List.mem_map.mp hrunning with ⟨future, hfuture, htask⟩
    rw [← htask]
    exact h.running future hfuture
  · exact fun hblocked => absurd hblocked hstatus

theorem pending_recordResult (h : s.runningIds.Nodup) {result : TaskResult α}
    (hrunning : result.taskId ∈ s.runningIds) : (recordResult s result).pending + 1 = s.pending := by
  have hlength : (recordResult s result).running.length + 1 = s.running.length := by
    have hids := congrArg List.length (runningIds_recordResult h result)
    rw [List.length_erase_of_mem hrunning] at hids
    have hpos := List.length_pos_of_mem hrunning
    simp only [ExecutorState.runningIds, List.length_map] at hids hpos
    omega
  show s.remaining.length + (recordResult s result).running.length + 1 = _
  unfold ExecutorState.pending
  omega

/-- Collecting futures of the pool records one result for each. -/
theorem collect_ok {env : Surroundings α} (henv : env.Uninterrupted) {done : List String}
    (hnodup : done.Nodup) : ∀ s : ExecutorState α, Placed graph s → done ⊆ s.runningIds →
      ∃ s', collect env done s = .ok s' ∧ Placed graph s' ∧
        s'.pending + done.length = s.pending := by
  induction done with
  | nil => exact fun s h _ => ⟨s, rfl, h, rfl⟩
  | cons t done ih =>
    intro s h hsub
    rw [List.nodup_cons] at hnodup
    have hrunning : t ∈ s.runningIds := hsub List.mem_cons_self
    unfold collect
    cases hfind : s.running.find? (fun future => decide (future.taskId = t)) with
    | none =>
      rcases List.mem_map.mp hrunning with ⟨future, hfuture, htask⟩
      have hnot := List.find?_eq_none.mp hfind future hfuture
      exact absurd (decide_eq_true htask) hnot
    | some future =>
      have htask : future.taskId = t := by
        have hfound := List.find?_some hfind
        exact of_decide_eq_true hfound
      rcases futureResult_ok henv future with ⟨result, hresult, hid, hstatus⟩
      rw [htask] at hid
      simp only [hresult]
      have hmem : result.taskId ∈ s.runningIds := hid ▸ hrunning
      have hsub' : done ⊆ (recordResult s result).runningIds := by
        intro t' ht'
        rw [runningIds_recordResult h.running_nodup, hid]
        have hne : t' ≠ t := fun heq => hnodup.1 (heq ▸ ht')
        exact (List.mem_erase_of_ne hne).mpr (hsub (List.mem_cons_of_mem _ ht'))
      rcases ih hnodup.2 (recordResult s result) (h.recordResult hmem hstatus) hsub' with
        ⟨s', hcollect, hplaced, hpending⟩
      have hone := pending_recordResult h.running_nodup hmem
      refine ⟨s', hcollect, hplaced, ?_⟩
      rw [List.length_cons]
      omega

end Milo.Swarm
