import Milo.Swarm.Consistency
import Milo.Swarm.RunUsage
import Milo.Swarm.ExecutorRuns

/-!
# RunCalls — what a run calls between two feasibility checks

The feasibility check admits a plan under a worst case computed from its pending tasks and its
replans.  Between a check that passed and the next one, or the end of the run, the run executes the
graph once, may ask for a replan, verifies, and may ask for a correction: the calls of all of them
stay within that worst case whenever verification needs one batch.
-/

namespace Milo.Swarm

open Milo.Python Milo.Reasoning

variable {Y : Type}

/-! ## 1. Stretches without a check -/

/-- Only calls, steps and checkpoints were added, at most `k` calls and steps among them. -/
structure Minor (k : ℕ) (journal journal' : List RunEvent) : Prop where
  added : ∃ events, journal' = journal ++ events ∧ (∀ event ∈ events, event.isMinor = true) ∧
    gatewayCalls events ≤ k ∧ agentSteps events ≤ k

theorem minor_graded : Graded Minor where
  refl := fun j => ⟨[], (List.append_nil j).symm, by simp, Nat.zero_le _, Nat.zero_le _⟩
  trans := by
    rintro k l a b c ⟨e, hj, hminor, hcalls, hsteps⟩ ⟨e', hj', hminor', hcalls', hsteps'⟩
    refine ⟨e ++ e', ?_, ?_, ?_, ?_⟩
    · rw [hj', hj, List.append_assoc]
    · intro event he
      rcases List.mem_append.mp he with he | he
      · exact hminor event he
      · exact hminor' event he
    · rw [gatewayCalls_append]
      exact Nat.add_le_add hcalls hcalls'
    · rw [agentSteps_append]
      exact Nat.add_le_add hsteps hsteps'
  mono := by
    rintro k l a b hle ⟨e, hj, hminor, hcalls, hsteps⟩
    exact ⟨e, hj, hminor, hcalls.trans hle, hsteps.trans hle⟩

variable {k p r : ℕ} {a b c : List RunEvent} {event : RunEvent}

theorem Quiet.minor {s s' : RunState × World Y} (h : Quiet k s s') : Minor k s.2.journal s'.2.journal := by
  rcases h.added with ⟨e, hj, hminor, -, hcalls, hsteps⟩
  exact ⟨e, hj, hminor, hcalls, hsteps⟩

/-- The part of a stretch before its first feasibility check. -/
def untilCheck (events : List RunEvent) : List RunEvent :=
  events.takeWhile fun event => !event.isCheck

/-- Verification partitioned its claims into no more batches than the check accounts for. -/
def FewBatches (events : List RunEvent) : Prop :=
  ∀ count, .batchesPartitioned count ∈ events → count ≤ minVerifierBatches

/-- With few batches, at most `k` calls and `k` steps. -/
def WithinCalls (k : ℕ) (events : List RunEvent) : Prop :=
  FewBatches events → gatewayCalls events ≤ k ∧ agentSteps events ≤ k

/-- No feasibility check passed. -/
def NonePassed (events : List RunEvent) : Prop :=
  ∀ pendingTasks maxReplans, .feasibilityChecked pendingTasks maxReplans true ∉ events

theorem untilCheck_append_of_check (b : List RunEvent) (hmem : event ∈ a) (hcheck : event.isCheck = true) :
    untilCheck (a ++ b) = untilCheck a := by
  induction a with
  | nil => exact absurd hmem List.not_mem_nil
  | cons first rest ih =>
    unfold untilCheck at ih ⊢
    rw [List.cons_append, List.takeWhile_cons, List.takeWhile_cons]
    cases hfirst : first.isCheck with
    | true => rfl
    | false =>
      have hrest : event ∈ rest := by
        rcases List.mem_cons.mp hmem with rfl | h
        · rw [hcheck] at hfirst
          cases hfirst
        · exact h
      simp only [Bool.not_false, if_true]
      rw [ih hrest]

theorem untilCheck_append_of_free (b : List RunEvent) (h : ∀ event ∈ a, event.isCheck = false) :
    untilCheck (a ++ b) = a ++ untilCheck b := by
  unfold untilCheck
  rw [List.takeWhile_append_of_pos]
  intro event he
  rw [h event he]
  rfl

theorem untilCheck_eq_self (h : ∀ event ∈ a, event.isCheck = false) : untilCheck a = a := by
  have happend := untilCheck_append_of_free [] h
  rw [List.append_nil] at happend
  rw [happend]
  exact List.append_nil a

/-- No check passed, and up to the first check at most `k` calls were made. -/
structure Costs (k : ℕ) (journal journal' : List RunEvent) : Prop where
  added : ∃ events, journal' = journal ++ events ∧ NonePassed events ∧
    WithinCalls k (untilCheck events)

theorem costs_graded : Graded Costs where
  refl := fun j => ⟨[], (List.append_nil j).symm, fun _ _ => List.not_mem_nil,
    fun _ => ⟨Nat.le_refl 0, Nat.le_refl 0⟩⟩
  trans := by
    rintro k l a b c ⟨e, hj, hnone, hwithin⟩ ⟨e', hj', hnone', hwithin'⟩
    refine ⟨e ++ e', by rw [hj', hj, List.append_assoc], ?_, ?_⟩
    · intro p r hmem
      rcases List.mem_append.mp hmem with hmem | hmem
      · exact hnone p r hmem
      · exact hnone' p r hmem
    · intro hfew
      by_cases hcheck : ∃ event ∈ e, event.isCheck = true
      · -- a check was made in the first stretch: what follows it does not count
        rcases hcheck with ⟨event, hmem, hcheck⟩
        rw [untilCheck_append_of_check e' hmem hcheck] at hfew ⊢
        have h := hwithin hfew
        omega
      · have hfree : ∀ event ∈ e, event.isCheck = false := fun event he =>
          Bool.eq_false_iff.mpr fun h => hcheck ⟨event, he, h⟩
        rw [untilCheck_eq_self hfree] at hwithin
        rw [untilCheck_append_of_free e' hfree] at hfew ⊢
        have h := hwithin fun count hc => hfew count (List.mem_append_left _ hc)
        have h' := hwithin' fun count hc => hfew count (List.mem_append_right _ hc)
        rw [gatewayCalls_append, agentSteps_append]
        omega
  mono := by
    rintro k l a b hle ⟨e, hj, hnone, hwithin⟩
    refine ⟨e, hj, hnone, fun hfew => ?_⟩
    have h := hwithin hfew
    omega

theorem nonePassed_of_minor {events : List RunEvent}
    (h : ∀ event ∈ events, event.isMinor = true) : NonePassed events := by
  intro p r hmem
  have hminor := h _ hmem
  cases hminor

theorem isCheck_of_minor (h : event.isMinor = true) : event.isCheck = false := by
  cases event with
  | feasibilityChecked p r b => cases h
  | _ => rfl

theorem Minor.costs {j j' : List RunEvent} (h : Minor k j j') : Costs k j j' := by
  rcases h with ⟨e, hj, hminor, hcalls, hsteps⟩
  refine ⟨e, hj, nonePassed_of_minor hminor, fun _ => ?_⟩
  rw [untilCheck_eq_self fun event he => isCheck_of_minor (hminor event he)]
  exact ⟨hcalls, hsteps⟩

/-- An event that is neither a call nor a step nor a passed check costs nothing. -/
theorem costs_event (hcall : event.isCall = false) (hstep : event.isStep = false)
    (hcheck : ∀ p r, event ≠ .feasibilityChecked p r true) (j : List RunEvent) : Costs 0 j (j ++ [event]) := by
  refine ⟨[event], rfl, fun p r hmem => hcheck p r (List.mem_singleton.mp hmem).symm, fun _ => ?_⟩
  unfold untilCheck
  rw [List.takeWhile_cons]
  split
  · unfold gatewayCalls agentSteps
    rw [List.takeWhile_nil, List.countP_singleton, List.countP_singleton, hcall, hstep]
    exact ⟨Nat.le_refl 0, Nat.le_refl 0⟩
  · exact ⟨Nat.le_refl 0, Nat.le_refl 0⟩

/-! ## 2. Stretches that end in a passed check -/

/-- At most `k` calls, then a check that passed, and nothing called since. -/
structure Opened (k p r : ℕ) (journal journal' : List RunEvent) : Prop where
  split : ∃ before after, journal' = journal ++ (before ++ .feasibilityChecked p r true :: after) ∧
    NonePassed before ∧ WithinCalls k (untilCheck before) ∧
    (∀ event ∈ after, event.isMinor = true) ∧ gatewayCalls after = 0 ∧ agentSteps after = 0

theorem Costs.opened {l : ℕ} (h : Costs k a b) (h' : Opened l p r b c) : Opened (k + l) p r a c := by
  rcases h'.split with ⟨before, after, hj', hnone', hwithin', hminor, hcalls, hsteps⟩
  rcases costs_graded.trans h ⟨before, rfl, hnone', hwithin'⟩ with ⟨e, hj, hnone, hwithin⟩
  refine ⟨e, after, ?_, hnone, hwithin, hminor, hcalls, hsteps⟩
  rw [hj', ← List.append_assoc, hj, List.append_assoc]

theorem Opened.mono {l : ℕ} (h : Opened k p r a b) (hle : k ≤ l) : Opened l p r a b := by
  rcases h.split with ⟨before, after, hj, hnone, hwithin, hrest⟩
  refine ⟨before, after, hj, hnone, fun hfew => ?_, hrest⟩
  have h := hwithin hfew
  omega

theorem Opened.minor (h : Opened k p r a b) (h' : Minor 0 b c) : Opened k p r a c := by
  rcases h.split with ⟨before, after, hj, hnone, hwithin, hminor, hcalls, hsteps⟩
  rcases h' with ⟨e, hj', hminor', hcalls', hsteps'⟩
  refine ⟨before, after ++ e, ?_, hnone, hwithin, ?_, ?_, ?_⟩
  · rw [hj', hj]
    simp
  · intro event he
    rcases List.mem_append.mp he with he | he
    · exact hminor event he
    · exact hminor' event he
  · rw [gatewayCalls_append]
    omega
  · rw [agentSteps_append]
    omega

/-- How a stretch may end: with or without a check that passed last. -/
def Ended (k : ℕ) (journal journal' : List RunEvent) : Prop :=
  Costs k journal journal' ∨ ∃ p r, Opened k p r journal journal'

theorem Costs.ended {l : ℕ} (h : Costs k a b) (h' : Ended l b c) : Ended (k + l) a c := by
  rcases h' with h' | ⟨p, r, h'⟩
  · exact Or.inl (costs_graded.trans h h')
  · exact Or.inr ⟨p, r, h.opened h'⟩

theorem Ended.mono {l : ℕ} (h : Ended k a b) (hle : k ≤ l) : Ended l a b := by
  rcases h with h | ⟨p, r, h⟩
  · exact Or.inl (costs_graded.mono hle h)
  · exact Or.inr ⟨p, r, h.mono hle⟩

/-! ## 3. The parts of a pass -/

/-- `Minor`, read off the states of a run. -/
def Light (k : ℕ) (s s' : RunState × World Y) : Prop := Minor k s.2.journal s'.2.journal

/-- `Costs`, read off the states of a run. -/
def Spent (k : ℕ) (s s' : RunState × World Y) : Prop := Costs k s.2.journal s'.2.journal

theorem light_graded : Graded (Light (Y := Y)) := minor_graded.pull _

theorem spent_graded : Graded (Spent (Y := Y)) := costs_graded.pull _

section Rules

variable {k l : ℕ} {α β : Type} {c : RunM Y α} {f : α → RunM Y β}

theorem light_of_quiet (hc : Action.Spends Quiet k c) : Action.Spends Light k c :=
  fun s => (hc s).minor

theorem spent_of_light (hc : Action.Spends Light k c) : Action.Spends Spent k c :=
  fun s => (hc s).costs

theorem spent_of_quiet (hc : Action.Spends Quiet k c) : Action.Spends Spent k c :=
  spent_of_light (light_of_quiet hc)

/-- An update of the run state adds nothing to the journal. -/
theorem light_update (f : RunState → RunState) :
    Action.Spends Light 0 (RunEngine.update f : RunM Y PUnit) := fun _ => minor_graded.refl _

theorem light_then (hc : Action.Spends Light 0 c) (hf : ∀ a, Action.Spends Light k (f a)) :
    Action.Spends Light k (c >>= f) :=
  Action.spends_bind_free light_graded hc hf (Nat.zero_le k)

theorem spent_then (hc : Action.Spends Spent 0 c) (hf : ∀ a, Action.Spends Spent k (f a)) :
    Action.Spends Spent k (c >>= f) :=
  Action.spends_bind_free spent_graded hc hf (Nat.zero_le k)

theorem spent_last (hc : Action.Spends Spent k c) (hf : ∀ a, Action.Spends Spent 0 (f a)) :
    Action.Spends Spent k (c >>= f) :=
  Action.spends_free_after spent_graded hc hf

theorem spent_pure (a : α) : Action.Spends Spent 0 (pure a : RunM Y α) :=
  Action.spends_pure spent_graded a

theorem spent_raise (e : RunFault) : Action.Spends Spent 0 (Action.raise e : RunM Y α) :=
  Action.spends_raise spent_graded e

/-- A note that is no call, no step and no passed check is free. -/
theorem spent_note {event : RunEvent} (hcall : event.isCall = false) (hstep : event.isStep = false)
    (hcheck : ∀ p r, event ≠ .feasibilityChecked p r true) :
    Action.Spends Spent 0 (RunEngine.note event : RunM Y PUnit) :=
  fun s => costs_event hcall hstep hcheck s.2.journal

theorem pays_then {n : ℕ} {left : β → ℕ} {s : RunState × World Y} (hc : Action.Spends Spent 0 c)
    (hf : ∀ a s', Action.Pays Spent (f a) s' n left) : Action.Pays Spent (c >>= f) s n left :=
  (Action.Spends.pays spent_graded (m := n) hc (Nat.le_of_eq (Nat.zero_add n))).bind spent_graded
    fun a s' _ _ => hf a s'

end Rules

section Parts

variable {limits : PlanLimits} (engine : RunEngine limits Y) (plan : AcceptedPlan limits)

theorem light_acceptReplan (kind : ReplanKind) (replacement : AcceptedPlan limits) (reason : Text)
    (correctionRound : Option ℕ) :
    Action.Spends Light 0 (engine.acceptReplan kind replacement reason correctionRound) := by
  apply light_then (light_update _)
  intro _
  apply light_then (light_of_quiet (quiet_call _))
  intro _
  apply light_then (light_of_quiet (quiet_refreshUsage engine))
  intro _
  apply light_then (light_of_quiet (quiet_call _))
  intro _
  exact light_of_quiet (quiet_saveState engine)

theorem light_rejectReplan (code : String) (correctionRound : Option ℕ) :
    Action.Spends Light 0 (engine.rejectReplan code correctionRound) := by
  apply light_then (light_update _)
  intro _
  apply light_then (light_of_quiet (quiet_call _))
  intro _
  apply light_then (light_of_quiet (quiet_refreshUsage engine))
  intro _
  exact light_of_quiet (quiet_saveState engine)

theorem light_declineCorrection : Action.Spends Light 0 engine.declineCorrection := by
  apply light_then (light_update _)
  intro _
  apply light_then (light_of_quiet (quiet_call _))
  intro _
  exact light_of_quiet (quiet_saveState engine)

theorem light_persist (result : TaskResult TaskAnswer) (persisted : Results TaskAnswer) :
    Action.Spends Light 0 (engine.persist result persisted) := by
  apply light_then (Action.spends_ofExcept light_graded _)
  intro _
  apply light_then (light_update _)
  intro _
  apply light_then (light_of_quiet (quiet_call _))
  intro _
  apply light_then (light_of_quiet (quiet_mergeEvidence engine _ _))
  intro _
  apply light_then (light_of_quiet (quiet_call _))
  intro _
  apply light_then (light_of_quiet (quiet_refreshUsage engine))
  intro _
  exact light_of_quiet (quiet_saveState engine)

/-! ## 4. Executing the graph -/

/-- What the tasks a pool has not started may still call. -/
def Pool.allowance (pool : RunEngine.Pool) : ℕ :=
  maxWorkerOutputModelAttempts * pool.state.remaining.length

variable {s : RunState × World Y}

/-- Starting a task spends its share of what the pool may call. -/
theorem pays_startTask {taskId : String} {pool : RunEngine.Pool} (hmem : taskId ∈ pool.state.remaining) :
    Action.Pays Spent (engine.startTask plan taskId pool) s (Pool.allowance pool)
      Pool.allowance := by
  have hshare : maxWorkerOutputModelAttempts +
      maxWorkerOutputModelAttempts * (pool.state.remaining.erase taskId).length ≤
        Pool.allowance pool := by
    have hlength := List.length_erase_of_mem hmem
    have hpos := List.length_pos_of_mem hmem
    unfold Pool.allowance maxWorkerOutputModelAttempts
    omega
  apply pays_then (spent_of_quiet (quiet_call _))
  intro _ _
  apply pays_then (spent_of_quiet (quiet_call _))
  intro _ _
  apply pays_then (Action.spends_ofExcept spent_graded _)
  intro task _
  apply pays_then (spent_note rfl rfl fun _ _ h => by cases h)
  intro _ s
  have hreply : Action.Spends Spent maxWorkerOutputModelAttempts
      (Action.outside (engine.worker.execute engine.gateway task
        (pool.state.results.outputs (plan.graph.dependencies taskId))) : RunM Y _) :=
    spent_of_quiet (quiet_outside (called_execute engine.worker engine.gateway task _))
  apply (Action.Spends.pays spent_graded hreply hshare).bind spent_graded
  intro reply _ _ _
  exact Action.pays_pure spent_graded (Nat.le_refl _)

theorem pays_submitTasks (ready : List String) : ∀ (pool : RunEngine.Pool) (s : RunState × World Y),
    Action.Pays Spent (engine.submitTasks plan ready pool) s (Pool.allowance pool)
      Pool.allowance := by
  induction ready with
  | nil => exact fun pool s => Action.pays_pure spent_graded (Nat.le_refl _)
  | cons taskId ready ih =>
    intro pool s
    unfold RunEngine.submitTasks
    split
    · split
      · rename_i hmem
        exact (pays_startTask engine plan hmem).bind spent_graded fun pool' s' _ _ => ih pool' s'
      · exact ih pool s
    · exact Action.pays_pure spent_graded (Nat.le_refl _)

theorem pays_collectResult (taskId : String) (result : TaskResult TaskAnswer)
    (pool : RunEngine.Pool) (s : RunState × World Y) :
    Action.Pays Spent (engine.collectResult taskId result pool) s (Pool.allowance pool)
      Pool.allowance := by
  unfold RunEngine.collectResult
  dsimp only
  split
  · apply pays_then (spent_of_quiet (quiet_call _))
    intro _ _
    apply pays_then (spent_of_light (light_persist engine _ _))
    intro _ _
    exact Action.pays_pure spent_graded (Nat.le_refl _)
  · apply pays_then (spent_of_quiet (quiet_call _))
    intro _ _
    exact Action.pays_pure spent_graded (Nat.le_refl _)

theorem pays_collectResults (done : List String) :
    ∀ (pool : RunEngine.Pool) (s : RunState × World Y),
      Action.Pays Spent (engine.collectResults done pool) s (Pool.allowance pool)
        Pool.allowance := by
  induction done with
  | nil => exact fun pool s => Action.pays_pure spent_graded (Nat.le_refl _)
  | cons taskId done ih =>
    intro pool s
    unfold RunEngine.collectResults
    split
    · exact ih pool s
    · exact Action.pays_raise spent_graded _
    · exact (pays_collectResult engine taskId _ pool s).bind spent_graded
        fun pool' s' _ _ => ih pool' s'

/-- A scan only takes tasks out of the remaining ones. -/
theorem allowance_scanPool (pass : PassChoice) (pool : RunEngine.Pool) :
    Pool.allowance (RunEngine.scanPool plan pass pool).1 ≤ Pool.allowance pool := by
  have hshrinks : ∀ (order : List String) (scan : Scan TaskAnswer),
      (order.foldl (scanTask plan.graph) scan).remaining.length ≤ scan.remaining.length := by
    intro order
    induction order with
    | nil => exact fun scan => Nat.le_refl _
    | cons taskId order ih =>
      intro scan
      refine (ih _).trans ?_
      unfold scanTask
      dsimp only
      split
      · split
        · exact Nat.le_refl _
        · exact List.erase_sublist.length_le
      · exact Nat.le_refl _
  exact Nat.mul_le_mul_left _ (hshrinks _ ⟨pool.state.results, pool.state.remaining, []⟩)

/-- Executing from a pool spends at most what its tasks may call. -/
theorem pays_runPasses (passes : List PassChoice) :
    ∀ (pool : RunEngine.Pool) (s : RunState × World Y),
      Action.Pays Spent (engine.runPasses plan passes pool) s (Pool.allowance pool)
        fun _ => 0 := by
  induction passes with
  | nil => exact fun pool s => Action.pays_raise spent_graded _
  | cons pass passes ih =>
    intro pool s
    unfold RunEngine.runPasses
    split
    · exact Action.pays_pure spent_graded (Nat.zero_le _)
    · apply pays_then (spent_of_quiet (quiet_outside (called_checkCancelled engine.gateway)))
      intro _ s
      have hsubmit := (pays_submitTasks engine plan (RunEngine.scanPool plan pass pool).2
        (RunEngine.scanPool plan pass pool).1 s).weaken spent_graded
          (allowance_scanPool plan pass pool)
      apply hsubmit.bind spent_graded
      intro submitted s _ _
      split
      · split
        · exact Action.pays_pure spent_graded (Nat.zero_le _)
        · exact Action.pays_raise spent_graded _
      · apply (pays_collectResults engine _ submitted s).bind spent_graded
        intro collected s _ _
        exact ih collected s

/-- The graph is executed for at most the attempts of its pending tasks. -/
theorem spent_executeGraph (completed : Results TaskAnswer) :
    Action.Spends Spent (maxWorkerOutputModelAttempts * (plan.pending completed.keys).length)
      (engine.executeGraph plan completed) := by
  have hpasses : ∀ passes, Action.Spends Spent
      (maxWorkerOutputModelAttempts * (plan.pending completed.keys).length)
      (engine.runPasses plan passes ⟨initialState plan.graph completed, [], completed⟩) := by
    intro passes s
    have h := (pays_runPasses engine plan passes
      ⟨initialState plan.graph completed, [], completed⟩ s).spent spent_graded
    unfold Pool.allowance at h
    rw [show (initialState plan.graph completed).remaining.length = _ from
      plan.length_pending completed.keys] at h
    exact h
  apply spent_then (spent_of_quiet quiet_current)
  intro state
  apply spent_then (spent_note rfl rfl fun _ _ h => by cases h)
  intro _
  apply spent_last
  · unfold RunEngine.executeTasks
    split
    · exact spent_then (spent_of_quiet (quiet_call _)) fun passes => hpasses passes
    · exact (spent_raise _).mono spent_graded (Nat.zero_le _)
  · intro results
    exact spent_then (spent_of_quiet (quiet_consumeFailures engine _)) fun _ => spent_pure _

/-! ## 5. Replanning, verifying and correcting -/

/-- A decision of the Commander costs one call, whether it is taken or rejected. -/
theorem spent_replanOrReject (evidence : List EvidenceReference) (correctionRound : Option ℕ) :
    Action.Spends Spent 1 (engine.replanOrReject evidence correctionRound) := by
  apply spent_last
  · exact (spent_of_quiet (quiet_outside (called_replan engine.commander engine.gateway))).attempt
  · intro outcome
    cases outcome with
    | ok decision => exact spent_pure _
    | error fault =>
      dsimp only
      split
      · exact spent_raise _
      · apply Action.spends_ite (spent_raise _)
        exact spent_then (spent_of_light (light_rejectReplan engine _ _)) fun _ => spent_pure _

/-- Verification costs a call and one repair for each batch, and at most one batch counts. -/
theorem spent_verifyPass (findings : RunEngine.Findings) :
    Action.Spends Spent (2 * minVerifierBatches) (engine.verifyPass findings) := by
  intro s
  have hquiet := quiet_inVerification engine findings.evidence findings.conflictIds s
  rcases hquiet.added with ⟨e, hj, hminor, -, hcalls, hsteps⟩
  have hfree : ∀ event ∈ e ++ [.batchesPartitioned
      (engine.batchCount findings.evidence findings.conflictIds s)], event.isCheck = false := by
    intro event he
    rcases List.mem_append.mp he with he | he
    · exact isCheck_of_minor (hminor event he)
    · rw [List.mem_singleton.mp he]
      rfl
  refine ⟨e ++ [.batchesPartitioned
    (engine.batchCount findings.evidence findings.conflictIds s)], ?_, ?_, ?_⟩
  · rw [← List.append_assoc, ← hj]
    rfl
  · intro p r hmem
    cases hfree _ hmem
  · rw [untilCheck_eq_self hfree]
    intro hfew
    have hone := hfew _ (List.mem_append_right _ (List.mem_singleton.mpr rfl))
    have hbatches := Nat.mul_le_mul_left 2 hone
    rw [gatewayCalls_append, agentSteps_append]
    exact ⟨hcalls.trans hbatches, hsteps.trans hbatches⟩

/-- What a part leaves: `opens` names the check that a result was left after, if it was. -/
def Leaves {α : Type} (k : ℕ) (c : RunM Y α) (s : RunState × World Y)
    (opens : α → Option (ℕ × ℕ)) : Prop :=
  c.Ensures s fun r s' =>
    match r with
    | .ok a =>
      match opens a with
      | some check => Opened k check.1 check.2 s.2.journal s'.2.journal
      | none => Costs k s.2.journal s'.2.journal
    | .error _ => Ended k s.2.journal s'.2.journal

section Leaves

variable {α β : Type} {k l : ℕ} {c : RunM Y α} {f : α → RunM Y β} {s : RunState × World Y}
  {opens : α → Option (ℕ × ℕ)} {opens' : β → Option (ℕ × ℕ)}

theorem Leaves.of_spent (hc : Action.Spends Spent k c) : Leaves k c s fun _ => none := by
  unfold Leaves Action.Ensures
  cases c.result s with
  | ok a => exact hc s
  | error e => exact Or.inl (hc s)

/-- What follows a check that passed is light and keeps it; elsewhere the rest leaves its own. -/
theorem Leaves.bind (hc : Leaves k c s opens)
    (hopen : ∀ a check s', opens a = some check → (f a).Ensures s' fun r s'' =>
      Minor 0 s'.2.journal s''.2.journal ∧ ∀ b, r = .ok b → opens' b = some check)
    (hclosed : ∀ a s', opens a = none → Leaves l (f a) s' opens') :
    Leaves (k + l) (c >>= f) s opens' := by
  unfold Leaves Action.Ensures at hc
  unfold Leaves Action.Ensures
  cases hresult : c.result s with
  | error e =>
    rw [hresult] at hc
    have hbind := Action.bind_of_error (f := f) hresult
    rw [hbind.1, hbind.2]
    exact Ended.mono hc (Nat.le_add_right k l)
  | ok a =>
    rw [hresult] at hc
    have hbind := Action.bind_of_ok (f := f) hresult
    rw [hbind.1, hbind.2]
    cases hopens : opens a with
    | some check =>
      simp only [hopens] at hc
      have hrest := hopen a check (c.after s) hopens
      have hpassed := (Opened.minor hc hrest.1).mono (Nat.le_add_right k l)
      cases hlast : (f a).result (c.after s) with
      | ok b =>
        dsimp only
        rw [hrest.2 b hlast]
        exact hpassed
      | error e => exact Or.inr ⟨check.1, check.2, hpassed⟩
    | none =>
      simp only [hopens] at hc
      have hrest := hclosed a (c.after s) hopens
      unfold Leaves Action.Ensures at hrest
      cases hlast : (f a).result (c.after s) with
      | ok b =>
        rw [hlast] at hrest
        dsimp only at hrest ⊢
        cases hopens' : opens' b with
        | some check =>
          rw [hopens'] at hrest
          exact Costs.opened hc hrest
        | none =>
          rw [hopens'] at hrest
          exact costs_graded.trans hc hrest
      | error e =>
        rw [hlast] at hrest
        exact Costs.ended hc hrest

theorem Leaves.after_spent (hc : Action.Spends Spent k c)
    (hf : ∀ a s', Leaves l (f a) s' opens') : Leaves (k + l) (c >>= f) s opens' :=
  Leaves.bind (Leaves.of_spent hc) (fun _ _ _ h => by cases h) fun a s' _ => hf a s'

theorem Leaves.after_free (hc : Action.Spends Spent 0 c)
    (hf : ∀ a s', Leaves l (f a) s' opens') : Leaves l (c >>= f) s opens' := by
  have h := Leaves.after_spent (s := s) hc hf
  rw [Nat.zero_add] at h
  exact h

end Leaves

/-- The check of a plan, as the journal has it. -/
def checkOf (completed : Results TaskAnswer) (plan : AcceptedPlan limits) : ℕ × ℕ :=
  ((plan.pending completed.keys).length, plan.maxReplans)

/-- A check that returns has passed, and was noted last; one that raises costs nothing. -/
theorem checkFeasible_spec (completed : Results TaskAnswer) (s : RunState × World Y) :
    (engine.checkFeasible plan.toCommanderPlan completed).Ensures s fun r s' =>
      match r with
      | .ok _ => Opened 0 (checkOf completed plan).1 (checkOf completed plan).2
          s.2.journal s'.2.journal
      | .error _ => Costs 0 s.2.journal s'.2.journal := by
  have hcall : (RunEngine.call engine.remainingBudget).Ensures s fun _ s' =>
      s'.2.journal = s.2.journal := rfl
  apply hcall.bind
  · intro remaining s' hj
    have hspecs : (Action.ofExcept (RunEngine.completedSpecs plan.toCommanderPlan completed.keys) :
        RunM Y _).Ensures s' fun _ s'' => s'' = s' := rfl
    apply hspecs.bind
    · intro specs s'' heq
      subst heq
      dsimp only
      rw [← hj]
      split
      · show Costs 0 s''.2.journal _
        exact costs_event rfl rfl (fun _ _ h => by cases h) _
      · show Opened 0 _ _ s''.2.journal _
        exact ⟨[], [], rfl, fun _ _ => List.not_mem_nil,
          fun _ => ⟨Nat.le_refl 0, Nat.le_refl 0⟩, by simp, rfl, rfl⟩
    · intro fault s'' heq
      dsimp only
      rw [heq, ← hj]
      exact costs_graded.refl _
  · intro fault s' hj
    dsimp only
    rw [← hj]
    exact costs_graded.refl _

/-- A replacement that is not refused has passed its check. -/
theorem leaves_replanRefusal (replacement : AcceptedPlan limits) (completed : Results TaskAnswer)
    (s : RunState × World Y) :
    Leaves 0 (engine.replanRefusal plan replacement completed) s fun refusal =>
      if refusal.isNone then some (checkOf completed replacement) else none := by
  unfold RunEngine.replanRefusal
  split
  · apply (checkFeasible_spec engine replacement completed s).attempt_bind
    intro outcome s' h
    cases outcome with
    | ok _ => exact h
    | error fault =>
      dsimp only
      split
      · exact h
      · exact Or.inl h
  · exact Leaves.of_spent (spent_pure _)

theorem leaves_ordinaryRefusal (replacement : AcceptedPlan limits) (findings : RunEngine.Findings)
    (s : RunState × World Y) :
    Leaves 0 (engine.ordinaryRefusal plan replacement findings) s fun refusal =>
      if refusal.isNone then some (checkOf findings.completed replacement) else none := by
  apply Leaves.after_free (spent_of_quiet quiet_current)
  intro state s
  split
  · exact Leaves.of_spent (spent_pure _)
  · split
    · exact Leaves.of_spent (spent_pure _)
    · exact leaves_replanRefusal engine plan replacement findings.completed s

/-- The check a part leaves with the plan it goes on with. -/
def opensWith (completed : Results TaskAnswer) (next : Option (AcceptedPlan limits)) :
    Option (ℕ × ℕ) := next.map (checkOf completed)

theorem leaves_raise {α : Type} {opens : α → Option (ℕ × ℕ)} (k : ℕ) (fault : RunFault)
    (s : RunState × World Y) : Leaves k (Action.raise fault : RunM Y α) s opens :=
  Or.inl (costs_graded.mono (Nat.zero_le k) (costs_graded.refl _))

theorem leaves_none (k : ℕ) (completed : Results TaskAnswer) (s : RunState × World Y) :
    Leaves k (pure none : RunM Y (Option (AcceptedPlan limits))) s (opensWith completed) :=
  costs_graded.mono (Nat.zero_le k) (costs_graded.refl _)

/-- Settling an unrefused proposal keeps its check; a refused one costs nothing. -/
theorem leaves_settled {refuse : RunM Y (Option (String × RunFault))} {completed : Results TaskAnswer}
    {replacement : AcceptedPlan limits}
    (hrefuse : Leaves 0 refuse s fun refusal =>
      if refusal.isNone then some (checkOf completed replacement) else none) (evidence : List EvidenceReference)
    (kind : ReplanKind) (reason : Text) (correctionRound : Option ℕ) :
    Leaves 0 (do
      let refusal ← refuse
      engine.settleProposal evidence kind replacement reason correctionRound refusal) s
        (opensWith completed) := by
  apply hrefuse.bind (l := 0)
  · intro refusal check s' hopens
    cases refusal with
    | some refusal => cases hopens
    | none =>
      cases hopens
      refine ⟨(Action.spends_free_after light_graded (light_acceptReplan engine kind replacement
        reason correctionRound) fun _ => Action.spends_pure light_graded _) s', ?_⟩
      intro next hresult
      rcases Action.result_bind_eq_ok.mp hresult with ⟨_, -, hnext⟩
      cases hnext
      rfl
  · intro refusal s' hopens
    cases refusal with
    | none => cases hopens
    | some refusal =>
      show Leaves 0 (if evidence = [] then Action.raise refusal.2 else _) s' _
      split
      · exact leaves_raise 0 _ s'
      · apply Leaves.after_free (spent_of_light (light_rejectReplan engine _ _))
        intro _ s
        exact leaves_none 0 completed s

/-- The replan before verification costs one decision. -/
theorem leaves_replanPass (findings : RunEngine.Findings) (s : RunState × World Y) :
    Leaves 1 (engine.replanPass plan findings) s (opensWith findings.completed) := by
  have hdecide : Action.Spends Spent 1 (engine.decideReplan findings) := by
    apply spent_then (spent_of_quiet quiet_current)
    intro state
    apply Action.spends_ite
    · exact (spent_then (spent_of_quiet (quiet_call _)) fun _ => spent_pure _).mono spent_graded
        (Nat.zero_le 1)
    · apply Action.spends_ite ((spent_pure _).mono spent_graded (Nat.zero_le 1))
      exact spent_replanOrReject engine _ _
  apply Leaves.after_spent (l := 0) hdecide
  intro decision s
  split
  · exact leaves_settled engine (leaves_ordinaryRefusal engine plan _ findings s) _ _ _ _
  · exact leaves_none 0 _ s

theorem leaves_askCorrection (findings : RunEngine.Findings) (round : ℕ)
    (s : RunState × World Y) :
    Leaves 1 (engine.askCorrection plan findings round) s (opensWith findings.completed) := by
  apply Leaves.after_free (spent_of_quiet (quiet_call _))
  intro _ s
  apply Leaves.after_free (spent_note rfl rfl fun _ _ h => by cases h)
  intro _ s
  apply Leaves.after_spent (l := 0) (spent_replanOrReject engine _ _)
  intro decision s
  split
  · exact leaves_none 0 _ s
  · exact leaves_settled engine (leaves_replanRefusal engine plan _ _ s) _ _ _ _
  · apply Leaves.after_free (spent_of_light (light_declineCorrection engine))
    intro _ s
    exact leaves_none 0 _ s

theorem leaves_startCorrectionRound (findings : RunEngine.Findings)
    (verdicts : List VerificationVerdict) (s : RunState × World Y) :
    Leaves 1 (engine.startCorrectionRound plan findings verdicts) s
      (opensWith findings.completed) := by
  apply Leaves.after_free (spent_of_quiet quiet_current)
  intro state s
  split
  · exact leaves_none 1 _ s
  · split
    · exact leaves_none 1 _ s
    · apply Leaves.after_free (spent_of_quiet (quiet_call _))
      intro remaining s
      split
      · apply Leaves.after_free (spent_of_quiet (quiet_call _))
        intro _ s
        exact leaves_none 1 _ s
      · exact leaves_askCorrection engine plan findings _ s

/-! ## 6. A round of the loop -/

/-- Going on with a corrected plan keeps its check; finishing calls no model. -/
theorem leaves_corrected {correct : RunM Y (Option (AcceptedPlan limits))} {findings : RunEngine.Findings}
    (hcorrect : Leaves 1 correct s (opensWith findings.completed)) (verdicts : List VerificationVerdict) :
    Leaves 1 (do
      match ← correct with
      | some replacement => pure (.inl replacement)
      | none => do
        let final ← engine.finish plan findings verdicts
        pure (.inr final) : RunM Y (AcceptedPlan limits ⊕ Json)) s fun next =>
      opensWith findings.completed next.getLeft? := by
  apply hcorrect.bind (l := 0)
  · intro correction check s' hopens
    cases correction with
    | none => cases hopens
    | some replacement =>
      refine ⟨minor_graded.refl _, fun next hnext => ?_⟩
      cases hnext
      exact hopens
  · intro correction s' hopens
    cases correction with
    | some replacement => cases hopens
    | none =>
      apply Leaves.after_free (spent_of_quiet (quiet_finish engine plan findings _))
      intro final s
      exact costs_graded.refl _

/-- Concluding a pass: verification and the correction decision. -/
theorem leaves_concludePass (findings : RunEngine.Findings) (s : RunState × World Y) :
    Leaves 3 (engine.concludePass plan findings) s fun next =>
      opensWith findings.completed next.getLeft? := by
  apply Leaves.after_free (spent_of_quiet (quiet_refuseHardFailure plan findings))
  intro _ s
  apply Leaves.after_spent (k := 2) (l := 1) (spent_verifyPass engine findings)
  intro verified s
  rcases verified with ⟨resolutions, verdicts, degraded⟩
  cases degraded with
  | true => exact leaves_corrected engine plan (leaves_none 1 _ s) verdicts
  | false =>
    exact leaves_corrected engine plan
      (leaves_startCorrectionRound engine plan findings verdicts s) verdicts

/-- The plan a round goes on with, and the results it starts from. -/
def opensNext (next : (AcceptedPlan limits × Results TaskAnswer) ⊕ Json) : Option (ℕ × ℕ) :=
  next.getLeft?.map fun head => checkOf head.2 head.1

/-- A round executes the graph and makes at most four other calls. -/
theorem leaves_pass (head : AcceptedPlan limits × Results TaskAnswer) (s : RunState × World Y) :
    Leaves (2 * (head.1.pending head.2.keys).length + 4) (engine.pass head) s opensNext := by
  apply Leaves.after_spent (spent_executeGraph engine head.1 head.2)
  intro results s
  apply Leaves.after_free (spent_of_quiet (quiet_assess engine head.1 results))
  intro findings s
  apply (leaves_replanPass engine head.1 findings s).bind (l := 3)
  · intro replanned check s' hopens
    cases replanned with
    | none => cases hopens
    | some replacement =>
      refine ⟨minor_graded.refl _, fun next hnext => ?_⟩
      cases hnext
      exact hopens
  · intro replanned s' hopens
    cases replanned with
    | some replacement => cases hopens
    | none =>
      apply (leaves_concludePass engine head.1 findings s').bind (l := 0)
      · intro concluded check s'' hopens
        cases concluded with
        | inr final => cases hopens
        | inl replacement =>
          refine ⟨minor_graded.refl _, fun next hnext => ?_⟩
          cases hnext
          exact hopens
      · intro concluded s'' hopens
        cases concluded with
        | inl replacement => cases hopens
        | inr final => exact costs_graded.refl _

end Parts

/-! ## 7. The windows of a run -/

/-- The worst case a check admits a plan with `p` pending tasks and `r` replans under. -/
def worstCalls (p r : ℕ) : ℕ := (planWorstCase p r 0 minVerifierBatches).modelCalls

/-- After every check that passed, the calls up to the next one stay within its worst case. -/
def WindowsFit (events : List RunEvent) : Prop :=
  ∀ before p r after, events = before ++ .feasibilityChecked p r true :: after →
    WithinCalls (worstCalls p r) (untilCheck after)

theorem untilCheck_append_check (a : List RunEvent) (p r : ℕ) (b : List RunEvent) :
    untilCheck (a ++ .feasibilityChecked p r true :: b) = untilCheck a := by
  by_cases hcheck : ∃ event ∈ a, event.isCheck = true
  · rcases hcheck with ⟨event, hmem, hcheck⟩
    exact untilCheck_append_of_check _ hmem hcheck
  · have hfree : ∀ event ∈ a, event.isCheck = false := fun event he =>
      Bool.eq_false_iff.mpr fun h => hcheck ⟨event, he, h⟩
    rw [untilCheck_append_of_free _ hfree, untilCheck_eq_self hfree]
    exact List.append_nil a

theorem WindowsFit.of_nonePassed {events : List RunEvent} (h : NonePassed events) :
    WindowsFit events := by
  intro before p r after heq
  exact absurd (heq ▸ List.mem_append_right _ List.mem_cons_self) (h p r)

/-- A window and what comes before it; no check passed in it. -/
theorem WindowsFit.window {before after : List RunEvent} (hbefore : WindowsFit before)
    (hwithin : WithinCalls (worstCalls p r) (untilCheck after)) (hnone : NonePassed after) :
    WindowsFit (before ++ .feasibilityChecked p r true :: after) := by
  intro first p' r' last heq
  rcases List.append_eq_append_iff.mp heq with ⟨rest, hfirst, hrest⟩ | ⟨rest, hfirst, hrest⟩
  · cases rest with
    | nil =>
      cases hrest
      exact hwithin
    | cons event rest =>
      -- the check is a later one: there is none
      cases hrest
      exact absurd (List.mem_append_right _ List.mem_cons_self) (hnone p' r')
  · cases rest with
    | nil =>
      cases hrest
      exact hwithin
    | cons event rest =>
      cases hrest
      have h := hbefore first p' r' rest hfirst
      show WithinCalls _ (untilCheck (rest ++ _ :: after))
      rw [untilCheck_append_check]
      exact h

/-- What a run has added fits, and what follows its last check is still free of calls. -/
structure Standing (journal : List RunEvent) (p r : ℕ) (journal' : List RunEvent) : Prop where
  split : ∃ before after, journal' = journal ++ (before ++ .feasibilityChecked p r true :: after) ∧
    WindowsFit before ∧ (∀ event ∈ after, event.isMinor = true) ∧ gatewayCalls after = 0 ∧
    agentSteps after = 0

/-- What a run has added fits. -/
def Kept (journal journal' : List RunEvent) : Prop :=
  ∃ events, journal' = journal ++ events ∧ WindowsFit events

theorem Opened.standing (h : Opened k p r a b) : Standing a p r b := by
  rcases h.split with ⟨before, after, hj, hnone, -, hlight⟩
  exact ⟨before, after, hj, WindowsFit.of_nonePassed hnone, hlight⟩

/-- A stretch within the worst case of the last check fits. -/
theorem Standing.closed (h : Standing a p r b) (hcosts : Costs k b c) (hle : k ≤ worstCalls p r) : Kept a c := by
  rcases h.split with ⟨before, after, hj, hfit, hminor, hcalls, hsteps⟩
  rcases hcosts with ⟨e, hj', hnone, hwithin⟩
  have hfree : ∀ event ∈ after, event.isCheck = false := fun event he =>
    isCheck_of_minor (hminor event he)
  refine ⟨before ++ .feasibilityChecked p r true :: (after ++ e), ?_, hfit.window ?_ ?_⟩
  · rw [hj', hj]
    simp
  · intro hfew
    rw [untilCheck_append_of_free _ hfree] at hfew ⊢
    have h := hwithin fun count hc => hfew count (List.mem_append_right _ hc)
    rw [gatewayCalls_append, agentSteps_append]
    omega
  · intro p' r' hmem
    rcases List.mem_append.mp hmem with hmem | hmem
    · cases hminor _ hmem
    · exact hnone p' r' hmem

/-- A round within the worst case of the last check may end with a check of its own. -/
theorem Standing.reopened {p' r' : ℕ} (h : Standing a p r b) (hopened : Opened k p' r' b c)
    (hle : k ≤ worstCalls p r) : Standing a p' r' c := by
  rcases hopened.split with ⟨before, after, hj, hnone, hwithin, hlight⟩
  rcases h.closed ⟨before, rfl, hnone, hwithin⟩ hle with ⟨events, hevents, hfit⟩
  refine ⟨events, after, ?_, hfit, hlight⟩
  rw [hj, ← List.append_assoc, hevents, List.append_assoc]

theorem Standing.kept (h : Standing a p r b) : Kept a b :=
  h.closed (costs_graded.refl b) (Nat.zero_le _)

theorem Standing.ended (h : Standing a p r b) (hended : Ended k b c) (hle : k ≤ worstCalls p r) : Kept a c := by
  rcases hended with hcosts | ⟨p', r', hopened⟩
  · exact h.closed hcosts hle
  · exact (h.reopened hopened hle).kept

section Runs

variable {limits : PlanLimits} (engine : RunEngine limits Y)

/-- The calls of a round stay within the worst case of its plan. -/
theorem round_le_worstCalls (pendingTasks maxReplans : ℕ) :
    2 * pendingTasks + 4 ≤ worstCalls pendingTasks maxReplans := by
  have h := planWorstCase_modelCalls pendingTasks maxReplans
  unfold worstCalls
  omega

/-- The loop keeps the windows within their worst cases, however long it goes on. -/
theorem kept_loop (journal : List RunEvent) :
    ∀ (fuel : ℕ) (head : AcceptedPlan limits × Results TaskAnswer) (s : RunState × World Y),
      Standing journal (checkOf head.2 head.1).1 (checkOf head.2 head.1).2 s.2.journal →
        (Action.loop .exhausted engine.pass fuel head).Ensures s fun _ s' =>
          Kept journal s'.2.journal := by
  apply Action.Ensures.loop (I := fun (_ : ℕ) (head : AcceptedPlan limits × Results TaskAnswer)
    (s : RunState × World Y) =>
      Standing journal (checkOf head.2 head.1).1 (checkOf head.2 head.1).2 s.2.journal)
    (Q := fun (_ : Except RunFault Json) s' => Kept journal s'.2.journal)
  · exact fun _ _ h => h.kept
  · intro fuel head s h
    have hle := round_le_worstCalls (checkOf head.2 head.1).1 (checkOf head.2 head.1).2
    apply Action.Ensures.mono (leaves_pass engine head s)
    intro r s' hr
    match r with
    | .ok (.inl head') => exact h.reopened hr hle
    | .ok (.inr final) => exact h.closed hr hle
    | .error fault => exact h.ended hr hle

/-- Everything after the planning: the first check, then the loop. -/
theorem kept_continueRun {k : ℕ} {journal : List RunEvent} (rounds : ℕ)
    (plan : AcceptedPlan limits) (s : RunState × World Y)
    (hbegun : Costs k journal s.2.journal) :
    (engine.continueRun rounds plan).Ensures s fun _ s' => Kept journal s'.2.journal := by
  have hcurrent : (RunEngine.current : RunM Y RunState).Ensures s fun r s' =>
      r = .ok s.1 ∧ s' = s := ⟨rfl, rfl⟩
  apply hcurrent.bind
  · rintro state s' ⟨hstate, hs⟩
    rw [hs]
    apply (checkFeasible_spec engine plan (RunEngine.restoredResults state) s).bind
    · intro _ s' h
      exact kept_loop engine journal rounds _ s' (hbegun.opened h).standing
    · intro fault s' h
      rcases costs_graded.trans hbegun h with ⟨e, hj, hnone, -⟩
      exact ⟨e, hj, WindowsFit.of_nonePassed hnone⟩
  · rintro fault s' ⟨hstate, -⟩
    cases hstate

theorem costs_planRun (w : World Y) :
    Costs (1 + maxCommanderPlanRepairs) w.journal (engine.planRun.after w).journal :=
  (quiet_planRun engine w).minor.costs

/-- Every window of a run, from whatever checkpoint it starts, stays within its worst case. -/
theorem kept_run (rounds : ℕ) (w : World Y) :
    Kept w.journal ((engine.run rounds).after w).journal := by
  have hrest : ∀ (begun : RunState × AcceptedPlan limits) (w' : World Y),
      Costs (1 + maxCommanderPlanRepairs) w.journal w'.journal →
        (RunEngine.withState begun.1 (engine.continueRun rounds begun.2)).Ensures w' fun _ w'' =>
          Kept w.journal w''.journal := fun begun w' h =>
    kept_continueRun engine rounds begun.2 (begun.1, w') h
  have hraised : ∀ (w' : World Y), Costs (1 + maxCommanderPlanRepairs) w.journal w'.journal →
      Kept w.journal w'.journal := by
    rintro w' ⟨e, hj, hnone, -⟩
    exact ⟨e, hj, WindowsFit.of_nonePassed hnone⟩
  show (engine.run rounds).Ensures w fun _ w' => Kept w.journal w'.journal
  unfold RunEngine.run
  apply Action.ensures_get_bind
  dsimp only
  split
  · have hresumed : ∀ saved, (Action.ofExcept (engine.resumeRun saved) :
        Action (World Y) RunFault _).Ensures w fun _ w' => w' = w := fun _ => rfl
    apply (hresumed _).bind
    · rintro begun w' rfl
      exact hrest begun w' (costs_graded.mono (Nat.zero_le _) (costs_graded.refl _))
    · rintro fault w' rfl
      exact hraised w' (costs_graded.mono (Nat.zero_le _) (costs_graded.refl _))
  · have hplanned : engine.planRun.Ensures w fun _ w' =>
        Costs (1 + maxCommanderPlanRepairs) w.journal w'.journal := costs_planRun engine w
    apply hplanned.bind
    · exact fun begun w' h => hrest begun w' h
    · exact fun fault w' h => hraised w' h

/-- From a feasibility check that passed until the next one or the end of the run, the run makes
    no more guarded calls, and records no more agent steps, than the check's worst case, if the
    verification in between partitions its claims into few enough batches. -/
theorem calls_le_worst_case (rounds : ℕ) (w : World Y) (before after : List RunEvent) (p r : ℕ)
    (hrun : ((engine.run rounds).after w).journal =
      w.journal ++ (before ++ .feasibilityChecked p r true :: after))
    (hfew : FewBatches (untilCheck after)) :
    gatewayCalls (untilCheck after) ≤ (planWorstCase p r 0 minVerifierBatches).modelCalls ∧
      agentSteps (untilCheck after) ≤ (planWorstCase p r 0 minVerifierBatches).agentSteps := by
  rcases kept_run engine rounds w with ⟨events, hj, hfit⟩
  have hevents : events = before ++ .feasibilityChecked p r true :: after :=
    List.append_cancel_left (hj.symm.trans hrun)
  have h := hfit before p r after hevents hfew
  rw [planWorstCase_agentSteps]
  exact h

end Runs

/-! ## 8. A run that is cut off in its only task -/

def soloTask : PlannedTask where
  taskId := "collect"
  dependencies := []
  priority := 0
  tools := []
  evidence := ⟨0, [], ⟨false, 0, 0, PyFloat.normal_zero⟩⟩
  estimatedCostUnits := 1
  completion := ⟨[], false, false⟩
  rest := []

/-- The plan of that task alone, with `replans` replans. -/
def soloPlan (replans : ℕ) : AcceptedPlan ⟨replans⟩ where
  tasks := [soloTask]
  maxReplans := replans
  graph := TaskGraph.ofListed [soloTask.toDynamicTask] (by decide +kernel) (by decide +kernel)
  graph_tasks := rfl
  replans_le := Nat.le_refl replans

/-- Every worker call ends with the process; planning answers with the plan of one task. -/
def soloGateway : Gateway Unit where
  cancelled := pure false
  agentStep := fun _ => pure ⟨⟩
  dispatch := fun role _ _ =>
    match role with
    | .worker _ => Action.raise .infrastructure
    | _ => pure (.answer (.text (.error .value)))

/-- A pass that finds the oldest future finished. -/
def oldestFirst : PassChoice where
  iterate := id
  finished := fun running => running.take 1
  iterate_perm := List.Perm.refl
  finished_nodup := by
    intro running
    cases running with
    | nil => exact List.nodup_nil
    | cons first rest => exact List.nodup_singleton first
  finished_subset := fun running => List.take_subset 1 running

/-- A source that was kept without a fragment or a fact. -/
def soloSource : ResolvedSourceEvidence where
  sourceId := "source".toList
  taskId := "collect".toList
  url := []
  title := []
  domain := []
  sourceType := []
  sourceStrength := []
  sourceDate := none
  sourceVersion := none
  fragments := []
  facts := []
  named := by decide
  fewFragments := Nat.zero_le _
  fewChars := Nat.zero_le _
  distinctFragments := List.nodup_nil
  fewFacts := Nat.zero_le _
  ownFacts := fun _ hfact => absurd hfact List.not_mem_nil
  distinctFacts := List.nodup_nil

/-- An engine for that plan, with the sink its events go to. -/
def soloEngine (replans : ℕ) (emit : String → Action Unit RunFault PUnit) :
    RunEngine ⟨replans⟩ Unit where
  runId := []
  gateway := soloGateway
  worker :=
    { runPlannedCalls := fun _ _ => pure (.null, [])
      taskOutputStrategy := none
      validateOutput := fun _ _ => .ok []
      buildRequest := fun _ _ _ _ => []
      emit := fun _ => pure ⟨⟩
      retryCallback := fun _ _ => pure ⟨⟩
      initialShape := ⟨1, ""⟩
      escalate := fun _ => none }
  commander :=
    { readPlan := fun _ => .ok (soloPlan replans)
      readDecision := fun _ => .ok (.finish [])
      validateSavedPlan := fun _ => .ok (soloPlan replans)
      planRequest := fun _ => []
      replanRequest := []
      retryCallback := fun _ => pure ⟨⟩
      planningShape := ⟨1, ""⟩
      replanningShape := ⟨1, ""⟩
      escalate := fun _ => none }
  maxActiveWorkers := 1
  passes := pure [oldestFirst]
  unicode := asciiUnicode
  sha256 := id
  resolver := fun _ => pure fun _ => some soloSource
  verifierRetry := fun _ => pure ⟨⟩
  verifierShape := ⟨1, ""⟩
  verifierEscalate := fun _ => none
  remainingBudget := pure ⟨10, 10, 10, 10, 10, 10⟩
  usageSnapshot := pure []
  loadEvidence := fun _ => pure []
  verdictSink := fun _ => pure ⟨⟩
  resolutionSink := fun _ => pure ⟨⟩
  ledgerSink := fun _ => pure ⟨⟩
  emit := emit
  save := fun _ => pure .stored
  durableOutput := fun _ => .ok ⟨⟩
  canonical := fun _ => []
  deterministicStep := fun _ => pure ⟨⟩
  build := fun _ _ _ => .ok .null
  buildReduced := fun _ => .ok .null
  buildStatic := fun _ => .null

/-- What the task finds out about the seats, and the source it has it from. -/
def collectedClaim : EvidenceReference :=
  { displacementClaim 'c' "forum" 5 with field := "seats".toList, unit := none, taskId := "collect".toList }

def collectedSource : ResolvedSourceEvidence :=
  { forumSource with
    taskId := "collect".toList
    named := by decide
    ownFacts := fun _ hfact => absurd hfact List.not_mem_nil }

/-- The engine of a run whose task answers and whose verifier is asked about the seats. -/
def verifyingEngine : RunEngine ⟨0⟩ Unit :=
  { soloEngine 0 fun _ => pure ⟨⟩ with
    runId := "run".toList
    gateway :=
      { cancelled := pure false
        agentStep := fun _ => pure ⟨⟩
        dispatch := fun role _ _ =>
          pure (.answer (if role = .verifier then seatsAnswer else .text (.error .value))) }
    passes := pure [oldestFirst, oldestFirst]
    resolver := fun _ => pure fun sourceId =>
      if sourceId = "forum".toList then some collectedSource else none
    loadEvidence := fun _ => pure [collectedClaim] }

@[irreducible] def verifyingJournal : List RunEvent := ((verifyingEngine.run 1).after ⟨[], ()⟩).journal

/-- What an event says of a feasibility check, and of the batches of a verification. -/
def RunEvent.check? : RunEvent → Option (ℕ × ℕ × Bool)
  | .feasibilityChecked pendingTasks maxReplans passed => some (pendingTasks, maxReplans, passed)
  | _ => none

def RunEvent.batches? : RunEvent → Option ℕ
  | .batchesPartitioned count => some count
  | _ => none

theorem verifyingJournal_eq : verifyingJournal =
    verifyingJournal.take 3 ++ .feasibilityChecked 1 0 true :: verifyingJournal.drop 4 := by
  have hcheck : verifyingJournal[3]?.bind RunEvent.check? = some (1, 0, true) := by decide +kernel
  obtain ⟨event, hevent, hsame⟩ := Option.bind_eq_some_iff.mp hcheck
  cases event with
  | feasibilityChecked =>
    cases hsame
    obtain ⟨hlong, hget⟩ := List.getElem?_eq_some_iff.mp hevent
    rw [← hget, ← List.drop_eq_getElem_cons hlong, List.take_append_drop]
  | _ => cases hsame

/-- After the only check the worker, the Commander and, for one batch, the verifier are called. -/
theorem calls_le_worst_case_solo :
    (untilCheck (verifyingJournal.drop 4)).filterMap RunEvent.batches? = [1] ∧
      gatewayCalls (untilCheck (verifyingJournal.drop 4)) = 3 ∧
      gatewayCalls (untilCheck (verifyingJournal.drop 4)) ≤
        (planWorstCase 1 0 0 minVerifierBatches).modelCalls := by
  have hbatches : (untilCheck (verifyingJournal.drop 4)).filterMap RunEvent.batches? = [1] := by
    decide +kernel
  have hfew : FewBatches (untilCheck (verifyingJournal.drop 4)) := by
    intro count hmem
    have hcount : count ∈ (untilCheck (verifyingJournal.drop 4)).filterMap RunEvent.batches? :=
      List.mem_filterMap.mpr ⟨_, hmem, rfl⟩
    rw [hbatches, List.mem_singleton] at hcount
    exact le_of_eq hcount
  have hcalls : gatewayCalls (untilCheck (verifyingJournal.drop 4)) = 3 := by decide +kernel
  have hrun := verifyingJournal_eq
  -- the events were computed above; from here on the two stretches stand for themselves
  generalize verifyingJournal.take 3 = before at hrun
  generalize verifyingJournal.drop 4 = after at *
  unfold verifyingJournal at hrun
  exact ⟨hbatches, hcalls, (calls_le_worst_case verifyingEngine 1 ⟨[], ()⟩ before after 1 0 hrun hfew).1⟩

end Milo.Swarm
