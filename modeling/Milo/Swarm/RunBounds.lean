import Milo.Swarm.RunCalls
import Milo.Swarm.RunProtocol

/-!
# RunBounds — the run loop is bounded by the plan firewall

Every part of the engine's run is a sequence of moves of the protocol, so the protocol's invariant
holds of every life of a run: how often the graph is executed, that the Commander is not asked again
after an answer, and that no completed task is started again.
-/

namespace Milo.Swarm

open Milo.Python Milo.Reasoning

variable {Y : Type} {limits : PlanLimits}

/-! ## 1. Computations as moves -/

/-- From `s` in one turn to `s'` in another by moves of the protocol. -/
def Goes (limits : PlanLimits) (turn turn' : Turn) (s s' : RunState × World Y) : Prop :=
  Moves limits ⟨s.1, s.2.journal, turn⟩ ⟨s'.1, s'.2.journal, turn'⟩

/-- Moves that keep whatever turn it is. -/
def Keeps (limits : PlanLimits) (s s' : RunState × World Y) : Prop :=
  ∀ turn, Goes limits turn turn s s'

theorem keeps_refl (s : RunState × World Y) : Keeps limits s s :=
  fun _ => Relation.ReflTransGen.refl

theorem keeps_trans (a b c : RunState × World Y) (h : Keeps limits a b) (h' : Keeps limits b c) :
    Keeps limits a c := fun turn => Relation.ReflTransGen.trans (h turn) (h' turn)

theorem RunEvent.isPlain_of_minor {event : RunEvent} (h : event.isMinor = true)
    (hsaved : ∀ saved, event ≠ .checkpointSaved saved) : event.isPlain = true := by
  cases event with
  | checkpointSaved saved => exact absurd rfl (hsaved saved)
  | gatewayCall role => rfl
  | agentStep role => rfl
  | _ => cases h

/-- Calls, steps and checkpoints of the state as it stands are moves. -/
theorem moves_minor {state : RunState} {turn : Turn} (events : List RunEvent) :
    ∀ journal, (∀ event ∈ events, event.isMinor = true) →
      (∀ saved, .checkpointSaved saved ∈ events → SameProgress state saved) →
        Moves limits ⟨state, journal, turn⟩ ⟨state, journal ++ events, turn⟩ := by
  induction events with
  | nil =>
    intro journal _ _
    rw [List.append_nil]
    exact Relation.ReflTransGen.refl
  | cons event rest ih =>
    intro journal hminor hsaved
    have hrest := ih (journal ++ [event]) (fun e he => hminor e (List.mem_cons_of_mem _ he))
      fun saved he => hsaved saved (List.mem_cons_of_mem _ he)
    rw [List.append_assoc] at hrest
    refine Relation.ReflTransGen.head ?_ hrest
    by_cases hevent : ∃ saved, event = .checkpointSaved saved
    · rcases hevent with ⟨saved, rfl⟩
      exact Move.saved (hsaved saved List.mem_cons_self)
    · exact Move.noted (RunEvent.isPlain_of_minor (hminor event List.mem_cons_self)
        fun saved heq => hevent ⟨saved, heq⟩)

theorem Quiet.keeps {k : ℕ} {s s' : RunState × World Y} (h : Quiet k s s') :
    Keeps limits s s' := by
  intro turn
  rcases h.added with ⟨events, hj, hminor, hsaved, -, -⟩
  unfold Goes
  rw [hj]
  exact (moves_minor events s.2.journal hminor hsaved).tail (Move.progressed h.progress)

/-- From `s`, `c` moves from its turn to another, and `P` holds of what it returns. -/
def Leads {α : Type} (limits : PlanLimits) (c : RunM Y α) (s : RunState × World Y) (turn : Turn)
    (P : α → Turn → RunState × World Y → Prop) : Prop :=
  c.Ensures s fun r s' => ∃ turn', Goes limits turn turn' s s' ∧ ∀ a, r = .ok a → P a turn' s'

section Rules

variable {α β : Type} {c : RunM Y α} {f : α → RunM Y β} {s : RunState × World Y} {turn : Turn}
  {P : α → Turn → RunState × World Y → Prop} {Q : β → Turn → RunState × World Y → Prop}

theorem leads_pure {a : α} (h : P a turn s) : Leads limits (pure a : RunM Y α) s turn P :=
  ⟨turn, keeps_refl s turn, fun b hb => by cases hb; exact h⟩

theorem leads_raise (fault : RunFault) :
    Leads limits (Action.raise fault : RunM Y α) s turn P :=
  ⟨turn, keeps_refl s turn, fun b hb => by cases hb⟩

theorem Leads.bind (hc : Leads limits c s turn P)
    (hf : ∀ a turn' s', Goes limits turn turn' s s' → P a turn' s' →
      Leads limits (f a) s' turn' Q) : Leads limits (c >>= f) s turn Q := by
  apply Action.Ensures.bind hc
  · rintro a s' ⟨turn', hgoes, hp⟩
    apply (hf a turn' s' hgoes (hp a rfl)).mono
    rintro r s'' ⟨turn'', hgoes', hq⟩
    exact ⟨turn'', Relation.ReflTransGen.trans hgoes hgoes', hq⟩
  · rintro fault s' ⟨turn', hgoes, -⟩
    exact ⟨turn', hgoes, fun b hb => by cases hb⟩

theorem Leads.mono {P' : α → Turn → RunState × World Y → Prop} (hc : Leads limits c s turn P)
    (himp : ∀ a turn' s', Goes limits turn turn' s s' → P a turn' s' → P' a turn' s') :
    Leads limits c s turn P' := by
  apply Action.Ensures.mono hc
  rintro r s' ⟨turn', hgoes, hp⟩
  exact ⟨turn', hgoes, fun a ha => himp a turn' s' hgoes (hp a ha)⟩

/-- A quiet part keeps the turn and makes no progress. -/
theorem leads_quiet {k : ℕ} (hc : Action.Spends Quiet k c) :
    Leads limits c s turn fun a turn' s' =>
      turn' = turn ∧ SameProgress s.1 s'.1 ∧ c.result s = .ok a :=
  ⟨turn, (hc s).keeps turn, fun _ ha => ⟨rfl, (hc s).progress, ha⟩⟩

theorem leads_quiet_then {k : ℕ} (hc : Action.Spends Quiet k c)
    (hf : ∀ a s', SameProgress s.1 s'.1 → Leads limits (f a) s' turn Q) :
    Leads limits (c >>= f) s turn Q := by
  apply (leads_quiet hc).bind
  rintro a turn' s' - ⟨rfl, hsame, -⟩
  exact hf a s' hsame

theorem leads_update {g : RunState → RunState} {turn' : Turn}
    (hmove : Move limits ⟨s.1, s.2.journal, turn⟩ ⟨g s.1, s.2.journal, turn'⟩) :
    Leads limits (RunEngine.update g : RunM Y PUnit) s turn fun _ t s' =>
      t = turn' ∧ s'.1 = g s.1 :=
  ⟨turn', Relation.ReflTransGen.single hmove, fun _ _ => ⟨rfl, rfl⟩⟩

theorem leads_note {event : RunEvent} {turn' : Turn}
    (hmove : Move limits ⟨s.1, s.2.journal, turn⟩ ⟨s.1, s.2.journal ++ [event], turn'⟩) :
    Leads limits (RunEngine.note event : RunM Y PUnit) s turn fun _ t s' =>
      t = turn' ∧ s'.1 = s.1 :=
  ⟨turn', Relation.ReflTransGen.single hmove, fun _ _ => ⟨rfl, rfl⟩⟩

theorem leads_ofExcept (r : Except RunFault α) :
    Leads limits (Action.ofExcept r : RunM Y α) s turn fun a turn' s' =>
      turn' = turn ∧ s' = s ∧ r = .ok a :=
  ⟨turn, keeps_refl s turn, fun _ ha => ⟨rfl, rfl, ha⟩⟩

/-- An exception of `c` is a value for what follows. -/
theorem leads_attempt (hkeeps : Keeps limits s (c.after s)) :
    Leads limits (Action.attempt c) s turn fun _ turn' s' => turn' = turn ∧ s' = c.after s :=
  ⟨turn, hkeeps turn, fun _ _ => ⟨rfl, rfl⟩⟩

theorem leads_current_then {g : RunState → RunM Y β} (h : Leads limits (g s.1) s turn Q) :
    Leads limits (RunEngine.current >>= g) s turn Q := h

end Rules

/-! ## 2. Checkpointed decisions -/

section Decisions

variable (engine : RunEngine limits Y) {s : RunState × World Y} {turn : Turn}

/-- A checkpoint that returned is durable, and wins the turn back after a replan. -/
theorem leads_confirm : Leads limits engine.saveState s .accepted fun _ turn' s' =>
    turn' = .ready ∧ s'.1 = s.1 := by
  have hstate : (engine.saveState.after s).1 = s.1 := rfl
  have hjournal := saveCheckpoint_spec engine s.1 s.2
  unfold Leads Action.Ensures
  rcases hjournal with hj | ⟨hj, fault, hfault⟩
  · have hj' : (engine.saveState.after s).2.journal = s.2.journal ++ [.checkpointSaved s.1] := hj
    refine ⟨.ready, ?_, fun _ _ => ⟨rfl, hstate⟩⟩
    unfold Goes
    rw [hstate, hj']
    refine (Relation.ReflTransGen.single (Move.saved (SameProgress.refl s.1))).tail ?_
    exact Move.confirmed (lastCheckpoint_snoc_saved _ _)
  · have hj' : (engine.saveState.after s).2.journal = s.2.journal := hj
    have hfault' : engine.saveState.result s = .error fault := hfault
    refine ⟨.accepted, ?_, fun _ hok => ?_⟩
    · unfold Goes
      rw [hstate, hj']
      exact Relation.ReflTransGen.refl
    · rw [hfault'] at hok
      cases hok

/-- What an accepted replan leaves: its turn, one more replan and the same completed tasks. -/
structure Replanned (limits : PlanLimits) (state : RunState) (turn' : Turn)
    (s' : RunState × World Y) : Prop where
  turn : turn' = .ready
  completed : s'.1.completedTaskIds = state.completedTaskIds
  room : state.replans.length < limits.maxReplans
  grown : state.replans.length < s'.1.replans.length

theorem leads_acceptReplan {kind : ReplanKind} {replacement : AcceptedPlan limits} {reason : Text}
    {correctionRound : Option ℕ} (room : s.1.replans.length < limits.maxReplans)
    (hmove : Move limits ⟨s.1, s.2.journal, turn⟩
      ⟨RunEngine.acceptedState kind replacement reason correctionRound s.1, s.2.journal,
        .accepted⟩) :
    Leads limits (engine.acceptReplan kind replacement reason correctionRound) s turn
      fun _ turn' s' => Replanned limits s.1 turn' s' := by
  apply (leads_update hmove).bind
  rintro _ _ s₁ - ⟨rfl, hstate⟩
  apply leads_quiet_then (quiet_call _)
  intro _ s₂ h₂
  apply leads_quiet_then (quiet_refreshUsage engine)
  intro _ s₃ h₃
  apply leads_quiet_then (quiet_call _)
  intro _ s₄ h₄
  apply (leads_confirm engine).mono
  rintro _ turn' s₅ - ⟨hturn, hsame⟩
  have hprogress := (h₂.trans h₃).trans h₄
  rw [hstate] at hprogress
  refine ⟨hturn, ?_, room, ?_⟩
  · rw [hsame]
    exact hprogress.completedTaskIds
  · rw [hsame, hprogress.replans]
    show s.1.replans.length < (s.1.replans ++ _).length
    rw [List.length_append]
    exact Nat.lt_succ_self _

theorem leads_rejectReplan (code : String) (correctionRound : Option ℕ) :
    Leads limits (engine.rejectReplan code correctionRound) s turn fun _ turn' s' =>
      turn' = turn ∧ s'.1.completedTaskIds = s.1.completedTaskIds := by
  apply (leads_update (Move.rejected code correctionRound)).bind
  rintro _ _ s₁ - ⟨rfl, hstate⟩
  apply leads_quiet_then (quiet_call _)
  intro _ s₂ h₂
  apply leads_quiet_then (quiet_refreshUsage engine)
  intro _ s₃ h₃
  apply (leads_quiet (quiet_saveState engine)).mono
  rintro _ turn' s₄ - ⟨hturn, h₄, -⟩
  refine ⟨hturn, ?_⟩
  rw [((h₂.trans h₃).trans h₄).completedTaskIds, hstate]

theorem leads_declineCorrection :
    Leads limits engine.declineCorrection s turn fun _ _ _ => True := by
  have hdeclined : Leads limits
      (RunEngine.update fun state => { state with correctionDeclined := true } : RunM Y PUnit) s turn
      fun _ t s' => t = turn ∧ s'.1 = { s.1 with correctionDeclined := true } :=
    leads_update Move.declined
  apply hdeclined.bind
  rintro _ _ s₁ - ⟨rfl, -⟩
  apply leads_quiet_then (quiet_call _)
  intro _ s₂ _
  exact (leads_quiet (quiet_saveState engine)).mono fun _ _ _ _ _ => trivial

/-- Persisting a result completes its task and no other. -/
theorem leads_persist (result : TaskResult TaskAnswer) (persisted : Results TaskAnswer) :
    Leads limits (engine.persist result persisted) s turn fun _ turn' s' =>
      turn' = turn ∧ ∀ taskId, taskId ∈ s'.1.completedTaskIds ↔
        taskId ∈ s.1.completedTaskIds ∨ taskId = result.taskId := by
  apply (leads_ofExcept _).bind
  rintro _ _ _ - ⟨rfl, rfl, -⟩
  apply (leads_update (Move.stored result)).bind
  rintro _ _ s₁ - ⟨rfl, hstate⟩
  apply leads_quiet_then (quiet_call _)
  intro _ s₂ h₂
  apply leads_quiet_then (quiet_mergeEvidence engine _ _)
  intro _ s₃ h₃
  apply leads_quiet_then (quiet_call _)
  intro _ s₄ h₄
  apply leads_quiet_then (quiet_refreshUsage engine)
  intro _ s₅ h₅
  apply (leads_quiet (quiet_saveState engine)).mono
  rintro _ turn' s₆ - ⟨hturn, h₆, -⟩
  refine ⟨hturn, fun taskId => ?_⟩
  rw [((((h₂.trans h₃).trans h₄).trans h₅).trans h₆).completedTaskIds, hstate]
  exact mem_completed_storeResult _

end Decisions

/-! ## 3. Executing the graph -/

/-- What is completed has its result, and what may still be started or recorded is not completed. -/
structure PoolSound (state : RunState) (pool : RunEngine.Pool) : Prop where
  nodup : pool.state.remaining.Nodup
  pending : ∀ taskId ∈ pool.state.remaining, taskId ∉ state.completedTaskIds
  running : ∀ reply ∈ pool.replies,
    reply.1 ∉ pool.state.remaining ∧ reply.1 ∉ state.completedTaskIds
  named : ∀ taskId result, (taskId, .ok result) ∈ pool.replies → result.taskId = taskId
  done : ∀ taskId ∈ state.completedTaskIds,
    pool.state.results.status? taskId = some .completed

theorem PoolSound.congr {state state' : RunState} {pool : RunEngine.Pool}
    (h : PoolSound state pool) (hsame : state'.completedTaskIds = state.completedTaskIds) :
    PoolSound state' pool where
  nodup := h.nodup
  pending := by
    rw [hsame]
    exact h.pending
  running := by
    rw [hsame]
    exact h.running
  named := h.named
  done := by
    rw [hsame]
    exact h.done

theorem status?_set {results : Results TaskAnswer} {taskId d : String}
    {result : TaskResult TaskAnswer} :
    Results.status? (results.set taskId result) d =
      if d = taskId then some result.status else results.status? d := by
  unfold Results.status?
  rw [Dict.get?_set]
  split
  · rfl
  · rfl

/-- What holds of a scan along its order. -/
structure ScanSound (completed remaining : List String) (scan : Scan TaskAnswer) : Prop where
  nodup : scan.remaining.Nodup
  shrinks : scan.remaining ⊆ remaining
  done : ∀ taskId ∈ completed, scan.results.status? taskId = some .completed

/-- Visiting a task that has not completed blocks it or leaves it as it is. -/
theorem ScanSound.visit {completed remaining : List String} {scan : Scan TaskAnswer}
    (graph : TaskGraph) (h : ScanSound completed remaining scan) {taskId : String}
    (hpending : taskId ∉ completed) :
    ScanSound completed remaining (scanTask graph scan taskId) := by
  unfold scanTask
  dsimp only
  split
  · split
    · exact ⟨h.nodup, h.shrinks, h.done⟩
    · refine ⟨h.nodup.erase taskId, fun t ht => h.shrinks (List.erase_sublist.subset ht), ?_⟩
      intro t ht
      have hne : t ≠ taskId := fun heq => hpending (heq ▸ ht)
      rw [status?_set, if_neg hne]
      exact h.done t ht
  · exact h

theorem ScanSound.visitAll {completed remaining : List String} (graph : TaskGraph)
    (order : List String) (horder : ∀ t ∈ order, t ∉ completed) :
    ∀ scan, ScanSound completed remaining scan →
      ScanSound completed remaining (order.foldl (scanTask graph) scan) := by
  induction order with
  | nil => exact fun scan h => h
  | cons t order ih =>
    intro scan h
    exact ih (fun t' ht' => horder t' (List.mem_cons_of_mem _ ht')) _
      (h.visit graph (horder t List.mem_cons_self))

section Executing

variable (engine : RunEngine limits Y) (plan : AcceptedPlan limits) {s : RunState × World Y}

variable {pool : RunEngine.Pool} {turn : Turn} {completed : Results TaskAnswer}

/-- A scan blocks tasks that are still remaining, and takes them out. -/
theorem PoolSound.scan {state : RunState} (h : PoolSound state pool) (pass : PassChoice) :
    PoolSound state (RunEngine.scanPool plan pass pool).1 := by
  have hscan := ScanSound.visitAll plan.graph (pass.iterate pool.state.remaining)
    (fun t ht => h.pending t ((pass.iterate_perm _).mem_iff.mp ht))
    ⟨pool.state.results, pool.state.remaining, []⟩ ⟨h.nodup, List.Subset.refl _, h.done⟩
  exact ⟨hscan.nodup, fun t ht => h.pending t (hscan.shrinks ht),
    fun reply hreply => ⟨fun hmem => (h.running reply hreply).1 (hscan.shrinks hmem),
      (h.running reply hreply).2⟩, h.named, hscan.done⟩

/-- Starting a remaining task takes it out of the remaining ones. -/
theorem leads_startTask {taskId : String} (h : PoolSound s.1 pool) (hmem : taskId ∈ pool.state.remaining) :
    Leads limits (engine.startTask plan taskId pool) s turn fun pool' turn' s' =>
      turn' = turn ∧ PoolSound s'.1 pool' := by
  apply leads_quiet_then (quiet_call _)
  intro _ s₁ h₁
  apply leads_quiet_then (quiet_call _)
  intro _ _ h₂
  apply (leads_ofExcept _).bind
  rintro task _ s₂ - ⟨rfl, rfl, htask⟩
  have hcompleted : s₂.1.completedTaskIds = s.1.completedTaskIds := (h₁.trans h₂).completedTaskIds
  have hpending : taskId ∉ s₂.1.completedTaskIds := by
    rw [hcompleted]
    exact h.pending taskId hmem
  apply (leads_note (Move.started hpending)).bind
  rintro _ _ s₃ - ⟨rfl, h₃⟩
  apply (leads_quiet (quiet_outside (called_execute engine.worker engine.gateway task _))).bind
  rintro reply _ s₄ - ⟨rfl, h₄, hreply⟩
  apply leads_pure
  have hcompleted' : s₄.1.completedTaskIds = s.1.completedTaskIds := by
    rw [h₄.completedTaskIds, h₃, hcompleted]
  have hname : task.taskId = taskId := by
    have hfound := List.find?_some (required_eq_ok.mp htask)
    exact of_decide_eq_true hfound
  refine ⟨rfl, h.nodup.erase taskId, ?_, ?_, ?_, ?_⟩
  · intro t ht
    rw [hcompleted']
    exact h.pending t (List.erase_sublist.subset ht)
  · intro e he
    rw [hcompleted']
    rcases List.mem_append.mp he with he | he
    · exact ⟨fun hin => (h.running e he).1 (List.erase_sublist.subset hin), (h.running e he).2⟩
    · rw [List.mem_singleton.mp he]
      exact ⟨fun hin => (h.nodup.mem_erase_iff.mp hin).1 rfl, h.pending taskId hmem⟩
  · intro t result he
    rcases List.mem_append.mp he with he | he
    · exact h.named t result he
    · cases List.mem_singleton.mp he
      rw [← hname]
      exact execute_named engine.worker engine.gateway task hreply
  · rw [hcompleted']
    exact h.done

theorem leads_submitTasks (ready : List String) :
    ∀ (pool : RunEngine.Pool) (s : RunState × World Y), PoolSound s.1 pool →
      Leads limits (engine.submitTasks plan ready pool) s turn fun pool' turn' s' =>
        turn' = turn ∧ PoolSound s'.1 pool' := by
  induction ready with
  | nil => exact fun pool s h => leads_pure ⟨rfl, h⟩
  | cons taskId ready ih =>
    intro pool s h
    unfold RunEngine.submitTasks
    split
    · split
      · rename_i hmem
        apply (leads_startTask engine plan h hmem).bind
        rintro pool' _ s' - ⟨rfl, h'⟩
        exact ih pool' s' h'
      · exact ih pool s h
    · exact leads_pure ⟨rfl, h⟩

/-- Recording a finished task: completed or not, its result is the one it has. -/
theorem leads_collectResult {taskId : String} {result : TaskResult TaskAnswer} (h : PoolSound s.1 pool)
    (hmem : (taskId, .ok result) ∈ pool.replies) :
    Leads limits (engine.collectResult taskId result pool) s turn fun pool' turn' s' =>
      turn' = turn ∧ PoolSound s'.1 pool' := by
  have hname : result.taskId = taskId := h.named taskId result hmem
  have hfree := h.running _ hmem
  have hkept : ∀ reply ∈ pool.replies.filter fun reply => decide (reply.1 ≠ taskId),
      reply ∈ pool.replies ∧ reply.1 ≠ taskId := fun reply hreply =>
    ⟨(List.mem_filter.mp hreply).1, of_decide_eq_true (List.mem_filter.mp hreply).2⟩
  have hdone : ∀ state : RunState, (∀ t ∈ state.completedTaskIds,
      t ∈ s.1.completedTaskIds ∨ (t = result.taskId ∧ result.status = .completed)) →
      ∀ t ∈ state.completedTaskIds,
        (recordResult pool.state result).results.status? t = some .completed := by
    intro state hstate t ht
    show Results.status? (pool.state.results.set result.taskId result) t = _
    rw [status?_set]
    rcases hstate t ht with hold | ⟨heq, hcompleted⟩
    · have hne : t ≠ result.taskId := by
        rw [hname]
        exact fun heq => hfree.2 (heq ▸ hold)
      rw [if_neg hne]
      exact h.done t hold
    · rw [if_pos heq, hcompleted]
  unfold RunEngine.collectResult
  dsimp only
  split
  · rename_i hcompleted
    apply leads_quiet_then (quiet_call _)
    intro _ s₁ h₁
    apply (leads_persist engine _ _).bind
    rintro _ _ s₂ - ⟨rfl, hmemiff⟩
    apply leads_pure
    have hiff : ∀ t, t ∈ s₂.1.completedTaskIds ↔ t ∈ s.1.completedTaskIds ∨ t = taskId := by
      intro t
      rw [hmemiff, h₁.completedTaskIds, hname]
    refine ⟨rfl, h.nodup, ?_, ?_, fun t r hr => h.named t r (hkept _ hr).1, ?_⟩
    · intro t ht hin
      rcases (hiff t).mp hin with hold | heq
      · exact h.pending t ht hold
      · exact hfree.1 (heq ▸ ht)
    · intro reply hreply
      refine ⟨(h.running reply (hkept reply hreply).1).1, fun hin => ?_⟩
      rcases (hiff reply.1).mp hin with hold | heq
      · exact (h.running reply (hkept reply hreply).1).2 hold
      · exact (hkept reply hreply).2 heq
    · refine hdone s₂.1 fun t ht => ?_
      rw [hiff] at ht
      exact ht.imp id fun heq => ⟨heq.trans hname.symm, hcompleted⟩
  · apply leads_quiet_then (quiet_call _)
    intro _ s₁ h₁
    apply leads_pure
    refine ⟨rfl, PoolSound.congr ?_ h₁.completedTaskIds⟩
    exact ⟨h.nodup, h.pending, fun reply hreply => h.running reply (hkept reply hreply).1,
      fun t r hr => h.named t r (hkept _ hr).1, hdone s.1 fun t ht => Or.inl ht⟩

theorem leads_collectResults (done : List String) :
    ∀ (pool : RunEngine.Pool) (s : RunState × World Y), PoolSound s.1 pool →
      Leads limits (engine.collectResults done pool) s turn fun pool' turn' s' =>
        turn' = turn ∧ PoolSound s'.1 pool' := by
  induction done with
  | nil => exact fun pool s h => leads_pure ⟨rfl, h⟩
  | cons taskId done ih =>
    intro pool s h
    unfold RunEngine.collectResults
    split
    · exact ih pool s h
    · exact leads_raise _
    · rename_i result hlookup
      have hmem : (taskId, .ok result) ∈ pool.replies := by
        rcases List.lookup_eq_some_iff.mp hlookup with ⟨first, last, hreplies, -⟩
        rw [hreplies]
        exact List.mem_append_right _ List.mem_cons_self
      apply (leads_collectResult engine h hmem).bind
      rintro pool' _ s' - ⟨rfl, h'⟩
      exact ih pool' s' h'

/-- The results an execution returns cover every completed task. -/
theorem leads_runPasses (passes : List PassChoice) :
    ∀ (pool : RunEngine.Pool) (s : RunState × World Y), PoolSound s.1 pool →
      Leads limits (engine.runPasses plan passes pool) s turn fun results turn' s' =>
        turn' = turn ∧
          ∀ taskId ∈ s'.1.completedTaskIds, results.status? taskId = some .completed := by
  induction passes with
  | nil => exact fun pool s _ => leads_raise _
  | cons pass passes ih =>
    intro pool s h
    unfold RunEngine.runPasses
    split
    · exact leads_pure ⟨rfl, h.done⟩
    · apply leads_quiet_then (quiet_outside (called_checkCancelled engine.gateway))
      intro _ s₁ h₁
      have hscan := PoolSound.scan plan (h.congr h₁.completedTaskIds) pass
      apply (leads_submitTasks engine plan _ _ s₁ hscan).bind
      rintro submitted _ s₂ - ⟨rfl, h₂⟩
      split
      · split
        · exact leads_pure ⟨rfl, h₂.done⟩
        · exact leads_raise _
      · apply (leads_collectResults engine _ submitted s₂ h₂).bind
        rintro collected _ s₃ - ⟨rfl, h₃⟩
        exact ih collected s₃ h₃

/-- An execution starts with the tasks that are not completed. -/
theorem poolSound_initial {state : RunState} (hresumable : Resumable plan.graph completed)
    (hhead : state.completedTaskIds ⊆ completed.keys) :
    PoolSound state ⟨initialState plan.graph completed, [], completed⟩ where
  nodup := plan.graph.unique.filter _
  pending := fun taskId hmem hdone =>
    of_decide_eq_true (List.mem_filter.mp hmem).2 (hhead hdone)
  running := fun _ h => absurd h List.not_mem_nil
  named := fun _ _ h => absurd h List.not_mem_nil
  done := by
    intro taskId hdone
    rcases Dict.mem_keys_iff.mp (hhead hdone) with ⟨result, hresult⟩
    show (completed.get? taskId).map TaskResult.status = _
    rw [hresult]
    exact congrArg some (hresumable.2 _ (Dict.get?_eq_some.mp hresult))

theorem leads_executeGraph (hhead : s.1.completedTaskIds ⊆ completed.keys) :
    Leads limits (engine.executeGraph plan completed) s .ready fun results turn' s' =>
      turn' = .executed ∧
        ∀ taskId ∈ s'.1.completedTaskIds, results.status? taskId = some .completed := by
  apply leads_current_then
  apply (leads_note Move.executed).bind
  rintro _ _ s₁ - ⟨rfl, h₁⟩
  have hexecuted : Leads limits (engine.executeTasks plan completed) s₁ .executed
      fun results turn' s' => turn' = .executed ∧
        ∀ taskId ∈ s'.1.completedTaskIds, results.status? taskId = some .completed := by
    unfold RunEngine.executeTasks
    split
    · rename_i hresumable
      apply leads_quiet_then (quiet_call _)
      intro passes s₂ h₂
      apply leads_runPasses engine plan passes
      apply poolSound_initial plan hresumable
      rw [h₂.completedTaskIds, h₁]
      exact hhead
    · exact leads_raise _
  apply hexecuted.bind
  rintro results _ s₃ - ⟨rfl, hresults⟩
  apply leads_quiet_then (quiet_consumeFailures engine _)
  intro _ s₄ h₄
  apply leads_pure
  refine ⟨rfl, ?_⟩
  rw [h₄.completedTaskIds]
  exact hresults

end Executing

/-! ## 4. Replanning and correcting -/

section Replanning

variable (engine : RunEngine limits Y) (plan : AcceptedPlan limits) {s : RunState × World Y}
  {turn : Turn}

/-- Moves that leave the run state alone. -/
def Steady (limits : PlanLimits) (s s' : RunState × World Y) : Prop :=
  Keeps limits s s' ∧ s'.1 = s.1

theorem steady_refl (s : RunState × World Y) : Steady limits s s := ⟨keeps_refl s, rfl⟩

theorem steady_trans (a b c : RunState × World Y) (h : Steady limits a b)
    (h' : Steady limits b c) : Steady limits a c :=
  ⟨keeps_trans a b c h.1 h'.1, h'.2.trans h.2⟩

theorem steady_outside {k : ℕ} {α : Type} {c : Action (World Y) RunFault α}
    (hc : Action.Spends Called k c) :
    Action.Relates (Steady limits) (Action.outside c : RunM Y α) :=
  fun s => ⟨(quiet_outside hc s).keeps, rfl⟩

theorem steady_note {event : RunEvent} (hplain : event.isPlain = true) :
    Action.Relates (Steady limits) (RunEngine.note event : RunM Y PUnit) :=
  fun _ => ⟨fun _ => Relation.ReflTransGen.single (Move.noted hplain), rfl⟩

theorem steady_checkFeasible (completed : Results TaskAnswer) :
    Action.Relates (Steady limits) (engine.checkFeasible plan.toCommanderPlan completed) := by
  apply Action.relates_bind steady_trans (steady_outside (called_lift _))
  intro remaining
  apply Action.relates_bind steady_trans (Action.relates_ofExcept steady_refl _)
  intro specs
  apply Action.relates_ite
  · exact Action.relates_bind steady_trans (steady_note rfl)
      fun _ => Action.relates_raise steady_refl _
  · exact steady_note rfl

/-- Checking a replacement leaves the state as it is. -/
theorem steady_replanRefusal (replacement : AcceptedPlan limits)
    (completed : Results TaskAnswer) :
    Action.Relates (Steady limits) (engine.replanRefusal plan replacement completed) := by
  unfold RunEngine.replanRefusal
  split
  · apply Action.relates_bind steady_trans
      (Action.relates_attempt (steady_checkFeasible engine replacement completed))
    intro outcome
    cases outcome with
    | ok _ => exact Action.relates_pure steady_refl _
    | error fault =>
      exact Action.relates_ite (Action.relates_pure steady_refl _)
        (Action.relates_raise steady_refl _)
  · exact Action.relates_pure steady_refl _

theorem leads_steady {α : Type} {c : RunM Y α} (hc : Action.Relates (Steady limits) c) :
    Leads limits c s turn fun a turn' s' => turn' = turn ∧ s'.1 = s.1 ∧ c.result s = .ok a :=
  ⟨turn, (hc s).1 turn, fun _ ha => ⟨rfl, (hc s).2, ha⟩⟩

/-- A decision that was taken left the state as it was; a rejected one left its tasks. -/
theorem leads_replanOrReject (evidence : List EvidenceReference) (correctionRound : Option ℕ) :
    Leads limits (engine.replanOrReject evidence correctionRound) s turn
      fun decision turn' s' => turn' = turn ∧
        s'.1.completedTaskIds = s.1.completedTaskIds ∧ (decision.isSome = true → s'.1 = s.1) := by
  have hcall : Steady limits s ((Action.outside (engine.commander.replan engine.gateway) :
      RunM Y _).after s) := steady_outside (called_replan engine.commander engine.gateway) s
  apply (leads_attempt hcall.1).bind
  rintro outcome _ s₁ - ⟨rfl, rfl⟩
  cases outcome with
  | ok decision => exact leads_pure ⟨rfl, rfl, fun _ => rfl⟩
  | error fault =>
    dsimp only
    split
    · exact leads_raise _
    · split
      · exact leads_raise _
      · apply (leads_rejectReplan engine _ _).bind
        rintro _ _ s₂ - ⟨rfl, hsame⟩
        exact leads_pure ⟨rfl, hsame, fun hsome => by cases hsome⟩

/-- What settling a proposal leaves: nothing accepted, or a replan made durable. -/
def Settled (state : RunState) (next : Option (AcceptedPlan limits)) (turn' : Turn)
    (s' : RunState × World Y) : Prop :=
  match next with
  | none => s'.1.completedTaskIds = state.completedTaskIds
  | some _ => Replanned limits state turn' s'

variable {replacement : AcceptedPlan limits}

theorem leads_settleProposal {evidence : List EvidenceReference} {kind : ReplanKind} {reason : Text}
    {correctionRound : Option ℕ} {refusal : Option (String × RunFault)}
    (haccepted : refusal = none → s.1.replans.length < limits.maxReplans ∧
      Move limits ⟨s.1, s.2.journal, turn⟩
        ⟨RunEngine.acceptedState kind replacement reason correctionRound s.1, s.2.journal,
          .accepted⟩) :
    Leads limits
      (engine.settleProposal evidence kind replacement reason correctionRound refusal) s turn
      fun next turn' s' => (next = none → turn' = turn) ∧ Settled s.1 next turn' s' := by
  cases refusal with
  | some refusal =>
    show Leads limits (if evidence = [] then Action.raise refusal.2 else _) s turn _
    split
    · exact leads_raise _
    · apply (leads_rejectReplan engine _ _).bind
      rintro _ _ s₁ - ⟨rfl, hsame⟩
      exact leads_pure ⟨fun _ => rfl, hsame⟩
  | none =>
    rcases haccepted rfl with ⟨room, hmove⟩
    apply (leads_acceptReplan engine room hmove).bind
    intro _ _ s₁ _ hreplanned
    exact leads_pure ⟨(fun hnone => by cases hnone), hreplanned⟩

theorem leads_decideReplan (findings : RunEngine.Findings) :
    Leads limits (engine.decideReplan findings) s turn fun decision turn' s' =>
      turn' = turn ∧ s'.1.completedTaskIds = s.1.completedTaskIds ∧
        (decision.isSome = true → s'.1 = s.1) := by
  apply leads_current_then
  split
  · apply leads_quiet_then (quiet_call _)
    intro _ s₁ h₁
    exact leads_pure ⟨rfl, h₁.completedTaskIds, fun hsome => by cases hsome⟩
  · split
    · exact leads_pure ⟨rfl, rfl, fun hsome => by cases hsome⟩
    · exact leads_replanOrReject engine _ _

theorem steady_ordinaryRefusal (replacement : AcceptedPlan limits)
    (findings : RunEngine.Findings) :
    Action.Relates (Steady limits) (engine.ordinaryRefusal plan replacement findings) := by
  apply Action.relates_bind steady_trans (fun s => steady_refl s)
  intro state
  apply Action.relates_ite (Action.relates_pure steady_refl _)
  exact Action.relates_ite (Action.relates_pure steady_refl _)
    (steady_replanRefusal engine plan replacement findings.completed)

/-- A replan that is not refused is within the replans of the plan it replaces. -/
theorem room_of_ordinaryRefusal {findings : RunEngine.Findings}
    (h : (engine.ordinaryRefusal plan replacement findings).result s = .ok none) :
    s.1.replans.length < limits.maxReplans := by
  have h' : (if ¬findings.Unresolved then pure (some ("SWARM_V2_REPLAN_REQUIRES_GAP",
        RunFault.execution "SWARM_V2_REPLAN_REQUIRES_GAP"))
      else if plan.maxReplans ≤ s.1.replans.length then
        pure (some ("SWARM_V2_MAX_REPLANS_EXCEEDED",
          RunFault.execution "SWARM_V2_MAX_REPLANS_EXCEEDED"))
      else engine.replanRefusal plan replacement findings.completed : RunM Y _).result s =
        .ok none := h
  split at h'
  · cases h'
  · split at h'
    · cases h'
    · rename_i hroom
      exact (not_le.mp hroom).trans_le plan.replans_le

/-- The replan before verification keeps the turn, or wins it back. -/
theorem leads_replanPass (findings : RunEngine.Findings) :
    Leads limits (engine.replanPass plan findings) s .executed fun next turn' s' =>
      (next = none → turn' = .executed) ∧ Settled s.1 next turn' s' := by
  apply (leads_decideReplan engine findings).bind
  rintro decision _ s₁ - ⟨rfl, hcompleted, hsame⟩
  match decision with
  | some (.replace kind replacement reason) =>
    have hstate : s₁.1 = s.1 := hsame rfl
    apply (leads_steady (steady_ordinaryRefusal engine plan replacement findings)).bind
    rintro refusal _ s₂ - ⟨rfl, hstate', hrefusal⟩
    rw [← hstate, ← hstate']
    apply leads_settleProposal engine
    intro hnone
    rw [hnone] at hrefusal
    have room := room_of_ordinaryRefusal engine plan hrefusal
    rw [← hstate'] at room
    exact ⟨room, Move.replanned kind replacement reason room⟩
  | some (.requestVerification reason) => exact leads_pure ⟨fun _ => rfl, hcompleted⟩
  | some (.finish reason) => exact leads_pure ⟨fun _ => rfl, hcompleted⟩
  | none => exact leads_pure ⟨fun _ => rfl, hcompleted⟩

/-- Asking for a correction: at most a replan made durable comes of it. -/
theorem leads_askCorrection (findings : RunEngine.Findings) (round : ℕ)
    (hunanswered : ¬s.1.Answered) (hunspent : s.1.correctionRounds < maxCorrectionRounds)
    (hroom : s.1.replans.length < limits.maxReplans) :
    Leads limits (engine.askCorrection plan findings round) s .executed fun next turn' s' =>
      ∀ replacement, next = some replacement → Replanned limits s.1 turn' s' := by
  apply (leads_steady (steady_outside (called_lift _))).bind
  rintro _ _ s₁ - ⟨rfl, h₁, -⟩
  rw [← h₁] at hunanswered hunspent hroom
  apply (leads_note (Move.asked round hunanswered)).bind
  rintro _ _ s₂ - ⟨rfl, h₂⟩
  rw [← h₂] at hunspent hroom
  apply (leads_replanOrReject engine _ _).bind
  rintro decision _ s₃ - ⟨rfl, -, hsame⟩
  match decision with
  | none => exact leads_pure fun _ h => by cases h
  | some (.replace kind replacement reason) =>
    have h₃ : s₃.1 = s₂.1 := hsame rfl
    apply (leads_steady (steady_replanRefusal engine plan replacement findings.completed)).bind
    rintro refusal _ s₄ - ⟨rfl, h₄, -⟩
    rw [← h₃, ← h₄] at hunspent hroom
    apply (leads_settleProposal engine fun _ =>
      ⟨hroom, Move.corrected kind replacement reason round hroom hunspent⟩).mono
    rintro next turn' s₅ - ⟨-, hsettled⟩ accepted rfl
    rw [← h₁, ← h₂, ← h₃, ← h₄]
    exact hsettled
  | some (.requestVerification reason) =>
    apply (leads_declineCorrection engine).bind
    intro _ _ _ _ _
    exact leads_pure fun _ h => by cases h
  | some (.finish reason) =>
    apply (leads_declineCorrection engine).bind
    intro _ _ _ _ _
    exact leads_pure fun _ h => by cases h

theorem leads_startCorrectionRound (findings : RunEngine.Findings)
    (verdicts : List VerificationVerdict) :
    Leads limits (engine.startCorrectionRound plan findings verdicts) s .executed
      fun next turn' s' =>
        ∀ replacement, next = some replacement → Replanned limits s.1 turn' s' := by
  apply leads_current_then
  split
  · exact leads_pure fun _ h => by cases h
  · rename_i hopen
    split
    · exact leads_pure fun _ h => by cases h
    · apply (leads_steady (steady_outside (called_lift _))).bind
      rintro remaining _ s₁ - ⟨rfl, h₁, -⟩
      split
      · apply leads_quiet_then (quiet_call _)
        intro _ s₂ _
        exact leads_pure fun _ h => by cases h
      · rename_i hallowed
        have hallowance := correctionAllowance_eq_none hallowed
        have hunanswered : ¬s.1.Answered := by
          rintro (hclosed | hrejected)
          · unfold correctionPathClosed at hclosed
            rw [Bool.or_eq_true, decide_eq_true_eq] at hclosed
            rcases hclosed with hdeclined | hspent
            · exact hopen (Or.inl hdeclined)
            · exact absurd hallowance.1 (not_lt.mpr hspent)
          · exact hopen (Or.inr hrejected)
        rw [← h₁] at hunanswered hallowance ⊢
        exact leads_askCorrection engine plan findings _ hunanswered hallowance.1
          (hallowance.2.trans_le plan.replans_le)

end Replanning

/-! ## 5. The loop -/

section Loop

variable (engine : RunEngine limits Y) (plan : AcceptedPlan limits) {s : RunState × World Y}
  {turn : Turn}

theorem leads_concludePass (findings : RunEngine.Findings) :
    Leads limits (engine.concludePass plan findings) s .executed fun next turn' s' =>
      ∀ replacement, next = .inl replacement → Replanned limits s.1 turn' s' := by
  apply leads_quiet_then (quiet_refuseHardFailure plan findings)
  intro _ s₁ h₁
  have hverified : Leads limits (engine.verifyPass findings) s₁ .executed fun _ turn' s' =>
      turn' = .executed ∧ SameProgress s₁.1 s'.1 := by
    have hquiet := quiet_inVerification engine findings.evidence findings.conflictIds s₁
    refine ⟨.executed, ?_, fun _ _ => ⟨rfl, hquiet.progress⟩⟩
    exact (hquiet.keeps .executed).tail (Move.noted rfl)
  apply hverified.bind
  rintro ⟨resolutions, verdicts, degraded⟩ _ s₂ - ⟨rfl, h₂⟩
  have hprogress := h₁.trans h₂
  have hreplanned : ∀ {turn' : Turn} {s' : RunState × World Y}, Replanned limits s₂.1 turn' s' →
      Replanned limits s.1 turn' s' := by
    intro turn' s' h
    refine ⟨h.turn, h.completed.trans hprogress.completedTaskIds, ?_, ?_⟩
    · rw [← hprogress.replans]
      exact h.room
    · rw [← hprogress.replans]
      exact h.grown
  have hnone : Leads limits (pure none : RunM Y (Option (AcceptedPlan limits))) s₂ .executed
      fun next turn' s' => ∀ replacement, next = some replacement → Replanned limits s₂.1 turn' s' :=
    leads_pure fun _ h => by cases h
  have hstarted := leads_startCorrectionRound engine plan findings verdicts (s := s₂)
  cases degraded
  on_goal 1 => apply hstarted.bind
  on_goal 2 => apply hnone.bind
  all_goals
    intro next turn' s₃ _ hnext
    cases next with
    | some replacement => exact leads_pure fun _ _ => hreplanned (hnext replacement rfl)
    | none =>
      apply leads_quiet_then (quiet_finish engine plan findings _)
      intro final s₄ _
      exact leads_pure fun _ h => by cases h

/-- The findings keep every completed task of the results. -/
theorem completed_of_assess {results : Results TaskAnswer} {findings : RunEngine.Findings}
    (h : (engine.assess plan results).result s = .ok findings) :
    findings.completed = results.filter fun _ result => decide (result.status = .completed) := by
  rcases Action.result_bind_eq_ok.mp h with ⟨_, -, h⟩
  rcases Action.result_bind_eq_ok.mp h with ⟨_, -, h⟩
  rcases Action.result_bind_eq_ok.mp h with ⟨_, -, h⟩
  rcases Action.result_bind_eq_ok.mp h with ⟨_, -, h⟩
  rcases Action.result_bind_eq_ok.mp h with ⟨_, -, h⟩
  rcases Action.result_bind_eq_ok.mp h with ⟨_, -, h⟩
  rcases Action.result_bind_eq_ok.mp h with ⟨_, -, h⟩
  rcases Action.result_bind_eq_ok.mp h with ⟨_, -, h⟩
  cases h
  rfl

/-- What a round starts from: the results cover every completed task. -/
def HeadSound (state : RunState) (head : AcceptedPlan limits × Results TaskAnswer) : Prop :=
  state.completedTaskIds ⊆ head.2.keys

/-- A round that goes on has won its turn back with one more replan. -/
theorem leads_pass {head : AcceptedPlan limits × Results TaskAnswer} (hhead : HeadSound s.1 head) :
    Leads limits (engine.pass head) s .ready fun next turn' s' =>
      ∀ head', next = .inl head' → turn' = .ready ∧ HeadSound s'.1 head' ∧
        s.1.replans.length < limits.maxReplans ∧
        s.1.replans.length < s'.1.replans.length := by
  apply (leads_executeGraph engine head.1 hhead).bind
  rintro results _ s₁ hgoes ⟨rfl, hdone⟩
  have hgrown : s.1.replans.length ≤ s₁.1.replans.length := Moves.replans_le hgoes
  apply (leads_quiet (quiet_assess engine head.1 results)).bind
  rintro findings _ s₂ - ⟨rfl, h₂, hfindings⟩
  have hcompleted := completed_of_assess engine head.1 hfindings
  have hcovered : s₂.1.completedTaskIds ⊆ findings.completed.keys := by
    intro taskId hmem
    rw [h₂.completedTaskIds] at hmem
    have hstatus := hdone taskId hmem
    unfold Results.status? at hstatus
    rcases Option.map_eq_some_iff.mp hstatus with ⟨result, hresult, hcompletes⟩
    rw [hcompleted, Dict.mem_keys_iff]
    refine ⟨result, ?_⟩
    rw [Dict.get?_filter, hresult]
    exact Option.filter_some_pos (decide_eq_true hcompletes)
  -- either half of the round may go on with a replacement; both leave the same
  have hnext : ∀ {state : RunState} {turn' : Turn} {s' : RunState × World Y},
      state.completedTaskIds = s₂.1.completedTaskIds →
      s₂.1.replans.length ≤ state.replans.length → Replanned limits state turn' s' →
      ∀ replacement : AcceptedPlan limits, turn' = .ready ∧
        HeadSound s'.1 (replacement, findings.completed) ∧
        s.1.replans.length < limits.maxReplans ∧
        s.1.replans.length < s'.1.replans.length := by
    intro state turn' s' hsame hle h replacement
    have hreplans := congrArg List.length h₂.replans
    refine ⟨h.turn, ?_, ?_, ?_⟩
    · unfold HeadSound
      rw [h.completed, hsame]
      exact hcovered
    · have hroom := h.room
      omega
    · have hmore := h.grown
      omega
  apply (leads_replanPass engine head.1 findings).bind
  rintro replanned turn' s₃ hgoes₃ ⟨hturn, hsettled⟩
  cases replanned with
  | some replacement =>
    refine leads_pure fun head' heq => ?_
    cases heq
    exact hnext rfl (Nat.le_refl _) hsettled replacement
  | none =>
    rw [hturn rfl] at hgoes₃ ⊢
    apply (leads_concludePass engine head.1 findings).bind
    intro concluded turn'' s₄ _ hconcluded
    cases concluded with
    | inl replacement =>
      refine leads_pure fun head' heq => ?_
      cases heq
      exact hnext hsettled (Moves.replans_le hgoes₃) (hconcluded replacement rfl) replacement
    | inr final => exact leads_pure fun _ heq => by cases heq

theorem leads_loop : ∀ (fuel : ℕ) (head : AcceptedPlan limits × Results TaskAnswer)
    (s : RunState × World Y), HeadSound s.1 head →
      Leads limits (Action.loop .exhausted engine.pass fuel head) s .ready fun _ _ _ => True := by
  intro fuel
  induction fuel with
  | zero => exact fun head s _ => leads_raise _
  | succ fuel ih =>
    intro head s hhead
    apply (leads_pass engine hhead).bind
    intro next turn' s' _ hnext
    cases next with
    | inr final => exact leads_pure trivial
    | inl head' =>
      rcases hnext head' rfl with ⟨rfl, hhead', -, -⟩
      exact ih head' s' hhead'

/-- With more rounds than replans are left, further rounds change nothing. -/
theorem loop_enough (more : ℕ) : ∀ (fuel : ℕ) (head : AcceptedPlan limits × Results TaskAnswer)
    (s : RunState × World Y), HeadSound s.1 head →
      limits.maxReplans ≤ fuel + s.1.replans.length →
        Action.loop .exhausted engine.pass (fuel + 1 + more) head s =
          Action.loop .exhausted engine.pass (fuel + 1) head s := by
  intro fuel
  induction fuel with
  | zero =>
    intro head s hhead henough
    have hpass := leads_pass (s := s) engine hhead
    unfold Leads Action.Ensures Action.result at hpass
    rw [Nat.zero_add, Nat.add_comm]
    unfold Action.loop Action.bind
    rcases hrun : engine.pass head s with ⟨r, s'⟩
    rw [hrun] at hpass
    match r with
    | .error fault => rfl
    | .ok (.inr final) => rfl
    | .ok (.inl head') =>
      -- no replan is left to go on with
      rcases hpass with ⟨_, _, hnext⟩
      rcases hnext _ rfl head' rfl with ⟨-, -, hroom, -⟩
      omega
  | succ fuel ih =>
    intro head s hhead henough
    have hpass := leads_pass (s := s) engine hhead
    unfold Leads Action.Ensures Action.result Action.after at hpass
    rw [Nat.add_right_comm]
    unfold Action.loop Action.bind
    rcases hrun : engine.pass head s with ⟨r, s'⟩
    rw [hrun] at hpass
    match r with
    | .error fault => rfl
    | .ok (.inr final) => rfl
    | .ok (.inl head') =>
      rcases hpass with ⟨_, _, hnext⟩
      rcases hnext _ rfl head' rfl with ⟨-, hhead', -, hgrown⟩
      dsimp only at hgrown hhead' ⊢
      exact ih head' s' hhead' (by omega)

end Loop

/-! ## 6. Invocations -/

section Invocations

variable (engine : RunEngine limits Y)

/-- What a checkpoint restores covers every task it has completed. -/
theorem headSound_restored {state : RunState} (h : Within limits state)
    (plan : AcceptedPlan limits) : HeadSound state (plan, RunEngine.restoredResults state) := by
  intro taskId hmem
  rcases Dict.mem_keys_iff.mp (h.outputs hmem) with ⟨output, houtput⟩
  show taskId ∈ (Dict.mapValues _ _).keys
  rw [Dict.mem_keys_iff]
  refine ⟨⟨taskId, .completed, some ⟨output, []⟩, none⟩, ?_⟩
  have hkept : (some output).filter (fun _ => decide (taskId ∈ state.completedTaskIds)) =
      some output := Option.filter_some_pos (decide_eq_true hmem)
  rw [Dict.get?_mapValues, Dict.get?_filter, houtput, hkept]
  rfl

theorem leads_continueRun (rounds : ℕ) (plan : AcceptedPlan limits) {s : RunState × World Y}
    (h : Within limits s.1) :
    Leads limits (engine.continueRun rounds plan) s .ready fun _ _ _ => True := by
  apply leads_current_then
  apply (leads_steady (steady_checkFeasible engine plan _)).bind
  rintro _ _ s₁ - ⟨rfl, h₁, -⟩
  apply leads_loop engine rounds
  rw [h₁]
  exact headSound_restored h plan

theorem within_blankState : Within limits blankState where
  rounds := Nat.zero_le _
  accepted := Nat.zero_le _
  revision := rfl
  outputs := List.nil_subset _

/-- An invocation that resumes from a sound journal starts sound. -/
theorem inRun_resumed {journal : List RunEvent} (h : Sound limits journal) {saved : RunState}
    (hsaved : lastCheckpoint journal = some saved) :
    InRun limits journal ⟨saved, journal, .ready⟩ where
  sound := h
  within := h.within saved (mem_of_lastCheckpoint hsaved)
  ahead := fun earlier hearlier => h.ordered earlier hearlier saved hsaved
  counted := Nat.add_le_add_right (Nat.le_succ _) _
  ready := fun _ => Nat.le_refl _
  accepted := fun hturn => by cases hturn
  once := Or.inl (Nat.le_refl _)

/-- So does one that has no checkpoint to resume from. -/
theorem inRun_blank {journal : List RunEvent} (h : Sound limits journal)
    (hnone : lastCheckpoint journal = none) : InRun limits journal ⟨blankState, journal, .ready⟩ where
  sound := h
  within := within_blankState
  ahead := by
    intro saved hsaved
    unfold lastCheckpoint at hnone
    rw [List.findSome?_eq_none_iff] at hnone
    have habsent := hnone _ (List.mem_reverse.mpr hsaved)
    cases habsent
  counted := Nat.add_le_add_right (Nat.le_succ _) _
  ready := fun _ => Nat.le_refl _
  accepted := fun hturn => by cases hturn
  once := Or.inl (Nat.le_refl _)

/-- An invocation leaves a sound journal, with at most one execution more than replans accepted and
    at most one question more. -/
structure Invoked (limits : PlanLimits) (before after : List RunEvent) : Prop where
  sound : Sound limits after
  counted : executions after + acceptedAtLast before ≤ executions before + 1 + acceptedAtLast after
  once : correctionAsks after ≤ correctionAsks before + 1

theorem InRun.invoked {before : List RunEvent} {c : Config} (h : InRun limits before c) :
    Invoked limits before c.journal where
  sound := h.sound
  counted := h.counted
  once := by
    rcases h.once with hnone | ⟨hone, -⟩
    · exact hnone.trans (Nat.le_succ _)
    · exact hone

/-- A resumed run starts from the state of its checkpoint. -/
theorem resumeRun_state {saved : RunState} {begun : RunState × AcceptedPlan limits}
    (h : engine.resumeRun saved = .ok begun) : begun.1 = saved := by
  rcases except_bind_eq_ok.mp h with ⟨state, hstate, h⟩
  rcases except_bind_eq_ok.mp h with ⟨plan, -, h⟩
  cases h
  rcases except_bind_eq_ok.mp hstate with ⟨_, -, hstate⟩
  rcases except_bind_eq_ok.mp hstate with ⟨_, -, hstate⟩
  rcases except_bind_eq_ok.mp hstate with ⟨_, -, hstate⟩
  cases hstate
  rfl

/-- Every invocation of a run does what the protocol allows. -/
theorem invoked_run (rounds : ℕ) (w : World Y) (h : Sound limits w.journal) :
    Invoked limits w.journal ((engine.run rounds).after w).journal := by
  have hcontinue : ∀ (begun : RunState × AcceptedPlan limits) (w' : World Y),
      InRun limits w.journal ⟨begun.1, w'.journal, .ready⟩ →
        (RunEngine.withState begun.1 (engine.continueRun rounds begun.2)).Ensures w' fun _ w'' =>
          Invoked limits w.journal w''.journal := by
    intro begun w' hbegun
    rcases leads_continueRun engine rounds begun.2 (s := (begun.1, w')) hbegun.within with
      ⟨turn, hgoes, -⟩
    exact (Moves.inRun hgoes hbegun).invoked
  show (engine.run rounds).Ensures w fun _ w' => Invoked limits w.journal w'.journal
  unfold RunEngine.run
  apply Action.ensures_get_bind
  cases hlast : lastCheckpoint w.journal with
  | some saved =>
    have hbegun := inRun_resumed h hlast
    have hresumed : (Action.ofExcept (engine.resumeRun saved) :
        Action (World Y) RunFault _).Ensures w fun r w' =>
          w' = w ∧ ∀ begun, r = .ok begun → begun.1 = saved :=
      ⟨rfl, fun begun hok => resumeRun_state engine hok⟩
    apply hresumed.bind
    · rintro begun w' ⟨rfl, hstate⟩
      apply hcontinue begun
      rw [hstate begun rfl]
      exact hbegun
    · rintro fault w' ⟨rfl, -⟩
      exact hbegun.invoked
  | none =>
    have hblank := inRun_blank h hlast
    have hplanned : InRun limits w.journal
        ⟨blankState, (engine.planRun.after w).journal, .ready⟩ :=
      Moves.inRun ((quiet_planRun engine w).keeps .ready) hblank
    have hplan : engine.planRun.Ensures w fun r w' => w' = engine.planRun.after w ∧
        ∀ begun, r = .ok begun → SameProgress blankState begun.1 :=
      ⟨rfl, fun begun hok => planRun_state engine hok⟩
    apply hplan.bind
    · rintro begun w' ⟨rfl, hstate⟩
      have hsame := hstate begun rfl
      exact hcontinue begun _ (hplanned.moved hsame.precedes (hsame.within within_blankState))
    · rintro fault w' ⟨rfl, -⟩
      exact hplanned.invoked

end Invocations

/-! ## 7. The life of a run -/

section Life

variable (engine : RunEngine limits Y) (rounds : ℕ) (w : World Y)

/-- The journal of a new run stays sound, and counts at most one execution for each invocation and
    each accepted replan. -/
theorem sound_life (hnew : w.journal = []) (invocations : ℕ) :
    Sound limits (engine.life rounds invocations w).journal ∧
      executions (engine.life rounds invocations w).journal ≤
        invocations + acceptedAtLast (engine.life rounds invocations w).journal := by
  induction invocations with
  | zero =>
    show Sound limits w.journal ∧ executions w.journal ≤ _
    rw [hnew]
    exact ⟨sound_nil, Nat.zero_le _⟩
  | succ invocations ih =>
    have h := invoked_run engine rounds (engine.life rounds invocations w) ih.1
    refine ⟨h.sound, ?_⟩
    have hcounted := h.counted
    have hbefore := ih.2
    show executions ((engine.run rounds).after _).journal ≤ _ + acceptedAtLast
      ((engine.run rounds).after _).journal
    omega

/-- The last checkpoint has accepted no more replans than the plan firewall allows. -/
theorem Sound.acceptedAtLast_le {journal : List RunEvent} (h : Sound limits journal) :
    acceptedAtLast journal ≤ limits.maxReplans := by
  unfold acceptedAtLast
  cases hlast : lastCheckpoint journal with
  | none => exact Nat.zero_le _
  | some saved => exact (h.within saved (mem_of_lastCheckpoint hlast)).accepted

theorem continueRun_enough (more : ℕ) (plan : AcceptedPlan limits) {s : RunState × World Y}
    (h : Within limits s.1) :
    engine.continueRun (limits.maxReplans + 1 + more) plan s =
      engine.continueRun (limits.maxReplans + 1) plan s := by
  apply Action.bind_congr
  rintro state hstate
  have hcurrent : state = s.1 := by
    cases hstate
    rfl
  apply Action.bind_congr
  intro _ _
  apply loop_enough engine more limits.maxReplans
  · have hsteady : ((engine.checkFeasible plan.toCommanderPlan
        (RunEngine.restoredResults state)).after s).1 = s.1 :=
      (steady_checkFeasible engine plan (RunEngine.restoredResults state) s).2
    show ((engine.checkFeasible plan.toCommanderPlan
      (RunEngine.restoredResults state)).after s).1.completedTaskIds ⊆ _
    rw [hsteady, hcurrent]
    exact headSound_restored h plan
  · exact Nat.le_add_right _ _

theorem run_enough {w : World Y} (h : Sound limits w.journal) (more : ℕ) :
    engine.run (limits.maxReplans + 1 + more) w = engine.run (limits.maxReplans + 1) w := by
  have hcontinue : ∀ (begun : RunState × AcceptedPlan limits) (w' : World Y),
      Within limits begun.1 →
        RunEngine.withState begun.1 (engine.continueRun (limits.maxReplans + 1 + more) begun.2) w' =
          RunEngine.withState begun.1 (engine.continueRun (limits.maxReplans + 1) begun.2) w' := by
    intro begun w' hbegun
    unfold RunEngine.withState
    rw [continueRun_enough engine more begun.2 (s := (begun.1, w')) hbegun]
  unfold RunEngine.run
  apply Action.bind_congr
  rintro w' hw'
  cases hw'
  cases hlast : lastCheckpoint w.journal with
  | some saved =>
    apply Action.bind_congr
    intro begun hbegun
    apply hcontinue begun
    rw [resumeRun_state engine hbegun]
    exact h.within saved (mem_of_lastCheckpoint hlast)
  | none =>
    apply Action.bind_congr
    intro begun hbegun
    exact hcontinue begun _ ((planRun_state engine hbegun).within within_blankState)

/-- A new run, invoked any number of times: it executes the graph at most once for each invocation
    and each replan the plan firewall allows, and no invocation of it more often than once for each
    replan it has left; every revision it executes, every correction it spends and every replan it
    accepts is within its bound; no invocation asks twice for a correction, and none asks after a
    checkpoint that has the answer; no task completed in a checkpoint is started after it; and more
    rounds of its loop than those replans allow change nothing. -/
theorem run_loop_bounded (hnew : w.journal = []) (invocations : ℕ) :
    let before := (engine.life rounds invocations w).journal
    let after := (engine.life rounds (invocations + 1) w).journal
    executions before ≤ limits.maxReplans + invocations ∧
      executions after + acceptedAtLast before ≤ executions before + limits.maxReplans + 1 ∧
      (∀ revision, .graphExecuted revision ∈ before → revision ≤ limits.maxReplans + 1) ∧
      (∀ saved, .checkpointSaved saved ∈ before →
        saved.correctionRounds ≤ maxCorrectionRounds ∧
          saved.acceptedReplans ≤ limits.maxReplans) ∧
      correctionAsks after ≤ correctionAsks before + 1 ∧
      (∀ earlier round later, before = earlier ++ .correctionAsked round :: later →
        ∀ saved, .checkpointSaved saved ∈ earlier → ¬saved.Answered) ∧
      (∀ earlier taskId later, before = earlier ++ .taskStarted taskId :: later →
        ∀ saved, .checkpointSaved saved ∈ earlier → taskId ∉ saved.completedTaskIds) ∧
      ∀ more, engine.run (limits.maxReplans + 1 + more) (engine.life rounds invocations w) =
        engine.run (limits.maxReplans + 1) (engine.life rounds invocations w) := by
  have hlife := sound_life engine rounds w hnew invocations
  have hinvoked := invoked_run engine rounds (engine.life rounds invocations w) hlife.1
  have hlast := hlife.1.acceptedAtLast_le
  have hnext := hinvoked.sound.acceptedAtLast_le
  have hcounted := hinvoked.counted
  refine ⟨by omega, ?_, hlife.1.revisions, fun saved hsaved => ?_, hinvoked.once, hlife.1.silent,
    hlife.1.fresh, run_enough engine hlife.1⟩
  · show executions ((engine.run rounds).after _).journal + _ ≤ _
    omega
  · have hwithin := hlife.1.within saved hsaved
    exact ⟨hwithin.rounds, hwithin.accepted⟩

/-- A run of one task within one replan, invoked twice. -/
theorem run_loop_bounded_solo :
    executions ((soloEngine 0 fun _ => pure ⟨⟩).life 1 2 ⟨[], ()⟩).journal ≤ 0 + 2 :=
  (run_loop_bounded (soloEngine 0 fun _ => pure ⟨⟩) 1 ⟨[], ()⟩ rfl 2).1

end Life

def soloClaim : EvidenceReference where
  claimId := ['c']
  sourceId := "source".toList
  runId := []
  taskId := "collect".toList
  entity := []
  field := []
  geography := none
  market := none
  timeScope := []
  value := .null
  unit := none
  locator := none
  sourceVersion := none
  identity := []
  confidence := ⟨false, 1, 0, PyFloat.normal_one⟩
  supported := true
  named := by decide

/-- A checkpoint whose only task is completed. -/
def soloCheckpoint : RunState :=
  { blankState with
    approvedPlan := some (soloPlan 1).toCommanderPlan
    completedTaskIds := ["collect"]
    taskOutputs := ⟨[("collect", [])], by decide⟩
    evidenceReferences := [soloClaim] }

/-- The process ends when the declined correction is announced. -/
def cutOffWhenDeclined (kind : String) : Action Unit RunFault PUnit :=
  if kind = "correction_round_declined" then Action.raise .infrastructure else pure ⟨⟩


/-- A second invocation executes the graph again, and asks again for a correction whose refusal was
    not checkpointed. -/
theorem run_loop_unbounded_resumed :
    executions ((soloEngine 0 fun _ => pure ⟨⟩).life 1 2 ⟨[], ()⟩).journal = 0 + 2 ∧
      correctionAsks ((soloEngine 1 cutOffWhenDeclined).life 2 2
        ⟨[.checkpointSaved soloCheckpoint], ()⟩).journal = 2 := by
  constructor
  · decide +kernel
  · decide +kernel

end Milo.Swarm
