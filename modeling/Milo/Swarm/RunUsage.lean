import Milo.Swarm.RunLoop

/-!
# RunUsage — what the parts of a run add to its journal

Every capability, worker, verifier batch and Commander decision adds guarded calls, agent steps and
checkpoints to the journal and nothing else.  A bound on the calls of a part is a graded relation,
so the bound of a sequence is the sum of the bounds along it.
-/

namespace Milo.Swarm

open Milo.Python Milo.Reasoning

/-! ## 1. Events -/

namespace RunEvent

def isCall : RunEvent → Bool
  | .gatewayCall _ => true
  | _ => false

def isStep : RunEvent → Bool
  | .agentStep _ => true
  | _ => false

def isCheck : RunEvent → Bool
  | .feasibilityChecked _ _ _ => true
  | _ => false

/-- Calls, steps and checkpoints: what any part of a run may add. -/
def isMinor : RunEvent → Bool
  | .gatewayCall _ => true
  | .agentStep _ => true
  | .checkpointSaved _ => true
  | _ => false

end RunEvent

/-- The guarded gateway calls of a stretch of the journal. -/
def gatewayCalls (events : List RunEvent) : ℕ := events.countP RunEvent.isCall

/-- The agent steps it records. -/
def agentSteps (events : List RunEvent) : ℕ := events.countP RunEvent.isStep

theorem gatewayCalls_append (a b : List RunEvent) :
    gatewayCalls (a ++ b) = gatewayCalls a + gatewayCalls b := List.countP_append

theorem agentSteps_append (a b : List RunEvent) :
    agentSteps (a ++ b) = agentSteps a + agentSteps b := List.countP_append

/-! ## 2. Calls in the world -/

variable {Y : Type}

/-- From `w` to `w'` only calls and steps were added, at most so many of each. -/
structure Added (bound : ℕ × ℕ) (w w' : World Y) : Prop where
  added : ∃ events, w'.journal = w.journal ++ events ∧
    (∀ event ∈ events, event.isCall = true ∨ event.isStep = true) ∧
    gatewayCalls events ≤ bound.1 ∧ agentSteps events ≤ bound.2

theorem added_graded : Graded (Added (Y := Y)) where
  refl := fun w => ⟨[], (List.append_nil _).symm, by simp, Nat.zero_le _, Nat.zero_le _⟩
  trans := by
    rintro k l w w' w'' ⟨e, hj, hkind, hcalls, hsteps⟩ ⟨e', hj', hkind', hcalls', hsteps'⟩
    refine ⟨e ++ e', ?_, ?_, ?_, ?_⟩
    · rw [hj', hj, List.append_assoc]
    · intro event he
      rcases List.mem_append.mp he with he | he
      · exact hkind event he
      · exact hkind' event he
    · rw [gatewayCalls_append]
      exact Nat.add_le_add hcalls hcalls'
    · rw [agentSteps_append]
      exact Nat.add_le_add hsteps hsteps'
  mono := by
    rintro k l w w' hle ⟨e, hj, hkind, hcalls, hsteps⟩
    exact ⟨e, hj, hkind, hcalls.trans hle.1, hsteps.trans hle.2⟩

theorem added_record {event : RunEvent} {ε : Type} (h : event.isCall = true ∨ event.isStep = true) :
    Action.Spends (Added (Y := Y)) (gatewayCalls [event], agentSteps [event])
      (World.record event : Action (World Y) ε PUnit) := by
  intro w
  refine ⟨[event], rfl, ?_, le_rfl, le_rfl⟩
  intro e he
  rw [List.mem_singleton.mp he]
  exact h

/-- At most `k` calls, and no more steps than that. -/
def Called (k : ℕ) (w w' : World Y) : Prop := Added (k, k) w w'

theorem called_graded : Graded (Called (Y := Y)) where
  refl := added_graded.refl
  trans := fun h h' => added_graded.trans h h'
  mono := fun hle h => added_graded.mono ⟨hle, hle⟩ h

section World

variable {ε α β : Type}

/-- A capability of the surroundings adds nothing to the journal. -/
theorem called_lift (c : Action Y ε α) : Action.Spends Called 0 (World.lift c) :=
  fun _ => ⟨[], (List.append_nil _).symm, by simp, Nat.zero_le _, Nat.zero_le _⟩

theorem called_pure (a : α) : Action.Spends Called 0 (pure a : Action (World Y) ε α) :=
  Action.spends_pure called_graded a

theorem called_raise (e : ε) : Action.Spends Called 0 (Action.raise e : Action (World Y) ε α) :=
  Action.spends_raise called_graded e

variable {c : Action (World Y) ε α} {f : α → Action (World Y) ε β}

theorem called_then {k : ℕ} (hc : Action.Spends Called 0 c) (hf : ∀ a, Action.Spends Called k (f a)) :
    Action.Spends Called k (c >>= f) :=
  Action.spends_bind_free called_graded hc hf (Nat.zero_le k)

theorem called_bind {k l : ℕ} (hc : Action.Spends Called k c) (hf : ∀ a, Action.Spends Called l (f a)) :
    Action.Spends Called (k + l) (c >>= f) :=
  Action.spends_bind called_graded hc hf (Nat.le_add_right k l)

theorem called_last {k : ℕ} (hc : Action.Spends Called k c) (hf : ∀ a, Action.Spends Called 0 (f a)) :
    Action.Spends Called k (c >>= f) :=
  Action.spends_free_after called_graded hc hf

end World

/-! ## 3. The gateway, the worker and the Commander -/

theorem called_checkCancelled (gateway : Gateway Y) :
    Action.Spends Called 0 gateway.checkCancelled :=
  called_then (called_lift _) fun _ => Action.spends_ofExcept called_graded _

/-- A call records the call and its step, before anything is sent. -/
theorem called_gateway (gateway : Gateway Y) (role : Role) (request : Text) (shape : CallShape) :
    Action.Spends Called 1 (gateway.call role request shape) := by
  have hsent : Action.Spends (Added (Y := Y)) 0 (do
      World.lift (gateway.agentStep role)
      World.lift (gateway.dispatch role request shape)) :=
    called_then (called_lift _) fun _ => called_lift _
  have hcounted := Action.spends_free_after added_graded
    (@added_record Y (.agentStep role) RunFault (Or.inr rfl)) fun _ => hsent
  have hguarded := Action.spends_bind_free added_graded (called_checkCancelled gateway)
    (fun _ => hcounted) ⟨Nat.zero_le _, Nat.zero_le _⟩
  exact Action.spends_bind added_graded (@added_record Y (.gatewayCall role) RunFault (Or.inl rfl))
    (fun _ => hguarded) ⟨Nat.le_add_right _ _, Nat.le_add_right _ _⟩

section Worker

variable (worker : Worker Y) (gateway : Gateway Y) (task : PlannedTask)

theorem called_attempt (request : Option String → Text) (repairReason : Option String)
    (shape : CallShape) :
    Action.Spends Called 1 (worker.attempt gateway task request repairReason shape) := by
  have hrepair : Action.Spends Called 0 (worker.beginRepair gateway task.taskId repairReason) := by
    cases repairReason with
    | none => exact called_pure _
    | some reason =>
      exact called_then (called_checkCancelled gateway) fun _ =>
        called_then (called_lift _) fun _ => called_lift _
  exact called_then hrepair fun _ =>
    called_last (called_gateway gateway _ _ _) fun _ => called_pure _

/-- One call for the first attempt and one for each repair. -/
theorem called_resolveAttempts (request : Option String → Text) :
    ∀ (left : ℕ) (repairReason : Option String) (shape : CallShape),
      Action.Spends Called (left + 1)
        (worker.resolveAttempts gateway task request left repairReason shape) := by
  intro left
  induction left with
  | zero =>
    intro repairReason shape
    apply called_last (called_attempt worker gateway task request repairReason shape)
    intro attempt
    cases attempt with
    | done output => exact called_pure _
    | failed fault repair => exact called_raise _
  | succ left ih =>
    intro repairReason shape
    rw [Nat.add_comm (left + 1) 1]
    apply called_bind (called_attempt worker gateway task request repairReason shape)
    intro attempt
    cases attempt with
    | done output => exact (called_pure _).mono called_graded (Nat.zero_le _)
    | failed fault repair =>
      cases repair with
      | none => exact (called_raise _).mono called_graded (Nat.zero_le _)
      | some repair => exact ih (some repair.1) repair.2

theorem called_deterministicOutput (produce : Action Y RunFault ResponseContent) :
    Action.Spends Called 0 (worker.deterministicOutput task produce) := by
  apply called_then (called_lift produce).attempt
  intro produced
  cases produced with
  | error fault => exact called_raise _
  | ok content =>
    dsimp only
    split
    · exact called_pure _
    · exact called_raise _

theorem called_resolveOutput (dependencyOutputs : DependencyOutputs) (toolOutputs : Json) :
    Action.Spends Called maxWorkerOutputModelAttempts
      (worker.resolveOutput gateway task dependencyOutputs toolOutputs) := by
  unfold Worker.resolveOutput
  split
  · exact (called_deterministicOutput worker task _).mono called_graded (Nat.zero_le _)
  · exact called_resolveAttempts worker gateway task _ _ _ _

theorem called_execute (dependencyOutputs : DependencyOutputs) :
    Action.Spends Called maxWorkerOutputModelAttempts
      (worker.execute gateway task dependencyOutputs) := by
  have hperform : Action.Spends Called maxWorkerOutputModelAttempts
      (worker.perform gateway task dependencyOutputs) :=
    called_then (called_checkCancelled gateway) fun _ => called_then (called_lift _) fun _ =>
      called_then (called_checkCancelled gateway) fun _ =>
        called_last (called_resolveOutput worker gateway task _ _) fun _ => called_pure _
  apply called_last hperform.attempt
  intro outcome
  cases outcome with
  | ok answer => exact called_pure _
  | error fault =>
    dsimp only
    split
    · exact called_pure _
    · exact called_pure _

/-- The result a future holds is a result of its own task. -/
theorem execute_named {dependencyOutputs : DependencyOutputs} {w : World Y}
    {result : TaskResult TaskAnswer}
    (h : (worker.execute gateway task dependencyOutputs).result w = .ok (.ok result)) :
    result.taskId = task.taskId := by
  rcases Action.result_bind_eq_ok.mp h with ⟨outcome, _, h⟩
  cases outcome with
  | ok answer =>
    cases h
    rfl
  | error fault =>
    cases hfault : fault.taskError with
    | none =>
      simp only [hfault] at h
      cases h
    | some error =>
      simp only [hfault] at h
      cases h
      rfl

end Worker

section Commander

variable {limits : PlanLimits} (commander : Commander limits Y) (gateway : Gateway Y)

theorem called_replan : Action.Spends Called 1 (commander.replan gateway) :=
  called_last ((called_gateway gateway _ _ _).mapError _) fun _ =>
    Action.spends_ofExcept called_graded _

theorem called_planAttempt (repairReason : Option String) (shape : CallShape) :
    Action.Spends Called 1 (commander.planAttempt gateway repairReason shape) :=
  called_last ((called_gateway gateway _ _ _).mapError _) fun _ => called_pure _

theorem called_plan : Action.Spends Called (1 + maxCommanderPlanRepairs)
    (commander.plan gateway) := by
  apply called_bind (called_planAttempt commander gateway none commander.planningShape)
  intro answer
  match answer with
  | .ok plan => exact (called_pure _).mono called_graded (Nat.zero_le _)
  | .error ⟨code, none⟩ => exact (called_raise _).mono called_graded (Nat.zero_le _)
  | .error ⟨_, some (reason, shape)⟩ =>
    apply called_then (called_lift _)
    intro _
    apply called_last (called_planAttempt commander gateway (some reason) shape)
    intro again
    cases again with
    | ok plan => exact called_pure _
    | error failure => exact called_raise _

end Commander

/-! ## 4. Quiet stretches of a run -/

/-- The part of the run state that executing, replanning and correcting move. -/
structure SameProgress (s s' : RunState) : Prop where
  completedTaskIds : s'.completedTaskIds = s.completedTaskIds
  taskOutputs : s'.taskOutputs = s.taskOutputs
  replans : s'.replans = s.replans
  correctionRounds : s'.correctionRounds = s.correctionRounds
  correctionDeclined : s'.correctionDeclined = s.correctionDeclined
  graphRevision : s'.graphRevision = s.graphRevision

theorem SameProgress.refl (s : RunState) : SameProgress s s := ⟨rfl, rfl, rfl, rfl, rfl, rfl⟩

theorem SameProgress.trans {a b c : RunState} (h : SameProgress a b) (h' : SameProgress b c) :
    SameProgress a c where
  completedTaskIds := h'.completedTaskIds.trans h.completedTaskIds
  taskOutputs := h'.taskOutputs.trans h.taskOutputs
  replans := h'.replans.trans h.replans
  correctionRounds := h'.correctionRounds.trans h.correctionRounds
  correctionDeclined := h'.correctionDeclined.trans h.correctionDeclined
  graphRevision := h'.graphRevision.trans h.graphRevision

/-- At most `k` calls, nothing but calls, steps and checkpoints, and no progress made. -/
structure Quiet (k : ℕ) (s s' : RunState × World Y) : Prop where
  progress : SameProgress s.1 s'.1
  added : ∃ events, s'.2.journal = s.2.journal ++ events ∧
    (∀ event ∈ events, event.isMinor = true) ∧
    (∀ saved, .checkpointSaved saved ∈ events → SameProgress s.1 saved) ∧
    gatewayCalls events ≤ k ∧ agentSteps events ≤ k

theorem quiet_graded : Graded (Quiet (Y := Y)) where
  refl := fun s => ⟨SameProgress.refl s.1, [], (List.append_nil _).symm, by simp, by simp,
    Nat.zero_le _, Nat.zero_le _⟩
  trans := by
    rintro k l a b c ⟨hsame, e, hj, hminor, hsaved, hcalls, hsteps⟩
      ⟨hsame', e', hj', hminor', hsaved', hcalls', hsteps'⟩
    refine ⟨hsame.trans hsame', e ++ e', ?_, ?_, ?_, ?_, ?_⟩
    · rw [hj', hj, List.append_assoc]
    · intro event he
      rcases List.mem_append.mp he with he | he
      · exact hminor event he
      · exact hminor' event he
    · intro saved he
      rcases List.mem_append.mp he with he | he
      · exact hsaved saved he
      · exact hsame.trans (hsaved' saved he)
    · rw [gatewayCalls_append]
      exact Nat.add_le_add hcalls hcalls'
    · rw [agentSteps_append]
      exact Nat.add_le_add hsteps hsteps'
  mono := by
    rintro k l a b hle ⟨hsame, e, hj, hminor, hsaved, hcalls, hsteps⟩
    exact ⟨hsame, e, hj, hminor, hsaved, hcalls.trans hle, hsteps.trans hle⟩

theorem Called.quiet {k : ℕ} {state : RunState} {w w' : World Y} (h : Called k w w') :
    Quiet k (state, w) (state, w') := by
  rcases h with ⟨e, hj, hkind, hcalls, hsteps⟩
  refine ⟨SameProgress.refl state, e, hj, ?_, ?_, hcalls, hsteps⟩
  · intro event he
    cases event with
    | gatewayCall role => rfl
    | agentStep role => rfl
    | _ => exact absurd (hkind _ he) (by simp [RunEvent.isCall, RunEvent.isStep])
  · intro saved he
    exact absurd (hkind _ he) (by simp [RunEvent.isCall, RunEvent.isStep])

section Run

variable {α β : Type}

theorem quiet_outside {k : ℕ} {c : Action (World Y) RunFault α} (hc : Action.Spends Called k c) :
    Action.Spends Quiet k (Action.outside c : RunM Y α) := fun s => (hc s.2).quiet

theorem quiet_call (c : Action Y RunFault α) : Action.Spends Quiet 0 (RunEngine.call c) :=
  quiet_outside (called_lift c)

theorem quiet_pure (a : α) : Action.Spends Quiet 0 (pure a : RunM Y α) :=
  Action.spends_pure quiet_graded a

theorem quiet_raise (e : RunFault) : Action.Spends Quiet 0 (Action.raise e : RunM Y α) :=
  Action.spends_raise quiet_graded e

theorem quiet_current : Action.Spends Quiet 0 (RunEngine.current : RunM Y RunState) :=
  fun s => quiet_graded.refl s

theorem quiet_update {f : RunState → RunState} (h : ∀ state, SameProgress state (f state)) :
    Action.Spends Quiet 0 (RunEngine.update f : RunM Y PUnit) :=
  fun s => ⟨h s.1, [], (List.append_nil _).symm, by simp, by simp, Nat.zero_le _, Nat.zero_le _⟩

theorem quiet_then {k : ℕ} {c : RunM Y α} {f : α → RunM Y β} (hc : Action.Spends Quiet 0 c)
    (hf : ∀ a, Action.Spends Quiet k (f a)) : Action.Spends Quiet k (c >>= f) :=
  Action.spends_bind_free quiet_graded hc hf (Nat.zero_le k)

end Run

section Engine

variable {limits : PlanLimits} (engine : RunEngine limits Y)

/-- Saving either adds the checkpoint or raises with nothing added. -/
theorem saveCheckpoint_spec (state : RunState) (w : World Y) :
    (engine.saveCheckpoint state).Ensures w fun r w' =>
      w'.journal = w.journal ++ [.checkpointSaved state] ∨
        w'.journal = w.journal ∧ ∃ fault, r = .error fault := by
  have hlift : (World.lift (engine.save state)).Ensures w fun _ w' => w'.journal = w.journal := rfl
  apply hlift.bind
  · intro reply w' hj
    refine Or.inl ?_
    cases reply with
    | stored =>
      show w'.journal ++ [.checkpointSaved state] = _
      rw [hj]
    | storedThenRaised fault =>
      show w'.journal ++ [.checkpointSaved state] = _
      rw [hj]
  · exact fun fault w' hj => Or.inr ⟨hj, fault, rfl⟩

theorem quiet_saved {base : RunState} {state : RunState} (h : SameProgress base state)
    (w : World Y) : Quiet 0 (base, w) (base, (engine.saveCheckpoint state).after w) := by
  rcases saveCheckpoint_spec engine state w with hj | ⟨hj, -⟩
  · refine ⟨SameProgress.refl base, [.checkpointSaved state], hj, ?_, ?_, Nat.le_refl 0,
      Nat.le_refl 0⟩
    · intro event he
      rw [List.mem_singleton.mp he]
      rfl
    · intro saved he
      cases List.mem_singleton.mp he
      exact h
  · exact ⟨SameProgress.refl base, [], hj.trans (List.append_nil _).symm, by simp, by simp,
      Nat.le_refl 0, Nat.le_refl 0⟩

theorem quiet_saveState : Action.Spends Quiet 0 engine.saveState :=
  fun s => quiet_saved engine (SameProgress.refl s.1) s.2

theorem quiet_refreshUsage : Action.Spends Quiet 0 engine.refreshUsage :=
  quiet_then (quiet_call _) fun _ => quiet_update fun _ => ⟨rfl, rfl, rfl, rfl, rfl, rfl⟩

theorem quiet_emitAll (kind : String) : ∀ n, Action.Spends Quiet 0 (engine.emitAll kind n) := by
  intro n
  induction n with
  | zero => exact quiet_pure _
  | succ n ih => exact quiet_then (quiet_call _) fun _ => ih

theorem quiet_mergeEvidence (incoming : List EvidenceReference) (completed : List String) :
    Action.Spends Quiet 0 (engine.mergeEvidence incoming completed) :=
  quiet_then quiet_current fun _ => quiet_then (Action.spends_ofExcept quiet_graded _) fun _ =>
    quiet_then (quiet_update fun _ => ⟨rfl, rfl, rfl, rfl, rfl, rfl⟩) fun _ => quiet_pure _

theorem quiet_consumeFailures (failed : List String) :
    Action.Spends Quiet 0 (engine.consumeFailures failed) := by
  induction failed with
  | nil => exact quiet_pure _
  | cons taskId rest ih => exact quiet_then (quiet_call _) fun _ => ih

theorem sameProgress_degradeStep (step code : String) (state : RunState) :
    SameProgress state (RunEngine.degradeStep step code state) := by
  unfold RunEngine.degradeStep
  dsimp only
  split
  · exact SameProgress.refl state
  · exact ⟨rfl, rfl, rfl, rfl, rfl, rfl⟩

theorem quiet_guarded {α : Type} (step code : String) (evidence : List EvidenceReference)
    (fallback value : α) :
    Action.Spends Quiet 0 (engine.guarded step code evidence fallback value) := by
  apply quiet_then (quiet_call _).attempt
  intro outcome
  cases outcome with
  | ok _ => exact quiet_pure _
  | error fault =>
    apply Action.spends_ite (quiet_raise _)
    exact quiet_then (quiet_update (sameProgress_degradeStep step code)) fun _ => quiet_pure _

theorem quiet_assess (plan : AcceptedPlan limits) (results : Results TaskAnswer) :
    Action.Spends Quiet 0 (engine.assess plan results) :=
  quiet_then (quiet_call _) fun _ => quiet_then (quiet_mergeEvidence engine _ _) fun _ =>
    quiet_then (quiet_emitAll engine _ _) fun _ => quiet_then (quiet_guarded engine _ _ _ _ _)
      fun _ => quiet_then (quiet_emitAll engine _ _) fun _ => quiet_then quiet_current fun _ =>
        quiet_then (quiet_guarded engine _ _ _ _ _) fun _ => quiet_then (quiet_call _) fun _ =>
          quiet_pure _

theorem quiet_refuseHardFailure (plan : AcceptedPlan limits) (findings : RunEngine.Findings) :
    Action.Spends Quiet 0 (RunEngine.refuseHardFailure plan findings : RunM Y PUnit) := by
  unfold RunEngine.refuseHardFailure
  split
  · exact Action.spends_ite (quiet_raise _) (quiet_pure _)
  · exact quiet_pure _

theorem quiet_finish (plan : AcceptedPlan limits) (findings : RunEngine.Findings)
    (verdicts : List VerificationVerdict) :
    Action.Spends Quiet 0 (engine.finish plan findings verdicts) := by
  apply quiet_then quiet_current
  intro _
  apply quiet_then (quiet_guarded engine _ _ _ _ _)
  intro outcomes
  apply quiet_then quiet_current
  intro state
  cases engine.build state verdicts outcomes with
  | ok final => exact quiet_pure _
  | error fault =>
    apply Action.spends_ite (quiet_raise _)
    apply quiet_then (quiet_update (sameProgress_degradeStep _ _))
    intro _
    apply quiet_then quiet_current
    intro state
    cases engine.build state verdicts [] with
    | ok final => exact quiet_pure _
    | error fault =>
      apply Action.spends_ite (quiet_raise _)
      cases engine.buildReduced state with
      | ok final => exact quiet_pure _
      | error fault => exact Action.spends_ite (quiet_raise _) (quiet_pure _)

end Engine

/-! ## 5. The verification step -/

section Verification

variable {limits : PlanLimits} (engine : RunEngine limits Y) (base : RunState) {α β : Type}

/-- The run state with its verification part put back. -/
def withPart (part : SwarmState × World Y) : RunState × World Y :=
  ({ base with toSwarmState := part.1 }, part.2)

/-- A quiet stretch, seen on the part of the state that verification works on. -/
def QuietPart (k : ℕ) (part part' : SwarmState × World Y) : Prop :=
  Quiet k (withPart base part) (withPart base part')

theorem quietPart_graded : Graded (QuietPart (Y := Y) base) where
  refl := fun part => quiet_graded.refl (withPart base part)
  trans := fun h h' => quiet_graded.trans h h'
  mono := fun hle h => quiet_graded.mono hle h

theorem part_then {k : ℕ} {c : Step (World Y) α} {f : α → Step (World Y) β}
    (hc : Action.Spends (QuietPart base) 0 c) (hf : ∀ a, Action.Spends (QuietPart base) k (f a)) :
    Action.Spends (QuietPart base) k (c >>= f) :=
  Action.spends_bind_free (quietPart_graded base) hc hf (Nat.zero_le k)

theorem part_bind {k l : ℕ} {c : Step (World Y) α} {f : α → Step (World Y) β}
    (hc : Action.Spends (QuietPart base) k c) (hf : ∀ a, Action.Spends (QuietPart base) l (f a)) :
    Action.Spends (QuietPart base) (k + l) (c >>= f) :=
  Action.spends_bind (quietPart_graded base) hc hf (Nat.le_add_right k l)

theorem part_pure (a : α) : Action.Spends (QuietPart base) 0 (pure a : Step (World Y) α) :=
  Action.spends_pure (quietPart_graded base) a

theorem part_raise (e : Failure) :
    Action.Spends (QuietPart base) 0 (Action.raise e : Step (World Y) α) :=
  Action.spends_raise (quietPart_graded base) e

theorem part_ofExcept (r : Except Failure α) :
    Action.Spends (QuietPart base) 0 (Action.ofExcept r : Step (World Y) α) :=
  Action.spends_ofExcept (quietPart_graded base) r

theorem part_outside {k : ℕ} {c : Action (World Y) Failure α} (hc : Action.Spends Called k c) :
    Action.Spends (QuietPart base) k (Action.outside c : Step (World Y) α) :=
  fun part => (hc part.2).quiet

theorem part_runState :
    Action.Spends (QuietPart base) 0 (Engine.runState : Step (World Y) SwarmState) :=
  fun part => (quietPart_graded base).refl part

theorem part_update {f : SwarmState → SwarmState}
    (h : ∀ state, (f state).graphRevision = state.graphRevision) :
    Action.Spends (QuietPart base) 0 (Engine.update f : Step (World Y) PUnit) :=
  fun part => ⟨⟨rfl, rfl, rfl, rfl, rfl, h part.1⟩, [], (List.append_nil _).symm, by simp, by simp,
    Nat.zero_le _, Nat.zero_le _⟩

theorem part_saveState :
    Action.Spends (QuietPart base) 0 (engine.verificationEngine base).saveState := by
  intro part
  have h := quiet_saved engine (SameProgress.refl (withPart base part).1) part.2
  exact h

theorem part_refreshUsage :
    Action.Spends (QuietPart base) 0 (engine.verificationEngine base).refreshUsage :=
  part_then base (part_outside base ((called_lift _).mapError _)) fun _ =>
    part_update base fun _ => rfl

theorem part_persistVerdicts (verdicts : List VerificationVerdict) :
    Action.Spends (QuietPart base) 0
      ((engine.verificationEngine base).persistVerdicts verdicts) := by
  induction verdicts with
  | nil => exact part_pure base _
  | cons verdict rest ih =>
    exact part_then base (part_outside base ((called_lift _).mapError _)) fun _ => ih

theorem part_announceResolutions (resolutions : List ConflictResolution) :
    Action.Spends (QuietPart base) 0
      ((engine.verificationEngine base).announceResolutions resolutions) := by
  induction resolutions with
  | nil => exact part_pure base _
  | cons resolution rest ih =>
    apply part_then base (part_outside base ((called_lift _).mapError _))
    intro _
    exact part_then base (part_outside base ((called_lift _).mapError _)) fun _ => ih

theorem graphRevision_storeVerdicts (verdicts : List VerificationVerdict) :
    ∀ state : SwarmState,
      (verdicts.foldl SwarmState.storeVerdict state).graphRevision = state.graphRevision := by
  induction verdicts with
  | nil => exact fun _ => rfl
  | cons verdict rest ih => exact fun state => ih (state.storeVerdict verdict)

theorem part_record (progress : VerifierProgress) :
    Action.Spends (QuietPart base) 0 ((engine.verificationEngine base).record progress) := by
  apply part_then base (part_update base (graphRevision_storeVerdicts progress.verdicts))
  intro _
  apply part_then base (part_persistVerdicts engine base _)
  intro _
  apply part_then base (part_refreshUsage engine base)
  intro _
  apply part_then base (part_saveState engine base)
  intro _
  exact Action.spends_ite (part_outside base ((called_lift _).mapError _)) (part_pure base _)

/-- One batch costs a call and at most one escalated repair. -/
theorem part_verifyBatch (batch : List GroundedCandidate) :
    Action.Spends (QuietPart base) 2
      ((engine.verificationEngine base).stepVerifier.verifyBatch batch) := by
  have hcall : ∀ payload shape, Action.Spends (QuietPart base) 1
      ((engine.verificationEngine base).stepVerifier.call payload shape) := fun payload shape =>
    part_outside base ((called_gateway engine.gateway _ payload shape).mapError _)
  have hagain : ∀ payload shape, Action.Spends (QuietPart base) 1
      ((engine.verificationEngine base).stepVerifier.askAgain payload shape) := by
    intro payload shape
    apply Action.spends_free_after (quietPart_graded base) (hcall payload shape)
    intro reply
    cases reply with
    | answer content => exact part_pure base _
    | shapeInvalid => exact part_raise base _
    | failed code => exact part_raise base _
  have hask : ∀ payload, Action.Spends (QuietPart base) 2
      ((engine.verificationEngine base).stepVerifier.ask payload) := by
    intro payload
    apply part_bind (k := 1) (l := 1) base (hcall payload _)
    intro reply
    cases reply with
    | answer content => exact (part_pure base _).mono (quietPart_graded base) (Nat.zero_le 1)
    | shapeInvalid => exact (part_raise base _).mono (quietPart_graded base) (Nat.zero_le 1)
    | failed code =>
      dsimp only
      split
      · exact (part_raise base _).mono (quietPart_graded base) (Nat.zero_le 1)
      · exact part_then base (part_outside base ((called_lift _).mapError _)) fun _ => hagain _ _
  apply Action.spends_free_after (quietPart_graded base) (hask _)
  intro content
  apply part_then base (part_ofExcept base _)
  intro resolved
  exact part_then base (part_ofExcept base _) fun _ => part_pure base _

theorem part_runBatches (count : ℕ) : ∀ (batches : List (List GroundedCandidate)) (index : ℕ),
    Action.Spends (QuietPart base) (2 * batches.length)
      ((engine.verificationEngine base).stepVerifier.runBatches
        (engine.verificationEngine base).record count batches index) := by
  intro batches
  induction batches with
  | nil => exact fun index => part_pure base _
  | cons batch rest ih =>
    intro index
    rw [List.length_cons, Nat.mul_add, Nat.mul_one, Nat.add_comm]
    apply part_bind base (part_verifyBatch engine base batch)
    intro resolved
    apply part_then base (part_record engine base _)
    intro _
    exact Action.spends_free_after (quietPart_graded base) (ih (index + 1)) fun _ =>
      part_pure base _

/-- A pass costs at most two calls for each batch of its plan. -/
theorem part_executePass (plan : GroundedVerificationPlan) :
    Action.Spends (QuietPart base) (2 * plan.batches.length)
      ((engine.verificationEngine base).executePass plan) := by
  have hannounce : Action.Spends (QuietPart base) 0
      (Verifier.announce (engine.verificationEngine base).record plan) :=
    Action.spends_ite (part_pure base _) (part_record engine base _)
  have hprepared : Action.Spends (QuietPart base) (2 * plan.batches.length)
      ((engine.verificationEngine base).stepVerifier.verifyPrepared
        (engine.verificationEngine base).record plan) :=
    part_then base hannounce fun _ => Action.spends_free_after (quietPart_graded base)
      (part_runBatches engine base _ _ _) fun _ => part_pure base _
  apply part_then base (part_update (f := fun state => state.commit plan) base fun _ => rfl)
  intro _
  apply part_then base (part_announceResolutions engine base _)
  intro _
  apply part_then base (part_outside base ((called_lift _).mapError _))
  intro _
  apply Action.spends_free_after (quietPart_graded base) hprepared
  intro verdicts
  apply part_then base (part_update (f := fun state => state.complete verdicts) base fun _ => rfl)
  intro _
  apply part_then base (part_persistVerdicts engine base _)
  intro _
  apply part_then base (part_refreshUsage engine base)
  intro _
  apply part_then base (part_outside base ((called_lift _).mapError _))
  intro _
  exact part_then base (part_saveState engine base) fun _ => part_pure base _

theorem part_preparePass (evidence : List EvidenceReference) (conflictIds : List Text) :
    Action.Spends (QuietPart base) 0
      ((engine.verificationEngine base).preparePass evidence conflictIds) := by
  have hresolve : ∀ pending, Action.Spends (Called (Y := Y)) 0
      (resolvePending (engine.verificationEngine base).verifier.resolve pending) := by
    intro pending
    cases pending with
    | nil => exact called_pure _
    | cons first rest =>
      exact called_then ((called_lift _).mapError _) fun _ =>
        Action.spends_ofExcept called_graded _
  have hprepare : ∀ existing version, Action.Spends (Called (Y := Y)) 0
      ((engine.verificationEngine base).verifier.prepare evidence conflictIds existing version) :=
    fun existing version => called_then (Action.spends_ofExcept called_graded _) fun _ =>
      called_then (Action.spends_ofExcept called_graded _) fun _ =>
        called_then (hresolve _) fun _ => Action.spends_ofExcept called_graded _
  have hremaining : Action.Spends (Called (Y := Y)) 0
      (engine.verificationEngine base).remainingModelCalls :=
    Action.Spends.mapError (called_then (called_lift _) fun _ => called_pure _) _
  apply part_then base (part_runState base)
  intro state
  apply part_then base (part_outside base (hprepare _ _))
  intro plan
  apply part_then base (part_outside base hremaining)
  intro calls
  exact part_then base (part_ofExcept base _) fun _ => part_pure base _

theorem part_degradeAndSettle (code : DegradedCode) (evidence : List EvidenceReference) :
    Action.Spends (QuietPart base) 0
      ((engine.verificationEngine base).degradeAndSettle code evidence) := by
  have hdegrade : ∀ state : SwarmState, (state.degrade code).graphRevision = state.graphRevision := by
    intro state
    unfold SwarmState.degrade
    dsimp only
    split
    · rfl
    · rfl
  apply part_then base (part_update base hdegrade)
  intro _
  apply part_then base (part_runState base)
  intro state
  apply part_then base (part_persistVerdicts engine base _)
  intro _
  apply part_then base (part_refreshUsage engine base)
  intro _
  exact part_then base (part_saveState engine base) fun _ => part_pure base _

end Verification

section VerifyPass

variable {limits : PlanLimits} (engine : RunEngine limits Y) (evidence : List EvidenceReference)
  (conflictIds : List Text) (s : RunState × World Y)

/-- The pass itself costs at most two calls for each batch of its plan. -/
theorem quiet_runVerification (hnew : Engine.alreadyDegraded s.1.toSwarmState = false) :
    QuietPart s.1 (2 * engine.batchCount evidence conflictIds s) (s.1.toSwarmState, s.2)
      (((engine.verificationEngine s.1).runVerification evidence conflictIds).after
        (s.1.toSwarmState, s.2)) := by
  unfold RunEngine.batchCount
  rw [if_neg (by rw [hnew]; decide)]
  have hplanned := part_preparePass engine s.1 evidence conflictIds (s.1.toSwarmState, s.2)
  unfold Engine.runVerification
  rcases Action.after_bind_cases (c := (engine.verificationEngine s.1).preparePass evidence
    conflictIds) (s.1.toSwarmState, s.2) with ⟨⟨e, hresult⟩, hafter⟩ | ⟨plan, hresult, hafter⟩
  · rw [hresult, hafter]
    exact hplanned
  · rw [hresult, hafter]
    have h := (quietPart_graded s.1).trans hplanned (part_executePass engine s.1 plan _)
    rw [Nat.zero_add] at h
    exact h

theorem quietPart_attempt (base : RunState) {β γ : Type} {k : ℕ} {x : SwarmState × World Y}
    {c : Step (World Y) β} {f : Except Failure β → Step (World Y) γ}
    (hrun : QuietPart base k x (c.after x)) (hrest : ∀ outcome, Action.Spends (QuietPart base) 0 (f outcome)) :
    QuietPart base k x ((Action.attempt c >>= f).after x) := by
  have h := (quietPart_graded base).trans hrun (hrest (c.result x) _)
  rw [Nat.add_zero] at h
  exact h

/-- The verification step costs at most two calls for each batch of its pass. -/
theorem quiet_inVerification :
    Quiet (2 * engine.batchCount evidence conflictIds s) s
      ((RunEngine.inVerification
        ((engine.verificationEngine s.1).verifyOrDegrade evidence conflictIds)).after s) := by
  have hpart : QuietPart s.1 (2 * engine.batchCount evidence conflictIds s)
      (s.1.toSwarmState, s.2) (((engine.verificationEngine s.1).verifyOrDegrade evidence
        conflictIds).after (s.1.toSwarmState, s.2)) := by
    unfold Engine.verifyOrDegrade
    show QuietPart s.1 _ _ (Action.after (if Engine.alreadyDegraded s.1.toSwarmState = true then _
      else (engine.verificationEngine s.1).attemptPass evidence conflictIds) _)
    cases hnew : Engine.alreadyDegraded s.1.toSwarmState with
    | true =>
      rw [if_pos rfl]
      exact (quietPart_graded s.1).mono (Nat.zero_le _) ((quietPart_graded s.1).refl _)
    | false =>
      rw [if_neg (by decide)]
      apply quietPart_attempt s.1 (quiet_runVerification engine evidence conflictIds s hnew)
      intro outcome
      cases outcome with
      | ok answer => exact part_pure s.1 _
      | error failure =>
        dsimp only
        split
        · exact part_raise s.1 _
        · exact part_degradeAndSettle engine s.1 _ evidence
  exact hpart

end VerifyPass

/-! ## 6. Planning -/

section Planning

variable {limits : PlanLimits} (engine : RunEngine limits Y)

/-- The state of a run before it has a plan. -/
def blankState : RunState where
  graphRevision := 1
  verifierState := Dict.empty
  verifierGroundingVersion := 0
  verifierContractVersion := ""
  conflictResolutions := []
  degradedSteps := []
  usageSnapshot := []
  runId := []
  approvedPlan := none
  completedTaskIds := []
  taskOutputs := Dict.empty
  taskResolutions := Dict.empty
  evidenceReferences := []
  replans := []
  correctionRounds := 0
  correctionDeclined := false

theorem sameProgress_plannedState (plan : AcceptedPlan limits) (usage : List (Text × Json)) :
    SameProgress blankState (engine.plannedState plan usage) := ⟨rfl, rfl, rfl, rfl, rfl, rfl⟩

/-- Planning calls the Commander, and saves a state that has made no progress. -/
theorem quiet_planRun (w : World Y) :
    Quiet (1 + maxCommanderPlanRepairs) (blankState, w) (blankState, engine.planRun.after w) := by
  have hgraded : Graded fun k (w w' : World Y) => Quiet k (blankState, w) (blankState, w') :=
    quiet_graded.pull fun w => (blankState, w)
  have hlift : ∀ {α : Type} (c : Action Y RunFault α),
      Action.Spends (fun k (w w' : World Y) => Quiet k (blankState, w) (blankState, w')) 0
        (World.lift c) := fun c w => (called_lift c w).quiet
  have hplanned : Action.Spends
      (fun k (w w' : World Y) => Quiet k (blankState, w) (blankState, w'))
      (1 + maxCommanderPlanRepairs) engine.planRun := by
    apply Action.spends_bind_free hgraded (hlift _) _ (Nat.zero_le _)
    intro remaining
    apply Action.spends_bind_free hgraded (Action.spends_ofExcept hgraded _) _ (Nat.zero_le _)
    intro _
    apply Action.spends_free_after hgraded
      (fun w => (called_plan engine.commander engine.gateway w).quiet)
    intro plan
    apply Action.spends_bind_free hgraded (hlift _) _ (Nat.zero_le _)
    intro usage
    apply Action.spends_bind_free hgraded (hlift _) _ (Nat.zero_le _)
    intro _
    apply Action.spends_free_after hgraded
      (fun w => quiet_saved engine (sameProgress_plannedState engine plan usage) w)
    intro _
    exact Action.spends_pure hgraded _
  exact hplanned w

theorem planRun_state {w : World Y} {begun : RunState × AcceptedPlan limits}
    (h : engine.planRun.result w = .ok begun) : SameProgress blankState begun.1 := by
  rcases Action.result_bind_eq_ok.mp h with ⟨_, -, h⟩
  rcases Action.result_bind_eq_ok.mp h with ⟨_, -, h⟩
  rcases Action.result_bind_eq_ok.mp h with ⟨plan, -, h⟩
  rcases Action.result_bind_eq_ok.mp h with ⟨usage, -, h⟩
  rcases Action.result_bind_eq_ok.mp h with ⟨_, -, h⟩
  rcases Action.result_bind_eq_ok.mp h with ⟨_, -, h⟩
  cases h
  exact sameProgress_plannedState engine plan usage

end Planning

end Milo.Swarm
