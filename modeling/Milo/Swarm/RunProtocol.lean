import Milo.Swarm.RunUsage

/-!
# RunProtocol — what a run may do, and what holds whatever it does

A run as a protocol: the run state, the journal and the turn of the invocation.  A turn is spent by
executing the graph and won back by a replan whose checkpoint is durable.  Every move says what it
needs, so what holds of the journal of a run is a matter of one case for each move.
-/

namespace Milo.Swarm

open Milo.Python Milo.Reasoning

/-! ## 1. Journals -/

/-- Where an invocation stands. -/
inductive Turn
  /-- The graph may be executed. -/
  | ready
  | executed
  /-- The Commander was asked for a correction. -/
  | asked
  /-- A replan was accepted; its checkpoint may not be durable yet. -/
  | accepted
  deriving DecidableEq, Repr

structure Config where
  state : RunState
  journal : List RunEvent
  turn : Turn

/-- Events that are no start, no execution, no question and no checkpoint. -/
def RunEvent.isPlain : RunEvent → Bool
  | .gatewayCall _ => true
  | .agentStep _ => true
  | .feasibilityChecked _ _ _ => true
  | .batchesPartitioned _ => true
  | _ => false

def RunEvent.isExecution : RunEvent → Bool
  | .graphExecuted _ => true
  | _ => false

def RunEvent.isAsk : RunEvent → Bool
  | .correctionAsked _ => true
  | _ => false

/-- How often the graph was executed. -/
def executions (journal : List RunEvent) : ℕ := journal.countP RunEvent.isExecution

/-- How often the Commander was asked for a correction. -/
def correctionAsks (journal : List RunEvent) : ℕ := journal.countP RunEvent.isAsk

/-- The replans the last checkpoint has accepted. -/
def acceptedAtLast (journal : List RunEvent) : ℕ :=
  ((lastCheckpoint journal).map RunState.acceptedReplans).getD 0

theorem lastCheckpoint_snoc_saved (journal : List RunEvent) (saved : RunState) :
    lastCheckpoint (journal ++ [.checkpointSaved saved]) = some saved := by
  unfold lastCheckpoint
  rw [List.reverse_append]
  rfl

variable {event : RunEvent} {journal : List RunEvent} {a b : RunState}

theorem lastCheckpoint_snoc (h : ∀ saved, event ≠ .checkpointSaved saved) :
    lastCheckpoint (journal ++ [event]) = lastCheckpoint journal := by
  unfold lastCheckpoint
  rw [List.reverse_append]
  cases event with
  | checkpointSaved saved => exact absurd rfl (h saved)
  | _ => rfl

theorem acceptedAtLast_snoc_saved (journal : List RunEvent) (saved : RunState) :
    acceptedAtLast (journal ++ [.checkpointSaved saved]) = saved.acceptedReplans := by
  unfold acceptedAtLast
  rw [lastCheckpoint_snoc_saved]
  rfl

theorem acceptedAtLast_snoc (h : ∀ saved, event ≠ .checkpointSaved saved) :
    acceptedAtLast (journal ++ [event]) = acceptedAtLast journal := by
  unfold acceptedAtLast
  rw [lastCheckpoint_snoc h]

/-- The last checkpoint of a journal is one of its checkpoints. -/
theorem mem_of_lastCheckpoint {saved : RunState} (h : lastCheckpoint journal = some saved) :
    .checkpointSaved saved ∈ journal := by
  unfold lastCheckpoint at h
  rcases List.exists_of_findSome?_eq_some h with ⟨event, hmem, hevent⟩
  cases event with
  | checkpointSaved state =>
    cases hevent
    exact List.mem_reverse.mp hmem
  | _ => cases hevent

/-- An event of a journal with one more entry is an old one or the new one. -/
theorem snoc_split {before after : List RunEvent} {entry : RunEvent}
    (h : journal ++ [entry] = before ++ event :: after) :
    (∃ rest, journal = before ++ event :: rest) ∨ (before = journal ∧ event = entry) := by
  rcases List.append_eq_append_iff.mp h with ⟨rest, hbefore, hrest⟩ | ⟨rest, hjournal, hrest⟩
  · cases rest with
    | nil =>
      cases hrest
      exact Or.inr ⟨hbefore.trans (List.append_nil _), rfl⟩
    | cons first rest =>
      have hlength := congrArg List.length hrest
      simp at hlength
  · cases rest with
    | nil =>
      cases hrest
      exact Or.inr ⟨(hjournal.trans (List.append_nil _)).symm, rfl⟩
    | cons first rest =>
      cases hrest
      exact Or.inl ⟨rest, hjournal⟩

/-! ## 2. Moves -/

section Moves

variable (limits : PlanLimits)

/-- One move of a run, with what it needs. -/
inductive Move : Config → Config → Prop
  | progressed {state state' : RunState} {journal turn} (same : SameProgress state state') :
      Move ⟨state, journal, turn⟩ ⟨state', journal, turn⟩
  | noted {state journal turn} {event : RunEvent} (plain : event.isPlain = true) :
      Move ⟨state, journal, turn⟩ ⟨state, journal ++ [event], turn⟩
  | saved {state saved : RunState} {journal turn} (same : SameProgress state saved) :
      Move ⟨state, journal, turn⟩ ⟨state, journal ++ [.checkpointSaved saved], turn⟩
  | confirmed {state : RunState} {journal} (durable : lastCheckpoint journal = some state) :
      Move ⟨state, journal, .accepted⟩ ⟨state, journal, .ready⟩
  | started {state journal turn} {taskId : String} (pending : taskId ∉ state.completedTaskIds) :
      Move ⟨state, journal, turn⟩ ⟨state, journal ++ [.taskStarted taskId], turn⟩
  | stored {state journal turn} (result : TaskResult TaskAnswer) :
      Move ⟨state, journal, turn⟩ ⟨RunEngine.storeResult result state, journal, turn⟩
  | executed {state journal} :
      Move ⟨state, journal, .ready⟩
        ⟨state, journal ++ [.graphExecuted state.graphRevision], .executed⟩
  | asked {state : RunState} {journal} (round : ℕ) (unanswered : ¬state.Answered) :
      Move ⟨state, journal, .executed⟩ ⟨state, journal ++ [.correctionAsked round], .asked⟩
  | rejected {state journal turn} (code : String) (round : Option ℕ) :
      Move ⟨state, journal, turn⟩
        ⟨{ state with replans := state.replans ++ [.rejected code state.graphRevision round] },
          journal, turn⟩
  | declined {state journal turn} :
      Move ⟨state, journal, turn⟩ ⟨{ state with correctionDeclined := true }, journal, turn⟩
  | replanned {state journal} (kind : ReplanKind) (replacement : AcceptedPlan limits)
      (reason : Text) (room : state.replans.length < limits.maxReplans) :
      Move ⟨state, journal, .executed⟩
        ⟨RunEngine.acceptedState kind replacement reason none state, journal, .accepted⟩
  | corrected {state journal} (kind : ReplanKind) (replacement : AcceptedPlan limits)
      (reason : Text) (round : ℕ) (room : state.replans.length < limits.maxReplans)
      (unspent : state.correctionRounds < maxCorrectionRounds) :
      Move ⟨state, journal, .asked⟩
        ⟨RunEngine.acceptedState kind replacement reason (some round) state, journal, .accepted⟩

/-- Any number of moves. -/
def Moves : Config → Config → Prop := Relation.ReflTransGen (Move limits)

end Moves

/-! ## 3. States -/

/-- What holds of every run state: its corrections, its replans and its revision are in bounds, and
    every completed task has its output. -/
structure Within (limits : PlanLimits) (state : RunState) : Prop where
  rounds : state.correctionRounds ≤ maxCorrectionRounds
  accepted : state.acceptedReplans ≤ limits.maxReplans
  revision : state.graphRevision = state.acceptedReplans + 1
  outputs : state.completedTaskIds ⊆ state.taskOutputs.keys

/-- What is never taken back from an earlier state to a later one. -/
structure Precedes (earlier later : RunState) : Prop where
  completed : earlier.completedTaskIds ⊆ later.completedTaskIds
  accepted : earlier.acceptedReplans ≤ later.acceptedReplans
  answered : earlier.Answered → later.Answered

theorem Precedes.refl (state : RunState) : Precedes state state where
  completed := List.Subset.refl _
  accepted := Nat.le_refl _
  answered := id

theorem Precedes.trans {c : RunState} (h : Precedes a b) (h' : Precedes b c) :
    Precedes a c where
  completed := List.Subset.trans h.completed h'.completed
  accepted := h.accepted.trans h'.accepted
  answered := h'.answered ∘ h.answered

theorem SameProgress.acceptedReplans (h : SameProgress a b) : b.acceptedReplans = a.acceptedReplans := by
  unfold RunState.acceptedReplans
  rw [h.replans]

theorem SameProgress.answered_iff (h : SameProgress a b) : b.Answered ↔ a.Answered := by
  unfold RunState.Answered RunState.correctionRejected
  rw [h.replans, h.correctionRounds, h.correctionDeclined]

theorem SameProgress.precedes (h : SameProgress a b) :
    Precedes a b where
  completed := by
    rw [h.completedTaskIds]
    exact List.Subset.refl _
  accepted := Nat.le_of_eq h.acceptedReplans.symm
  answered := h.answered_iff.mpr

theorem SameProgress.within {limits : PlanLimits} (h : SameProgress a b) (ha : Within limits a) :
    Within limits b where
  rounds := by
    rw [h.correctionRounds]
    exact ha.rounds
  accepted := by
    rw [h.acceptedReplans]
    exact ha.accepted
  revision := by
    rw [h.graphRevision, h.acceptedReplans]
    exact ha.revision
  outputs := by
    rw [h.completedTaskIds, h.taskOutputs]
    exact ha.outputs

/-- The accepted replans are among the recorded ones. -/
theorem acceptedReplans_le (state : RunState) :
    state.acceptedReplans ≤ state.replans.length := List.countP_le_length

theorem acceptedReplans_rejected (state : RunState) (code : String) (round : Option ℕ) :
    RunState.acceptedReplans
      { state with replans := state.replans ++ [.rejected code state.graphRevision round] } =
      state.acceptedReplans := by
  unfold RunState.acceptedReplans
  rw [List.countP_append]
  rfl

section Moves

variable {limits : PlanLimits} (kind : ReplanKind) (replacement : AcceptedPlan limits)
  (reason : Text) (round : Option ℕ) (state : RunState)

theorem acceptedReplans_acceptedState :
    (RunEngine.acceptedState kind replacement reason round state).acceptedReplans =
      state.acceptedReplans + 1 := by
  show (state.replans ++ _).countP _ = _
  rw [List.countP_append]
  rfl

/-- An answer stays an answer while replans are added and rounds are spent. -/
theorem answered_of_le {a b : RunState} (hrounds : a.correctionRounds ≤ b.correctionRounds)
    (hdeclined : a.correctionDeclined = true → b.correctionDeclined = true)
    (hreplans : a.replans ⊆ b.replans) (h : a.Answered) : b.Answered := by
  rcases h with hclosed | hrejected
  · left
    unfold correctionPathClosed at hclosed ⊢
    rw [Bool.or_eq_true, decide_eq_true_eq] at hclosed ⊢
    exact hclosed.imp hdeclined fun hspent => hspent.trans hrounds
  · right
    unfold RunState.correctionRejected at hrejected ⊢
    rw [List.any_eq_true] at hrejected ⊢
    rcases hrejected with ⟨entry, hmem, hentry⟩
    exact ⟨entry, hreplans hmem, hentry⟩

theorem precedes_acceptedState :
    Precedes state (RunEngine.acceptedState kind replacement reason round state) where
  completed := List.Subset.refl _
  accepted := by
    rw [acceptedReplans_acceptedState]
    exact Nat.le_succ _
  answered := by
    apply answered_of_le
    · show _ ≤ if round.isSome then state.correctionRounds + 1 else state.correctionRounds
      split
      · exact Nat.le_succ _
      · exact Nat.le_refl _
    · exact id
    · exact List.subset_append_left _ _

/-- A replan within the plan's replans keeps the bounds; a correction has to be the first one. -/
theorem Within.acceptedState (h : Within limits state)
    (room : state.replans.length < limits.maxReplans)
    (unspent : round.isSome = true → state.correctionRounds < maxCorrectionRounds) :
    Within limits (RunEngine.acceptedState kind replacement reason round state) where
  rounds := by
    show (if round.isSome then state.correctionRounds + 1 else state.correctionRounds) ≤ _
    split
    · rename_i hround
      exact unspent hround
    · exact h.rounds
  accepted := by
    rw [acceptedReplans_acceptedState]
    have hle := acceptedReplans_le state
    omega
  revision := by
    rw [acceptedReplans_acceptedState]
    show state.graphRevision + 1 = _
    rw [h.revision]
  outputs := h.outputs

theorem mem_completed_storeResult {result : TaskResult TaskAnswer} {taskId : String} :
    taskId ∈ (RunEngine.storeResult result state).completedTaskIds ↔
      taskId ∈ state.completedTaskIds ∨ taskId = result.taskId := by
  show taskId ∈ List.insertionSort _ (state.completedTaskIds ++ [result.taskId]) ↔ _
  rw [(List.perm_insertionSort _ _).mem_iff, List.mem_append, List.mem_singleton]

theorem Move.precedes {c c' : Config} (h : Move limits c c') : Precedes c.state c'.state := by
  cases h with
  | progressed same => exact same.precedes
  | stored result =>
    refine ⟨fun taskId h => ?_, Nat.le_refl _, id⟩
    rw [mem_completed_storeResult]
    exact Or.inl h
  | rejected code round =>
    refine ⟨List.Subset.refl _, Nat.le_of_eq (acceptedReplans_rejected _ _ _).symm, ?_⟩
    exact answered_of_le (Nat.le_refl _) id (List.subset_append_left _ _)
  | declined =>
    exact ⟨List.Subset.refl _, Nat.le_refl _,
      answered_of_le (Nat.le_refl _) (fun _ => rfl) (List.Subset.refl _)⟩
  | replanned => exact precedes_acceptedState _ _ _ _ _
  | corrected => exact precedes_acceptedState _ _ _ _ _
  | _ => exact Precedes.refl _

theorem Move.within {c c' : Config} (h : Move limits c c') (hw : Within limits c.state) :
    Within limits c'.state := by
  cases h with
  | progressed same => exact same.within hw
  | stored result =>
    refine ⟨hw.rounds, hw.accepted, hw.revision, fun taskId h => ?_⟩
    rw [mem_completed_storeResult] at h
    show taskId ∈ (Dict.set _ result.taskId _).keys
    rw [Dict.mem_keys_set]
    exact (h.imp (fun hold => hw.outputs hold) id).symm
  | rejected code round =>
    refine ⟨hw.rounds, ?_, ?_, hw.outputs⟩
    · rw [acceptedReplans_rejected]
      exact hw.accepted
    · rw [acceptedReplans_rejected]
      exact hw.revision
  | declined => exact ⟨hw.rounds, hw.accepted, hw.revision, hw.outputs⟩
  | replanned kind replacement reason room =>
    exact hw.acceptedState _ _ _ _ _ room fun h => by cases h
  | corrected kind replacement reason round room unspent =>
    exact hw.acceptedState _ _ _ _ _ room fun _ => unspent
  | _ => exact hw

end Moves

/-! ## 4. What holds of a journal -/

section Sound

variable {limits : PlanLimits}

/-- Checkpoints are in bounds and in order, nothing completed is started again, nobody is asked
    again after an answer, and the revisions executed are bounded. -/
structure Sound (limits : PlanLimits) (journal : List RunEvent) : Prop where
  within : ∀ saved, .checkpointSaved saved ∈ journal → Within limits saved
  ordered : ∀ saved, .checkpointSaved saved ∈ journal → ∀ last,
    lastCheckpoint journal = some last → Precedes saved last
  fresh : ∀ before taskId after, journal = before ++ .taskStarted taskId :: after →
    ∀ saved, .checkpointSaved saved ∈ before → taskId ∉ saved.completedTaskIds
  silent : ∀ before round after, journal = before ++ .correctionAsked round :: after →
    ∀ saved, .checkpointSaved saved ∈ before → ¬saved.Answered
  revisions : ∀ revision, .graphExecuted revision ∈ journal → revision ≤ limits.maxReplans + 1

/-- What an event needs of the journal before it. -/
def Admitted (limits : PlanLimits) (journal : List RunEvent) : RunEvent → Prop
  | .checkpointSaved state => Within limits state ∧
      ∀ saved, .checkpointSaved saved ∈ journal → Precedes saved state
  | .taskStarted taskId => ∀ saved, .checkpointSaved saved ∈ journal →
      taskId ∉ saved.completedTaskIds
  | .correctionAsked _ => ∀ saved, .checkpointSaved saved ∈ journal → ¬saved.Answered
  | .graphExecuted revision => revision ≤ limits.maxReplans + 1
  | _ => True

theorem sound_nil : Sound limits [] where
  within := fun _ h => absurd h List.not_mem_nil
  ordered := fun _ h => absurd h List.not_mem_nil
  fresh := fun before _ _ h => by
    have hlength := congrArg List.length h
    simp at hlength
  silent := fun before _ _ h => by
    have hlength := congrArg List.length h
    simp at hlength
  revisions := fun _ h => absurd h List.not_mem_nil

variable {journal : List RunEvent} {state : RunState}

theorem Sound.snoc {event : RunEvent} (h : Sound limits journal) (ha : Admitted limits journal event) :
    Sound limits (journal ++ [event]) where
  within := by
    intro saved hmem
    rcases List.mem_append.mp hmem with hold | hnew
    · exact h.within saved hold
    · cases List.mem_singleton.mp hnew
      exact ha.1
  ordered := by
    intro saved hmem last hlast
    by_cases hsaved : ∃ state, event = .checkpointSaved state
    · rcases hsaved with ⟨state, rfl⟩
      rw [lastCheckpoint_snoc_saved] at hlast
      cases hlast
      rcases List.mem_append.mp hmem with hold | hnew
      · exact ha.2 saved hold
      · cases List.mem_singleton.mp hnew
        exact Precedes.refl _
    · rw [lastCheckpoint_snoc fun state heq => hsaved ⟨state, heq⟩] at hlast
      rcases List.mem_append.mp hmem with hold | hnew
      · exact h.ordered saved hold last hlast
      · exact absurd ⟨saved, (List.mem_singleton.mp hnew).symm⟩ hsaved
  fresh := by
    intro before taskId after heq saved hmem
    rcases snoc_split heq with ⟨rest, hold⟩ | ⟨rfl, rfl⟩
    · exact h.fresh before taskId rest hold saved hmem
    · exact ha saved hmem
  silent := by
    intro before round after heq saved hmem
    rcases snoc_split heq with ⟨rest, hold⟩ | ⟨rfl, rfl⟩
    · exact h.silent before round rest hold saved hmem
    · exact ha saved hmem
  revisions := by
    intro revision hmem
    rcases List.mem_append.mp hmem with hold | hnew
    · exact h.revisions revision hold
    · cases List.mem_singleton.mp hnew
      exact ha

/-! ## 5. What holds in an invocation -/

/-- An invocation of a run that has begun with the journal `before`: its journal is sound, its state
    is ahead of every checkpoint, and its turn says what may still happen. -/
structure InRun (limits : PlanLimits) (before : List RunEvent) (c : Config) : Prop where
  sound : Sound limits c.journal
  within : Within limits c.state
  ahead : ∀ saved, .checkpointSaved saved ∈ c.journal → Precedes saved c.state
  counted : executions c.journal + acceptedAtLast before ≤
    executions before + 1 + acceptedAtLast c.journal
  ready : c.turn = .ready → executions c.journal + acceptedAtLast before ≤
    executions before + acceptedAtLast c.journal
  accepted : c.turn = .accepted → executions c.journal + acceptedAtLast before ≤
    executions before + c.state.acceptedReplans
  once : correctionAsks c.journal ≤ correctionAsks before ∨
    (correctionAsks c.journal ≤ correctionAsks before + 1 ∧ (c.turn = .asked ∨ c.state.Answered))

theorem executions_snoc (journal : List RunEvent) (event : RunEvent) :
    executions (journal ++ [event]) =
      executions journal + if event.isExecution then 1 else 0 := by
  unfold executions
  rw [List.countP_append, List.countP_singleton]

theorem correctionAsks_snoc (journal : List RunEvent) (event : RunEvent) :
    correctionAsks (journal ++ [event]) =
      correctionAsks journal + if event.isAsk then 1 else 0 := by
  unfold correctionAsks
  rw [List.countP_append, List.countP_singleton]

variable {before : List RunEvent} {c c' : Config}

/-- Moving the state alone keeps the invariant while its turn is kept. -/
theorem InRun.moved (h : InRun limits before c) (hmove : Precedes c.state state) (hwithin : Within limits state) :
    InRun limits before ⟨state, c.journal, c.turn⟩ where
  sound := h.sound
  within := hwithin
  ahead := fun saved hsaved => (h.ahead saved hsaved).trans hmove
  counted := h.counted
  ready := h.ready
  accepted := fun hturn => (h.accepted hturn).trans (Nat.add_le_add_left hmove.accepted _)
  once := h.once.imp id fun hasked => hasked.imp id fun hor => hor.imp id hmove.answered

/-- An event that is no checkpoint, no execution and no question keeps the invariant. -/
theorem InRun.noted (h : InRun limits before c) {event : RunEvent}
    (ha : Admitted limits c.journal event) (hsaved : ∀ saved, event ≠ .checkpointSaved saved)
    (hexecution : event.isExecution = false) (hask : event.isAsk = false) :
    InRun limits before ⟨c.state, c.journal ++ [event], c.turn⟩ := by
  have hcount : executions (c.journal ++ [event]) = executions c.journal := by
    rw [executions_snoc, hexecution]
    rfl
  have hasks : correctionAsks (c.journal ++ [event]) = correctionAsks c.journal := by
    rw [correctionAsks_snoc, hask]
    rfl
  refine ⟨h.sound.snoc ha, h.within, fun saved hmem => ?_, ?_, ?_, ?_, ?_⟩
  · rcases List.mem_append.mp hmem with hold | hnew
    · exact h.ahead saved hold
    · exact absurd (List.mem_singleton.mp hnew).symm (hsaved saved)
  · show executions (c.journal ++ [event]) + _ ≤ _ + acceptedAtLast (c.journal ++ [event])
    rw [hcount, acceptedAtLast_snoc hsaved]
    exact h.counted
  · intro hturn
    show executions (c.journal ++ [event]) + _ ≤ _ + acceptedAtLast (c.journal ++ [event])
    rw [hcount, acceptedAtLast_snoc hsaved]
    exact h.ready hturn
  · intro hturn
    show executions (c.journal ++ [event]) + _ ≤ _
    rw [hcount]
    exact h.accepted hturn
  · show correctionAsks (c.journal ++ [event]) ≤ _ ∨ correctionAsks (c.journal ++ [event]) ≤ _ ∧ _
    rw [hasks]
    exact h.once

theorem InRun.saved (h : InRun limits before c) {saved : RunState}
    (same : SameProgress c.state saved) :
    InRun limits before ⟨c.state, c.journal ++ [.checkpointSaved saved], c.turn⟩ := by
  have hahead : ∀ old, .checkpointSaved old ∈ c.journal → Precedes old saved :=
    fun old hold => (h.ahead old hold).trans same.precedes
  have hlast : acceptedAtLast c.journal ≤ saved.acceptedReplans := by
    unfold acceptedAtLast
    cases hcheckpoint : lastCheckpoint c.journal with
    | none => exact Nat.zero_le _
    | some last => exact (hahead last (mem_of_lastCheckpoint hcheckpoint)).accepted
  have hcounted := h.counted
  have hcount : executions (c.journal ++ [.checkpointSaved saved]) = executions c.journal := by
    rw [executions_snoc]
    rfl
  have hasks : correctionAsks (c.journal ++ [.checkpointSaved saved]) =
      correctionAsks c.journal := by
    rw [correctionAsks_snoc]
    rfl
  refine ⟨h.sound.snoc ⟨same.within h.within, hahead⟩, h.within, fun old hmem => ?_, ?_, ?_, ?_, ?_⟩
  · rcases List.mem_append.mp hmem with hold | hnew
    · exact h.ahead old hold
    · cases List.mem_singleton.mp hnew
      -- the checkpoint has made the progress of the state, no more
      exact ⟨by rw [same.completedTaskIds]; exact List.Subset.refl _,
        Nat.le_of_eq same.acceptedReplans, same.answered_iff.mp⟩
  · show executions (c.journal ++ _) + _ ≤ _ + acceptedAtLast (c.journal ++ _)
    rw [hcount, acceptedAtLast_snoc_saved]
    omega
  · intro hturn
    have hready := h.ready hturn
    show executions (c.journal ++ _) + _ ≤ _ + acceptedAtLast (c.journal ++ _)
    rw [hcount, acceptedAtLast_snoc_saved]
    omega
  · intro hturn
    show executions (c.journal ++ _) + _ ≤ _
    rw [hcount]
    exact h.accepted hturn
  · show correctionAsks (c.journal ++ _) ≤ _ ∨ correctionAsks (c.journal ++ _) ≤ _ ∧ _
    rw [hasks]
    exact h.once

theorem InRun.executed (h : InRun limits before ⟨state, journal, .ready⟩) :
    InRun limits before ⟨state, journal ++ [.graphExecuted state.graphRevision], .executed⟩ := by
  have hrevision : state.graphRevision ≤ limits.maxReplans + 1 := by
    have hwithin : Within limits state := h.within
    rw [hwithin.revision]
    exact Nat.succ_le_succ hwithin.accepted
  have hready := h.ready rfl
  have hlast : acceptedAtLast (journal ++ [.graphExecuted state.graphRevision]) =
      acceptedAtLast journal := acceptedAtLast_snoc fun _ heq => by cases heq
  refine ⟨h.sound.snoc hrevision, h.within, fun saved hmem => ?_, ?_, (fun hturn => by cases hturn),
    (fun hturn => by cases hturn), ?_⟩
  · rcases List.mem_append.mp hmem with hold | hnew
    · exact h.ahead saved hold
    · cases List.mem_singleton.mp hnew
  · show executions (journal ++ _) + _ ≤ _ + acceptedAtLast (journal ++ _)
    rw [executions_snoc, hlast]
    show executions journal + 1 + _ ≤ _
    dsimp only at hready
    omega
  · show correctionAsks (journal ++ _) ≤ _ ∨ correctionAsks (journal ++ _) ≤ _ ∧ _
    rw [correctionAsks_snoc]
    rcases h.once with hnone | ⟨hone, hasked | hanswered⟩
    · exact Or.inl hnone
    · cases hasked
    · exact Or.inr ⟨hone, Or.inr hanswered⟩

/-- An unanswered run has not asked yet in this invocation. -/
theorem InRun.asked (h : InRun limits before ⟨state, journal, .executed⟩) (round : ℕ) (unanswered : ¬state.Answered) :
    InRun limits before ⟨state, journal ++ [.correctionAsked round], .asked⟩ := by
  have hlast : acceptedAtLast (journal ++ [.correctionAsked round]) = acceptedAtLast journal :=
    acceptedAtLast_snoc fun _ heq => by cases heq
  have hfirst : correctionAsks journal ≤ correctionAsks before := by
    rcases h.once with hnone | ⟨_, hasked | hanswered⟩
    · exact hnone
    · cases hasked
    · exact absurd hanswered unanswered
  refine ⟨h.sound.snoc fun saved hsaved hanswered =>
      unanswered ((h.ahead saved hsaved).answered hanswered), h.within, fun saved hmem => ?_, ?_,
    (fun hturn => by cases hturn), (fun hturn => by cases hturn), ?_⟩
  · rcases List.mem_append.mp hmem with hold | hnew
    · exact h.ahead saved hold
    · cases List.mem_singleton.mp hnew
  · show executions (journal ++ _) + _ ≤ _ + acceptedAtLast (journal ++ _)
    rw [executions_snoc, hlast]
    exact h.counted
  · refine Or.inr ⟨?_, Or.inl rfl⟩
    show correctionAsks (journal ++ _) ≤ correctionAsks before + 1
    rw [correctionAsks_snoc]
    exact Nat.succ_le_succ hfirst

/-- An accepted replan wins the turn back once its checkpoint is durable. -/
theorem InRun.replanned {state' : RunState} {turn : Turn} (h : InRun limits before ⟨state, journal, turn⟩)
    (hmove : Precedes state state') (hwithin : Within limits state')
    (haccepted : state'.acceptedReplans = state.acceptedReplans + 1) (hanswered : turn = .asked → state'.Answered) :
    InRun limits before ⟨state', journal, .accepted⟩ := by
  have hlast : acceptedAtLast journal ≤ state.acceptedReplans := by
    unfold acceptedAtLast
    cases hcheckpoint : lastCheckpoint journal with
    | none => exact Nat.zero_le _
    | some last => exact (h.ahead last (mem_of_lastCheckpoint hcheckpoint)).accepted
  have hcounted : executions journal + acceptedAtLast before ≤
      executions before + 1 + acceptedAtLast journal := h.counted
  refine ⟨h.sound, hwithin, fun saved hsaved => (h.ahead saved hsaved).trans hmove, hcounted,
    (fun hturn => by cases hturn), ?_, ?_⟩
  · intro _
    show executions journal + _ ≤ _ + state'.acceptedReplans
    omega
  · refine h.once.imp id fun hasked => hasked.imp id fun hor => Or.inr ?_
    rcases hor with hturn | hbefore
    · exact hanswered hturn
    · exact hmove.answered hbefore

theorem Move.inRun (hmove : Move limits c c') (h : InRun limits before c) :
    InRun limits before c' := by
  have hprecedes := hmove.precedes
  have hwithin := hmove.within h.within
  cases hmove with
  | progressed same => exact h.moved hprecedes hwithin
  | @noted _ _ _ event plain =>
    cases event with
    | gatewayCall role => exact h.noted trivial (fun _ heq => by cases heq) rfl rfl
    | agentStep role => exact h.noted trivial (fun _ heq => by cases heq) rfl rfl
    | feasibilityChecked p r b => exact h.noted trivial (fun _ heq => by cases heq) rfl rfl
    | batchesPartitioned count => exact h.noted trivial (fun _ heq => by cases heq) rfl rfl
    | _ => cases plain
  | saved same => exact h.saved same
  | @confirmed state journal durable =>
    refine ⟨h.sound, h.within, h.ahead, h.counted, fun _ => ?_, (fun hturn => by cases hturn), ?_⟩
    · have haccepted := h.accepted rfl
      have hlast : acceptedAtLast journal = state.acceptedReplans := by
        unfold acceptedAtLast
        rw [durable]
        rfl
      show executions journal + _ ≤ _ + acceptedAtLast journal
      rw [hlast]
      exact haccepted
    · refine h.once.imp id fun hasked => hasked.imp id fun hor => Or.inr ?_
      rcases hor with hturn | hanswered
      · cases hturn
      · exact hanswered
  | started pending =>
    exact h.noted (fun saved hsaved hmem => pending ((h.ahead saved hsaved).completed hmem))
      (fun _ heq => by cases heq) rfl rfl
  | stored result => exact h.moved hprecedes hwithin
  | executed => exact h.executed
  | asked round unanswered => exact h.asked round unanswered
  | rejected code round => exact h.moved hprecedes hwithin
  | declined => exact h.moved hprecedes hwithin
  | replanned kind replacement reason room =>
    exact h.replanned hprecedes hwithin (acceptedReplans_acceptedState _ _ _ _ _)
      fun hturn => by cases hturn
  | corrected kind replacement reason round room unspent =>
    -- the round that was asked for is spent now, which is an answer
    refine h.replanned hprecedes hwithin (acceptedReplans_acceptedState _ _ _ _ _) fun _ => Or.inl ?_
    show (_ || decide (maxCorrectionRounds ≤ _ + 1)) = true
    rw [Bool.or_eq_true]
    exact Or.inr (decide_eq_true (Nat.le_add_left 1 _))

theorem Moves.inRun (hmoves : Moves limits c c') (h : InRun limits before c) :
    InRun limits before c' := by
  induction hmoves with
  | refl => exact h
  | tail _ hmove ih => exact hmove.inRun ih

theorem Move.replans_le (hmove : Move limits c c') :
    c.state.replans.length ≤ c'.state.replans.length := by
  cases hmove with
  | progressed same => exact Nat.le_of_eq (congrArg List.length same.replans).symm
  | rejected code round => exact (List.prefix_append _ _).length_le
  | replanned kind replacement reason room => exact (List.prefix_append _ _).length_le
  | corrected kind replacement reason round room unspent => exact (List.prefix_append _ _).length_le
  | _ => exact Nat.le_refl _

theorem Moves.replans_le (hmoves : Moves limits c c') :
    c.state.replans.length ≤ c'.state.replans.length := by
  induction hmoves with
  | refl => exact Nat.le_refl _
  | tail _ hmove ih => exact ih.trans hmove.replans_le

end Sound

end Milo.Swarm
