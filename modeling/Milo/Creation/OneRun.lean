import Milo.Creation.RunCreation

/-!
# OneRun — one run for a key, and caps, over every interleaving of creations

Calls of any users interleave statement by statement with each other, with run endings and with
changes of the projects' workflows; they wait for nothing but the locks.
-/

namespace Milo.Creation

open Milo.Catalog Milo.Python Milo.Reasoning

namespace CreationState

/-! ## 1. What one event can do -/

/-- How a call gets to its next phase. -/
inductive Moves (hashtext : Text → ℤ) (s : CreationState) (callId : Text) (call : CreateCall) :
    CreationEvent → CreatePhase → Prop
  | lockUser : call.phase = .started → s.Free hashtext callId (userLock hashtext call.args) →
    Moves hashtext s callId call (.lockUser callId) .userLocked
  | lockProject : call.phase = .userLocked →
    s.Free hashtext callId (projectLock hashtext call) →
    Moves hashtext s callId call (.lockProject callId) .locked
  | lookup : call.phase = .locked →
    Moves hashtext s callId call (.lookup callId) (s.lookupPhase call.args)
  | admitUser : call.phase = .fresh →
    Moves hashtext s callId call (.admitUser callId) (s.admitUserPhase call)
  | admitProject : call.phase = .userAdmitted →
    Moves hashtext s callId call (.admitProject callId) (s.admitProjectPhase call)
  | insertMessage : call.phase = .admitted →
    Moves hashtext s callId call (.insertMessage callId) (.messageInserted (s.newMessage call.args))
  | insertRun (message : UserMessage) : call.phase = .messageInserted message →
    Moves hashtext s callId call (.insertRun callId) (s.insertRunPhase call.args message)
  | abort : call.phase.isOver = false →
    Moves hashtext s callId call (.abort callId) (.refused "connection lost")

/-- What an event may change, and when. -/
inductive Change (hashtext : Text → ℤ) (s : CreationState) : CreationEvent → CreationState → Prop
  | nothing (e : CreationEvent) : Change hashtext s e s
  | begun (callId : Text) (args : CreateArgs) (call : CreateCall) :
    s.calls.get? callId = none → call.args = args →
    (call.phase = .refused "CONVERSATION_NOT_FOUND" ∧
        s.conversations.get? args.conversationId = none ∨
      call.phase = .started ∧ s.conversations.get? args.conversationId = some call.project) →
    Change hashtext s (.begin callId args) { s with calls := s.calls.set callId call }
  | moved (e : CreationEvent) (callId : Text) (call : CreateCall) (phase : CreatePhase)
    (nextMessageId : ℕ) :
    s.calls.get? callId = some call → Moves hashtext s callId call e phase →
    Change hashtext s e { s.withPhase callId call phase with nextMessageId := nextMessageId }
  | committed (callId : Text) (call : CreateCall) (message : UserMessage) (run : StoredRun) :
    s.calls.get? callId = some call → call.phase = .inserted message run →
    Change hashtext s (.commit callId)
      { s.withPhase callId call (.answered run true) with
        runs := s.runs ++ [run]
        messages := s.messages ++ [message] }
  | status (runId : Text) (status : RunStatus) :
    (∀ run ∈ s.runs, run.id = runId → status ∈ run.status.validTransitions) →
    Change hashtext s (.runStatus runId status) (s.withStatus runId status)
  | workflow (project : Text) (workflowKey : Option Text) :
    Change hashtext s (.workflow project workflowKey)
      { s with projects := s.projects.set project workflowKey }
  | conversation (id project : Text) : s.conversations.get? id = none →
    Change hashtext s (.conversation id project)
      { s with conversations := s.conversations.set id project }

variable {hashtext : Text → ℤ} {s s' : CreationState}

variable {call : CreateCall} {callId : Text} {e : CreationEvent} {args : CreateArgs} {run other run' : StoredRun}
  {message : UserMessage} {phase : CreatePhase}

theorem change_of_advance (hallowed : s.Allowed hashtext e) (hcall : s.calls.get? callId = some call)
    (he : callOf? e = some callId) : Change hashtext s e (s.advance callId call e) := by
  cases e <;> cases he <;> unfold advance <;> dsimp only
  case lockUser =>
    split
    · rename_i hphase
      exact .moved _ callId call _ s.nextMessageId hcall (.lockUser hphase (hallowed call hcall))
    · exact .nothing _
  case lockProject =>
    split
    · rename_i hphase
      exact .moved _ callId call _ s.nextMessageId hcall (.lockProject hphase (hallowed call hcall))
    · exact .nothing _
  case lookup =>
    split
    · rename_i hphase
      exact .moved _ callId call _ s.nextMessageId hcall (.lookup hphase)
    · exact .nothing _
  case admitUser =>
    split
    · rename_i hphase
      exact .moved _ callId call _ s.nextMessageId hcall (.admitUser hphase)
    · exact .nothing _
  case admitProject =>
    split
    · rename_i hphase
      exact .moved _ callId call _ s.nextMessageId hcall (.admitProject hphase)
    · exact .nothing _
  case insertMessage =>
    split
    · rename_i hphase
      exact .moved _ callId call _ (s.nextMessageId + 1) hcall (.insertMessage hphase)
    · exact .nothing _
  case insertRun =>
    split
    · rename_i message hphase
      exact .moved _ callId call _ s.nextMessageId hcall (.insertRun message hphase)
    · exact .nothing _
  case commit =>
    split
    · rename_i message run hphase
      exact .committed callId call message run hcall hphase
    · exact .nothing _
  case abort =>
    split
    · exact .nothing _
    · rename_i hphase
      exact .moved _ callId call _ s.nextMessageId hcall (.abort (by simpa using hphase))

theorem change_beginCall (callId : Text) (args : CreateArgs) (hnew : s.calls.get? callId = none) :
    Change hashtext s (.begin callId args) (s.beginCall callId args) := by
  unfold beginCall
  split
  · rename_i hnone
    exact .begun callId args _ hnew rfl (Or.inl ⟨rfl, hnone⟩)
  · rename_i project hproject
    exact .begun callId args _ hnew rfl (Or.inr ⟨rfl, hproject⟩)

theorem change_perform (hallowed : s.Allowed hashtext e) : Change hashtext s e (s.perform e) := by
  have hstatement : ∀ callId, callOf? e = some callId → Change hashtext s e (s.perform e) := by
    intro callId he
    rw [perform_of_callOf s he]
    cases hcall : s.calls.get? callId with
    | none => exact .nothing e
    | some call => exact change_of_advance hallowed hcall he
  cases e with
  | begin callId args => exact change_beginCall callId args hallowed
  | runStatus runId status => exact .status runId status hallowed
  | workflow project workflowKey => exact .workflow project workflowKey
  | conversation id project => exact .conversation id project hallowed
  | lockUser callId => exact hstatement callId rfl
  | lockProject callId => exact hstatement callId rfl
  | lookup callId => exact hstatement callId rfl
  | admitUser callId => exact hstatement callId rfl
  | admitProject callId => exact hstatement callId rfl
  | insertMessage callId => exact hstatement callId rfl
  | insertRun callId => exact hstatement callId rfl
  | commit callId => exact hstatement callId rfl
  | abort callId => exact hstatement callId rfl

/-! ## 2. What a call knows -/

/-- A run and its message come from one call, and the identity names the run. -/
structure BornOf (args : CreateArgs) (message : UserMessage) (run : StoredRun) : Prop where
  id : run.id = args.runId
  conversation : run.conversationId = args.conversationId
  user : run.requestedBy = args.requestedBy
  key : run.idempotencyKey = args.idempotencyKey
  fingerprint : run.requestFingerprint = args.requestFingerprint
  queued : run.status = .queued
  message : run.input.messageId = message.id ∧ run.input.content = message.content ∧
    run.input.metadata = message.metadata ∧ message.conversationId = run.conversationId
  identity : identityField run.runIdentity "run_id" = some run.id

/-- What a call has established when it is in its phase. -/
structure PhaseOk (s : CreationState) (call : CreateCall) : Prop where
  project : call.phase.isOver = false →
    s.conversations.get? call.args.conversationId = some call.project
  fingerprint : call.phase.isFresh = true → isBlankText call.args.requestFingerprint = false
  fresh : call.phase.isFresh = true → ∀ key ∈ call.args.idempotencyKey, ∀ run ∈ s.runs,
    run.isReplayOf call.args key = false
  userCap : call.phase.isUserAdmitted = true →
    capReached call.args.maxUserActive (s.activeForUser call.args.requestedBy) = false
  projectCap : call.phase.isAdmitted = true →
    capReached call.args.maxProjectActive (s.activeForProject call.project) = false
  message : ∀ message, call.phase = .messageInserted message →
    message.conversationId = call.args.conversationId ∧ message.content = call.args.content ∧
      message.metadata = storedMetadata call.args
  born : ∀ message run, call.phase = .inserted message run → BornOf call.args message run

theorem phaseOk_of_over (h : call.phase.isOver = true) : s.PhaseOk call := by
  cases hphase : call.phase <;> rw [hphase] at h <;> cases h <;>
    exact ⟨by simp [hphase, CreatePhase.isOver], by simp [hphase, CreatePhase.isFresh],
      by simp [hphase, CreatePhase.isFresh], by simp [hphase, CreatePhase.isUserAdmitted],
      by simp [hphase, CreatePhase.isAdmitted], by simp [hphase], by simp [hphase]⟩

/-- A call that has gone no further than its locks has only read its project. -/
theorem phaseOk_of_early (hfresh : call.phase.isFresh = false)
    (hproject : s.conversations.get? call.args.conversationId = some call.project) : s.PhaseOk call := by
  cases hphase : call.phase <;> rw [hphase] at hfresh <;> cases hfresh <;>
    exact ⟨fun _ => hproject, by simp [hphase, CreatePhase.isFresh],
      by simp [hphase, CreatePhase.isFresh], by simp [hphase, CreatePhase.isUserAdmitted],
      by simp [hphase, CreatePhase.isAdmitted], by simp [hphase], by simp [hphase]⟩

/-- The lookup of a call with the key of a stored run answers or refuses. -/
theorem lookupPhase_of_known {key : Text} (hkey : args.idempotencyKey = some key)
    (hrun : s.runs.find? (fun run => run.isReplayOf args key) = some run)
    (hprinted : isBlankText run.requestFingerprint = false) :
    s.lookupPhase args = if run.requestFingerprint = args.requestFingerprint then .answered run false
      else if isBlankText args.requestFingerprint then .refused "IDEMPOTENCY_FINGERPRINT_REQUIRED"
      else .refused "IDEMPOTENCY_CONFLICT" := by
  unfold lookupPhase
  rw [hkey, Option.bind_some, hrun]
  dsimp only
  have hsome : run.requestFingerprint ≠ none := by
    intro hnone
    rw [hnone] at hprinted
    cases hprinted
  by_cases hsame : run.requestFingerprint = args.requestFingerprint
  · rw [← hsame, if_neg (by simpa using hprinted), if_pos rfl, if_neg (by simp [hsome])]
  · rw [if_neg hsame]
    split
    · rfl
    · rw [if_pos (Or.inr hsame)]

theorem lookupPhase_cases (args : CreateArgs) :
    (s.lookupPhase args).isOver = true ∨
      (s.lookupPhase args = .fresh ∧ isBlankText args.requestFingerprint = false ∧
        ∀ key ∈ args.idempotencyKey, ∀ run ∈ s.runs, run.isReplayOf args key = false) := by
  unfold lookupPhase
  split
  · exact Or.inl rfl
  · rename_i hprinted
    split
    · rename_i hnone
      refine Or.inr ⟨rfl, by simpa using hprinted, ?_⟩
      intro key hkey run hrun
      rw [Option.mem_def.mp hkey, Option.bind_some] at hnone
      simpa using List.find?_eq_none.mp hnone run hrun
    · split
      · exact Or.inl rfl
      · exact Or.inl rfl

theorem admitUserPhase_cases (call : CreateCall) :
    (s.admitUserPhase call).isOver = true ∨
      (s.admitUserPhase call = .userAdmitted ∧
        capReached call.args.maxUserActive (s.activeForUser call.args.requestedBy) = false) := by
  unfold admitUserPhase
  split
  · exact Or.inl rfl
  · split
    · exact Or.inl rfl
    · rename_i hcap
      exact Or.inr ⟨rfl, by simpa using hcap⟩

theorem admitProjectPhase_cases (call : CreateCall) :
    (s.admitProjectPhase call).isOver = true ∨
      (s.admitProjectPhase call = .admitted ∧
        capReached call.args.maxProjectActive (s.activeForProject call.project) = false) := by
  unfold admitProjectPhase
  split
  · exact Or.inl rfl
  · rename_i hcap
    exact Or.inr ⟨rfl, by simpa using hcap⟩

theorem insertRunPhase_cases
    (hmessage : message.conversationId = args.conversationId ∧ message.content = args.content ∧
      message.metadata = storedMetadata args) :
    (s.insertRunPhase args message).isOver = true ∨
      ∃ run, s.insertRunPhase args message = .inserted message run ∧ BornOf args message run := by
  unfold insertRunPhase
  split
  · exact Or.inl rfl
  · rename_i identity hidentity
    dsimp only
    split
    · exact Or.inl rfl
    · split
      · exact Or.inl rfl
      · rename_i hshape
        rw [not_or, Bool.not_eq_false] at hshape
        refine Or.inr ⟨newRun args identity message, rfl, ?_⟩
        unfold identityShape at hshape
        simp only [Bool.and_eq_true, decide_eq_true_eq] at hshape
        exact
          { id := rfl
            conversation := rfl
            user := rfl
            key := rfl
            fingerprint := rfl
            queued := rfl
            message := ⟨rfl, hmessage.2.1.symm, hmessage.2.2.symm, hmessage.1⟩
            identity := hshape.1.2 }

theorem Moves.phaseOk (hmoves : Moves hashtext s callId call e phase) (h : s.PhaseOk call) :
    s.PhaseOk { call with phase := phase } := by
  have hproject : ∀ {p}, call.phase = p → p.isOver = false →
      s.conversations.get? call.args.conversationId = some call.project :=
    fun hp hopen => h.project (hp ▸ hopen)
  cases hmoves with
  | lockUser hphase hfree => exact phaseOk_of_early rfl (hproject hphase rfl)
  | lockProject hphase hfree => exact phaseOk_of_early rfl (hproject hphase rfl)
  | lookup hphase =>
    rcases lookupPhase_cases (s := s) call.args with hover | ⟨heq, hprinted, hfresh⟩
    · exact phaseOk_of_over hover
    · rw [heq]
      exact ⟨fun _ => hproject hphase rfl, fun _ => hprinted, fun _ => hfresh, nofun, nofun,
        nofun, nofun⟩
  | admitUser hphase =>
    rcases admitUserPhase_cases (s := s) call with hover | ⟨heq, hcap⟩
    · exact phaseOk_of_over hover
    · rw [heq]
      have hf : call.phase.isFresh = true := by rw [hphase]; rfl
      exact ⟨fun _ => hproject hphase rfl, fun _ => h.fingerprint hf, fun _ => h.fresh hf,
        fun _ => hcap, nofun, nofun, nofun⟩
  | admitProject hphase =>
    rcases admitProjectPhase_cases (s := s) call with hover | ⟨heq, hcap⟩
    · exact phaseOk_of_over hover
    · rw [heq]
      have hf : call.phase.isFresh = true := by rw [hphase]; rfl
      have hu : call.phase.isUserAdmitted = true := by rw [hphase]; rfl
      exact ⟨fun _ => hproject hphase rfl, fun _ => h.fingerprint hf, fun _ => h.fresh hf,
        fun _ => h.userCap hu, fun _ => hcap, nofun, nofun⟩
  | insertMessage hphase =>
    have hf : call.phase.isFresh = true := by rw [hphase]; rfl
    have hu : call.phase.isUserAdmitted = true := by rw [hphase]; rfl
    have ha : call.phase.isAdmitted = true := by rw [hphase]; rfl
    refine ⟨fun _ => hproject hphase rfl, fun _ => h.fingerprint hf, fun _ => h.fresh hf,
      fun _ => h.userCap hu, fun _ => h.projectCap ha, ?_, nofun⟩
    intro message hmessage
    cases hmessage
    exact ⟨rfl, rfl, rfl⟩
  | insertRun message hphase =>
    rcases insertRunPhase_cases (s := s) (h.message message hphase) with hover | ⟨run, heq, hborn⟩
    · exact phaseOk_of_over hover
    · rw [heq]
      have hf : call.phase.isFresh = true := by rw [hphase]; rfl
      have hu : call.phase.isUserAdmitted = true := by rw [hphase]; rfl
      have ha : call.phase.isAdmitted = true := by rw [hphase]; rfl
      refine ⟨fun _ => hproject hphase rfl, fun _ => h.fingerprint hf, fun _ => h.fresh hf,
        fun _ => h.userCap hu, fun _ => h.projectCap ha, nofun, ?_⟩
      intro message' run' hphase'
      cases hphase'
      exact hborn
  | abort hopen => exact phaseOk_of_over rfl

/-! ## 3. What every state keeps -/

/-- A stored run and the message stored with it. -/
structure BornWith (run : StoredRun) (message : UserMessage) : Prop where
  message : run.input.messageId = message.id ∧ run.input.content = message.content ∧
    run.input.metadata = message.metadata ∧ message.conversationId = run.conversationId
  identity : identityField run.runIdentity "run_id" = some run.id
  fingerprint : isBlankText run.requestFingerprint = false

/-- Two runs of one conversation, user and key. -/
def SameKey (run other : StoredRun) : Prop :=
  run.idempotencyKey.isSome = true ∧ run.conversationId = other.conversationId ∧
    run.requestedBy = other.requestedBy ∧ run.idempotencyKey = other.idempotencyKey

structure Sound (hashtext : Text → ℤ) (s : CreationState) : Prop where
  exclusive : ∀ id call id' call' lock, s.calls.get? id = some call → s.calls.get? id' = some call' →
    lock ∈ locksOf hashtext call → lock ∈ locksOf hashtext call' → id = id'
  phases : ∀ id call, s.calls.get? id = some call → s.PhaseOk call
  pairs : List.Forall₂ BornWith s.runs s.messages
  unique : s.runs.Pairwise fun run other => ¬ SameKey run other
  homes : ∀ run ∈ s.runs, ∃ project, s.conversations.get? run.conversationId = some project

theorem userLock_mem (h : call.phase.holdsUser = true) : userLock hashtext call.args ∈ locksOf hashtext call := by
  unfold locksOf
  rw [if_pos h]
  exact List.mem_append_left _ List.mem_cons_self

theorem projectLock_mem (h : call.phase.holdsProject = true) :
    projectLock hashtext call ∈ locksOf hashtext call := by
  unfold locksOf
  rw [if_pos h]
  exact List.mem_append_right _ List.mem_cons_self

/-- A call that moves on takes at most one lock more, and one that is free. -/
theorem Moves.locksOf (hmoves : Moves hashtext s callId call e phase) {lock : ℤ}
    (hlock : lock ∈ locksOf hashtext { call with phase := phase }) :
    lock ∈ CreationState.locksOf hashtext call ∨ s.Free hashtext callId lock := by
  have hover : ∀ {p : CreatePhase}, p.isOver = true →
      lock ∉ CreationState.locksOf hashtext { call with phase := p } := by
    intro p hp
    cases p <;> cases hp <;> exact List.not_mem_nil
  have hall : ∀ {p : CreatePhase}, call.phase.holdsUser = true → call.phase.holdsProject = true →
      lock ∈ CreationState.locksOf hashtext { call with phase := p } →
        lock ∈ CreationState.locksOf hashtext call := by
    intro p huser hproject hmem
    unfold CreationState.locksOf at hmem ⊢
    rw [if_pos huser, if_pos hproject]
    rcases List.mem_append.mp hmem with hmem | hmem <;> split at hmem
    · exact List.mem_append_left _ hmem
    · cases hmem
    · exact List.mem_append_right _ hmem
    · cases hmem
  cases hmoves with
  | lockUser hphase hfree =>
    right
    rw [List.mem_singleton.mp hlock]
    exact hfree
  | lockProject hphase hfree =>
    rcases List.mem_append.mp hlock with hlock | hlock
    · left
      rw [List.mem_singleton.mp hlock]
      exact userLock_mem (by rw [hphase]; rfl)
    · right
      rw [List.mem_singleton.mp hlock]
      exact hfree
  | abort hopen => exact absurd hlock (hover rfl)
  | lookup hphase => exact Or.inl (hall (by rw [hphase]; rfl) (by rw [hphase]; rfl) hlock)
  | admitUser hphase => exact Or.inl (hall (by rw [hphase]; rfl) (by rw [hphase]; rfl) hlock)
  | admitProject hphase => exact Or.inl (hall (by rw [hphase]; rfl) (by rw [hphase]; rfl) hlock)
  | insertMessage hphase => exact Or.inl (hall (by rw [hphase]; rfl) (by rw [hphase]; rfl) hlock)
  | insertRun message hphase => exact Or.inl (hall (by rw [hphase]; rfl) (by rw [hphase]; rfl) hlock)

/-- One call is replaced; the locks it then holds were its own or free. -/
theorem Sound.exclusive_set (h : s.Sound hashtext) (call : CreateCall) {call' : CreateCall}
    (hlocks : ∀ lock ∈ locksOf hashtext call', (s.calls.get? callId = some call ∧
      lock ∈ locksOf hashtext call) ∨ s.Free hashtext callId lock) :
    ∀ id c id' c' lock, (s.calls.set callId call').get? id = some c →
      (s.calls.set callId call').get? id' = some c' → lock ∈ locksOf hashtext c →
        lock ∈ locksOf hashtext c' → id = id' := by
  -- a lock of the replaced call is held by no other
  have hmine : ∀ id c lock, s.calls.get? id = some c → id ≠ callId → lock ∈ locksOf hashtext c →
      lock ∉ locksOf hashtext call' := by
    intro id c lock hc hne hlock hmem
    rcases hlocks lock hmem with ⟨hcall, hold⟩ | hfree
    · exact hne (h.exclusive id c callId call lock hc hcall hlock hold)
    · exact hfree (id, c) (Dict.get?_eq_some.mp hc) hne hlock
  intro id c id' c' lock hc hc' hlock hlock'
  rw [Dict.get?_set] at hc hc'
  split at hc <;> split at hc'
  · rename_i hid hid'
    rw [hid, hid']
  · rename_i hid hid'
    cases hc
    exact absurd hlock (hmine id' c' lock hc' hid' hlock')
  · rename_i hid hid'
    cases hc'
    exact absurd hlock' (hmine id c lock hc hid hlock)
  · exact h.exclusive id c id' c' lock hc hc' hlock hlock'

theorem capReached_mono {cap : Option ℤ} {m n : ℕ} (h : capReached cap n = false) (hle : m ≤ n) :
    capReached cap m = false := by
  unfold capReached at h ⊢
  cases cap with
  | none => rfl
  | some bound =>
    rw [Option.any_some, decide_eq_false_iff_not] at h ⊢
    omega

/-- What a call knows stays true while its key finds nothing and the counts do not grow. -/
theorem PhaseOk.mono (h : s.PhaseOk call)
    (hconversations : ∀ c project, s.conversations.get? c = some project → s'.conversations.get? c = some project)
    (hfresh : call.phase.isFresh = true → ∀ key, ∀ run ∈ s'.runs,
      run.isReplayOf call.args key = true → ∃ old ∈ s.runs, old.isReplayOf call.args key = true)
    (huser : call.phase.isUserAdmitted = true →
      s'.activeForUser call.args.requestedBy ≤ s.activeForUser call.args.requestedBy)
    (hproject : call.phase.isAdmitted = true → s'.activeForProject call.project ≤ s.activeForProject call.project) :
    s'.PhaseOk call where
  project hopen := hconversations _ _ (h.project hopen)
  fingerprint := h.fingerprint
  fresh hphase key hkey run hrun := by
    rw [← Bool.not_eq_true]
    intro hreplay
    obtain ⟨old, hold, hsame⟩ := hfresh hphase key run hrun hreplay
    rw [h.fresh hphase key hkey old hold] at hsame
    cases hsame
  userCap hphase := capReached_mono (h.userCap hphase) (huser hphase)
  projectCap hphase := capReached_mono (h.projectCap hphase) (hproject hphase)
  message := h.message
  born := h.born

theorem PhaseOk.congr (h : s.PhaseOk call) (hruns : s'.runs = s.runs)
    (hconversations : s'.conversations = s.conversations) : s'.PhaseOk call := by
  apply h.mono
  · exact fun c project hc => by rw [hconversations, hc]
  · exact fun _ key run hrun hreplay => ⟨run, hruns ▸ hrun, hreplay⟩
  · exact fun _ => by rw [activeForUser, activeForUser, hruns]
  · exact fun _ => by rw [activeForProject, activeForProject, hruns, hconversations]

/-- A run that takes another status on the way of `VALID_TRANSITIONS` was active. -/
theorem isActive_of_transition {old new : RunStatus} (h : new ∈ old.validTransitions) :
    isActive old = true := by
  rw [isActive_eq]
  cases hterminal : old.isTerminal with
  | false => rfl
  | true =>
    rw [RunStatus.isTerminal_iff] at hterminal
    rw [hterminal] at h
    cases h

/-- The run after a status event. -/
def statusOf (runId : Text) (status : RunStatus) (run : StoredRun) : StoredRun :=
  if run.id = runId then { run with status := status } else run

theorem statusOf_eq (runId : Text) (status : RunStatus) (run : StoredRun) :
    statusOf runId status run = { run with status := (statusOf runId status run).status } := by
  unfold statusOf
  split <;> rfl

theorem countP_statusOf_le {runs : List StoredRun} {runId : Text} {status : RunStatus}
    (hvalid : ∀ run ∈ runs, run.id = runId → status ∈ run.status.validTransitions)
    {mine : StoredRun → Bool} (hmine : ∀ run, mine (statusOf runId status run) = mine run) :
    (runs.map (statusOf runId status)).countP (fun run => mine run && isActive run.status) ≤
      runs.countP fun run => mine run && isActive run.status := by
  rw [List.countP_map]
  apply List.countP_mono_left
  intro run hrun hcounted
  rw [Function.comp_apply, Bool.and_eq_true, hmine] at hcounted
  rw [Bool.and_eq_true]
  refine ⟨hcounted.1, ?_⟩
  unfold statusOf at hcounted
  split at hcounted
  · rename_i hid
    exact isActive_of_transition (hvalid run hrun hid)
  · exact hcounted.2

theorem PhaseOk.withStatus (h : s.PhaseOk call) {runId : Text} {status : RunStatus}
    (hvalid : ∀ run ∈ s.runs, run.id = runId → status ∈ run.status.validTransitions) :
    (s.withStatus runId status).PhaseOk call := by
  apply h.mono
  · exact fun _ _ hc => hc
  · intro _ key run hrun hreplay
    obtain ⟨old, hold, rfl⟩ := List.mem_map.mp hrun
    refine ⟨old, hold, ?_⟩
    split at hreplay <;> exact hreplay
  · intro _
    apply countP_statusOf_le hvalid
    intro run
    rw [statusOf_eq]
  · intro _
    apply countP_statusOf_le hvalid
    intro run
    rw [statusOf_eq]

theorem holdsUser_of_isFresh (h : phase.isFresh = true) : phase.holdsUser = true := by
  cases phase <;> first | rfl | cases h

theorem isFresh_of_isUserAdmitted (h : phase.isUserAdmitted = true) : phase.isFresh = true := by
  cases phase <;> first | rfl | cases h

theorem holdsProject_of_isAdmitted (h : phase.isAdmitted = true) : phase.holdsProject = true := by
  cases phase <;> first | rfl | cases h

/-- What other calls know does not change when a call commits: they have not its locks. -/
theorem Sound.phaseOk_commit (h : s.Sound hashtext) (hcall : s.calls.get? callId = some call)
    (hphase : call.phase = .inserted message run) {id : Text} {other : CreateCall}
    (hother : s.calls.get? id = some other) (hne : id ≠ callId) (hruns : s'.runs = s.runs ++ [run])
    (hconversations : s'.conversations = s.conversations) : s'.PhaseOk other := by
  have hborn := (h.phases callId call hcall).born message run hphase
  have huser : other.phase.holdsUser = true → run.requestedBy ≠ other.args.requestedBy := by
    intro hholds hsame
    apply hne
    apply h.exclusive id other callId call _ hother hcall (userLock_mem hholds)
    unfold userLock
    rw [← hsame, hborn.user]
    exact userLock_mem (by rw [hphase]; rfl)
  have hproject : other.phase.holdsProject = true →
      s.conversations.get? run.conversationId ≠ some other.project := by
    intro hholds hsame
    rw [hborn.conversation, (h.phases callId call hcall).project (by rw [hphase]; rfl)] at hsame
    apply hne
    apply h.exclusive id other callId call _ hother hcall (projectLock_mem hholds)
    unfold projectLock
    rw [← Option.some.inj hsame]
    exact projectLock_mem (by rw [hphase]; rfl)
  apply (h.phases id other hother).mono
  · exact fun c project hc => by rw [hconversations, hc]
  · intro hfresh key run' hrun' hreplay
    rw [hruns] at hrun'
    rcases List.mem_append.mp hrun' with hold | hnew
    · exact ⟨run', hold, hreplay⟩
    · rw [List.mem_singleton.mp hnew] at hreplay
      unfold StoredRun.isReplayOf StoredRun.isKeyed at hreplay
      simp only [Bool.and_eq_true, decide_eq_true_eq] at hreplay
      exact absurd hreplay.1.2 (huser (holdsUser_of_isFresh hfresh))
  · intro hadmitted
    have hnot := huser (holdsUser_of_isFresh (isFresh_of_isUserAdmitted hadmitted))
    rw [activeForUser, hruns, List.countP_append, List.countP_singleton, decide_eq_false hnot]
    exact le_refl _
  · intro hadmitted
    have hnot := hproject (holdsProject_of_isAdmitted hadmitted)
    rw [activeForProject, hruns, hconversations, List.countP_append, List.countP_singleton,
      decide_eq_false hnot]
    exact le_refl _

theorem BornOf.bornWith (h : BornOf args message run) (hprinted : isBlankText args.requestFingerprint = false) :
    BornWith run message :=
  ⟨h.message, h.identity, by rw [h.fingerprint]; exact hprinted⟩

theorem Sound.commit (h : s.Sound hashtext) (hcall : s.calls.get? callId = some call)
    (hphase : call.phase = .inserted message run) :
    Sound hashtext
      { s.withPhase callId call (.answered run true) with
        runs := s.runs ++ [run]
        messages := s.messages ++ [message] } := by
  have hok := h.phases callId call hcall
  have hborn := hok.born message run hphase
  have hfresh : call.phase.isFresh = true := by rw [hphase]; rfl
  constructor
  · exact h.exclusive_set call fun lock hlock => absurd hlock List.not_mem_nil
  · intro id other hother
    have hget : (s.calls.set callId _).get? id = some other := hother
    rw [Dict.get?_set] at hget
    split at hget
    · cases hget
      exact phaseOk_of_over rfl
    · rename_i hne
      exact h.phaseOk_commit hcall hphase hget hne rfl rfl
  · exact List.rel_append h.pairs
      (List.Forall₂.cons (hborn.bornWith (hok.fingerprint hfresh)) List.Forall₂.nil)
  · show (s.runs ++ [run]).Pairwise _
    rw [List.pairwise_append]
    refine ⟨h.unique, List.pairwise_singleton _ _, ?_⟩
    intro old hold new hnew hsame
    rw [List.mem_singleton.mp hnew] at hsame
    obtain ⟨hkeyed, hconversation, huser, hkey⟩ := hsame
    obtain ⟨key, hold'⟩ := Option.isSome_iff_exists.mp hkeyed
    have hreplay := hok.fresh hfresh key (by rw [← hborn.key, ← hkey, hold']; rfl) old hold
    unfold StoredRun.isReplayOf StoredRun.isKeyed at hreplay
    rw [decide_eq_true (hconversation.trans hborn.conversation),
      decide_eq_true (huser.trans hborn.user), decide_eq_true hold'] at hreplay
    cases hreplay
  · intro run' hrun'
    rcases List.mem_append.mp hrun' with hold | hnew
    · exact h.homes run' hold
    · rw [List.mem_singleton.mp hnew, hborn.conversation]
      exact ⟨call.project, hok.project (by rw [hphase]; rfl)⟩

theorem Change.sound (hchange : Change hashtext s e s') (h : s.Sound hashtext) : s'.Sound hashtext := by
  cases hchange with
  | nothing => exact h
  | begun callId args call hnew hargs hphase =>
    constructor
    · apply h.exclusive_set call
      intro lock hlock
      exfalso
      rcases hphase with ⟨hrefused, -⟩ | ⟨hstarted, -⟩
      · rw [locksOf, hrefused] at hlock
        cases hlock
      · rw [locksOf, hstarted] at hlock
        cases hlock
    · intro id other hother
      rw [Dict.get?_set] at hother
      split at hother
      · cases hother
        rcases hphase with ⟨hrefused, -⟩ | ⟨hstarted, hproject⟩
        · exact phaseOk_of_over (by rw [hrefused]; rfl)
        · exact phaseOk_of_early (by rw [hstarted]; rfl) (hargs ▸ hproject)
      · exact (h.phases id other hother).congr rfl rfl
    · exact h.pairs
    · exact h.unique
    · exact h.homes
  | moved _ callId call phase nextMessageId hcall hmoves =>
    constructor
    · apply h.exclusive_set call
      intro lock hlock
      rcases hmoves.locksOf hlock with hold | hfree
      · exact Or.inl ⟨hcall, hold⟩
      · exact Or.inr hfree
    · intro id other hother
      have hget : (s.calls.set callId _).get? id = some other := hother
      rw [Dict.get?_set] at hget
      split at hget
      · cases hget
        exact (hmoves.phaseOk (h.phases callId call hcall)).congr rfl rfl
      · exact (h.phases id other hget).congr rfl rfl
    · exact h.pairs
    · exact h.unique
    · exact h.homes
  | committed callId call message run hcall hphase => exact h.commit hcall hphase
  | status runId status hvalid =>
    refine ⟨h.exclusive, fun id call hcall => (h.phases id call hcall).withStatus hvalid, ?_, ?_, ?_⟩
    · show List.Forall₂ BornWith (s.runs.map (statusOf runId status)) s.messages
      rw [List.forall₂_map_left_iff]
      refine h.pairs.imp fun run message hborn => ?_
      rw [statusOf_eq]
      exact ⟨hborn.message, hborn.identity, hborn.fingerprint⟩
    · show (s.runs.map (statusOf runId status)).Pairwise _
      rw [List.pairwise_map]
      refine h.unique.imp fun {run other} hne => ?_
      rw [statusOf_eq runId status run, statusOf_eq runId status other]
      exact hne
    · intro run hrun
      have hmem : run ∈ s.runs.map (statusOf runId status) := hrun
      obtain ⟨old, hold, rfl⟩ := List.mem_map.mp hmem
      rw [statusOf_eq]
      exact h.homes old hold
  | workflow project workflowKey =>
    exact ⟨h.exclusive, fun id call hcall => (h.phases id call hcall).congr rfl rfl, h.pairs,
      h.unique, h.homes⟩
  | conversation id project hnew =>
    have hkept : ∀ c p, s.conversations.get? c = some p →
        (s.conversations.set id project).get? c = some p := by
      intro c p hc
      rw [Dict.get?_set, if_neg]
      · exact hc
      · rintro rfl
        rw [hnew] at hc
        cases hc
    refine ⟨h.exclusive, fun id' call hcall => ?_, h.pairs, h.unique, ?_⟩
    · refine (h.phases id' call hcall).mono hkept
        (fun _ key run hrun hreplay => ⟨run, hrun, hreplay⟩) (fun _ => le_refl _) fun _ => ?_
      apply List.countP_mono_left
      intro run hrun hcounted
      obtain ⟨home, hhome⟩ := h.homes run hrun
      dsimp only at hcounted
      rw [hkept _ _ hhome] at hcounted
      rw [hhome]
      exact hcounted
    · intro run hrun
      obtain ⟨home, hhome⟩ := h.homes run hrun
      exact ⟨home, hkept _ _ hhome⟩

/-! ## 4. What a state leaves to the later ones -/

/-- The key of a call names the run. -/
def Names (args : CreateArgs) (run : StoredRun) : Prop :=
  ∃ key ∈ args.idempotencyKey, run.isReplayOf args key = true

/-- Rows are only added, and a call that is over stays as it is. -/
structure Keeps (s s' : CreationState) : Prop where
  runs : s.runs.map StoredRun.asCreated <+: s'.runs.map StoredRun.asCreated
  messages : s.messages <+: s'.messages
  ended : ∀ id call, s.calls.get? id = some call → call.phase.isOver = true →
    s'.calls.get? id = some call

theorem Keeps.refl (s : CreationState) : s.Keeps s :=
  ⟨List.prefix_refl _, List.prefix_refl _, fun _ _ hcall _ => hcall⟩

theorem Keeps.trans {s'' : CreationState} (h : s.Keeps s') (h' : s'.Keeps s'') : s.Keeps s'' :=
  ⟨h.runs.trans h'.runs, h.messages.trans h'.messages,
    fun id call hcall hover => h'.ended id call (h.ended id call hcall hover) hover⟩

theorem asCreated_statusOf (runId : Text) (status : RunStatus) (run : StoredRun) :
    (statusOf runId status run).asCreated = run.asCreated := by
  rw [statusOf_eq]
  rfl

theorem Moves.isOver_eq_false (hmoves : Moves hashtext s callId call e phase) : call.phase.isOver = false := by
  cases hmoves with
  | abort hopen => exact hopen
  | insertRun message hphase => rw [hphase]; rfl
  | lockUser hphase _ => rw [hphase]; rfl
  | lockProject hphase _ => rw [hphase]; rfl
  | lookup hphase => rw [hphase]; rfl
  | admitUser hphase => rw [hphase]; rfl
  | admitProject hphase => rw [hphase]; rfl
  | insertMessage hphase => rw [hphase]; rfl

theorem over_set {call' : CreateCall} (hopen : ∀ call, s.calls.get? callId = some call → call.phase.isOver = false)
    {id : Text} (hcall : s.calls.get? id = some call) (hover : call.phase.isOver = true) :
    (s.calls.set callId call').get? id = some call := by
  rw [Dict.get?_set, if_neg]
  · exact hcall
  · rintro rfl
    rw [hopen call hcall] at hover
    cases hover

theorem Change.keeps (hchange : Change hashtext s e s') : s.Keeps s' := by
  cases hchange with
  | nothing => exact Keeps.refl s
  | begun callId args call hnew hargs hphase =>
    refine ⟨List.prefix_refl _, List.prefix_refl _, fun id other hother hover => ?_⟩
    apply over_set _ hother hover
    intro other' hother'
    rw [hnew] at hother'
    cases hother'
  | moved _ callId call phase nextMessageId hcall hmoves =>
    refine ⟨List.prefix_refl _, List.prefix_refl _, fun id other hother hover => ?_⟩
    apply over_set _ hother hover
    intro other' hother'
    rw [hcall] at hother'
    cases hother'
    exact hmoves.isOver_eq_false
  | committed callId call message run hcall hphase =>
    refine ⟨?_, List.prefix_append _ _, fun id other hother hover => ?_⟩
    · show s.runs.map StoredRun.asCreated <+: (s.runs ++ [run]).map StoredRun.asCreated
      rw [List.map_append]
      exact List.prefix_append _ _
    · apply over_set _ hother hover
      intro other' hother'
      rw [hcall] at hother'
      cases hother'
      rw [hphase]
      rfl
  | status runId status hvalid =>
    refine ⟨?_, List.prefix_refl _, fun _ _ hcall _ => hcall⟩
    show s.runs.map StoredRun.asCreated <+:
      (s.runs.map (statusOf runId status)).map StoredRun.asCreated
    have heq : StoredRun.asCreated ∘ statusOf runId status = StoredRun.asCreated :=
      funext (asCreated_statusOf runId status)
    have hsame : (s.runs.map (statusOf runId status)).map StoredRun.asCreated =
        s.runs.map StoredRun.asCreated := by
      rw [List.map_map, heq]
    exact hsame.symm ▸ List.prefix_refl _
  | workflow => exact ⟨List.prefix_refl _, List.prefix_refl _, fun _ _ hcall _ => hcall⟩
  | conversation => exact ⟨List.prefix_refl _, List.prefix_refl _, fun _ _ hcall _ => hcall⟩

theorem Keeps.exists_run (h : s.Keeps s') (hrun : run ∈ s.runs) :
    ∃ run' ∈ s'.runs, run'.asCreated = run.asCreated :=
  List.mem_map.mp (h.runs.subset (List.mem_map_of_mem hrun))

/-! ## 5. Replays -/

theorem SameKey.of_names (h : Names args run) (h' : Names args other) : SameKey run other := by
  obtain ⟨key, hkey, hrun⟩ := h
  obtain ⟨key', hkey', hother⟩ := h'
  unfold StoredRun.isReplayOf StoredRun.isKeyed at hrun hother
  simp only [Bool.and_eq_true, decide_eq_true_eq] at hrun hother
  rw [Option.mem_def] at hkey hkey'
  refine ⟨by rw [hrun.2]; rfl, hrun.1.1.trans hother.1.1.symm, hrun.1.2.trans hother.1.2.symm, ?_⟩
  rw [hrun.2, hother.2, ← hkey, ← hkey']

theorem SameKey.symm (h : SameKey run other) : SameKey other run :=
  ⟨h.2.2.2 ▸ h.1, h.2.1.symm, h.2.2.1.symm, h.2.2.2.symm⟩

theorem Sound.eq_of_sameKey (h : s.Sound hashtext) (hrun : run ∈ s.runs) (hother : other ∈ s.runs)
    (hsame : SameKey run other) : run = other := by
  by_contra hne
  have : Std.Symm fun run other => ¬ SameKey run other := ⟨fun _ _ hnot hsame => hnot hsame.symm⟩
  exact h.unique.forall hrun hother hne hsame

theorem Names.of_asCreated (h : Names args run) (hsame : run'.asCreated = run.asCreated) : Names args run' := by
  obtain ⟨key, hkey, hrun⟩ := h
  refine ⟨key, hkey, ?_⟩
  have heq : run'.asCreated.isReplayOf args key = run.asCreated.isReplayOf args key := by rw [hsame]
  exact heq.trans hrun

theorem Sound.isBlankText_eq_false (h : s.Sound hashtext) (hrun : run ∈ s.runs) :
    isBlankText run.requestFingerprint = false := by
  have hpairs : List.Forall₂ (fun run _ => isBlankText run.requestFingerprint = false ∧ True)
      s.runs s.messages := h.pairs.imp fun _ _ hborn => ⟨hborn.fingerprint, trivial⟩
  exact ((List.forall₂_and_left _ _).mp hpairs).1 run hrun

/-- The answer to a call whose key names a stored run. -/
def replayPhase (run : StoredRun) (args : CreateArgs) : CreatePhase :=
  if run.requestFingerprint = args.requestFingerprint then .answered run false
  else if isBlankText args.requestFingerprint then .refused "IDEMPOTENCY_FINGERPRINT_REQUIRED"
  else .refused "IDEMPOTENCY_CONFLICT"

theorem Sound.lookupPhase_eq (h : s.Sound hashtext) (hrun : run ∈ s.runs) (hnames : Names args run) :
    s.lookupPhase args = replayPhase run args := by
  obtain ⟨key, hkey, hreplay⟩ := hnames
  cases hfound : s.runs.find? fun other => other.isReplayOf args key with
  | none => exact absurd hreplay (List.find?_eq_none.mp hfound run hrun)
  | some other =>
    have hmatches : other.isReplayOf args key = true := by simpa using List.find?_some hfound
    have hsame : SameKey other run :=
      SameKey.of_names ⟨key, hkey, hmatches⟩ ⟨key, hkey, hreplay⟩
    have heq := h.eq_of_sameKey (List.mem_of_find?_eq_some hfound) hrun hsame
    rw [heq] at hfound
    exact lookupPhase_of_known hkey hfound (h.isBlankText_eq_false hrun)

/-- What can become of a call whose key named the run before it began. -/
structure Replays (run : StoredRun) (call : CreateCall) : Prop where
  notFresh : call.phase.isFresh = false
  answered : ∀ run' created, call.phase = .answered run' created →
    created = false ∧ run'.asCreated = run.asCreated ∧
      run.requestFingerprint = call.args.requestFingerprint
  refused : ∀ message, call.phase = .refused message →
    message = "connection lost" ∨ run.requestFingerprint ≠ call.args.requestFingerprint

theorem replays_of_early (hfresh : call.phase.isFresh = false) (hopen : call.phase.isOver = false) :
    Replays run call where
  notFresh := hfresh
  answered run' created hphase := by rw [hphase] at hopen; cases hopen
  refused message hphase := by rw [hphase] at hopen; cases hopen

theorem replays_replayPhase (hsame : run'.asCreated = run.asCreated) :
    Replays run { call with phase := replayPhase run' call.args } := by
  have hprint : run'.asCreated.requestFingerprint = run.asCreated.requestFingerprint := by
    rw [hsame]
  have hprint' : run'.requestFingerprint = run.requestFingerprint := hprint
  unfold replayPhase
  rw [hprint']
  by_cases heq : run.requestFingerprint = call.args.requestFingerprint
  · rw [if_pos heq]
    refine ⟨rfl, ?_, nofun⟩
    intro answer created hphase
    cases hphase
    exact ⟨rfl, hsame, heq⟩
  · rw [if_neg heq]
    split
    · exact ⟨rfl, nofun, fun _ _ => Or.inr heq⟩
    · exact ⟨rfl, nofun, fun _ _ => Or.inr heq⟩

theorem Moves.replays (hmoves : Moves hashtext s callId call e phase) (h : s.Sound hashtext) (hrun' : run' ∈ s.runs)
    (hsame : run'.asCreated = run.asCreated) (hnames : Names call.args run) (hreplays : Replays run call) :
    Replays run { call with phase := phase } := by
  have hstuck : ∀ {p}, call.phase = p → p.isFresh = true → False := by
    intro p hphase hfresh
    have hnot := hreplays.notFresh
    rw [hphase, hfresh] at hnot
    cases hnot
  cases hmoves with
  | lockUser hphase hfree => exact replays_of_early rfl rfl
  | lockProject hphase hfree => exact replays_of_early rfl rfl
  | lookup hphase =>
    rw [h.lookupPhase_eq hrun' (hnames.of_asCreated hsame)]
    exact replays_replayPhase hsame
  | admitUser hphase => exact (hstuck hphase rfl).elim
  | admitProject hphase => exact (hstuck hphase rfl).elim
  | insertMessage hphase => exact (hstuck hphase rfl).elim
  | insertRun message hphase => exact (hstuck hphase rfl).elim
  | abort hopen =>
    refine ⟨rfl, nofun, ?_⟩
    intro message hphase
    cases hphase
    exact Or.inl rfl

/-- Each call that began after `earlier` under the key of one of its runs is a replay. -/
def Replayed (earlier s : CreationState) : Prop :=
  ∀ run ∈ earlier.runs, ∀ id call, earlier.calls.get? id = none → s.calls.get? id = some call →
    Names call.args run → Replays run call

theorem Change.replayed {earlier : CreationState} (hchange : Change hashtext s e s') (h : s.Sound hashtext)
    (hkeeps : earlier.Keeps s) (hreplayed : earlier.Replayed s) : earlier.Replayed s' := by
  intro run hrun id other hnew hother hnames
  obtain ⟨run', hrun', hsame⟩ := hkeeps.exists_run hrun
  cases hchange with
  | nothing => exact hreplayed run hrun id other hnew hother hnames
  | begun callId args call hunused hargs hphase =>
    rw [Dict.get?_set] at hother
    split at hother
    · cases hother
      rcases hphase with ⟨-, hnone⟩ | ⟨hstarted, -⟩
      · obtain ⟨project, hproject⟩ := h.homes run' hrun'
        obtain ⟨key, -, hreplay⟩ := hnames.of_asCreated hsame
        unfold StoredRun.isReplayOf StoredRun.isKeyed at hreplay
        simp only [Bool.and_eq_true, decide_eq_true_eq] at hreplay
        rw [hreplay.1.1, hargs, hnone] at hproject
        cases hproject
      · exact replays_of_early (by rw [hstarted]; rfl) (by rw [hstarted]; rfl)
    · exact hreplayed run hrun id other hnew hother hnames
  | moved _ callId call phase nextMessageId hcall hmoves =>
    have hget : (s.calls.set callId _).get? id = some other := hother
    rw [Dict.get?_set] at hget
    split at hget
    · rename_i hid
      cases hget
      rw [← hid] at hcall
      exact hmoves.replays h hrun' hsame hnames (hreplayed run hrun id call hnew hcall hnames)
    · exact hreplayed run hrun id other hnew hget hnames
  | committed callId call message new hcall hphase =>
    have hget : (s.calls.set callId _).get? id = some other := hother
    rw [Dict.get?_set] at hget
    split at hget
    · rename_i hid
      cases hget
      rw [← hid] at hcall
      have hnot := (hreplayed run hrun id call hnew hcall hnames).notFresh
      rw [hphase] at hnot
      cases hnot
    · exact hreplayed run hrun id other hnew hget hnames
  | status => exact hreplayed run hrun id other hnew hother hnames
  | workflow => exact hreplayed run hrun id other hnew hother hnames
  | conversation => exact hreplayed run hrun id other hnew hother hnames

/-! ## 6. Every run -/

/-- What a commit leaves: the run with its message, within the caps of its call. -/
structure Created (s s' : CreationState) (callId : Text) (call : CreateCall)
    (message : UserMessage) (run : StoredRun) : Prop where
  born : BornOf call.args message run
  runs : s'.runs = s.runs ++ [run]
  messages : s'.messages = s.messages ++ [message]
  userCap : ∀ n ∈ call.args.maxUserActive, (s'.activeForUser call.args.requestedBy : ℤ) ≤ n
  projectCap : ∀ n ∈ call.args.maxProjectActive, ∀ project,
    s'.conversations.get? call.args.conversationId = some project →
      (s'.activeForProject project : ℤ) ≤ n
  answered : s'.calls.get? callId = some { call with phase := .answered run true }

/-- The rows an event leaves are those it found, or one call has stored its pair. -/
def Writes (s s' : CreationState) (e : CreationEvent) : Prop :=
  (s'.runs.map StoredRun.asCreated = s.runs.map StoredRun.asCreated ∧ s'.messages = s.messages) ∨
    ∃ callId call message run, e = .commit callId ∧ s.calls.get? callId = some call ∧
      call.phase = .inserted message run ∧ Created s s' callId call message run

/-- One more active run at most: a cap that was not reached is kept. -/
theorem countP_snoc_le_of_capReached {cap : Option ℤ} {runs : List StoredRun} {counted : StoredRun → Bool}
    (h : capReached cap (runs.countP counted) = false) : ∀ n ∈ cap, ((runs ++ [run]).countP counted : ℤ) ≤ n := by
  intro n hn
  rw [Option.mem_def] at hn
  rw [hn, capReached, Option.any_some, decide_eq_false_iff_not] at h
  have hlast : [run].countP counted ≤ 1 := List.countP_le_length
  rw [List.countP_append]
  omega

theorem Sound.created (h : s.Sound hashtext) (hcall : s.calls.get? callId = some call)
    (hphase : call.phase = .inserted message run) :
    Created s { s.withPhase callId call (.answered run true) with
      runs := s.runs ++ [run]
      messages := s.messages ++ [message] } callId call message run := by
  have hok := h.phases callId call hcall
  constructor
  · exact hok.born message run hphase
  · rfl
  · rfl
  · exact countP_snoc_le_of_capReached (hok.userCap (by rw [hphase]; rfl))
  · intro n hn project hproject
    have hmine := hok.project (by rw [hphase]; rfl)
    have hsame : s.conversations.get? call.args.conversationId = some project := hproject
    rw [hmine] at hsame
    cases hsame
    exact countP_snoc_le_of_capReached (hok.projectCap (by rw [hphase]; rfl)) n hn
  · exact Dict.get?_set_self _ _ _

theorem Change.writes (hchange : Change hashtext s e s') (h : s.Sound hashtext) : Writes s s' e := by
  cases hchange with
  | committed callId call message run hcall hphase =>
    exact Or.inr ⟨callId, call, message, run, rfl, hcall, hphase, h.created hcall hphase⟩
  | status runId status hvalid =>
    refine Or.inl ⟨?_, rfl⟩
    show (s.runs.map (statusOf runId status)).map StoredRun.asCreated = s.runs.map StoredRun.asCreated
    rw [List.map_map]
    exact List.map_congr_left fun run _ => asCreated_statusOf runId status run
  | nothing => exact Or.inl ⟨rfl, rfl⟩
  | begun => exact Or.inl ⟨rfl, rfl⟩
  | moved => exact Or.inl ⟨rfl, rfl⟩
  | workflow => exact Or.inl ⟨rfl, rfl⟩
  | conversation => exact Or.inl ⟨rfl, rfl⟩

theorem Sound.countP_isKeyed_le (h : s.Sound hashtext) (conversationId user key : Text) :
    s.runs.countP (StoredRun.isKeyed conversationId user key) ≤ 1 := by
  have hsame : ∀ run other, run.isKeyed conversationId user key = true →
      other.isKeyed conversationId user key = true → SameKey run other := by
    intro run other hrun hother
    unfold StoredRun.isKeyed at hrun hother
    simp only [Bool.and_eq_true, decide_eq_true_eq] at hrun hother
    exact ⟨by rw [hrun.2]; rfl, hrun.1.1.trans hother.1.1.symm, hrun.1.2.trans hother.1.2.symm,
      hrun.2.trans hother.2.symm⟩
  have hpairwise := h.unique.filter (StoredRun.isKeyed conversationId user key)
  have hkeyed : ∀ run ∈ s.runs.filter (StoredRun.isKeyed conversationId user key),
      run.isKeyed conversationId user key = true := fun run hrun => (List.mem_filter.mp hrun).2
  rw [List.countP_eq_length_filter]
  cases hlist : s.runs.filter (StoredRun.isKeyed conversationId user key) with
  | nil => exact Nat.zero_le 1
  | cons run rest =>
    cases rest with
    | nil => exact le_refl 1
    | cons other rest =>
      rw [hlist] at hpairwise hkeyed
      exact absurd (hsame run other (hkeyed run List.mem_cons_self)
        (hkeyed other (List.mem_cons_of_mem _ List.mem_cons_self)))
        (List.rel_of_pairwise_cons hpairwise List.mem_cons_self)

/-- What holds in the state a run reaches, and of every event of the run. -/
structure CreationHolds (hist : List (CreationState × CreationEvent)) (s : CreationState) :
    Prop where
  oneRun : ∀ conversationId user key,
    s.runs.countP (StoredRun.isKeyed conversationId user key) ≤ 1
  together : List.Forall₂ BornWith s.runs s.messages
  kept : ∀ e ∈ hist, e.1.Keeps s
  writes : ∀ e ∈ hist, Writes e.1 (e.1.perform e.2) e.2
  replays : ∀ e ∈ hist, e.1.Replayed s
  lookups : ∀ e ∈ hist, ∀ callId call run, e.2 = .lookup callId →
    e.1.calls.get? callId = some call → call.phase = .locked → run ∈ e.1.runs →
      Names call.args run → (e.1.perform e.2).calls.get? callId =
        some { call with phase := replayPhase run call.args }

/-- No run, message or call is there yet. -/
structure Unused (s : CreationState) : Prop where
  runs : s.runs = []
  messages : s.messages = []
  calls : s.calls = Dict.empty

theorem Unused.sound (h : s.Unused) : s.Sound hashtext := by
  have hcalls : ∀ id call, s.calls.get? id ≠ some call := by
    intro id call hcall
    rw [h.calls, Dict.get?_empty] at hcall
    cases hcall
  constructor
  · exact fun id call _ _ _ hcall => absurd hcall (hcalls id call)
  · exact fun id call hcall => absurd hcall (hcalls id call)
  · rw [h.runs, h.messages]
    exact List.Forall₂.nil
  · rw [h.runs]
    exact List.Pairwise.nil
  · rw [h.runs]
    exact fun run hrun => absurd hrun List.not_mem_nil

variable {hist : List (CreationState × CreationEvent)} {start : CreationState}

theorem run_sound (hstart : start.Sound hashtext) (hrun : Run (CreationStep hashtext) start hist s) :
    Throughout (Sound hashtext) hist s := by
  apply hrun.throughout hstart
  rintro m e m' h ⟨hallowed, rfl⟩
  exact (change_perform hallowed).sound h

theorem run_replays (hstart : start.Sound hashtext)
    (hrun : Run (CreationStep hashtext) start hist s) :
    ∀ e ∈ hist, e.1.Keeps s ∧ e.1.Replayed s := by
  apply hrun.history_invariant (J := fun hist m => ∀ e ∈ hist, e.1.Keeps m ∧ e.1.Replayed m)
  · exact fun e he => absurd he List.not_mem_nil
  · rintro hist m e m' hpre ih ⟨hallowed, rfl⟩ e' he'
    have hchange := change_perform hallowed
    have hsound := (run_sound hstart hpre).2
    rcases List.mem_append.mp he' with he' | he'
    · obtain ⟨hkeeps, hreplayed⟩ := ih e' he'
      exact ⟨hkeeps.trans hchange.keeps, hchange.replayed hsound hkeeps hreplayed⟩
    · rw [List.mem_singleton.mp he']
      refine ⟨hchange.keeps, hchange.replayed hsound (Keeps.refl m) ?_⟩
      intro run _ id call hnone hcall
      rw [hnone] at hcall
      cases hcall

/-- Creation is idempotent and capped over every order of the statements of its calls. -/
theorem creation_holds (hstart : start.Unused)
    (hrun : Run (CreationStep hashtext) start hist s) : CreationHolds hist s := by
  have hsound : Throughout (Sound hashtext) hist s := run_sound hstart.sound hrun
  have hreplays := run_replays hstart.sound hrun
  exact
    { oneRun := hsound.2.countP_isKeyed_le
      together := hsound.2.pairs
      kept := fun e he => (hreplays e he).1
      writes := fun e he => (change_perform (hrun.allowed he)).writes (hsound.1 e he)
      replays := fun e he => (hreplays e he).2
      lookups := by
        rintro ⟨m, e⟩ he callId call run rfl hcall hphase hstored hnames
        have hperform : m.perform (.lookup callId) =
            m.withPhase callId call (m.lookupPhase call.args) := by
          rw [perform_of_callOf m rfl, hcall]
          show m.advance callId call (.lookup callId) = _
          unfold advance
          rw [hphase]
        rw [hperform, (hsound.1 _ he).lookupPhase_eq hstored hnames]
        exact Dict.get?_set_self _ _ _ }

/-! ### A run created, ended, asked for again and asked for differently -/

def identityOf (runId : String) : Jsonb :=
  .obj [("identity_version".toList, .str "milo-run-identity/1".toList),
    ("run_id".toList, .str runId.toList), ("workflow_key".toList, .str "swarm_v2".toList),
    ("engine_version".toList, .str "swarm_v2.1".toList), ("policy_version".toList, .str ['1']),
    ("policy_fingerprint".toList, .str (List.replicate 64 'a')),
    ("event_registry_version".toList, .str ['1']),
    ("event_registry_fingerprint".toList, .str (List.replicate 64 'b')),
    ("release_sha".toList, .str (List.replicate 40 'c'))]

/-- A message of one user under one key. -/
def messageCall (runId fingerprint : String) (cap : ℤ) : CreateArgs where
  runId := runId.toList
  runIdentity := some (identityOf runId)
  conversationId := ['c']
  content := "hello".toList
  metadata := none
  requestedBy := ['u']
  idempotencyKey := some ['k']
  requestFingerprint := some fingerprint.toList
  maxUserActive := some cap
  maxProjectActive := some cap

def emptyProject : CreationState where
  projects := ⟨[(['p'], some "swarm_v2".toList)], by decide⟩
  conversations := ⟨[(['c'], ['p'])], by decide⟩
  runs := []
  messages := []
  nextMessageId := 1
  calls := Dict.empty

/-- The first call stores run `r1`; the run fails and the project's workflow changes.  The second call
    repeats it under a cap of none, and the third comes with another fingerprint. -/
def repeatedMessage : List CreationEvent :=
  [.begin ['1'] (messageCall "r1" "same" 1), .begin ['2'] (messageCall "r2" "same" 0),
    .lockUser ['1'], .lockProject ['1'], .lookup ['1'], .admitUser ['1'], .admitProject ['1'],
    .insertMessage ['1'], .insertRun ['1'], .commit ['1'],
    .runStatus "r1".toList .failed, .workflow ['p'] (some "vehicle_catalog_v1".toList),
    .begin ['3'] (messageCall "r3" "other" 5),
    .lockUser ['2'], .lockProject ['2'], .lookup ['2'],
    .lockUser ['3'], .lockProject ['3'], .lookup ['3']]

theorem creation_holds_repeatedMessage :
    ∃ hist s, CreationHolds hist s ∧ hist.map Prod.snd = repeatedMessage ∧
      s.runs.map (fun run => (run.id, run.status)) = [("r1".toList, RunStatus.failed)] ∧
      ((s.calls.get? ['2']).any fun call => match call.phase with
        | .answered run created => decide (run.id = "r1".toList) && !created
        | _ => false) = true ∧
      ((s.calls.get? ['3']).any fun call => match call.phase with
        | .refused message => message == "IDEMPOTENCY_CONFLICT"
        | _ => false) = true := by
  have hrun : Run (CreationStep fun text => text.length) emptyProject _ _ :=
    run_performed repeatedMessage emptyProject (by decide +kernel)
  exact ⟨_, _, creation_holds ⟨rfl, rfl, rfl⟩ hrun, rfl, by decide +kernel, by decide +kernel,
    by decide +kernel⟩

end CreationState

end Milo.Creation
