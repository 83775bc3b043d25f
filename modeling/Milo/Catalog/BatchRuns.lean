import Milo.Catalog.WorkScope
import Milo.Reasoning.Action
import Milo.Reasoning.Grouping
import Milo.Reasoning.Transition

/-!
# BatchRuns — the batches of a plan over every history

Starts, bindings, pauses, revisions, preparations and run status changes interleave freely.  In every
state one run of a plan is live at most, the settled batches of a preparation are its first ones, and
the attempts of a batch are numbered without gaps.  A start that created its run is answered with it
ever after; a start answered with the live run of its batch leaves its key unused.
-/

namespace Milo.Catalog

open Milo.Reasoning Milo.Python

/-! ## 1. Histories -/

inductive ScopeEvent
  | create (workScopeId batchId : Text) (expectedRevision : ℕ) (expectedDigest : Text)
      (request : ScopeStore.RunRequest) (now : ℤ)
  | bind (batchId runId : Text) (expectedRevision : ℕ) (expectedDigest boundBy : Text) (now : ℤ)
  | setPaused (workScopeId : Text) (pause : Bool) (requestedBy : Text)
  | revise (workScopeId digest : Text)
  | close (workScopeId : Text)
  | prepare (workScopeId preparationId : Text) (batchIds : List Text)
  | newRun (conversationId : Text) (request : ScopeStore.RunRequest)
  | runStatus (runId : Text) (status : RunStatus) (launchState : LaunchState)

/-- The batches of a new preparation, numbered from one. -/
def preparedBatches (preparationId workScopeId : Text) (plan : WorkScope) (batchIds : List Text) :
    List (Text × ScopeBatch) :=
  (batchIds.zipIdx 1).map fun e =>
    (e.1, ⟨preparationId, workScopeId, plan.headRevision, plan.headDigest, e.2⟩)

namespace ScopeEvent

/-- Ids of new rows are new, a revision is prepared once, and a terminal status is never left. -/
def Allowed (store : ScopeStore) : ScopeEvent → Prop
  | create _ _ _ _ request _ => store.runs.get? request.runId = none
  | bind _ _ _ _ _ _ => True
  | setPaused _ _ _ => True
  | revise _ _ => True
  | close _ => True
  | prepare workScopeId preparationId batchIds =>
    store.preparations.get? preparationId = none ∧ batchIds.Nodup ∧
      (∀ batchId ∈ batchIds, store.batches.get? batchId = none) ∧
      ∃ plan, store.workScopes.get? workScopeId = some plan ∧ plan.closed = false ∧
        ∀ id, store.preparations.get? id ≠ some (workScopeId, plan.headRevision)
  | newRun _ request => store.runs.get? request.runId = none
  | runStatus runId _ _ => ∃ run, store.runs.get? runId = some run ∧ run.status.isTerminal = false

/-- A refused request changes nothing. -/
def exec (store : ScopeStore) : ScopeEvent → ScopeStore
  | create workScopeId batchId expectedRevision expectedDigest request now =>
    match store.createWorkScopeBatchRun workScopeId batchId expectedRevision expectedDigest request
      now with
    | .ok (next, _) => next
    | .error _ => store
  | bind batchId runId expectedRevision expectedDigest boundBy now =>
    match store.bindWorkScopeBatchRun batchId runId expectedRevision expectedDigest boundBy now with
    | .ok (next, _) => next
    | .error _ => store
  | setPaused workScopeId pause requestedBy =>
    match store.setWorkScopePaused workScopeId pause requestedBy with
    | .ok (next, _) => next
    | .error _ => store
  | revise workScopeId digest =>
    match store.workScopes.get? workScopeId with
    | none => store
    | some plan =>
      { store with
        workScopes := store.workScopes.set workScopeId
          { plan with headRevision := plan.headRevision + 1, headDigest := digest } }
  | close workScopeId =>
    match store.workScopes.get? workScopeId with
    | none => store
    | some plan =>
      { store with workScopes := store.workScopes.set workScopeId { plan with closed := true } }
  | prepare workScopeId preparationId batchIds =>
    match store.workScopes.get? workScopeId with
    | none => store
    | some plan =>
      { store with
        preparations := store.preparations.set preparationId (workScopeId, plan.headRevision)
        batches := store.batches.setAll
          (preparedBatches preparationId workScopeId plan batchIds) }
  | newRun conversationId request =>
    match store.createMessageAndRun conversationId request with
    | .ok (next, _) => next
    | .error _ => store
  | runStatus runId status launchState =>
    match store.runs.get? runId with
    | none => store
    | some run =>
      { store with
        runs := store.runs.set runId { run with status := status, launchState := launchState } }

end ScopeEvent

/-! ## 2. What a state and a step keep -/

namespace ScopeStore

variable (store : ScopeStore)

/-- A batch row of the preparation. -/
def IsBatch (batchId : Text) (batch : ScopeBatch) : Prop := store.batches.get? batchId = some batch

/-- The run was created for this start. -/
def StartedBy (conversationId requestedBy idempotencyKey : Text) (run : ScopeRun) : Prop :=
  run.conversationId = conversationId ∧ run.requestedBy = some requestedBy ∧
    run.idempotencyKey = some idempotencyKey

/-- The batches of a plan run one at a time, in order, once. -/
structure OneAtATime : Prop where
  oneLive : ∀ row ∈ store.batchRuns, ∀ other ∈ store.batchRuns,
    row.workScopeId = other.workScopeId → store.isLive row = true → store.isLive other = true →
      row.runId = other.runId
  settledFirst : ∀ batchId batch otherId other, store.IsBatch batchId batch →
    store.IsBatch otherId other → other.preparationId = batch.preparationId →
    other.batchNumber < batch.batchNumber → store.batchSettled batchId = true →
      store.batchSettled otherId = true
  attempts : ∀ batchId, (store.batchRuns.filter fun row => row.batchId = batchId).map BatchRun.attempt =
    List.range' 1 (store.batchRuns.filter fun row => row.batchId = batchId).length
  oneRunPerKey : ∀ runId run otherId other conversationId requestedBy idempotencyKey,
    idempotencyKey ≠ [] → store.runs.get? runId = some run →
    store.runs.get? otherId = some other → StartedBy conversationId requestedBy idempotencyKey run →
    StartedBy conversationId requestedBy idempotencyKey other → runId = otherId

end ScopeStore

/-- The step binds no settled batch and no paused plan, and a start whose run exists adds nothing. -/
structure ScopeEvent.StartsOnce (store : ScopeStore) (event : ScopeEvent) : Prop where
  bindsOpen : ∀ row ∈ (event.exec store).batchRuns, row ∉ store.batchRuns →
    store.batchSettled row.batchId = false ∧ store.workScopePaused row.workScopeId = false
  replay : ∀ workScopeId batchId expectedRevision expectedDigest request now plan idempotencyKey runId
    run, event = .create workScopeId batchId expectedRevision expectedDigest request now →
    store.workScopes.get? workScopeId = some plan →
    request.idempotencyKey = some idempotencyKey → store.runs.get? runId = some run →
    ScopeStore.StartedBy plan.conversationId request.requestedBy idempotencyKey run →
      event.exec store = store

/-- Two requests for one start. -/
def ScopeEvent.SameStart : ScopeEvent → ScopeEvent → Prop
  | .create workScopeId _ _ _ request _, .create workScopeId' _ _ _ request' _ =>
    workScopeId = workScopeId' ∧ request.requestedBy = request'.requestedBy ∧
      request.idempotencyKey = request'.idempotencyKey
  | _, _ => False

/-- The step creates a run, or adds a binding. -/
def ScopeEvent.Adds (store : ScopeStore) (event : ScopeEvent) : Prop := event.exec store ≠ store

/-- The second is the request of the first, sent again: the same start with the same fingerprint. -/
def ScopeEvent.Repeats : ScopeEvent → ScopeEvent → Prop
  | .create workScopeId _ _ _ request _, .create workScopeId' _ _ _ request' _ =>
    workScopeId = workScopeId' ∧ request.requestedBy = request'.requestedBy ∧
      request.idempotencyKey = request'.idempotencyKey ∧
      request.requestFingerprint = request'.requestFingerprint
  | _, _ => False

/-- The start is answered with a run, new or not. -/
def ScopeEvent.Answered (store : ScopeStore) : ScopeEvent → Prop
  | .create workScopeId batchId expectedRevision expectedDigest request now =>
    ∃ answer, store.createWorkScopeBatchRun workScopeId batchId expectedRevision expectedDigest request
      now = .ok answer
  | _ => False

/-- A request that was answered adds nothing when it is sent again. -/
def AnsweredOnce (hist : List (ScopeStore × ScopeEvent)) : Prop :=
  hist.Pairwise fun e e' => e.2.Repeats e'.2 → e.2.Answered e.1 → ¬ e'.2.Adds e'.1

namespace ScopeStore

/-- The start obeys the rules, its key is new, and its batch has a live run. -/
structure SharesRun (store : ScopeStore) (workScopeId batchId : Text) (expectedRevision : ℕ)
    (expectedDigest : Text) (request : RunRequest) (plan : WorkScope) (batch : ScopeBatch)
    (live : BatchRun) (key : Text) : Prop where
  found : store.workScopes.get? workScopeId = some plan
  editable : plan.closed = false
  member : store.isMember plan.projectId request.requestedBy = true
  workflow : store.workflowOf plan.projectId = some swarmV2 ∧ request.identityWorkflow = some swarmV2
  expected : expectedRevision = plan.headRevision ∧ expectedDigest = plan.headDigest
  prepared : store.batches.get? batchId = some batch ∧ batch.workScopeId = workScopeId
  current : batch.revision = plan.headRevision ∧ batch.scopeDigest = plan.headDigest
  resumed : store.workScopePaused workScopeId = false
  keyed : request.idempotencyKey = some key ∧ strip key ≠ [] ∧ strip request.requestFingerprint ≠ []
  unused : store.findRunByIdempotency plan.conversationId request.requestedBy key = none
  running : store.liveBatchBinding workScopeId = some live ∧ live.batchId = batchId

end ScopeStore

/-- The event is no start that shares the live run of its batch. -/
def ScopeEvent.OwnRun (store : ScopeStore) : ScopeEvent → Prop
  | .create workScopeId batchId expectedRevision expectedDigest request _ => ∀ plan batch live key,
    ¬ store.SharesRun workScopeId batchId expectedRevision expectedDigest request plan batch live key
  | _ => True

/-- No plan has started. -/
structure ScopeStore.Fresh (store : ScopeStore) : Prop where
  batchRuns : store.batchRuns = []
  runs : ∀ runId, store.runs.get? runId = none
  prepared : ∀ batchId batch, store.batches.get? batchId = some batch →
    ∃ made, store.preparations.get? batch.preparationId = some made

/-! ## 3. What the rules establish -/

namespace ScopeStore

variable {store other : ScopeStore}

/-- What holds between the steps: every binding is of a batch whose earlier ones are settled. -/
structure Consistent (store : ScopeStore) : Prop where
  boundBatch : ∀ row ∈ store.batchRuns, ∃ batch, store.IsBatch row.batchId batch ∧
    ∀ otherId other, store.IsBatch otherId other → other.preparationId = batch.preparationId →
      other.batchNumber < batch.batchNumber → store.batchSettled otherId = true
  boundRun : ∀ row ∈ store.batchRuns, ∃ run, store.runs.get? row.runId = some run
  oneLive : ∀ row ∈ store.batchRuns, ∀ other ∈ store.batchRuns,
    row.workScopeId = other.workScopeId → store.isLive row = true → store.isLive other = true →
      row.runId = other.runId
  attempts : ∀ batchId, (store.batchRuns.filter fun row => row.batchId = batchId).map BatchRun.attempt =
    List.range' 1 (store.batchRuns.filter fun row => row.batchId = batchId).length
  prepared : ∀ batchId batch, store.batches.get? batchId = some batch →
    ∃ made, store.preparations.get? batch.preparationId = some made
  oneRunPerKey : ∀ runId run otherId other conversationId requestedBy idempotencyKey,
    idempotencyKey ≠ [] → store.runs.get? runId = some run →
    store.runs.get? otherId = some other → StartedBy conversationId requestedBy idempotencyKey run →
    StartedBy conversationId requestedBy idempotencyKey other → runId = otherId

variable {batchId workScopeId runId conversationId key expectedDigest : Text} {row : BatchRun} {batch : ScopeBatch}
  {now : ℤ} {run : ScopeRun} {next : ScopeStore} {request : RunRequest} {expectedRevision : ℕ}
  {answer : Text × BatchRun × Bool} {plan : WorkScope}

theorem batchSettled_iff :
    store.batchSettled batchId = true ↔
      ∃ row ∈ store.batchRuns, row.batchId = batchId ∧ store.isSettled row = true := by
  unfold batchSettled
  simp only [List.any_eq_true, Bool.and_eq_true, decide_eq_true_eq]

theorem Consistent.oneAtATime (h : store.Consistent) : store.OneAtATime where
  oneLive := h.oneLive
  settledFirst batchId batch otherId other hbatch hother hprep hlt hsettled := by
    rcases batchSettled_iff.mp hsettled with ⟨row, hrow, hid, -⟩
    rcases h.boundBatch row hrow with ⟨own, hown, hearlier⟩
    rw [hid] at hown
    have hsame : own = batch := Option.some.inj (hown.symm.trans hbatch)
    rw [hsame] at hearlier
    exact hearlier otherId other hother hprep hlt
  attempts := h.attempts
  oneRunPerKey := h.oneRunPerKey

theorem Fresh.consistent (h : store.Fresh) : store.Consistent where
  boundBatch row hrow := by
    rw [h.batchRuns] at hrow
    exact absurd hrow List.not_mem_nil
  boundRun row hrow := by
    rw [h.batchRuns] at hrow
    exact absurd hrow List.not_mem_nil
  oneLive row hrow := by
    rw [h.batchRuns] at hrow
    exact absurd hrow List.not_mem_nil
  attempts batchId := by
    rw [h.batchRuns]
    rfl
  prepared := h.prepared
  oneRunPerKey runId run otherId other _ _ _ _ hrun := by
    rw [h.runs] at hrun
    cases hrun

/-! ### Runs that only advance -/

/-- Runs are added, or move on without leaving a terminal status; nothing else changes but the
    plans. -/
structure Advances (store other : ScopeStore) : Prop where
  batchRuns : other.batchRuns = store.batchRuns
  batches : other.batches = store.batches
  preparations : other.preparations = store.preparations
  kept : ∀ runId run, store.runs.get? runId = some run → ∃ next, other.runs.get? runId = some next ∧
    (run.status.isTerminal = true → next.status = run.status) ∧
    next.conversationId = run.conversationId ∧ next.requestedBy = run.requestedBy ∧
    next.idempotencyKey = run.idempotencyKey

theorem Advances.isSettled (h : store.Advances other) (hsettled : store.isSettled row = true) :
    other.isSettled row = true := by
  unfold ScopeStore.isSettled batchRunStatus at hsettled ⊢
  cases hrun : store.runs.get? row.runId with
  | none =>
    rw [hrun] at hsettled
    cases hsettled
  | some run =>
    rw [hrun] at hsettled
    have hfinished : run.status.isFinished = true := hsettled
    rcases h.kept row.runId run hrun with ⟨next, hnext, hsame, -⟩
    rw [hnext]
    show next.status.isFinished = true
    rw [hsame (RunStatus.isTerminal_of_isFinished hfinished)]
    exact hfinished

theorem Advances.isLive (h : store.Advances other) (hc : store.Consistent) (hrow : row ∈ store.batchRuns)
    (hlive : other.isLive row = true) : store.isLive row = true := by
  rcases hc.boundRun row hrow with ⟨run, hrun⟩
  rcases h.kept row.runId run hrun with ⟨next, hnext, hsame, -⟩
  unfold ScopeStore.isLive batchRunStatus at hlive ⊢
  rw [hnext] at hlive
  rw [hrun]
  have hopen : (!next.status.isTerminal) = true := hlive
  show (!run.status.isTerminal) = true
  cases hterminal : run.status.isTerminal with
  | false => rfl
  | true =>
    rw [hsame hterminal, hterminal] at hopen
    cases hopen

theorem Advances.batchSettled (h : store.Advances other) (hsettled : store.batchSettled batchId = true) :
    other.batchSettled batchId = true := by
  rcases batchSettled_iff.mp hsettled with ⟨row, hrow, hid, hrowsettled⟩
  apply batchSettled_iff.mpr
  rw [h.batchRuns]
  exact ⟨row, hrow, hid, h.isSettled hrowsettled⟩

theorem Consistent.advances (hc : store.Consistent) (h : store.Advances other)
    (hkeys : ∀ runId run otherId run' conversationId requestedBy idempotencyKey,
      idempotencyKey ≠ [] → other.runs.get? runId = some run → other.runs.get? otherId = some run' →
      StartedBy conversationId requestedBy idempotencyKey run →
      StartedBy conversationId requestedBy idempotencyKey run' → runId = otherId) :
    other.Consistent where
  boundBatch row hrow := by
    rw [h.batchRuns] at hrow
    rcases hc.boundBatch row hrow with ⟨batch, hbatch, hearlier⟩
    unfold IsBatch at hbatch hearlier ⊢
    rw [h.batches]
    refine ⟨batch, hbatch, ?_⟩
    intro otherId earlier hother hprep hlt
    exact h.batchSettled (hearlier otherId earlier hother hprep hlt)
  boundRun row hrow := by
    rw [h.batchRuns] at hrow
    rcases hc.boundRun row hrow with ⟨run, hrun⟩
    rcases h.kept row.runId run hrun with ⟨next, hnext, -⟩
    exact ⟨next, hnext⟩
  oneLive row hrow row' hrow' hscope hlive hlive' := by
    rw [h.batchRuns] at hrow hrow'
    exact hc.oneLive row hrow row' hrow' hscope (h.isLive hc hrow hlive) (h.isLive hc hrow' hlive')
  attempts := by
    rw [h.batchRuns]
    exact hc.attempts
  prepared := by
    rw [h.batches, h.preparations]
    exact hc.prepared
  oneRunPerKey := hkeys

/-! ### Binding a batch -/

theorem checkBatchContinuation_ok (h : store.checkBatchContinuation workScopeId batchId batch = .ok ()) :
    store.workScopePaused workScopeId = false ∧ store.liveBatchBinding workScopeId = none ∧
      store.batchSettled batchId = false ∧
      (store.nextBatch batch.preparationId).map Prod.fst = some batchId := by
  rcases except_bind_eq_ok.mp h with ⟨_, hpaused, h⟩
  rcases except_bind_eq_ok.mp h with ⟨_, hlive, h⟩
  rcases except_bind_eq_ok.mp h with ⟨_, hsettled, hnext⟩
  exact ⟨Bool.eq_false_iff.mpr (refuseIf_eq_ok.mp hpaused), not_not.mp (refuseIf_eq_ok.mp hlive),
    Bool.eq_false_iff.mpr (refuseIf_eq_ok.mp hsettled), not_not.mp (refuseIf_eq_ok.mp hnext)⟩

theorem isLive_eq_false_of_liveBatchBinding (h : store.liveBatchBinding workScopeId = none)
    (hrow : row ∈ store.batchRuns) (hscope : row.workScopeId = workScopeId) : store.isLive row = false := by
  unfold liveBatchBinding at h
  by_contra hlive
  have hmem : row ∈ store.batchRuns.filter fun row =>
      decide (row.workScopeId = workScopeId) && store.isLive row := by
    rw [List.mem_filter]
    exact ⟨hrow, by simp [hscope, hlive]⟩
  rw [List.argmax_eq_none.mp h] at hmem
  exact absurd hmem List.not_mem_nil

theorem batchSettled_of_nextBatch (hbatch : store.IsBatch batchId batch)
    (h : (store.nextBatch batch.preparationId).map Prod.fst = some batchId) {otherId : Text} {earlier : ScopeBatch}
    (hother : store.IsBatch otherId earlier) (hprep : earlier.preparationId = batch.preparationId)
    (hlt : earlier.batchNumber < batch.batchNumber) : store.batchSettled otherId = true := by
  rcases Option.map_eq_some_iff.mp h with ⟨first, hfirst, hid⟩
  unfold nextBatch at hfirst
  have hmem := (List.mem_filter.mp (List.argmin_mem hfirst)).1
  have hsame : first.2 = batch := by
    have hget : store.batches.get? first.1 = some first.2 := Dict.get?_eq_some.mpr hmem
    rw [hid] at hget
    exact Option.some.inj (hget.symm.trans hbatch)
  by_contra hsettled
  have hopen : store.batchSettled otherId = false := Bool.eq_false_iff.mpr hsettled
  have hin : (otherId, earlier) ∈ store.batches.entries.filter fun row =>
      decide (row.2.preparationId = batch.preparationId) && !store.batchSettled row.1 := by
    rw [List.mem_filter]
    exact ⟨Dict.get?_eq_some.mp hother, by simp [hprep, hopen]⟩
  have hle := List.le_of_mem_argmin hin hfirst
  rw [hsame] at hle
  exact absurd hle (not_le.mpr hlt)

theorem nextAttempt_eq {n : ℕ}
    (h : (store.batchRuns.filter fun row => row.batchId = batchId).map BatchRun.attempt = List.range' 1 n) :
    store.nextAttempt batchId = n + 1 := by
  unfold nextAttempt
  rw [h]
  have hmax : ∀ m start, (List.range' start m).foldr max 0 = if m = 0 then 0 else start + m - 1 := by
    intro m
    induction m with
    | zero => exact fun _ => rfl
    | succ m ih =>
      intro start
      rw [List.range'_succ, List.foldr_cons, ih]
      split <;> simp
      omega
  rw [hmax]
  split <;> omega

theorem Consistent.bindBatch (hc : store.Consistent) {boundBy : Text} (hbatch : store.IsBatch batchId batch)
    (hrun : store.runs.get? runId = some run)
    (hlive : ∀ row ∈ store.batchRuns, row.workScopeId = workScopeId → store.isLive row = false)
    (hearlier : ∀ otherId other, store.IsBatch otherId other →
      other.preparationId = batch.preparationId → other.batchNumber < batch.batchNumber →
        store.batchSettled otherId = true) :
    (store.bindBatch workScopeId batchId runId boundBy now).1.Consistent := by
  have hsettled : ∀ {id}, store.batchSettled id = true →
      (store.bindBatch workScopeId batchId runId boundBy now).1.batchSettled id = true := by
    intro id hid
    rcases batchSettled_iff.mp hid with ⟨row, hrow, hrowid, hrowsettled⟩
    exact batchSettled_iff.mpr ⟨row, List.mem_append_left _ hrow, hrowid, hrowsettled⟩
  constructor
  · intro row hrow
    rcases List.mem_append.mp hrow with hold | hnew
    · rcases hc.boundBatch row hold with ⟨own, hown, hbefore⟩
      exact ⟨own, hown, fun otherId other h1 h2 h3 => hsettled (hbefore otherId other h1 h2 h3)⟩
    · rw [List.mem_singleton.mp hnew]
      exact ⟨batch, hbatch, fun otherId other h1 h2 h3 => hsettled (hearlier otherId other h1 h2 h3)⟩
  · intro row hrow
    rcases List.mem_append.mp hrow with hold | hnew
    · exact hc.boundRun row hold
    · rw [List.mem_singleton.mp hnew]
      exact ⟨run, hrun⟩
  · -- the new binding is the only live one of its plan
    intro row hrow row' hrow' hscope hrowlive hrowlive'
    have hdead : ∀ old ∈ store.batchRuns, old.workScopeId = workScopeId →
        ¬ (store.bindBatch workScopeId batchId runId boundBy now).1.isLive old = true := by
      intro old hold hsame hold_live
      have hfalse := hlive old hold hsame
      have hsame_live : (store.bindBatch workScopeId batchId runId boundBy now).1.isLive old =
          store.isLive old := rfl
      rw [hsame_live, hfalse] at hold_live
      cases hold_live
    rcases List.mem_append.mp hrow with hold | hnew
    · rcases List.mem_append.mp hrow' with hold' | hnew'
      · exact hc.oneLive row hold row' hold' hscope hrowlive hrowlive'
      · rw [List.mem_singleton.mp hnew'] at hscope
        exact absurd hrowlive (hdead row hold hscope)
    · rcases List.mem_append.mp hrow' with hold' | hnew'
      · rw [List.mem_singleton.mp hnew] at hscope
        exact absurd hrowlive' (hdead row' hold' hscope.symm)
      · rw [List.mem_singleton.mp hnew, List.mem_singleton.mp hnew']
  · -- the attempts of its batch grow by the next number, those of the others stay
    intro id
    show ((store.batchRuns ++ [_]).filter _).map _ = List.range' 1 ((store.batchRuns ++ [_]).filter _).length
    rw [List.filter_append, List.map_append, List.length_append, hc.attempts id]
    by_cases hid : batchId = id
    · rw [← hid, List.filter_cons_of_pos (by simp), List.filter_nil, nextAttempt_eq (hc.attempts batchId)]
      rw [List.length_singleton, List.range'_1_concat]
      simp [Nat.add_comm]
    · rw [List.filter_cons_of_neg (by simpa using hid), List.filter_nil]
      simp
  · exact hc.prepared
  · exact hc.oneRunPerKey

/-! ### The two entry points -/

theorem findRunByIdempotency_eq_none {userId : Text} :
    store.findRunByIdempotency conversationId userId key = none ↔
      ∀ runId run, store.runs.get? runId = some run → ¬ StartedBy conversationId userId key run := by
  unfold findRunByIdempotency StartedBy
  rw [List.find?_eq_none]
  simp only [Prod.forall, Bool.and_eq_true, decide_eq_true_eq, ← Dict.get?_eq_some, and_assoc]

theorem startedBy_of_findRun {userId : Text} {existing : Text × ScopeRun}
    (h : store.findRunByIdempotency conversationId userId key = some existing) :
    store.runs.get? existing.1 = some existing.2 ∧ StartedBy conversationId userId key existing.2 := by
  unfold findRunByIdempotency at h
  have hmatch := List.find?_some h
  simp only [Bool.and_eq_true, decide_eq_true_eq] at hmatch
  exact ⟨Dict.get?_eq_some.mpr (List.mem_of_find?_eq_some h), hmatch.1.1, hmatch.1.2, hmatch.2⟩

/-- What the run creator does: nothing, or a queued run under the id asked for. -/
theorem createMessageAndRun_ok {answer : Text × Bool}
    (h : store.createMessageAndRun conversationId request = .ok (next, answer)) :
    (next = store ∧ answer.2 = false) ∨
    (store.replayed conversationId request = none ∧
      ∃ run : ScopeRun, next = { store with runs := store.runs.set request.runId run } ∧
        run.status = .queued ∧ run.conversationId = conversationId ∧
        run.requestedBy = some request.requestedBy ∧ run.idempotencyKey = request.idempotencyKey) := by
  rcases except_bind_eq_ok.mp h with ⟨-, -, h⟩
  cases hreplayed : store.replayed conversationId request with
  | some existing =>
    rw [hreplayed] at h
    rcases except_bind_eq_ok.mp h with ⟨-, -, h⟩
    cases h
    exact Or.inl ⟨rfl, rfl⟩
  | none =>
    rw [hreplayed] at h
    rcases except_bind_eq_ok.mp h with ⟨-, -, h⟩
    rcases except_bind_eq_ok.mp h with ⟨projectId, -, h⟩
    rcases except_bind_eq_ok.mp h with ⟨-, -, h⟩
    rcases except_bind_eq_ok.mp h with ⟨-, -, h⟩
    rcases except_bind_eq_ok.mp h with ⟨-, -, h⟩
    rcases except_bind_eq_ok.mp h with ⟨-, -, h⟩
    cases h
    exact Or.inr ⟨rfl, _, rfl, rfl, rfl, rfl, rfl⟩

theorem not_startedBy_of_replayed (h : store.replayed conversationId request = none)
    (hkey : request.idempotencyKey = some key) (hne : key ≠ []) (hrun : store.runs.get? runId = some run) :
    ¬ StartedBy conversationId request.requestedBy key run := by
  unfold replayed at h
  rw [hkey, Option.bind_some, if_neg hne] at h
  exact findRunByIdempotency_eq_none.mp h runId run hrun

/-- What binding a run that exists does: nothing, or a binding under the rules. -/
theorem bindWorkScopeBatchRun_ok {boundBy : Text} {answer : BatchRun × Bool}
    (h : store.bindWorkScopeBatchRun batchId runId expectedRevision expectedDigest boundBy now = .ok (next, answer)) :
    next = store ∨ ∃ batch run, store.IsBatch batchId batch ∧ store.runs.get? runId = some run ∧
      store.checkBatchContinuation batch.workScopeId batchId batch = .ok () ∧
      next = (store.bindBatch batch.workScopeId batchId runId boundBy now).1 := by
  rcases except_bind_eq_ok.mp h with ⟨batch, hbatch, h⟩
  rcases except_bind_eq_ok.mp h with ⟨plan, -, h⟩
  rcases except_bind_eq_ok.mp h with ⟨-, -, h⟩
  rcases except_bind_eq_ok.mp h with ⟨-, -, h⟩
  rcases except_bind_eq_ok.mp h with ⟨-, -, h⟩
  rcases except_bind_eq_ok.mp h with ⟨-, -, h⟩
  rcases except_bind_eq_ok.mp h with ⟨run, hrun, h⟩
  rcases except_bind_eq_ok.mp h with ⟨-, -, h⟩
  cases hexisting : store.batchRuns.find? fun row => row.runId = runId with
  | some existing =>
    rw [hexisting] at h
    rcases except_bind_eq_ok.mp h with ⟨-, -, h⟩
    cases h
    exact Or.inl rfl
  | none =>
    rw [hexisting] at h
    rcases except_bind_eq_ok.mp h with ⟨-, -, h⟩
    rcases except_bind_eq_ok.mp h with ⟨_, hcheck, h⟩
    cases h
    exact Or.inr ⟨batch, run, required_eq_ok.mp hbatch, required_eq_ok.mp hrun, hcheck, rfl⟩

/-- What a start does that is answered: its run is there, or it shares the live run of its batch, or its
    key is new and a new run is bound under the rules. -/
theorem createWorkScopeBatchRun_ok
    (h : store.createWorkScopeBatchRun workScopeId batchId expectedRevision expectedDigest request now =
      .ok (next, answer)) :
    ∃ plan key, store.workScopes.get? workScopeId = some plan ∧ request.idempotencyKey = some key ∧
      (next = store ∧ (∃ runId run, store.runs.get? runId = some run ∧
          StartedBy plan.conversationId request.requestedBy key run) ∨
        next = store ∧ (∃ batch live,
          store.SharesRun workScopeId batchId expectedRevision expectedDigest request plan batch live key) ∨
        (∀ runId run, store.runs.get? runId = some run →
          ¬ StartedBy plan.conversationId request.requestedBy key run) ∧
        ∃ batch run, store.IsBatch batchId batch ∧
          store.checkBatchContinuation workScopeId batchId batch = .ok () ∧
          run.status = .queued ∧ StartedBy plan.conversationId request.requestedBy key run ∧
          next = ({ store with runs := store.runs.set request.runId run }.bindBatch workScopeId batchId
            request.runId request.requestedBy now).1) := by
  rcases except_bind_eq_ok.mp h with ⟨key, hkey, h⟩
  rcases except_bind_eq_ok.mp h with ⟨_, hblank, h⟩
  rcases except_bind_eq_ok.mp h with ⟨plan, hplan, h⟩
  rcases except_bind_eq_ok.mp h with ⟨_, hmember, h⟩
  have hkey' := required_eq_ok.mp hkey
  have hplan' := required_eq_ok.mp hplan
  refine ⟨plan, key, hplan', hkey', ?_⟩
  cases hexisting : store.findRunByIdempotency plan.conversationId request.requestedBy key with
  | some existing =>
    rw [hexisting] at h
    rcases except_bind_eq_ok.mp h with ⟨replay, -, h⟩
    cases h
    exact Or.inl ⟨rfl, existing.1, existing.2, startedBy_of_findRun hexisting⟩
  | none =>
    right
    rw [hexisting] at h
    rcases except_bind_eq_ok.mp h with ⟨_, hworkflow, h⟩
    rcases except_bind_eq_ok.mp h with ⟨_, hidentity, h⟩
    rcases except_bind_eq_ok.mp h with ⟨_, hclosed, h⟩
    rcases except_bind_eq_ok.mp h with ⟨_, hexpected, h⟩
    rcases except_bind_eq_ok.mp h with ⟨batch, hbatch, h⟩
    rcases except_bind_eq_ok.mp h with ⟨_, hscope, h⟩
    rcases except_bind_eq_ok.mp h with ⟨_, hcurrent, h⟩
    rcases except_bind_eq_ok.mp h with ⟨_, hpaused, h⟩
    cases hlive : store.liveBatchBinding workScopeId with
    | some live =>
      rw [hlive] at h
      rcases except_bind_eq_ok.mp h with ⟨_, hsame, h⟩
      cases h
      rw [refuseIf_eq_ok] at hblank hmember hworkflow hidentity hclosed hexpected hscope hcurrent hpaused hsame
      rw [not_or] at hblank hexpected hcurrent
      -- the branch that answers with the live run and stores the key nowhere
      exact Or.inl ⟨rfl, batch, live,
        { found := hplan'
          editable := Bool.not_eq_true _ ▸ hclosed
          member := Bool.not_eq_false _ ▸ hmember
          workflow := ⟨not_not.mp hworkflow, not_not.mp hidentity⟩
          expected := ⟨not_not.mp hexpected.1, not_not.mp hexpected.2⟩
          prepared := ⟨required_eq_ok.mp hbatch, not_not.mp hscope⟩
          current := ⟨not_not.mp hcurrent.1, not_not.mp hcurrent.2⟩
          resumed := Bool.not_eq_true _ ▸ hpaused
          keyed := ⟨hkey', hblank⟩
          unused := hexisting
          running := ⟨hlive, not_not.mp hsame⟩ }⟩
    | none =>
      rw [hlive] at h
      rcases except_bind_eq_ok.mp h with ⟨_, hcheck, h⟩
      rcases except_bind_eq_ok.mp h with ⟨created, hcreated, h⟩
      rcases except_bind_eq_ok.mp h with ⟨_, hnew, h⟩
      cases h
      rcases createMessageAndRun_ok hcreated with
        ⟨-, hflag⟩ | ⟨-, run, hstore, hqueued, hconversation, hrequested, hrunkey⟩
      · -- a run that was there already is refused
        exact absurd (Or.inl hflag) (refuseIf_eq_ok.mp hnew)
      · refine Or.inr ⟨findRunByIdempotency_eq_none.mp hexisting, batch, run, required_eq_ok.mp hbatch, hcheck,
          hqueued, ⟨hconversation, hrequested, hrunkey.trans hkey'⟩, ?_⟩
        rw [hstore]

/-! ## 4. Each step -/

theorem Advances.runs_set
    (h : ∀ old, store.runs.get? runId = some old → (old.status.isTerminal = true →
      run.status = old.status) ∧ run.conversationId = old.conversationId ∧
      run.requestedBy = old.requestedBy ∧ run.idempotencyKey = old.idempotencyKey) :
    store.Advances { store with runs := store.runs.set runId run } where
  batchRuns := rfl
  batches := rfl
  preparations := rfl
  kept id old hold := by
    show ∃ next, (store.runs.set runId run).get? id = some next ∧ _
    by_cases hid : id = runId
    · rw [hid] at hold ⊢
      exact ⟨run, Dict.get?_set_self _ _ _, h old hold⟩
    · rw [Dict.get?_set_ne _ _ hid]
      exact ⟨old, hold, fun _ => rfl, rfl, rfl, rfl⟩

theorem Advances.moved {next : ScopeRun} (hrun : store.runs.get? runId = some run)
    (hopen : run.status.isTerminal = false) (hconversation : next.conversationId = run.conversationId)
    (hrequested : next.requestedBy = run.requestedBy) (hkey : next.idempotencyKey = run.idempotencyKey) :
    store.Advances { store with runs := store.runs.set runId next } := by
  apply Advances.runs_set
  intro old hold
  rw [hrun] at hold
  cases hold
  refine ⟨?_, hconversation, hrequested, hkey⟩
  intro hterminal
  rw [hopen] at hterminal
  cases hterminal

/-- A run set keeps the keys apart, if no other run was created for its start. -/
theorem Consistent.runs_set (hc : store.Consistent)
    (h : store.Advances { store with runs := store.runs.set runId run })
    (hnew : ∀ conversationId requestedBy idempotencyKey, idempotencyKey ≠ [] →
      StartedBy conversationId requestedBy idempotencyKey run → ∀ otherId other, otherId ≠ runId →
      store.runs.get? otherId = some other →
      ¬ StartedBy conversationId requestedBy idempotencyKey other) :
    { store with runs := store.runs.set runId run }.Consistent := by
  apply hc.advances h
  intro id first otherId second conversationId requestedBy idempotencyKey hne hfirst hsecond hstart
    hstart'
  simp only [Dict.get?_set] at hfirst hsecond
  by_cases hid : id = runId
  · by_cases hother : otherId = runId
    · rw [hid, hother]
    · rw [if_pos hid] at hfirst
      rw [if_neg hother] at hsecond
      cases hfirst
      exact absurd hstart' (hnew _ _ _ hne hstart otherId second hother hsecond)
  · rw [if_neg hid] at hfirst
    by_cases hother : otherId = runId
    · rw [if_pos hother] at hsecond
      cases hsecond
      exact absurd hstart (hnew _ _ _ hne hstart' id first hid hfirst)
    · rw [if_neg hother] at hsecond
      exact hc.oneRunPerKey id first otherId second _ _ _ hne hfirst hsecond hstart hstart'

theorem Consistent.of_tables (hc : store.Consistent) (hbatchRuns : other.batchRuns = store.batchRuns)
    (hbatches : other.batches = store.batches) (hprep : other.preparations = store.preparations)
    (hruns : other.runs = store.runs) : other.Consistent := by
  apply hc.advances ⟨hbatchRuns, hbatches, hprep, ?_⟩
  · rw [hruns]
    exact hc.oneRunPerKey
  · intro runId run hrun
    exact ⟨run, hruns ▸ hrun, fun _ => rfl, rfl, rfl, rfl⟩

theorem Consistent.newRun (hc : store.Consistent) (hfresh : store.runs.get? request.runId = none)
    (hrequested : run.requestedBy = some request.requestedBy) (hconversation : run.conversationId = conversationId)
    (hkey : run.idempotencyKey = request.idempotencyKey)
    (hunused : ∀ key, request.idempotencyKey = some key → key ≠ [] → ∀ runId old,
      store.runs.get? runId = some old → ¬ StartedBy conversationId request.requestedBy key old) :
    store.Advances { store with runs := store.runs.set request.runId run } ∧
      { store with runs := store.runs.set request.runId run }.Consistent := by
  have hadvances : store.Advances { store with runs := store.runs.set request.runId run } := by
    apply Advances.runs_set
    intro old hold
    rw [hfresh] at hold
    cases hold
  refine ⟨hadvances, hc.runs_set hadvances ?_⟩
  intro conversationId' requestedBy' key hne hstart otherId other' _ hother
  rcases hstart with ⟨hconversation', hrequested', hkey'⟩
  rw [hconversation] at hconversation'
  rw [hrequested] at hrequested'
  rw [hkey] at hkey'
  rw [← hconversation', ← Option.some.inj hrequested']
  exact hunused key hkey' hne otherId other' hother

theorem Consistent.prepare (hc : store.Consistent) {preparationId : Text} {batchIds : List Text}
    (hfresh : store.preparations.get? preparationId = none)
    (hids : ∀ batchId ∈ batchIds, store.batches.get? batchId = none) :
    { store with
      preparations := store.preparations.set preparationId (workScopeId, plan.headRevision)
      batches := store.batches.setAll
        (preparedBatches preparationId workScopeId plan batchIds) }.Consistent := by
  have hkeys : ∀ id, id ∈ (preparedBatches preparationId workScopeId plan batchIds).map Prod.fst →
      id ∈ batchIds := by
    intro id hid
    rcases List.mem_map.mp hid with ⟨e, he, hfst⟩
    unfold preparedBatches at he
    rcases List.mem_map.mp he with ⟨numbered, hnumbered, heq⟩
    rw [← hfst, ← heq]
    exact List.fst_mem_of_mem_zipIdx hnumbered
  have hpreparation : ∀ id batch,
      (id, batch) ∈ preparedBatches preparationId workScopeId plan batchIds →
      batch.preparationId = preparationId := by
    intro id batch hmem
    unfold preparedBatches at hmem
    rcases List.mem_map.mp hmem with ⟨numbered, -, heq⟩
    rw [← (Prod.mk.inj heq).2]
  have hold : ∀ id batch, store.batches.get? id = some batch → (store.batches.setAll
      (preparedBatches preparationId workScopeId plan batchIds)).get? id = some batch := by
    intro id batch hget
    rw [Dict.get?_setAll_of_notMem]
    · exact hget
    · intro hmem
      rw [hids id (hkeys id hmem)] at hget
      cases hget
  constructor
  · intro row hrow
    rcases hc.boundBatch row hrow with ⟨batch, hbatch, hearlier⟩
    refine ⟨batch, hold _ _ hbatch, ?_⟩
    intro otherId other' hother hprep hlt
    rcases Dict.get?_setAll_cases hother with hnew | ⟨-, hother⟩
    · -- a batch of the new preparation is of no batch bound before
      exfalso
      rcases hc.prepared row.batchId batch hbatch with ⟨made, hmade⟩
      rw [← hprep, hpreparation otherId other' hnew, hfresh] at hmade
      cases hmade
    · exact hearlier otherId other' hother hprep hlt
  · exact hc.boundRun
  · exact hc.oneLive
  · exact hc.attempts
  · intro id batch hbatch
    show ∃ made, (store.preparations.set preparationId _).get? batch.preparationId = some made
    rcases Dict.get?_setAll_cases hbatch with hnew | ⟨-, hget⟩
    · rw [hpreparation id batch hnew]
      exact ⟨_, Dict.get?_set_self _ _ _⟩
    · rcases hc.prepared id batch hget with ⟨made, hmade⟩
      refine ⟨made, ?_⟩
      rw [Dict.get?_set_ne]
      · exact hmade
      · intro heq
        rw [heq, hfresh] at hmade
        cases hmade
  · exact hc.oneRunPerKey

/-- A binding under the rules, made after runs advanced. -/
theorem Consistent.bindChecked (hc : store.Consistent) (hcother : other.Consistent) (h : store.Advances other)
    {boundBy : Text} (hbatch : store.IsBatch batchId batch) (hrun : other.runs.get? runId = some run)
    (hcheck : store.checkBatchContinuation workScopeId batchId batch = .ok ()) :
    (other.bindBatch workScopeId batchId runId boundBy now).1.Consistent := by
  rcases checkBatchContinuation_ok hcheck with ⟨-, hnone, -, hnext⟩
  have hbatches : ∀ {id b}, other.IsBatch id b → store.IsBatch id b := by
    intro id b hb
    unfold IsBatch at hb ⊢
    rw [← h.batches]
    exact hb
  have hother : other.IsBatch batchId batch := by
    unfold IsBatch
    rw [h.batches]
    exact hbatch
  apply hcother.bindBatch hother hrun
  · intro row hrow hscope
    rw [h.batchRuns] at hrow
    cases hlive : other.isLive row with
    | false => rfl
    | true =>
      have hlive' := h.isLive hc hrow hlive
      rw [isLive_eq_false_of_liveBatchBinding hnone hrow hscope] at hlive'
      cases hlive'
  · intro otherId earlier hother hprep hlt
    exact h.batchSettled (batchSettled_of_nextBatch hbatch hnext (hbatches hother) hprep hlt)

theorem Advances.refl (store : ScopeStore) : store.Advances store :=
  ⟨rfl, rfl, rfl, fun _ run hrun => ⟨run, hrun, fun _ => rfl, rfl, rfl, rfl⟩⟩

/-! ### Everything a step can do -/

/-- A queued run under a new id, whose start no run was created for. -/
structure Created (store other : ScopeStore) : Prop where
  exists_run : ∃ (conversationId : Text) (request : RunRequest) (run : ScopeRun), store.runs.get? request.runId = none ∧
    run.status = .queued ∧ run.conversationId = conversationId ∧
    run.requestedBy = some request.requestedBy ∧ run.idempotencyKey = request.idempotencyKey ∧
    (∀ key, request.idempotencyKey = some key → key ≠ [] → ∀ runId old,
      store.runs.get? runId = some old → ¬ StartedBy conversationId request.requestedBy key old) ∧
    other = { store with runs := store.runs.set request.runId run }

/-- What a step makes of the store. -/
inductive Effect (store : ScopeStore) : ScopeStore → Prop
  | same : Effect store store
  | plans (workScopes : Dict Text WorkScope) (controls : List ScopeControl)
      (hkept : ∀ id plan, store.workScopes.get? id = some plan → ∃ next,
        workScopes.get? id = some next ∧ next.conversationId = plan.conversationId) :
      Effect store { store with workScopes := workScopes, controls := controls }
  | prepared (workScopeId preparationId : Text) (batchIds : List Text) (plan : WorkScope)
      (hfresh : store.preparations.get? preparationId = none)
      (hids : ∀ batchId ∈ batchIds, store.batches.get? batchId = none) :
      Effect store
        { store with
          preparations := store.preparations.set preparationId (workScopeId, plan.headRevision)
          batches := store.batches.setAll (preparedBatches preparationId workScopeId plan batchIds) }
  | created (other : ScopeStore) (h : store.Created other) : Effect store other
  | moved (runId : Text) (run next : ScopeRun) (hrun : store.runs.get? runId = some run)
      (hopen : run.status.isTerminal = false) (hconversation : next.conversationId = run.conversationId)
      (hrequested : next.requestedBy = run.requestedBy)
      (hkey : next.idempotencyKey = run.idempotencyKey) :
      Effect store { store with runs := store.runs.set runId next }
  | bound (other : ScopeStore) (h : other = store ∨ store.Created other)
      (workScopeId batchId runId boundBy : Text) (now : ℤ) (batch : ScopeBatch) (run : ScopeRun)
      (hbatch : store.IsBatch batchId batch) (hrun : other.runs.get? runId = some run)
      (hcheck : store.checkBatchContinuation workScopeId batchId batch = .ok ()) :
      Effect store (other.bindBatch workScopeId batchId runId boundBy now).1

/-- A plan row replaced by one of the same conversation. -/
theorem workScopes_set_kept {next : WorkScope} (hplan : store.workScopes.get? workScopeId = some plan)
    (hconversation : next.conversationId = plan.conversationId) :
    ∀ id old, store.workScopes.get? id = some old → ∃ kept,
      (store.workScopes.set workScopeId next).get? id = some kept ∧
        kept.conversationId = old.conversationId := by
  intro id old hold
  by_cases hid : id = workScopeId
  · rw [hid] at hold ⊢
    rw [hplan] at hold
    cases hold
    exact ⟨next, Dict.get?_set_self _ _ _, hconversation⟩
  · rw [Dict.get?_set_ne _ _ hid]
    exact ⟨old, hold, rfl⟩

theorem Created.advances (h : store.Created other) : store.Advances other := by
  rcases h.exists_run with ⟨conversationId, request, run, hfresh, -, -, -, -, -, heq⟩
  rw [heq]
  apply Advances.runs_set
  intro old hold
  rw [hfresh] at hold
  cases hold

theorem Created.consistent (hc : store.Consistent) (h : store.Created other) : other.Consistent := by
  rcases h.exists_run with
    ⟨conversationId, request, run, hfresh, -, hconversation, hrequested, hkey, hunused, heq⟩
  rw [heq]
  exact (hc.newRun hfresh hrequested hconversation hkey hunused).2

theorem Effect.consistent (hc : store.Consistent) (h : store.Effect other) : other.Consistent := by
  cases h with
  | same => exact hc
  | plans workScopes controls hkept => exact hc.of_tables rfl rfl rfl rfl
  | prepared workScopeId preparationId batchIds plan hfresh hids => exact hc.prepare hfresh hids
  | created other h => exact h.consistent hc
  | moved runId run next hrun hopen hconversation hrequested hkey =>
    apply hc.runs_set (Advances.moved hrun hopen hconversation hrequested hkey)
    · intro conversationId requestedBy key hne hstart otherId other hother hget hstart'
      have hold : StartedBy conversationId requestedBy key run :=
        ⟨hconversation ▸ hstart.1, hrequested ▸ hstart.2.1, hkey ▸ hstart.2.2⟩
      exact hother (hc.oneRunPerKey otherId other runId run _ _ _ hne hget hrun hstart' hold)
  | bound base h workScopeId batchId runId boundBy now batch run hbatch hrun hcheck =>
    rcases h with heq | hcreated
    · rw [heq] at hrun ⊢
      exact hc.bindChecked hc (Advances.refl store) hbatch hrun hcheck
    · exact hc.bindChecked (hcreated.consistent hc) hcreated.advances hbatch hrun hcheck

theorem Effect.bindsOpen (h : store.Effect other) (hrow : row ∈ other.batchRuns) (hnew : row ∉ store.batchRuns) :
    store.batchSettled row.batchId = false ∧ store.workScopePaused row.workScopeId = false := by
  cases h with
  | same => exact absurd hrow hnew
  | plans workScopes controls hkept => exact absurd hrow hnew
  | prepared workScopeId preparationId batchIds plan hfresh hids => exact absurd hrow hnew
  | created other h =>
    rw [h.advances.batchRuns] at hrow
    exact absurd hrow hnew
  | moved runId run next hrun hopen hconversation hrequested hkey => exact absurd hrow hnew
  | bound base h workScopeId batchId runId boundBy now batch run hbatch hrun hcheck =>
    have hsame : base.batchRuns = store.batchRuns := by
      rcases h with heq | hcreated
      · rw [heq]
      · exact hcreated.advances.batchRuns
    rcases checkBatchContinuation_ok hcheck with ⟨hpaused, -, hsettled, -⟩
    rcases List.mem_append.mp hrow with hold | hlast
    · rw [hsame] at hold
      exact absurd hold hnew
    · rw [List.mem_singleton.mp hlast]
      exact ⟨hsettled, hpaused⟩

/-- A run was created for a start of this plan. -/
def HasStarted (store : ScopeStore) (workScopeId requestedBy key : Text) : Prop :=
  ∃ plan runId run, store.workScopes.get? workScopeId = some plan ∧
    store.runs.get? runId = some run ∧ StartedBy plan.conversationId requestedBy key run

theorem Advances.hasStarted (h : store.Advances other) (hplans : other.workScopes = store.workScopes)
    {requestedBy : Text} (hstarted : store.HasStarted workScopeId requestedBy key) :
    other.HasStarted workScopeId requestedBy key := by
  rcases hstarted with ⟨plan, runId, run, hplan, hrun, hconversation, hrequested, hkey⟩
  rcases h.kept runId run hrun with ⟨next, hnext, -, hconversation', hrequested', hkey'⟩
  exact ⟨plan, runId, next, hplans ▸ hplan, hnext, hconversation'.trans hconversation,
    hrequested'.trans hrequested, hkey'.trans hkey⟩

/-- An answered start has a run under its key, unless it shares the live run of its batch. -/
theorem hasStarted_of_answered
    (h : store.createWorkScopeBatchRun workScopeId batchId expectedRevision expectedDigest request now =
      .ok (next, answer))
    (hown : ∀ plan batch live key,
      ¬ store.SharesRun workScopeId batchId expectedRevision expectedDigest request plan batch live key) :
    ∃ key, request.idempotencyKey = some key ∧ next.HasStarted workScopeId request.requestedBy key := by
  rcases createWorkScopeBatchRun_ok h with ⟨plan, key, hplan, hkey, hdone⟩
  refine ⟨key, hkey, ?_⟩
  rcases hdone with ⟨hsame, runId, run, hrun⟩ | ⟨-, batch, live, hshares⟩ |
    ⟨-, batch, run, -, -, -, hstart, hnext⟩
  · rw [hsame]
    exact ⟨plan, runId, run, hplan, hrun⟩
  · exact absurd hshares (hown plan batch live key)
  · rw [hnext]
    exact ⟨plan, request.runId, run, hplan, Dict.get?_set_self _ _ _, hstart⟩

theorem Effect.hasStarted (h : store.Effect other) {requestedBy : Text}
    (hstarted : store.HasStarted workScopeId requestedBy key) : other.HasStarted workScopeId requestedBy key := by
  have hcreated : ∀ {base : ScopeStore}, store.Created base →
      base.HasStarted workScopeId requestedBy key := by
    intro base hbase
    apply hbase.advances.hasStarted _ hstarted
    rcases hbase.exists_run with ⟨conversationId, request, run, -, -, -, -, -, -, heq⟩
    rw [heq]
  cases h with
  | same => exact hstarted
  | plans workScopes controls hkept =>
    rcases hstarted with ⟨plan, runId, run, hplan, hrun, hstart⟩
    rcases hkept workScopeId plan hplan with ⟨next, hnext, hconversation⟩
    exact ⟨next, runId, run, hnext, hrun, hconversation.symm ▸ hstart⟩
  | prepared workScopeId preparationId batchIds plan hfresh hids => exact hstarted
  | created other h => exact hcreated h
  | moved runId run next hrun hopen hconversation hrequested hkey =>
    exact (Advances.moved hrun hopen hconversation hrequested hkey).hasStarted rfl hstarted
  | bound base h workScopeId' batchId runId boundBy now batch run hbatch hrun hcheck =>
    have hbase : base.HasStarted workScopeId requestedBy key := by
      rcases h with heq | hnew
      · rw [heq]
        exact hstarted
      · exact hcreated hnew
    exact hbase

end ScopeStore

namespace ScopeEvent

open ScopeStore

variable {store : ScopeStore} {event : ScopeEvent}

/-- A start does nothing, or creates a run for itself and binds it; its key was unused. -/
theorem exec_create (workScopeId batchId : Text) (expectedRevision : ℕ) (expectedDigest : Text)
    (request : RunRequest) (now : ℤ) (hfresh : store.runs.get? request.runId = none) :
    (create workScopeId batchId expectedRevision expectedDigest request now).exec store = store ∨
    ∃ key, request.idempotencyKey = some key ∧
      ¬ store.HasStarted workScopeId request.requestedBy key ∧
      store.Effect
        ((create workScopeId batchId expectedRevision expectedDigest request now).exec store) ∧
      ((create workScopeId batchId expectedRevision expectedDigest request now).exec store).HasStarted
        workScopeId request.requestedBy key := by
  unfold exec
  simp only
  cases hcreate : store.createWorkScopeBatchRun workScopeId batchId expectedRevision expectedDigest
    request now with
  | error error => exact Or.inl rfl
  | ok answer =>
    rcases createWorkScopeBatchRun_ok hcreate with ⟨plan, key, hplan, hkey, hdone⟩
    rcases hdone with ⟨hsame, -⟩ | ⟨hsame, -⟩ | ⟨hunused, batch, run, hbatch, hcheck, hqueued, hstart, hnext⟩
    · exact Or.inl hsame
    · exact Or.inl hsame
    · right
      refine ⟨key, hkey, ?_, ?_, ?_⟩
      · intro hstarted
        rcases hstarted with ⟨plan', runId, old, hplan', hold, hstart'⟩
        rw [hplan] at hplan'
        cases hplan'
        exact hunused runId old hold hstart'
      · show store.Effect answer.1
        rw [hnext]
        refine Effect.bound _ (Or.inr ⟨plan.conversationId, request, run, hfresh, hqueued, hstart.1,
          hstart.2.1, hstart.2.2.trans hkey.symm, ?_, rfl⟩) workScopeId batchId request.runId
          request.requestedBy now batch run hbatch (Dict.get?_set_self _ _ _) hcheck
        intro key' hkey' _
        rw [hkey] at hkey'
        cases hkey'
        exact hunused
      · show answer.1.HasStarted workScopeId request.requestedBy key
        rw [hnext]
        exact ⟨plan, request.runId, run, hplan, Dict.get?_set_self _ _ _, hstart⟩

theorem effect_exec (hallowed : event.Allowed store) : store.Effect (event.exec store) := by
  cases event with
  | create workScopeId batchId expectedRevision expectedDigest request now =>
    rcases exec_create workScopeId batchId expectedRevision expectedDigest request now hallowed with
      hsame | ⟨key, -, -, heffect, -⟩
    · rw [hsame]
      exact Effect.same
    · exact heffect
  | bind batchId runId expectedRevision expectedDigest boundBy now =>
    unfold exec
    simp only
    cases hbind : store.bindWorkScopeBatchRun batchId runId expectedRevision expectedDigest boundBy
      now with
    | error error => exact Effect.same
    | ok answer =>
      show store.Effect answer.1
      rcases bindWorkScopeBatchRun_ok hbind with hsame | ⟨batch, run, hbatch, hrun, hcheck, hnext⟩
      · rw [hsame]
        exact Effect.same
      · rw [hnext]
        exact Effect.bound store (Or.inl rfl) _ _ _ _ _ batch run hbatch hrun hcheck
  | setPaused workScopeId pause requestedBy =>
    unfold exec
    simp only
    cases hpause : store.setWorkScopePaused workScopeId pause requestedBy with
    | error error => exact Effect.same
    | ok answer =>
      show store.Effect answer.1
      rcases except_bind_eq_ok.mp hpause with ⟨plan, -, hpause⟩
      rcases except_bind_eq_ok.mp hpause with ⟨-, -, hpause⟩
      rcases except_bind_eq_ok.mp hpause with ⟨-, -, hpause⟩
      rcases except_bind_eq_ok.mp hpause with ⟨-, -, hpause⟩
      split at hpause
      · cases hpause
        exact Effect.same
      · cases hpause
        exact Effect.plans store.workScopes _ fun id plan hplan => ⟨plan, hplan, rfl⟩
  | revise workScopeId digest =>
    unfold exec
    simp only
    cases hplan : store.workScopes.get? workScopeId with
    | none => exact Effect.same
    | some plan =>
      exact Effect.plans _ store.controls (workScopes_set_kept hplan rfl)
  | close workScopeId =>
    unfold exec
    simp only
    cases hplan : store.workScopes.get? workScopeId with
    | none => exact Effect.same
    | some plan =>
      exact Effect.plans _ store.controls (workScopes_set_kept hplan rfl)
  | prepare workScopeId preparationId batchIds =>
    rcases hallowed with ⟨hfresh, -, hids, plan, hplan, -⟩
    unfold exec
    simp only [hplan]
    exact Effect.prepared workScopeId preparationId batchIds plan hfresh hids
  | newRun conversationId request =>
    unfold exec
    simp only
    cases hcreate : store.createMessageAndRun conversationId request with
    | error error => exact Effect.same
    | ok answer =>
      show store.Effect answer.1
      rcases createMessageAndRun_ok hcreate with
        ⟨hsame, -⟩ | ⟨hreplayed, run, hnext, hqueued, hconversation, hrequested, hkey⟩
      · rw [hsame]
        exact Effect.same
      · exact Effect.created _ ⟨conversationId, request, run, hallowed, hqueued, hconversation,
          hrequested, hkey, fun key hkey' hne _ _ hold =>
            not_startedBy_of_replayed hreplayed hkey' hne hold, hnext⟩
  | runStatus runId status launchState =>
    rcases hallowed with ⟨run, hrun, hopen⟩
    unfold exec
    simp only [hrun]
    exact Effect.moved runId run _ hrun hopen rfl rfl rfl

theorem startsOnce (hallowed : event.Allowed store) : event.StartsOnce store where
  bindsOpen row hrow hnew := (effect_exec hallowed).bindsOpen hrow hnew
  replay workScopeId batchId expectedRevision expectedDigest request now plan key runId run heq hplan
      hkey hrun hstart := by
    rw [heq] at hallowed ⊢
    rcases exec_create workScopeId batchId expectedRevision expectedDigest request now hallowed with
      hsame | ⟨key', hkey', hunused, -⟩
    · exact hsame
    · rw [hkey] at hkey'
      cases hkey'
      exact absurd ⟨plan, runId, run, hplan, hrun, hstart⟩ hunused

end ScopeEvent

/-! ## 5. Every history -/

section Histories

variable {start state : ScopeStore} {hist : List (ScopeStore × ScopeEvent)}

theorem ScopeStore.Fresh.throughout (hfresh : start.Fresh)
    (hrun : Run (Performs (fun store event => ScopeEvent.Allowed store event) ScopeEvent.exec) start
      hist state) : Throughout ScopeStore.Consistent hist state := by
  apply hrun.throughout hfresh.consistent
  intro store event next hc hstep
  rw [hstep.2]
  exact (ScopeEvent.effect_exec hstep.1).consistent hc

/-- A start the step left a run for. -/
def ScopeEvent.Starts (store : ScopeStore) : ScopeEvent → Prop
  | .create workScopeId batchId expectedRevision expectedDigest request now =>
    ∃ key, request.idempotencyKey = some key ∧
      ((ScopeEvent.create workScopeId batchId expectedRevision expectedDigest request now).exec
        store).HasStarted workScopeId request.requestedBy key
  | _ => False

/-- A start is answered without a trace wherever one of its key has left a run. -/
theorem pairwise_starts
    (hrun : Run (Performs (fun store event => ScopeEvent.Allowed store event) ScopeEvent.exec) start
      hist state) :
    hist.Pairwise fun e e' => e.2.SameStart e'.2 → e.2.Starts e.1 → ¬ e'.2.Adds e'.1 := by
  -- a start that left a run is still known in every later state
  have hboth : (∀ e ∈ hist, e.2.Starts e.1 → ∀ workScopeId batchId expectedRevision expectedDigest
      request now, e.2 = .create workScopeId batchId expectedRevision expectedDigest request now →
      ∃ key, request.idempotencyKey = some key ∧
        state.HasStarted workScopeId request.requestedBy key) ∧
      hist.Pairwise fun e e' => e.2.SameStart e'.2 → e.2.Starts e.1 → ¬ e'.2.Adds e'.1 := by
    apply hrun.history_invariant (J := fun hist state => (∀ e ∈ hist, e.2.Starts e.1 →
      ∀ workScopeId batchId expectedRevision expectedDigest request now,
        e.2 = .create workScopeId batchId expectedRevision expectedDigest request now →
        ∃ key, request.idempotencyKey = some key ∧
          state.HasStarted workScopeId request.requestedBy key) ∧
      hist.Pairwise fun e e' => e.2.SameStart e'.2 → e.2.Starts e.1 → ¬ e'.2.Adds e'.1)
    · exact ⟨by simp, List.Pairwise.nil⟩
    · intro hist store event next _ ih hstep
      rcases ih with ⟨hstarted, hpairwise⟩
      have heffect := ScopeEvent.effect_exec hstep.1
      rw [hstep.2]
      apply And.intro
      · intro e he hstarts workScopeId batchId expectedRevision expectedDigest request now heq
        rcases List.mem_append.mp he with he | he
        · rcases hstarted e he hstarts workScopeId batchId expectedRevision expectedDigest request now
            heq with ⟨key, hkey, hhas⟩
          exact ⟨key, hkey, heffect.hasStarted hhas⟩
        · rw [List.mem_singleton.mp he] at heq hstarts
          have hevent : event =
              .create workScopeId batchId expectedRevision expectedDigest request now := heq
          rw [hevent] at hstarts ⊢
          exact hstarts
      · apply List.pairwise_append.mpr
        refine ⟨hpairwise, List.pairwise_singleton _ _, ?_⟩
        intro e he e' he' hsame hstarts hadds
        rw [List.mem_singleton.mp he'] at hsame hadds
        rcases e with ⟨earlier, first⟩
        cases first with
        | create workScopeId batchId expectedRevision expectedDigest request now =>
          cases event with
          | create workScopeId' batchId' expectedRevision' expectedDigest' request' now' =>
            rcases hsame with ⟨hplan, hrequested, hkeys⟩
            rcases hstarted _ he hstarts workScopeId batchId expectedRevision expectedDigest request now
              rfl with ⟨key, hkey, hhas⟩
            -- a start whose run is known does nothing, and one that does something has an unused key
            rcases ScopeEvent.exec_create workScopeId' batchId' expectedRevision' expectedDigest'
              request' now' hstep.1 with hnothing | ⟨key', hkey', hunused, -⟩
            · exact hadds hnothing
            · rw [hkeys, hkey'] at hkey
              cases hkey
              rw [hplan, hrequested] at hhas
              exact hunused hhas
          | _ => exact hsame
        | _ => exact hsame
  exact hboth.2

variable {event : ScopeEvent}

theorem ScopeEvent.Adds.starts {store : ScopeStore} {other : ScopeEvent} (h : event.Adds store)
    (hallowed : event.Allowed store) (hsame : event.SameStart other) : event.Starts store := by
  cases event with
  | create workScopeId batchId expectedRevision expectedDigest request now =>
    rcases ScopeEvent.exec_create workScopeId batchId expectedRevision expectedDigest request now
      hallowed with hnothing | ⟨key, hkey, -, -, hhas⟩
    · exact absurd hnothing h
    · exact ⟨key, hkey, hhas⟩
  | _ => exact hsame.elim

theorem ScopeEvent.Answered.starts {store : ScopeStore} (h : event.Answered store) (hown : event.OwnRun store) :
    event.Starts store := by
  cases event with
  | create workScopeId batchId expectedRevision expectedDigest request now =>
    rcases h with ⟨answer, hanswer⟩
    rcases ScopeStore.hasStarted_of_answered hanswer hown with ⟨key, hkey, hhas⟩
    refine ⟨key, hkey, ?_⟩
    unfold ScopeEvent.exec
    simp only [hanswer]
    exact hhas
  | _ => exact h.elim

theorem ScopeEvent.Repeats.sameStart {other : ScopeEvent} (h : event.Repeats other) : event.SameStart other := by
  cases event with
  | create =>
    cases other with
    | create => exact ⟨h.1, h.2.1, h.2.2.1⟩
    | _ => exact h
  | _ => exact h

/-- In every history the batches of a plan run one at a time, in order, once, and of the requests for
    one start one adds something at most; and if no start of it shares the live run of its batch, an
    answered request adds nothing when it is sent again. -/
theorem batches_run_once (hfresh : start.Fresh)
    (hrun : Run (Performs (fun store event => ScopeEvent.Allowed store event) ScopeEvent.exec) start
      hist state) :
    Throughout ScopeStore.OneAtATime hist state ∧ (∀ e ∈ hist, e.2.StartsOnce e.1) ∧
      (hist.Pairwise fun e e' => e.2.SameStart e'.2 → e.2.Adds e.1 → ¬ e'.2.Adds e'.1) ∧
      ((∀ e ∈ hist, e.2.OwnRun e.1) → AnsweredOnce hist) := by
  have hconsistent := hfresh.throughout hrun
  have hstarts := pairwise_starts hrun
  refine ⟨⟨fun e he => (hconsistent.1 e he).oneAtATime, hconsistent.2.oneAtATime⟩, ?_, ?_, ?_⟩
  · intro e he
    exact ScopeEvent.startsOnce (hrun.allowed he)
  · apply List.Pairwise.imp_of_mem _ hstarts
    intro e e' he _ hlater hsame hadds
    exact hlater hsame (hadds.starts (hrun.allowed he) hsame)
  · intro hown
    apply List.Pairwise.imp_of_mem _ hstarts
    intro e e' he _ hlater hrepeats hanswered
    exact hlater hrepeats.sameStart (hanswered.starts (hown e he))

end Histories

/-! ## 6. A plan started twice -/

def draftPlan : ScopeStore where
  projects := ⟨[("project".toList, swarmV2)], by decide⟩
  members := [("project".toList, "owner".toList)]
  conversations := ⟨[("conversation".toList, "project".toList)], by decide⟩
  workScopes := ⟨[("plan".toList, ⟨"conversation".toList, "project".toList, 1, "d1".toList, false⟩)],
    by decide⟩
  preparations := Dict.empty
  batches := Dict.empty
  batchRuns := []
  controls := []
  runs := Dict.empty

theorem draftPlan_fresh : draftPlan.Fresh where
  batchRuns := rfl
  runs _ := rfl
  prepared batchId batch h := by
    have hnone : draftPlan.batches.get? batchId = none := rfl
    rw [hnone] at h
    cases h

def startRequest (runId key : String) : ScopeStore.RunRequest where
  runId := runId.toList
  identityRunId := some runId.toList
  identityWorkflow := some swarmV2
  requestedBy := "owner".toList
  idempotencyKey := some key.toList
  requestFingerprint := "fingerprint".toList

/-- The plan is prepared, its first batch is started, and the start is sent again. -/
def startedTwice : List ScopeEvent :=
  [.prepare "plan".toList "preparation".toList ["batch1".toList, "batch2".toList],
    .create "plan".toList "batch1".toList 1 "d1".toList (startRequest "run1" "key") 10,
    .create "plan".toList "batch1".toList 1 "d1".toList (startRequest "run2" "key") 20]

theorem allowed_prepare : ScopeEvent.Allowed draftPlan
    (.prepare "plan".toList "preparation".toList ["batch1".toList, "batch2".toList]) := by
  refine ⟨rfl, by decide, fun _ _ => rfl, _, rfl, rfl, ?_⟩
  intro id h
  cases h

theorem batches_run_once_startedTwice :
    Throughout ScopeStore.OneAtATime (performed ScopeEvent.exec draftPlan startedTwice)
        (startedTwice.foldl ScopeEvent.exec draftPlan) ∧
      AnsweredOnce (performed ScopeEvent.exec draftPlan startedTwice) := by
  have hrun : Run (Performs (fun store event => ScopeEvent.Allowed store event) ScopeEvent.exec) draftPlan
      (performed ScopeEvent.exec draftPlan startedTwice)
      (startedTwice.foldl ScopeEvent.exec draftPlan) := by
    apply run_performed startedTwice draftPlan
    intro e he
    simp only [startedTwice, performed, List.mem_cons, List.not_mem_nil, or_false] at he
    rcases he with heq | heq | heq
    · rw [heq]
      exact allowed_prepare
    · rw [heq]
      show (ScopeEvent.exec draftPlan _).runs.get? "run1".toList = none
      decide +kernel
    · rw [heq]
      show (ScopeEvent.exec (ScopeEvent.exec draftPlan _) _).runs.get? "run2".toList = none
      decide +kernel
  have hlaws := batches_run_once draftPlan_fresh hrun
  refine ⟨hlaws.1, hlaws.2.2.2 fun e he => ?_⟩
  simp only [startedTwice, performed, List.mem_cons, List.not_mem_nil, or_false] at he
  rcases he with heq | heq | heq
  · rw [heq]
    exact True.intro
  · -- nothing runs yet
    rw [heq]
    intro plan batch live key hshares
    have hnone : (ScopeEvent.exec draftPlan (.prepare "plan".toList "preparation".toList
        ["batch1".toList, "batch2".toList])).liveBatchBinding "plan".toList = none := by decide +kernel
    have hlive := hshares.running.1
    rw [hnone] at hlive
    cases hlive
  · -- the key is known
    rw [heq]
    intro plan batch live key hshares
    have hplan := hshares.found
    have hkey := hshares.keyed.1
    cases hplan
    cases hkey
    have hused := hshares.unused
    revert hused
    decide +kernel

/-- A second start is answered with the live run; once that has failed, the second start is sent again. -/
def sharedStart : List ScopeEvent :=
  [.prepare "plan".toList "preparation".toList ["batch1".toList, "batch2".toList],
    .create "plan".toList "batch1".toList 1 "d1".toList (startRequest "run1" "key0") 10,
    .create "plan".toList "batch1".toList 1 "d1".toList (startRequest "run2" "key1") 20,
    .runStatus "run1".toList .failed .launched,
    .create "plan".toList "batch1".toList 1 "d1".toList (startRequest "run3" "key1") 30]

example : ((sharedStart.foldl ScopeEvent.exec draftPlan).batchRuns.map fun row => (row.runId, row.attempt)) =
    [("run1".toList, 1), ("run3".toList, 2)] := by decide +kernel

/-- The request answered with the live run creates a second run when it is sent again. -/
theorem shared_start_runs_again : ∃ hist state,
    Run (Performs (fun store event => ScopeEvent.Allowed store event) ScopeEvent.exec) draftPlan hist state ∧
      ¬ AnsweredOnce hist := by
  refine ⟨_, _, run_performed sharedStart draftPlan fun e he => ?_, fun honce => ?_⟩
  · simp only [sharedStart, performed, List.mem_cons, List.not_mem_nil, or_false] at he
    rcases he with heq | heq | heq | heq | heq
    · rw [heq]
      exact allowed_prepare
    · rw [heq]
      show (ScopeEvent.exec draftPlan _).runs.get? "run1".toList = none
      decide +kernel
    · rw [heq]
      show (ScopeEvent.exec (ScopeEvent.exec draftPlan _) _).runs.get? "run2".toList = none
      decide +kernel
    · rw [heq]
      have hrunning : ((sharedStart.take 3).foldl ScopeEvent.exec draftPlan).runs.get? "run1".toList =
          some ⟨"conversation".toList, .queued, .pending, some "owner".toList, some "key0".toList,
            "fingerprint".toList, some swarmV2⟩ := by decide +kernel
      exact ⟨_, hrunning, rfl⟩
    · rw [heq]
      show ((sharedStart.take 4).foldl ScopeEvent.exec draftPlan).runs.get? "run3".toList = none
      decide +kernel
  · have hafter := (List.pairwise_cons.mp (List.pairwise_cons.mp (List.pairwise_cons.mp honce).2).2).1
    have hanswered : (((sharedStart.take 2).foldl ScopeEvent.exec draftPlan).createWorkScopeBatchRun
        "plan".toList "batch1".toList 1 "d1".toList (startRequest "run2" "key1") 20).toOption.isSome = true := by
      decide +kernel
    have hadds : ((sharedStart.take 5).foldl ScopeEvent.exec draftPlan).batchRuns.length ≠
        ((sharedStart.take 4).foldl ScopeEvent.exec draftPlan).batchRuns.length := by decide +kernel
    apply hafter (_, _) (List.mem_cons_of_mem _ List.mem_cons_self) ⟨rfl, rfl, rfl, rfl⟩
    · rcases Option.isSome_iff_exists.mp hanswered with ⟨answer, hanswer⟩
      exact ⟨answer, eq_ok_of_toOption hanswer⟩
    · exact fun hsame => hadds (congrArg (fun store => store.batchRuns.length) hsame)

end Milo.Catalog
