import Milo.Catalog.PreparationRequests
import Milo.Creation.LaunchRace
import Milo.Finalization.OneWriter

/-!
# PreparationRace — one capture of a plan revision, over every order of threads and executions

The request gives up a bound run only when it has ended, unless an attempt that is overdue, or whose
trigger failed, is asked again while an earlier execution of its run is at work.
-/

namespace Milo.Catalog

open Milo.Reasoning Milo.Finalization Milo.Creation Milo.Python

/-! ## 1. Run rows -/

namespace ScopedRun

variable {run : ScopedRun} {merge : Jsonb → Jsonb → Jsonb} {now : ℤ}

/-- No launcher has started it, and it is queued until a worker claims it. -/
structure Tame (run : ScopedRun) : Prop where
  unlaunched : run.table.row.launchState ≠ .launched
  queued : run.table.row.workerId = none → run.table.row.status = .queued

/-- The operator owns its launch. -/
structure Resting (run : ScopedRun) : Prop extends Tame run where
  rests : run.table.row.launchState = .none

/-- What every event keeps of a run. -/
structure Keeps (run run' : ScopedRun) : Prop where
  tame : run.Tame → run'.Tame
  resting : run.Resting → run'.Resting
  ended : run.table.row.status.isTerminal = true → run'.table.row.status.isTerminal = true

theorem Keeps.refl (run : ScopedRun) : run.Keeps run := ⟨id, id, id⟩

theorem keeps_of_table {table : RunTable Jsonb}
    (hlaunch : table.row.launchState = run.table.row.launchState)
    (hworker : table.row.workerId = none → run.table.row.workerId = none ∧
      (run.Tame → table.row.status = run.table.row.status))
    (hended : run.table.row.status.isTerminal = true → table.row.status.isTerminal = true) :
    run.Keeps { run with table := table } := by
  have htame : run.Tame → ({ run with table := table } : ScopedRun).Tame := by
    intro h
    constructor
    · show table.row.launchState ≠ .launched
      rw [hlaunch]
      exact h.unlaunched
    · intro hnone
      have hsame := (hworker hnone).2 h
      show table.row.status = .queued
      rw [hsame]
      exact h.queued (hworker hnone).1
  refine ⟨htame, fun h => ⟨htame h.toTame, ?_⟩, hended⟩
  show table.row.launchState = .none
  rw [hlaunch]
  exact h.rests

theorem keeps_claim {workerId token : Text} {leaseSeconds : ℤ} :
    run.Keeps { run with table := (RunWrite.claim workerId token leaseSeconds).perform merge now run.table } := by
  unfold RunWrite.perform
  dsimp only
  unfold RunTable.claimRunLease
  split
  · rename_i hclaimable
    rw [Option.getD_some]
    apply keeps_of_table
    · rfl
    · intro hnone
      cases hnone
    · intro hended
      rw [RunWorld.isTerminal_of_claimable hclaimable] at hended
      cases hended
  · exact .refl run

/-- A write that proved its ownership is on a run that a worker has claimed. -/
theorem keeps_owned {table : RunTable Jsonb} (h : LaunchWorld.OwnedWrite run.table table)
    (hended : run.table.row.status.isTerminal = true → table.row.status.isTerminal = true) :
    run.Keeps { run with table := table } := by
  apply keeps_of_table h.launchState
  · intro hnone
    have howned := h.owned
    rw [← h.workerId, hnone] at howned
    cases howned
  · exact hended

theorem keeps_heartbeat {owner : Ownership} {leaseSeconds : Option ℤ} :
    run.Keeps { run with table := (RunWrite.heartbeat owner leaseSeconds).perform merge now run.table } := by
  unfold RunWrite.perform
  dsimp only
  cases hresult : run.table.heartbeatRunGuarded now owner leaseSeconds with
  | error e => exact .refl run
  | ok table =>
    apply keeps_owned (LaunchWorld.ownedWrite_heartbeat hresult)
    intro hended
    unfold RunTable.heartbeatRunGuarded at hresult
    split at hresult
    · cases hresult
      exact hended
    · cases hresult

theorem keeps_finalize {call : FinalizeCall Jsonb} :
    run.Keeps { run with table := (RunWrite.finalize call).perform merge now run.table } := by
  unfold RunWrite.perform
  dsimp only
  cases hresult : run.table.finalizeRun now merge call with
  | error e => exact .refl run
  | ok table =>
    apply keeps_owned (LaunchWorld.ownedWrite_finalize hresult)
    intro hended
    let w : RunWorld Jsonb := { table := run.table, now := now }
    have hwrite : w.table.finalizeRun w.now merge call = .ok table := hresult
    have hvalid : call.status ∈ run.table.row.status.validTransitions :=
      (RunWorld.finalizeRun_ok hwrite).2.1
    rw [(RunStatus.isTerminal_iff _).mp hended] at hvalid
    cases hvalid

theorem keeps_cancel {status : RunStatus} {reason : Option String} :
    run.Keeps { run with table := (RunWrite.cancel status reason).perform merge now run.table } := by
  unfold RunWrite.perform
  dsimp only
  split
  · rename_i hvalid
    unfold RunTable.cancellationWrite
    split
    · rename_i hwritten
      rw [Bool.and_eq_true, decide_eq_true_eq, Bool.or_eq_true, decide_eq_true_eq] at hwritten
      rcases hwritten with ⟨hstatus, hstarted⟩
      apply keeps_of_table
      · rfl
      · intro hnone
        refine ⟨hnone, fun htame => ?_⟩
        have hqueued := htame.queued hnone
        rcases hstarted with hclaimed | hlaunched
        · rw [← hstatus, hqueued] at hclaimed
          cases hclaimed
        · exact absurd hlaunched htame.unlaunched
      · intro hended
        rw [hstatus] at hended
        rw [(RunStatus.isTerminal_iff status).mp hended] at hvalid
        cases hvalid
    · exact .refl run
  · exact .refl run

theorem keeps_write (write : RunWrite) :
    run.Keeps { run with table := write.perform merge now run.table } := by
  cases write with
  | claim => exact keeps_claim
  | heartbeat => exact keeps_heartbeat
  | finalize => exact keeps_finalize
  | cancel => exact keeps_cancel

theorem keeps_acquired (h : LaunchWorld.isUnlaunched run.table.row.launchState = true) :
    run.Keeps (run.withLaunch .launching) := by
  refine ⟨fun htame => ⟨nofun, htame.queued⟩, fun hrest => ?_, id⟩
  rw [hrest.rests] at h
  cases h

theorem resting_withLaunch (h : run.Tame) : (run.withLaunch .none).Resting := ⟨⟨nofun, h.queued⟩, rfl⟩

theorem keeps_rested : run.Keeps (run.withLaunch .none) :=
  ⟨fun h => (resting_withLaunch h).toTame, fun h => resting_withLaunch h.toTame, id⟩

/-- A run at rest that no worker has claimed is kept for the next attempt. -/
theorem Resting.keepable_or_ended (h : run.Resting) (hidle : run.live = false) :
    run.keepable = true ∨ run.table.row.status.isTerminal = true := by
  unfold live at hidle
  cases hworker : run.table.row.workerId with
  | none =>
    left
    unfold keepable waiting
    rw [h.queued hworker, h.rests, hworker]
    rfl
  | some workerId =>
    right
    rw [hworker] at hidle
    simpa using hidle

end ScopedRun

/-! ## 2. What one event can do -/

/-- The run a thread made for its attempt. -/
def PreparationPhase.made? : PreparationPhase → Option Text
  | acquiring _ runId | resting _ runId | binding _ runId => some runId
  | _ => none

/-- The run a thread presents to the request. -/
def PreparationPhase.presented? : PreparationPhase → Option Text
  | binding _ runId | triggering _ runId | recording _ runId _ => some runId
  | failing _ runId => runId
  | _ => none

namespace PreparationWorld

variable {rules : PreparationRules} {w w' : PreparationWorld}

/-- What the record of a thread's outcome leaves of the request. -/
structure Recorded (request : PreparationRequest) (attempt : ℕ) (runId : Option Text)
    (request' : PreparationRequest) : Prop where
  mine : request.attempt = attempt
  unrecorded : request.triggerState = .claimed
  keepsAttempt : request'.attempt = request.attempt
  binds : request'.runId = runId.or request.runId
  same : runId.isSome = true → request.runId.isSome = true → request.runId = runId

/-- The thread that an event answers `claimed`, and the attempt it is given. -/
def claimedBy (w : PreparationWorld) : PreparationEvent → Option (Text × ℕ)
  | .request id => (w.threads.get? id).bind fun thread =>
    match thread.phase with
    | .requesting =>
      match w.requestWorkScopePreparation thread.digest thread.requestedBy startGraceSeconds with
      | .ok (.claimed, w') => w'.request.map fun request => (id, request.attempt)
      | _ => none
    | _ => none
  | _ => none

/-- What an event may change, and when. -/
inductive Change (w : PreparationWorld) : PreparationEvent → PreparationWorld → Prop
  | kept (e : PreparationEvent) (w' : PreparationWorld) : w'.request = w.request → w'.runs = w.runs →
    w'.threads = w.threads → Change w e w'
  | written (runId : Text) (run : ScopedRun) (write : RunWrite) (merge : Jsonb → Jsonb → Jsonb) :
    w.runs.get? runId = some run →
    Change w (.run runId write)
      (w.withRun runId { run with table := write.perform merge w.now run.table })
  | entered (e : PreparationEvent) (id : Text) (thread : PreparationThread) (w' : PreparationWorld) :
    thread.phase = .reading → w'.request = w.request → w'.runs = w.runs →
    w'.threads = w.threads.set id thread → Change w e w'
  | moved (e : PreparationEvent) (id : Text) (thread : PreparationThread) (phase : PreparationPhase)
    (w' : PreparationWorld) : w.threads.get? id = some thread → phase.made? = none →
    (∀ runId, phase.presented? = some runId → thread.phase.presented? = some runId) →
    w'.request = w.request → w'.runs = w.runs →
    w'.threads = w.threads.set id { thread with phase := phase } → Change w e w'
  | first (id : Text) (thread : PreparationThread) (request : PreparationRequest)
    (w' : PreparationWorld) : w.threads.get? id = some thread → w.request = none →
    w.claimedBy (.request id) = some (id, 1) → request.attempt = 1 → request.runId = none →
    w'.request = some request → w'.runs = w.runs →
    w'.threads = w.threads.set id { thread with phase := .creating 1 } →
    Change w (.request id) w'
  | again (id : Text) (thread : PreparationThread) (request : PreparationRequest)
    (phase : PreparationPhase) (w' : PreparationWorld) : w.threads.get? id = some thread →
    w.request = some request → request.retries w.boundRow w.now startGraceSeconds = true →
    w'.request = some (request.retried thread.requestedBy w.boundRow w.now) →
    w.claimedBy (.request id) = some (id, request.attempt + 1) → phase.made? = none → (∀ runId, phase.presented? = some runId → w'.boundRun = some runId) →
    w'.runs = w.runs → w'.threads = w.threads.set id { thread with phase := phase } →
    Change w (.request id) w'
  | created (e : PreparationEvent) (id runId : Text) (thread : PreparationThread)
    (phase : PreparationPhase) (identity usage : Jsonb) (w' : PreparationWorld) :
    w.threads.get? id = some thread → w.runs.get? runId = none → phase.presented? = none →
    (∀ made, phase.made? = some made → made = runId) → w'.request = w.request →
    w'.runs = w.runs.set runId (w.newCaptureRun identity usage) →
    w'.threads = w.threads.set id { thread with phase := phase } → Change w e w'
  | acquired (e : PreparationEvent) (id runId : Text) (thread : PreparationThread)
    (phase : PreparationPhase) (run : ScopedRun) (w' : PreparationWorld) :
    w.threads.get? id = some thread → w.runs.get? runId = some run →
    LaunchWorld.isUnlaunched run.table.row.launchState = true → thread.phase.made? = some runId →
    (∀ made, phase.made? = some made → made = runId) → phase.presented? = none →
    w'.request = w.request → w'.runs = w.runs.set runId (run.withLaunch .launching) →
    w'.threads = w.threads.set id { thread with phase := phase } → Change w e w'
  | rested (e : PreparationEvent) (id runId : Text) (thread : PreparationThread)
    (phase : PreparationPhase) (w' : PreparationWorld) :
    w.threads.get? id = some thread → thread.phase.made? = some runId →
    (∀ made, phase.made? = some made → made = runId) →
    (∀ presented, phase.presented? = some presented → presented = runId) →
    w'.request = w.request → w'.runs = (w.setLaunchNone runId).runs →
    w'.threads = w.threads.set id { thread with phase := phase } → Change w e w'
  | recorded (e : PreparationEvent) (id : Text) (thread : PreparationThread) (phase : PreparationPhase)
    (attempt : ℕ) (request request' : PreparationRequest) (w' : PreparationWorld) :
    threadOf? e = some id → w.threads.get? id = some thread → thread.phase.attempt? = some attempt →
    w.request = some request → Recorded request attempt thread.phase.presented? request' →
    phase.made? = none →
    (∀ runId, phase.presented? = some runId → thread.phase.presented? = some runId) →
    w'.request = some request' → w'.runs = w.runs →
    w'.threads = w.threads.set id { thread with phase := phase } → Change w e w'

/-- A recorded trigger is recorded for the attempt that is current, once. -/
theorem recorded_of_record {attempt : ℕ} {runId : Option Text} {state : TriggerState}
    {executionName : Option Text}
    (h : w.recordWorkScopePreparationTrigger attempt runId state executionName = .ok w') :
    ∃ request request', w.request = some request ∧ Recorded request attempt runId request' ∧
      w'.request = some request' ∧ w'.runs = w.runs ∧ w'.threads = w.threads := by
  unfold recordWorkScopePreparationTrigger at h
  rcases except_bind_eq_ok.mp h with ⟨-, -, h⟩
  rcases except_bind_eq_ok.mp h with ⟨request, hrequest, h⟩
  rcases except_bind_eq_ok.mp h with ⟨_, hmine, h⟩
  rw [required_eq_ok] at hrequest
  rw [refuseIf_eq_ok, not_or, not_not, not_not] at hmine
  cases runId with
  | none =>
    cases h
    refine ⟨request, _, hrequest, ?_, rfl, rfl, rfl⟩
    exact ⟨hmine.1, hmine.2, rfl, rfl, nofun⟩
  | some id =>
    rcases except_bind_eq_ok.mp h with ⟨run, -, h⟩
    rcases except_bind_eq_ok.mp h with ⟨_, hrun, h⟩
    rw [refuseIf_eq_ok, not_or, not_or, not_and, not_not] at hrun
    cases h
    refine ⟨request, _, hrequest, ?_, rfl, rfl, rfl⟩
    exact ⟨hmine.1, hmine.2, rfl, rfl, fun _ hsome => not_not.mp (hrun.2.2 hsome)⟩

/-- A request that is answered `claimed` begins the first attempt, or the next one. -/
inductive Claimed (w : PreparationWorld) (digest requestedBy : Text) : PreparationWorld → Prop
  | first : w.isHead digest = true → w.preparation = none → w.request = none →
    Claimed w digest requestedBy
      { w with request := some { scopeDigest := digest, requestedBy := requestedBy, claimedAt := w.now } }
  | again (request : PreparationRequest) : w.isHead digest = true → w.preparation = none →
    w.request = some request → request.retries w.boundRow w.now startGraceSeconds = true →
    request.attempt < 1000 →
    Claimed w digest requestedBy
      { w with request := some (request.retried requestedBy w.boundRow w.now) }

theorem claimed_of_request {digest requestedBy : Text}
    (h : w.requestWorkScopePreparation digest requestedBy startGraceSeconds = .ok (.claimed, w')) :
    Claimed w digest requestedBy w' := by
  unfold requestWorkScopePreparation at h
  rcases except_bind_eq_ok.mp h with ⟨_, -, h⟩
  split at h
  · cases h
  rename_i hhead
  rw [Bool.not_eq_false] at hhead
  split at h
  · cases h
  rename_i hprepared
  rw [Bool.not_eq_true, Option.isSome_eq_false_iff, Option.isNone_iff_eq_none] at hprepared
  cases hrequest : w.request with
  | none =>
    rw [hrequest] at h
    cases h
    exact .first hhead hprepared hrequest
  | some request =>
    rw [hrequest] at h
    dsimp only at h
    split at h
    · rename_i hretries
      rcases except_bind_eq_ok.mp h with ⟨_, hattempt, h⟩
      rw [refuseIf_eq_ok] at hattempt
      cases h
      exact .again request hhead hprepared hrequest hretries (by omega)
    · cases h

variable {e : PreparationEvent} {id runId : Text} {thread : PreparationThread}

theorem change_moved_plain {phase : PreparationPhase} (hthread : w.threads.get? id = some thread)
    (hmade : phase.made? = none) (hpresented : phase.presented? = none) :
    Change w e (w.withThread id thread phase) :=
  .moved e id thread phase _ hthread hmade (fun runId h => by rw [hpresented] at h; cases h) rfl rfl rfl

theorem change_request (hthread : w.threads.get? id = some thread)
    (h : Claimed w thread.digest thread.requestedBy w') {request : PreparationRequest}
    (hrequest : w'.request = some request) (hclaimed : w.claimedBy (.request id) = some (id, request.attempt)) :
    Change w (.request id) (w'.withThread id thread
      (match request.runId with
      | none => .creating request.attempt
      | some runId => .triggering request.attempt runId)) := by
  cases h with
  | first hhead hprepared hnone =>
    cases hrequest
    exact .first id thread _ _ hthread hnone hclaimed rfl rfl rfl rfl rfl
  | again old hhead hprepared hold hretries hattempt =>
    cases hrequest
    refine .again id thread old _ _ hthread hold hretries rfl hclaimed ?_ ?_ rfl rfl
    · split <;> rfl
    · intro runId hpresented
      show (old.retried thread.requestedBy w.boundRow w.now).runId = some runId
      split at hpresented
      · cases hpresented
      · rename_i kept hkept
        cases hpresented
        exact hkept

theorem change_record {phase : PreparationPhase} {attempt : ℕ} {runId executionName : Option Text}
    {state : TriggerState} (he : threadOf? e = some id) (hthread : w.threads.get? id = some thread)
    (hattempt : thread.phase.attempt? = some attempt) (hmine : thread.phase.presented? = runId)
    (hmade : phase.made? = none)
    (hpresented : ∀ runId, phase.presented? = some runId → thread.phase.presented? = some runId) :
    Change w e
      (match w.recordWorkScopePreparationTrigger attempt runId state executionName with
      | .ok w' => w'.withThread id thread phase
      | .error _ => w.withThread id thread .ended) := by
  cases hresult : w.recordWorkScopePreparationTrigger attempt runId state executionName with
  | error => exact change_moved_plain hthread rfl rfl
  | ok w' =>
    rcases recorded_of_record hresult with ⟨request, request', hrequest, hrecorded, hnew, hruns, hthreads⟩
    rw [← hmine] at hrecorded
    exact .recorded e id thread phase attempt request request' _ he hthread hattempt hrequest hrecorded
      hmade hpresented hnew hruns (congrArg (fun threads => Dict.set threads id _) hthreads)

theorem change_create {attempt : ℕ} {identity usage : Jsonb} {fate : CallFate}
    (hthread : w.threads.get? id = some thread) (hfree : w.runs.get? runId = none) :
    Change w e
      (match fate with
      | .answered =>
        (w.withRun runId (w.newCaptureRun identity usage)).withThread id thread (.acquiring attempt runId)
      | .lost =>
        (w.withRun runId (w.newCaptureRun identity usage)).withThread id thread (.failing attempt none)
      | .refused => w.withThread id thread (.failing attempt none)) := by
  cases fate with
  | answered =>
    exact .created e id runId thread (.acquiring attempt runId) identity usage _ hthread hfree rfl
      (fun made h => (Option.some.inj h).symm) rfl rfl rfl
  | lost =>
    exact .created e id runId thread (.failing attempt none) identity usage _ hthread hfree rfl nofun rfl
      rfl rfl
  | refused => exact change_moved_plain hthread rfl rfl

theorem acquired_of_tryAcquireLaunch (h : w.tryAcquireLaunch runId = some w') :
    ∃ run, w.runs.get? runId = some run ∧
      LaunchWorld.isUnlaunched run.table.row.launchState = true ∧
        w' = w.withRun runId (run.withLaunch .launching) := by
  unfold tryAcquireLaunch at h
  split at h
  · cases h
  · rename_i run hrun
    dsimp only at h
    split at h
    · rename_i hfree
      rw [Bool.and_eq_true] at hfree
      cases h
      exact ⟨run, hrun, hfree.2, rfl⟩
    · cases h

/-- The next call of a thread changes what its event may change. -/
theorem change_advance {captureReason : Option Text → Option Text} (hthread : w.threads.get? id = some thread)
    (he : threadOf? e = some id) : Change w e (w.advance captureReason id thread e thread.phase) := by
  generalize hphase : thread.phase = phase
  cases e <;> cases he <;> cases phase <;> unfold advance <;> dsimp only
  -- a call that is not the thread's next one does nothing
  all_goals first | exact .kept _ _ rfl rfl rfl | exact change_moved_plain hthread rfl rfl | skip
  case read.refl.reading => apply change_moved_plain hthread <;> split <;> rfl
  case release.refl.releasing => apply change_moved_plain hthread <;> split <;> rfl
  case request.refl.requesting =>
    split
    · rename_i w' hresult
      split
      · exact change_moved_plain hthread rfl rfl
      · rename_i request hrequest
        apply change_request hthread (claimed_of_request hresult) hrequest
        simp only [claimedBy, hthread, Option.bind_some, hphase, hresult, hrequest, Option.map_some]
    · exact change_moved_plain hthread rfl rfl
    · exact change_moved_plain hthread rfl rfl
  case create.refl.creating =>
    split
    · exact .kept _ _ rfl rfl rfl
    · rename_i hfree
      rw [Bool.not_eq_true, Option.isSome_eq_false_iff, Option.isNone_iff_eq_none] at hfree
      exact change_create hthread hfree
  case acquire.refl.acquiring fate attempt runId =>
    have hmade : thread.phase.made? = some runId := by rw [hphase]; rfl
    split
    · rename_i taken htaken
      rcases acquired_of_tryAcquireLaunch htaken with ⟨run, hrun, hfree, rfl⟩
      exact .acquired _ id runId thread (.resting attempt runId) run _ hthread hrun hfree hmade
        (fun made h => (Option.some.inj h).symm) rfl rfl rfl rfl
    · rename_i taken htaken
      rcases acquired_of_tryAcquireLaunch htaken with ⟨run, hrun, hfree, rfl⟩
      exact .acquired _ id runId thread (.failing attempt none) run _ hthread hrun hfree hmade nofun rfl
        rfl rfl rfl
    · exact change_moved_plain hthread rfl rfl
  case rest.refl.resting fate attempt runId =>
    have hmade : thread.phase.made? = some runId := by rw [hphase]; rfl
    have hrest : (w.setLaunchNone runId).request = w.request ∧
        (w.setLaunchNone runId).threads = w.threads := by
      unfold setLaunchNone
      split <;> exact ⟨rfl, rfl⟩
    cases fate with
    | answered =>
      exact .rested _ id runId thread (.binding attempt runId) _ hthread hmade
        (fun made h => (Option.some.inj h).symm) (fun made h => (Option.some.inj h).symm) hrest.1 rfl
        (congrArg (fun threads => Dict.set threads id _) hrest.2)
    | lost =>
      exact .rested _ id runId thread (.failing attempt none) _ hthread hmade nofun nofun hrest.1 rfl
        (congrArg (fun threads => Dict.set threads id _) hrest.2)
    | refused => exact change_moved_plain hthread rfl rfl
  case bind.refl.binding attempt runId =>
    exact change_record rfl hthread (by rw [hphase]; rfl) (by rw [hphase]; rfl) rfl
      (fun presented h => by rw [hphase]; exact h)
  case refuseInvocation.refl.triggering attempt runId =>
    exact .moved _ id thread (.failing attempt (some runId)) _ hthread rfl
      (fun presented h => by rw [hphase]; exact h) rfl rfl rfl
  case trigger.refl.triggering attempt runId =>
    split
    all_goals
      exact .moved _ id thread (.recording attempt runId _) _ hthread rfl
        (fun presented h => by rw [hphase]; exact h) rfl rfl rfl
  case record.refl.failing attempt runId =>
    exact change_record rfl hthread (by rw [hphase]; rfl) (by rw [hphase]; rfl) rfl nofun
  case record.refl.recording attempt runId outcome =>
    exact change_record rfl hthread (by rw [hphase]; rfl) (by rw [hphase]; rfl) rfl nofun

theorem change_perform (e : PreparationEvent) : Change w e (w.perform rules e) := by
  have hnext : ∀ id, threadOf? e = some id → Change w e (w.perform rules e) := by
    intro id he
    rw [perform_of_threadOf w he]
    cases hthread : w.threads.get? id with
    | none => exact .kept _ _ rfl rfl rfl
    | some thread => exact change_advance hthread he
  cases e with
  | enter id requestedBy digest =>
    unfold perform
    dsimp only
    split
    · exact .kept _ _ rfl rfl rfl
    · exact .entered _ id _ _ rfl rfl rfl rfl
  | run runId write =>
    unfold perform
    dsimp only
    split
    · exact .kept _ _ rfl rfl rfl
    · rename_i run hrun
      exact .written runId run write rules.merge hrun
  | plan plan => exact .kept _ _ rfl rfl rfl
  | prepare digest => exact .kept _ _ rfl rfl rfl
  | tick now => exact .kept _ _ rfl rfl rfl
  | read id => exact hnext id rfl
  | release id refused => exact hnext id rfl
  | request id => exact hnext id rfl
  | create id => exact hnext id rfl
  | acquire id => exact hnext id rfl
  | rest id => exact hnext id rfl
  | bind id => exact hnext id rfl
  | refuseInvocation id => exact hnext id rfl
  | trigger id => exact hnext id rfl
  | record id => exact hnext id rfl
  | stop id => exact hnext id rfl

/-! ## 3. The invariant -/

/-- Every run that was there is still there, and keeps what it is. -/
theorem Change.runs_keep (h : Change w e w') {run : ScopedRun} (hrun : w.runs.get? runId = some run) :
    ∃ run', w'.runs.get? runId = some run' ∧ run.Keeps run' := by
  have hsame : w'.runs = w.runs → ∃ run', w'.runs.get? runId = some run' ∧ run.Keeps run' := by
    intro hruns
    exact ⟨run, by rw [hruns, hrun], .refl run⟩
  have hset : ∀ otherId other other', w.runs.get? otherId = some other → other.Keeps other' →
      w'.runs = w.runs.set otherId other' → ∃ run', w'.runs.get? runId = some run' ∧ run.Keeps run' := by
    intro otherId other other' hother hkeeps hruns
    rw [hruns, Dict.get?_set]
    split
    · rename_i heq
      rw [← heq, hrun] at hother
      cases hother
      exact ⟨other', rfl, hkeeps⟩
    · exact ⟨run, hrun, .refl run⟩
  cases h with
  | kept _ _ hrequest hruns => exact hsame hruns
  | written otherId other write merge hother => exact hset otherId other _ hother (ScopedRun.keeps_write write) rfl
  | entered _ _ _ _ _ _ hruns => exact hsame hruns
  | moved _ _ _ _ _ _ _ _ _ hruns => exact hsame hruns
  | first _ _ _ _ _ _ _ _ _ _ hruns => exact hsame hruns
  | again _ _ _ _ _ _ _ _ _ _ _ _ hruns => exact hsame hruns
  | created _ _ otherId _ _ identity usage _ _ hfree _ _ _ hruns =>
    rw [hruns, Dict.get?_set]
    split
    · rename_i heq
      rw [← heq, hrun] at hfree
      cases hfree
    · exact ⟨run, hrun, .refl run⟩
  | acquired _ _ otherId _ _ other _ _ hother hfree _ _ _ _ hruns =>
    exact hset otherId other _ hother (ScopedRun.keeps_acquired hfree) hruns
  | rested _ _ otherId _ _ _ _ _ _ _ _ hruns =>
    unfold setLaunchNone at hruns
    split at hruns
    · exact hsame hruns
    · rename_i other hother
      exact hset otherId other _ hother ScopedRun.keeps_rested hruns
  | recorded _ _ _ _ _ _ _ _ _ _ _ _ _ _ _ _ hruns => exact hsame hruns

/-- The request's run is replaced only by a retry that does not keep it. -/
theorem Change.dropped (h : Change w e w') (hbound : w.boundRun = some runId) (hdropped : w'.boundRun ≠ some runId) :
    ∃ request, w.request = some request ∧
      request.retries w.boundRow w.now startGraceSeconds = true ∧ (w.claimedBy e).isSome = true ∧
        w.boundRow.any ScopedRun.keepable = false := by
  have hsame : w'.request = w.request → w'.boundRun = w.boundRun := by
    intro hrequest
    unfold boundRun
    rw [hrequest]
  cases h with
  | kept _ _ hrequest => exact absurd ((hsame hrequest).trans hbound) hdropped
  | written => exact absurd hbound hdropped
  | entered _ _ _ _ _ hrequest => exact absurd ((hsame hrequest).trans hbound) hdropped
  | moved _ _ _ _ _ _ _ _ hrequest => exact absurd ((hsame hrequest).trans hbound) hdropped
  | first _ _ _ _ _ hnone =>
    unfold boundRun at hbound
    rw [hnone] at hbound
    cases hbound
  | again id thread request phase _ _ hrequest hretries hnew hclaimed =>
    refine ⟨request, hrequest, hretries, by rw [hclaimed]; rfl, ?_⟩
    rw [Bool.eq_false_iff]
    intro hkeep
    apply hdropped
    unfold boundRun at hbound ⊢
    rw [hrequest] at hbound
    rw [hnew, Option.bind_some]
    unfold PreparationRequest.retried
    dsimp only
    rw [if_pos hkeep]
    exact hbound
  | created _ _ _ _ _ _ _ _ _ _ _ _ hrequest => exact absurd ((hsame hrequest).trans hbound) hdropped
  | acquired _ _ _ _ _ _ _ _ _ _ _ _ _ hrequest =>
    exact absurd ((hsame hrequest).trans hbound) hdropped
  | rested _ _ _ _ _ _ _ _ _ _ hrequest => exact absurd ((hsame hrequest).trans hbound) hdropped
  | recorded _ _ thread _ _ request request' _ _ _ _ hrequest hrecorded _ _ hnew =>
    exfalso
    apply hdropped
    unfold boundRun at hbound ⊢
    rw [hrequest, Option.bind_some] at hbound
    rw [hnew, Option.bind_some, hrecorded.binds]
    cases hpresented : thread.phase.presented? with
    | none => exact hbound
    | some presented =>
      have hsameRun := hrecorded.same (by rw [hpresented]; rfl) (by rw [hbound]; rfl)
      rw [hpresented, hbound] at hsameRun
      exact hsameRun.symm

theorem Change.bound (h : Change w e w') (hbound : w'.boundRun = some runId) :
    w.boundRun = some runId ∨ ∃ id thread, w.threads.get? id = some thread ∧
      thread.phase.presented? = some runId := by
  have hsame : w'.request = w.request → w.boundRun = some runId := by
    intro hrequest
    unfold boundRun at hbound ⊢
    rw [← hrequest]
    exact hbound
  cases h with
  | kept _ _ hrequest => exact Or.inl (hsame hrequest)
  | written => exact Or.inl hbound
  | entered _ _ _ _ _ hrequest => exact Or.inl (hsame hrequest)
  | moved _ _ _ _ _ _ _ _ hrequest => exact Or.inl (hsame hrequest)
  | first _ _ request _ _ _ _ _ hnone hnew =>
    unfold boundRun at hbound
    rw [hnew, Option.bind_some, hnone] at hbound
    cases hbound
  | again id thread request phase _ _ hrequest hretries hnew =>
    left
    unfold boundRun at hbound ⊢
    rw [hnew, Option.bind_some] at hbound
    rw [hrequest, Option.bind_some]
    unfold PreparationRequest.retried at hbound
    dsimp only at hbound
    split at hbound
    · exact hbound
    · cases hbound
  | created _ _ _ _ _ _ _ _ _ _ _ _ hrequest => exact Or.inl (hsame hrequest)
  | acquired _ _ _ _ _ _ _ _ _ _ _ _ _ hrequest => exact Or.inl (hsame hrequest)
  | rested _ _ _ _ _ _ _ _ _ _ hrequest => exact Or.inl (hsame hrequest)
  | recorded _ id thread _ _ request request' _ _ hthread _ hrequest hrecorded _ _ hnew =>
    unfold boundRun at hbound ⊢
    rw [hnew, Option.bind_some, hrecorded.binds] at hbound
    rw [hrequest, Option.bind_some]
    cases hpresented : thread.phase.presented? with
    | none =>
      rw [hpresented] at hbound
      exact Or.inl hbound
    | some presented =>
      rw [hpresented] at hbound
      exact Or.inr ⟨id, thread, hthread, hpresented.trans hbound⟩

abbrev PreparationHistory := List (PreparationWorld × PreparationEvent)

/-- The request was bound to the run at some moment. -/
def EverBound (hist : PreparationHistory) (w : PreparationWorld) (runId : Text) : Prop :=
  w.boundRun = some runId ∨ ∃ e ∈ hist, e.1.boundRun = some runId

/-- The run is there, and this holds of it. -/
def HasRun (w : PreparationWorld) (runId : Text) (P : ScopedRun → Prop) : Prop :=
  ∃ run, w.runs.get? runId = some run ∧ P run

theorem HasRun.after (h : Change w e w') {P Q : ScopedRun → Prop} (hrun : w.HasRun runId P)
    (hkeep : ∀ run run', run.Keeps run' → P run → Q run') : w'.HasRun runId Q := by
  rcases hrun with ⟨run, hget, hP⟩
  rcases h.runs_keep hget with ⟨run', hget', hkeeps⟩
  exact ⟨run', hget', hkeep run run' hkeeps hP⟩

/-- What the runs of the threads, and the runs that were bound, look like. -/
structure Sound (hist : PreparationHistory) (w : PreparationWorld) : Prop where
  made : ∀ id thread runId, w.threads.get? id = some thread → thread.phase.made? = some runId →
    w.HasRun runId ScopedRun.Tame
  presented : ∀ id thread runId, w.threads.get? id = some thread →
    thread.phase.presented? = some runId → w.HasRun runId ScopedRun.Resting
  bound : ∀ runId, EverBound hist w runId → w.HasRun runId ScopedRun.Resting
  ended : ∀ runId, EverBound hist w runId → w.boundRun ≠ some runId →
    w.HasRun runId fun run => run.table.row.status.isTerminal = true

section Step

variable {hist : PreparationHistory} {e : PreparationEvent}

theorem Sound.bound_now (h : Sound hist w) {runId : Text} (hbound : w.boundRun = some runId) :
    w.HasRun runId ScopedRun.Resting := h.bound runId (Or.inl hbound)

/-- Only the thread that moved is in another phase. -/
theorem threads_moved {P : Text → Prop} {read : PreparationPhase → Option Text} {moved : PreparationThread}
    (hold : ∀ id thread runId, w.threads.get? id = some thread → read thread.phase = some runId → P runId)
    (hthreads : w'.threads = w.threads.set id moved) (hmoved : ∀ runId, read moved.phase = some runId → P runId) :
    ∀ id thread runId, w'.threads.get? id = some thread → read thread.phase = some runId → P runId := by
  intro id thread runId hthread hread
  rw [hthreads, Dict.get?_set] at hthread
  split at hthread
  · cases hthread
    exact hmoved runId hread
  · exact hold id thread runId hthread hread

theorem named_of_none {P : Text → Prop} {named : Option Text} (h : named = none) :
    ∀ runId, named = some runId → P runId := by
  intro runId hnamed
  rw [h] at hnamed
  cases hnamed

theorem Sound.made_step (h : Sound hist w) (hchange : Change w e w') :
    ∀ id thread runId, w'.threads.get? id = some thread → thread.phase.made? = some runId →
      w'.HasRun runId ScopedRun.Tame := by
  have hold : ∀ id thread runId, w.threads.get? id = some thread → thread.phase.made? = some runId →
      w'.HasRun runId ScopedRun.Tame := fun id thread runId hthread hmade =>
    (h.made id thread runId hthread hmade).after hchange fun _ _ hkeeps => hkeeps.tame
  cases hchange with
  | kept _ _ _ _ hthreads => exact fun id thread runId hthread => hold id thread runId (hthreads ▸ hthread)
  | written => exact hold
  | entered _ id thread _ hphase _ _ hthreads =>
    exact threads_moved hold hthreads (named_of_none (by rw [hphase]; rfl))
  | moved _ id thread phase _ _ hmade _ _ _ hthreads => exact threads_moved hold hthreads (named_of_none hmade)
  | first id _ _ _ _ _ _ _ _ _ _ hthreads => exact threads_moved hold hthreads (named_of_none rfl)
  | again id _ _ _ _ _ _ _ _ _ hmade _ _ hthreads => exact threads_moved hold hthreads (named_of_none hmade)
  | created _ id runId _ _ identity usage _ _ _ _ hmade _ hruns hthreads =>
    apply threads_moved hold hthreads
    intro made hphase
    rw [hmade made hphase]
    refine ⟨w.newCaptureRun identity usage, by rw [hruns, Dict.get?_set_self], ?_⟩
    exact ⟨nofun, fun _ => rfl⟩
  | acquired _ id runId thread _ run _ hthread hrun hfree hmine hmade _ _ hruns hthreads =>
    apply threads_moved hold hthreads
    intro made hphase
    rw [hmade made hphase]
    exact hold id thread runId hthread hmine
  | rested _ id runId thread _ _ hthread hmine hmade _ _ _ hthreads =>
    apply threads_moved hold hthreads
    intro made hphase
    rw [hmade made hphase]
    exact hold id thread runId hthread hmine
  | recorded _ id _ _ _ _ _ _ _ _ _ _ _ hmade _ _ _ hthreads => exact threads_moved hold hthreads (named_of_none hmade)

theorem Sound.presented_step (h : Sound hist w) (hchange : Change w e w') :
    ∀ id thread runId, w'.threads.get? id = some thread → thread.phase.presented? = some runId →
      w'.HasRun runId ScopedRun.Resting := by
  have hkept : ∀ runId, w.HasRun runId ScopedRun.Resting → w'.HasRun runId ScopedRun.Resting :=
    fun runId hrun => hrun.after hchange fun _ _ hkeeps => hkeeps.resting
  have hold : ∀ id thread runId, w.threads.get? id = some thread →
      thread.phase.presented? = some runId → w'.HasRun runId ScopedRun.Resting :=
    fun id thread runId hthread hpresented => hkept runId (h.presented id thread runId hthread hpresented)
  cases hchange with
  | kept _ _ _ _ hthreads => exact fun id thread runId hthread => hold id thread runId (hthreads ▸ hthread)
  | written => exact hold
  | entered _ id thread _ hphase _ _ hthreads =>
    exact threads_moved hold hthreads (named_of_none (by rw [hphase]; rfl))
  | moved _ id thread phase _ hthread _ hpresented _ _ hthreads =>
    exact threads_moved hold hthreads fun runId hnew => hold id thread runId hthread (hpresented runId hnew)
  | first id _ _ _ _ _ _ _ _ _ _ hthreads => exact threads_moved hold hthreads (named_of_none rfl)
  | again id thread request phase _ hthread hrequest hretries hnew hclaimed hmade hpresented hruns hthreads =>
    apply threads_moved hold hthreads
    intro runId hphase
    -- the run it goes on with is the one that was bound
    have hchange : Change w (.request id) w' :=
      .again id thread request phase _ hthread hrequest hretries hnew hclaimed hmade hpresented hruns hthreads
    rcases hchange.bound (hpresented runId hphase) with hbound | ⟨id', thread', hthread', hpresented'⟩
    · exact hkept runId (h.bound_now hbound)
    · exact hold id' thread' runId hthread' hpresented'
  | created _ id _ _ _ _ _ _ _ _ hpresented _ _ _ hthreads => exact threads_moved hold hthreads (named_of_none hpresented)
  | acquired _ id _ _ _ _ _ _ _ _ _ _ hpresented _ _ hthreads =>
    exact threads_moved hold hthreads (named_of_none hpresented)
  | rested _ id runId thread _ _ hthread hmine _ hpresented _ hruns hthreads =>
    apply threads_moved hold hthreads
    intro presented hphase
    rw [hpresented presented hphase]
    rcases h.made id thread runId hthread hmine with ⟨run, hrun, htame⟩
    refine ⟨run.withLaunch .none, ?_, ScopedRun.resting_withLaunch htame⟩
    rw [hruns]
    unfold setLaunchNone
    rw [hrun]
    show (w.runs.set runId _).get? runId = _
    rw [Dict.get?_set_self]
  | recorded _ id thread _ _ _ _ _ _ hthread _ _ _ _ hpresented _ _ hthreads =>
    exact threads_moved hold hthreads fun runId hnew => hold id thread runId hthread (hpresented runId hnew)

/-- An attempt that is not overdue is retried only where its run is not at work. -/
theorem idle_of_retries {request : PreparationRequest} {run : ScopedRun} {now graceSeconds : ℤ}
    (hretries : request.retries (some run) now graceSeconds = true)
    (hintime : request.overdue now graceSeconds = false) : run.live = false := by
  unfold PreparationRequest.retries at hretries
  unfold PreparationRequest.overdue at hintime
  have hcode : (run.table.row.status.isTerminal || run.waiting && decide
      (request.triggeredAt.getD request.claimedAt < now - graceOf graceSeconds)) = true := by
    cases hstate : request.triggerState with
    | claimed =>
      rw [hstate] at hretries hintime
      dsimp only at hretries hintime
      rw [hretries] at hintime
      cases hintime
    | triggerFailed =>
      rw [hstate] at hintime
      cases hintime
    | triggered =>
      rw [hstate] at hretries
      exact hretries
    | triggerUnknown =>
      rw [hstate] at hretries
      exact hretries
  unfold ScopedRun.live
  rw [Bool.or_eq_true, Bool.and_eq_true] at hcode
  rcases hcode with hended | ⟨hwaiting, -⟩
  · rw [hended]
    exact Bool.and_false _
  · unfold ScopedRun.waiting at hwaiting
    rw [Bool.and_eq_true] at hwaiting
    rw [Option.isNone_iff_eq_none.mp hwaiting.2]
    rfl

/-- The retry that drops a run leaves it ended, where the retry found it idle. -/
theorem Sound.step (h : Sound hist w) (hchange : Change w e w')
    (hidle : (w.claimedBy e).isSome = true → ∀ run, w.boundRow = some run → run.live = false) :
    Sound (hist ++ [(w, e)]) w' := by
  have hever : ∀ runId, EverBound (hist ++ [(w, e)]) w' runId →
      EverBound hist w runId ∨ w'.boundRun = some runId := by
    rintro runId (hnow | ⟨e', he', hbound⟩)
    · exact Or.inr hnow
    · rcases List.mem_append.mp he' with he' | he'
      · exact Or.inl (Or.inr ⟨e', he', hbound⟩)
      · rw [List.mem_singleton.mp he'] at hbound
        exact Or.inl (Or.inl hbound)
  have hkept : ∀ runId, w.HasRun runId ScopedRun.Resting → w'.HasRun runId ScopedRun.Resting :=
    fun runId hrun => hrun.after hchange fun _ _ hkeeps => hkeeps.resting
  refine ⟨h.made_step hchange, h.presented_step hchange, ?_, ?_⟩
  · intro runId hrun
    rcases hever runId hrun with hbound | hnew
    · exact hkept runId (h.bound runId hbound)
    · rcases hchange.bound hnew with hbound | ⟨id, thread, hthread, hpresented⟩
      · exact hkept runId (h.bound_now hbound)
      · exact hkept runId (h.presented id thread runId hthread hpresented)
  · intro runId hrun hother
    have hbefore : EverBound hist w runId := (hever runId hrun).resolve_right hother
    by_cases hnow : w.boundRun = some runId
    · -- the run was given up by this event
      rcases hchange.dropped hnow hother with ⟨request, hrequest, hretries, hclaimed, hkeep⟩
      rcases h.bound_now hnow with ⟨run, hget, hrests⟩
      have hrow : w.boundRow = some run := by
        unfold boundRow
        rw [hnow]
        exact hget
      rw [hrow, Option.any_some] at hkeep
      rcases hrests.keepable_or_ended (hidle hclaimed run hrow) with hkeep' | hended
      · rw [hkeep] at hkeep'
        cases hkeep'
      · exact HasRun.after hchange ⟨run, hget, hended⟩ fun _ _ hkeeps => hkeeps.ended
    · exact (h.ended runId hbefore hnow).after hchange fun _ _ hkeeps => hkeeps.ended

end Step

/-! ## 4. One capture at a time -/

/-- The run is claimed by a worker and has not ended. -/
def Live (w : PreparationWorld) (runId : Text) : Prop := w.HasRun runId fun run => run.live = true

/-- The attempts that were answered `claimed`, with their threads. -/
def claims (hist : PreparationHistory) : List (Text × ℕ) := hist.filterMap fun e => e.1.claimedBy e.2

/-- The event is a call of the thread of the current attempt. -/
def OfCurrentAttempt (w : PreparationWorld) (e : PreparationEvent) : Prop :=
  ∃ id thread request, threadOf? e = some id ∧ w.threads.get? id = some thread ∧
    w.request = some request ∧ thread.phase.attempt? = some request.attempt

/-- The plan revision can be asked for: it is the open plan's head, and not prepared. -/
def Askable (w : PreparationWorld) (digest : Text) : Prop :=
  1 ≤ w.revision ∧ isSha256 digest = true ∧ w.isHead digest = true ∧ w.preparation = none

/-- No attempt that is overdue, or whose trigger failed, is asked again while its run is claimed and
    has not ended. -/
def AsksInTime (w : PreparationWorld) : PreparationEvent → Prop
  | .request id => ∀ thread request run, w.threads.get? id = some thread →
    thread.phase = .requesting → w.Askable thread.digest → w.request = some request →
      request.attempt < 1000 → request.overdue w.now startGraceSeconds = true →
        w.boundRow = some run → run.live = false
  | _ => True

/-- What is asked of a run of the revision's request. -/
structure OneCapture (rules : PreparationRules) (hist : PreparationHistory) (w : PreparationWorld) :
    Prop where
  single : ∀ runId runId', EverBound hist w runId → EverBound hist w runId' → w.Live runId →
    w.Live runId' → runId = runId'
  once : ((claims hist).map Prod.snd).Nodup
  owner : ∀ e ∈ hist, (e.1.perform rules e.2).request ≠ e.1.request →
    (e.1.claimedBy e.2).isSome = true ∨ e.1.OfCurrentAttempt e.2
  spared : ∀ e ∈ hist, (e.1.claimedBy e.2).isSome = true → ∀ runId, e.1.boundRun = some runId →
    ¬ e.1.Live runId

/-- A revision nobody has asked for. -/
structure Unasked (w : PreparationWorld) : Prop where
  request : w.request = none
  threads : w.threads = Dict.empty

section Laws

variable {hist : PreparationHistory} {e : PreparationEvent}

/-- Who was answered `claimed`, and what the answer left. -/
structure Answered (w : PreparationWorld) (e : PreparationEvent) (claim : Text × ℕ)
    (asking : PreparationThread) (w' : PreparationWorld) : Prop where
  event : e = .request claim.1
  thread : w.threads.get? claim.1 = some asking
  phase : asking.phase = .requesting
  result : w.requestWorkScopePreparation asking.digest asking.requestedBy startGraceSeconds =
    .ok (.claimed, w')
  attempt : ∃ request, w'.request = some request ∧ request.attempt = claim.2

variable {claim : Text × ℕ}

theorem answered_of_claimedBy (h : w.claimedBy e = some claim) : ∃ thread w', Answered w e claim thread w' := by
  unfold claimedBy at h
  cases e with
  | request id =>
    rcases Option.bind_eq_some_iff.mp h with ⟨thread, hthread, h⟩
    split at h
    · rename_i hphase
      split at h
      · rename_i w' hresult
        rcases Option.map_eq_some_iff.mp h with ⟨request, hrequest, rfl⟩
        exact ⟨thread, w', rfl, hthread, hphase, hresult, request, hrequest, rfl⟩
      · cases h
    · cases h
  | _ => cases h

theorem Answered.valid {asking : PreparationThread} (h : Answered w e claim asking w') :
    1 ≤ w.revision ∧ isSha256 asking.digest = true := by
  have hresult := h.result
  unfold requestWorkScopePreparation at hresult
  rcases except_bind_eq_ok.mp hresult with ⟨_, hvalid, -⟩
  rw [refuseIf_eq_ok, not_or, not_or] at hvalid
  constructor
  · omega
  · exact Bool.not_eq_false _ ▸ hvalid.2.1

theorem Answered.request_perform {asking : PreparationThread} (h : Answered w e claim asking w') :
    (w.perform rules e).request = w'.request := by
  rcases h with ⟨rfl, hthread, hphase, hresult, request, hrequest, -⟩
  unfold perform threadOf?
  dsimp only
  rw [Option.bind_some, hthread]
  dsimp only [Option.map_some]
  rw [hphase]
  unfold advance
  dsimp only
  rw [hresult]
  dsimp only
  rw [hrequest]
  exact hrequest

theorem boundRow_of_boundRun {runId : Text} (h : w.boundRun = some runId) :
    w.boundRow = w.runs.get? runId := by
  unfold boundRow
  rw [h]
  rfl

/-- An attempt is answered `claimed` beside no live run, if it is asked for in time. -/
theorem idle_of_inTime (hintime : w.AsksInTime e) (hclaimed : (w.claimedBy e).isSome = true) :
    ∀ run, w.boundRow = some run → run.live = false := by
  intro run hrow
  rcases Option.isSome_iff_exists.mp hclaimed with ⟨claim, hclaim⟩
  rcases answered_of_claimedBy hclaim with ⟨thread, w', hanswer⟩
  rcases hanswer.valid with ⟨hrevision, hdigest⟩
  have hstep := claimed_of_request hanswer.result
  rcases hanswer with ⟨rfl, hthread, hphase, -, -⟩
  cases hstep with
  | first hhead hprepared hnone =>
    unfold boundRow boundRun at hrow
    rw [hnone] at hrow
    cases hrow
  | again request hhead hprepared hrequest hretries hattempt =>
    cases hoverdue : request.overdue w.now startGraceSeconds with
    | true =>
      exact hintime thread request run hthread hphase ⟨hrevision, hdigest, hhead, hprepared⟩ hrequest
        hattempt hoverdue hrow
    | false =>
      rw [hrow] at hretries
      exact idle_of_retries hretries hoverdue

/-- An overdue attempt that is asked again is answered `claimed`. -/
theorem claimed_of_overdue {id : Text} {thread : PreparationThread} {request : PreparationRequest}
    (hthread : w.threads.get? id = some thread) (hphase : thread.phase = .requesting)
    (hask : w.Askable thread.digest) (hrequest : w.request = some request)
    (hattempt : request.attempt < 1000)
    (hoverdue : request.overdue w.now startGraceSeconds = true) :
    (w.claimedBy (.request id)).isSome = true := by
  have hretries : request.retries w.boundRow w.now startGraceSeconds = true := by
    unfold PreparationRequest.overdue at hoverdue
    unfold PreparationRequest.retries
    cases hstate : request.triggerState <;> rw [hstate] at hoverdue <;>
      first | exact hoverdue | cases hoverdue
  rcases hask with ⟨hrevision, hdigest, hhead, hprepared⟩
  have hvalid : refuseIf (w.revision < 1 ∨ isSha256 thread.digest = false ∨ startGraceSeconds < 300 ∨
      86400 < startGraceSeconds) preparationInvalid = .ok () := by
    rw [refuseIf_eq_ok, hdigest]
    unfold startGraceSeconds
    rintro (h | h | h | h)
    · omega
    · cases h
    · omega
    · omega
  have hroom : refuseIf (1000 < request.attempt + 1)
      "catalog_work_scope_preparation_requests_attempt" = .ok () := by
    rw [refuseIf_eq_ok]
    omega
  have hresult : w.requestWorkScopePreparation thread.digest thread.requestedBy startGraceSeconds =
      .ok (.claimed,
        { w with request := some (request.retried thread.requestedBy w.boundRow w.now) }) := by
    unfold requestWorkScopePreparation
    rw [hvalid, hhead, hprepared, hrequest]
    dsimp only
    rw [hretries, hroom]
    rfl
  simp only [claimedBy, hthread, Option.bind_some, hphase, hresult, Option.map_some, Option.isSome_some]

/-- A claim is answered with an attempt above that of the request it found. -/
theorem attempt_of_claimedBy (rules : PreparationRules) (h : w.claimedBy e = some claim) :
    (∃ request', (w.perform rules e).request = some request' ∧ request'.attempt = claim.2) ∧
      ∀ request, w.request = some request → request.attempt < claim.2 := by
  rcases answered_of_claimedBy h with ⟨thread, w', hanswer⟩
  rcases hanswer.attempt with ⟨request', hrequest', hattempt⟩
  refine ⟨⟨request', by rw [hanswer.request_perform, hrequest'], hattempt⟩, ?_⟩
  intro request hrequest
  rw [← hattempt]
  cases claimed_of_request hanswer.result with
  | first hhead hprepared hnone =>
    rw [hnone] at hrequest
    cases hrequest
  | again request'' hhead hprepared hrequest'' =>
    rw [hrequest''] at hrequest
    cases hrequest
    cases hrequest'
    exact Nat.lt_succ_self _

theorem Change.attempt_le (h : Change w e w') {request : PreparationRequest}
    (hrequest : w.request = some request) :
    ∃ request', w'.request = some request' ∧ request.attempt ≤ request'.attempt := by
  have hsame : w'.request = w.request →
      ∃ request', w'.request = some request' ∧ request.attempt ≤ request'.attempt :=
    fun hkept => ⟨request, hkept.trans hrequest, le_refl _⟩
  cases h with
  | kept _ _ hkept => exact hsame hkept
  | written => exact hsame rfl
  | entered _ _ _ _ _ hkept => exact hsame hkept
  | moved _ _ _ _ _ _ _ _ hkept => exact hsame hkept
  | first _ _ _ _ _ hnone =>
    rw [hnone] at hrequest
    cases hrequest
  | again _ _ old _ _ _ hold _ hnew =>
    rw [hold] at hrequest
    cases hrequest
    exact ⟨_, hnew, Nat.le_succ _⟩
  | created _ _ _ _ _ _ _ _ _ _ _ _ hkept => exact hsame hkept
  | acquired _ _ _ _ _ _ _ _ _ _ _ _ _ hkept => exact hsame hkept
  | rested _ _ _ _ _ _ _ _ _ _ hkept => exact hsame hkept
  | recorded _ _ _ _ _ old request' _ _ _ _ hold hrecorded _ _ hnew =>
    rw [hold] at hrequest
    cases hrequest
    exact ⟨request', hnew, hrecorded.keepsAttempt.ge⟩

/-- The request is changed by a claim, or by the thread of the current attempt. -/
theorem Change.owner (h : Change w e w') (hchanged : w'.request ≠ w.request) :
    (w.claimedBy e).isSome = true ∨ w.OfCurrentAttempt e := by
  cases h with
  | kept _ _ hkept => exact absurd hkept hchanged
  | written => exact absurd rfl hchanged
  | entered _ _ _ _ _ hkept => exact absurd hkept hchanged
  | moved _ _ _ _ _ _ _ _ hkept => exact absurd hkept hchanged
  | first _ _ _ _ _ _ hclaimed => exact Or.inl (by rw [hclaimed]; rfl)
  | again _ _ _ _ _ _ _ _ _ hclaimed => exact Or.inl (by rw [hclaimed]; rfl)
  | created _ _ _ _ _ _ _ _ _ _ _ _ hkept => exact absurd hkept hchanged
  | acquired _ _ _ _ _ _ _ _ _ _ _ _ _ hkept => exact absurd hkept hchanged
  | rested _ _ _ _ _ _ _ _ _ _ hkept => exact absurd hkept hchanged
  | recorded _ id thread _ attempt request _ _ he hthread hattempt hrequest hrecorded =>
    exact Or.inr ⟨id, thread, request, he, hthread, hrequest, by rw [hattempt, hrecorded.mine]⟩

end Laws

section Runs

variable {hist : PreparationHistory}

theorem claims_snoc (hist : PreparationHistory) (w : PreparationWorld) (e : PreparationEvent) :
    claims (hist ++ [(w, e)]) = claims hist ++ (w.claimedBy e).toList := by
  unfold claims
  rw [List.filterMap_append]
  congr 1

theorem claims_once {w₀ : PreparationWorld}
    (hrun : Run (PreparationStep rules) w₀ hist w) :
    ((claims hist).map Prod.snd).Nodup ∧ ∀ claim ∈ claims hist, ∃ request,
      w.request = some request ∧ claim.2 ≤ request.attempt := by
  apply Run.history_invariant (J := fun hist w => ((claims hist).map Prod.snd).Nodup ∧
    ∀ claim ∈ claims hist, ∃ request, w.request = some request ∧ claim.2 ≤ request.attempt) _ _ hrun
  · exact ⟨List.nodup_nil, fun _ h => absurd h List.not_mem_nil⟩
  · rintro hist w e w' - ⟨hnodup, hbelow⟩ ⟨-, rfl⟩
    rw [claims_snoc]
    have hstep : ∀ claim ∈ claims hist, ∃ request,
        (w.perform rules e).request = some request ∧ claim.2 ≤ request.attempt := by
      intro claim hclaim
      rcases hbelow claim hclaim with ⟨request, hrequest, hle⟩
      rcases (change_perform e).attempt_le hrequest with ⟨request', hrequest', hle'⟩
      exact ⟨request', hrequest', hle.trans hle'⟩
    cases hclaim : w.claimedBy e with
    | none =>
      rw [Option.toList_none, List.append_nil]
      exact ⟨hnodup, hstep⟩
    | some new =>
      rcases attempt_of_claimedBy rules hclaim with ⟨⟨request', hrequest', hattempt⟩, habove⟩
      rw [Option.toList_some, List.map_append, List.map_singleton]
      constructor
      · rw [List.nodup_append]
        refine ⟨hnodup, List.nodup_singleton _, ?_⟩
        rintro attempt hattempt' _ hnew rfl
        rcases List.mem_map.mp hattempt' with ⟨claim, hmem, rfl⟩
        rcases hbelow claim hmem with ⟨request, hrequest, hle⟩
        have hlt := habove request hrequest
        rw [← List.mem_singleton.mp hnew] at hlt
        omega
      · intro claim hmem
        rcases List.mem_append.mp hmem with hmem | hmem
        · exact hstep claim hmem
        · rw [List.mem_singleton.mp hmem]
          exact ⟨request', hrequest', hattempt.ge⟩

theorem Unasked.sound (h : w.Unasked) : Sound [] w where
  made id thread runId hthread := by
    rw [h.threads] at hthread
    cases hthread
  presented id thread runId hthread := by
    rw [h.threads] at hthread
    cases hthread
  bound runId hbound := by
    rcases hbound with hbound | ⟨e, he, -⟩
    · unfold boundRun at hbound
      rw [h.request] at hbound
      cases hbound
    · cases he
  ended runId hbound := by
    rcases hbound with hbound | ⟨e, he, -⟩
    · unfold boundRun at hbound
      rw [h.request] at hbound
      cases hbound
    · cases he

theorem sound_run {w₀ : PreparationWorld} (hstart : w₀.Unasked)
    (hrun : Run (PreparationStep rules) w₀ hist w) (hintime : ∀ e ∈ hist, e.1.AsksInTime e.2) :
    Sound hist w := by
  have hsound : (∀ e ∈ hist, e.1.AsksInTime e.2) → Sound hist w := by
    apply Run.history_invariant (J := fun hist w => (∀ e ∈ hist, e.1.AsksInTime e.2) → Sound hist w)
      _ _ hrun
    · exact fun _ => hstart.sound
    · rintro hist w e w' - ih ⟨-, rfl⟩ hall
      have hbefore := ih fun e' he' => hall e' (List.mem_append_left _ he')
      have hlast : w.AsksInTime e := hall (w, e) (List.mem_append_right _ (List.mem_singleton_self _))
      exact hbefore.step (change_perform e) (idle_of_inTime hlast)
  exact hsound hintime

/-- In any run from a revision nobody has asked for, the revision is captured once at a time exactly if no
    attempt that is overdue, or whose trigger failed, is asked again while its run is at work. -/
theorem oneCapture_iff {w₀ : PreparationWorld} (hstart : w₀.Unasked)
    (hrun : Run (PreparationStep rules) w₀ hist w) :
    OneCapture rules hist w ↔ ∀ e ∈ hist, e.1.AsksInTime e.2 := by
  constructor
  · rintro h ⟨before, e⟩ he
    cases e with
    | request id =>
      intro thread request run hthread hphase hask hrequest hattempt hoverdue hrow
      have hclaimed := claimed_of_overdue hthread hphase hask hrequest hattempt hoverdue
      rw [Bool.eq_false_iff]
      intro hlive
      unfold boundRow at hrow
      rcases Option.bind_eq_some_iff.mp hrow with ⟨runId, hbound, hget⟩
      exact h.spared _ he hclaimed runId hbound ⟨run, hget, hlive⟩
    | _ => trivial
  · intro hintime
    have hsound := sound_run hstart hrun hintime
    -- a live run that was bound is the one that is bound now
    have hnow : ∀ runId, EverBound hist w runId → w.Live runId → w.boundRun = some runId := by
      rintro runId hbound ⟨run, hget, hlive⟩
      by_contra hother
      rcases hsound.ended runId hbound hother with ⟨run', hget', hended⟩
      rw [hget] at hget'
      cases hget'
      unfold ScopedRun.live at hlive
      rw [hended, Bool.not_true, Bool.and_false] at hlive
      cases hlive
    refine ⟨?_, (claims_once hrun).1, ?_, ?_⟩
    · intro runId runId' hbound hbound' hlive hlive'
      have heq := (hnow runId hbound hlive).symm.trans (hnow runId' hbound' hlive')
      exact Option.some.inj heq
    · exact fun e _ hchanged => (change_perform e.2).owner hchanged
    · rintro e he hclaimed runId hbound ⟨run, hget, hlive⟩
      have hidle := idle_of_inTime (hintime e he) hclaimed run
        ((boundRow_of_boundRun hbound).trans hget)
      rw [hidle] at hlive
      cases hlive

end Runs

/-! ## 5. Two histories -/

section Example

def plainRules : PreparationRules := ⟨fun _ usage => usage, fun _ => none⟩

def planDigest : Text := List.replicate 64 'a'

/-- An open plan at its first revision. -/
def freshPlan : PreparationWorld where
  revision := 1
  plan := ⟨1, planDigest, false, "conversation".toList⟩
  preparation := none
  request := none
  runs := Dict.empty
  threads := Dict.empty
  executions := []
  now := 0

theorem freshPlan_unasked : freshPlan.Unasked := ⟨rfl, rfl⟩

def threadA : Text := "A".toList
def threadB : Text := "B".toList
def firstRun : Text := "run-1".toList
def secondRun : Text := "run-2".toList

/-- A thread up to its claim. -/
def asking (thread : Text) : List PreparationEvent :=
  [.enter thread thread planDigest, .read thread, .release thread false, .request thread]

/-- A thread from its claim to the trigger of a run of its own. -/
def making (thread runId : Text) (outcome : TriggerOutcome) : List PreparationEvent :=
  [.create thread runId .null .null .answered, .acquire thread .answered, .rest thread .answered,
    .bind thread, .trigger thread outcome]

def accepted : TriggerOutcome := ⟨.triggered, some "capture-x7".toList⟩

def hour : ℤ := 3600

/-- A thread stops after its trigger was accepted.  The job runs; once the grace is over, another thread
    asks, and a second job runs beside the first. -/
def overtaken : List PreparationEvent :=
  asking threadA ++ making threadA firstRun accepted ++
    [.stop threadA, .run firstRun (.claim "job-1".toList "token-1".toList hour), .tick (graceOf 901)] ++
      asking threadB ++ making threadB secondRun accepted ++
        [.record threadB, .run secondRun (.claim "job-2".toList "token-2".toList hour)]

instance (w : PreparationWorld) (runId : Text) : Decidable (w.Live runId) :=
  decidable_of_iff ((w.runs.get? runId).any ScopedRun.live = true) (by
    unfold Live HasRun
    rw [Option.any_eq_true])

instance (hist : PreparationHistory) (w : PreparationWorld) (runId : Text) :
    Decidable (EverBound hist w runId) := inferInstanceAs (Decidable (_ ∨ _))

theorem captured_twice : ∃ hist w, freshPlan.Unasked ∧
    Run (PreparationStep plainRules) freshPlan hist w ∧ ¬ OneCapture plainRules hist w := by
  refine ⟨_, _, freshPlan_unasked, run_performed overtaken freshPlan (by decide +kernel), ?_⟩
  intro h
  have heq := h.single firstRun secondRun (by decide +kernel) (by decide +kernel) (by decide +kernel)
    (by decide +kernel)
  exact absurd heq (by decide)

/-- Whether a request is in time, as it is computed. -/
def asksInTime (w : PreparationWorld) : PreparationEvent → Bool
  | .request _ => w.request.all fun request =>
    !request.overdue w.now startGraceSeconds || w.boundRow.all fun run => !run.live
  | _ => true

theorem inTime_of_asksInTime {e : PreparationEvent} (h : w.asksInTime e = true) : w.AsksInTime e := by
  cases e with
  | request id =>
    intro thread request run hthread hphase hask hrequest hattempt hoverdue hrow
    unfold asksInTime at h
    rw [hrequest, hrow, Option.all_some, Option.all_some, hoverdue, Bool.not_true, Bool.false_or,
      Bool.not_eq_true'] at h
    exact h
  | _ => trivial

/-- A trigger fails; the next thread takes the run over, and its job fails.  A third attempt makes a run of
    its own. -/
def retriedCaptures : List PreparationEvent :=
  asking threadA ++ making threadA firstRun ⟨.triggerFailed, none⟩ ++ [.record threadA] ++
    asking threadB ++ [.trigger threadB accepted, .record threadB,
      .run firstRun (.claim "job-1".toList "token-1".toList hour), .tick (graceOf 30),
      .run firstRun (.finalize ⟨.failed, some .starting, none, ⟨"job-1".toList, none, none⟩, {}⟩)] ++
      asking "C".toList ++ making "C".toList secondRun accepted ++
        [.record "C".toList, .run secondRun (.claim "job-2".toList "token-2".toList hour)]

theorem oneCapture_retried : ∃ hist w, Run (PreparationStep plainRules) freshPlan hist w ∧
    w.Live secondRun ∧ OneCapture plainRules hist w := by
  have hrun : Run (PreparationStep plainRules) freshPlan _ _ :=
    run_performed retriedCaptures freshPlan (by decide +kernel)
  refine ⟨_, _, hrun, by decide +kernel, (oneCapture_iff freshPlan_unasked hrun).mpr ?_⟩
  intro e he
  have hall : (performed (fun w => w.perform plainRules) freshPlan retriedCaptures).all
      (fun e => e.1.asksInTime e.2) = true := by decide +kernel
  exact inTime_of_asksInTime (List.all_eq_true.mp hall e he)

end Example

end PreparationWorld

end Milo.Catalog
