import Milo.Creation.Launch

/-!
# LaunchRace — who holds a launch, over every order of threads, operators and workers

The launch is taken by one thread at a time as long as no thread records an outcome after an operator
decided that its launch did not happen.
-/

namespace Milo.Creation

open Milo.Catalog Milo.Finalization Milo.Python Milo.Reasoning

namespace LaunchWorld

variable {merge : Jsonb → Jsonb → Jsonb} {w w' : LaunchWorld}

/-! ## 1. What one event can do -/

/-- The thread has the launch: it took it, has not recorded what came of it, and no operator has
    decided that it did not happen. -/
def Holds (w : LaunchWorld) (id : Text) : Prop :=
  ∃ thread, w.threads.get? id = some thread ∧ thread.phase.inFlight = true ∧
    thread.reconciled = false

instance (w : LaunchWorld) (id : Text) : Decidable (w.Holds id) :=
  decidable_of_iff
    ((w.threads.get? id).any (fun thread => thread.phase.inFlight && !thread.reconciled) = true) (by
      unfold Holds
      simp only [Option.any_eq_true_iff_get, Bool.and_eq_true, Bool.not_eq_true']
      constructor
      · rintro ⟨hsome, hflight, hopen⟩
        exact ⟨_, (Option.some_get hsome).symm, hflight, hopen⟩
      · rintro ⟨thread, hthread, hflight, hopen⟩
        simp only [hthread, Option.isSome_some, Option.get_some]
        exact ⟨trivial, hflight, hopen⟩)

/-- A cancelled run that no worker ever claimed. -/
def Retired (w : LaunchWorld) : Prop := w.row.status = .cancelled ∧ w.row.workerId = none

instance (w : LaunchWorld) : Decidable w.Retired := inferInstanceAs (Decidable (_ ∧ _))

/-- The thread records this answer now. -/
def Reports (w : LaunchWorld) (e : LaunchEvent) (id : Text) (answer : LaunchAnswer) : Prop :=
  e = .report id ∧ ∃ thread, w.threads.get? id = some thread ∧
    thread.phase.toReport? = some answer

/-- The thread calls the launcher now. -/
def Launches (w : LaunchWorld) (e : LaunchEvent) (id : Text) : Prop :=
  ∃ answer thread, e = .launch id answer ∧ w.threads.get? id = some thread ∧
    thread.phase.isAcquired = true

/-- What an event may change, and when. -/
inductive Change (w : LaunchWorld) : LaunchEvent → LaunchWorld → Prop
  | kept (e : LaunchEvent) (w' : LaunchWorld) : w'.row = w.row → w'.threads = w.threads →
    w'.invocations = w.invocations → Change w e w'
  | acquired (id : Text) (w' : LaunchWorld) : w.threads.get? id = none → w.row.status = .queued →
    isUnlaunched w.row.launchState = true → w'.row = { w.row with launchState := .launching } →
    w'.threads = w.threads.set id ⟨.acquired, false⟩ → w'.invocations = w.invocations →
    Change w (.acquire id) w'
  | moved (e : LaunchEvent) (id : Text) (thread : LaunchThread) (phase : LaunchPhase)
    (w' : LaunchWorld) : w.threads.get? id = some thread →
    (phase.inFlight = true → thread.phase.inFlight = true) →
    (∀ mode execution, phase = .invocationRecorded mode execution → w'.invocations ≠ []) →
    w'.row = w.row → w'.threads = w.threads.set id { thread with phase := phase } →
    w.invocations <+: w'.invocations → Change w e w'
  | reported (id : Text) (thread : LaunchThread) (answer : LaunchAnswer) (w' : LaunchWorld) :
    w.threads.get? id = some thread → thread.phase.toReport? = some answer →
    w'.row = { w.row with launchState := answer.state } →
    w'.threads = w.threads.set id { thread with phase := .reported answer } →
    w'.invocations = w.invocations → Change w (.report id) w'
  | confirmed (call : ReconcileCall) (w' : LaunchWorld) : w.row.status = .queued →
    w.row.launchState = .launching → w'.row = { w.row with launchState := .launched } →
    w'.threads = w.threads → w'.invocations = w.invocations → Change w (.reconcile call) w'
  | givenUp (call : ReconcileCall) (w' : LaunchWorld) : w.row.status = .queued →
    w.row.launchState = .launching → w'.row = { w.row with launchState := .launchFailed } →
    w'.threads = w.withReconciled.threads → w'.invocations = w.invocations →
    Change w (.reconcile call) w'
  | retired (call : RetireCall) (w' : LaunchWorld) : ¬ w.Retired →
    isUnlaunched w.row.launchState = true → w.invocations = [] →
    w'.row.launchState = w.row.launchState → w'.threads = w.threads →
    w'.invocations = w.invocations → Change w (.retire call) w'
  | written (e : LaunchEvent) (w' : LaunchWorld) : ¬ w.Retired → ¬ w'.Retired →
    w'.row.launchState = w.row.launchState → w'.threads = w.threads →
    w'.invocations = w.invocations → Change w e w'

variable {answer : LaunchAnswer} {e : LaunchEvent} {id : Text} {thread : LaunchThread} {owner : Ownership}
  {table table' : RunTable Jsonb}

theorem toReport?_eq_some {phase : LaunchPhase} (h : phase.toReport? = some answer) :
    phase.inFlight = true ∧
      ∀ mode execution, answer = .started mode execution →
        phase = .invocationRecorded mode execution := by
  cases phase with
  | acquired => cases h
  | reported => cases h
  | ended => cases h
  | invocationRecorded mode execution =>
    cases h
    refine ⟨rfl, ?_⟩
    intro mode' execution' heq
    cases heq
    rfl
  | answered given =>
    cases given with
    | started => cases h
    | uncertain message =>
      cases h
      exact ⟨rfl, nofun⟩
    | failed message =>
      cases h
      exact ⟨rfl, nofun⟩

theorem change_of_advance (hthread : w.threads.get? id = some thread) (he : threadOf? e = some id) :
    Change w e (w.advance id thread e) := by
  cases e <;> cases he <;> unfold advance <;> dsimp only
  case launch answer =>
    split
    · rename_i hphase
      exact .moved _ id thread (.answered answer) _ hthread (fun _ => by rw [hphase]; rfl) nofun rfl
        rfl (List.prefix_refl _)
    · exact .kept _ _ rfl rfl rfl
  case recordInvocation =>
    split
    · rename_i hphase
      exact .moved _ id thread _ _ hthread (fun _ => by rw [hphase]; rfl) (fun _ _ _ => by simp) rfl
        rfl (List.prefix_append _ _)
    · exact .kept _ _ rfl rfl rfl
  case report =>
    split
    · rename_i answer hanswer
      exact .reported id thread answer _ hthread hanswer rfl rfl rfl
    · exact .kept _ _ rfl rfl rfl
  case announce =>
    split
    · exact .moved _ id thread .ended _ hthread nofun nofun rfl rfl (List.prefix_refl _)
    · exact .kept _ _ rfl rfl rfl
  case stop => exact .moved _ id thread .ended _ hthread nofun nofun rfl rfl (List.prefix_refl _)

theorem change_reconcile {call : ReconcileCall} {written : LaunchWorld}
    (h : w.reconcileLostLaunch call = .ok (some written)) : Change w (.reconcile call)
      (if call.outcome = "not_launched".toList then written.withReconciled else written) := by
  unfold reconcileLostLaunch at h
  simp only [except_bind_eq_ok, refuseIf_eq_ok, exists_const, not_or, not_and, not_not] at h
  obtain ⟨⟨houtcome, -⟩, -, h⟩ := h
  by_cases hlaunched : call.outcome = "launched".toList
  · have hnot : call.outcome ≠ "not_launched".toList := by
      rw [hlaunched]
      decide
    rw [if_pos hlaunched, if_neg hnot] at h
    rw [if_neg hnot]
    split at h
    · cases h
    · simp only [except_bind_eq_ok, refuseIf_eq_ok, exists_const, not_or, not_not] at h
      obtain ⟨⟨hstatus, hstate⟩, -, -, -, h⟩ := h
      cases h
      exact .confirmed call _ hstatus hstate rfl rfl rfl
  · have hnot := houtcome hlaunched
    rw [if_neg hlaunched, if_pos hnot] at h
    rw [if_pos hnot]
    split at h
    · cases h
    · simp only [except_bind_eq_ok, refuseIf_eq_ok, exists_const, not_or, not_not] at h
      obtain ⟨⟨hstatus, hstate⟩, -, -, -, h⟩ := h
      cases h
      exact .givenUp call _ hstatus hstate rfl rfl rfl

theorem change_retire {call : RetireCall} {written : LaunchWorld}
    (h : w.retireUnlaunchedRun call = .ok (some written)) : Change w (.retire call) written := by
  unfold retireUnlaunchedRun at h
  simp only [except_bind_eq_ok, refuseIf_eq_ok, exists_const] at h
  obtain ⟨-, -, h⟩ := h
  split at h
  · cases h
  · simp only [except_bind_eq_ok, refuseIf_eq_ok, exists_const, not_or, not_and, not_not] at h
    obtain ⟨⟨hstatus, hstate⟩, -, htraced, -, h⟩ := h
    cases h
    refine .retired call _ ?_ (by simpa using hstate) ?_ ?_ rfl rfl
    · rintro ⟨hcancelled, -⟩
      rw [hcancelled] at hstatus
      cases hstatus nofun
    · simp only [traced, Bool.not_eq_true, Bool.or_eq_false_iff, Bool.not_eq_false',
        List.isEmpty_iff] at htraced
      exact htraced.1.1
    · show w.requestedRow.launchState = w.row.launchState
      unfold requestedRow
      split <;> rfl

/-- A write a worker's ownership admits. -/
structure OwnedWrite (table table' : RunTable Jsonb) : Prop where
  owned : table.row.workerId.isSome = true
  workerId : table'.row.workerId = table.row.workerId
  launchState : table'.row.launchState = table.row.launchState

theorem workerId_of_ownedBy {row : RunRecord Jsonb} {now : ℤ} (h : row.ownedBy now owner = true) :
    row.workerId.isSome = true := by
  unfold RunRecord.ownedBy at h
  simp only [Bool.and_eq_true, decide_eq_true_eq] at h
  rw [h.1.1.1]
  rfl

theorem ownedWrite_heartbeat {now : ℤ} {leaseSeconds : Option ℤ}
    (h : table.heartbeatRunGuarded now owner leaseSeconds = .ok table') : OwnedWrite table table' := by
  unfold RunTable.heartbeatRunGuarded at h
  split at h
  · rename_i hguard
    cases h
    exact ⟨workerId_of_ownedBy (Bool.and_eq_true _ _ ▸ hguard).1, rfl, rfl⟩
  · cases h

theorem ownedWrite_transition {now : ℤ} {status : RunStatus} {expected : Option RunStatus}
    {fields : RunFields Jsonb}
    (h : table.transitionRunWorkerGuarded now merge status expected owner fields = .ok table') :
    OwnedWrite table table' := by
  unfold RunTable.transitionRunWorkerGuarded at h
  split at h
  · cases h
  · split at h
    · cases h
    · split at h
      · rename_i lease _ hguard
        cases h
        unfold RunRecord.assertWorkerLease at hguard
        simp only [Bool.and_eq_true, decide_eq_true_eq] at hguard
        exact ⟨by rw [hguard.1.1.1.1]; rfl, rfl, rfl⟩
      · cases h

theorem ownedWrite_finalize {now : ℤ} {call : FinalizeCall Jsonb}
    (h : table.finalizeRun now merge call = .ok table') : OwnedWrite table table' := by
  have hguarded : table.finalizeRunGuarded now merge call = .ok table' := by
    unfold RunTable.finalizeRun at h
    split at h
    · cases hexpected : call.expectedStatus with
      | none =>
        rw [hexpected] at h
        exact h
      | some expected =>
        rw [hexpected] at h
        exact (except_bind_eq_ok.mp h).choose_spec.2
    · cases h
  unfold RunTable.finalizeRunGuarded at hguarded
  split at hguarded
  · split at hguarded
    · rename_i hguard
      cases hguarded
      exact ⟨workerId_of_ownedBy (Bool.and_eq_true _ _ ▸ hguard).1, rfl, rfl⟩
    · cases hguarded
  · cases hguarded

theorem change_of_ownedWrite {result : Except AppError (RunTable Jsonb)}
    (h : ∀ table, result = .ok table → OwnedWrite w.table table) : Change w e (w.afterWrite result) := by
  cases hresult : result with
  | error => exact .kept _ _ rfl rfl rfl
  | ok table =>
    have howned := h table hresult
    refine .written _ _ ?_ ?_ howned.launchState rfl rfl
    · rintro ⟨-, hnone⟩
      have hsome := howned.owned
      rw [show w.table.row.workerId = none from hnone] at hsome
      cases hsome
    · rintro ⟨-, hnone⟩
      have hsome := howned.owned
      rw [← howned.workerId, show table.row.workerId = none from hnone] at hsome
      cases hsome

theorem change_cancel {status : RunStatus} {reason : Option String}
    (hvalid : RunStatus.cancellationRequested ∈ status.validTransitions) :
    Change w e (w.afterWrite (w.table.cancellationWrite status reason w.now)) := by
  unfold RunTable.cancellationWrite
  split
  · rename_i hguard
    rw [Bool.and_eq_true, decide_eq_true_eq] at hguard
    refine .written _ _ ?_ ?_ rfl rfl rfl
    · rintro ⟨hcancelled, -⟩
      rw [← hguard.1, show w.table.row.status = .cancelled from hcancelled] at hvalid
      cases hvalid
    · rintro ⟨hcancelled, -⟩
      cases hcancelled
  · exact .kept _ _ rfl rfl rfl

theorem change_claim {workerId token : Text} {leaseSeconds : ℤ}
    (h : w.table.claimRunLease w.now workerId token leaseSeconds = some table) :
    Change w (.claim workerId token leaseSeconds) { w with table := table, updatedAt := w.now } := by
  unfold RunTable.claimRunLease at h
  split at h
  · rename_i hclaimable
    cases h
    refine .written _ _ ?_ ?_ rfl rfl rfl
    · rintro ⟨hcancelled, -⟩
      unfold RunRecord.claimable at hclaimable
      rw [show w.table.row.status = .cancelled from hcancelled, Bool.and_false] at hclaimable
      cases hclaimable
    · rintro ⟨-, hnone⟩
      cases hnone
  · cases h

theorem change_acquire (id : Text) : Change w (.acquire id) (w.perform merge (.acquire id)) := by
  unfold perform
  dsimp only
  split
  · rename_i taken hnone htaken
    unfold tryAcquireLaunch at htaken
    split at htaken
    · rename_i hguard
      cases htaken
      rw [Bool.and_eq_true, decide_eq_true_eq] at hguard
      exact .acquired id _ hnone hguard.1 hguard.2 rfl rfl rfl
    · cases htaken
  · exact .kept _ _ rfl rfl rfl

theorem change_perform (w : LaunchWorld) (e : LaunchEvent) : Change w e (w.perform merge e) := by
  have hthread : ∀ id, threadOf? e = some id → Change w e (w.perform merge e) := by
    intro id he
    rw [perform_of_threadOf w merge he]
    cases hget : w.threads.get? id with
    | none => exact .kept _ _ rfl rfl rfl
    | some thread => exact change_of_advance hget he
  cases e with
  | acquire id => exact change_acquire id
  | launch id answer => exact hthread id rfl
  | recordInvocation id => exact hthread id rfl
  | report id => exact hthread id rfl
  | announce id => exact hthread id rfl
  | stop id => exact hthread id rfl
  | reconcile call =>
    unfold perform
    dsimp only
    split
    · rename_i written hwritten
      exact change_reconcile hwritten
    · exact .kept _ _ rfl rfl rfl
    · exact .kept _ _ rfl rfl rfl
  | retire call =>
    unfold perform
    dsimp only
    split
    · rename_i written hwritten
      exact change_retire hwritten
    · exact .kept _ _ rfl rfl rfl
    · exact .kept _ _ rfl rfl rfl
  | claim workerId token leaseSeconds =>
    unfold perform
    dsimp only
    split
    · rename_i table htable
      exact change_claim htable
    · exact .kept _ _ rfl rfl rfl
  | heartbeat owner leaseSeconds => exact change_of_ownedWrite fun table => ownedWrite_heartbeat
  | transition status expected owner fields =>
    exact change_of_ownedWrite fun table => ownedWrite_transition
  | finalize call => exact change_of_ownedWrite fun table => ownedWrite_finalize
  | cancel status reason =>
    unfold perform
    dsimp only
    split
    · rename_i hvalid
      exact change_cancel hvalid
    · exact .kept _ _ rfl rfl rfl
  | otherRow => exact .kept _ _ rfl rfl rfl
  | runEvent event => exact .kept _ _ rfl rfl rfl
  | tick now => exact .kept _ _ rfl rfl rfl

/-! ## 2. What timely threads keep -/

/-- A thread records an outcome, and calls the launcher of a retired run, only if no operator has
    decided that its launch did not happen. -/
def InTime (w : LaunchWorld) : LaunchEvent → Prop
  | .report id => ∀ thread ∈ w.threads.get? id, thread.phase.toReport?.isSome = true →
    thread.reconciled = false
  | .launch id _ => ∀ thread ∈ w.threads.get? id, thread.phase.isAcquired = true →
    thread.reconciled = true → ¬ w.Retired
  | _ => True

instance (w : LaunchWorld) : (e : LaunchEvent) → Decidable (w.InTime e)
  | .report id => inferInstanceAs (Decidable (∀ thread ∈ w.threads.get? id, _))
  | .launch id _ => inferInstanceAs (Decidable (∀ thread ∈ w.threads.get? id, _))
  | .acquire _ | .recordInvocation _ | .announce _ | .stop _ | .reconcile _ | .retire _
  | .claim _ _ _ | .heartbeat _ _ | .transition _ _ _ _ | .finalize _ | .cancel _ _ | .otherRow
  | .runEvent _ | .tick _ => inferInstanceAs (Decidable True)

structure Sound (w : LaunchWorld) : Prop where
  recorded : ∀ id thread mode execution, w.threads.get? id = some thread →
    thread.phase = .invocationRecorded mode execution → w.invocations ≠ []
  held : ∀ id, w.Holds id → w.row.launchState = .launching ∨ w.row.launchState = .launched
  one : ∀ id id', w.Holds id → w.Holds id' → id = id'
  retired : w.Retired → isUnlaunched w.row.launchState = true

theorem not_holds_of_isUnlaunched (h : w.Sound) (hstate : isUnlaunched w.row.launchState = true)
    (id : Text) : ¬ w.Holds id := by
  intro hholds
  rcases h.held id hholds with heq | heq <;> rw [heq] at hstate <;> cases hstate

theorem InTime.holds (h : w.InTime (.report id)) (hthread : w.threads.get? id = some thread)
    (hanswer : thread.phase.toReport? = some answer) : w.Holds id :=
  ⟨thread, hthread, (toReport?_eq_some hanswer).1, h thread hthread (by rw [hanswer]; rfl)⟩

/-- One thread moves on: it has the launch only if it had it. -/
theorem holds_of_set {thread' : LaunchThread} (hthread : w.threads.get? id = some thread)
    (hthreads : w'.threads = w.threads.set id thread')
    (hinFlight : thread'.phase.inFlight = true → thread.phase.inFlight = true)
    (hreconciled : thread'.reconciled = thread.reconciled) {other : Text} (h : w'.Holds other) : w.Holds other := by
  obtain ⟨found, hfound, hflight, hopen⟩ := h
  rw [hthreads, Dict.get?_set] at hfound
  split at hfound
  · rename_i hid
    cases hfound
    rw [hid]
    exact ⟨thread, hthread, hinFlight hflight, hreconciled ▸ hopen⟩
  · exact ⟨found, hfound, hflight, hopen⟩

theorem holds_congr (hthreads : w'.threads = w.threads) (h : w'.Holds id) : w.Holds id := by
  obtain ⟨thread, hthread, hrest⟩ := h
  exact ⟨thread, hthreads ▸ hthread, hrest⟩

theorem not_holds_of_givenUp (hthreads : w'.threads = w.withReconciled.threads) (id : Text) :
    ¬ w'.Holds id := by
  rintro ⟨thread, hthread, hflight, hopen⟩
  rw [hthreads] at hthread
  unfold withReconciled at hthread
  rw [Dict.get?_mapValues] at hthread
  obtain ⟨old, -, rfl⟩ := Option.map_eq_some_iff.mp hthread
  split at hflight
  · rename_i hold
    rw [if_pos hold] at hopen
    cases hopen
  · rename_i hold
    exact hold hflight

/-- A step of no thread: the row says of the launch what it may. -/
theorem Sound.of_threads (h : w.Sound) (hthreads : w'.threads = w.threads)
    (hinvocations : w'.invocations = w.invocations)
    (hheld : ∀ id, w.Holds id → w'.row.launchState = .launching ∨ w'.row.launchState = .launched)
    (hretired : w'.Retired → isUnlaunched w'.row.launchState = true) : w'.Sound where
  recorded := by
    rw [hthreads, hinvocations]
    exact h.recorded
  held id hholds := hheld id (holds_congr hthreads hholds)
  one id id' hid hid' := h.one id id' (holds_congr hthreads hid) (holds_congr hthreads hid')
  retired := hretired

theorem Sound.recorded_of_set (h : w.Sound) (hthreads : w'.threads = w.threads.set id thread)
    (hrecorded : ∀ mode execution, thread.phase = .invocationRecorded mode execution → w'.invocations ≠ [])
    (hinvocations : w.invocations <+: w'.invocations) :
    ∀ other found mode execution, w'.threads.get? other = some found →
      found.phase = .invocationRecorded mode execution → w'.invocations ≠ [] := by
  intro other found mode execution hfound hphase
  rw [hthreads, Dict.get?_set] at hfound
  split at hfound
  · cases hfound
    exact hrecorded mode execution hphase
  · intro hnil
    rw [hnil, List.prefix_nil] at hinvocations
    exact h.recorded other found mode execution hfound hphase hinvocations

theorem Change.sound (hchange : Change w e w') (hintime : w.InTime e) (h : w.Sound) : w'.Sound := by
  have hunretired : w.row.status = .queued → w'.row.status = w.row.status → ¬ w'.Retired := by
    rintro hstatus hrow ⟨hcancelled, -⟩
    rw [hrow, hstatus] at hcancelled
    cases hcancelled
  cases hchange with
  | kept _ _ hrow hthreads hinvocations =>
    refine h.of_threads hthreads hinvocations ?_ ?_
    · rw [hrow]
      exact h.held
    · unfold Retired
      rw [hrow]
      exact h.retired
  | acquired id _ hnew hstatus hstate hrow hthreads hinvocations =>
    -- an unlaunched row has no thread in flight, so the one that acquires it is alone
    have hnobody := not_holds_of_isUnlaunched h hstate
    have honly : ∀ other, w'.Holds other → other = id := by
      rintro other ⟨thread, hthread, hrest⟩
      rw [hthreads, Dict.get?_set] at hthread
      split at hthread
      · assumption
      · exact absurd ⟨thread, hthread, hrest⟩ (hnobody other)
    refine ⟨h.recorded_of_set hthreads (fun _ _ hphase => by cases hphase) (hinvocations ▸ List.prefix_refl _),
      ?_, ?_, ?_⟩
    · intro _ _
      rw [hrow]
      exact Or.inl rfl
    · intro other other' hother hother'
      rw [honly other hother, honly other' hother']
    · exact fun hretired => absurd hretired (hunretired hstatus (by rw [hrow]))
  | moved _ id thread phase _ hthread hflight hrecorded hrow hthreads hinvocations =>
    have hholds : ∀ {other}, w'.Holds other → w.Holds other :=
      holds_of_set hthread hthreads hflight rfl
    refine ⟨h.recorded_of_set hthreads hrecorded hinvocations, ?_, fun other other' hother hother' =>
      h.one other other' (hholds hother) (hholds hother'), ?_⟩
    · intro other hother
      rw [hrow]
      exact h.held other (hholds hother)
    · unfold Retired
      rw [hrow]
      exact h.retired
  | reported id thread answer _ hthread hanswer hrow hthreads hinvocations =>
    -- the report comes in time, from the one thread that holds the launch
    have hmine := hintime.holds hthread hanswer
    have hnobody : ∀ other, ¬ w'.Holds other := by
      rintro other ⟨found, hfound, hflight, hopen⟩
      rw [hthreads, Dict.get?_set] at hfound
      split at hfound
      · cases hfound
        cases hflight
      · rename_i hne
        exact hne (h.one other id ⟨found, hfound, hflight, hopen⟩ hmine)
    refine ⟨h.recorded_of_set hthreads (fun _ _ hphase => by cases hphase) (hinvocations ▸ List.prefix_refl _),
      fun other hother => absurd hother (hnobody other), fun other _ hother => absurd hother (hnobody other), ?_⟩
    rintro ⟨hcancelled, hworker⟩
    rw [hrow] at hcancelled hworker
    exact absurd hmine (not_holds_of_isUnlaunched h (h.retired ⟨hcancelled, hworker⟩) id)
  | confirmed call _ hstatus hstate hrow hthreads hinvocations =>
    refine h.of_threads hthreads hinvocations ?_ ?_
    · rw [hrow]
      exact fun _ _ => Or.inr rfl
    · exact fun hretired => absurd hretired (hunretired hstatus (by rw [hrow]))
  | givenUp call _ hstatus hstate hrow hthreads hinvocations =>
    -- every launch in flight is marked as reconciled, so none is held
    have hnobody := not_holds_of_givenUp hthreads
    refine ⟨?_, fun other hother => absurd hother (hnobody other),
      fun other _ hother => absurd hother (hnobody other), ?_⟩
    · intro id thread mode execution hthread hphase
      rw [hinvocations]
      rw [hthreads] at hthread
      unfold withReconciled at hthread
      rw [Dict.get?_mapValues] at hthread
      obtain ⟨old, hold, rfl⟩ := Option.map_eq_some_iff.mp hthread
      apply h.recorded id old mode execution hold
      split at hphase <;> exact hphase
    · intro _
      rw [hrow]
      rfl
  | retired call _ hnot hstate hnone hlaunch hthreads hinvocations =>
    refine h.of_threads hthreads hinvocations ?_ ?_
    · exact fun id hholds => absurd hholds (not_holds_of_isUnlaunched h hstate id)
    · rw [hlaunch]
      exact fun _ => hstate
  | written _ _ hnot hnot' hlaunch hthreads hinvocations =>
    refine h.of_threads hthreads hinvocations ?_ fun hretired => absurd hretired hnot'
    rw [hlaunch]
    exact h.held

theorem inFlight_of_isAcquired {phase : LaunchPhase} (h : phase.isAcquired = true) :
    phase.inFlight = true := by
  cases phase <;> first | rfl | cases h

/-- The row of a retired run stays as it is while the threads are in time. -/
theorem Change.row_eq_of_retired (hchange : Change w e w') (hintime : w.InTime e) (h : w.Sound)
    (hretired : w.Retired) : w'.row = w.row := by
  have hqueued : w.row.status ≠ .queued := by
    rw [hretired.1]
    nofun
  cases hchange with
  | kept _ _ hrow => exact hrow
  | moved _ _ _ _ _ _ _ _ hrow => exact hrow
  | acquired _ _ _ hstatus => exact absurd hstatus hqueued
  | confirmed _ _ hstatus => exact absurd hstatus hqueued
  | givenUp _ _ hstatus => exact absurd hstatus hqueued
  | retired _ _ hnot => exact absurd hretired hnot
  | written _ _ hnot => exact absurd hretired hnot
  | reported id thread answer _ hthread hanswer =>
    exact absurd (hintime.holds hthread hanswer)
      (not_holds_of_isUnlaunched h (h.retired hretired) id)

theorem not_launches_of_retired (hintime : w.InTime e) (h : w.Sound) (hretired : w.Retired) (id : Text) :
    ¬ w.Launches e id := by
  rintro ⟨answer, thread, rfl, hthread, hacquired⟩
  cases hreconciled : thread.reconciled with
  | true => exact hintime thread hthread hacquired hreconciled hretired
  | false =>
    exact not_holds_of_isUnlaunched h (h.retired hretired) id
      ⟨thread, hthread, inFlight_of_isAcquired hacquired, hreconciled⟩

theorem Change.invocations_ne_nil (hchange : Change w e w') (h : w.invocations ≠ []) : w'.invocations ≠ [] := by
  cases hchange with
  | moved _ _ _ _ _ _ _ _ _ _ hinvocations =>
    intro hnil
    rw [hnil, List.prefix_nil] at hinvocations
    exact h hinvocations
  | kept _ _ _ _ hinvocations => rwa [hinvocations]
  | acquired _ _ _ _ _ _ _ hinvocations => rwa [hinvocations]
  | reported _ _ _ _ _ _ _ _ hinvocations => rwa [hinvocations]
  | confirmed _ _ _ _ _ _ hinvocations => rwa [hinvocations]
  | givenUp _ _ _ _ _ _ hinvocations => rwa [hinvocations]
  | retired _ _ _ _ _ _ _ hinvocations => rwa [hinvocations]
  | written _ _ _ _ _ _ hinvocations => rwa [hinvocations]

theorem Change.not_retired (hchange : Change w e w') (h : w.invocations ≠ []) (hnot : ¬ w.Retired) :
    ¬ w'.Retired := by
  have hcongr : w'.row.status = w.row.status → w'.row.workerId = w.row.workerId →
      ¬ w'.Retired := by
    rintro hstatus hworker ⟨hcancelled, hnone⟩
    exact hnot ⟨hstatus ▸ hcancelled, hworker ▸ hnone⟩
  cases hchange with
  | kept _ _ hrow => exact hcongr (by rw [hrow]) (by rw [hrow])
  | moved _ _ _ _ _ _ _ _ hrow => exact hcongr (by rw [hrow]) (by rw [hrow])
  | acquired _ _ _ _ _ hrow => exact hcongr (by rw [hrow]) (by rw [hrow])
  | reported _ _ _ _ _ _ hrow => exact hcongr (by rw [hrow]) (by rw [hrow])
  | confirmed _ _ _ _ hrow => exact hcongr (by rw [hrow]) (by rw [hrow])
  | givenUp _ _ _ _ hrow => exact hcongr (by rw [hrow]) (by rw [hrow])
  | retired _ _ _ _ hnone => exact absurd hnone h
  | written _ _ _ hnot' => exact hnot'

theorem perform_report (h : w.Reports e id answer) : (w.perform merge e).row.launchState = answer.state := by
  obtain ⟨rfl, thread, hthread, hanswer⟩ := h
  have hperform : w.perform merge (.report id) = w.advance id thread (.report id) := by
    rw [perform_of_threadOf w merge rfl, hthread]
    rfl
  rw [hperform]
  unfold advance
  rw [hanswer]
  rfl

/-! ## 3. Every run -/

/-- A success was recorded in the run. -/
def ReportedStarted (hist : List (LaunchWorld × LaunchEvent)) : Prop :=
  ∃ e ∈ hist, ∃ id mode execution, e.1.Reports e.2 id (.started mode execution)

structure LaunchHolds (merge : Jsonb → Jsonb → Jsonb) (hist : List (LaunchWorld × LaunchEvent))
    (s : LaunchWorld) : Prop where
  oneHolder : Throughout (fun w => ∀ id id', w.Holds id → w.Holds id' → id = id') hist s
  ownOutcome : ∀ e ∈ hist, ∀ id answer, e.1.Reports e.2 id answer →
    e.1.Holds id ∧ (e.1.perform merge e.2).row.launchState = answer.state
  notHandedOver : s.Retired → isUnlaunched s.row.launchState = true ∧ ¬ ReportedStarted hist
  final : ∀ e ∈ hist, e.1.Retired →
    (e.1.perform merge e.2).row = e.1.row ∧ ∀ id, ¬ e.1.Launches e.2 id

/-- The run as it was created: queued, and no thread has it. -/
structure Opening (w : LaunchWorld) : Prop where
  status : w.row.status = .queued
  threads : w.threads = Dict.empty

theorem Opening.sound (h : w.Opening) : w.Sound := by
  have hnone : ∀ id thread, w.threads.get? id ≠ some thread := by
    intro id thread hthread
    rw [h.threads, Dict.get?_empty] at hthread
    cases hthread
  refine ⟨fun id thread _ _ hthread => absurd hthread (hnone id thread), ?_, ?_, ?_⟩
  · rintro id ⟨thread, hthread, -⟩
    exact absurd hthread (hnone id thread)
  · rintro id _ ⟨thread, hthread, -⟩
    exact absurd hthread (hnone id thread)
  · rintro ⟨hcancelled, -⟩
    rw [h.status] at hcancelled
    cases hcancelled

variable {hist : List (LaunchWorld × LaunchEvent)} {start s : LaunchWorld}

theorem run_sound (hstart : start.Opening) (hrun : Run (LaunchStep merge) start hist s) :
    (∀ e ∈ hist, e.1.InTime e.2) → Throughout Sound hist s := by
  apply hrun.history_invariant
    (J := fun hist m => (∀ e ∈ hist, e.1.InTime e.2) → Throughout Sound hist m)
  · exact fun _ => ⟨fun e he => absurd he List.not_mem_nil, hstart.sound⟩
  · rintro hist m e m' - ih ⟨-, rfl⟩ hintime
    obtain ⟨hbefore, hm⟩ := ih fun e' he' => hintime e' (List.mem_append_left _ he')
    refine ⟨fun e' he' => ?_, ?_⟩
    · rcases List.mem_append.mp he' with he' | he'
      · exact hbefore e' he'
      · rw [List.mem_singleton.mp he']
        exact hm
    · exact (change_perform m e).sound (hintime (m, e) (by simp)) hm

theorem run_notHandedOver (hstart : start.Opening) (hrun : Run (LaunchStep merge) start hist s) :
    (∀ e ∈ hist, e.1.InTime e.2) → ReportedStarted hist → s.invocations ≠ [] ∧ ¬ s.Retired := by
  apply hrun.history_invariant (J := fun hist m => (∀ e ∈ hist, e.1.InTime e.2) →
    ReportedStarted hist → m.invocations ≠ [] ∧ ¬ m.Retired)
  · rintro - ⟨e, he, -⟩
    exact absurd he List.not_mem_nil
  · rintro hist m e m' hpre ih hlast hintime ⟨e', he', id, mode, execution, hreports⟩
    have hchange : Change m e (m.perform merge e) := change_perform m e
    have hsound := run_sound hstart (hpre.snoc hlast) hintime
    obtain ⟨-, rfl⟩ := hlast
    rcases List.mem_append.mp he' with he' | he'
    · obtain ⟨hrecorded, hnot⟩ := ih (fun e he => hintime e (List.mem_append_left _ he))
        ⟨e', he', id, mode, execution, hreports⟩
      exact ⟨hchange.invocations_ne_nil hrecorded, hchange.not_retired hrecorded hnot⟩
    · cases List.mem_singleton.mp he'
      have hm : m.Sound := hsound.1 (m, e) (by simp)
      have hlaunched : (m.perform merge e).row.launchState = .launched := perform_report hreports
      obtain ⟨-, thread, hthread, hanswer⟩ := hreports
      have hrecorded := hm.recorded id thread mode execution hthread
        ((toReport?_eq_some hanswer).2 mode execution rfl)
      refine ⟨hchange.invocations_ne_nil hrecorded, fun hretired => ?_⟩
      have hunlaunched := hsound.2.retired hretired
      rw [hlaunched] at hunlaunched
      cases hunlaunched

/-- A launch is held by one thread at a time, its record is the holder's, and a retired run stays
    unlaunched, exactly when no thread acts on a launch that an operator has given up. -/
theorem launchHolds_iff (hstart : start.Opening) (hrun : Run (LaunchStep merge) start hist s) :
    LaunchHolds merge hist s ↔ ∀ e ∈ hist, e.1.InTime e.2 := by
  constructor
  · rintro h ⟨m, e⟩ he
    cases e with
    | report id =>
      intro thread hthread hreports
      obtain ⟨answer, hanswer⟩ := Option.isSome_iff_exists.mp hreports
      obtain ⟨found, hfound, -, hopen⟩ :=
        (h.ownOutcome _ he id answer ⟨rfl, thread, hthread, hanswer⟩).1
      rw [Option.mem_def.mp hthread] at hfound
      cases hfound
      exact hopen
    | launch id answer =>
      intro thread hthread hacquired _ hretired
      exact (h.final _ he hretired).2 id ⟨answer, thread, rfl, hthread, hacquired⟩
    | _ => trivial
  · intro hintime
    have hsound := run_sound hstart hrun hintime
    exact
      { oneHolder := ⟨fun e he => (hsound.1 e he).one, hsound.2.one⟩
        ownOutcome := by
          rintro ⟨m, e⟩ he id answer hreports
          refine ⟨?_, perform_report hreports⟩
          have htime := hintime _ he
          obtain ⟨rfl, thread, hthread, hanswer⟩ := hreports
          exact htime.holds hthread hanswer
        notHandedOver := fun hretired => ⟨hsound.2.retired hretired, fun hreported =>
          (run_notHandedOver hstart hrun hintime hreported).2 hretired⟩
        final := fun e he hretired =>
          ⟨(change_perform e.1 e.2).row_eq_of_retired (hintime e he) (hsound.1 e he) hretired,
            not_launches_of_retired (hintime e he) (hsound.1 e he) hretired⟩ }

/-! ### Lost launches -/

def queuedRun : LaunchWorld where
  table :=
    { row :=
        { status := .queued
          launchState := .pending
          runIdentity := some (document [("run_id", .str ['r'])])
          usage := .null } }
  updatedAt := 0
  launchedAt := none
  launchError := none
  invocations := []
  otherRows := 0
  threads := Dict.empty
  now := 0

def notLaunched : LaunchEvent := .reconcile ⟨"not_launched".toList, 900, "operator".toList⟩

/-- The first thread dies with the launch; the second launches the run, and a worker claims it. -/
def launchedAgain : List LaunchEvent :=
  [.acquire ['1'], .stop ['1'], .tick 900000000, notLaunched, .acquire ['2'],
    .launch ['2'] (.started "cloud_run_job".toList ['x']), .recordInvocation ['2'], .report ['2'],
    .announce ['2'], .claim ['w'] ['t'] 300]

/-- The first thread is slow: its failure is recorded over the second thread's launch, and a third
    thread takes the launch beside it. -/
def lateReport : List LaunchEvent :=
  [.acquire ['1'], .tick 900000000, notLaunched, .acquire ['2'], .launch ['1'] (.failed ['f']),
    .report ['1'], .acquire ['3']]

theorem launchHolds_iff_launchedAgain :
    ∃ hist s, LaunchHolds (fun _ usage => usage) hist s ∧ hist.map Prod.snd = launchedAgain ∧
      s.row.launchState = .launched ∧ s.row.status = .starting := by
  have hrun : Run (LaunchStep fun _ usage => usage) queuedRun _ _ :=
    run_performed launchedAgain queuedRun (by decide +kernel)
  exact ⟨_, _, (launchHolds_iff ⟨rfl, rfl⟩ hrun).mpr (by decide +kernel), rfl, by decide +kernel,
    by decide +kernel⟩

theorem not_launchHolds_lateReport :
    ∃ hist s, queuedRun.Opening ∧ Run (LaunchStep fun _ usage => usage) queuedRun hist s ∧
      hist.map Prod.snd = lateReport ∧ ¬ LaunchHolds (fun _ usage => usage) hist s := by
  have hrun : Run (LaunchStep fun _ usage => usage) queuedRun _ _ :=
    run_performed lateReport queuedRun (by decide +kernel)
  refine ⟨_, _, ⟨rfl, rfl⟩, hrun, rfl, fun h => ?_⟩
  exact absurd (h.oneHolder.2 ['2'] ['3'] (by decide +kernel) (by decide +kernel)) (by decide)

end LaunchWorld

end Milo.Creation
