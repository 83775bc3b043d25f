import Milo.Finalization.RunRow
import Milo.Reasoning.Transition

/-!
# OneWriter — one writer at a time, and no decided status overwritten

Workers, callers and operators act on one run row in any order, and between the two statements of a
transition or of a cancellation request anything may happen.  The lease keeps the writers apart in
every run.  A transition to the status it read compares nothing when it writes, so it is the one write
that can undo a decision taken in between.
-/

namespace Milo.Finalization

open Milo.Reasoning Milo.Catalog

variable {δ : Type}

/-! ## 1. The run and its callers -/

/-- A call between its read and its write. -/
inductive PendingWrite (δ : Type)
  | transition (call : TransitionCall δ) (expectedStatus : Option RunStatus)
  | cancellation (status : RunStatus) (reason : Option String)

/-- The row, the clock, the calls under way, and the leases granted so far, the oldest first. -/
structure RunWorld (δ : Type) where
  table : RunTable δ
  now : ℤ
  pending : Dict ℕ (PendingWrite δ) := Dict.empty
  granted : List WorkerLease := []

inductive RowEvent (δ : Type)
  | claim (workerId token : Text) (leaseSeconds : ℤ)
  | heartbeat (owner : Ownership) (leaseSeconds : Option ℤ)
  | readStatus (callId : ℕ) (call : TransitionCall δ)
  | readForCancellation (callId : ℕ) (reason : Option String)
  | write (callId : ℕ)
  | finalize (call : FinalizeCall δ)
  | recordLaunch (state : RunLaunch)
  | tick (now : ℤ)

abbrev RowHistory (δ : Type) := List (RunWorld δ × RowEvent δ)

namespace RunWorld

variable (merge : δ → δ → δ) (w : RunWorld δ)

def status : RunStatus := w.table.row.status

/-- The second statement of a call. -/
def writes : PendingWrite δ → Except AppError (RunTable δ)
  | .transition call expected => w.table.transitionWrite w.now merge call expected
  | .cancellation status reason => w.table.cancellationWrite status reason w.now

/-- What a database statement leaves behind; a refused one leaves nothing. -/
def after (result : Except AppError (RunTable δ)) : RunWorld δ :=
  match result with
  | .ok table => { w with table := table }
  | .error _ => w

def perform : RowEvent δ → RunWorld δ
  | .claim workerId token leaseSeconds =>
    match w.table.claimRunLease w.now workerId token leaseSeconds with
    | some table =>
      { w with
        table := table
        granted := w.granted ++ [⟨workerId, table.row.attempt, token⟩] }
    | none => w
  | .heartbeat owner leaseSeconds => w.after (w.table.heartbeatRunGuarded w.now owner leaseSeconds)
  | .readStatus callId call =>
    match w.table.transitionRead call with
    | .ok expected => { w with pending := w.pending.set callId (.transition call expected) }
    | .error _ => w
  | .readForCancellation callId reason =>
    match w.table.cancellationRead with
    | .ok status => { w with pending := w.pending.set callId (.cancellation status reason) }
    | .error _ => w
  | .write callId =>
    match w.pending.get? callId with
    | some call => { w with pending := w.pending.erase callId }.after (w.writes merge call)
    | none => w
  | .finalize call => w.after (w.table.finalizeRun w.now merge call)
  | .recordLaunch state =>
    { w with table := { w.table with row := { w.table.row with launchState := state } } }
  | .tick now => { w with now := now }

/-- A token is drawn afresh, and the clock never goes back. -/
def Allowed : RowEvent δ → Prop
  | .claim _ token _ => token ∉ w.granted.map WorkerLease.leaseToken
  | .tick now => w.now ≤ now
  | _ => True

/-- The full ownership that a step presents. -/
def presents : RowEvent δ → Option WorkerLease
  | .heartbeat owner _ => owner.lease?
  | .finalize call => call.owner.lease?
  | .write callId =>
    match w.pending.get? callId with
    | some (.transition call _) => call.owner.bind Ownership.lease?
    | _ => none
  | _ => none

/-- A lease that was granted, and then another one. -/
def Replaced (lease : WorkerLease) : Prop :=
  ∃ earlier later, later ≠ [] ∧ w.granted = earlier ++ lease :: later

/-- The events that a step commits with a terminal status. -/
def committedEvents : RowEvent δ → List (RunEventRow δ)
  | .finalize call =>
    match w.table.finalizeRun w.now merge call with
    | .ok _ => call.event.toList
    | .error _ => []
  | _ => []

end RunWorld

/-! ## 2. What a step can do -/

/-- The fields of the lease, as they are in another row. -/
def RunRecord.SameLease (row row' : RunRecord δ) : Prop :=
  row'.workerId = row.workerId ∧ row'.attempt = row.attempt ∧ row'.leaseToken = row.leaseToken ∧
    row'.leaseExpiresAt = row.leaseExpiresAt

/-- Who may write with a pending transition. -/
def TransitionCall.MayWrite (call : TransitionCall δ) (row : RunRecord δ) (now : ℤ) : Prop :=
  ∀ owner, call.owner = some owner →
    ∃ lease, owner.lease? = some lease ∧ row.assertWorkerLease now lease = true

inductive RowEffect (merge : δ → δ → δ) (w : RunWorld δ) : RowEvent δ → RunTable δ → Prop
  | kept {event : RowEvent δ} (hevents : w.committedEvents merge event = []) :
      RowEffect merge w event w.table
  | launched {state : RunLaunch} :
      RowEffect merge w (.recordLaunch state)
        ⟨{ w.table.row with launchState := state }, w.table.events⟩
  | claimed {workerId token : Text} {leaseSeconds : ℤ}
      (hclaimable : w.table.row.claimable w.now workerId = true) :
      RowEffect merge w (.claim workerId token leaseSeconds)
        ⟨w.table.row.claimed w.now workerId token leaseSeconds, w.table.events⟩
  | beat {owner : Ownership} {leaseSeconds : Option ℤ} {row : RunRecord δ}
      (howned : w.table.row.ownedBy w.now owner = true) (hstatus : row.status = w.status)
      (hattempt : row.attempt = w.table.row.attempt)
      (htoken : row.leaseToken = w.table.row.leaseToken) :
      RowEffect merge w (.heartbeat owner leaseSeconds) ⟨row, w.table.events⟩
  | transitioned {callId : ℕ} {call : TransitionCall δ} {expected : Option RunStatus}
      {row : RunRecord δ}
      (hpending : w.pending.get? callId = some (.transition call expected))
      (hexpected : ∀ status, expected = some status → w.status = status)
      (hwriter : call.MayWrite w.table.row w.now) (hstatus : row.status = call.status)
      (hlease : w.table.row.SameLease row) :
      RowEffect merge w (.write callId) ⟨row, w.table.events⟩
  | cancelled {callId : ℕ} {status : RunStatus} {reason : Option String} {row : RunRecord δ}
      (hpending : w.pending.get? callId = some (.cancellation status reason))
      (hexpected : w.status = status) (hstatus : row.status = .cancellationRequested)
      (hlease : w.table.row.SameLease row) :
      RowEffect merge w (.write callId) ⟨row, w.table.events⟩
  | finalized {call : FinalizeCall δ} {row : RunRecord δ}
      (howned : w.table.row.ownedBy w.now call.owner = true)
      (hvalid : call.status ∈ w.status.validTransitions)
      (hstatus : row.status = call.status) (hlease : w.table.row.SameLease row)
      (hevents : w.committedEvents merge (.finalize call) = call.event.toList) :
      RowEffect merge w (.finalize call)
        ⟨row, w.table.events ++ call.event.toList⟩

namespace RunWorld

variable {merge : δ → δ → δ} {w : RunWorld δ}

theorem validateTransition_ok {current new : RunStatus} {u : Unit}
    (h : validateTransition current new = .ok u) : new ∈ current.validTransitions := by
  unfold validateTransition at h
  split at h
  · assumption
  · cases h

variable {call : TransitionCall δ} {table : RunTable δ} {event : RowEvent δ} {lease : WorkerLease}
  {row : RunRecord δ}

theorem writes_transition {expected : Option RunStatus} (h : w.writes merge (.transition call expected) = .ok table) :
    (∀ status, expected = some status → w.status = status) ∧ call.MayWrite w.table.row w.now ∧
      ∃ row, table = ⟨row, w.table.events⟩ ∧ row.status = call.status ∧
        w.table.row.SameLease row := by
  change w.table.transitionWrite w.now merge call expected = .ok table at h
  unfold RunTable.transitionWrite at h
  cases howner : call.owner with
  | none =>
    rw [howner] at h
    simp only at h
    split at h
    · rename_i hexpected
      cases h
      refine ⟨?_, ?_, _, rfl, rfl, rfl, rfl, rfl, rfl⟩
      · rintro status rfl
        show w.table.row.status = status
        simpa using hexpected
      · intro owner hsome
        rw [howner] at hsome
        cases hsome
    · cases h
  | some owner =>
    rw [howner] at h
    simp only [RunTable.transitionRunWorkerGuarded] at h
    split at h
    · cases h
    · cases hlease : owner.lease? with
      | none =>
        simp only [hlease] at h
        cases h
      | some lease =>
        simp only [hlease] at h
        split at h
        · rename_i hguard
          rw [Bool.and_eq_true] at hguard
          cases h
          refine ⟨?_, ?_, _, rfl, rfl, rfl, rfl, rfl, rfl⟩
          · rintro status rfl
            show w.table.row.status = status
            simpa using hguard.2
          · intro owner' hsome
            rw [howner] at hsome
            cases hsome
            exact ⟨lease, hlease, hguard.1⟩
        · cases h

theorem writes_cancellation {status : RunStatus} {reason : Option String}
    (h : w.writes merge (.cancellation status reason) = .ok table) :
    w.status = status ∧ ∃ row, table = ⟨row, w.table.events⟩ ∧
      row.status = .cancellationRequested ∧ w.table.row.SameLease row := by
  change w.table.cancellationWrite status reason w.now = .ok table at h
  unfold RunTable.cancellationWrite at h
  split at h
  · rename_i hguard
    simp only [Bool.and_eq_true, decide_eq_true_eq] at hguard
    cases h
    exact ⟨hguard.1, _, rfl, rfl, rfl, rfl, rfl, rfl⟩
  · cases h

theorem finalizeRun_ok {call : FinalizeCall δ} (h : w.table.finalizeRun w.now merge call = .ok table) :
    w.table.row.ownedBy w.now call.owner = true ∧ call.status ∈ w.status.validTransitions ∧
      ∃ row, table = ⟨row, w.table.events ++ call.event.toList⟩ ∧
        row.status = call.status ∧ w.table.row.SameLease row := by
  unfold RunTable.finalizeRun at h
  split at h
  · rename_i hterminal
    cases hexpected : call.expectedStatus with
    | none =>
      simp only [hexpected, RunTable.finalizeRunGuarded, if_pos hterminal] at h
      split at h
      · rename_i hguard
        simp at hguard
      · cases h
    | some expected =>
      rw [hexpected] at h
      rcases except_bind_eq_ok.mp h with ⟨_, hvalid, h⟩
      simp only [RunTable.finalizeRunGuarded, if_pos hterminal, hexpected] at h
      split at h
      · rename_i hguard
        simp only [Bool.and_eq_true, decide_eq_true_eq, Option.some.injEq] at hguard
        cases h
        refine ⟨hguard.1, ?_, _, rfl, rfl, rfl, rfl, rfl, rfl⟩
        show call.status ∈ w.table.row.status.validTransitions
        rw [hguard.2]
        exact validateTransition_ok hvalid
      · cases h
  · cases h

theorem effect_perform (w : RunWorld δ) (event : RowEvent δ) :
    RowEffect merge w event (w.perform merge event).table := by
  cases event with
  | tick now => exact .kept rfl
  | recordLaunch state => exact .launched
  | readStatus callId call =>
    simp only [perform]
    split <;> exact .kept rfl
  | readForCancellation callId reason =>
    simp only [perform]
    split <;> exact .kept rfl
  | claim workerId token leaseSeconds =>
    by_cases hclaimable : w.table.row.claimable w.now workerId = true
    · simp only [perform, RunTable.claimRunLease, if_pos hclaimable]
      exact .claimed hclaimable
    · simp only [perform, RunTable.claimRunLease, if_neg hclaimable]
      exact .kept rfl
  | heartbeat owner leaseSeconds =>
    simp only [perform, RunTable.heartbeatRunGuarded]
    split
    · rename_i hguard
      rw [Bool.and_eq_true] at hguard
      exact .beat hguard.1 rfl rfl rfl
    · exact .kept rfl
  | write callId =>
    simp only [perform]
    cases hpending : w.pending.get? callId with
    | none => exact .kept rfl
    | some call =>
      show RowEffect merge w (.write callId)
        (RunWorld.after { w with pending := w.pending.erase callId } (w.writes merge call)).table
      cases hwrites : w.writes merge call with
      | error error => exact .kept rfl
      | ok table =>
        cases call with
        | transition call expected =>
          obtain ⟨hexpected, hwriter, row, rfl, hstatus, hlease⟩ := writes_transition hwrites
          exact .transitioned hpending hexpected hwriter hstatus hlease
        | cancellation status reason =>
          obtain ⟨hexpected, row, rfl, hstatus, hlease⟩ := writes_cancellation hwrites
          exact .cancelled hpending hexpected hstatus hlease
  | finalize call =>
    simp only [perform]
    cases hresult : w.table.finalizeRun w.now merge call with
    | error error => exact .kept (by simp only [committedEvents, hresult])
    | ok table =>
      obtain ⟨howned, hvalid, row, rfl, hstatus, hlease⟩ := finalizeRun_ok hresult
      exact .finalized howned hvalid hstatus hlease (by simp only [committedEvents, hresult])

@[simp] theorem after_granted (w : RunWorld δ) (result : Except AppError (RunTable δ)) :
    (w.after result).granted = w.granted := by
  cases result <;> rfl

@[simp] theorem after_pending (w : RunWorld δ) (result : Except AppError (RunTable δ)) :
    (w.after result).pending = w.pending := by
  cases result <;> rfl

/-! ## 3. The lease -/

/-- The leases have different tokens, and the row holds the one granted last. -/
structure LeaseKept (w : RunWorld δ) : Prop where
  tokens : (w.granted.map WorkerLease.leaseToken).Nodup
  current : ∀ lease, w.granted.getLast? = some lease → w.table.row.leaseToken = some lease.leaseToken

theorem leaseToken_perform (w : RunWorld δ) (event : RowEvent δ)
    (h : ∀ workerId token leaseSeconds, event ≠ .claim workerId token leaseSeconds) :
    (w.perform merge event).table.row.leaseToken = w.table.row.leaseToken := by
  generalize htable : (w.perform merge event).table = table
  have heffect : RowEffect merge w event table := htable ▸ w.effect_perform event
  cases heffect with
  | kept => rfl
  | launched => rfl
  | claimed => exact absurd rfl (h _ _ _)
  | beat _ _ _ htoken => exact htoken
  | transitioned _ _ _ _ hlease => exact hlease.2.2.1
  | cancelled _ _ _ hlease => exact hlease.2.2.1
  | finalized _ _ _ hlease _ => exact hlease.2.2.1

/-- A step grants a lease and gives its token to the row, or does neither. -/
theorem granted_perform (w : RunWorld δ) (event : RowEvent δ) :
    ((w.perform merge event).granted = w.granted ∧
        (w.perform merge event).table.row.leaseToken = w.table.row.leaseToken) ∨
      ∃ workerId token leaseSeconds lease, event = .claim workerId token leaseSeconds ∧
        lease.leaseToken = token ∧ (w.perform merge event).granted = w.granted ++ [lease] ∧
        (w.perform merge event).table.row.leaseToken = some token := by
  cases event with
  | claim workerId token leaseSeconds =>
    by_cases hclaimable : w.table.row.claimable w.now workerId = true
    · simp only [perform, RunTable.claimRunLease, if_pos hclaimable]
      exact Or.inr ⟨workerId, token, leaseSeconds, _, rfl, rfl, rfl, rfl⟩
    · have hsame : w.perform merge (.claim workerId token leaseSeconds) = w := by
        simp only [perform, RunTable.claimRunLease, if_neg hclaimable]
      rw [hsame]
      exact Or.inl ⟨rfl, rfl⟩
  | heartbeat owner leaseSeconds =>
    exact Or.inl ⟨after_granted w _, leaseToken_perform w _ fun _ _ _ h => (by cases h)⟩
  | finalize call =>
    exact Or.inl ⟨after_granted w _, leaseToken_perform w _ fun _ _ _ h => (by cases h)⟩
  | recordLaunch state => exact Or.inl ⟨rfl, rfl⟩
  | tick now => exact Or.inl ⟨rfl, rfl⟩
  | readStatus callId call =>
    left
    simp only [perform]
    split <;> exact ⟨rfl, rfl⟩
  | readForCancellation callId reason =>
    left
    simp only [perform]
    split <;> exact ⟨rfl, rfl⟩
  | write callId =>
    refine Or.inl ⟨?_, leaseToken_perform w _ fun _ _ _ h => (by cases h)⟩
    simp only [perform]
    split
    · exact after_granted _ _
    · rfl

theorem LeaseKept.step (h : w.LeaseKept) (hallowed : w.Allowed event) : (w.perform merge event).LeaseKept := by
  have hperform := @granted_perform δ merge w event
  rcases hperform with ⟨hsame, hrow⟩ | ⟨_, _, _, lease, rfl, htoken, hgranted, hrow⟩
  · constructor
    · rw [hsame]
      exact h.tokens
    · intro lease hlast
      rw [hsame] at hlast
      rw [hrow]
      exact h.current lease hlast
  · constructor
    · rw [hgranted, List.map_append, List.nodup_append]
      refine ⟨h.tokens, List.nodup_singleton _, ?_⟩
      intro a ha b hb hab
      rw [List.map_singleton, List.mem_singleton] at hb
      apply hallowed
      rw [← htoken, ← hb, ← hab]
      exact ha
    · intro lease' hlast
      rw [hgranted, List.getLast?_concat] at hlast
      cases hlast
      rw [hrow, htoken]

theorem LeaseKept.not_current (h : w.LeaseKept) (hreplaced : w.Replaced lease) :
    w.table.row.leaseToken ≠ some lease.leaseToken := by
  obtain ⟨earlier, later, hlater, hgranted⟩ := hreplaced
  obtain ⟨later', last, rfl⟩ := (List.eq_nil_or_concat later).resolve_left hlater
  have hlast : w.granted.getLast? = some last := by
    rw [hgranted, List.concat_eq_append, ← List.cons_append, ← List.append_assoc,
      List.getLast?_concat]
  intro htoken
  have hsame : last.leaseToken = lease.leaseToken := by
    rw [h.current last hlast] at htoken
    exact Option.some.inj htoken
  have htokens := h.tokens
  rw [hgranted, List.map_append, List.map_cons, List.nodup_append] at htokens
  apply (List.nodup_cons.mp htokens.2.1).1
  rw [← hsame]
  exact List.mem_map_of_mem (by simp)

theorem leaseToken_of_assert {now : ℤ} (h : row.assertWorkerLease now lease = true) :
    row.leaseToken = some lease.leaseToken := by
  simp only [RunRecord.assertWorkerLease, Bool.and_eq_true, decide_eq_true_eq] at h
  exact h.1.2

theorem leaseToken_of_owned {now : ℤ} {owner : Ownership} (howned : row.ownedBy now owner = true)
    (hlease : owner.lease? = some lease) : row.leaseToken = some lease.leaseToken := by
  unfold Ownership.lease? at hlease
  split at hlease
  · rename_i attempt token hattempt htoken
    cases hlease
    simp only [RunRecord.ownedBy, htoken, Bool.and_eq_true, Option.all_some,
      decide_eq_true_eq] at howned
    exact howned.1.2
  · cases hlease

/-- A step that presents a replaced lease changes neither the row nor the events. -/
theorem LeaseKept.refuses (h : w.LeaseKept) (hpresents : w.presents event = some lease)
    (hreplaced : w.Replaced lease) : (w.perform merge event).table = w.table := by
  have hne := h.not_current hreplaced
  generalize htable : (w.perform merge event).table = table
  have heffect : RowEffect merge w event table := htable ▸ w.effect_perform event
  cases heffect with
  | kept => rfl
  | launched => cases hpresents
  | claimed => cases hpresents
  | beat howned => exact absurd (leaseToken_of_owned howned hpresents) hne
  | finalized howned => exact absurd (leaseToken_of_owned howned hpresents) hne
  | cancelled hpending =>
    simp only [presents, hpending] at hpresents
    cases hpresents
  | @transitioned callId call expected row hpending _ hwriter =>
    simp only [presents, hpending] at hpresents
    cases howner : call.owner with
    | none =>
      rw [howner] at hpresents
      cases hpresents
    | some owner =>
      rw [howner] at hpresents
      obtain ⟨found, hfound, hassert⟩ := hwriter owner howner
      have hsame : found = lease := Option.some.inj (hfound.symm.trans hpresents)
      rw [hsame] at hassert
      exact absurd (leaseToken_of_assert hassert) hne

theorem assert_unique {now : ℤ} {lease' : WorkerLease} (h : row.assertWorkerLease now lease = true)
    (h' : row.assertWorkerLease now lease' = true) : lease = lease' := by
  simp only [RunRecord.assertWorkerLease, Bool.and_eq_true, decide_eq_true_eq] at h h'
  obtain ⟨workerId, attempt, leaseToken⟩ := lease
  obtain ⟨workerId', attempt', leaseToken'⟩ := lease'
  have hworker : workerId = workerId' := Option.some.inj (h.1.1.1.symm.trans h'.1.1.1)
  have hattempt : attempt = attempt' := h.1.1.2.symm.trans h'.1.1.2
  have htoken : leaseToken = leaseToken' := Option.some.inj (h.1.2.symm.trans h'.1.2)
  rw [hworker, hattempt, htoken]

theorem attempt_le (w : RunWorld δ) (event : RowEvent δ) :
    w.table.row.attempt ≤ (w.perform merge event).table.row.attempt := by
  generalize htable : (w.perform merge event).table = table
  have heffect : RowEffect merge w event table := htable ▸ w.effect_perform event
  cases heffect with
  | kept => exact le_refl _
  | launched => exact le_refl _
  | beat _ _ hattempt => exact hattempt.symm.le
  | transitioned _ _ _ _ hlease => exact hlease.2.1.symm.le
  | cancelled _ _ _ hlease => exact hlease.2.1.symm.le
  | finalized _ _ _ hlease => exact hlease.2.1.symm.le
  | claimed =>
    show w.table.row.attempt ≤ ite _ _ _
    split <;> omega

/-- The events of a step are those it commits with a terminal status. -/
theorem events_perform (w : RunWorld δ) (event : RowEvent δ) :
    (w.perform merge event).table.events = w.table.events ++ w.committedEvents merge event := by
  generalize htable : (w.perform merge event).table = table
  have heffect : RowEffect merge w event table := htable ▸ w.effect_perform event
  cases heffect with
  | kept hevents => rw [hevents, List.append_nil]
  | finalized _ _ _ _ hevents => rw [hevents]
  | launched => exact (List.append_nil _).symm
  | claimed => exact (List.append_nil _).symm
  | beat => exact (List.append_nil _).symm
  | transitioned => exact (List.append_nil _).symm
  | cancelled => exact (List.append_nil _).symm

/-! ## 4. The status -/

/-- What the read of a call checked before its write. -/
def Checked : PendingWrite δ → Prop
  | .transition call expected =>
    call.status.isTerminal = false ∧
      ∀ status, expected = some status → call.status ∈ status.validTransitions
  | .cancellation status _ => RunStatus.cancellationRequested ∈ status.validTransitions

def PendingChecked (w : RunWorld δ) : Prop :=
  ∀ callId call, w.pending.get? callId = some call → Checked call

theorem checked_transitionRead {expected : Option RunStatus} (h : w.table.transitionRead call = .ok expected) :
    Checked (.transition call expected) := by
  unfold RunTable.transitionRead at h
  cases hterminal : call.status.isTerminal with
  | true =>
    rw [hterminal, if_pos rfl] at h
    cases h
  | false =>
    rw [hterminal, if_neg Bool.false_ne_true] at h
    refine ⟨hterminal, ?_⟩
    split at h
    · cases h
      rintro status ⟨⟩
    · rcases except_bind_eq_ok.mp h with ⟨_, hvalid, hexpected⟩
      cases hexpected
      rintro status ⟨⟩
      exact validateTransition_ok hvalid

theorem checked_cancellationRead {status : RunStatus} {reason : Option String}
    (h : w.table.cancellationRead = .ok status) :
    Checked (.cancellation status reason : PendingWrite δ) := by
  unfold RunTable.cancellationRead at h
  split at h
  · cases h
  · rcases except_bind_eq_ok.mp h with ⟨_, hvalid, hstatus⟩
    cases hstatus
    exact validateTransition_ok hvalid

theorem PendingChecked.step (h : w.PendingChecked) (event : RowEvent δ) :
    (w.perform merge event).PendingChecked := by
  cases event with
  | claim workerId token leaseSeconds =>
    simp only [perform]
    split <;> exact h
  | heartbeat owner leaseSeconds =>
    simp only [perform, PendingChecked, after_pending]
    exact h
  | finalize call =>
    simp only [perform, PendingChecked, after_pending]
    exact h
  | recordLaunch state => exact h
  | tick now => exact h
  | write callId =>
    simp only [perform]
    split
    · intro callId' call hcall
      rw [after_pending, Dict.get?_erase] at hcall
      split at hcall
      · cases hcall
      · exact h callId' call hcall
    · exact h
  | readStatus callId call =>
    simp only [perform]
    split
    · rename_i expected hread
      intro callId' call' hcall
      rw [Dict.get?_set] at hcall
      split at hcall
      · cases hcall
        exact checked_transitionRead hread
      · exact h callId' call' hcall
    · exact h
  | readForCancellation callId reason =>
    simp only [perform]
    split
    · rename_i status hread
      intro callId' call' hcall
      rw [Dict.get?_set] at hcall
      split at hcall
      · cases hcall
        exact checked_cancellationRead hread
      · exact h callId' call' hcall
    · exact h

/-- A terminal status stays, and a requested cancellation ends as cancelled or failed. -/
structure KeepsDecision (before after : RunStatus) : Prop where
  terminal : before.isTerminal = true → after = before
  cancelling : before = .cancellationRequested →
    after = .cancellationRequested ∨ after = .cancelled ∨ after = .failed

theorem KeepsDecision.refl (status : RunStatus) : KeepsDecision status status :=
  ⟨fun _ => rfl, Or.inl⟩

theorem KeepsDecision.of_valid {before after : RunStatus} (h : after ∈ before.validTransitions) :
    KeepsDecision before after := by
  constructor
  · intro hterminal
    rw [before.isTerminal_iff.mp hterminal] at h
    cases h
  · rintro rfl
    right
    simpa [RunStatus.validTransitions] using h

/-- A transition to the status it read writes before anything was decided. -/
def WritesInTime (w : RunWorld δ) : RowEvent δ → Prop
  | .write callId =>
    ∀ call, w.pending.get? callId = some (.transition call none) →
      call.MayWrite w.table.row w.now →
        w.status.isTerminal = false ∧
          (w.status = .cancellationRequested → call.status = .cancellationRequested)
  | _ => True

theorem writes_of_mayWrite (hstatus : call.status.isTerminal = false) (hwriter : call.MayWrite w.table.row w.now) :
    ∃ table, w.writes merge (.transition call none) = .ok table := by
  show ∃ table, w.table.transitionWrite w.now merge call none = .ok table
  unfold RunTable.transitionWrite
  cases howner : call.owner with
  | none => exact ⟨_, rfl⟩
  | some owner =>
    obtain ⟨lease, hlease, hassert⟩ := hwriter owner howner
    simp only [RunTable.transitionRunWorkerGuarded, hstatus, hlease, hassert, Option.all_none,
      Bool.and_self, if_true, Bool.false_eq_true, if_false]
    exact ⟨_, rfl⟩

theorem isTerminal_of_claimable {now : ℤ} {workerId : Text} (h : row.claimable now workerId = true) :
    row.status.isTerminal = false := by
  unfold RunRecord.claimable at h
  rw [Bool.and_eq_true] at h
  have hstatus := h.2
  cases hrow : row.status <;> rw [hrow] at hstatus <;> first | rfl | cases hstatus

theorem keepsDecision_of_inTime (hchecked : w.PendingChecked) (h : w.WritesInTime event) :
    KeepsDecision w.status (w.perform merge event).status := by
  generalize hnext : w.perform merge event = next
  have heffect : RowEffect merge w event next.table := hnext ▸ w.effect_perform event
  unfold status
  generalize next.table = table at heffect
  cases heffect with
  | kept => exact .refl _
  | launched => exact .refl _
  | beat _ hstatus =>
    rw [hstatus]
    exact .refl _
  | finalized _ hvalid hstatus =>
    rw [hstatus]
    exact .of_valid hvalid
  | cancelled hpending hexpected hstatus =>
    rw [hstatus]
    apply KeepsDecision.of_valid
    have hvalid : RunStatus.cancellationRequested ∈ _ := hchecked _ _ hpending
    rw [← hexpected] at hvalid
    exact hvalid
  | @transitioned callId call expected row hpending hexpected hwriter hstatus =>
    rw [hstatus]
    have hread : call.status.isTerminal = false ∧ _ := hchecked _ _ hpending
    cases hcompared : expected with
    | some status =>
      have hvalid := hread.2 status hcompared
      rw [← hexpected status hcompared] at hvalid
      exact .of_valid hvalid
    | none =>
      rw [hcompared] at hpending
      obtain ⟨hopen, hcancelling⟩ := h call hpending hwriter
      constructor
      · intro hterminal
        exact absurd (hopen.symm.trans hterminal) Bool.false_ne_true
      · exact fun hrequested => Or.inl (hcancelling hrequested)
  | claimed hclaimable =>
    show KeepsDecision w.table.row.status (ite _ _ _)
    split
    · exact .refl _
    · rename_i hne
      constructor
      · intro hterminal
        rw [isTerminal_of_claimable hclaimable] at hterminal
        cases hterminal
      · exact fun hrequested => absurd hrequested hne

theorem inTime_of_keepsDecision (hchecked : w.PendingChecked)
    (h : KeepsDecision w.status (w.perform merge event).status) : w.WritesInTime event := by
  cases event with
  | write callId =>
    intro call hpending hwriter
    have hread : call.status.isTerminal = false ∧ _ := hchecked _ _ hpending
    obtain ⟨table, hwrites⟩ := @writes_of_mayWrite δ merge w call hread.1 hwriter
    obtain ⟨-, -, row, rfl, hstatus, -⟩ := writes_transition hwrites
    have hafter : (w.perform merge (.write callId)).status = call.status := by
      have hperform : w.perform merge (.write callId) =
          RunWorld.after { w with pending := w.pending.erase callId }
            (w.writes merge (.transition call none)) := by
        simp only [perform, hpending]
      rw [hperform, hwrites]
      exact hstatus
    rw [hafter] at h
    constructor
    · cases hterminal : w.status.isTerminal with
      | false => rfl
      | true =>
        have hsame := h.terminal hterminal
        rw [← hsame, hread.1] at hterminal
        cases hterminal
    · intro hrequested
      rcases h.cancelling hrequested with hsame | hcancelled | hfailed
      · exact hsame
      · rw [hcancelled] at hread
        cases hread.1
      · rw [hfailed] at hread
        cases hread.1
  | _ => trivial

/-! ## 5. Runs -/

/-- No call is under way, and no lease was granted yet. -/
structure Opening (w : RunWorld δ) : Prop where
  pending : w.pending = Dict.empty
  granted : w.granted = []

/-- One writer at a time, events of committed decisions only, and no decided status overwritten. -/
structure OneWriter (merge : δ → δ → δ) (hist : RowHistory δ) (s s' : RunWorld δ) : Prop where
  oneHolder : Throughout (fun w => ∀ lease lease', w.table.row.assertWorkerLease w.now lease = true →
    w.table.row.assertWorkerLease w.now lease' = true → lease = lease') hist s'
  attempts : ∀ e ∈ hist, e.1.table.row.attempt ≤ (e.1.perform merge e.2).table.row.attempt
  replaced : ∀ e ∈ hist, ∀ lease, e.1.presents e.2 = some lease → e.1.Replaced lease →
    (e.1.perform merge e.2).table = e.1.table
  events : s'.table.events = s.table.events ++ hist.flatMap fun e => e.1.committedEvents merge e.2
  decided : ∀ e ∈ hist, KeepsDecision e.1.status (e.1.perform merge e.2).status

variable {s s' : RunWorld δ} {hist : RowHistory δ}

theorem run_leaseKept (hopening : s.Opening) (hrun : Run (Performs Allowed (perform merge)) s hist s') :
    Throughout LeaseKept hist s' := by
  apply hrun.throughout
  · constructor
    · rw [hopening.granted]
      exact List.nodup_nil
    · intro lease hlast
      rw [hopening.granted] at hlast
      cases hlast
  · rintro m event m' h ⟨hallowed, rfl⟩
    exact h.step hallowed

theorem run_pendingChecked (hopening : s.Opening)
    (hrun : Run (Performs Allowed (perform merge)) s hist s') :
    Throughout PendingChecked hist s' := by
  apply hrun.throughout
  · intro callId call hcall
    rw [hopening.pending] at hcall
    cases hcall
  · rintro m event m' h ⟨-, rfl⟩
    exact h.step event

theorem run_events (hrun : Run (Performs Allowed (perform merge)) s hist s') :
    s'.table.events = s.table.events ++ hist.flatMap fun e => e.1.committedEvents merge e.2 := by
  apply hrun.history_invariant (J := fun hist w =>
    w.table.events = s.table.events ++ hist.flatMap fun e => e.1.committedEvents merge e.2)
  · exact (List.append_nil _).symm
  · rintro hist m event m' - ih ⟨-, rfl⟩
    rw [events_perform, ih, List.flatMap_append, List.append_assoc, List.flatMap_singleton]

/-- The lease and the events are kept in every run; the decided statuses in exactly those in which
    every transition to the status it read writes before anything was decided. -/
theorem oneWriter_iff (hopening : s.Opening)
    (hrun : Run (Performs Allowed (perform merge)) s hist s') :
    OneWriter merge hist s s' ↔ ∀ e ∈ hist, e.1.WritesInTime e.2 := by
  have hchecked := run_pendingChecked hopening hrun
  have hkept := run_leaseKept hopening hrun
  constructor
  · intro h e he
    exact inTime_of_keepsDecision (hchecked.1 e he) (h.decided e he)
  · intro hintime
    exact
      { oneHolder := ⟨fun _ _ _ _ h h' => assert_unique h h', fun _ _ h h' => assert_unique h h'⟩
        attempts := fun e _ => e.1.attempt_le e.2
        replaced := fun e he _ hpresents hreplaced => (hkept.1 e he).refuses hpresents hreplaced
        events := run_events hrun
        decided := fun e he => keepsDecision_of_inTime (hchecked.1 e he) (hintime e he) }

/-! ### A cancellation undone -/

def launchedRun : RunWorld Unit where
  table :=
    { row :=
        { status := .queued
          launchState := .launched
          runIdentity := some ()
          usage := () } }
  now := 0

def firstLease : Ownership := ⟨"w".toList, some 1, some "t".toList⟩

def toRunning : TransitionCall Unit := ⟨.running, some firstLease, {}⟩

/-- The worker claims the run and starts it. -/
def startRun : List (RowEvent Unit) :=
  [.claim "w".toList "t".toList 300, .readStatus 0 toRunning, .write 0]

/-- The worker asks for `running` once more, and nothing comes between its read and its write. -/
def startTwice : List (RowEvent Unit) := startRun ++ [.readStatus 1 toRunning, .write 1]

/-- The worker asks for `running` once more; the cancellation is requested between its read and its
    write. -/
def cancelBetween : List (RowEvent Unit) :=
  startRun ++ [.readStatus 1 toRunning, .readForCancellation 2 none, .write 2, .write 1]

def ignoreUsage : Unit → Unit → Unit := fun _ _ => ()

theorem opening_launchedRun : launchedRun.Opening := ⟨rfl, rfl⟩

theorem run_of_oneClaim (events : List (RowEvent Unit))
    (h : ∀ e ∈ events, (∃ callId, e = .write callId) ∨ (∃ callId call, e = .readStatus callId call) ∨
      ∃ callId reason, e = .readForCancellation callId reason) :
    Run (Performs Allowed (perform ignoreUsage)) launchedRun
      (performed (perform ignoreUsage) launchedRun (.claim "w".toList "t".toList 300 :: events))
      ((.claim "w".toList "t".toList 300 :: events).foldl (perform ignoreUsage) launchedRun) := by
  apply run_performed
  intro e he
  rcases List.mem_cons.mp he with rfl | he
  · exact List.not_mem_nil
  · rcases h e.2 (mem_of_mem_performed he) with ⟨_, heq⟩ | ⟨_, _, heq⟩ | ⟨_, _, heq⟩ <;>
      rw [heq] <;> trivial

theorem not_oneWriter_cancelBetween :
    ∃ hist s', launchedRun.Opening ∧
      Run (Performs Allowed (perform ignoreUsage)) launchedRun hist s' ∧
      ¬ OneWriter ignoreUsage hist launchedRun s' := by
  refine ⟨_, _, opening_launchedRun, run_of_oneClaim cancelBetween.tail (by simp [cancelBetween, startRun]), ?_⟩
  intro h
  have hlast := h.decided (cancelBetween.dropLast.foldl (perform ignoreUsage) launchedRun, .write 1)
    (List.mem_of_getLast? rfl)
  rcases hlast.cancelling rfl with hsame | hcancelled | hfailed
  · cases hsame
  · cases hcancelled
  · cases hfailed

theorem oneWriter_iff_startRun :
    ∃ hist s', hist.length = 5 ∧ s'.status = .running ∧
      OneWriter ignoreUsage hist launchedRun s' := by
  have hrun := run_of_oneClaim startTwice.tail (by simp [startTwice, startRun])
  refine ⟨_, _, rfl, rfl, (oneWriter_iff opening_launchedRun hrun).mpr ?_⟩
  intro e he
  rcases List.mem_cons.mp he with rfl | he
  · trivial
  · rcases List.mem_cons.mp he with rfl | he
    · trivial
    · rcases List.mem_cons.mp he with rfl | he
      · -- the first write compares the status it read
        intro call hpending
        cases hpending
      · rcases List.mem_cons.mp he with rfl | he
        · trivial
        · rw [List.mem_singleton.mp he]
          intro call hpending _
          exact ⟨rfl, fun hrequested => by cases hrequested⟩

end RunWorld

end Milo.Finalization
