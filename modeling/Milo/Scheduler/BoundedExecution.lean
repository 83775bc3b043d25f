import Milo.Scheduler.ProviderAuthority
import Milo.Scheduler.Settlement

/-!
# BoundedExecution — how much `execute` sends and how long it waits

The accumulator that `execute` hands from wait to wait is at least the time slept so far, and each of
the comparisons made against it refuses a wait that would exceed the bound.  A `Retry-After` that reads
`nan` defeats all of them: no comparison with it holds, and every later sum is `nan` too.
-/

namespace Milo.Scheduler

open Milo.Reasoning

variable {Exc α β γ : Type}

/-! ## 1. Parts that send nothing and do not sleep -/

/-- At most so many requests were sent, and at most so many seconds slept. -/
def Spent (sent : ℕ) (seconds : ℚ) (w : SchedulerWorld Exc) : Prop :=
  w.ledger.requests.length ≤ sent ∧ w.slept ≤ seconds

theorem Spent.mono {sent sent' : ℕ} {seconds seconds' : ℚ} {w : SchedulerWorld Exc}
    (h : Spent sent seconds w) (hsent : sent ≤ sent') (hseconds : seconds ≤ seconds') :
    Spent sent' seconds' w := ⟨h.1.trans hsent, h.2.trans hseconds⟩

/-- The same requests were sent, and the same time slept. -/
def SameMeter (w w' : SchedulerWorld Exc) : Prop :=
  w'.ledger.requests = w.ledger.requests ∧ w'.slept = w.slept

theorem SameMeter.spent {sent : ℕ} {seconds : ℚ} {w w' : SchedulerWorld Exc} (h : SameMeter w w')
    (hspent : Spent sent seconds w) : Spent sent seconds w' := by
  unfold Spent
  rw [h.1, h.2]
  exact hspent

/-- The part neither sends nor sleeps, and what it ends with is as `P` says. -/
def Idles (c : Scheduling Exc β) (P : Except (SchedulerError Exc) β → Prop) : Prop :=
  ∀ w, c.Ensures w fun r w' => SameMeter w w' ∧ P r

/-- It does not run out of rounds. -/
def Lasts (r : Except (SchedulerError Exc) β) : Prop := r ≠ .error .exhausted

theorem lasts_ok (b : β) : Lasts (.ok b : Except (SchedulerError Exc) β) := by
  intro h
  cases h

theorem Lasts.error {e : SchedulerError Exc} (h : Lasts (.error e : Except (SchedulerError Exc) β)) :
    Lasts (.error e : Except (SchedulerError Exc) γ) := by
  intro he
  apply h
  rw [Except.error.inj he]

section Idles

variable {P : Except (SchedulerError Exc) β → Prop} {Q : Except (SchedulerError Exc) γ → Prop}

theorem idles_pure {b : β} (h : P (.ok b)) : Idles (pure b : Scheduling Exc β) P :=
  fun _ => ⟨⟨rfl, rfl⟩, h⟩

theorem idles_raise {e : SchedulerError Exc} (h : P (.error e)) :
    Idles (Action.raise e : Scheduling Exc β) P := fun _ => ⟨⟨rfl, rfl⟩, h⟩

theorem idles_ask {answer : ℕ → β} (h : ∀ n, P (.ok (answer n))) : Idles (ask answer) P :=
  fun _ => ⟨⟨rfl, rfl⟩, h _⟩

theorem idles_modify {f : SchedulerWorld Exc → SchedulerWorld Exc} (h : ∀ w, SameMeter w (f w)) :
    Idles (Action.modify f : Scheduling Exc Unit) Lasts := fun w => ⟨h w, lasts_ok _⟩

variable {c : Scheduling Exc β}

theorem Idles.bind {f : β → Scheduling Exc γ} (hc : Idles c P) (hok : ∀ b, P (.ok b) → Idles (f b) Q)
    (herror : ∀ e, P (.error e) → Q (.error e)) : Idles (c >>= f) Q := by
  intro w
  apply (hc w).bind
  · intro b w₁ h₁
    apply (hok b h₁.2 w₁).mono
    intro r w₂ h₂
    exact ⟨⟨h₂.1.1.trans h₁.1.1, h₂.1.2.trans h₁.1.2⟩, h₂.2⟩
  · exact fun e w₁ h₁ => ⟨h₁.1, herror e h₁.2⟩

theorem Idles.then {f : β → Scheduling Exc γ} (hc : Idles c Lasts) (hf : ∀ b, Idles (f b) Lasts) :
    Idles (c >>= f) Lasts :=
  hc.bind (fun b _ => hf b) fun _ he => he.error

theorem idles_ite {p : Prop} [Decidable p] {d : Scheduling Exc β} (hc : Idles c P) (hd : Idles d P) :
    Idles (if p then c else d) P := by
  split
  · exact hc
  · exact hd

theorem idles_ite_of {p : Prop} [Decidable p] {d : Scheduling Exc β} (hc : p → Idles c P) (hd : ¬p → Idles d P) :
    Idles (if p then c else d) P := by
  split
  · rename_i h
    exact hc h
  · rename_i h
    exact hd h

end Idles

section Parts

variable (cfg : ProviderLimitsConfig) (env : SchedulerSurroundings Exc α)

theorem lasts_runCancelled : Lasts (.error .runCancelled : Except (SchedulerError Exc) β) := by
  intro h
  cases h

theorem lasts_raised (exception : Exc) :
    Lasts (.error (.raised exception) : Except (SchedulerError Exc) β) := by
  intro h
  cases h

theorem lasts_backpressureExceeded (attempts : ℕ) (waited : Seconds) :
    Lasts (.error (.backpressureExceeded attempts waited) : Except (SchedulerError Exc) β) := by
  intro h
  cases h

theorem idles_raiseIfAny (raised : Option Exc) : Idles (raiseIfAny raised) Lasts := by
  cases raised with
  | none => exact idles_pure (lasts_ok _)
  | some exception => exact idles_raise (lasts_raised exception)

theorem idles_checkCancelled : Idles (checkCancelled env) Lasts := by
  apply (idles_ask fun n => lasts_ok (env.cancelled n)).then
  intro cancelled
  exact idles_ite (idles_raise lasts_runCancelled) (idles_pure (lasts_ok _))

theorem idles_notify : Idles (notify env) Lasts :=
  (idles_ask fun n => lasts_ok (env.callback n)).then idles_raiseIfAny

theorem idles_notifyOnce (notified : Bool) : Idles (notifyOnce env notified) Lasts :=
  idles_ite (idles_pure (lasts_ok _)) (idles_notify env)

/-- What `_try_admit` asks to wait is nothing or at least a millisecond. -/
def AsksToWait (r : Except (SchedulerError Exc) ℚ) : Prop :=
  ∃ delay, r = .ok delay ∧ (delay = 0 ∨ 1 / 1000 ≤ delay)

theorem idles_tryAdmit (estimatedTokens : ℕ) : Idles (tryAdmit cfg env estimatedTokens) AsksToWait := by
  intro w
  unfold tryAdmit
  apply ensures_ask_bind
  apply Action.ensures_modify_bind
  apply Action.ensures_get_bind
  dsimp only
  split
  · exact ⟨⟨rfl, rfl⟩, _, rfl, Or.inr (le_max_right _ _)⟩
  · exact ⟨⟨rfl, rfl⟩, 0, rfl, Or.inl rfl⟩

theorem idles_record {f : Ledger Exc → Ledger Exc} (h : ∀ l, (f l).requests = l.requests) :
    Idles (record f) Lasts := idles_modify fun w => ⟨h w.ledger, rfl⟩

theorem idles_updateLease (id : ℕ) (f : LeaseRecord → LeaseRecord) :
    Idles (record (updateLease id f) : Scheduling Exc Unit) Lasts := by
  apply idles_record
  intro l
  unfold updateLease
  split
  · rfl
  · rfl

theorem idles_noteReply (reply : CoordinatorReply Exc) :
    Idles (record (noteReply reply) : Scheduling Exc Unit) Lasts := idles_record fun _ => rfl

theorem idles_releaseSlot : Idles (releaseSlot : Scheduling Exc Unit) Lasts :=
  idles_record fun _ => rfl

theorem idles_isOpen (id : ℕ) : Idles (isOpen id : Scheduling Exc Bool) Lasts :=
  fun _ => ⟨⟨rfl, rfl⟩, lasts_ok _⟩

theorem idles_releaseLease (stage : ReleaseStage) (id : ℕ) :
    Idles (releaseLease env stage id) Lasts := by
  apply (idles_isOpen id).then
  intro unsettled
  apply idles_ite
  · apply (idles_updateLease id _).then
    intro _
    apply (idles_ask fun n => lasts_ok (env.removal n)).then
    intro reply
    apply (idles_noteReply _).then
    intro _
    apply (idles_updateLease id _).then
    intro _
    cases reply with
    | done => exact idles_pure (lasts_ok _)
    | raised removed exception => exact idles_raise (lasts_raised exception)
  · exact idles_pure (lasts_ok _)

theorem idles_quarantineLease (id : ℕ) : Idles (quarantineLease env id) Lasts := by
  apply (idles_isOpen id).then
  intro unsettled
  apply idles_ite
  · apply (idles_updateLease id _).then
    intro _
    exact (idles_ask fun n => lasts_ok (env.diagnostic n)).then idles_raiseIfAny
  · exact idles_pure (lasts_ok _)

theorem idles_settleLease (provenFinished : Bool) (lease : Option ℕ) :
    Idles (settleLease env provenFinished lease) Lasts := by
  cases lease with
  | none => exact idles_pure (lasts_ok _)
  | some id =>
    cases provenFinished with
    | true => exact idles_releaseLease env .settlement id
    | false => exact idles_quarantineLease env id

theorem idles_finishAttempt (lease : Option ℕ) (provenFinished : Bool) :
    Idles (finishAttempt env lease provenFinished) Lasts :=
  idles_releaseSlot.then fun _ => idles_settleLease env provenFinished lease

theorem idles_giveBack (lease : Option ℕ) : Idles (giveBack env lease) Lasts := by
  cases lease with
  | none => exact idles_releaseSlot
  | some id => exact (idles_releaseLease env .failedProbe id).then fun _ => idles_releaseSlot

theorem idles_startOwnershipProbe (lease : Option ℕ) :
    Idles (startOwnershipProbe env lease) Lasts := by
  cases lease with
  | none => exact idles_pure (lasts_ok _)
  | some id => exact (idles_ask fun n => lasts_ok (env.probeStart n)).then idles_raiseIfAny

theorem idles_reportBackpressure : Idles (reportBackpressure env) Lasts :=
  idles_ite ((idles_ask fun n => lasts_ok (env.signal n)).then idles_raiseIfAny)
    (idles_pure (lasts_ok _))

end Parts

/-! ## 2. Waits -/

section Waits

variable {env : SchedulerSurroundings Exc α} {sent : ℕ} {seconds total bound : ℚ}
  {w : SchedulerWorld Exc} {P : Except (SchedulerError Exc) β → Prop}

variable {Q : Except (SchedulerError Exc) γ → SchedulerWorld Exc → Prop}

/-- A part that neither sends nor sleeps, followed by another part. -/
theorem Idles.ensures_bind {c : Scheduling Exc β} {k : β → Scheduling Exc γ} (hc : Idles c P)
    (hspent : Spent sent seconds w) (hok : ∀ b w', P (.ok b) → Spent sent seconds w' → (k b).Ensures w' Q)
    (herror : ∀ e w', P (.error e) → Spent sent seconds w' → Q (.error e) w') : (c >>= k).Ensures w Q :=
  (hc w).bind (fun b w' h => hok b w' h.2 (h.1.spent hspent))
    fun e w' h => herror e w' h.2 (h.1.spent hspent)

theorem ensures_sleep_bind {duration : ℚ} {k : Unit → Scheduling Exc γ}
    (h : (k ()).Ensures { w with slept := w.slept + duration } Q) : (sleep duration >>= k).Ensures w Q := h

/-- A wait sleeps at most the seconds it was asked to. -/
theorem waitChunks_spent (chunks : ℕ) :
    ∀ (remaining seconds : ℚ) (w : SchedulerWorld Exc), 0 ≤ remaining → Spent sent seconds w →
      (waitChunks env chunks remaining).Ensures w fun r w' =>
        Lasts r ∧ Spent sent (seconds + remaining) w' := by
  induction chunks with
  | zero =>
    intro remaining seconds w hremaining hspent
    apply ((idles_checkCancelled env) w).mono
    intro r w' h
    exact ⟨h.2, (h.1.spent hspent).mono le_rfl (by linarith)⟩
  | succ chunks ih =>
    intro remaining seconds w hremaining hspent
    apply (idles_checkCancelled env).ensures_bind hspent
    · intro _ w₁ _ hspent₁
      apply ensures_sleep_bind
      have hstep : min remaining 1 ≤ remaining := min_le_left remaining 1
      have hslept : Spent sent (seconds + min remaining 1)
          { w₁ with slept := w₁.slept + min remaining 1 } := by
        refine ⟨hspent₁.1, ?_⟩
        show w₁.slept + min remaining 1 ≤ seconds + min remaining 1
        have hle := hspent₁.2
        linarith
      apply (ih (remaining - min remaining 1) _ _ (by linarith) hslept).mono
      intro r w' h
      exact ⟨h.1, h.2.mono le_rfl (by linarith)⟩
    · intro e w₁ hlasts hspent₁
      exact ⟨hlasts, hspent₁.mono le_rfl (by linarith)⟩

theorem wait_spent {delay : ℚ} (hdelay : 0 ≤ delay) (hspent : Spent sent seconds w) :
    (wait env (.finite delay)).Ensures w fun r w' =>
      Lasts r ∧ Spent sent (seconds + delay) w' :=
  waitChunks_spent _ delay seconds w hdelay hspent

/-- `a` seconds of a wait are behind, after `total` seconds of earlier waits. -/
structure Stands (bound : ℚ) (sent : ℕ) (total a : ℚ) (waited : Seconds) (w : SchedulerWorld Exc) :
    Prop where
  reads : waited = .finite a
  nonneg : 0 ≤ a
  within : total + a ≤ bound
  spent : Spent sent (total + a) w

/-- How a wait ends: with the seconds it took, or with an exception. -/
def WaitEnds (bound : ℚ) (sent rounds : ℕ) (total : ℚ) (seconds : γ → Seconds) :
    Except (SchedulerError Exc) γ → SchedulerWorld Exc → Prop
  | .ok c, w => ∃ a, Stands bound sent total a (seconds c) w
  | .error e, w => (e = .exhausted → (rounds : ℚ) ≤ 1000 * bound) ∧ Spent sent bound w

/-- How a round of a wait ends: it went on for at least a millisecond, or was the last one. -/
def RoundEnds (bound : ℚ) (sent : ℕ) (total a : ℚ) (acc : β → Seconds) (seconds : γ → Seconds) :
    Except (SchedulerError Exc) (β ⊕ γ) → SchedulerWorld Exc → Prop
  | .ok (.inl b), w => ∃ a', a + 1 / 1000 ≤ a' ∧ Stands bound sent total a' (acc b) w
  | .ok (.inr c), w => ∃ a', Stands bound sent total a' (seconds c) w
  | .error e, w => Lasts (.error e : Except (SchedulerError Exc) γ) ∧ Spent sent bound w

/-- A wait whose rounds each take a millisecond, and refuse what the bound does not allow, ends within
    the bound; it lacks rounds only if the bound has more milliseconds. -/
theorem waitLoop_ensures {acc : β → Seconds} {seconds : γ → Seconds}
    {body : β → Scheduling Exc (β ⊕ γ)} (htotal : 0 ≤ total)
    (hround : ∀ a b w, Stands bound sent total a (acc b) w →
      (body b).Ensures w (RoundEnds bound sent total a acc seconds))
    (rounds : ℕ) {b : β} (hstart : Stands bound sent total 0 (acc b) w) :
    (Action.loop .exhausted body rounds b).Ensures w (WaitEnds bound sent rounds total seconds) := by
  apply Action.Ensures.loop (I := fun fuel b w => ∃ a, Stands bound sent total a (acc b) w ∧
    (rounds : ℚ) ≤ fuel + 1000 * a)
  · intro b w hinv
    obtain ⟨a, hstands, hrounds⟩ := hinv
    have hwithin := hstands.within
    constructor
    · intro _
      push_cast at hrounds
      linarith
    · exact hstands.spent.mono le_rfl hwithin
  · intro fuel b w hinv
    obtain ⟨a, hstands, hrounds⟩ := hinv
    apply (hround a b w hstands).mono
    intro r w' hends
    cases r with
    | error e => exact ⟨fun he => absurd (congrArg Except.error he) hends.1, hends.2⟩
    | ok next =>
      cases next with
      | inl b' =>
        obtain ⟨a', hstep, hstands'⟩ := hends
        refine ⟨a', hstands', ?_⟩
        push_cast at hrounds
        linarith
      | inr c => exact hends
  · exact ⟨0, hstart, by linarith⟩

/-- A comparison that does not refuse a wait leaves it within the bound. -/
theorem not_exceeds {a d : ℚ}
    (h : ¬ (Seconds.finite total + .finite a + .finite d).exceeds bound = true) : total + a + d ≤ bound := by
  have hexceeds : (Seconds.finite total + .finite a + .finite d).exceeds bound =
      decide (total + a + d > bound) := rfl
  rw [hexceeds, decide_eq_true_eq] at h
  exact not_lt.mp h

theorem Stands.exceeded {a : ℚ} {waited : Seconds} (h : Stands bound sent total a waited w) :
    Spent sent bound w := h.spent.mono le_rfl h.within

/-- A wait that was not refused, and the seconds it adds. -/
theorem waitOn_ensures {a d : ℚ} {waited : Seconds} {b : β} {acc : β → Seconds} {seconds : γ → Seconds}
    (hstands : Stands bound sent total a waited w) (hd : 1 / 1000 ≤ d) (hwithin : total + a + d ≤ bound)
    (hacc : acc b = .finite (a + d)) :
    (do
      wait env (.finite d)
      pure (.inl b) : Scheduling Exc (β ⊕ γ)).Ensures w (RoundEnds bound sent total a acc seconds) := by
  have hd0 : 0 ≤ d := by linarith
  have hnonneg := hstands.nonneg
  apply (wait_spent hd0 hstands.spent).bind
  · intro _ w' h
    refine ⟨a + d, by linarith, hacc, by linarith, by linarith, ?_⟩
    rw [← add_assoc]
    exact h.2
  · intro e w' h
    exact ⟨h.1.error, h.2.mono le_rfl hwithin⟩

end Waits

/-! ## 3. The waits of `execute` -/

section Admission

variable (cfg : ProviderLimitsConfig) (env : SchedulerSurroundings Exc α) {sent : ℕ} {total a : ℚ}
  {w : SchedulerWorld Exc}

variable {bound : ℚ} {waited : Seconds}

theorem Stands.spend {w' : SchedulerWorld Exc} (h : Stands bound sent total a waited w)
    (hspent : Spent sent (total + a) w') : Stands bound sent total a waited w' :=
  ⟨h.reads, h.nonneg, h.within, hspent⟩

theorem Stands.add {d : ℚ} {w' : SchedulerWorld Exc} (h : Stands bound sent total a waited w) (hd : 0 ≤ d)
    (hwithin : total + a + d ≤ bound) (hspent : Spent sent (total + a + d) w') :
    Stands bound sent total (a + d) (waited + .finite d) w' := by
  have hnonneg := h.nonneg
  refine ⟨?_, by linarith, by linarith, ?_⟩
  · rw [h.reads]
    rfl
  · rw [← add_assoc]
    exact hspent

theorem admitRound_ends (estimatedTokens : ℕ)
    (hstands : Stands cfg.maxBackpressureWaitSeconds sent total a waited w) :
    (admitRound cfg env estimatedTokens (.finite total) waited).Ensures w
      (RoundEnds cfg.maxBackpressureWaitSeconds sent total a id id) := by
  have hreads := hstands.reads
  apply (idles_checkCancelled env).ensures_bind hstands.spent
  · intro _ w₁ _ hspent₁
    apply (idles_tryAdmit cfg env estimatedTokens).ensures_bind hspent₁
    · intro delay w₂ hasks hspent₂
      obtain ⟨_, hdelay, hasks⟩ := hasks
      cases hdelay
      show (ite _ _ _ : Scheduling Exc (Seconds ⊕ Seconds)).Ensures _ _
      split
      · exact ⟨a, hstands.spend hspent₂⟩
      · rename_i hne
        split
        · exact ⟨lasts_backpressureExceeded 0 _, hspent₂.mono le_rfl hstands.within⟩
        · rename_i hbound
          rw [hreads] at hbound ⊢
          apply (idles_notify env).ensures_bind hspent₂
          · intro _ w₃ _ hspent₃
            exact waitOn_ensures (hstands.spend hspent₃) (hasks.resolve_left hne) (not_exceeds hbound) rfl
          · exact fun e w₃ hlasts hspent₃ => ⟨hlasts.error, hspent₃.mono le_rfl hstands.within⟩
    · intro e w₂ hasks hspent₂
      obtain ⟨_, hdelay, _⟩ := hasks
      cases hdelay
  · exact fun e w₁ hlasts hspent₁ => ⟨hlasts.error, hspent₁.mono le_rfl hstands.within⟩

theorem stands_zero (hwithin : total ≤ bound) (hspent : Spent sent total w) :
    Stands bound sent total 0 (.finite 0) w := by
  refine ⟨rfl, le_rfl, ?_, ?_⟩
  · rw [add_zero]
    exact hwithin
  · rw [add_zero]
    exact hspent

theorem admitLocally_ends (estimatedTokens : ℕ) (htotal : 0 ≤ total)
    (hwithin : total ≤ cfg.maxBackpressureWaitSeconds) (hspent : Spent sent total w) :
    (admitLocally cfg env estimatedTokens (.finite total)).Ensures w
      (WaitEnds cfg.maxBackpressureWaitSeconds sent env.rounds total id) := by
  unfold admitLocally
  split
  · refine ⟨?_, hspent.mono le_rfl hwithin⟩
    intro h
    cases h
  · exact waitLoop_ensures htotal (fun a b w h => admitRound_ends cfg env estimatedTokens h) env.rounds
      (stands_zero hwithin hspent)

theorem millisecond_le_slotPoll : (1 : ℚ) / 1000 ≤ slotPollSeconds := by norm_num [slotPollSeconds]

theorem slotPoll_nonneg : (0 : ℚ) ≤ slotPollSeconds := by norm_num [slotPollSeconds]

theorem slotRound_ends {state : Seconds × Bool}
    (hstands : Stands cfg.maxBackpressureWaitSeconds sent total a state.1 w) :
    (slotRound cfg env (.finite total) state).Ensures w
      (RoundEnds cfg.maxBackpressureWaitSeconds sent total a Prod.fst id) := by
  have hreads := hstands.reads
  apply (idles_checkCancelled env).ensures_bind hstands.spent
  · intro _ w₁ _ hspent₁
    show (ite _ _ _ : Scheduling Exc ((Seconds × Bool) ⊕ Seconds)).Ensures _ _
    split
    · exact ⟨lasts_backpressureExceeded 0 _, hspent₁.mono le_rfl hstands.within⟩
    · rename_i hbound
      rw [hreads] at hbound
      have hpoll : total + a + slotPollSeconds ≤ cfg.maxBackpressureWaitSeconds := not_exceeds hbound
      apply (idles_notifyOnce env state.2).ensures_bind hspent₁
      · intro _ w₂ _ hspent₂
        apply ensures_sleep_bind
        have hslept : Spent sent (total + a + slotPollSeconds)
            { w₂ with slept := w₂.slept + slotPollSeconds } := by
          refine ⟨hspent₂.1, ?_⟩
          show w₂.slept + slotPollSeconds ≤ total + a + slotPollSeconds
          have hle := hspent₂.2
          linarith
        apply (idles_checkCancelled env).ensures_bind hslept
        · intro _ w₃ _ hspent₃
          apply ensures_ask_bind
          show (ite _ _ _ : Scheduling Exc ((Seconds × Bool) ⊕ Seconds)).Ensures _ _
          split
          · exact ⟨_, hstands.add slotPoll_nonneg hpoll hspent₃⟩
          · exact ⟨_, by linarith [millisecond_le_slotPoll], hstands.add slotPoll_nonneg hpoll hspent₃⟩
        · exact fun e w₃ hlasts hspent₃ => ⟨hlasts.error, hspent₃.mono le_rfl hpoll⟩
      · exact fun e w₂ hlasts hspent₂ => ⟨hlasts.error, hspent₂.mono le_rfl hstands.within⟩
  · exact fun e w₁ hlasts hspent₁ => ⟨hlasts.error, hspent₁.mono le_rfl hstands.within⟩

theorem acquireSlot_ends (htotal : 0 ≤ total) (hwithin : total ≤ cfg.maxBackpressureWaitSeconds)
    (hspent : Spent sent total w) :
    (acquireSlot cfg env (.finite total)).Ensures w
      (WaitEnds cfg.maxBackpressureWaitSeconds sent env.rounds total id) := by
  apply ensures_ask_bind
  show (ite _ _ _ : Scheduling Exc Seconds).Ensures _ _
  split
  · exact ⟨0, stands_zero hwithin hspent⟩
  · exact waitLoop_ensures htotal (fun a b w h => slotRound_ends cfg env h) env.rounds
      (stands_zero hwithin hspent)

theorem pace_ends {d : ℚ} (hstands : Stands cfg.maxBackpressureWaitSeconds sent total a waited w)
    (hd : 1 / 1000 ≤ d) :
    (pace cfg env (.finite total) waited (.finite d)).Ensures w
      (RoundEnds cfg.maxBackpressureWaitSeconds sent total a id Prod.snd) := by
  have hreads := hstands.reads
  unfold pace
  split
  · exact ⟨lasts_backpressureExceeded 0 _, hstands.exceeded⟩
  · rename_i hbound
    rw [hreads] at hbound ⊢
    apply (idles_notify env).ensures_bind hstands.spent
    · intro _ w₁ _ hspent₁
      exact waitOn_ensures (hstands.spend hspent₁) hd (not_exceeds hbound) rfl
    · exact fun e w₁ hlasts hspent₁ => ⟨hlasts.error, hspent₁.mono le_rfl hstands.within⟩

theorem admitUnder_ends (lease : ℕ) (hstands : Stands cfg.maxBackpressureWaitSeconds sent total a waited w) :
    (admitUnder cfg env (.finite total) waited lease).Ensures w
      (RoundEnds cfg.maxBackpressureWaitSeconds sent total a id Prod.snd) := by
  have hstays : ∀ (e : SchedulerError Exc) (w' : SchedulerWorld Exc),
      Lasts (.error e : Except (SchedulerError Exc) Unit) → Spent sent (total + a) w' →
        RoundEnds cfg.maxBackpressureWaitSeconds sent total a id (Prod.snd : ℕ × Seconds → Seconds)
          (.error e) w' :=
    fun e w' hlasts hspent => ⟨hlasts.error, hspent.mono le_rfl hstands.within⟩
  have hasked : Spent sent (total + a) { w with asked := w.asked + 1 } := hstands.spent
  apply ensures_ask_bind
  apply (idles_noteReply _).ensures_bind hasked
  · intro _ w₁ _ hspent₁
    cases env.admission w.asked with
    | raised exception =>
      show (ite _ _ _ : Scheduling Exc (Seconds ⊕ (ℕ × Seconds))).Ensures _ _
      split
      · apply (idles_releaseLease env .refusedAdmission lease).ensures_bind hspent₁
        · exact fun _ w₂ _ hspent₂ => ⟨lasts_raised exception, hspent₂.mono le_rfl hstands.within⟩
        · exact hstays
      · exact ⟨lasts_raised exception, hspent₁.mono le_rfl hstands.within⟩
    | admitted =>
      dsimp only
      apply (idles_updateLease lease _).ensures_bind hspent₁
      · exact fun _ w₂ _ hspent₂ => ⟨a, hstands.spend hspent₂⟩
      · exact hstays
    | refused dimension retry =>
      dsimp only
      apply (idles_releaseLease env .refusedAdmission lease).ensures_bind hspent₁
      · intro _ w₂ _ hspent₂
        exact pace_ends cfg env (hstands.spend hspent₂)
          (millisecond_le_slotPoll.trans (le_max_right retry slotPollSeconds))
      · exact hstays
  · exact hstays

theorem idles_openLease : Idles (openLease : Scheduling Exc ℕ) Lasts :=
  fun _ => ⟨⟨rfl, rfl⟩, lasts_ok _⟩

theorem globalRound_ends (hstands : Stands cfg.maxBackpressureWaitSeconds sent total a waited w) :
    (globalRound cfg env (.finite total) waited).Ensures w
      (RoundEnds cfg.maxBackpressureWaitSeconds sent total a id Prod.snd) := by
  apply (idles_checkCancelled env).ensures_bind hstands.spent
  · intro _ w₁ _ hspent₁
    apply ensures_ask_bind
    cases env.acquire w₁.asked with
    | raised exception => exact ⟨lasts_raised exception, hspent₁.mono le_rfl hstands.within⟩
    | refused => exact pace_ends cfg env (hstands.spend hspent₁) millisecond_le_slotPoll
    | granted =>
      have hasked : Spent sent (total + a) { w₁ with asked := w₁.asked + 1 } := hspent₁
      dsimp only
      apply idles_openLease.ensures_bind hasked
      · exact fun lease w₂ _ hspent₂ => admitUnder_ends cfg env lease (hstands.spend hspent₂)
      · exact fun e w₂ hlasts hspent₂ => ⟨hlasts.error, hspent₂.mono le_rfl hstands.within⟩
  · exact fun e w₁ hlasts hspent₁ => ⟨hlasts.error, hspent₁.mono le_rfl hstands.within⟩

theorem acquirePermit_ends (htotal : 0 ≤ total) (hwithin : total ≤ cfg.maxBackpressureWaitSeconds)
    (hspent : Spent sent total w) :
    (acquirePermit cfg env (.finite total)).Ensures w
      (WaitEnds cfg.maxBackpressureWaitSeconds sent env.rounds total Prod.snd) := by
  unfold acquirePermit
  split
  · have hgate : (acquireGlobal cfg env (.finite total)).Ensures w
        (WaitEnds cfg.maxBackpressureWaitSeconds sent env.rounds total Prod.snd) :=
      waitLoop_ensures htotal (fun a b w h => globalRound_ends cfg env h) env.rounds
        (stands_zero hwithin hspent)
    apply hgate.bind
    · exact fun permit w' hends => hends
    · exact fun e w' hends => hends
  · exact ⟨0, stands_zero hwithin hspent⟩

/-- Give back what was taken before the request, and raise. -/
theorem giveBack_ends {rounds : ℕ} (lease : Option ℕ) {e : SchedulerError Exc}
    (hends : WaitEnds bound sent rounds total (Prod.snd : Option ℕ × Seconds → Seconds) (.error e) w) :
    (do
      giveBack env lease
      Action.raise e : Scheduling Exc (Option ℕ × Seconds)).Ensures w
      (WaitEnds bound sent rounds total Prod.snd) := by
  apply (idles_giveBack env lease).ensures_bind hends.2
  · exact fun _ w' _ hspent => ⟨hends.1, hspent⟩
  · exact fun e' w' hlasts hspent => ⟨fun he => absurd (congrArg Except.error he) hlasts, hspent⟩

theorem preparePermit_ends (htotal : 0 ≤ total) (hwithin : total ≤ cfg.maxBackpressureWaitSeconds)
    (hspent : Spent sent total w) :
    (preparePermit cfg env (.finite total)).Ensures w
      (WaitEnds cfg.maxBackpressureWaitSeconds sent env.rounds total Prod.snd) := by
  apply (acquirePermit_ends cfg env htotal hwithin hspent).attempt_bind
  intro r w₁ hends
  cases r with
  | error e => exact giveBack_ends env none hends
  | ok permit =>
    obtain ⟨a, hstands⟩ := hends
    apply ((idles_startOwnershipProbe env permit.1) w₁).attempt_bind
    intro started w₂ hidle
    have hspent₂ := hidle.1.spent hstands.spent
    cases started with
    | ok _ => exact ⟨a, hstands.spend hspent₂⟩
    | error e =>
      apply giveBack_ends env permit.1
      exact ⟨fun he => absurd (congrArg Except.error he) hidle.2, hspent₂.mono le_rfl hstands.within⟩

end Admission

/-! ## 4. The retries -/

section Retries

variable (cfg : ProviderLimitsConfig) (env : SchedulerSurroundings Exc α) {sent attempts : ℕ}
  {total : ℚ} {w : SchedulerWorld Exc}

/-- No price of waiting is negative, as `from_env` reads them. -/
structure ProviderLimitsConfig.Positive (cfg : ProviderLimitsConfig) : Prop where
  bound : 0 ≤ cfg.maxBackpressureWaitSeconds
  base : 0 ≤ cfg.backoffBaseSeconds
  longest : 0 ≤ cfg.backoffMaxSeconds

/-- A `Retry-After` that can be compared with a bound, and is no time in the past. -/
def Comparable (retryAfter : Option Seconds) : Prop :=
  retryAfter ≠ some .nan ∧ ∀ value, retryAfter = some (.finite value) → 0 ≤ value

/-- The failure is retried unless a bound forbids it. -/
def IsRetried (exception : Exc) : Prop :=
  env.isException exception = true ∧ ¬ (env.classifyOutcome exception).isQuotaExhaustion ∧
    (env.classifyOutcome exception).isBackpressure

theorem backoff_nonneg (hcfg : cfg.Positive) {jitter : ℚ} (hjitter : 0 ≤ jitter) (attempts : ℕ) :
    0 ≤ backoff cfg attempts jitter := by
  have hpower : 0 ≤ cfg.backoffBaseSeconds * 2 ^ (attempts - 1) :=
    mul_nonneg hcfg.base (by positivity)
  have hspread : 0 ≤ 1 + jitter / 4 := by linarith
  exact mul_nonneg (le_min hcfg.longest hpower) hspread

/-- What a failed request leads to: a retry within both bounds, or an exception. -/
def RetryIn (attempts : ℕ) (total : ℚ) : Except (SchedulerError Exc) Seconds → Prop
  | .ok delay => ∃ d, delay = .finite d ∧ 0 ≤ d ∧ total + d ≤ cfg.maxBackpressureWaitSeconds ∧
      attempts + 1 ≤ cfg.maxRateLimitRetries
  | .error e => Lasts (.error e : Except (SchedulerError Exc) Seconds)

/-- The delay before a retry is a time, or too long for any bound. -/
def DelayReads : Except (SchedulerError Exc) Seconds → Prop
  | .ok delay => delay = .infinite ∨ ∃ d, delay = .finite d ∧ 0 ≤ d
  | .error e => Lasts (.error e : Except (SchedulerError Exc) Seconds)

theorem idles_retryDelay (hcfg : cfg.Positive) (hjitter : ∀ n, 0 ≤ env.rng n) (attempts : ℕ)
    {retryAfter : Option Seconds} (h : Comparable retryAfter) :
    Idles (retryDelay cfg env attempts retryAfter) DelayReads := by
  cases retryAfter with
  | none =>
    intro w
    exact ⟨⟨rfl, rfl⟩, Or.inr ⟨_, rfl, backoff_nonneg cfg hcfg (hjitter w.asked) attempts⟩⟩
  | some delay =>
    cases delay with
    | finite value => exact idles_pure (Or.inr ⟨value, rfl, h.2 value rfl⟩)
    | infinite => exact idles_pure (Or.inl rfl)
    | nan => exact absurd rfl h.1

theorem idles_onFailure (hcfg : cfg.Positive) (hjitter : ∀ n, 0 ≤ env.rng n) {exception : Exc}
    (hreads : IsRetried env exception → Comparable (env.classifyOutcome exception).retryAfter)
    (attempts : ℕ) (total : ℚ) :
    Idles (onFailure cfg env attempts (.finite total) exception) (RetryIn cfg attempts total) := by
  unfold onFailure
  dsimp only
  split
  · exact idles_raise (lasts_raised exception)
  · rename_i hexception
    split
    · apply idles_raise
      intro h
      cases h
    · rename_i hquota
      split
      · exact idles_raise (lasts_raised exception)
      · rename_i hbackpressure
        have hretried : IsRetried env exception :=
          ⟨Bool.of_not_eq_false hexception, hquota, not_not.mp hbackpressure⟩
        apply (idles_reportBackpressure env).bind
        · intro _ _
          apply (idles_retryDelay cfg env hcfg hjitter (attempts + 1) (hreads hretried)).bind
          · intro delay hdelay
            apply idles_ite_of
            · exact fun _ => idles_raise (lasts_backpressureExceeded (attempts + 1) _)
            · intro hbounds
              rw [not_or] at hbounds
              apply idles_pure
              rcases hdelay with rfl | ⟨d, rfl, hd⟩
              · exact absurd rfl hbounds.2
              · refine ⟨d, rfl, hd, ?_, by omega⟩
                have hexceeds : (Seconds.finite total + .finite d).exceeds
                    cfg.maxBackpressureWaitSeconds = decide (total + d > cfg.maxBackpressureWaitSeconds) :=
                  rfl
                rw [hexceeds, decide_eq_true_eq] at hbounds
                exact not_lt.mp hbounds.2
          · exact fun e he => he
        · exact fun e he => he.error

/-- How an attempt ends, `attempts` requests having been sent before it. -/
def AttemptEnds (attempts : ℕ) (total : ℚ) :
    Except (SchedulerError Exc) (Seconds ⊕ α) → SchedulerWorld Exc → Prop
  | .ok (.inl delay), w =>
    RetryIn cfg attempts total (.ok delay : Except (SchedulerError Exc) Seconds) ∧
      Spent (attempts + 1) total w
  | .ok (.inr _), w => Spent (attempts + 1) total w
  | .error e, w => Lasts (.error e : Except (SchedulerError Exc) α) ∧ Spent (attempts + 1) total w

theorem sendRequest_spent (lease : Option ℕ) (hspent : Spent attempts total w) :
    (sendRequest env lease).Ensures w fun r w' =>
      (∃ n, r = .ok (env.call n)) ∧ Spent (attempts + 1) total w' := by
  refine ⟨⟨w.asked, rfl⟩, ?_, hspent.2⟩
  show (w.ledger.requests ++ [_]).length ≤ attempts + 1
  rw [List.length_append]
  exact Nat.add_le_add_right hspent.1 1

theorem attemptRequest_ends (hcfg : cfg.Positive) (hjitter : ∀ n, 0 ≤ env.rng n)
    (hreads : ∀ n exception, env.call n = .error exception → IsRetried env exception →
      Comparable (env.classifyOutcome exception).retryAfter)
    (lease : Option ℕ) (hspent : Spent attempts total w) :
    (attemptRequest cfg env attempts (.finite total) lease).Ensures w
      (AttemptEnds cfg attempts total) := by
  apply (sendRequest_spent env lease hspent).bind
  · intro reply w₁ hsent
    obtain ⟨⟨n, hreply⟩, hspent₁⟩ := hsent
    cases hreply
    cases hcall : env.call n with
    | ok value =>
      apply (idles_finishAttempt env lease true).ensures_bind hspent₁
      · exact fun _ w₂ _ hspent₂ => hspent₂
      · exact fun e w₂ hlasts hspent₂ => ⟨hlasts.error, hspent₂⟩
    | error exception =>
      have hfailure := idles_onFailure cfg env hcfg hjitter (hreads n exception hcall) attempts total
      apply (hfailure w₁).attempt_bind
      intro delay w₂ hidle
      apply (idles_finishAttempt env lease _).ensures_bind (hidle.1.spent hspent₁)
      · intro _ w₃ _ hspent₃
        cases delay with
        | error e => exact ⟨Lasts.error hidle.2, hspent₃⟩
        | ok delay => exact ⟨hidle.2, hspent₃⟩
      · exact fun e w₃ hlasts hspent₃ => ⟨hlasts.error, hspent₃⟩
  · intro e w₁ hsent
    obtain ⟨⟨n, hreply⟩, _⟩ := hsent
    cases hreply

/-! ## 5. The whole call -/

/-- The requests sent and the seconds waited before a turn of the loop of `execute`. -/
def Retrying (state : ℕ × Seconds) (w : SchedulerWorld Exc) : Prop :=
  state.1 ≤ cfg.maxRateLimitRetries ∧ ∃ total, state.2 = .finite total ∧ 0 ≤ total ∧
    total ≤ cfg.maxBackpressureWaitSeconds ∧ Spent state.1 total w

/-- The requests and the seconds spent stay within the two bounds. -/
def Bounded (w : SchedulerWorld Exc) : Prop :=
  Spent (cfg.maxRateLimitRetries + 1) cfg.maxBackpressureWaitSeconds w

/-- A wait lacks rounds only if the bound has more milliseconds. -/
def EndsUnless (rounds : ℕ) (e : SchedulerError Exc) : Prop :=
  e = .exhausted → (rounds : ℚ) ≤ 1000 * cfg.maxBackpressureWaitSeconds

/-- How a turn of the loop ends. -/
def TurnEnds (rounds attempts : ℕ) :
    Except (SchedulerError Exc) ((ℕ × Seconds) ⊕ α) → SchedulerWorld Exc → Prop
  | .ok (.inl state), w => state.1 = attempts + 1 ∧ Retrying cfg state w
  | .ok (.inr _), w => Bounded cfg w
  | .error e, w => EndsUnless cfg rounds e ∧ Bounded cfg w

theorem executeRound_ends (hcfg : cfg.Positive) (hjitter : ∀ n, 0 ≤ env.rng n)
    (hreads : ∀ n exception, env.call n = .error exception → IsRetried env exception →
      Comparable (env.classifyOutcome exception).retryAfter)
    (estimatedTokens : ℕ) {state : ℕ × Seconds} (h : Retrying cfg state w) :
    (executeRound cfg env estimatedTokens state).Ensures w (TurnEnds cfg env.rounds state.1) := by
  obtain ⟨attempts, waited⟩ := state
  obtain ⟨hattempts, total, rfl, htotal, hwithin, hspent⟩ := h
  dsimp only at hattempts hspent ⊢
  have hidle : ∀ {β : Type} (e : SchedulerError Exc) (w' : SchedulerWorld Exc) (sent : ℕ) (seconds : ℚ),
      sent ≤ cfg.maxRateLimitRetries + 1 → seconds ≤ cfg.maxBackpressureWaitSeconds →
        Lasts (.error e : Except (SchedulerError Exc) β) → Spent sent seconds w' →
          EndsUnless cfg env.rounds e ∧ Bounded cfg w' :=
    fun e w' sent seconds hsent hseconds hlasts hspent =>
      ⟨fun he => absurd (congrArg Except.error he) hlasts, hspent.mono hsent hseconds⟩
  have hwaits : ∀ {γ : Type} {seconds : γ → Seconds} {t : ℚ} (e : SchedulerError Exc)
      (w' : SchedulerWorld Exc),
      WaitEnds cfg.maxBackpressureWaitSeconds attempts env.rounds t seconds (.error e) w' →
        EndsUnless cfg env.rounds e ∧ Bounded cfg w' :=
    fun e w' hends => ⟨hends.1, hends.2.mono (by omega) le_rfl⟩
  apply (admitLocally_ends cfg env estimatedTokens htotal hwithin hspent).bind
  · intro admitted w₁ hadmitted
    obtain ⟨a, hstands⟩ := hadmitted
    have hreads₁ : admitted = .finite a := hstands.reads
    subst hreads₁
    have hnonneg := hstands.nonneg
    apply (idles_checkCancelled env).ensures_bind hstands.spent
    · intro _ w₂ _ hspent₂
      apply (acquireSlot_ends cfg env (by linarith : 0 ≤ total + a) hstands.within hspent₂).bind
      · intro slotted w₃ hslotted
        obtain ⟨b, hslot⟩ := hslotted
        have hreads₂ : slotted = .finite b := hslot.reads
        subst hreads₂
        have hnonneg₂ := hslot.nonneg
        apply (preparePermit_ends cfg env (by linarith : 0 ≤ total + a + b) hslot.within hslot.spent).bind
        · intro permit w₄ hpermit
          obtain ⟨c, hheld⟩ := hpermit
          have hreads₃ : permit.2 = .finite c := hheld.reads
          have hnonneg₃ := hheld.nonneg
          dsimp only
          rw [hreads₃]
          apply (attemptRequest_ends cfg env hcfg hjitter hreads permit.1 hheld.spent).bind
          · intro outcome w₅ houtcome
            cases outcome with
            | inr value => exact houtcome.mono (by omega) hheld.within
            | inl delay =>
              obtain ⟨⟨d, rfl, hd, hbound, hretries⟩, hspent₅⟩ := houtcome
              apply (idles_notify env).ensures_bind hspent₅
              · intro _ w₆ _ hspent₆
                apply (wait_spent hd hspent₆).bind
                · intro _ w₇ hwaited
                  exact ⟨rfl, hretries, _, rfl, by linarith, hbound, hwaited.2⟩
                · exact fun e w₇ hwaited => hidle e w₇ _ _ (by omega) hbound hwaited.1 hwaited.2
              · exact fun e w₆ hlasts hspent₆ => hidle e w₆ _ _ (by omega) hheld.within hlasts hspent₆
          · exact fun e w₅ hends => hidle e w₅ _ _ (by omega) hheld.within hends.1 hends.2
        · exact hwaits
      · exact hwaits
    · exact fun e w₂ hlasts hspent₂ => hidle e w₂ _ _ (by omega) hstands.within hlasts hspent₂
  · exact hwaits

theorem execute_ends (hcfg : cfg.Positive) (hjitter : ∀ n, 0 ≤ env.rng n)
    (hreads : ∀ n exception, env.call n = .error exception → IsRetried env exception →
      Comparable (env.classifyOutcome exception).retryAfter) (estimatedTokens : ℕ) :
    (execute cfg env estimatedTokens).Ensures (.initial Exc) fun r w =>
      (r = .error .exhausted → (env.rounds : ℚ) ≤ 1000 * cfg.maxBackpressureWaitSeconds) ∧
        Bounded cfg w := by
  apply Action.Ensures.loop (I := fun fuel state w =>
    Retrying cfg state w ∧ state.1 + fuel = cfg.maxRateLimitRetries + 2)
  · intro state w hinv
    obtain ⟨hretrying, hfuel⟩ := hinv
    have hattempts := hretrying.1
    omega
  · intro fuel state w hinv
    obtain ⟨hretrying, hfuel⟩ := hinv
    apply (executeRound_ends cfg env hcfg hjitter hreads estimatedTokens hretrying).mono
    intro r w' hends
    cases r with
    | error e => exact ⟨fun he => hends.1 (Except.error.inj he), hends.2⟩
    | ok next =>
      cases next with
      | inr value => exact ⟨fun he => (by cases he), hends⟩
      | inl state' =>
        refine ⟨hends.2, ?_⟩
        have hnext := hends.1
        omega
  · refine ⟨⟨Nat.zero_le _, 0, rfl, le_rfl, hcfg.bound, ?_, ?_⟩, by omega⟩
    · exact Nat.zero_le 0
    · exact le_rfl

end Retries

/-- A `Retry-After` is read as no time in the past. -/
theorem retryAfterSeconds_nonneg {readFloat : List Char → Option ReadFloat} {exc : RaisedException}
    {value : ℚ} (h : retryAfterSeconds readFloat exc = some (.finite value)) : 0 ≤ value := by
  unfold retryAfterSeconds at h
  split at h
  · cases h
  · cases h
  · split at h
    · cases h
    · rename_i hnonneg
      cases h
      exact not_lt.mp hnonneg
  · cases h
  · cases h

/-- Whatever fails and whatever is refused, `execute` sends at most one request more than it may retry
    and waits no longer than its bound, as long as no failure it retries brought a `Retry-After` that
    reads `nan`. -/
theorem execute_bounded {α : Type} (readFloat : List Char → Option ReadFloat)
    (cfg : ProviderLimitsConfig) (env : SchedulerSurroundings Raised α) (estimatedTokens : ℕ)
    (hcfg : cfg.Positive) (hjitter : ∀ n, 0 ≤ env.rng n)
    (hclassify : ∀ n exc, env.call n = .error exc →
      env.classifyOutcome exc = classifyOutcome readFloat (some exc))
    (hheader : ∀ n exc, env.call n = .error exc → IsRetried env exc →
      retryAfterSeconds readFloat exc.exception ≠ some .nan) :
    let w := (execute cfg env estimatedTokens).after (.initial Raised)
    w.ledger.requests.length ≤ cfg.maxRateLimitRetries + 1 ∧
      w.slept ≤ cfg.maxBackpressureWaitSeconds ∧
      (1000 * cfg.maxBackpressureWaitSeconds < env.rounds →
        (execute cfg env estimatedTokens).result (.initial Raised) ≠ .error .exhausted) := by
  have hreads : ∀ n exc, env.call n = .error exc → IsRetried env exc →
      Comparable (env.classifyOutcome exc).retryAfter := by
    intro n exc hcall hretried
    rw [hclassify n exc hcall]
    exact ⟨hheader n exc hcall hretried, fun value => retryAfterSeconds_nonneg⟩
  have hends := execute_ends cfg env hcfg hjitter hreads estimatedTokens
  refine ⟨hends.2.1, hends.2.2, ?_⟩
  intro hrounds hexhausted
  exact absurd (hends.1 hexhausted) (not_le.mpr hrounds)

/-! ### A refusal whose `Retry-After` is not a number -/

/-- A 429 with a `Retry-After`. -/
def rateLimited (header : String) : RaisedException :=
  ⟨"RateLimitError", false, none, some ⟨some 429, some header.toList⟩, none, [], none, none⟩

/-- `float`, of the headers sent here. -/
def readHeader (text : List Char) : Option ReadFloat :=
  if text = "nan".toList then some .nan else if text = "2".toList then some (.finite 2) else none

def rateLimitVerdict (retryAfter : Option Seconds) : ProviderVerdict :=
  ⟨.rateLimit, some rateLimitReached, true, "", retryAfter⟩

theorem classifyOutcome_rateLimited {header : String} :
    classifyOutcome readHeader (some (.alone (rateLimited header))) =
      rateLimitVerdict (retryAfterSeconds readHeader (rateLimited header)) := by
  have hchain : causeChain (.alone (rateLimited header)) = [rateLimited header] := causeChain_alone rfl
  have hfired : firedATotalDeadline (.alone (rateLimited header)) = false := by
    unfold firedATotalDeadline
    rw [hchain]
    rfl
  have houtcome : outcomeOf (.alone (rateLimited header)) = (.rateLimit, some rateLimitReached) := by
    unfold outcomeOf
    rw [hfired]
    rfl
  have hproven : completionIsProven (some (.alone (rateLimited header))) = (true, "") := by
    unfold completionIsProven
    simp only [hfired]
    rfl
  show verdictOf readHeader (.alone (rateLimited header)) _ _ = _
  unfold verdictOf
  rw [houtcome, hproven]
  rfl

/-- Every request is refused; the first refusal says `nan`, the others two seconds. -/
def refusing (first : String) : SchedulerSurroundings Raised Unit where
  coordinated := false
  cancelled _ := false
  clock _ := 0
  slotFree _ := true
  acquire _ := .granted
  admission _ := .admitted
  removal _ := .done
  diagnostic _ := none
  probeStart _ := none
  signal _ := none
  callback _ := none
  call n := .error (.alone (rateLimited (if n < 5 then first else "2")))
  rng _ := 0
  classifyOutcome exc := rateLimitVerdict (retryAfterSeconds readHeader exc.exception)
  isException _ := true
  rounds := 6000

theorem refusing_classify (first : String) :
    ∀ n exc, (refusing first).call n = .error exc →
      (refusing first).classifyOutcome exc = classifyOutcome readHeader (some exc) := by
  intro n exc hcall
  cases hcall
  exact classifyOutcome_rateLimited.symm

/-- One second of waiting and two retries. -/
def oneSecond : ProviderLimitsConfig := ⟨1, none, none, 2, 1, 1, 1⟩

/-- Two headers of two seconds fit into five. -/
def fiveSeconds : ProviderLimitsConfig := { oneSecond with maxBackpressureWaitSeconds := 5 }

theorem oneSecond_positive : oneSecond.Positive :=
  ⟨by norm_num [oneSecond], by norm_num [oneSecond], by norm_num [oneSecond]⟩

theorem fiveSeconds_positive : fiveSeconds.Positive :=
  ⟨by norm_num [fiveSeconds], oneSecond_positive.base, oneSecond_positive.longest⟩

theorem execute_bounded_twoSeconds :
    let w := (execute fiveSeconds (refusing "2") 0).after (.initial Raised)
    (w.ledger.requests.length ≤ fiveSeconds.maxRateLimitRetries + 1 ∧
      w.slept ≤ fiveSeconds.maxBackpressureWaitSeconds ∧
      (execute fiveSeconds (refusing "2") 0).result (.initial Raised) ≠ .error .exhausted) ∧
      w.ledger.requests.length = 3 ∧ w.slept = 4 := by
  have hbounded := execute_bounded readHeader fiveSeconds (refusing "2") 0 fiveSeconds_positive
    (fun _ => le_rfl) (refusing_classify "2") (fun n exc hcall _ => by
      cases hcall
      show retryAfterSeconds readHeader (rateLimited (if n < 5 then "2" else "2")) ≠ some .nan
      rw [ite_self]
      decide)
  have hrounds : 1000 * fiveSeconds.maxBackpressureWaitSeconds < (refusing "2").rounds := by
    norm_num [fiveSeconds, refusing]
  exact ⟨⟨hbounded.1, hbounded.2.1, hbounded.2.2 hrounds⟩, by decide +kernel, by decide +kernel⟩

/-- After a `nan` no bound refuses the two seconds the next refusal asks for. -/
theorem refusing_nan_unbounded :
    ¬∀ (readFloat : List Char → Option ReadFloat) (cfg : ProviderLimitsConfig)
        (env : SchedulerSurroundings Raised Unit) (estimatedTokens : ℕ),
      cfg.Positive → (∀ n, 0 ≤ env.rng n) →
        (∀ n exc, env.call n = .error exc →
          env.classifyOutcome exc = classifyOutcome readFloat (some exc)) →
          ((execute cfg env estimatedTokens).after (.initial Raised)).slept ≤
            cfg.maxBackpressureWaitSeconds := by
  intro h
  have hslept := h readHeader oneSecond (refusing "nan") 0 oneSecond_positive (fun _ => le_rfl)
    (refusing_classify "nan")
  exact absurd hslept (by decide +kernel)

end Milo.Scheduler
