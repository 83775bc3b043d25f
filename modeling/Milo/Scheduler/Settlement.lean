import Milo.Scheduler.ProviderScheduler

/-!
# Settlement — every exit of `execute` gives back what it took

The ledger of a call is disciplined when each slot it took came back once, each lease was settled
once and left the store exactly if nothing unproven was sent under it, and each request went out
under a lease of its own with RPM and TPM admitted.  The parts of `execute` are followed one by
one; on every exit the ledger is either disciplined, or the coordinator gave one of the answers the
source does not absorb.
-/

namespace Milo.Scheduler

open Milo.Reasoning

variable {Exc α : Type}

/-! ## 1. Parts that leave the ledger alone -/

def SameLedger (w w' : SchedulerWorld Exc) : Prop := w'.ledger = w.ledger

theorem SameLedger.refl (w : SchedulerWorld Exc) : SameLedger w w := rfl

theorem SameLedger.trans (w w' w'' : SchedulerWorld Exc) (h : SameLedger w w')
    (h' : SameLedger w' w'') : SameLedger w w'' := Eq.trans h' h

/-- The computation ends with the ledger it started with. -/
abbrev LeavesLedger {β : Type} (c : Scheduling Exc β) : Prop := Action.Relates SameLedger c

section LeavesLedger

variable (cfg : ProviderLimitsConfig) (env : SchedulerSurroundings Exc α)

theorem leavesLedger_pure {β : Type} (b : β) : LeavesLedger (pure b : Scheduling Exc β) :=
  Action.relates_pure SameLedger.refl b

theorem leavesLedger_raise {β : Type} (e : SchedulerError Exc) :
    LeavesLedger (Action.raise e : Scheduling Exc β) := Action.relates_raise SameLedger.refl e

theorem LeavesLedger.bind {β γ : Type} {c : Scheduling Exc β} {f : β → Scheduling Exc γ}
    (hc : LeavesLedger c) (hf : ∀ b, LeavesLedger (f b)) : LeavesLedger (c >>= f) :=
  Action.relates_bind SameLedger.trans hc hf

theorem leavesLedger_ask {β : Type} (answer : ℕ → β) :
    LeavesLedger (ask answer : Scheduling Exc β) := fun _ => rfl

theorem leavesLedger_raiseIfAny (raised : Option Exc) : LeavesLedger (raiseIfAny raised) := by
  cases raised with
  | none => exact leavesLedger_pure ()
  | some exception => exact leavesLedger_raise _

theorem leavesLedger_checkCancelled : LeavesLedger (checkCancelled env) := by
  apply (leavesLedger_ask env.cancelled).bind
  intro cancelled
  exact Action.relates_ite (leavesLedger_raise _) (leavesLedger_pure ())

theorem leavesLedger_sleep (seconds : ℚ) : LeavesLedger (sleep seconds : Scheduling Exc Unit) :=
  fun _ => rfl

theorem leavesLedger_waitChunks (chunks : ℕ) :
    ∀ remaining, LeavesLedger (waitChunks env chunks remaining) := by
  induction chunks with
  | zero => exact fun _ => leavesLedger_checkCancelled env
  | succ chunks ih =>
    intro remaining
    apply (leavesLedger_checkCancelled env).bind
    exact fun _ => (leavesLedger_sleep (min remaining 1)).bind fun _ => ih _

theorem leavesLedger_wait (seconds : Seconds) : LeavesLedger (wait env seconds) := by
  cases seconds with
  | finite seconds => exact leavesLedger_waitChunks env _ _
  | infinite => exact (leavesLedger_waitChunks env _ _).bind fun _ => leavesLedger_raise _
  | nan => exact leavesLedger_checkCancelled env

theorem leavesLedger_notify : LeavesLedger (notify env) :=
  (leavesLedger_ask env.callback).bind leavesLedger_raiseIfAny

theorem leavesLedger_notifyOnce (notified : Bool) : LeavesLedger (notifyOnce env notified) :=
  Action.relates_ite (leavesLedger_pure ()) (leavesLedger_notify env)

theorem leavesLedger_tryAdmit (estimatedTokens : ℕ) :
    LeavesLedger (tryAdmit cfg env estimatedTokens) := by
  apply (leavesLedger_ask env.clock).bind
  intro now
  apply LeavesLedger.bind
  · exact fun _ => rfl
  · intro _
    apply LeavesLedger.bind (Action.relates_get SameLedger.refl)
    intro w
    apply Action.relates_ite
    · exact leavesLedger_pure _
    · apply LeavesLedger.bind
      · exact fun _ => rfl
      · exact fun _ => leavesLedger_pure _

theorem leavesLedger_admitLocally (estimatedTokens : ℕ) (waitedTotal : Seconds) :
    LeavesLedger (admitLocally cfg env estimatedTokens waitedTotal) := by
  apply Action.relates_ite
  · exact leavesLedger_raise _
  · apply Action.relates_loop SameLedger.refl SameLedger.trans
    intro waited
    apply (leavesLedger_checkCancelled env).bind
    intro _
    apply (leavesLedger_tryAdmit cfg env estimatedTokens).bind
    intro delay
    apply Action.relates_ite (leavesLedger_pure _)
    apply Action.relates_ite (leavesLedger_raise _)
    apply (leavesLedger_notify env).bind
    intro _
    exact (leavesLedger_wait env delay).bind fun _ => leavesLedger_pure _

theorem leavesLedger_startOwnershipProbe (lease : Option ℕ) :
    LeavesLedger (startOwnershipProbe env lease) := by
  cases lease with
  | none => exact leavesLedger_pure ()
  | some id => exact (leavesLedger_ask env.probeStart).bind leavesLedger_raiseIfAny

theorem leavesLedger_onFailure (attempts : ℕ) (waitedTotal : Seconds) (exception : Exc) :
    LeavesLedger (onFailure cfg env attempts waitedTotal exception) := by
  apply Action.relates_ite (leavesLedger_raise _)
  apply Action.relates_ite (leavesLedger_raise _)
  apply Action.relates_ite (leavesLedger_raise _)
  apply LeavesLedger.bind
  · apply Action.relates_ite
    · exact (leavesLedger_ask env.signal).bind leavesLedger_raiseIfAny
    · exact leavesLedger_pure ()
  · intro _
    apply LeavesLedger.bind
    · cases (env.classifyOutcome exception).retryAfter with
      | some seconds => exact leavesLedger_pure _
      | none => exact (leavesLedger_ask env.rng).bind fun _ => leavesLedger_pure _
    · intro delay
      exact Action.relates_ite (leavesLedger_raise _) (leavesLedger_pure _)

end LeavesLedger

/-! ## 2. The discipline -/

/-- Nothing unproven was sent under the lease. -/
def Ledger.AllProven (l : Ledger Exc) (id : ℕ) : Prop :=
  ∀ q ∈ l.requests, q.lease = some id → q.completionProven = true

/-- Settled once, and out of the store exactly if nothing unproven was sent under it. -/
def Ledger.LeaseSettled (l : Ledger Exc) (id : ℕ) (lease : LeaseRecord) : Prop :=
  lease.settlements = 1 ∧ (lease.recorded = false ↔ l.AllProven id)

/-- Each request went out under its own lease, with RPM and TPM admitted under it. -/
def Ledger.IssuedUnderLeases (l : Ledger Exc) : Prop :=
  (∀ q ∈ l.requests, ∃ id lease, q.lease = some id ∧ l.leases.get? id = some lease ∧
    lease.admitted = true) ∧ (l.requests.map SentRequest.lease).Nodup

/-- `n` slots, each released before the next was taken. -/
def balanced (n : ℕ) : List SlotEvent := (List.replicate n [.acquired, .released]).flatten

def Ledger.SlotFree (l : Ledger Exc) : Prop := ∃ n, l.slotEvents = balanced n

def Ledger.SlotHeld (l : Ledger Exc) : Prop := ∃ n, l.slotEvents = balanced n ++ [.acquired]

structure Disciplined (coordinated : Bool) (l : Ledger Exc) : Prop where
  slots : l.SlotFree
  settled : ∀ id lease, l.leases.get? id = some lease → l.LeaseSettled id lease
  issued : coordinated = true → l.IssuedUnderLeases

/-- An answer `execute` absorbs: a removal is carried out, none raises where a probe failed to
    start, and only an `Exception` comes out of an admission. -/
def CoordinatorReply.Orderly (isException : Exc → Bool) : CoordinatorReply Exc → Prop
  | .admission (.raised exception) => isException exception = true
  | .admission _ => True
  | .removal _ .done => True
  | .removal stage (.raised removed _) => removed = true ∧ stage ≠ .failedProbe

def AllOrderly (env : SchedulerSurroundings Exc α) (l : Ledger Exc) : Prop :=
  ∀ reply ∈ l.replies, reply.Orderly env.isException

theorem length_balanced (n : ℕ) : (balanced n).length = 2 * n := by
  unfold balanced
  induction n with
  | zero => rfl
  | succ n ih =>
    rw [List.replicate_succ, List.flatten_cons, List.length_append, ih]
    show 2 + 2 * n = _
    omega

theorem balanced_succ (n : ℕ) : balanced (n + 1) = balanced n ++ [.acquired, .released] := by
  unfold balanced
  rw [List.replicate_succ', List.flatten_append, List.flatten_singleton]

theorem Ledger.SlotHeld.not_free {l : Ledger Exc} (h : l.SlotHeld) : ¬ l.SlotFree := by
  intro hfree
  rcases h with ⟨n, hheld⟩
  rcases hfree with ⟨m, hbalanced⟩
  have hlength := congrArg List.length (hheld.symm.trans hbalanced)
  rw [List.length_append, length_balanced, length_balanced, List.length_singleton] at hlength
  omega

/-! ## 3. The ledger between two parts -/

/-- Every lease but `except` is settled, and every request was issued as it should be. -/
structure LeasesKept (coordinated : Bool) (except : Option ℕ) (l : Ledger Exc) : Prop where
  settled : ∀ id lease, l.leases.get? id = some lease → except ≠ some id → l.LeaseSettled id lease
  issued : coordinated = true → l.IssuedUnderLeases
  fresh : ∀ id ∈ l.leases.keys, id < l.leases.keys.length
  known : ∀ q ∈ l.requests, ∀ id, q.lease = some id → id ∈ l.leases.keys

/-- The lease is open and nothing was sent under it. -/
structure OpenLease (id : ℕ) (lease : LeaseRecord) (l : Ledger Exc) : Prop where
  get : l.leases.get? id = some lease
  outcome : lease.outcome = none
  settlements : lease.settlements = 0
  recorded : lease.recorded = true

def Unsent (id : ℕ) (l : Ledger Exc) : Prop := ∀ q ∈ l.requests, q.lease ≠ some id

/-- The coordinator gave an answer that is not absorbed, and a lease was left behind. -/
structure Broken (env : SchedulerSurroundings Exc α) (l : Ledger Exc) : Prop where
  stray : ∃ id lease, l.leases.get? id = some lease ∧ ¬ l.LeaseSettled id lease
  disorder : ¬ AllOrderly env l

/-- `execute` holds nothing. -/
structure Idle (env : SchedulerSurroundings Exc α) (l : Ledger Exc) : Prop where
  leases : LeasesKept env.coordinated none l
  orderly : AllOrderly env l
  slot : l.SlotFree

theorem Unsent.allProven {id : ℕ} {l : Ledger Exc} (h : Unsent id l) : l.AllProven id :=
  fun q hq hlease => absurd hlease (h q hq)

/-- What `execute` owes on every exit. -/
def Accounted (env : SchedulerSurroundings Exc α) (l : Ledger Exc) : Prop :=
  Disciplined env.coordinated l ↔ AllOrderly env l

section Exits

variable {env : SchedulerSurroundings Exc α} {l : Ledger Exc}

theorem LeasesKept.disciplined (h : LeasesKept env.coordinated none l) (hslot : l.SlotFree) :
    Disciplined env.coordinated l :=
  ⟨hslot, fun id lease hget => h.settled id lease hget (by simp), h.issued⟩

theorem Idle.accounted (h : Idle env l) : Accounted env l :=
  ⟨fun _ => h.orderly, fun _ => h.leases.disciplined h.slot⟩

theorem Broken.accounted (h : Broken env l) : Accounted env l := by
  rcases h.stray with ⟨id, lease, hget, hnot⟩
  exact ⟨fun hd => absurd (hd.settled id lease hget) hnot, fun ho => absurd ho h.disorder⟩

theorem Ledger.SlotHeld.accounted (h : l.SlotHeld) (hdisorder : ¬ AllOrderly env l) :
    Accounted env l :=
  ⟨fun hd => absurd hd.slots h.not_free, fun ho => absurd ho hdisorder⟩

end Exits

/-- `l'` differs from `l` in what it says of one lease, and in the replies noted. -/
structure Rewrites (l l' : Ledger Exc) (id : ℕ) (lease : LeaseRecord) : Prop where
  own : l'.leases.get? id = some lease
  others : ∀ other, other ≠ id → l'.leases.get? other = l.leases.get? other
  keys : l'.leases.keys = l.leases.keys
  requests : l'.requests = l.requests
  slots : l'.slotEvents = l.slotEvents

section Rewrites

variable {l l' l'' : Ledger Exc} {id : ℕ} {lease lease' : LeaseRecord}

theorem rewrites_updateLease (h : l.leases.get? id = some lease)
    (f : LeaseRecord → LeaseRecord) : Rewrites l (updateLease id f l) id (f lease) := by
  unfold updateLease
  rw [h]
  refine ⟨Dict.get?_set_self _ _ _, ?_, ?_, rfl, rfl⟩
  · exact fun other hne => Dict.get?_set_ne _ _ hne
  · exact Dict.keys_set_of_mem (Dict.mem_keys_iff.mpr ⟨lease, h⟩)

theorem updateLease_replies (f : LeaseRecord → LeaseRecord) :
    (updateLease id f l).replies = l.replies := by
  unfold updateLease
  cases l.leases.get? id <;> rfl

theorem rewrites_noteReply (h : l.leases.get? id = some lease) (reply : CoordinatorReply Exc) :
    Rewrites l (noteReply reply l) id lease :=
  ⟨h, fun _ _ => rfl, rfl, rfl, rfl⟩

theorem Rewrites.trans (h : Rewrites l l' id lease) (h' : Rewrites l' l'' id lease') :
    Rewrites l l'' id lease' where
  own := h'.own
  others := fun other hne => (h'.others other hne).trans (h.others other hne)
  keys := h'.keys.trans h.keys
  requests := h'.requests.trans h.requests
  slots := h'.slots.trans h.slots

theorem Rewrites.leaseSettled (h : Rewrites l l' id lease) (other : ℕ) (record : LeaseRecord) :
    l'.LeaseSettled other record ↔ l.LeaseSettled other record := by
  unfold Ledger.LeaseSettled Ledger.AllProven
  rw [h.requests]

theorem LeasesKept.rewrite {coordinated : Bool} {except : Option ℕ}
    (h : LeasesKept coordinated (some id) l) (hrewrites : Rewrites l l' id lease')
    (hget : l.leases.get? id = some lease)
    (hadmitted : lease.admitted = true → lease'.admitted = true)
    (hsettled : except ≠ some id → l.LeaseSettled id lease') :
    LeasesKept coordinated except l' := by
  refine ⟨?_, ?_, ?_, ?_⟩
  · intro other record hother hexcept
    rw [hrewrites.leaseSettled]
    by_cases heq : other = id
    · rw [heq, hrewrites.own] at hother
      cases hother
      rw [heq] at hexcept ⊢
      exact hsettled hexcept
    · rw [hrewrites.others other heq] at hother
      exact h.settled other record hother fun hsome => heq (Option.some.inj hsome).symm
  · intro hcoordinated
    have hissued := h.issued hcoordinated
    unfold Ledger.IssuedUnderLeases
    rw [hrewrites.requests]
    refine ⟨?_, hissued.2⟩
    intro q hq
    rcases hissued.1 q hq with ⟨other, record, hlease, hother, hadm⟩
    by_cases heq : other = id
    · rw [heq, hget] at hother
      cases hother
      exact ⟨other, lease', hlease, heq ▸ hrewrites.own, hadmitted hadm⟩
    · exact ⟨other, record, hlease, (hrewrites.others other heq).trans hother, hadm⟩
  · rw [hrewrites.keys]
    exact h.fresh
  · rw [hrewrites.keys, hrewrites.requests]
    exact h.known

end Rewrites

/-! ## 4. Giving a lease back -/

section Ensures

variable {β γ : Type} {w : SchedulerWorld Exc}

variable {Q : Except (SchedulerError Exc) γ → SchedulerWorld Exc → Prop}

theorem ensures_ask_bind {answer : ℕ → β} {k : β → Scheduling Exc γ}
    (h : (k (answer w.asked)).Ensures { w with asked := w.asked + 1 } Q) : (ask answer >>= k).Ensures w Q := h

theorem ensures_record_bind {f : Ledger Exc → Ledger Exc} {k : Unit → Scheduling Exc γ}
    (h : (k ()).Ensures { w with ledger := f w.ledger } Q) : (record f >>= k).Ensures w Q := h

theorem LeavesLedger.ensures {c : Scheduling Exc β} (h : LeavesLedger c) :
    c.Ensures w fun _ w' => w'.ledger = w.ledger := h w

theorem ensures_isOpen_bind {id : ℕ} {lease : LeaseRecord} {k : Bool → Scheduling Exc γ}
    (hopen : OpenLease id lease w.ledger) (h : (k true).Ensures w Q) : (isOpen id >>= k).Ensures w Q := by
  have hanswer : ((w.ledger.leases.get? id).any fun lease => lease.outcome.isNone) = true := by
    rw [hopen.get]
    simp [hopen.outcome]
  show (k _).Ensures w Q
  rw [hanswer]
  exact h

end Ensures

section Settle

variable (env : SchedulerSurroundings Exc α) {w : SchedulerWorld Exc} {id : ℕ} {lease : LeaseRecord}

/-- What a release ends with: the lease is settled, or it was left behind. -/
def Released (stage : ReleaseStage) (l : Ledger Exc) (r : Except (SchedulerError Exc) Unit)
    (l' : Ledger Exc) : Prop :=
  l'.slotEvents = l.slotEvents ∧
    match r with
    | .ok _ => LeasesKept env.coordinated none l' ∧ AllOrderly env l'
    | .error _ => (LeasesKept env.coordinated none l' ∧
        (AllOrderly env l' ↔ stage ≠ .failedProbe)) ∨ Broken env l'

/-- The ledger after a release has asked the store and heard `reply`. -/
def releasedLedger (stage : ReleaseStage) (reply : RemovalReply Exc) (id : ℕ) (l : Ledger Exc) :
    Ledger Exc :=
  updateLease id (LeaseRecord.removedIf reply.removed)
    (noteReply (.removal stage reply) (updateLease id (LeaseRecord.settleAs .released) l))

theorem rewrites_releasedLedger (stage : ReleaseStage) (reply : RemovalReply Exc) {l : Ledger Exc}
    (h : l.leases.get? id = some lease) : Rewrites l (releasedLedger stage reply id l) id
      ((lease.settleAs .released).removedIf reply.removed) := by
  have hsettle := rewrites_updateLease h (LeaseRecord.settleAs .released)
  have hnoted := hsettle.trans (rewrites_noteReply hsettle.own (.removal stage reply))
  exact hnoted.trans (rewrites_updateLease hnoted.own (LeaseRecord.removedIf reply.removed))

theorem releasedLedger_replies (stage : ReleaseStage) (reply : RemovalReply Exc) (id : ℕ)
    (l : Ledger Exc) :
    (releasedLedger stage reply id l).replies = l.replies ++ [.removal stage reply] := by
  unfold releasedLedger
  rw [updateLease_replies]
  show (updateLease id _ l).replies ++ _ = _
  rw [updateLease_replies]

theorem allOrderly_append {l l' : Ledger Exc} {reply : CoordinatorReply Exc}
    (h : AllOrderly env l) (hreplies : l'.replies = l.replies ++ [reply]) :
    AllOrderly env l' ↔ reply.Orderly env.isException := by
  unfold AllOrderly
  rw [hreplies]
  constructor
  · exact fun hall => hall reply (List.mem_append_right _ List.mem_cons_self)
  · intro hlast r hr
    rcases List.mem_append.mp hr with hold | hnew
    · exact h r hold
    · rw [List.mem_singleton.mp hnew]
      exact hlast

theorem releaseLease_ensures (stage : ReleaseStage)
    (hkept : LeasesKept env.coordinated (some id) w.ledger) (horderly : AllOrderly env w.ledger)
    (hopen : OpenLease id lease w.ledger) (hproven : w.ledger.AllProven id) :
    (releaseLease env stage id).Ensures w fun r w' => Released env stage w.ledger r w'.ledger := by
  unfold releaseLease
  apply ensures_isOpen_bind hopen
  apply ensures_record_bind
  apply ensures_ask_bind
  apply ensures_record_bind
  apply ensures_record_bind
  generalize env.removal _ = reply
  have hrewrites := rewrites_releasedLedger stage reply hopen.get
  have hreplies := allOrderly_append env horderly (releasedLedger_replies stage reply id w.ledger)
  have hsettlements : ((lease.settleAs .released).removedIf reply.removed).settlements = 1 := by
    show lease.settlements + 1 = 1
    rw [hopen.settlements]
  -- out of the store means settled, and still in it means left behind
  have hremoved : reply.removed = true →
      LeasesKept env.coordinated none (releasedLedger stage reply id w.ledger) := by
    intro hgone
    apply hkept.rewrite hrewrites hopen.get (fun h => h)
    intro _
    refine ⟨hsettlements, fun _ => hproven, fun _ => ?_⟩
    show (lease.recorded && !reply.removed) = false
    rw [hgone, Bool.not_true, Bool.and_false]
  cases reply with
  | done => exact ⟨hrewrites.slots, hremoved rfl, hreplies.mpr trivial⟩
  | raised removed exception =>
    refine ⟨hrewrites.slots, ?_⟩
    cases removed with
    | true =>
      refine Or.inl ⟨hremoved rfl, ?_⟩
      exact hreplies.trans ⟨fun h => h.2, fun h => ⟨rfl, h⟩⟩
    | false =>
      refine Or.inr ⟨⟨id, _, hrewrites.own, ?_⟩, fun hall => ?_⟩
      · intro hsettled
        have hstill := ((hrewrites.leaseSettled _ _).mp hsettled).2.mpr hproven
        change (lease.recorded && !false) = false at hstill
        rw [hopen.recorded] at hstill
        cases hstill
      · have hcontra := (hreplies.mp hall).1
        cases hcontra

/-- A quarantine holds the lease of a request whose completion is not proven. -/
theorem quarantineLease_ensures (hkept : LeasesKept env.coordinated (some id) w.ledger)
    (horderly : AllOrderly env w.ledger) (hopen : OpenLease id lease w.ledger)
    (hunproven : ¬ w.ledger.AllProven id) :
    (quarantineLease env id).Ensures w fun _ w' => w'.ledger.slotEvents = w.ledger.slotEvents ∧
      LeasesKept env.coordinated none w'.ledger ∧ AllOrderly env w'.ledger := by
  have hrewrites := rewrites_updateLease hopen.get (LeaseRecord.settleAs .quarantined)
  have hsettled : w.ledger.LeaseSettled id (lease.settleAs .quarantined) := by
    constructor
    · show lease.settlements + 1 = 1
      rw [hopen.settlements]
    · show lease.recorded = false ↔ _
      rw [hopen.recorded]
      exact ⟨fun h => absurd h (by decide), fun h => absurd h hunproven⟩
  have hkept' : LeasesKept env.coordinated none _ := hkept.rewrite hrewrites hopen.get (fun h => h) fun _ => hsettled
  have horderly' : AllOrderly env (updateLease id (LeaseRecord.settleAs .quarantined) w.ledger) := by
    unfold AllOrderly
    rw [updateLease_replies]
    exact horderly
  unfold quarantineLease
  apply ensures_isOpen_bind hopen
  apply ensures_record_bind
  apply ensures_ask_bind
  apply (leavesLedger_raiseIfAny _).ensures.mono
  intro _ w' hsame
  rw [hsame]
  exact ⟨hrewrites.slots, hkept', horderly'⟩

/-- The settlement of a lease after its request: balanced on return and on any exception. -/
theorem settleLease_ensures {proven : Bool}
    (hkept : LeasesKept env.coordinated (some id) w.ledger) (horderly : AllOrderly env w.ledger)
    (hopen : OpenLease id lease w.ledger) (hproven : w.ledger.AllProven id ↔ proven = true) :
    (settleLease env proven (some id)).Ensures w fun r w' =>
      w'.ledger.slotEvents = w.ledger.slotEvents ∧
        ((LeasesKept env.coordinated none w'.ledger ∧ AllOrderly env w'.ledger) ∨
          ((∃ e, r = .error e) ∧ Broken env w'.ledger)) := by
  cases proven with
  | true =>
    apply (releaseLease_ensures env .settlement hkept horderly hopen (hproven.mpr rfl)).mono
    intro r w' hreleased
    refine ⟨hreleased.1, ?_⟩
    cases r with
    | ok _ => exact Or.inl hreleased.2
    | error e =>
      rcases hreleased.2 with ⟨hleases, hiff⟩ | hbroken
      · exact Or.inl ⟨hleases, hiff.mpr (by decide)⟩
      · exact Or.inr ⟨⟨e, rfl⟩, hbroken⟩
  | false =>
    apply (quarantineLease_ensures env hkept horderly hopen ?_).mono
    · intro r w' hheld
      exact ⟨hheld.1, Or.inl hheld.2⟩
    · intro hall
      exact absurd (hproven.mp hall) (by decide)

end Settle

/-! ## 5. Acquiring a permit -/

/-- No lease is open and every answer was absorbed. -/
structure Ready (env : SchedulerSurroundings Exc α) (l : Ledger Exc) : Prop where
  kept : LeasesKept env.coordinated none l
  orderly : AllOrderly env l

/-- One lease is open, RPM and TPM were admitted under it, and nothing was sent yet. -/
structure Permit (env : SchedulerSurroundings Exc α) (id : ℕ) (l : Ledger Exc) : Prop where
  kept : LeasesKept env.coordinated (some id) l
  orderly : AllOrderly env l
  lease : ∃ lease, OpenLease id lease l ∧ lease.admitted = true
  unsent : Unsent id l

/-- What a request may go out with: a permit, or nothing where no coordinator is wired. -/
def Holds (env : SchedulerSurroundings Exc α) (l : Ledger Exc) : Option ℕ → Prop
  | none => env.coordinated = false ∧ Ready env l
  | some id => Permit env id l

section Acquire

variable (cfg : ProviderLimitsConfig) (env : SchedulerSurroundings Exc α) {w : SchedulerWorld Exc}

variable {l : Ledger Exc}

theorem leasesKept_open {coordinated : Bool} (h : LeasesKept coordinated none l) (record : LeaseRecord) :
    LeasesKept coordinated (some l.leases.keys.length)
      { l with leases := l.leases.set l.leases.keys.length record } ∧
      Unsent l.leases.keys.length l := by
  have hnew : l.leases.keys.length ∉ l.leases.keys := fun hmem => by
    have hlt := h.fresh _ hmem
    omega
  have hkeys := Dict.keys_set_of_notMem hnew (v := record)
  have hold : ∀ id ∈ l.leases.keys,
      (l.leases.set l.leases.keys.length record).get? id = l.leases.get? id := by
    intro id hid
    exact Dict.get?_set_ne _ _ fun heq => hnew (heq ▸ hid)
  refine ⟨⟨?_, ?_, ?_, ?_⟩, ?_⟩
  · intro id lease hget hne
    have hother : id ≠ l.leases.keys.length := fun heq => hne (congrArg some heq.symm)
    change (l.leases.set _ record).get? id = some lease at hget
    rw [Dict.get?_set_ne _ _ hother] at hget
    exact h.settled id lease hget (by simp)
  · intro hcoordinated
    have hissued := h.issued hcoordinated
    refine ⟨?_, hissued.2⟩
    intro q hq
    rcases hissued.1 q hq with ⟨id, lease, hlease, hget, hadmitted⟩
    exact ⟨id, lease, hlease, (hold id (Dict.mem_keys_iff.mpr ⟨lease, hget⟩)).trans hget, hadmitted⟩
  · intro id hid
    change id ∈ (l.leases.set _ record).keys at hid
    show id < (l.leases.set _ record).keys.length
    rw [hkeys] at hid ⊢
    rw [List.length_append, List.length_singleton]
    rcases List.mem_append.mp hid with hmem | hlast
    · have hlt := h.fresh id hmem
      omega
    · rw [List.mem_singleton.mp hlast]
      omega
  · intro q hq id hlease
    exact Dict.mem_keys_set.mpr (Or.inr (h.known q hq id hlease))
  · intro q hq hlease
    exact hnew (h.known q hq _ hlease)

/-- How a part that acquires may end. -/
def Acquires {β : Type} (l : Ledger Exc) (granted : β → Ledger Exc → Prop)
    (r : Except (SchedulerError Exc) β) (l' : Ledger Exc) : Prop :=
  l'.slotEvents = l.slotEvents ∧
    match r with
    | .ok b => granted b l'
    | .error _ => Ready env l' ∨ Broken env l'

/-- A round of the organization gate ends with a permit or goes on without one. -/
def GateRound (next : Seconds ⊕ (ℕ × Seconds)) (l : Ledger Exc) : Prop :=
  match next with
  | .inl _ => Ready env l
  | .inr permit => Permit env permit.1 l

theorem pace_ensures (h : Ready env w.ledger) (waitedTotal waited delay : Seconds) :
    (pace cfg env waitedTotal waited delay).Ensures w fun r w' =>
      Acquires env w.ledger (GateRound env) r w'.ledger := by
  unfold pace
  split
  · exact ⟨rfl, Or.inl h⟩
  · apply (leavesLedger_notify env).ensures.bind
    · intro _ w₁ hnotified
      apply (leavesLedger_wait env delay).ensures.bind
      · intro _ w₂ hwaited
        have hsame := hwaited.trans hnotified
        show w₂.ledger.slotEvents = _ ∧ Ready env w₂.ledger
        rw [hsame]
        exact ⟨rfl, h⟩
      · intro e w₂ hwaited
        have hsame := hwaited.trans hnotified
        show w₂.ledger.slotEvents = _ ∧ (Ready env w₂.ledger ∨ _)
        rw [hsame]
        exact ⟨rfl, Or.inl h⟩
    · intro e w₁ hnotified
      show w₁.ledger.slotEvents = _ ∧ (Ready env w₁.ledger ∨ _)
      rw [hnotified]
      exact ⟨rfl, Or.inl h⟩

/-- Giving a lease back before anything was sent leaves the gate ready for another round. -/
theorem releaseRefused_bind {β : Type} {granted : β → Ledger Exc → Prop} {id : ℕ}
    {lease : LeaseRecord} {k : Unit → Scheduling Exc β}
    (hkept : LeasesKept env.coordinated (some id) w.ledger) (horderly : AllOrderly env w.ledger)
    (hopen : OpenLease id lease w.ledger) (hunsent : Unsent id w.ledger)
    (hk : ∀ w₁ : SchedulerWorld Exc, Ready env w₁.ledger →
      (k ()).Ensures w₁ fun r w' => Acquires env w₁.ledger granted r w'.ledger) :
    (releaseLease env .refusedAdmission id >>= k).Ensures w fun r w' =>
      Acquires env w.ledger granted r w'.ledger := by
  apply (releaseLease_ensures env .refusedAdmission hkept horderly hopen hunsent.allProven).bind
  · intro _ w₁ hreleased
    apply (hk w₁ ⟨hreleased.2.1, hreleased.2.2⟩).mono
    exact fun r w₂ hpaced => ⟨hpaced.1.trans hreleased.1, hpaced.2⟩
  · intro e w₁ hreleased
    refine ⟨hreleased.1, ?_⟩
    rcases hreleased.2 with ⟨hleases, hiff⟩ | hbroken
    · exact Or.inl ⟨hleases, hiff.mpr (by decide)⟩
    · exact Or.inr hbroken

/-- What the windows' answer does to a lease under which nothing was sent. -/
theorem admitUnder_ensures {id : ℕ} (hkept : LeasesKept env.coordinated (some id) w.ledger)
    (horderly : AllOrderly env w.ledger) (hopen : OpenLease id ⟨none, 0, true, false⟩ w.ledger)
    (hunsent : Unsent id w.ledger) (waitedTotal waited : Seconds) :
    (admitUnder cfg env waitedTotal waited id).Ensures w fun r w' =>
      Acquires env w.ledger (GateRound env) r w'.ledger := by
  unfold admitUnder
  apply ensures_ask_bind
  apply ensures_record_bind
  generalize env.admission _ = reply
  have hnoted := rewrites_noteReply hopen.get (CoordinatorReply.admission reply)
  have horderly' : AllOrderly env (noteReply (.admission reply) w.ledger) ↔
      (CoordinatorReply.admission reply).Orderly env.isException :=
    allOrderly_append env horderly rfl
  -- noting the reply changes nothing the lease depends on
  have hkept' : LeasesKept env.coordinated (some id) (noteReply (.admission reply) w.ledger) :=
    hkept.rewrite hnoted hopen.get (fun h => h) fun hne => absurd rfl hne
  have hopen' : OpenLease id ⟨none, 0, true, false⟩ (noteReply (.admission reply) w.ledger) :=
    ⟨hnoted.own, rfl, rfl, rfl⟩
  have hunsent' : Unsent id (noteReply (.admission reply) w.ledger) := hunsent
  cases reply with
  | raised exception =>
    show (ite _ _ _ : Scheduling Exc _).Ensures _ _
    split
    · rename_i hexception
      apply releaseRefused_bind
      · exact hkept'
      · exact horderly'.mpr hexception
      · exact hopen'
      · exact hunsent'
      · exact fun w₁ hready => ⟨rfl, Or.inl hready⟩
    · -- the lease stays open and unsettled
      rename_i hexception
      refine ⟨rfl, Or.inr ⟨⟨id, _, hopen'.get, ?_⟩, ?_⟩⟩
      · exact fun hsettled => absurd hsettled.1 (by decide)
      · exact fun hall => hexception (horderly'.mp hall)
  | admitted =>
    have hwindow := rewrites_updateLease hopen'.get fun lease => { lease with admitted := true }
    have hpermit : Permit env id (updateLease id (fun lease => { lease with admitted := true })
        (noteReply (.admission .admitted) w.ledger)) := by
      refine ⟨?_, ?_, ⟨_, ⟨hwindow.own, rfl, rfl, rfl⟩, rfl⟩, ?_⟩
      · exact hkept'.rewrite hwindow hopen'.get (fun _ => rfl) fun hne => absurd rfl hne
      · unfold AllOrderly
        rw [updateLease_replies]
        exact horderly'.mpr trivial
      · unfold Unsent
        rw [hwindow.requests]
        exact hunsent'
    exact ⟨hwindow.slots, hpermit⟩
  | refused dimension retry =>
    apply releaseRefused_bind
    · exact hkept'
    · exact horderly'.mpr trivial
    · exact hopen'
    · exact hunsent'
    · exact fun w₁ hready => pace_ensures cfg env hready waitedTotal waited _

theorem globalRound_ensures (h : Ready env w.ledger) (waitedTotal waited : Seconds) :
    (globalRound cfg env waitedTotal waited).Ensures w fun r w' =>
      Acquires env w.ledger (GateRound env) r w'.ledger := by
  unfold globalRound
  apply (leavesLedger_checkCancelled env).ensures.bind
  · intro _ w₁ hchecked
    rw [← hchecked] at h ⊢
    apply ensures_ask_bind
    generalize env.acquire _ = reply
    cases reply with
    | raised exception => exact ⟨rfl, Or.inl h⟩
    | refused =>
      apply pace_ensures
      exact h
    | granted =>
      have hopened := leasesKept_open h.kept ⟨none, 0, true, false⟩
      apply admitUnder_ensures
      · exact hopened.1
      · exact h.orderly
      · exact ⟨Dict.get?_set_self _ _ _, rfl, rfl, rfl⟩
      · exact hopened.2
  · intro e w₁ hchecked
    show w₁.ledger.slotEvents = _ ∧ (Ready env w₁.ledger ∨ _)
    rw [hchecked]
    exact ⟨rfl, Or.inl h⟩

/-- The organization gate hands out a permit or raises, and holds nothing in between. -/
theorem acquireGlobal_ensures (h : Ready env w.ledger) (waitedTotal : Seconds) :
    (acquireGlobal cfg env waitedTotal).Ensures w fun r w' =>
      Acquires env w.ledger (fun permit => Permit env permit.1) r w'.ledger := by
  apply Action.Ensures.loop (I := fun _ _ w₁ =>
    w₁.ledger.slotEvents = w.ledger.slotEvents ∧ Ready env w₁.ledger)
  · exact fun _ w₁ hround => ⟨hround.1, Or.inl hround.2⟩
  · intro fuel waited w₁ hround
    apply (globalRound_ensures cfg env hround.2 waitedTotal waited).mono
    intro r w₂ hnext
    have hslots := hnext.1.trans hround.1
    cases r with
    | error e => exact ⟨hslots, hnext.2⟩
    | ok next =>
      cases next with
      | inl waited' => exact ⟨hslots, hnext.2⟩
      | inr permit => exact ⟨hslots, hnext.2⟩
  · exact ⟨rfl, h⟩

theorem acquirePermit_ensures (h : Ready env w.ledger) (waitedTotal : Seconds) :
    (acquirePermit cfg env waitedTotal).Ensures w fun r w' =>
      Acquires env w.ledger (fun permit l => Holds env l permit.1) r w'.ledger := by
  unfold acquirePermit
  split
  · apply (acquireGlobal_ensures cfg env h waitedTotal).bind
    · exact fun permit w₁ hpermit => hpermit
    · exact fun e w₁ hraised => hraised
  · rename_i hcoordinated
    exact ⟨rfl, by simpa using hcoordinated, h⟩

theorem Ledger.SlotHeld.congr {l' : Ledger Exc} (h : l.SlotHeld) (hslots : l'.slotEvents = l.slotEvents) :
    l'.SlotHeld := by
  unfold Ledger.SlotHeld
  rw [hslots]
  exact h

theorem Ledger.SlotHeld.release (h : l.SlotHeld) :
    Ledger.SlotFree { l with slotEvents := l.slotEvents ++ [.released] } := by
  rcases h with ⟨n, hheld⟩
  refine ⟨n + 1, ?_⟩
  show l.slotEvents ++ [.released] = _
  rw [hheld, balanced_succ, List.append_assoc]
  rfl

theorem Idle.of_releaseSlot (h : Ready env l) (hslot : l.SlotHeld) :
    Idle env { l with slotEvents := l.slotEvents ++ [.released] } :=
  ⟨⟨h.kept.settled, h.kept.issued, h.kept.fresh, h.kept.known⟩, h.orderly, hslot.release⟩

/-- Where the probe could not start the lease goes back and then the slot; a store that raises in
    between keeps the slot. -/
theorem giveBack_ensures {lease : Option ℕ} (h : Holds env w.ledger lease)
    (hslot : w.ledger.SlotHeld) :
    (giveBack env lease).Ensures w fun _ w' => Accounted env w'.ledger := by
  cases lease with
  | none => exact (Idle.of_releaseSlot env h.2 hslot).accounted
  | some id =>
    rcases h.lease with ⟨lease, hopen, -⟩
    apply (releaseLease_ensures env .failedProbe h.kept h.orderly hopen h.unsent.allProven).bind
    · intro _ w₁ hreleased
      have hheld : w₁.ledger.SlotHeld := hslot.congr hreleased.1
      exact (Idle.of_releaseSlot env ⟨hreleased.2.1, hreleased.2.2⟩ hheld).accounted
    · intro e w₁ hreleased
      rcases hreleased.2 with ⟨hleases, hiff⟩ | hbroken
      · exact (hslot.congr hreleased.1).accounted fun hall => hiff.mp hall rfl
      · exact hbroken.accounted

theorem giveBack_raise_ensures {β : Type} {lease : Option ℕ} (h : Holds env w.ledger lease)
    (hslot : w.ledger.SlotHeld) (e : SchedulerError Exc) :
    (giveBack env lease >>= fun _ => (Action.raise e : Scheduling Exc β)).Ensures w
      fun r w' => (∃ e', r = .error e') ∧ Accounted env w'.ledger := by
  apply (giveBack_ensures env h hslot).bind
  · exact fun _ w₁ haccounted => ⟨⟨e, rfl⟩, haccounted⟩
  · exact fun e' w₁ haccounted => ⟨⟨e', rfl⟩, haccounted⟩

/-- Before anything was sent every exit accounts for what it leaves. -/
theorem preparePermit_ensures (h : Ready env w.ledger) (hslot : w.ledger.SlotHeld)
    (waitedTotal : Seconds) :
    (preparePermit cfg env waitedTotal).Ensures w fun r w' =>
      match r with
      | .ok permit => Holds env w'.ledger permit.1 ∧ w'.ledger.SlotHeld
      | .error _ => Accounted env w'.ledger := by
  unfold preparePermit
  apply (acquirePermit_ensures cfg env h waitedTotal).attempt_bind
  intro r w₁ hacquired
  have hheld : w₁.ledger.SlotHeld := hslot.congr hacquired.1
  cases r with
  | error e =>
    show Accounted env { w₁.ledger with slotEvents := w₁.ledger.slotEvents ++ [.released] }
    rcases hacquired.2 with hready | hbroken
    · exact (Idle.of_releaseSlot env hready hheld).accounted
    · exact Broken.accounted ⟨hbroken.stray, hbroken.disorder⟩
  | ok permit =>
    apply (leavesLedger_startOwnershipProbe env permit.1).ensures.attempt_bind
    intro started w₂ hsame
    have hholds : Holds env w₂.ledger permit.1 := hsame ▸ hacquired.2
    have hheld' : w₂.ledger.SlotHeld := hsame ▸ hheld
    cases started with
    | ok _ => exact ⟨hholds, hheld'⟩
    | error e =>
      apply (giveBack_raise_ensures env hholds hheld' e).mono
      intro r w' hback
      rcases hback.1 with ⟨e', rfl⟩
      exact hback.2

end Acquire

/-! ## 6. One attempt -/

section Attempt

variable (cfg : ProviderLimitsConfig) (env : SchedulerSurroundings Exc α) {w : SchedulerWorld Exc}

/-- A request is out under the lease it was prepared with. -/
def Sent (proven : Bool) (l : Ledger Exc) : Option ℕ → Prop
  | none => env.coordinated = false ∧ Ready env l
  | some id => LeasesKept env.coordinated (some id) l ∧ AllOrderly env l ∧
      (∃ lease, OpenLease id lease l) ∧ (l.AllProven id ↔ proven = true)

def sentLedger (lease : Option ℕ) (proven : Bool) (l : Ledger Exc) : Ledger Exc :=
  { l with requests := l.requests ++ [⟨lease, proven⟩] }

variable {lease : Option ℕ}

theorem sent_sentLedger {l : Ledger Exc} (h : Holds env l lease) (proven : Bool) :
    Sent env proven (sentLedger lease proven l) lease := by
  have hmem : ∀ q ∈ (sentLedger lease proven l).requests, q ∈ l.requests ∨ q = ⟨lease, proven⟩ := by
    intro q hq
    rcases List.mem_append.mp hq with hold | hlast
    · exact Or.inl hold
    · exact Or.inr (List.mem_singleton.mp hlast)
  have hother : ∀ id, lease ≠ some id →
      ((sentLedger lease proven l).AllProven id ↔ l.AllProven id) := by
    intro id hne
    constructor
    · exact fun hall q hq hlease => hall q (List.mem_append_left _ hq) hlease
    · intro hall q hq hlease
      rcases hmem q hq with hold | rfl
      · exact hall q hold hlease
      · exact absurd hlease hne
  cases lease with
  | none =>
    refine ⟨h.1, ⟨?_, ?_, h.2.kept.fresh, ?_⟩, h.2.orderly⟩
    · intro id record hget hne
      have hold := h.2.kept.settled id record hget hne
      exact ⟨hold.1, hold.2.trans (hother id (by simp)).symm⟩
    · intro hcoordinated
      rw [h.1] at hcoordinated
      cases hcoordinated
    · intro q hq id hlease
      rcases hmem q hq with hold | rfl
      · exact h.2.kept.known q hold id hlease
      · cases hlease
  | some id =>
    rcases h.lease with ⟨record, hopen, hadmitted⟩
    refine ⟨⟨?_, ?_, h.kept.fresh, ?_⟩, h.orderly, ⟨record, hopen.get, hopen.outcome,
      hopen.settlements, hopen.recorded⟩, ?_⟩
    · intro other record' hget hne
      have hold := h.kept.settled other record' hget hne
      exact ⟨hold.1, hold.2.trans (hother other hne).symm⟩
    · intro hcoordinated
      have hissued := h.kept.issued hcoordinated
      constructor
      · intro q hq
        rcases hmem q hq with hold | rfl
        · exact hissued.1 q hold
        · exact ⟨id, record, rfl, hopen.get, hadmitted⟩
      · show ((l.requests ++ [_]).map SentRequest.lease).Nodup
        rw [List.map_append, List.nodup_append]
        refine ⟨hissued.2, by simp, ?_⟩
        intro a ha b hb heq
        rcases List.mem_map.mp ha with ⟨q, hq, hlease⟩
        rw [List.map_singleton, List.mem_singleton] at hb
        exact h.unsent q hq (hlease.trans (heq.trans hb))
    · intro q hq other hlease
      rcases hmem q hq with hold | rfl
      · exact h.kept.known q hold other hlease
      · rw [← Option.some.inj hlease]
        exact Dict.mem_keys_iff.mpr ⟨record, hopen.get⟩
    · constructor
      · exact fun hall => hall ⟨some id, proven⟩ (List.mem_append_right _ List.mem_cons_self) rfl
      · intro hproven q hq hlease
        rcases hmem q hq with hold | rfl
        · exact absurd hlease (h.unsent q hold)
        · exact hproven

/-- The `finally` of an attempt: whatever it raises, slot and lease are accounted for. -/
theorem finishAttempt_ensures {proven : Bool} (h : Sent env proven w.ledger lease) (hslot : w.ledger.SlotHeld) :
    (finishAttempt env lease proven).Ensures w fun r w' =>
      Idle env w'.ledger ∨ ((∃ e, r = .error e) ∧ Accounted env w'.ledger) := by
  unfold finishAttempt
  apply ensures_record_bind
  have hfree := hslot.release
  cases lease with
  | none => exact Or.inl (Idle.of_releaseSlot env h.2 hslot)
  | some id =>
    rcases h with ⟨hkept, horderly, ⟨lease, hopen⟩, hproven⟩
    have hkept' : LeasesKept env.coordinated (some id)
        { w.ledger with slotEvents := w.ledger.slotEvents ++ [.released] } :=
      ⟨hkept.settled, hkept.issued, hkept.fresh, hkept.known⟩
    have hopen' : OpenLease id lease
        { w.ledger with slotEvents := w.ledger.slotEvents ++ [.released] } :=
      ⟨hopen.get, hopen.outcome, hopen.settlements, hopen.recorded⟩
    have hsettles := settleLease_ensures env
      (w := { w with ledger := { w.ledger with slotEvents := w.ledger.slotEvents ++ [.released] } })
      hkept' horderly hopen' hproven
    apply hsettles.mono
    intro r w' hsettled
    have hfree' : w'.ledger.SlotFree := by
      unfold Ledger.SlotFree
      rw [hsettled.1]
      exact hfree
    rcases hsettled.2 with ⟨hleases, hall⟩ | ⟨hraised, hbroken⟩
    · exact Or.inl ⟨hleases, hall, hfree'⟩
    · exact Or.inr ⟨hraised, hbroken.accounted⟩

/-- How a part of `execute` ends: it holds nothing when it returns, and accounts when it raises. -/
def Ends {β : Type} (r : Except (SchedulerError Exc) β) (l : Ledger Exc) : Prop :=
  match r with
  | .ok _ => Idle env l
  | .error _ => Accounted env l

theorem finishAttempt_bind {β : Type} {proven : Bool} {k : Unit → Scheduling Exc β}
    (h : Sent env proven w.ledger lease) (hslot : w.ledger.SlotHeld)
    (hk : ∀ w₁ : SchedulerWorld Exc, Idle env w₁.ledger → (k ()).Ensures w₁ fun r w' => Ends env r w'.ledger) :
    (finishAttempt env lease proven >>= k).Ensures w fun r w' => Ends env r w'.ledger := by
  apply (finishAttempt_ensures env h hslot).bind
  · intro _ w₁ hfinished
    rcases hfinished with hidle | ⟨⟨e, hcontra⟩, -⟩
    · exact hk w₁ hidle
    · cases hcontra
  · intro e w₁ hfinished
    rcases hfinished with hidle | ⟨-, haccounted⟩
    · exact hidle.accounted
    · exact haccounted

theorem attemptRequest_ensures (h : Holds env w.ledger lease) (hslot : w.ledger.SlotHeld) (attempts : ℕ)
    (waitedTotal : Seconds) :
    (attemptRequest cfg env attempts waitedTotal lease).Ensures w fun r w' =>
      Ends env r w'.ledger := by
  unfold attemptRequest
  have hsends : (sendRequest env lease).Ensures w fun r w' => w'.ledger.SlotHeld ∧
      match r with
      | .ok (.ok _) => Sent env true w'.ledger lease
      | .ok (.error exception) =>
        Sent env (env.classifyOutcome exception).completionProven w'.ledger lease
      | .error _ => False := by
    unfold sendRequest
    apply ensures_ask_bind
    generalize env.call _ = reply
    apply ensures_record_bind
    cases reply with
    | ok value => exact ⟨hslot, sent_sentLedger env h true⟩
    | error exception => exact ⟨hslot, sent_sentLedger env h _⟩
  apply hsends.bind
  · intro reply w₁ hsent
    cases reply with
    | ok value =>
      apply finishAttempt_bind env hsent.2 hsent.1
      exact fun w₂ hidle => hidle
    | error exception =>
      apply (leavesLedger_onFailure cfg env attempts waitedTotal exception).ensures.attempt_bind
      intro delay w₂ hsame
      apply finishAttempt_bind env
      · rw [hsame]
        exact hsent.2
      · rw [hsame]
        exact hsent.1
      · intro w₃ hidle
        cases delay with
        | error e => exact hidle.accounted
        | ok delay => exact hidle
  · exact fun e w₁ hsent => absurd hsent.2 id

end Attempt

/-! ## 7. The loop -/

section Execute

variable (cfg : ProviderLimitsConfig) (env : SchedulerSurroundings Exc α) {w : SchedulerWorld Exc}

theorem ready_takeSlot (h : Idle env w.ledger) :
    (takeSlot : Scheduling Exc Unit).Ensures w fun r w' =>
      r = .ok () ∧ Ready env w'.ledger ∧ w'.ledger.SlotHeld := by
  refine ⟨rfl, ⟨⟨h.leases.settled, h.leases.issued, h.leases.fresh, h.leases.known⟩, h.orderly⟩, ?_⟩
  rcases h.slot with ⟨n, hbalanced⟩
  exact ⟨n, congrArg (· ++ [SlotEvent.acquired]) hbalanced⟩

theorem acquireSlot_ensures (h : Idle env w.ledger) (waitedTotal : Seconds) :
    (acquireSlot cfg env waitedTotal).Ensures w fun r w' =>
      match r with
      | .ok _ => Ready env w'.ledger ∧ w'.ledger.SlotHeld
      | .error _ => Accounted env w'.ledger := by
  unfold acquireSlot
  apply ensures_ask_bind
  show (ite _ _ _ : Scheduling Exc Seconds).Ensures _ _
  split
  · exact (ready_takeSlot env h).2
  · apply Action.Ensures.loop (I := fun _ _ w₁ => Idle env w₁.ledger)
    · exact fun _ w₁ hidle => hidle.accounted
    · intro fuel state w₁ hidle
      unfold slotRound
      apply (leavesLedger_checkCancelled env).ensures.bind
      · intro _ w₂ hsame₂
        rw [← hsame₂] at hidle
        show (ite _ _ _ : Scheduling Exc _).Ensures _ _
        split
        · exact hidle.accounted
        · apply (leavesLedger_notifyOnce env state.2).ensures.bind
          · intro _ w₃ hsame₃
            rw [← hsame₃] at hidle
            apply (leavesLedger_sleep slotPollSeconds).ensures.bind
            · intro _ w₄ hsame₄
              rw [← hsame₄] at hidle
              apply (leavesLedger_checkCancelled env).ensures.bind
              · intro _ w₅ hsame₅
                rw [← hsame₅] at hidle
                apply ensures_ask_bind
                show (ite _ _ _ : Scheduling Exc _).Ensures _ _
                split
                · exact (ready_takeSlot env hidle).2
                · exact hidle
              · intro e w₅ hsame₅
                rw [← hsame₅] at hidle
                exact hidle.accounted
            · intro e w₄ hsame₄
              rw [← hsame₄] at hidle
              exact hidle.accounted
          · intro e w₃ hsame₃
            rw [← hsame₃] at hidle
            exact hidle.accounted
      · intro e w₂ hsame₂
        rw [← hsame₂] at hidle
        exact hidle.accounted
    · exact h

/-- A part that leaves the ledger alone, run while nothing is held. -/
theorem Idle.bind {β γ : Type} {c : Scheduling Exc β} {k : β → Scheduling Exc γ}
    (h : Idle env w.ledger) (hc : LeavesLedger c)
    (hk : ∀ b w₁, Idle env w₁.ledger → (k b).Ensures w₁ fun r w' => Ends env r w'.ledger) :
    (c >>= k).Ensures w fun r w' => Ends env r w'.ledger := by
  apply hc.ensures.bind
  · intro b w₁ hsame
    apply hk
    rw [hsame]
    exact h
  · intro e w₁ hsame
    show Accounted env w₁.ledger
    rw [hsame]
    exact h.accounted

/-- One turn of the loop: it starts holding nothing, and ends so or accounts for the difference. -/
theorem executeRound_ensures (h : Idle env w.ledger) (estimatedTokens : ℕ) (state : ℕ × Seconds) :
    (executeRound cfg env estimatedTokens state).Ensures w fun r w' => Ends env r w'.ledger := by
  unfold executeRound
  apply Idle.bind env h (leavesLedger_admitLocally cfg env estimatedTokens state.2)
  intro admitted w₁ h₁
  apply Idle.bind env h₁ (leavesLedger_checkCancelled env)
  intro _ w₂ h₂
  apply (acquireSlot_ensures cfg env h₂ (state.2 + admitted)).bind
  · intro slotted w₃ hslotted
    apply (preparePermit_ensures cfg env hslotted.1 hslotted.2 _).bind
    · intro permit w₄ hpermit
      apply (attemptRequest_ensures cfg env hpermit.1 hpermit.2 state.1 _).bind
      · intro outcome w₅ hidle
        cases outcome with
        | inr value => exact hidle
        | inl delay =>
          apply Idle.bind env hidle (leavesLedger_notify env)
          intro _ w₆ h₆
          apply Idle.bind env h₆ (leavesLedger_wait env delay)
          exact fun _ w₇ h₇ => h₇
      · exact fun e w₅ haccounted => haccounted
    · exact fun e w₄ haccounted => haccounted
  · exact fun e w₃ haccounted => haccounted

theorem idle_empty : Idle env (.empty Exc) where
  leases := by
    refine ⟨?_, ?_, ?_, ?_⟩
    · intro id lease hget
      cases hget
    · intro _
      exact ⟨fun q hq => absurd hq List.not_mem_nil, List.nodup_nil⟩
    · exact fun id hid => absurd hid List.not_mem_nil
    · exact fun q hq => absurd hq List.not_mem_nil
  orderly := fun reply hreply => absurd hreply List.not_mem_nil
  slot := ⟨0, rfl⟩

/-- Whatever the surroundings do, a call that has returned or raised leaves a disciplined ledger
    exactly if the coordinator gave no answer that `execute` does not absorb. -/
theorem execute_disciplined_iff (estimatedTokens : ℕ) :
    Disciplined env.coordinated ((execute cfg env estimatedTokens).after (.initial Exc)).ledger ↔
      ∀ reply ∈ ((execute cfg env estimatedTokens).after (.initial Exc)).ledger.replies,
        reply.Orderly env.isException := by
  have hends : (execute cfg env estimatedTokens).Ensures (.initial Exc)
      fun _ w' => Accounted env w'.ledger := by
    apply Action.Ensures.loop (I := fun _ _ w₁ => Idle env w₁.ledger)
    · exact fun _ w₁ hidle => hidle.accounted
    · intro fuel state w₁ hidle
      apply (executeRound_ensures cfg env hidle estimatedTokens state).mono
      intro r w₂ hround
      cases r with
      | error e => exact hround
      | ok next =>
        cases next with
        | inl state' => exact hround
        | inr value => exact Idle.accounted hround
    · exact idle_empty env
  exact hends

end Execute

/-! ## 8. A probe that cannot start -/

inductive HostFailure
  | cannotStartThread
  | replyLost
  | keyboardInterrupt
  deriving DecidableEq, Repr

/-- The permit is granted, the probe thread cannot start, and the store's reply to the removal is
    lost after the lease was removed. -/
def failedProbe : SchedulerSurroundings HostFailure Unit where
  coordinated := true
  cancelled := fun _ => false
  clock := fun n => n
  slotFree := fun _ => true
  acquire := fun _ => .granted
  admission := fun _ => .admitted
  removal := fun _ => .raised true .replyLost
  diagnostic := fun _ => none
  probeStart := fun _ => some .cannotStartThread
  signal := fun _ => none
  callback := fun _ => none
  call := fun _ => .ok ()
  rng := fun _ => 0
  classifyOutcome := fun _ => ⟨.unknown, none, false, "PROVIDER_REQUEST_OUTCOME_UNKNOWN", none⟩
  isException := fun exception => decide (exception ≠ .keyboardInterrupt)
  rounds := 1

/-- The call raises and the local slot never comes back. -/
theorem execute_keeps_slot :
    let l := ((execute defaultProviderLimits failedProbe 1).after (.initial HostFailure)).ledger
    l.slotEvents = [.acquired] ∧ ¬ Disciplined failedProbe.coordinated l := by
  have hslots : ((execute defaultProviderLimits failedProbe 1).after
      (.initial HostFailure)).ledger.slotEvents = [.acquired] := by decide +kernel
  refine ⟨hslots, fun hdisciplined => ?_⟩
  have hheld : ((execute defaultProviderLimits failedProbe 1).after
      (.initial HostFailure)).ledger.SlotHeld := ⟨0, hslots⟩
  exact hheld.not_free hdisciplined.slots

end Milo.Scheduler
