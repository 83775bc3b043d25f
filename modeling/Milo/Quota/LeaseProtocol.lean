import Milo.Quota.Lease
import Milo.Reasoning.Transition

/-!
# LeaseProtocol — leases under any interleaving of their holders

Any number of threads acquire, settle and probe leases of one store while an operator reclaims
some of them.  A call of `release` or `quarantine` is three atomic steps: it reads whether the
lease is settled, writes the outcome, and, for a release, removes the lease from the store; other
threads may act between them.
-/

namespace Milo.Quota

open Milo.Reasoning

/-! ## 1. The protocol -/

/-- A call of `release` or `quarantine` in progress, and whether it has written its outcome. -/
structure PendingCall where
  leaseId : String
  outcome : LeaseOutcome
  marked : Bool
  deriving DecidableEq

structure LeaseWorld where
  store : LeaseStore
  leases : Dict String LeaseState
  pending : List PendingCall

def LeaseWorld.initial : LeaseWorld := ⟨.empty, .empty, []⟩

inductive LeaseOperation
  | acquire (leaseId : String) (paused : Bool) (nowMs : ℤ)
  | enter (leaseId : String) (outcome : LeaseOutcome)
  | mark (call : PendingCall)
  | finish (call : PendingCall)
  | recover (leaseId reason : String) (nowMs : ℤ)
  | verify (leaseId : String) (nowMs : ℤ)
  | held (nowMs : ℤ)

/-- The lease an operation is about. -/
def LeaseOperation.leaseId : LeaseOperation → Option String
  | .acquire leaseId _ _ => some leaseId
  | .enter leaseId _ => some leaseId
  | .mark call => some call.leaseId
  | .finish call => some call.leaseId
  | .recover leaseId _ _ => some leaseId
  | .verify leaseId _ => some leaseId
  | .held _ => none

section Protocol

variable (cfg : QuotaConfig) (isPrintable : Char → Bool)

def LeaseWorld.perform (w : LeaseWorld) : LeaseOperation → LeaseWorld
  | .acquire leaseId paused nowMs =>
    let answer := tryAcquire cfg w.store leaseId paused nowMs
    { w with
      store := answer.2
      leases := if answer.1 then w.leases.set leaseId none else w.leases }
  | .enter leaseId outcome =>
    -- a settled lease is left alone: the call returns False
    if w.leases.get? leaseId = some none then
      { w with pending := ⟨leaseId, outcome, false⟩ :: w.pending }
    else w
  | .mark call =>
    { w with
      leases := w.leases.set call.leaseId (some call.outcome)
      pending := ⟨call.leaseId, call.outcome, true⟩ :: w.pending.erase call }
  | .finish call =>
    { w with
      store := match call.outcome with
        | .released => (w.store.releaseConcurrency call.leaseId).2
        -- quarantining touches nothing in the store: the lease is already held
        | .quarantined => w.store
      pending := w.pending.erase call }
  | .recover leaseId reason nowMs =>
    { w with store := (operatorReclaim cfg isPrintable w.store leaseId reason nowMs).2 }
  | .verify _ _ => w
  | .held _ => w

/-- An acquisition draws a fresh id; a call runs its steps in order on a lease it holds. -/
def LeaseOperation.Enabled (w : LeaseWorld) : LeaseOperation → Prop
  | .acquire leaseId _ _ => leaseId ∉ w.leases.keys
  | .enter leaseId _ => leaseId ∈ w.leases.keys
  | .mark call => call ∈ w.pending ∧ call.marked = false
  | .finish call => call ∈ w.pending ∧ call.marked = true
  | _ => True

def LeaseStep : LeaseWorld → LeaseOperation → LeaseWorld → Prop :=
  Performs (fun w op => op.Enabled w) (LeaseWorld.perform cfg isPrintable)

/-! ## 2. What happened to a lease -/

abbrev LeaseHistory : Type := List (LeaseWorld × LeaseOperation)

/-- The lease was settled as proven finished: a release wrote its outcome. -/
def ProvenFinished (hist : LeaseHistory) (leaseId : String) : Prop :=
  ∃ e ∈ hist, ∃ call, e.2 = .mark call ∧ call.leaseId = leaseId ∧ call.outcome = .released

/-- The lease was granted at `acquiredMs`. -/
def AcquiredAt (hist : LeaseHistory) (leaseId : String) (acquiredMs : ℤ) : Prop :=
  ∃ e ∈ hist, ∃ paused, e.2 = .acquire leaseId paused acquiredMs ∧
    (tryAcquire cfg e.1.store leaseId paused acquiredMs).1 = true

/-- Not younger than the floor of an operator reclaim: to the clock's millisecond, and to the
    second's fraction where the worker lifetime is a whole number of seconds. -/
structure OldEnough (ageMs : ℤ) : Prop where
  floor : cfg.reclaimFloorMs ≤ ageMs
  whole : ∀ seconds : ℕ, 60 ≤ seconds → cfg.workerMaxLifetimeSeconds = seconds →
    cfg.minimumAbandonedLeaseReclaimSeconds ≤ (ageMs : ℚ) / 1000

/-- An operator reclaim succeeded on the lease when it was old enough. -/
def ReclaimedOldEnough (hist : LeaseHistory) (leaseId : String) : Prop :=
  ∃ e ∈ hist, ∃ reason nowMs acquiredMs, e.2 = .recover leaseId reason nowMs ∧
    (operatorReclaim cfg isPrintable e.1.store leaseId reason nowMs).1 = .reclaimed ∧
    AcquiredAt cfg hist leaseId acquiredMs ∧ OldEnough cfg (nowMs - acquiredMs)

end Protocol

variable {cfg : QuotaConfig} {isPrintable : Char → Bool} {hist : LeaseHistory} {leaseId : String}

theorem OldEnough.of_floor {ageMs : ℤ} (h : cfg.reclaimFloorMs ≤ ageMs) : OldEnough cfg ageMs := by
  refine ⟨h, ?_⟩
  intro seconds hlong hcfg
  have hfloor := reclaimFloorMs_whole hlong hcfg
  have hcast : (cfg.reclaimFloorMs : ℚ) ≤ ageMs := by exact_mod_cast h
  rw [hfloor] at hcast
  exact (le_div_iff₀ (by norm_num)).mpr hcast

theorem ProvenFinished.mono (h : ProvenFinished hist leaseId) (e : LeaseWorld × LeaseOperation) :
    ProvenFinished (hist ++ [e]) leaseId := by
  rcases h with ⟨e', he', hcall⟩
  exact ⟨e', List.mem_append_left _ he', hcall⟩

theorem AcquiredAt.mono {acquiredMs : ℤ} (h : AcquiredAt cfg hist leaseId acquiredMs)
    (e : LeaseWorld × LeaseOperation) : AcquiredAt cfg (hist ++ [e]) leaseId acquiredMs := by
  rcases h with ⟨e', he', hcall⟩
  exact ⟨e', List.mem_append_left _ he', hcall⟩

theorem ReclaimedOldEnough.mono (h : ReclaimedOldEnough cfg isPrintable hist leaseId)
    (e : LeaseWorld × LeaseOperation) :
    ReclaimedOldEnough cfg isPrintable (hist ++ [e]) leaseId := by
  rcases h with ⟨e', he', reason, nowMs, acquiredMs, hop, hanswer, hacquired, hold⟩
  exact ⟨e', List.mem_append_left _ he', reason, nowMs, acquiredMs, hop, hanswer,
    hacquired.mono e, hold⟩

/-! ## 3. What each backend call does to the store -/

namespace LeaseStore

variable {store : LeaseStore}

/-- No lease of the store expires on its own. -/
def NoExpiry (store : LeaseStore) : Prop :=
  ∀ k expiry, (k, expiry) ∈ store.holders.entries → expiry = none

theorem purge_of_noExpiry (h : store.NoExpiry) (nowMs : ℤ) : store.purge nowMs = store := by
  have hholders : (store.holders.filter fun _ expiry => !expired nowMs expiry) = store.holders := by
    apply Dict.filter_eq_self
    intro k expiry hmem
    rw [h k expiry hmem]
    rfl
  have hacquired : (store.acquired.filter fun k _ =>
      !((store.holders.get? k).any (expired nowMs))) = store.acquired := by
    apply Dict.filter_eq_self
    intro k _ _
    cases hget : store.holders.get? k with
    | none => rfl
    | some expiry =>
      rw [h k expiry (Dict.get?_eq_some.mp hget)]
      rfl
  unfold purge
  rw [hholders, hacquired]

theorem noExpiry_erase (h : store.NoExpiry) (k : String) (acquired : Dict String ℤ) :
    NoExpiry ⟨store.holders.erase k, acquired⟩ :=
  fun k' expiry hmem => h k' expiry (Dict.mem_entries_erase.mp hmem).2

end LeaseStore

/-- With no timer configured an acquisition either changes nothing, or records the new lease in a
    store that has room for it. -/
theorem tryAcquire_cases (httl : cfg.abandonedLeaseReclaimSeconds = none) {store : LeaseStore}
    (h : store.NoExpiry) (leaseId : String) (paused : Bool) (nowMs : ℤ) :
    tryAcquire cfg store leaseId paused nowMs = (false, store) ∨
      ((store.holders.keys.length : ℤ) < cfg.maxConcurrency ∧
        tryAcquire cfg store leaseId paused nowMs =
          (true, ⟨store.holders.set leaseId none, store.acquired.set leaseId nowMs⟩)) := by
  unfold tryAcquire LeaseStore.acquireConcurrency QuotaConfig.abandonedReclaimMs
  rw [httl, LeaseStore.purge_of_noExpiry h]
  cases paused with
  | true => exact Or.inl rfl
  | false =>
    simp only [Bool.false_eq_true, if_false]
    by_cases hfull : (store.holders.keys.length : ℤ) ≥ cfg.maxConcurrency
    · rw [if_pos hfull]
      exact Or.inl rfl
    · rw [if_neg hfull]
      exact Or.inr ⟨not_le.mp hfull, rfl⟩

/-- A reclaim leaves the holders alone unless it removes its own lease, old enough and recorded. -/
theorem operatorReclaim_cases (cfg : QuotaConfig) (isPrintable : Char → Bool) (store : LeaseStore)
    (leaseId reason : String) (nowMs : ℤ) :
    (∃ code acquired, operatorReclaim cfg isPrintable store leaseId reason nowMs =
        (.refused code, ⟨store.holders, acquired⟩) ∧
        (acquired = store.acquired ∨ acquired = store.acquired.erase leaseId)) ∨
      ∃ acquiredMs, store.acquired.get? leaseId = some acquiredMs ∧
        cfg.reclaimFloorMs ≤ nowMs - acquiredMs ∧
        operatorReclaim cfg isPrintable store leaseId reason nowMs =
          (.reclaimed, ⟨store.holders.erase leaseId, store.acquired.erase leaseId⟩) := by
  unfold operatorReclaim LeaseStore.recoverConcurrency
  by_cases hreason : recordedReason isPrintable reason = []
  · rw [if_pos hreason]
    exact Or.inl ⟨_, _, rfl, Or.inl rfl⟩
  · rw [if_neg hreason]
    by_cases hheld : leaseId ∉ store.holders.keys
    · rw [if_pos hheld]
      exact Or.inl ⟨_, _, rfl, Or.inr rfl⟩
    · rw [if_neg hheld]
      cases hget : store.acquired.get? leaseId with
      | none => exact Or.inl ⟨_, _, rfl, Or.inl rfl⟩
      | some acquiredMs =>
        by_cases hyoung : acquiredMs > nowMs - cfg.reclaimFloorMs
        · simp only [if_pos hyoung]
          exact Or.inl ⟨_, _, rfl, Or.inl rfl⟩
        · simp only [if_neg hyoung]
          refine Or.inr ⟨acquiredMs, rfl, ?_, trivial⟩
          omega

/-! ## 4. The invariant -/

/-- What every reachable world satisfies, with the history that led to it. -/
structure LeasesHeld (cfg : QuotaConfig) (isPrintable : Char → Bool) (hist : LeaseHistory)
    (w : LeaseWorld) : Prop where
  noExpiry : w.store.NoExpiry
  bounded : (w.store.holders.keys.length : ℤ) ≤ cfg.maxConcurrency
  handedOut : ∀ k ∈ w.store.holders.keys, k ∈ w.leases.keys
  recorded : ∀ k ∈ w.leases.keys, k ∈ w.store.holders.keys ∨ ProvenFinished hist k ∨
    ReclaimedOldEnough cfg isPrintable hist k
  dated : ∀ k acquiredMs, w.store.acquired.get? k = some acquiredMs →
    AcquiredAt cfg hist k acquiredMs
  proven : ∀ call ∈ w.pending, call.marked = true → call.outcome = .released →
    ProvenFinished hist call.leaseId
  entered : ∀ call ∈ w.pending, call.leaseId ∈ w.leases.keys

theorem leasesHeld_initial : LeasesHeld cfg isPrintable [] .initial where
  noExpiry := by simp [LeaseStore.NoExpiry, LeaseWorld.initial, LeaseStore.empty]
  bounded := le_trans (by decide) cfg.concurrency_pos
  handedOut := by simp [LeaseWorld.initial, LeaseStore.empty]
  recorded := by simp [LeaseWorld.initial]
  dated := by simp [LeaseWorld.initial, LeaseStore.empty]
  proven := by simp [LeaseWorld.initial]
  entered := by simp [LeaseWorld.initial]

namespace LeasesHeld

variable {w : LeaseWorld}

/-- A step that touches neither the store nor the leases keeps the invariant if the calls it
    leaves pending are proven and entered. -/
theorem of_same_store (h : LeasesHeld cfg isPrintable hist w) (e : LeaseWorld × LeaseOperation)
    {pending : List PendingCall}
    (hproven : ∀ call ∈ pending, call.marked = true → call.outcome = .released →
      ProvenFinished (hist ++ [e]) call.leaseId)
    (hentered : ∀ call ∈ pending, call.leaseId ∈ w.leases.keys) :
    LeasesHeld cfg isPrintable (hist ++ [e]) { w with pending := pending } where
  noExpiry := h.noExpiry
  bounded := h.bounded
  handedOut := h.handedOut
  recorded := fun k hk =>
    (h.recorded k hk).imp id (Or.imp (fun hp => hp.mono e) fun hr => hr.mono e)
  dated := fun k acquiredMs hget => (h.dated k acquiredMs hget).mono e
  proven := hproven
  entered := hentered

theorem unchanged (h : LeasesHeld cfg isPrintable hist w) (e : LeaseWorld × LeaseOperation) :
    LeasesHeld cfg isPrintable (hist ++ [e]) w :=
  h.of_same_store e (fun call hcall hmarked hreleased =>
    (h.proven call hcall hmarked hreleased).mono e) h.entered

/-- The store loses one lease, which is accounted for. -/
theorem removed (h : LeasesHeld cfg isPrintable hist w) (e : LeaseWorld × LeaseOperation)
    {k : String} {pending : List PendingCall} (hpending : ∀ call ∈ pending, call ∈ w.pending)
    (hgone : ProvenFinished (hist ++ [e]) k ∨ ReclaimedOldEnough cfg isPrintable (hist ++ [e]) k) :
    LeasesHeld cfg isPrintable (hist ++ [e])
      { w with
        store := ⟨w.store.holders.erase k, w.store.acquired.erase k⟩
        pending := pending } where
  noExpiry := LeaseStore.noExpiry_erase h.noExpiry _ _
  bounded := by
    have hle := Dict.length_keys_erase_le w.store.holders k
    have hbound := h.bounded
    show ((w.store.holders.erase k).keys.length : ℤ) ≤ cfg.maxConcurrency
    omega
  handedOut := fun k' hk' => h.handedOut k' (Dict.mem_keys_erase.mp hk').2
  recorded := by
    intro k' hk'
    by_cases heq : k' = k
    · rw [heq]
      exact Or.inr hgone
    · rcases h.recorded k' hk' with hheld | hproven | hreclaimed
      · exact Or.inl (Dict.mem_keys_erase.mpr ⟨heq, hheld⟩)
      · exact Or.inr (Or.inl (hproven.mono e))
      · exact Or.inr (Or.inr (hreclaimed.mono e))
  dated := by
    intro k' acquiredMs hget
    change (w.store.acquired.erase k).get? k' = some acquiredMs at hget
    rw [Dict.get?_erase] at hget
    split at hget
    · cases hget
    · exact (h.dated k' acquiredMs hget).mono e
  proven := fun call hcall hmarked hreleased =>
    (h.proven call (hpending call hcall) hmarked hreleased).mono e
  entered := fun call hcall => h.entered call (hpending call hcall)

theorem acquire (httl : cfg.abandonedLeaseReclaimSeconds = none)
    (h : LeasesHeld cfg isPrintable hist w) {leaseId : String} {paused : Bool} {nowMs : ℤ}
    (hfresh : leaseId ∉ w.leases.keys) :
    LeasesHeld cfg isPrintable (hist ++ [(w, .acquire leaseId paused nowMs)])
      (w.perform cfg isPrintable (.acquire leaseId paused nowMs)) := by
  rcases tryAcquire_cases httl h.noExpiry leaseId paused nowMs with hsame | ⟨hroom, hgranted⟩
  · simp only [LeaseWorld.perform, hsame]
    exact h.unchanged _
  · have hnew : leaseId ∉ w.store.holders.keys := fun hmem => hfresh (h.handedOut leaseId hmem)
    have hdate : AcquiredAt cfg (hist ++ [(w, .acquire leaseId paused nowMs)]) leaseId nowMs :=
      ⟨(w, .acquire leaseId paused nowMs), by simp, paused, rfl, by rw [hgranted]⟩
    simp only [LeaseWorld.perform, hgranted, if_true]
    refine ⟨?_, ?_, ?_, ?_, ?_, ?_, ?_⟩
    · intro k expiry hmem
      rcases Dict.mem_entries_set.mp hmem with ⟨-, hexpiry⟩ | ⟨-, hold⟩
      · exact hexpiry
      · exact h.noExpiry k expiry hold
    · show ((w.store.holders.set leaseId none).keys.length : ℤ) ≤ cfg.maxConcurrency
      rw [Dict.keys_set_of_notMem hnew, List.length_append, List.length_singleton]
      push_cast
      omega
    · intro k hk
      rcases Dict.mem_keys_set.mp hk with rfl | hold
      · exact Dict.mem_keys_set.mpr (Or.inl rfl)
      · exact Dict.mem_keys_set.mpr (Or.inr (h.handedOut k hold))
    · intro k hk
      rcases Dict.mem_keys_set.mp hk with rfl | hold
      · exact Or.inl (Dict.mem_keys_set.mpr (Or.inl rfl))
      · rcases h.recorded k hold with hheld | hproven | hreclaimed
        · exact Or.inl (Dict.mem_keys_set.mpr (Or.inr hheld))
        · exact Or.inr (Or.inl (hproven.mono _))
        · exact Or.inr (Or.inr (hreclaimed.mono _))
    · intro k acquiredMs hget
      change (w.store.acquired.set leaseId nowMs).get? k = some acquiredMs at hget
      rw [Dict.get?_set] at hget
      by_cases hk : k = leaseId
      · rw [if_pos hk] at hget
        cases hget
        rw [hk]
        exact hdate
      · rw [if_neg hk] at hget
        exact (h.dated k acquiredMs hget).mono _
    · intro call hcall hmarked hreleased
      exact (h.proven call hcall hmarked hreleased).mono _
    · intro call hcall
      exact Dict.mem_keys_set.mpr (Or.inr (h.entered call hcall))

theorem mark (h : LeasesHeld cfg isPrintable hist w) {call : PendingCall}
    (hcall : call ∈ w.pending) :
    LeasesHeld cfg isPrintable (hist ++ [(w, .mark call)])
      (w.perform cfg isPrintable (.mark call)) := by
  have hkeys : (w.leases.set call.leaseId (some call.outcome)).keys = w.leases.keys :=
    Dict.keys_set_of_mem (h.entered call hcall)
  refine ⟨h.noExpiry, h.bounded, ?_, ?_, ?_, ?_, ?_⟩
  · intro k hk
    show k ∈ (w.leases.set call.leaseId (some call.outcome)).keys
    rw [hkeys]
    exact h.handedOut k hk
  · intro k hk
    change k ∈ (w.leases.set call.leaseId (some call.outcome)).keys at hk
    rw [hkeys] at hk
    rcases h.recorded k hk with hheld | hproven | hreclaimed
    · exact Or.inl hheld
    · exact Or.inr (Or.inl (hproven.mono _))
    · exact Or.inr (Or.inr (hreclaimed.mono _))
  · exact fun k acquiredMs hget => (h.dated k acquiredMs hget).mono _
  · intro other hother hmarked hreleased
    rcases List.mem_cons.mp hother with rfl | hold
    · exact ⟨(w, .mark call), by simp, call, rfl, rfl, hreleased⟩
    · exact (h.proven other (List.mem_of_mem_erase hold) hmarked hreleased).mono _
  · intro other hother
    show other.leaseId ∈ (w.leases.set call.leaseId (some call.outcome)).keys
    rw [hkeys]
    rcases List.mem_cons.mp hother with rfl | hold
    · exact h.entered call hcall
    · exact h.entered other (List.mem_of_mem_erase hold)

theorem recover (h : LeasesHeld cfg isPrintable hist w) (leaseId reason : String) (nowMs : ℤ) :
    LeasesHeld cfg isPrintable (hist ++ [(w, .recover leaseId reason nowMs)])
      (w.perform cfg isPrintable (.recover leaseId reason nowMs)) := by
  have hsame := h.unchanged (w, .recover leaseId reason nowMs)
  rcases operatorReclaim_cases cfg isPrintable w.store leaseId reason
    nowMs with ⟨code, acquired, hrefused, hacquired⟩ | ⟨acquiredMs, hget, hage, hremoved⟩
  · simp only [LeaseWorld.perform, hrefused]
    refine ⟨hsame.noExpiry, hsame.bounded, hsame.handedOut, hsame.recorded, ?_, hsame.proven,
      hsame.entered⟩
    intro k acquiredMs hget
    rcases hacquired with hkept | herased
    · exact hsame.dated k acquiredMs (hkept ▸ hget)
    · change acquired.get? k = some acquiredMs at hget
      rw [herased, Dict.get?_erase] at hget
      split at hget
      · cases hget
      · exact hsame.dated k acquiredMs hget
  · simp only [LeaseWorld.perform, hremoved]
    refine h.removed _ (fun call hcall => hcall) (Or.inr ?_)
    exact ⟨(w, .recover leaseId reason nowMs), by simp, reason, nowMs, acquiredMs, rfl,
      by rw [hremoved], (h.dated leaseId acquiredMs hget).mono _, OldEnough.of_floor hage⟩

/-- The step lemma. -/
theorem step (httl : cfg.abandonedLeaseReclaimSeconds = none)
    (h : LeasesHeld cfg isPrintable hist w) {op : LeaseOperation} {w' : LeaseWorld}
    (hstep : LeaseStep cfg isPrintable w op w') :
    LeasesHeld cfg isPrintable (hist ++ [(w, op)]) w' := by
  rcases hstep with ⟨henabled, rfl⟩
  cases op with
  | acquire leaseId paused nowMs => exact h.acquire httl henabled
  | enter leaseId outcome =>
    simp only [LeaseWorld.perform]
    split
    · refine h.of_same_store _ ?_ ?_
      · intro call hcall hmarked hreleased
        rcases List.mem_cons.mp hcall with rfl | hold
        · cases hmarked
        · exact (h.proven call hold hmarked hreleased).mono _
      · intro call hcall
        rcases List.mem_cons.mp hcall with rfl | hold
        · exact henabled
        · exact h.entered call hold
    · exact h.unchanged _
  | mark call => exact h.mark henabled.1
  | finish call =>
    simp only [LeaseWorld.perform]
    cases houtcome : call.outcome with
    | released =>
      refine h.removed _ (fun other hother => List.mem_of_mem_erase hother) (Or.inl ?_)
      exact (h.proven call henabled.1 henabled.2 houtcome).mono _
    | quarantined =>
      refine h.of_same_store _ ?_ ?_
      · intro other hother hmarked hreleased
        exact (h.proven other (List.mem_of_mem_erase hother) hmarked hreleased).mono _
      · exact fun other hother => h.entered other (List.mem_of_mem_erase hother)
  | recover leaseId reason nowMs => exact h.recover leaseId reason nowMs
  | verify leaseId nowMs => exact h.unchanged _
  | held nowMs => exact h.unchanged _

end LeasesHeld

theorem perform_removes_own (httl : cfg.abandonedLeaseReclaimSeconds = none) {w : LeaseWorld}
    (h : w.store.NoExpiry) (op : LeaseOperation) {k : String} (hk : k ∈ w.store.holders.keys)
    (hgone : k ∉ (w.perform cfg isPrintable op).store.holders.keys) : op.leaseId = some k := by
  have herase : ∀ leaseId, k ∉ (w.store.holders.erase leaseId).keys → leaseId = k := by
    intro leaseId hnot
    by_contra hne
    exact hnot (Dict.mem_keys_erase.mpr ⟨fun heq => hne heq.symm, hk⟩)
  cases op with
  | acquire leaseId paused nowMs =>
    rcases tryAcquire_cases httl h leaseId paused nowMs with hsame | ⟨-, hgranted⟩
    · simp only [LeaseWorld.perform, hsame] at hgone
      exact absurd hk hgone
    · simp only [LeaseWorld.perform, hgranted] at hgone
      exact absurd (Dict.mem_keys_set.mpr (Or.inr hk)) hgone
  | enter leaseId outcome =>
    simp only [LeaseWorld.perform] at hgone
    split at hgone <;> exact absurd hk hgone
  | mark call => exact absurd hk hgone
  | finish call =>
    simp only [LeaseWorld.perform] at hgone
    cases houtcome : call.outcome with
    | released =>
      rw [houtcome] at hgone
      exact congrArg some (herase call.leaseId hgone)
    | quarantined =>
      rw [houtcome] at hgone
      exact absurd hk hgone
  | recover leaseId reason nowMs =>
    rcases operatorReclaim_cases cfg isPrintable w.store leaseId reason
      nowMs with ⟨code, acquired, hrefused, -⟩ | ⟨acquiredMs, -, -, hremoved⟩
    · simp only [LeaseWorld.perform, hrefused] at hgone
      exact absurd hk hgone
    · simp only [LeaseWorld.perform, hremoved] at hgone
      exact congrArg some (herase leaseId hgone)
  | verify leaseId nowMs => exact absurd hk hgone
  | held nowMs => exact absurd hk hgone

/-- Under every interleaving concurrency stays within the ceiling, a lease handed out stays
    recorded until it was proven finished or reclaimed old enough, and only an operation on a
    lease removes it. -/
theorem leases_held (httl : cfg.abandonedLeaseReclaimSeconds = none) {w : LeaseWorld}
    (hrun : Run (LeaseStep cfg isPrintable) .initial hist w) :
    (w.store.holders.keys.length : ℤ) ≤ cfg.maxConcurrency ∧
      (∀ k ∈ w.leases.keys, k ∈ w.store.holders.keys ∨ ProvenFinished hist k ∨
        ReclaimedOldEnough cfg isPrintable hist k) ∧
      ∀ e ∈ hist, ∀ k ∈ e.1.store.holders.keys,
        k ∉ (e.1.perform cfg isPrintable e.2).store.holders.keys → e.2.leaseId = some k := by
  have hinv : LeasesHeld cfg isPrintable hist w ∧ ∀ e ∈ hist, e.1.store.NoExpiry := by
    refine hrun.history_invariant (J := fun hist w =>
      LeasesHeld cfg isPrintable hist w ∧ ∀ e ∈ hist, e.1.store.NoExpiry) ?_ ?_
    · exact ⟨leasesHeld_initial, by simp⟩
    · intro hist m op m' _ hJ hstep
      refine ⟨hJ.1.step httl hstep, ?_⟩
      intro e he
      rcases List.mem_append.mp he with hold | hlast
      · exact hJ.2 e hold
      · rw [List.mem_singleton.mp hlast]
        exact hJ.1.noExpiry
  refine ⟨hinv.1.bounded, hinv.1.recorded, ?_⟩
  intro e he k hk hgone
  exact perform_removes_own httl (hinv.2 e he) e.2 hk hgone

/-- Two leases, one released on proof and one reclaimed after the floor. -/
def twoLeases : List LeaseOperation :=
  [.acquire "a" false 0, .acquire "b" false 0, .enter "a" .released, .mark ⟨"a", .released, false⟩,
    .finish ⟨"a", .released, true⟩, .recover "b" "worker gone" 4500000]

theorem leases_held_twoLeases :
    let w := twoLeases.foldl (LeaseWorld.perform defaultQuotaConfig fun _ => true) .initial
    let hist := performed (LeaseWorld.perform defaultQuotaConfig fun _ => true) .initial twoLeases
    (w.store.holders.keys.length : ℤ) ≤ 32 ∧
      (∀ k ∈ w.leases.keys, k ∈ w.store.holders.keys ∨ ProvenFinished hist k ∨
        ReclaimedOldEnough defaultQuotaConfig (fun _ => true) hist k) ∧
      ∀ e ∈ hist, ∀ k ∈ e.1.store.holders.keys,
        k ∉ (e.1.perform defaultQuotaConfig (fun _ => true) e.2).store.holders.keys →
        e.2.leaseId = some k := by
  refine leases_held rfl (run_performed twoLeases _ ?_)
  intro e he
  simp only [twoLeases, performed, List.mem_cons, List.not_mem_nil, or_false] at he
  rcases he with rfl | rfl | rfl | rfl | rfl | rfl
  · exact List.not_mem_nil
  · show "b" ∉ _
    decide +kernel
  · show "a" ∈ _
    decide +kernel
  · exact ⟨by decide +kernel, rfl⟩
  · exact ⟨by decide +kernel, rfl⟩
  · trivial

/-- A worker lifetime that asks for a fraction of a millisecond. -/
def fractionConfig : QuotaConfig :=
  { defaultQuotaConfig with workerMaxLifetimeSeconds := 3600 + 1 / 2048, lifetime_pos := by norm_num }

def reclaimedLease : List LeaseOperation := [.acquire "a" false 0, .recover "a" "worker gone" 4500000]

/-- The minimum is 4500.0006… seconds; the lease is reclaimed at 4500, since the floor drops the fraction. -/
theorem reclaimed_below_minimum :
    ¬∀ hist w, Run (LeaseStep fractionConfig fun _ => true) .initial hist w → ∀ k ∈ w.leases.keys,
      k ∈ w.store.holders.keys ∨ ProvenFinished hist k ∨
        ∃ e ∈ hist, ∃ reason nowMs acquiredMs, e.2 = .recover k reason nowMs ∧
          AcquiredAt fractionConfig hist k acquiredMs ∧
          fractionConfig.minimumAbandonedLeaseReclaimSeconds ≤ ((nowMs - acquiredMs : ℤ) : ℚ) / 1000 := by
  intro h
  have hrun : ∀ e ∈ performed (LeaseWorld.perform fractionConfig fun _ => true) .initial reclaimedLease,
      e.2.Enabled e.1 := by
    intro e he
    simp only [reclaimedLease, performed, List.mem_cons, List.not_mem_nil, or_false] at he
    rcases he with rfl | rfl
    · exact List.not_mem_nil
    · trivial
  have hops : ∀ e ∈ performed (LeaseWorld.perform fractionConfig fun _ => true) .initial reclaimedLease,
      e.2 = .acquire "a" false 0 ∨ e.2 = .recover "a" "worker gone" 4500000 := by
    intro e he
    simp only [reclaimedLease, performed, List.mem_cons, List.not_mem_nil, or_false] at he
    rcases he with rfl | rfl
    · exact Or.inl rfl
    · exact Or.inr rfl
  rcases h _ _ (run_performed reclaimedLease _ hrun) "a" (by decide +kernel) with hheld | hproven | hreclaimed
  · exact absurd hheld (by decide +kernel)
  · obtain ⟨e, he, call, hop, -⟩ := hproven
    rcases hops e he with hfirst | hfirst <;> cases hfirst.symm.trans hop
  · obtain ⟨e, he, reason, nowMs, acquiredMs, hop, ⟨e', he', paused, hop', -⟩, hold⟩ := hreclaimed
    rcases hops e he with hfirst | hfirst <;> cases hfirst.symm.trans hop
    rcases hops e' he' with hfirst' | hfirst' <;> cases hfirst'.symm.trans hop'
    exact absurd hold (by decide +kernel)

end Milo.Quota
