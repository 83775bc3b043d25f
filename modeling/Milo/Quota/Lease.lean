import Milo.Reasoning.Dict
import Milo.Python.Text

/-!
# Lease — organization concurrency on the memory backend

The lease part of `MemoryQuotaBackend`, the coordinator's calls on it and the `InferenceLease` a
holder gets.  A lease is recorded under its own id with the moment it was acquired; an expiry of
`none` is the `inf` of a lease nothing reclaims on its own.  Times are milliseconds, durations of
the configuration are seconds.
-/

namespace Milo.Quota

open Milo.Reasoning

/-! ## 1. Configuration -/

/-- The fields of `QuotaConfig` the leases depend on, with the checks of its constructor. -/
structure QuotaConfig where
  maxConcurrency : ℤ
  workerMaxLifetimeSeconds : ℚ
  abandonedLeaseReclaimSeconds : Option ℚ
  scope : String
  concurrency_pos : 1 ≤ maxConcurrency
  lifetime_pos : 0 < workerMaxLifetimeSeconds

def leaseSafetyMarginRatio : ℚ := 1 / 4

def minLeaseSafetyMarginSeconds : ℚ := 15

def minTtlForMarginFloor : ℚ := minLeaseSafetyMarginSeconds / leaseSafetyMarginRatio

def leaseSafetyMargin (windowSeconds : ℚ) : ℚ :=
  let proportional := windowSeconds * leaseSafetyMarginRatio
  if windowSeconds ≥ minTtlForMarginFloor then max minLeaseSafetyMarginSeconds proportional
  else proportional

def minimumAbandonedLeaseReclaim (workerMaxLifetimeSeconds : ℚ) : ℚ :=
  workerMaxLifetimeSeconds + leaseSafetyMargin workerMaxLifetimeSeconds

namespace QuotaConfig

def minimumAbandonedLeaseReclaimSeconds (cfg : QuotaConfig) : ℚ :=
  minimumAbandonedLeaseReclaim cfg.workerMaxLifetimeSeconds

/-- The age floor of an operator reclaim, in the clock's own unit. -/
def reclaimFloorMs (cfg : QuotaConfig) : ℤ := ⌊cfg.minimumAbandonedLeaseReclaimSeconds * 1000⌋

/-- How long an unreleased lease is held for, `none` for indefinitely. -/
def abandonedReclaimMs (cfg : QuotaConfig) : Option ℤ :=
  cfg.abandonedLeaseReclaimSeconds.map fun seconds => ⌊seconds * 1000⌋

end QuotaConfig

/-- The first-run configuration of the source. -/
def defaultQuotaConfig : QuotaConfig where
  maxConcurrency := 32
  workerMaxLifetimeSeconds := 3600
  abandonedLeaseReclaimSeconds := none
  scope := "kimi-org"
  concurrency_pos := by decide
  lifetime_pos := by norm_num

theorem leaseSafetyMargin_whole {seconds : ℕ} (h : 60 ≤ seconds) :
    leaseSafetyMargin seconds = seconds / 4 := by
  have hlong : (60 : ℚ) ≤ seconds := by exact_mod_cast h
  have hfloor : minTtlForMarginFloor = 60 := by
    norm_num [minTtlForMarginFloor, minLeaseSafetyMarginSeconds, leaseSafetyMarginRatio]
  unfold leaseSafetyMargin
  rw [hfloor, if_pos hlong, leaseSafetyMarginRatio, minLeaseSafetyMarginSeconds, max_eq_right]
  · rw [mul_one_div]
  · rw [mul_one_div, le_div_iff₀ (by norm_num)]
    exact le_trans (by norm_num) hlong

/-- A deployment states the worker lifetime in whole seconds; the floor is then exact. -/
theorem reclaimFloorMs_whole {cfg : QuotaConfig} {seconds : ℕ} (h : 60 ≤ seconds)
    (hcfg : cfg.workerMaxLifetimeSeconds = seconds) :
    (cfg.reclaimFloorMs : ℚ) = cfg.minimumAbandonedLeaseReclaimSeconds * 1000 := by
  have hmin : cfg.minimumAbandonedLeaseReclaimSeconds * 1000 = ((1250 * seconds : ℤ) : ℚ) := by
    unfold QuotaConfig.minimumAbandonedLeaseReclaimSeconds minimumAbandonedLeaseReclaim
    rw [hcfg, leaseSafetyMargin_whole h]
    push_cast
    ring
  unfold QuotaConfig.reclaimFloorMs
  rw [hmin, Int.floor_intCast]

/-! ## 2. The backend -/

/-- `MemoryQuotaBackend`, for the coordinator's one concurrency key. -/
structure LeaseStore where
  holders : Dict String (Option ℤ)
  acquired : Dict String ℤ

def LeaseStore.empty : LeaseStore := ⟨.empty, .empty⟩

/-- `expiry <= now_ms`; an infinite expiry never is. -/
def expired (nowMs : ℤ) : Option ℤ → Bool
  | none => false
  | some expiry => expiry ≤ nowMs

inductive Recovery
  | notHeld
  | tooYoung
  | removed
  deriving DecidableEq, Repr

namespace LeaseStore

def purge (store : LeaseStore) (nowMs : ℤ) : LeaseStore where
  holders := store.holders.filter fun _ expiry => !expired nowMs expiry
  acquired := store.acquired.filter fun leaseId _ =>
    !((store.holders.get? leaseId).any (expired nowMs))

def acquireConcurrency (store : LeaseStore) (leaseId : String) (limit : ℤ) (ttlMs : Option ℤ)
    (nowMs : ℤ) : (Bool × ℤ) × LeaseStore :=
  let live := store.purge nowMs
  if (live.holders.keys.length : ℤ) ≥ limit then ((false, live.holders.keys.length), live)
  else
    let held := live.holders.set leaseId (ttlMs.map (nowMs + ·))
    ((true, held.keys.length), ⟨held, live.acquired.set leaseId nowMs⟩)

/-- An operator's reclaim: an unknown acquisition time is refused like a young lease. -/
def recoverConcurrency (store : LeaseStore) (leaseId : String) (acquiredBeforeMs : ℤ) :
    Recovery × LeaseStore :=
  if leaseId ∉ store.holders.keys then
    (.notHeld, { store with acquired := store.acquired.erase leaseId })
  else
    match store.acquired.get? leaseId with
    | none => (.tooYoung, store)
    | some acquiredMs =>
      if acquiredMs > acquiredBeforeMs then (.tooYoung, store)
      else (.removed, ⟨store.holders.erase leaseId, store.acquired.erase leaseId⟩)

def releaseConcurrency (store : LeaseStore) (leaseId : String) : Bool × LeaseStore :=
  (decide (leaseId ∈ store.holders.keys),
    ⟨store.holders.erase leaseId, store.acquired.erase leaseId⟩)

end LeaseStore

/-! ## 3. The lease and the coordinator -/

inductive LeaseOutcome
  | released
  | quarantined
  deriving DecidableEq, Repr

/-- `InferenceLease.outcome`: `none` while the lease is open. -/
abbrev LeaseState : Type := Option LeaseOutcome

/-- What `settle` does: proof releases, everything else holds. -/
def settleOutcome (provenFinished : Bool) : LeaseOutcome :=
  if provenFinished then .released else .quarantined

/-- The justification an operator records: collapsed, printable and bounded. -/
def recordedReason (isPrintable : Char → Bool) (reason : String) : List Char :=
  ((Python.joinWords (Python.words reason.toList)).filter isPrintable).take 200

inductive ReclaimAnswer
  | refused (code : String)
  | reclaimed
  deriving DecidableEq, Repr

/-- `operator_reclaim_inference`: a recorded reason, then the age check and the removal at once. -/
def operatorReclaim (cfg : QuotaConfig) (isPrintable : Char → Bool) (store : LeaseStore)
    (leaseId reason : String) (nowMs : ℤ) : ReclaimAnswer × LeaseStore :=
  if recordedReason isPrintable reason = [] then (.refused "REASON_REQUIRED", store)
  else
    match store.recoverConcurrency leaseId (nowMs - cfg.reclaimFloorMs) with
    | (.notHeld, store') => (.refused "LEASE_NOT_HELD", store')
    | (.tooYoung, store') => (.refused "LEASE_TOO_YOUNG", store')
    | (.removed, store') => (.reclaimed, store')

/-- `try_acquire_inference`: a paused dimension grants nothing. -/
def tryAcquire (cfg : QuotaConfig) (store : LeaseStore) (leaseId : String) (paused : Bool)
    (nowMs : ℤ) : Bool × LeaseStore :=
  if paused then (false, store)
  else
    let answer := store.acquireConcurrency leaseId cfg.maxConcurrency cfg.abandonedReclaimMs nowMs
    (answer.1.1, answer.2)

end Milo.Quota
