import Milo.Reasoning.Dict
import Milo.Reasoning.Transition

/-!
# Pause — provider feedback on the two quota backends

A pause of a dimension is stored as the moment it ends.  The memory backend keeps the latest of
all ends it was told; the Upstash backend overwrites one Redis key with the end it was told last,
and lets the key expire on its own.  Times are milliseconds of one clock that never goes back.
-/

namespace Milo.Quota

open Milo.Reasoning

/-! ## 1. The two backends -/

/-- `MemoryQuotaBackend._pauses`: key ↦ the moment the pause ends. -/
abbrev MemoryPauses : Type := Dict String ℤ

namespace MemoryPauses

def setPause (pauses : MemoryPauses) (key : String) (untilMs : ℤ) : MemoryPauses :=
  pauses.set key (max ((pauses.get? key).getD 0) untilMs)

def pauseRemaining (pauses : MemoryPauses) (key : String) (nowMs : ℤ) : ℚ :=
  max 0 ((((pauses.get? key).getD 0 - nowMs : ℤ) : ℚ) / 1000)

end MemoryPauses

/-- One Redis string with the moment its time to live has passed. -/
structure RedisString where
  value : ℤ
  expiresAt : ℤ
  deriving DecidableEq

abbrev RedisStore : Type := Dict String RedisString

namespace RedisStore

/-- `SET key value PX ttl`, executed at `now`: whatever the key held is replaced. -/
def setPx (store : RedisStore) (key : String) (value ttl now : ℤ) : RedisStore :=
  store.set key ⟨value, now + ttl⟩

/-- `GET key`: an expired key reads as absent. -/
def get (store : RedisStore) (key : String) (now : ℤ) : Option ℤ :=
  match store.get? key with
  | none => none
  | some entry => if now < entry.expiresAt then some entry.value else none

/-- `UpstashQuotaBackend.set_pause`: PX takes a duration of at least one millisecond. -/
def setPause (store : RedisStore) (key : String) (untilMs nowMs : ℤ) : RedisStore :=
  store.setPx key untilMs (max 1 (untilMs - nowMs)) nowMs

def pauseRemaining (store : RedisStore) (key : String) (nowMs : ℤ) : ℚ :=
  max 0 ((((store.get key nowMs).getD 0 - nowMs : ℤ) : ℚ) / 1000)

end RedisStore

/-! ## 2. The coordinator's signals -/

/-- What a caller may do to the pauses: the backend calls, and the coordinator's two signals. -/
inductive PauseOperation
  | setPause (key : String) (untilMs : ℤ)
  | pauseRemaining (key : String)
  | pause (dimension : String) (seconds : ℚ)
  | recordRateLimitSignal (dimension : String) (retryAfter : Option ℚ)

/-- `ProviderQuotaCoordinator._key` of a pause. -/
def pauseKey (scope dimension : String) : String :=
  "milo:pq:" ++ scope ++ ":pause:" ++ dimension

/-- `retry_after or 1.0`. -/
def retrySeconds (retryAfter : Option ℚ) : ℚ :=
  match retryAfter with
  | none => 1
  | some seconds => if seconds = 0 then 1 else seconds

/-- `ProviderQuotaCoordinator.pause`: the backend call it makes, if any. -/
def pauseCall (scope dimension : String) (seconds : ℚ) (nowMs : ℤ) : Option (String × ℤ) :=
  if max 0 seconds ≤ 0 then none
  else some (pauseKey scope dimension, nowMs + ⌊max 0 seconds * 1000⌋)

/-- The `set_pause` call an operation makes at `now`. -/
def PauseOperation.sets (scope : String) (nowMs : ℤ) : PauseOperation → Option (String × ℤ)
  | .setPause key untilMs => some (key, untilMs)
  | .pauseRemaining _ => none
  | .pause dimension seconds => pauseCall scope dimension seconds nowMs
  | .recordRateLimitSignal dimension retryAfter =>
    pauseCall scope dimension (retrySeconds retryAfter) nowMs

/-! ## 3. Both backends side by side -/

/-- Both backends after the same calls, the clock, and every end set so far, latest first. -/
structure Paused where
  memory : MemoryPauses
  upstash : RedisStore
  now : ℤ
  signals : List (String × ℤ)

def Paused.initial : Paused := ⟨.empty, .empty, 0, []⟩

/-- The end a later signal may not move forward: the maximum of those set for the key. -/
def maxUntil (key : String) : List (String × ℤ) → ℤ
  | [] => 0
  | (k, untilMs) :: signals => if k = key then max untilMs (maxUntil key signals)
    else maxUntil key signals

/-- The end the last signal for the key set. -/
def lastUntil (key : String) : List (String × ℤ) → ℤ
  | [] => 0
  | (k, untilMs) :: signals => if k = key then untilMs else lastUntil key signals

def Paused.perform (scope : String) (s : Paused) (call : ℤ × PauseOperation) : Paused :=
  match call.2.sets scope call.1 with
  | none => { s with now := call.1 }
  | some (key, untilMs) =>
    { memory := s.memory.setPause key untilMs
      upstash := s.upstash.setPause key untilMs call.1
      now := call.1
      signals := (key, untilMs) :: s.signals }

/-- One call on both backends, at a time not before the last one. -/
def PauseStep (scope : String) : Paused → ℤ × PauseOperation → Paused → Prop :=
  Performs (fun s call => s.now ≤ call.1) (Paused.perform scope)

/-- From now on both backends report the same remaining pause: what the longest signal demanded. -/
def Narrowing (s : Paused) : Prop :=
  ∀ key nowMs, s.now ≤ nowMs →
    s.upstash.pauseRemaining key nowMs = s.memory.pauseRemaining key nowMs ∧
    s.memory.pauseRemaining key nowMs = max 0 (((maxUntil key s.signals - nowMs : ℤ) : ℚ) / 1000)

/-- The new end is not before the longest one in force, or no pause is in force any more. -/
def KeepsPause (scope : String) (s : Paused) (call : ℤ × PauseOperation) : Prop :=
  ∀ key untilMs, call.2.sets scope call.1 = some (key, untilMs) →
    maxUntil key s.signals ≤ untilMs ∨ maxUntil key s.signals ≤ call.1

/-! ## 4. What the backends hold -/

/-- The memory backend holds the longest end; Upstash holds the last one, until it has passed. -/
structure Paused.Tracks (s : Paused) : Prop where
  memory : ∀ key, (s.memory.get? key).getD 0 = maxUntil key s.signals
  upstash : ∀ key, (∃ entry, s.upstash.get? key = some entry ∧
      entry.value = lastUntil key s.signals ∧ entry.value ≤ entry.expiresAt) ∨
    (s.upstash.get? key = none ∧ lastUntil key s.signals = 0)
  clock : 0 ≤ s.now

theorem Paused.initial_tracks : Paused.initial.Tracks where
  memory := fun _ => rfl
  upstash := fun _ => Or.inr ⟨rfl, rfl⟩
  clock := le_rfl

theorem lastUntil_le_maxUntil (key : String) (signals : List (String × ℤ)) :
    lastUntil key signals ≤ maxUntil key signals := by
  induction signals with
  | nil => exact le_rfl
  | cons signal signals ih =>
    unfold lastUntil maxUntil
    split
    · exact le_max_left _ _
    · exact ih

variable {s : Paused}

theorem tracks_step {scope : String} {s' : Paused} {call : ℤ × PauseOperation} (h : s.Tracks)
    (hstep : PauseStep scope s call s') : s'.Tracks := by
  rcases hstep with ⟨hclock, rfl⟩
  have hnow : 0 ≤ call.1 := h.clock.trans hclock
  unfold Paused.perform
  split
  · exact ⟨h.memory, h.upstash, hnow⟩
  · rename_i key untilMs _
    constructor
    · intro other
      show ((s.memory.set key _).get? other).getD 0 = maxUntil other ((key, untilMs) :: s.signals)
      rw [Dict.get?_set, maxUntil]
      by_cases hkey : other = key
      · rw [if_pos hkey, if_pos hkey.symm, Option.getD_some, h.memory, hkey, max_comm]
      · rw [if_neg hkey, if_neg (Ne.symm hkey), h.memory]
    · intro other
      show (∃ entry, (s.upstash.set key _).get? other = some entry ∧
          entry.value = lastUntil other ((key, untilMs) :: s.signals) ∧ _) ∨
        ((s.upstash.set key _).get? other = none ∧ _)
      rw [Dict.get?_set, lastUntil]
      by_cases hkey : other = key
      · rw [if_pos hkey, if_pos hkey.symm]
        refine Or.inl ⟨_, rfl, rfl, ?_⟩
        show untilMs ≤ call.1 + max 1 (untilMs - call.1)
        omega
      · rw [if_neg hkey, if_neg (Ne.symm hkey)]
        exact h.upstash other
    · exact hnow

/-- Expiry is invisible: from the clock on, Upstash reports what is left of the last end. -/
theorem upstash_remaining (h : s.Tracks) (key : String) {nowMs : ℤ} (hnow : s.now ≤ nowMs) :
    s.upstash.pauseRemaining key nowMs =
      max 0 (((lastUntil key s.signals - nowMs : ℤ) : ℚ) / 1000) := by
  have hpos : 0 ≤ nowMs := h.clock.trans hnow
  have hpast : ∀ untilMs : ℤ, untilMs ≤ nowMs →
      max 0 (((untilMs - nowMs : ℤ) : ℚ) / 1000) = 0 := by
    intro untilMs hle
    have hcast : ((untilMs - nowMs : ℤ) : ℚ) ≤ 0 := by exact_mod_cast sub_nonpos.mpr hle
    exact max_eq_left (by linarith)
  unfold RedisStore.pauseRemaining RedisStore.get
  rcases h.upstash key with ⟨entry, hget, hvalue, hexpires⟩ | ⟨hget, hlast⟩
  · rw [hget]
    simp only
    by_cases hlive : nowMs < entry.expiresAt
    · rw [if_pos hlive, Option.getD_some, hvalue]
    · rw [if_neg hlive, Option.getD_none, hpast 0 hpos, ← hvalue,
        hpast entry.value (hexpires.trans (not_lt.mp hlive))]
  · rw [hget, hlast]
    rfl

theorem memory_remaining (h : s.Tracks) (key : String) (nowMs : ℤ) :
    s.memory.pauseRemaining key nowMs =
      max 0 (((maxUntil key s.signals - nowMs : ℤ) : ℚ) / 1000) := by
  unfold MemoryPauses.pauseRemaining
  rw [h.memory]

/-- Two ends leave the same pause from `now` on exactly if they are equal or both have passed. -/
theorem remaining_eq_iff {a b now : ℤ} (hab : a ≤ b) :
    (∀ nowMs, now ≤ nowMs →
      max 0 (((a - nowMs : ℤ) : ℚ) / 1000) = max 0 (((b - nowMs : ℤ) : ℚ) / 1000)) ↔
      a = b ∨ b ≤ now := by
  constructor
  · intro hall
    by_contra hne
    rw [not_or, not_le] at hne
    have hb : (0 : ℚ) < ((b - now : ℤ) : ℚ) / 1000 := by
      have hcast : (0 : ℚ) < ((b - now : ℤ) : ℚ) := by exact_mod_cast sub_pos.mpr hne.2
      linarith
    have hlt : ((a - now : ℤ) : ℚ) / 1000 < ((b - now : ℤ) : ℚ) / 1000 := by
      have hcast : ((a - now : ℤ) : ℚ) < ((b - now : ℤ) : ℚ) := by
        exact_mod_cast sub_lt_sub_right (lt_of_le_of_ne hab hne.1) now
      linarith
    have heq := hall now le_rfl
    rw [max_eq_right hb.le] at heq
    exact absurd heq (ne_of_lt (max_lt hb hlt))
  · intro h nowMs hnow
    rcases h with rfl | hpast
    · rfl
    · have ha : ((a - nowMs : ℤ) : ℚ) ≤ 0 := by
        exact_mod_cast sub_nonpos.mpr ((hab.trans hpast).trans hnow)
      have hb : ((b - nowMs : ℤ) : ℚ) ≤ 0 := by exact_mod_cast sub_nonpos.mpr (hpast.trans hnow)
      rw [max_eq_left (by linarith), max_eq_left (by linarith)]

/-- Upstash narrows exactly if for each key its last end is the longest one or all have passed. -/
theorem narrowing_iff (h : s.Tracks) :
    Narrowing s ↔ ∀ key, lastUntil key s.signals = maxUntil key s.signals ∨
      maxUntil key s.signals ≤ s.now := by
  constructor
  · intro hnarrow key
    apply (remaining_eq_iff (lastUntil_le_maxUntil key s.signals)).mp
    intro nowMs hnow
    rw [← upstash_remaining h key hnow, ← (hnarrow key nowMs hnow).2]
    exact (hnarrow key nowMs hnow).1
  · intro hall key nowMs hnow
    rw [upstash_remaining h key hnow, memory_remaining h key nowMs]
    exact ⟨(remaining_eq_iff (lastUntil_le_maxUntil key s.signals)).mpr (hall key) nowMs hnow, rfl⟩

/-- The step lemma: from a state in which the backends agree, a signal keeps them in agreement
    exactly if it does not shorten a pause in force. -/
theorem narrowing_step {scope : String} {s' : Paused} {call : ℤ × PauseOperation} (h : s.Tracks)
    (hnarrow : Narrowing s) (hstep : PauseStep scope s call s') : Narrowing s' ↔ KeepsPause scope s call := by
  rw [narrowing_iff (tracks_step h hstep)]
  rw [narrowing_iff h] at hnarrow
  rcases hstep with ⟨hclock, rfl⟩
  unfold Paused.perform KeepsPause
  cases hsets : call.2.sets scope call.1 with
  | none =>
    constructor
    · intro _ key untilMs hnone
      cases hnone
    · intro _ key
      exact (hnarrow key).imp id fun hpast => hpast.trans hclock
  | some signal =>
    rcases signal with ⟨key, untilMs⟩
    simp only [lastUntil, maxUntil]
    constructor
    · intro hall key' untilMs' heq
      cases heq
      rcases hall key with hkept | hpast
      · rw [if_pos rfl, if_pos rfl] at hkept
        exact Or.inl (hkept ▸ le_max_right _ _)
      · rw [if_pos rfl] at hpast
        exact Or.inr ((le_max_right _ _).trans hpast)
    · intro hkeeps other
      by_cases hkey : key = other
      · rw [if_pos hkey, if_pos hkey, ← hkey]
        rcases hkeeps key untilMs rfl with hle | hpast
        · exact Or.inl (max_eq_left hle).symm
        · by_cases hle : maxUntil key s.signals ≤ untilMs
          · exact Or.inl (max_eq_left hle).symm
          · exact Or.inr (max_le ((not_le.mp hle).le.trans hpast) hpast)
      · rw [if_neg hkey, if_neg hkey]
        exact (hnarrow other).imp id fun hpast => hpast.trans hclock

theorem Paused.initial_narrowing : Narrowing Paused.initial := by
  rw [narrowing_iff Paused.initial_tracks]
  exact fun _ => Or.inl rfl

/-- The backends report the same remaining pause in every state of a run exactly if no signal of
    the run ends earlier than a pause still in force. -/
theorem narrowing_throughout_iff (scope : String) {s : Paused}
    {hist : List (Paused × (ℤ × PauseOperation))}
    (hrun : Run (PauseStep scope) Paused.initial hist s) :
    Throughout Narrowing hist s ↔ ∀ e ∈ hist, KeepsPause scope e.1 e.2 :=
  hrun.throughout_iff Paused.initial_tracks Paused.initial_narrowing
    (fun _ _ _ h hstep => tracks_step h hstep)
    (fun _ _ _ h hnarrow hstep => narrowing_step h hnarrow hstep)

/-! ## 5. A second, shorter signal -/

/-- A provider 429 that asks for a minute, and one a second later that asks for a second. -/
def shorterSignal : List (ℤ × PauseOperation) :=
  [(1000, .recordRateLimitSignal "inference" (some 60)),
    (2000, .recordRateLimitSignal "inference" (some 1))]

def afterSignals (calls : List (ℤ × PauseOperation)) : Paused :=
  calls.foldl (Paused.perform "kimi") Paused.initial

theorem shorterSignal_run : Run (PauseStep "kimi") Paused.initial
    (performed (Paused.perform "kimi") Paused.initial shorterSignal) (afterSignals shorterSignal) := by
  apply run_performed
  intro e he
  simp only [shorterSignal, performed, List.mem_cons, List.not_mem_nil, or_false] at he
  rcases he with rfl | rfl
  · exact (by decide : (0 : ℤ) ≤ 1000)
  · exact (by decide : (1000 : ℤ) ≤ 2000)

theorem narrowing_throughout_iff_shorterSignal :
    Throughout Narrowing (performed (Paused.perform "kimi") Paused.initial shorterSignal)
        (afterSignals shorterSignal) ↔
      ∀ e ∈ performed (Paused.perform "kimi") Paused.initial shorterSignal,
        KeepsPause "kimi" e.1 e.2 :=
  narrowing_throughout_iff "kimi" shorterSignal_run

/-- Ten seconds into a pause of a minute Upstash admits again. -/
theorem narrowing_broken :
    ¬ ∀ (scope : String) (s : Paused) (hist : List (Paused × (ℤ × PauseOperation))),
      Run (PauseStep scope) Paused.initial hist s →
      ∀ key nowMs, s.now ≤ nowMs →
        s.upstash.pauseRemaining key nowMs = s.memory.pauseRemaining key nowMs ∧
        s.upstash.pauseRemaining key nowMs =
          max 0 (((maxUntil key s.signals - nowMs : ℤ) : ℚ) / 1000) := by
  intro hclaim
  have hagree := (hclaim "kimi" _ _ shorterSignal_run (pauseKey "kimi" "inference") 11000
    (by decide +kernel)).1
  have hupstash : (afterSignals shorterSignal).upstash.pauseRemaining
      (pauseKey "kimi" "inference") 11000 = 0 := by decide +kernel
  have hmemory : (afterSignals shorterSignal).memory.pauseRemaining
      (pauseKey "kimi" "inference") 11000 = 50 := by decide +kernel
  rw [hupstash, hmemory] at hagree
  norm_num at hagree

end Milo.Quota
