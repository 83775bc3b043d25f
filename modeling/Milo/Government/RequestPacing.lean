import Milo.Reasoning.Transition

/-!
# RequestPacing — the sends of one register client

`DataGovClient._request` sends, reads the answer and waits before it sends again; `_pace` holds every send
back until the interval has passed since the send before it.  Seconds are exact rationals, the clock is the
monotonic one, and a sleep takes at least the seconds it was asked for.
-/

namespace Milo.Government

open Milo.Reasoning

/-! ## 1. The client -/

/-- The bounds a client is built with. -/
structure PacingConfig where
  maxAttempts : ℕ
  one_le_maxAttempts : 1 ≤ maxAttempts
  backoff : List ℚ
  throttleBackoff : List ℚ
  minRequestInterval : ℚ
  minRequestInterval_nonneg : 0 ≤ minRequestInterval

/-- Where a client stands in `_request`, with the transient and the throttled answers so far. -/
inductive RequestPhase
  | idle
  | ready (transient throttled : ℕ)
  | sent (transient throttled : ℕ)
  deriving DecidableEq

/-- `sends` are the starts of all sends, `requestSends` counts those of the last request. -/
structure PacedClient where
  now : ℚ
  lastSend : Option ℚ
  waitedSinceSend : ℚ
  phase : RequestPhase
  sends : List ℚ
  requestSends : ℕ
  deriving DecidableEq

def PacedClient.fresh (now : ℚ) : PacedClient := ⟨now, none, 0, .idle, [], 0⟩

/-- What a send comes to: an accepted envelope or any other exception ends the request, a transport failure or a
transient 5xx is sent again, and so is the firewall's answer (429, or a 403 page). -/
inductive SendAnswer
  | ended
  | transient
  | throttled
  deriving DecidableEq

/-- What a sleep adds to the clock; it takes `extra` seconds more than it was asked for. -/
def slept (seconds extra : ℚ) : ℚ := max 0 seconds + extra

/-- The counters after answers of one kind. -/
def SendAnswer.counts : SendAnswer → ℕ → ℕ × ℕ
  | .ended, _ => (0, 0)
  | .transient, count => (count, 0)
  | .throttled, count => (0, count)

namespace PacingConfig

variable (config : PacingConfig)

/-- The backoff after the given number of transient answers; the last entry repeats. -/
def backoffAfter (transient : ℕ) : ℚ := config.backoff.getD (min transient config.backoff.length - 1) 0

/-- The wait before the next send and the counters after it, or none when the failure is raised. -/
def waitAfter (transient throttled : ℕ) : SendAnswer → Option (ℚ × ℕ × ℕ)
  | .ended => none
  | .throttled => (config.throttleBackoff[throttled]?).map fun wait => (wait, transient, throttled + 1)
  | .transient =>
    if transient + 1 ≥ config.maxAttempts then none
    else some (config.backoffAfter (transient + 1), transient + 1, throttled)

/-- `_pace`: when the next send of the client starts. -/
def paced (client : PacedClient) (extra : ℚ) : ℚ :=
  match client.lastSend with
  | none => client.now
  | some last =>
    let remaining := last + config.minRequestInterval - client.now - client.waitedSinceSend
    if remaining > 0 then client.now + slept remaining extra else client.now

end PacingConfig

inductive ClientEvent
  /-- Time passes outside the client's own sleeps. -/
  | elapse (seconds : ℚ)
  /-- `_request` is entered. -/
  | request
  /-- `_check_cancelled` raises. -/
  | cancelled
  /-- `_pace`, then the transport sends. -/
  | send (extra : ℚ)
  /-- The answer is read; `before_retry` may refuse the wait. -/
  | answer (kind : SendAnswer) (refused : Bool) (extra : ℚ)

namespace PacingConfig

variable (config : PacingConfig)

def exec (client : PacedClient) : ClientEvent → PacedClient
  | .elapse seconds => { client with now := client.now + seconds }
  | .request => { client with phase := .ready 0 0, requestSends := 0 }
  | .cancelled => { client with phase := .idle }
  | .send extra =>
    match client.phase with
    | .ready transient throttled =>
      let start := config.paced client extra
      { now := start, lastSend := some start, waitedSinceSend := 0, phase := .sent transient throttled
        sends := client.sends ++ [start], requestSends := client.requestSends + 1 }
    | _ => client
  | .answer kind refused extra =>
    match client.phase with
    | .sent transient throttled =>
      match config.waitAfter transient throttled kind with
      | none => { client with phase := .idle }
      | some (wait, transient, throttled) =>
        if refused then { client with phase := .idle }
        else { client with now := client.now + slept wait extra, waitedSinceSend := client.waitedSinceSend + wait
                           phase := .ready transient throttled }
    | _ => client

/-- What the client may do next; no clock goes back. -/
def Allowed (client : PacedClient) : ClientEvent → Prop
  | .elapse seconds => 0 ≤ seconds
  | .request => client.phase = .idle
  | .cancelled => ∃ transient throttled, client.phase = .ready transient throttled
  | .send extra => (∃ transient throttled, client.phase = .ready transient throttled) ∧ 0 ≤ extra
  | .answer _ _ extra => (∃ transient throttled, client.phase = .sent transient throttled) ∧ 0 ≤ extra

def Step (config : PacingConfig) : PacedClient → ClientEvent → PacedClient → Prop := Performs Allowed config.exec

/-- Each send starts at least the interval after the send before it. -/
def Spaced (client : PacedClient) : Prop := client.sends.IsChain fun earlier later => earlier + config.minRequestInterval ≤ later

/-- A wait that holds nothing back, or holds back the whole interval. -/
def Rests (wait : ℚ) : Prop := wait ≤ 0 ∨ config.minRequestInterval ≤ wait

/-- Every wait the schedules can ask for. -/
def waits : List ℚ :=
  (List.range (config.maxAttempts - 1)).map (fun k => config.backoffAfter (k + 1)) ++ config.throttleBackoff

end PacingConfig

/-! ## 2. One step -/

section Steps

variable {config : PacingConfig} {client client' : PacedClient} {wait extra : ℚ} {transient throttled : ℕ}

theorem slept_nonneg (hextra : 0 ≤ extra) : 0 ≤ slept wait extra := add_nonneg (le_max_left _ _) hextra

theorem le_slept (hextra : 0 ≤ extra) : wait ≤ slept wait extra :=
  le_add_of_le_of_nonneg (le_max_right _ _) hextra

/-- The wait after an answer is one of the schedules', and the counters stay within them. -/
theorem waitAfter_eq_some {kind : SendAnswer} {after after' : ℕ}
    (h : config.waitAfter transient throttled kind = some (wait, after, after')) :
    wait ∈ config.waits ∧ after + after' = transient + throttled + 1 ∧
      (transient < config.maxAttempts → after < config.maxAttempts) ∧
      (throttled ≤ config.throttleBackoff.length → after' ≤ config.throttleBackoff.length) := by
  cases kind with
  | ended => cases h
  | throttled =>
    obtain ⟨found, hfound, heq⟩ := Option.map_eq_some_iff.mp h
    cases heq
    obtain ⟨hlt, -⟩ := List.getElem?_eq_some_iff.mp hfound
    refine ⟨List.mem_append_right _ (List.mem_of_getElem? hfound), by omega, fun hlt => hlt, fun _ => by omega⟩
  | transient =>
    change (if transient + 1 ≥ config.maxAttempts then none else some _) = _ at h
    by_cases hlt : transient + 1 ≥ config.maxAttempts
    · rw [if_pos hlt] at h
      cases h
    · rw [if_neg hlt] at h
      cases h
      refine ⟨List.mem_append_left _ (List.mem_map.mpr ⟨transient, List.mem_range.mpr ?_, rfl⟩), by omega, ?_, ?_⟩
      · omega
      · exact fun _ => by omega
      · exact fun hle => hle

/-- Every wait of the schedules is asked for after some answers of one kind. -/
theorem exists_waitAfter_of_mem_waits (h : wait ∈ config.waits) : ∃ (kind : SendAnswer) (count : ℕ),
    (∀ k < count, ∃ w, config.waitAfter (kind.counts k).1 (kind.counts k).2 kind = some (w, kind.counts (k + 1))) ∧
      config.waitAfter (kind.counts count).1 (kind.counts count).2 kind = some (wait, kind.counts (count + 1)) := by
  rcases List.mem_append.mp h with hbackoff | hthrottle
  · obtain ⟨count, hcount, rfl⟩ := List.mem_map.mp hbackoff
    have hlt := List.mem_range.mp hcount
    have hwait : ∀ k ≤ count, config.waitAfter k 0 .transient = some (config.backoffAfter (k + 1), k + 1, 0) := by
      intro k hk
      show (if k + 1 ≥ config.maxAttempts then none else _) = _
      exact if_neg (by omega)
    exact ⟨.transient, count, fun k hk => ⟨_, hwait k hk.le⟩, hwait count le_rfl⟩
  · obtain ⟨count, hcount⟩ := List.mem_iff_getElem?.mp hthrottle
    obtain ⟨hlt, -⟩ := List.getElem?_eq_some_iff.mp hcount
    refine ⟨.throttled, count, fun k hk => ?_, ?_⟩
    · have hk : k < config.throttleBackoff.length := by omega
      refine ⟨config.throttleBackoff[k], ?_⟩
      show (config.throttleBackoff[k]?).map _ = _
      rw [List.getElem?_eq_getElem hk]
      rfl
    · show (config.throttleBackoff[count]?).map _ = _
      rw [hcount]
      rfl

/-- A send after rest starts no earlier than the interval after the send before it. -/
theorem le_paced {last : ℚ} (hlast : client.lastSend = some last) (hrests : config.Rests client.waitedSinceSend)
    (hwaited : last + client.waitedSinceSend ≤ client.now) (hextra : 0 ≤ extra) :
    last + config.minRequestInterval ≤ config.paced client extra := by
  have hslept := @le_slept (last + config.minRequestInterval - client.now - client.waitedSinceSend) extra hextra
  have hnonneg := @slept_nonneg (last + config.minRequestInterval - client.now - client.waitedSinceSend) extra hextra
  unfold PacingConfig.paced
  rw [hlast]
  dsimp only
  rcases hrests with hzero | hwhole
  · split <;> linarith
  · split <;> linarith

/-- A wait shorter than the interval is taken off it twice. -/
theorem paced_of_short {last : ℚ} (hlast : client.lastSend = some last) (hnow : client.now = last + wait)
    (hwaited : client.waitedSinceSend = wait) (hpos : 0 < wait) (hshort : wait < config.minRequestInterval) :
    config.paced client 0 < last + config.minRequestInterval := by
  unfold PacingConfig.paced
  rw [hlast]
  dsimp only
  split
  · rename_i hremaining
    rw [slept, max_eq_right hremaining.le]
    linarith
  · linarith

end Steps

/-! ## 3. Runs -/

section Runs

variable {config : PacingConfig} {client client' : PacedClient} {event : ClientEvent}
  {hist : List (PacedClient × ClientEvent)} {start : ℚ}

/-- The sends so far are spaced, and what the client waited since the last one is counted once at most. -/
structure Rested (config : PacingConfig) (client : PacedClient) : Prop where
  spaced : config.Spaced client
  last : client.sends.getLast? = client.lastSend
  rests : ∀ last ∈ client.lastSend, last ≤ client.now ∧ last + client.waitedSinceSend ≤ client.now ∧
    config.Rests client.waitedSinceSend
  sent : ∀ transient throttled, client.phase = .sent transient throttled → client.waitedSinceSend = 0

theorem rested_fresh : Rested config (.fresh start) where
  spaced := List.isChain_nil
  last := rfl
  rests := fun _ h => by cases h
  sent := fun _ _ h => by cases h

theorem Rested.step (hwaits : ∀ wait ∈ config.waits, config.Rests wait) (h : Rested config client)
    (hstep : config.Step client event client') : Rested config client' := by
  obtain ⟨hallowed, rfl⟩ := hstep
  cases event with
  | elapse seconds =>
    have hseconds : 0 ≤ seconds := hallowed
    refine ⟨h.spaced, h.last, fun last hlast => ?_, h.sent⟩
    obtain ⟨hnow, hwaited, hrests⟩ := h.rests last hlast
    exact ⟨le_add_of_le_of_nonneg hnow hseconds, le_add_of_le_of_nonneg hwaited hseconds, hrests⟩
  | request => exact ⟨h.spaced, h.last, h.rests, fun _ _ hphase => (by cases hphase)⟩
  | cancelled => exact ⟨h.spaced, h.last, h.rests, fun _ _ hphase => (by cases hphase)⟩
  | send extra =>
    obtain ⟨⟨transient, throttled, hphase⟩, hextra⟩ := hallowed
    unfold PacingConfig.exec
    rw [hphase]
    dsimp only
    refine ⟨?_, List.getLast?_concat, fun last hlast => ?_, fun _ _ _ => rfl⟩
    · refine List.isChain_append.mpr ⟨h.spaced, List.isChain_singleton _, ?_⟩
      intro earlier hearlier later hlater
      rw [h.last] at hearlier
      obtain ⟨-, hwaited, hrests⟩ := h.rests earlier hearlier
      rw [← Option.some.inj hlater]
      exact le_paced (Option.mem_def.mp hearlier) hrests hwaited hextra
    · rw [← Option.some.inj hlast]
      exact ⟨le_refl _, by rw [add_zero], Or.inl le_rfl⟩
  | answer kind refused extra =>
    obtain ⟨⟨transient, throttled, hphase⟩, hextra⟩ := hallowed
    unfold PacingConfig.exec
    rw [hphase]
    dsimp only
    split
    · exact ⟨h.spaced, h.last, h.rests, fun _ _ hidle => (by cases hidle)⟩
    · rename_i wait after after' hwait
      split
      · exact ⟨h.spaced, h.last, h.rests, fun _ _ hidle => (by cases hidle)⟩
      · -- Since the last send the client waited only this once.
        have hnone := h.sent _ _ hphase
        refine ⟨h.spaced, h.last, fun last hlast => ?_, fun _ _ hready => (by cases hready)⟩
        obtain ⟨hnow, -, -⟩ := h.rests last hlast
        have hslept := @le_slept wait extra hextra
        have hnonneg := @slept_nonneg wait extra hextra
        dsimp only
        rw [hnone, zero_add]
        exact ⟨by linarith, by linarith, hwaits wait (waitAfter_eq_some hwait).1⟩

/-- Where the client stands in a request, and the sends that took it there. -/
structure Counted (config : PacingConfig) (client : PacedClient) : Prop where
  idle : client.phase = .idle → client.requestSends ≤ config.maxAttempts + config.throttleBackoff.length
  ready : ∀ transient throttled, client.phase = .ready transient throttled →
    client.requestSends = transient + throttled ∧ transient < config.maxAttempts ∧
      throttled ≤ config.throttleBackoff.length
  sent : ∀ transient throttled, client.phase = .sent transient throttled →
    client.requestSends = transient + throttled + 1 ∧ transient < config.maxAttempts ∧
      throttled ≤ config.throttleBackoff.length

theorem Counted.of_idle (hphase : client.phase = .idle)
    (h : client.requestSends ≤ config.maxAttempts + config.throttleBackoff.length) : Counted config client where
  idle := fun _ => h
  ready := fun _ _ hready => by rw [hphase] at hready; cases hready
  sent := fun _ _ hsent => by rw [hphase] at hsent; cases hsent

theorem Counted.le (h : Counted config client) :
    client.requestSends ≤ config.maxAttempts + config.throttleBackoff.length := by
  cases hphase : client.phase with
  | idle => exact h.idle hphase
  | ready transient throttled =>
    obtain ⟨hsends, hlt, hle⟩ := h.ready _ _ hphase
    omega
  | sent transient throttled =>
    obtain ⟨hsends, hlt, hle⟩ := h.sent _ _ hphase
    omega

theorem Counted.step (h : Counted config client) (hstep : config.Step client event client') : Counted config client' := by
  obtain ⟨hallowed, rfl⟩ := hstep
  cases event with
  | elapse seconds => exact ⟨h.idle, h.ready, h.sent⟩
  | request =>
    refine ⟨fun hidle => (by cases hidle), fun transient throttled hready => ?_, fun _ _ hsent => (by cases hsent)⟩
    cases hready
    exact ⟨rfl, config.one_le_maxAttempts, Nat.zero_le _⟩
  | cancelled => exact Counted.of_idle rfl h.le
  | send extra =>
    obtain ⟨⟨transient, throttled, hphase⟩, hextra⟩ := hallowed
    obtain ⟨hsends, hlt, hle⟩ := h.ready _ _ hphase
    unfold PacingConfig.exec
    rw [hphase]
    dsimp only
    refine ⟨fun hidle => (by cases hidle), fun _ _ hready => (by cases hready), fun _ _ hsent => ?_⟩
    cases hsent
    exact ⟨by show client.requestSends + 1 = _; omega, hlt, hle⟩
  | answer kind refused extra =>
    obtain ⟨⟨transient, throttled, hphase⟩, hextra⟩ := hallowed
    obtain ⟨hsends, hlt, hle⟩ := h.sent _ _ hphase
    unfold PacingConfig.exec
    rw [hphase]
    dsimp only
    split
    · exact Counted.of_idle rfl h.le
    · rename_i wait after after' hwait
      obtain ⟨-, hsum, hafter, hafter'⟩ := waitAfter_eq_some hwait
      split
      · exact Counted.of_idle rfl h.le
      · refine ⟨fun hidle => (by cases hidle), fun _ _ hready => ?_, fun _ _ hsent => (by cases hsent)⟩
        cases hready
        exact ⟨by show client.requestSends = _; omega, hafter hlt, hafter' hle⟩

theorem run_counted (hrun : Run config.Step (.fresh start) hist client) : Counted config client :=
  hrun.invariant (Counted.of_idle rfl (Nat.zero_le _)) fun _ _ _ h hstep => h.step hstep

theorem step_request (h : client.phase = .idle) : config.Step client .request (config.exec client .request) := ⟨h, rfl⟩

theorem step_send {transient throttled : ℕ} (h : client.phase = .ready transient throttled) :
    config.Step client (.send 0) (config.exec client (.send 0)) := ⟨⟨⟨_, _, h⟩, le_rfl⟩, rfl⟩

theorem step_answer {transient throttled : ℕ} (kind : SendAnswer) (h : client.phase = .sent transient throttled) :
    config.Step client (.answer kind false 0) (config.exec client (.answer kind false 0)) :=
  ⟨⟨⟨_, _, h⟩, le_rfl⟩, rfl⟩

/-- A run takes the client to its place after some answers of one kind. -/
theorem run_answered {kind : SendAnswer} {count : ℕ} (start : ℚ)
    (h : ∀ k < count, ∃ wait, config.waitAfter (kind.counts k).1 (kind.counts k).2 kind = some (wait, kind.counts (k + 1))) :
    ∃ hist client, Run config.Step (.fresh start) hist client ∧
      client.phase = .ready (kind.counts count).1 (kind.counts count).2 := by
  induction count with
  | zero =>
    refine ⟨_, _, Run.single (step_request rfl), ?_⟩
    cases kind <;> rfl
  | succ count ih =>
    obtain ⟨hist, client, hrun, hphase⟩ := ih fun k hk => h k (Nat.lt_succ_of_lt hk)
    obtain ⟨wait, hwait⟩ := h count (Nat.lt_succ_self count)
    have hsent : (config.exec client (.send 0)).phase = .sent (kind.counts count).1 (kind.counts count).2 := by
      unfold PacingConfig.exec
      rw [hphase]
    refine ⟨_, _, (hrun.snoc (step_send hphase)).snoc (step_answer kind hsent), ?_⟩
    unfold PacingConfig.exec at hsent ⊢
    dsimp only at hsent ⊢
    rw [hsent]
    dsimp only
    rw [hwait]
    rfl

/-- A wait shorter than the interval brings the next send too early. -/
theorem run_not_spaced {wait : ℚ} (start : ℚ) (hwait : wait ∈ config.waits) (h : ¬config.Rests wait) :
    ∃ hist client, Run config.Step (.fresh start) hist client ∧ ¬config.Spaced client := by
  obtain ⟨hpos, hshort⟩ : 0 < wait ∧ wait < config.minRequestInterval := by
    rw [PacingConfig.Rests, not_or, not_le, not_le] at h
    exact h
  obtain ⟨kind, count, hbefore, hlast⟩ := exists_waitAfter_of_mem_waits hwait
  obtain ⟨hist, client, hrun, hphase⟩ := run_answered start hbefore
  obtain ⟨first, hfirst⟩ : ∃ first, first = config.paced client 0 := ⟨_, rfl⟩
  have hsent : config.exec client (.send 0) =
      { now := first, lastSend := some first, waitedSinceSend := 0
        phase := .sent (kind.counts count).1 (kind.counts count).2
        sends := client.sends ++ [first], requestSends := client.requestSends + 1 } := by
    unfold PacingConfig.exec
    rw [hphase, hfirst]
  have hsend := @step_send config _ _ _ hphase
  rw [hsent] at hsend
  have hrested : config.exec ⟨first, some first, 0, .sent (kind.counts count).1 (kind.counts count).2,
      client.sends ++ [first], client.requestSends + 1⟩ (.answer kind false 0) =
      { now := first + wait, lastSend := some first, waitedSinceSend := wait
        phase := .ready (kind.counts (count + 1)).1 (kind.counts (count + 1)).2
        sends := client.sends ++ [first], requestSends := client.requestSends + 1 } := by
    unfold PacingConfig.exec
    dsimp only
    rw [hlast]
    dsimp only
    rw [slept, max_eq_right hpos.le, add_zero, zero_add, if_neg Bool.false_ne_true]
  have hanswer := @step_answer config ⟨first, some first, 0, .sent (kind.counts count).1 (kind.counts count).2,
    client.sends ++ [first], client.requestSends + 1⟩ _ _ kind rfl
  rw [hrested] at hanswer
  refine ⟨_, _, ((hrun.snoc hsend).snoc hanswer).snoc (step_send rfl), ?_⟩
  -- The next send starts before the interval has passed.
  intro hspaced
  have hnext := (List.isChain_append.mp hspaced).2.2 first (by simp) _ rfl
  have hearly := @paced_of_short config ⟨first + wait, some first, wait,
    .ready (kind.counts (count + 1)).1 (kind.counts (count + 1)).2, client.sends ++ [first], client.requestSends + 1⟩
    wait first rfl rfl rfl hpos hshort
  linarith

end Runs

/-! ## 4. Every send is paced -/

/-- What the pacing of a client's sends comes to. -/
structure PacesSends (config : PacingConfig) : Prop where
  spaced : (∀ start hist client, Run config.Step (.fresh start) hist client → config.Spaced client) ↔
    ∀ wait ∈ config.waits, config.Rests wait
  bounded : ∀ start hist client, Run config.Step (.fresh start) hist client →
    client.requestSends ≤ config.maxAttempts + config.throttleBackoff.length

theorem pacesSends (config : PacingConfig) : PacesSends config where
  spaced := by
    constructor
    · intro h wait hwait
      by_contra hrests
      obtain ⟨hist, client, hrun, hnot⟩ := run_not_spaced 0 hwait hrests
      exact hnot (h 0 hist client hrun)
    · intro h start hist client hrun
      exact (hrun.invariant rested_fresh fun _ _ _ hrested hstep => hrested.step h hstep).spaced
  bounded := fun _ _ _ hrun => (run_counted hrun).le

theorem shortBackoff_interval : (0 : ℚ) ≤ 3 := by norm_num

/-- An interval of three seconds, a backoff of one. -/
def shortBackoff : PacingConfig where
  maxAttempts := 2
  one_le_maxAttempts := by decide
  backoff := [1]
  throttleBackoff := []
  minRequestInterval := 3
  minRequestInterval_nonneg := shortBackoff_interval

theorem retry_early : ¬∀ (config : PacingConfig) (start : ℚ) (hist : List (PacedClient × ClientEvent)) (client : PacedClient),
    Run config.Step (.fresh start) hist client → config.Spaced client := by
  intro h
  have hshort : ¬shortBackoff.Rests 1 := by
    rintro (hle | hle)
    · norm_num at hle
    · unfold shortBackoff at hle
      norm_num at hle
  obtain ⟨hist, client, hrun, hnot⟩ := run_not_spaced 0 (show (1 : ℚ) ∈ shortBackoff.waits by decide) hshort
  exact hnot (h shortBackoff 0 hist client hrun)

end Milo.Government
