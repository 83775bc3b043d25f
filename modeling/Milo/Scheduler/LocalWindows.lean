import Milo.Quota.AdmissionWindow
import Milo.Scheduler.ProviderScheduler

/-!
# LocalWindows — the rolling windows of one scheduler

`ProviderScheduler._try_admit` keeps the starts of the requests and of the tokens it let through.  Both
are limiters of one rolling window; a call is refused for one of them, or for both.
-/

namespace Milo.Scheduler

open Milo.Reasoning Milo.Quota

/-! ## 1. Runs of `_try_admit` -/

/-- One call of `_try_admit`, with the surroundings it asks. -/
structure AdmitCall (Exc α : Type) where
  env : SchedulerSurroundings Exc α
  estimatedTokens : ℕ

section Runs

variable {Exc α : Type}

abbrev AdmitHistory (Exc α : Type) : Type := List (SchedulerWorld Exc × AdmitCall Exc α)

def AdmitStep (cfg : ProviderLimitsConfig) :
    SchedulerWorld Exc → AdmitCall Exc α → SchedulerWorld Exc → Prop :=
  Performs (fun _ _ => True) fun w call => (tryAdmit cfg call.env call.estimatedTokens).after w

/-- What the clock says when the call is made. -/
def calledAt (e : SchedulerWorld Exc × AdmitCall Exc α) : ℚ := e.2.env.clock e.1.asked

/-- The delay `_try_admit` answers. -/
def answeredDelay (cfg : ProviderLimitsConfig) (e : SchedulerWorld Exc × AdmitCall Exc α) : Option ℚ :=
  ((tryAdmit cfg e.2.env e.2.estimatedTokens).result e.1).toOption

def admittedCalls (cfg : ProviderLimitsConfig) (hist : AdmitHistory Exc α) : AdmitHistory Exc α :=
  hist.filter fun e => decide (answeredDelay cfg e = some 0)

def requestLog (cfg : ProviderLimitsConfig) (hist : AdmitHistory Exc α) : List (ℚ × ℕ) :=
  (admittedCalls cfg hist).map fun e => (calledAt e, 1)

def tokenLog (cfg : ProviderLimitsConfig) (hist : AdmitHistory Exc α) : List (ℚ × ℕ) :=
  ((admittedCalls cfg hist).filter fun e => decide (e.2.estimatedTokens > 0)).map fun e =>
    (calledAt e, e.2.estimatedTokens)

/-- The clock does not go back. -/
def ClockForward (hist : AdmitHistory Exc α) : Prop :=
  hist.Pairwise fun a b => calledAt a ≤ calledAt b

variable {cfg : ProviderLimitsConfig} {hist : AdmitHistory Exc α} {w : SchedulerWorld Exc}

theorem ClockForward.of_append {later : AdmitHistory Exc α} (h : ClockForward (hist ++ later)) :
    ClockForward hist := h.sublist (List.sublist_append_left _ _)

variable {e : SchedulerWorld Exc × AdmitCall Exc α} {limit : ℕ} {starts : List ℚ}

theorem ClockForward.last (h : ClockForward (hist ++ [e])) : ∀ t ∈ hist.map calledAt, t ≤ calledAt e := by
  intro t ht
  obtain ⟨x, hx, rfl⟩ := List.mem_map.mp ht
  exact (List.pairwise_append.mp h).2.2 x hx e (by simp)

/-- The delay of one call at an instant, over the starts it still counts. -/
def delayAt (cfg : ProviderLimitsConfig) (now : ℚ) (tokens : ℕ) (w : SchedulerWorld Exc) : ℚ :=
  max (requestDelay cfg now (prune now w).requestStarts)
    (tokenDelay cfg now tokens (prune now w).tokenStarts)

/-- What one call does: without a delay it enters both windows, and otherwise it only prunes them. -/
theorem tryAdmit_cases (cfg : ProviderLimitsConfig) (e : SchedulerWorld Exc × AdmitCall Exc α) :
    (delayAt cfg (calledAt e) e.2.estimatedTokens e.1 ≤ 0 ∧ answeredDelay cfg e = some 0 ∧
        ((tryAdmit cfg e.2.env e.2.estimatedTokens).after e.1).requestStarts =
          (prune (calledAt e) e.1).requestStarts ++ [calledAt e] ∧
        ((tryAdmit cfg e.2.env e.2.estimatedTokens).after e.1).tokenStarts =
          (prune (calledAt e) e.1).tokenStarts ++
            if e.2.estimatedTokens > 0 then [(calledAt e, e.2.estimatedTokens)] else []) ∨
      (0 < delayAt cfg (calledAt e) e.2.estimatedTokens e.1 ∧
        answeredDelay cfg e =
          some (max (delayAt cfg (calledAt e) e.2.estimatedTokens e.1) (1 / 1000)) ∧
        ((tryAdmit cfg e.2.env e.2.estimatedTokens).after e.1).requestStarts =
          (prune (calledAt e) e.1).requestStarts ∧
        ((tryAdmit cfg e.2.env e.2.estimatedTokens).after e.1).tokenStarts =
          (prune (calledAt e) e.1).tokenStarts) := by
  obtain ⟨w, call⟩ := e
  have hrun : tryAdmit cfg call.env call.estimatedTokens w =
      (if delayAt cfg (call.env.clock w.asked) call.estimatedTokens w > 0 then
          (pure (max (delayAt cfg (call.env.clock w.asked) call.estimatedTokens w) (1 / 1000)) :
            Scheduling Exc ℚ)
        else do
          Action.modify fun kept =>
            { kept with
              requestStarts := kept.requestStarts ++ [call.env.clock w.asked]
              tokenStarts := if call.estimatedTokens > 0 then
                  kept.tokenStarts ++ [(call.env.clock w.asked, call.estimatedTokens)]
                else kept.tokenStarts }
          pure 0) (prune (call.env.clock w.asked) { w with asked := w.asked + 1 }) := rfl
  unfold answeredDelay Action.result Action.after
  rw [hrun]
  by_cases hdelay : delayAt cfg (call.env.clock w.asked) call.estimatedTokens w > 0
  · rw [if_pos hdelay]
    exact Or.inr ⟨hdelay, rfl, rfl, rfl⟩
  · rw [if_neg hdelay]
    refine Or.inl ⟨not_lt.mp hdelay, rfl, rfl, ?_⟩
    show (if call.estimatedTokens > 0 then _ else _) = _
    split
    · rfl
    · exact (List.append_nil _).symm

/-! ## 2. The two limiters -/

/-- The counted requests as stamped weights. -/
def stampedRequests (starts : List ℚ) : List (ℚ × ℕ) := starts.map fun start => (start, 1)

theorem weightOf_stampedRequests (starts : List ℚ) :
    weightOf (stampedRequests starts) = starts.length := by
  unfold weightOf stampedRequests
  rw [List.map_map]
  induction starts with
  | nil => rfl
  | cons start rest ih =>
    rw [List.map_cons, List.sum_cons, ih, List.length_cons]
    exact Nat.add_comm _ _

theorem prune_tokens (now : ℚ) (h : w.tokenStarts.Pairwise fun a b => a.1 ≤ b.1) :
    (prune now w).tokenStarts = stampedAfter (now - windowSeconds) w.tokenStarts := by
  rw [← dropWhile_eq_stampedAfter h]
  have hsame : (fun start : ℚ × ℕ => decide (now - start.1 ≥ windowSeconds)) =
      fun start => decide (start.1 ≤ now - windowSeconds) := by
    funext start
    rw [decide_eq_decide]
    constructor <;> intro hle <;> linarith
  show w.tokenStarts.dropWhile _ = _
  rw [hsame]

theorem prune_requests (now : ℚ)
    (h : (stampedRequests w.requestStarts).Pairwise fun a b => a.1 ≤ b.1) :
    stampedRequests (prune now w).requestStarts =
      stampedAfter (now - windowSeconds) (stampedRequests w.requestStarts) := by
  rw [← dropWhile_eq_stampedAfter h]
  have hsame : (fun start : ℚ => decide (now - start ≥ windowSeconds)) =
      fun start => decide (start ≤ now - windowSeconds) := by
    funext start
    rw [decide_eq_decide]
    constructor <;> intro hle <;> linarith
  show stampedRequests (w.requestStarts.dropWhile _) = _
  unfold stampedRequests
  rw [hsame, List.dropWhile_map]
  rfl

theorem requestDelay_nonpos {now : ℚ} (hlimit : cfg.rpmLimit = some limit) (hpos : 0 < limit)
    (hlive : ∀ start ∈ starts, now - windowSeconds < start) (h : requestDelay cfg now starts ≤ 0) :
    starts.length + 1 ≤ limit := by
  cases starts with
  | nil => exact hpos
  | cons first rest =>
    by_contra hfull
    have hroom : (first :: rest).length ≥ limit := by omega
    have hdelay : requestDelay cfg now (first :: rest) = max 0 (windowSeconds - (now - first)) := by
      unfold requestDelay
      rw [hlimit]
      exact if_pos hroom
    have hfirst := hlive first List.mem_cons_self
    have hwait : 0 < windowSeconds - (now - first) := by linarith
    rw [hdelay, max_eq_right hwait.le] at h
    exact absurd hwait (not_lt.mpr h)

theorem tokenDelay_nonpos {tokens : ℕ} {now : ℚ} {starts : List (ℚ × ℕ)} (hlimit : cfg.tpmLimit = some limit)
    (hfits : tokens ≤ limit) (hpos : tokens > 0) (hlive : ∀ start ∈ starts, now - windowSeconds < start.1)
    (h : tokenDelay cfg now tokens starts ≤ 0) : weightOf starts + tokens ≤ limit := by
  cases starts with
  | nil => exact (Nat.zero_add tokens).le.trans hfits
  | cons first rest =>
    by_contra hfull
    have hover : tokens > 0 ∧ ((first :: rest).map Prod.snd).sum + tokens > limit :=
      ⟨hpos, not_le.mp hfull⟩
    have hdelay : tokenDelay cfg now tokens (first :: rest) =
        max 0 (windowSeconds - (now - first.1)) := by
      unfold tokenDelay
      rw [hlimit]
      exact if_pos hover
    have hfirst := hlive first List.mem_cons_self
    have hwait : 0 < windowSeconds - (now - first.1) := by linarith
    rw [hdelay, max_eq_right hwait.le] at h
    exact absurd hwait (not_lt.mpr h)

/-- A delay of the request window names its limit and the start it waits for. -/
theorem requestDelay_pos {now : ℚ} (h : 0 < requestDelay cfg now starts) :
    ∃ limit first, cfg.rpmLimit = some limit ∧ first ∈ starts ∧ limit ≤ starts.length ∧
      first + windowSeconds = now + requestDelay cfg now starts := by
  unfold requestDelay at h ⊢
  cases hlimit : cfg.rpmLimit with
  | none =>
    rw [hlimit] at h
    exact absurd h (lt_irrefl 0)
  | some limit =>
    rw [hlimit] at h
    cases starts with
    | nil => exact absurd h (lt_irrefl 0)
    | cons first rest =>
      dsimp only at h ⊢
      split at h
      · rename_i hfull
        have hwait : max 0 (windowSeconds - (now - first)) = windowSeconds - (now - first) :=
          max_eq_right (le_of_lt (by simpa using h))
        refine ⟨limit, first, rfl, List.mem_cons_self, hfull, ?_⟩
        rw [if_pos hfull, hwait]
        ring
      · exact absurd h (lt_irrefl 0)

theorem tokenDelay_pos {now : ℚ} {tokens : ℕ} {starts : List (ℚ × ℕ)}
    (h : 0 < tokenDelay cfg now tokens starts) :
    ∃ limit, ∃ first ∈ starts, cfg.tpmLimit = some limit ∧ limit < weightOf starts + tokens ∧
      first.1 + windowSeconds = now + tokenDelay cfg now tokens starts := by
  unfold tokenDelay at h ⊢
  cases hlimit : cfg.tpmLimit with
  | none =>
    rw [hlimit] at h
    exact absurd h (lt_irrefl 0)
  | some limit =>
    rw [hlimit] at h
    cases starts with
    | nil => exact absurd h (lt_irrefl 0)
    | cons first rest =>
      dsimp only at h ⊢
      split at h
      · rename_i hover
        have hwait : max 0 (windowSeconds - (now - first.1)) = windowSeconds - (now - first.1) :=
          max_eq_right (le_of_lt (by simpa using h))
        refine ⟨limit, first, List.mem_cons_self, rfl, hover.2, ?_⟩
        rw [if_pos hover, hwait]
        ring
      · exact absurd h (lt_irrefl 0)

/-! ## 3. The logs behind the windows -/

theorem mem_stampedRequests {start : ℚ} (h : start ∈ starts) : (start, 1) ∈ stampedRequests starts :=
  List.mem_map.mpr ⟨start, h, rfl⟩

theorem admittedCalls_append (hist later : AdmitHistory Exc α) :
    admittedCalls cfg (hist ++ later) = admittedCalls cfg hist ++ admittedCalls cfg later :=
  List.filter_append _ _

theorem requestLog_snoc (e : SchedulerWorld Exc × AdmitCall Exc α) :
    requestLog cfg (hist ++ [e]) = requestLog cfg hist ++
      if answeredDelay cfg e = some 0 then [(calledAt e, 1)] else [] := by
  unfold requestLog
  rw [admittedCalls_append, List.map_append]
  by_cases h : answeredDelay cfg e = some 0
  · simp [admittedCalls, h]
  · simp [admittedCalls, h]

theorem tokenLog_snoc (e : SchedulerWorld Exc × AdmitCall Exc α) :
    tokenLog cfg (hist ++ [e]) = tokenLog cfg hist ++
      if answeredDelay cfg e = some 0 ∧ e.2.estimatedTokens > 0 then
        [(calledAt e, e.2.estimatedTokens)] else [] := by
  unfold tokenLog
  rw [admittedCalls_append, List.filter_append, List.map_append]
  by_cases h : answeredDelay cfg e = some 0
  · by_cases hpos : e.2.estimatedTokens > 0
    · simp [admittedCalls, h, hpos]
    · simp [admittedCalls, h, Nat.eq_zero_of_not_pos hpos]
  · simp [admittedCalls, h]

theorem answeredDelay_ne_zero {delay : ℚ} (h : 0 < delay) : some (max delay (1 / 1000)) ≠ some 0 := by
  intro heq
  have hle := le_max_left delay (1 / 1000)
  rw [Option.some.inj heq] at hle
  exact absurd h (not_lt.mpr hle)

theorem requests_tracked (hlimit : cfg.rpmLimit = some limit) (hpos : 0 < limit)
    (hrun : Run (AdmitStep cfg) (SchedulerWorld.initial Exc) hist w) :
    ClockForward hist → Tracks windowSeconds limit (hist.map calledAt)
      (stampedRequests w.requestStarts) (requestLog cfg hist) := by
  refine hrun.history_invariant (J := fun hist w => ClockForward hist → Tracks windowSeconds limit
    (hist.map calledAt) (stampedRequests w.requestStarts) (requestLog cfg hist)) (fun _ => .nil) ?_
  intro hist w call _ _ ih hstep hclock
  obtain ⟨-, rfl⟩ := hstep
  have hbefore := ih hclock.of_append
  have hnow := hclock.last
  have hkept := prune_requests (calledAt (w, call)) hbefore.sorted
  rw [requestLog_snoc, List.map_append]
  rcases tryAdmit_cases cfg (w, call) with ⟨hdelay, hzero, hstarts, -⟩ | ⟨hdelay, hlate, hstarts, -⟩
  · rw [if_pos hzero, hstarts]
    have hlive : ∀ start ∈ (prune (calledAt (w, call)) w).requestStarts,
        calledAt (w, call) - windowSeconds < start := by
      intro start hstart
      have hmem := mem_stampedRequests hstart
      rw [hkept] at hmem
      exact (List.mem_filter.mp hmem).2 |> of_decide_eq_true
    have hroom := requestDelay_nonpos hlimit hpos hlive (le_trans (le_max_left _ _) hdelay)
    have hsplit : stampedRequests ((prune (calledAt (w, call)) w).requestStarts ++
        [calledAt (w, call)]) = stampedAfter (calledAt (w, call) - windowSeconds)
          (stampedRequests w.requestStarts) ++ [(calledAt (w, call), 1)] := by
      rw [← hkept]
      exact List.map_append
    rw [hsplit]
    apply hbefore.admission hnow
    rw [← hkept, weightOf_stampedRequests]
    exact hroom
  · rw [if_neg (hlate ▸ answeredDelay_ne_zero hdelay), List.append_nil, hstarts, hkept]
    exact hbefore.look _

theorem tokens_tracked (hlimit : cfg.tpmLimit = some limit)
    (hrun : Run (AdmitStep cfg) (SchedulerWorld.initial Exc) hist w) :
    ClockForward hist → (∀ e ∈ hist, e.2.estimatedTokens ≤ limit) →
      Tracks windowSeconds limit (hist.map calledAt) w.tokenStarts (tokenLog cfg hist) := by
  refine hrun.history_invariant (J := fun hist w => ClockForward hist →
    (∀ e ∈ hist, e.2.estimatedTokens ≤ limit) →
      Tracks windowSeconds limit (hist.map calledAt) w.tokenStarts (tokenLog cfg hist))
    (fun _ _ => .nil) ?_
  intro hist w call _ _ ih hstep hclock hfits
  obtain ⟨-, rfl⟩ := hstep
  have hbefore := ih hclock.of_append fun e he => hfits e (List.mem_append_left _ he)
  have hnow := hclock.last
  have hkept := prune_tokens (calledAt (w, call)) hbefore.sorted
  have hown : call.estimatedTokens ≤ limit := hfits (w, call) (by simp)
  rw [tokenLog_snoc, List.map_append]
  rcases tryAdmit_cases cfg (w, call) with ⟨hdelay, hzero, -, hstarts⟩ | ⟨hdelay, hlate, -, hstarts⟩
  · rw [hstarts, hkept]
    by_cases hpos : call.estimatedTokens > 0
    · have hboth : answeredDelay cfg (w, call) = some 0 ∧ call.estimatedTokens > 0 := ⟨hzero, hpos⟩
      rw [if_pos hpos, if_pos hboth]
      have hlive : ∀ start ∈ (prune (calledAt (w, call)) w).tokenStarts,
          calledAt (w, call) - windowSeconds < start.1 := by
        intro start hstart
        rw [hkept] at hstart
        exact (List.mem_filter.mp hstart).2 |> of_decide_eq_true
      have hroom := tokenDelay_nonpos hlimit hown hpos hlive (le_trans (le_max_right _ _) hdelay)
      rw [hkept] at hroom
      exact hbefore.admission hnow hroom
    · rw [if_neg hpos, if_neg fun h => hpos h.2, List.append_nil, List.append_nil]
      exact hbefore.look _
  · rw [if_neg fun h => answeredDelay_ne_zero hdelay (hlate ▸ h.1), List.append_nil, hstarts, hkept]
    exact hbefore.look _

/-! ## 4. Admission is exact -/

/-- A refusal: the request does not fit one of the windows, and something that is counted has left its
    window after the delay. -/
structure LocalRefusal (cfg : ProviderLimitsConfig) (earlier : AdmitHistory Exc α) (now : ℚ) (tokens : ℕ)
    (delay : ℚ) : Prop where
  exceeds : (∃ limit ∈ cfg.rpmLimit, limit < load windowSeconds now (requestLog cfg earlier) + 1) ∨
    ∃ limit ∈ cfg.tpmLimit, limit < load windowSeconds now (tokenLog cfg earlier) + tokens
  expires : ∃ counted, (counted ∈ inWindow windowSeconds now (requestLog cfg earlier) ∨
    counted ∈ inWindow windowSeconds now (tokenLog cfg earlier)) ∧ counted.1 + windowSeconds ≤ now + delay

/-- The calls `_admit` makes: none asks for more tokens than the token window holds. -/
def WithinTokenLimit (cfg : ProviderLimitsConfig) (hist : AdmitHistory Exc α) : Prop :=
  ∀ e ∈ hist, ∀ limit ∈ cfg.tpmLimit, e.2.estimatedTokens ≤ limit

theorem localRefusal {earlier : AdmitHistory Exc α} (hlimits : ∀ limit ∈ cfg.rpmLimit, 0 < limit)
    (hrun : Run (AdmitStep cfg) (SchedulerWorld.initial Exc) earlier e.1) (hclock : ClockForward (earlier ++ [e]))
    (hfits : WithinTokenLimit cfg earlier) {delay : ℚ} (hanswer : answeredDelay cfg e = some delay)
    (hdelay : delay ≠ 0) : LocalRefusal cfg earlier (calledAt e) e.2.estimatedTokens delay := by
  have hnow := hclock.last
  rcases tryAdmit_cases cfg e with ⟨-, hzero, -⟩ | ⟨hpos, hlate, -⟩
  · rw [hzero] at hanswer
    exact absurd (Option.some.inj hanswer).symm hdelay
  · have hbound : delayAt cfg (calledAt e) e.2.estimatedTokens e.1 ≤ delay := by
      rw [← Option.some.inj (hlate.symm.trans hanswer)]
      exact le_max_left _ _
    rcases lt_max_iff.mp hpos with hrequests | htokens
    · obtain ⟨limit, first, hlimit, hfirst, hfull, hwait⟩ := requestDelay_pos hrequests
      have htracks := requests_tracked hlimit (hlimits limit hlimit) hrun hclock.of_append
      have hcounted := (prune_requests (calledAt e) htracks.sorted).trans (htracks.counted hnow)
      refine ⟨Or.inl ⟨limit, hlimit, ?_⟩, (first, 1), Or.inl ?_, ?_⟩
      · unfold load
        rw [← hcounted, weightOf_stampedRequests]
        omega
      · rw [← hcounted]
        exact mem_stampedRequests hfirst
      · rw [hwait]
        have hle := le_trans (le_max_left _ _) hbound
        linarith
    · obtain ⟨limit, first, hfirst, hlimit, hover, hwait⟩ := tokenDelay_pos htokens
      have htracks := tokens_tracked hlimit hrun hclock.of_append fun x hx => hfits x hx limit hlimit
      have hcounted := (prune_tokens (calledAt e) htracks.sorted).trans (htracks.counted hnow)
      refine ⟨Or.inr ⟨limit, hlimit, ?_⟩, first, Or.inr ?_, ?_⟩
      · unfold load
        rw [← hcounted]
        exact hover
      · rw [← hcounted]
        exact hfirst
      · rw [hwait]
        have hle := le_trans (le_max_right _ _) hbound
        linarith

/-- Over any run of `_try_admit`, the windows hold at most their limits, and only what would exceed one
    of them is refused. -/
structure LocallyExact (cfg : ProviderLimitsConfig) (hist : AdmitHistory Exc α) : Prop where
  requests : ∀ limit ∈ cfg.rpmLimit, ∀ t, load windowSeconds t (requestLog cfg hist) ≤ limit
  tokens : ∀ limit ∈ cfg.tpmLimit, ∀ t, load windowSeconds t (tokenLog cfg hist) ≤ limit
  refused : ∀ earlier e later, hist = earlier ++ e :: later → ∀ delay,
    answeredDelay cfg e = some delay → delay ≠ 0 →
    LocalRefusal cfg earlier (calledAt e) e.2.estimatedTokens delay

theorem tryAdmit_exact (hlimits : ∀ limit ∈ cfg.rpmLimit, 0 < limit)
    (hrun : Run (AdmitStep cfg) (SchedulerWorld.initial Exc) hist w) (hclock : ClockForward hist)
    (hfits : WithinTokenLimit cfg hist) : LocallyExact cfg hist where
  requests limit hlimit := (requests_tracked hlimit (hlimits limit hlimit) hrun hclock).fits.load_le
  tokens limit hlimit :=
    (tokens_tracked hlimit hrun hclock fun e he => hfits e he limit hlimit).fits.load_le
  refused earlier e later hsplit delay hanswer hdelay := by
    have hupto : ClockForward (earlier ++ [e]) := by
      rw [hsplit, List.append_cons] at hclock
      exact hclock.of_append
    have hearlier : WithinTokenLimit cfg earlier := by
      intro x hx
      apply hfits x
      rw [hsplit]
      exact List.mem_append_left _ hx
    exact localRefusal hlimits (hrun.before hsplit) hupto hearlier hanswer hdelay

end Runs

/-- Both limiters are exact: the shared backend on each of its keys, and each scheduler for itself. -/
theorem windows_exact :
    (∀ (hist : WindowHistory) (windows : MemoryWindows) (key : String) (limit : ℕ) (windowMs : ℤ),
      Run WindowStep Dict.empty hist windows → SteadyCalls key limit windowMs hist →
      KeyExact key limit windowMs hist) ∧
    ∀ (Exc α : Type) (cfg : ProviderLimitsConfig) (hist : AdmitHistory Exc α) (w : SchedulerWorld Exc),
      (∀ limit ∈ cfg.rpmLimit, 0 < limit) → Run (AdmitStep cfg) (SchedulerWorld.initial Exc) hist w →
      ClockForward hist → WithinTokenLimit cfg hist → LocallyExact cfg hist :=
  ⟨fun _ _ _ _ _ hrun hsteady => admitWindow_exact hrun hsteady,
    fun _ _ _ _ _ hlimits hrun hclock hfits => tryAdmit_exact hlimits hrun hclock hfits⟩

/-! ### A full window, and a request larger than the window -/

/-- Surroundings whose clock says `now` and which answer nothing else of interest. -/
def clockSurroundings (now : ℚ) : SchedulerSurroundings Unit Unit where
  coordinated := false
  cancelled _ := false
  clock _ := now
  slotFree _ := true
  acquire _ := .granted
  admission _ := .admitted
  removal _ := .done
  diagnostic _ := none
  probeStart _ := none
  signal _ := none
  callback _ := none
  call _ := .ok ()
  rng _ := 0
  classifyOutcome _ := ⟨.unknown, none, false, "", none⟩
  isException _ := true
  rounds := 1

def fiveTokens : ProviderLimitsConfig := { defaultProviderLimits with rpmLimit := some 2, tpmLimit := some 5 }

/-- Two requests within a minute fill the request window; the third is refused. -/
def threeRequests : List (AdmitCall Unit Unit) :=
  [⟨clockSurroundings 0, 2⟩, ⟨clockSurroundings 10, 3⟩, ⟨clockSurroundings 20, 1⟩]

/-- A request of more tokens than the window holds, past `_admit`. -/
def sixTokens : List (AdmitCall Unit Unit) := [⟨clockSurroundings 0, 6⟩]

def admitHistory (calls : List (AdmitCall Unit Unit)) : AdmitHistory Unit Unit :=
  performed (fun w call => (tryAdmit fiveTokens call.env call.estimatedTokens).after w)
    (SchedulerWorld.initial Unit) calls

theorem admitHistory_run (calls : List (AdmitCall Unit Unit)) :
    Run (AdmitStep fiveTokens) (SchedulerWorld.initial Unit) (admitHistory calls)
      (calls.foldl (fun w call => (tryAdmit fiveTokens call.env call.estimatedTokens).after w)
        (SchedulerWorld.initial Unit)) :=
  run_performed calls _ fun _ _ => trivial

/-- Three units, then a weight that no longer fits. -/
def twoWeights : List WindowCall := [⟨"tpm", "a", 5, 60000, 0, 3⟩, ⟨"tpm", "b", 5, 60000, 1000, 4⟩]

def sixUnits : List WindowCall := [⟨"tpm", "a", 5, 60000, 0, 6⟩]

def windowHistory (calls : List WindowCall) : WindowHistory :=
  performed (fun windows call => (admitWindow windows call).2) Dict.empty calls

theorem windowHistory_run (calls : List WindowCall) :
    Run WindowStep Dict.empty (windowHistory calls)
      (calls.foldl (fun windows call => (admitWindow windows call).2) Dict.empty) :=
  run_performed calls _ fun _ _ => trivial

theorem steadyCalls_twoWeights : SteadyCalls "tpm" 5 60000 (windowHistory twoWeights) :=
  ⟨by decide +kernel, by decide +kernel, by decide +kernel⟩

theorem windows_exact_twoWeights :
    KeyExact "tpm" 5 60000 (windowHistory twoWeights) ∧
      LocallyExact fiveTokens (admitHistory threeRequests) := by
  refine ⟨windows_exact.1 _ _ _ _ _ (windowHistory_run twoWeights) steadyCalls_twoWeights,
    windows_exact.2 _ _ _ _ _ ?_ (admitHistory_run threeRequests) ?_ ?_⟩
  · decide
  · show (admitHistory threeRequests).Pairwise _
    decide +kernel
  · show ∀ e ∈ admitHistory threeRequests, ∀ limit ∈ fiveTokens.tpmLimit, _
    decide +kernel

/-- What is larger than its window waits for nothing on the shared backend, and a scheduler that has no
    tokens in flight lets it through. -/
theorem not_exact_sixUnits :
    (¬ ∀ (hist : WindowHistory) (windows : MemoryWindows) (key : String) (limit : ℕ) (windowMs : ℤ),
      Run WindowStep Dict.empty hist windows → SteadyCalls key limit windowMs hist →
      (∀ e ∈ hist, 0 < e.2.weight) → ∀ earlier e later, hist = earlier ++ e :: later → e.2.key = key →
      (admitWindow e.1 e.2).1.admitted = false →
      ∃ counted ∈ inWindow windowMs e.2.nowMs (admittedOn key earlier),
        (counted.1 : ℚ) + windowMs ≤ e.2.nowMs + 1000 * (admitWindow e.1 e.2).1.retrySeconds) ∧
    ¬ ∀ (Exc α : Type) (cfg : ProviderLimitsConfig) (hist : AdmitHistory Exc α)
      (w : SchedulerWorld Exc), (∀ limit ∈ cfg.rpmLimit, 0 < limit) →
      Run (AdmitStep cfg) (SchedulerWorld.initial Exc) hist w → ClockForward hist →
      ∀ limit ∈ cfg.tpmLimit, ∀ t, load windowSeconds t (tokenLog cfg hist) ≤ limit := by
  apply And.intro
  · intro hclaim
    have hsteady : SteadyCalls "tpm" 5 60000 (windowHistory sixUnits) :=
      ⟨by decide +kernel, by decide +kernel, by decide +kernel⟩
    obtain ⟨counted, hcounted, -⟩ := hclaim (windowHistory sixUnits) _ "tpm" 5 60000
      (windowHistory_run sixUnits) hsteady (by decide +kernel) [] _ [] rfl rfl (by decide +kernel)
    cases hcounted
  · intro hclaim
    have hclock : ClockForward (admitHistory sixTokens) := List.pairwise_singleton _ _
    have hheld := hclaim Unit Unit fiveTokens (admitHistory sixTokens) _ (by decide)
      (admitHistory_run sixTokens) hclock 5 rfl 0
    have hload : load windowSeconds 0 (tokenLog fiveTokens (admitHistory sixTokens)) = 6 := by
      decide +kernel
    omega

end Milo.Scheduler
