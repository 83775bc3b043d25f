import Milo.Budget.Tracker
import Milo.Reasoning.Holds
import Milo.Reasoning.Transition

/-!
# Ceilings — what one operation does to the accounts, and the token and call limits

Everything a tracker method does besides its one write to the accounts (ledger rows, durable
records, warnings, events, stopping) leaves them alone, on every exit.  From that each operation
gets a lemma that says what it can have done to the accounts, and the limits are an invariant of
those few account updates.
-/

namespace Milo.Budget

open Milo.Reasoning

/-! ## 1. What recording leaves alone -/

def SameAccounts (t t' : Tracker) : Prop := t'.toAccounts = t.toAccounts

/-- On every exit the accounts are what they were. -/
def KeepsAccounts {α : Type} (c : BudgetM α) : Prop := Action.Relates SameAccounts c

/-- A view of the tracker in which stopping, warnings and ledger versions do not show. -/
structure Quiet {γ : Type} (view : Tracker → γ) : Prop where
  stop : ∀ t stop, view { t with stop := stop } = view t
  warned : ∀ t warned, view { t with warned := warned } = view t
  version : ∀ t version, view { t with ledgerVersion := version } = view t

def SameView {γ : Type} (view : Tracker → γ) (t t' : Tracker) : Prop := view t' = view t

/-- On every exit the view is what it was. -/
def Keeps {α γ : Type} (view : Tracker → γ) (c : BudgetM α) : Prop :=
  Action.Relates (SameView view) c

/-- Everything held for calls: the accounts, and the daily reservations. -/
def Tracker.holdings (t : Tracker) : Accounts × Dict ℤ ModelCallReservation :=
  (t.toAccounts, t.reservations)

theorem quiet_toAccounts : Quiet Tracker.toAccounts :=
  ⟨fun _ _ => rfl, fun _ _ => rfl, fun _ _ => rfl⟩

theorem quiet_reservations : Quiet Tracker.reservations :=
  ⟨fun _ _ => rfl, fun _ _ => rfl, fun _ _ => rfl⟩

theorem quiet_holdings : Quiet Tracker.holdings :=
  ⟨fun _ _ => rfl, fun _ _ => rfl, fun _ _ => rfl⟩

section Frames

variable {α β γ : Type} {env : Collaborators} {view : Tracker → γ}

theorem keeps_pure (a : α) : Keeps view (pure a) :=
  Action.relates_pure (R := SameView view) (fun _ => rfl) a

theorem keeps_raise (e : BudgetError) : Keeps view (Action.raise e : BudgetM α) :=
  Action.relates_raise (R := SameView view) (fun _ => rfl) e

theorem keeps_get : Keeps view (Action.get : BudgetM Tracker) :=
  Action.relates_get (R := SameView view) fun _ => rfl

theorem Keeps.bind {c : BudgetM α} {f : α → BudgetM β} (hc : Keeps view c)
    (hf : ∀ a, Keeps view (f a)) : Keeps view (c >>= f) :=
  Action.relates_bind (R := SameView view) (fun _ _ _ h h' => Eq.trans h' h) hc hf

theorem keeps_modify {f : Tracker → Tracker} (h : ∀ t, view (f t) = view t) :
    Keeps view (Action.modify f : BudgetM Unit) :=
  Action.relates_modify h

theorem keeps_ofReply (r : Reply α) : Keeps view (ofReply r) := by
  cases r with
  | ok a => exact keeps_pure a
  | error f => exact keeps_raise _

theorem keeps_emit (event : Event) : Keeps view (emit env event) := by
  unfold emit
  split
  · exact keeps_pure _
  · exact keeps_ofReply _

theorem keeps_ledger (row : LedgerRow) : Keeps view (ledger env row) := by
  unfold ledger
  split
  · exact keeps_pure _
  · exact keeps_ofReply _

theorem keeps_record (hview : Quiet view) : Keeps view (record env) := by
  unfold record
  split
  · exact keeps_pure _
  · refine (keeps_ofReply _).bind fun version => ?_
    split
    · exact keeps_pure _
    · exact keeps_modify fun t => hview.version t _

theorem keeps_raiseStop (hview : Quiet view) (exceeded : BudgetExceeded) :
    Keeps view (raiseStop env exceeded : BudgetM α) := by
  refine Keeps.bind (keeps_get.bind fun t => ?_) fun _ => keeps_raise _
  split
  · exact keeps_pure _
  · refine Keeps.bind (keeps_modify fun t => hview.stop t _) fun _ => ?_
    exact (keeps_emit _).bind fun _ => keeps_pure _

theorem keeps_raiseReject (hview : Quiet view) (exceeded : BudgetExceeded) :
    Keeps view (raiseReject env exceeded : BudgetM α) :=
  keeps_get.bind fun _ => (keeps_ledger _).bind fun _ => keeps_raiseStop hview exceeded

theorem keeps_warnIfClose (hview : Quiet view) (name : String) (used : ℚ) (limit : Option ℚ) :
    Keeps view (warnIfClose env name used limit) := by
  refine keeps_get.bind fun t => ?_
  split
  · exact keeps_pure _
  · split
    · exact keeps_pure _
    · split
      · exact Keeps.bind (keeps_modify fun t => hview.warned t _) fun _ => keeps_emit _
      · exact keeps_pure _

theorem keeps_warnings (hview : Quiet view) (cfg : BudgetConfig) :
    Keeps view (warnings cfg env) :=
  keeps_get.bind fun _ =>
    (keeps_warnIfClose hview _ _ _).bind fun _ =>
      (keeps_warnIfClose hview _ _ _).bind fun _ =>
        (keeps_warnIfClose hview _ _ _).bind fun _ => keeps_warnIfClose hview _ _ _

theorem keeps_overage (hview : Quiet view) (seq : ℤ) (exceeded : BudgetExceeded) :
    Keeps view (overage env seq exceeded : BudgetM α) :=
  (keeps_ledger _).bind fun _ => keeps_raiseStop hview exceeded

theorem keeps_checkActuals (hview : Quiet view) (cfg : BudgetConfig) (seq : ℤ) :
    Keeps view (checkActuals cfg env seq) := by
  refine keeps_get.bind fun t => ?_
  refine Action.relates_ite (keeps_overage hview _ _) ?_
  refine Action.relates_ite (keeps_overage hview _ _) ?_
  refine Action.relates_ite (keeps_overage hview _ _) ?_
  exact Action.relates_ite (keeps_overage hview _ _) (keeps_pure _)

theorem keeps_checkSearches (hview : Quiet view) (cfg : BudgetConfig) (charged held : ℤ) :
    Keeps view (checkSearches cfg env charged held) := by
  refine keeps_get.bind fun t => ?_
  refine Action.relates_ite (keeps_raiseStop hview _) ?_
  refine Action.relates_ite (keeps_raiseReject hview _) ?_
  exact Action.relates_ite (keeps_raiseStop hview _) (keeps_pure _)

theorem keeps_diagnose (settled : Settlement) (before : Accounts) :
    Keeps view (diagnose env settled before) := by
  unfold diagnose
  split
  · exact keeps_pure _
  · exact Action.relates_ite (keeps_emit _) (keeps_pure _)

theorem keepsAccounts_settleDaily (settled : Settlement) (seq : ℤ) :
    KeepsAccounts (settleDaily env settled seq) := by
  show Keeps Tracker.toAccounts (settleDaily env settled seq)
  refine keeps_get.bind fun t => Keeps.bind (keeps_modify fun _ => rfl) fun _ => ?_
  split
  · split
    · exact keeps_pure _
    · exact Keeps.bind (keeps_modify fun _ => rfl) fun _ => keeps_raiseStop quiet_toAccounts _
    · exact keeps_raise _
  · exact keeps_pure _

end Frames

/-! ## 2. What one operation does to the accounts -/

section Effects

variable (cfg : BudgetConfig) (env : Collaborators)

/-- `openCall` either leaves what is held alone or holds the capacity of an admitted call. -/
theorem openCall_holdings (call : CallRequest) (t : Tracker) :
    ((openCall cfg env call).after t).holdings = t.holdings ∨
      ∃ adm, admitCall cfg env t call = .ok adm ∧
        ((openCall cfg env call).after t).holdings =
          (t.toAccounts.reserveCapacity cfg call adm, keepReservation adm t.reservations) := by
  unfold openCall
  rw [Action.after_get_bind]
  split
  · exact Or.inl rfl
  · cases hadm : admitCall cfg env t call with
    | error refusal =>
      cases refusal with
      | reject exceeded => exact Or.inl (keeps_raiseReject quiet_holdings exceeded t)
      | raise error => exact Or.inl rfl
    | ok adm =>
      refine Or.inr ⟨adm, rfl, ?_⟩
      have hrest : Keeps Tracker.holdings (ledger env (reservedRow cfg call adm) >>= fun _ =>
          record env >>= fun _ => pure (adm.callSeq, adm.allowedOutput)) :=
        (keeps_ledger _).bind fun _ => (keeps_record quiet_holdings).bind fun _ => keeps_pure _
      exact hrest _

theorem openCall_accounts (call : CallRequest) (t : Tracker) :
    ((openCall cfg env call).after t).toAccounts = t.toAccounts ∨
      ∃ adm, admitCall cfg env t call = .ok adm ∧
        ((openCall cfg env call).after t).toAccounts = t.toAccounts.reserveCapacity cfg call adm := by
  rcases openCall_holdings cfg env call t with hsame | ⟨adm, hadm, hheld⟩
  · exact Or.inl (congrArg Prod.fst hsame)
  · exact Or.inr ⟨adm, hadm, congrArg Prod.fst hheld⟩

/-- `settleCall` settles the daily reservation first.  If that fails nothing else happens; otherwise
    it releases what the call held and records what it used. -/
theorem settleCall_holdings (settled : Settlement) (t : Tracker) :
    ((∃ e, (settleDaily env settled (settled.seq t.toAccounts)).result t = .error e) ∧
        (settleCall cfg env settled).after t =
          (settleDaily env settled (settled.seq t.toAccounts)).after t) ∨
      ((settleDaily env settled (settled.seq t.toAccounts)).result t = .ok () ∧
        ((settleCall cfg env settled).after t).holdings =
          ((t.toAccounts.releaseCall settled).recordActuals settled,
            ((settleDaily env settled (settled.seq t.toAccounts)).after t).reservations)) := by
  unfold settleCall
  rw [Action.after_get_bind]
  have hdaily : ((settleDaily env settled (settled.seq t.toAccounts)).after t).toAccounts =
      t.toAccounts := keepsAccounts_settleDaily settled _ t
  rcases Action.after_bind_cases (c := settleDaily env settled (settled.seq t.toAccounts))
    (f := fun _ => _) t with ⟨herror, hafter⟩ | ⟨_, hok, hafter⟩
  · exact Or.inl ⟨herror, hafter⟩
  · refine Or.inr ⟨hok, ?_⟩
    rw [hafter, Action.after_modify_bind]
    have hrest : Keeps Tracker.holdings (warnings cfg env >>= fun _ =>
        ledger env (settledRow settled (settled.seq t.toAccounts)) >>= fun _ =>
          record env >>= fun _ => diagnose env settled t.toAccounts >>= fun _ =>
            checkActuals cfg env (settled.seq t.toAccounts)) :=
      (keeps_warnings quiet_holdings cfg).bind fun _ => (keeps_ledger _).bind fun _ =>
        (keeps_record quiet_holdings).bind fun _ => (keeps_diagnose _ _).bind fun _ =>
          keeps_checkActuals quiet_holdings _ _
    refine Eq.trans (hrest _) (Prod.ext ?_ rfl)
    exact congrArg (fun a : Accounts => (a.releaseCall settled).recordActuals settled) hdaily

/-- `settleCall` either leaves the accounts alone, when the daily settler failed, or releases what
    the call held and records what it used. -/
theorem settleCall_accounts (settled : Settlement) (t : Tracker) :
    ((∃ e, (settleDaily env settled (settled.seq t.toAccounts)).result t = .error e) ∧
        ((settleCall cfg env settled).after t).toAccounts = t.toAccounts) ∨
      ((settleDaily env settled (settled.seq t.toAccounts)).result t = .ok () ∧
        ((settleCall cfg env settled).after t).toAccounts =
          (t.toAccounts.releaseCall settled).recordActuals settled) := by
  rcases settleCall_holdings cfg env settled t with ⟨herror, hafter⟩ | ⟨hok, hheld⟩
  · refine Or.inl ⟨herror, ?_⟩
    rw [hafter]
    exact keepsAccounts_settleDaily settled _ t
  · exact Or.inr ⟨hok, congrArg Prod.fst hheld⟩

/-- `reserveSearch` either leaves the accounts alone or holds searches that fit the limit. -/
theorem reserveSearch_accounts (count : ℤ) (t : Tracker) :
    ((reserveSearch cfg env count).after t).toAccounts = t.toAccounts ∨
      (∀ limit ∈ cfg.maxSearchInvocationsPerRun,
        t.searchInvocations + t.reservedSearchInvocations + max 0 count ≤ limit) ∧
      ((reserveSearch cfg env count).after t).toAccounts = t.toAccounts.holdSearch (max 0 count) := by
  unfold reserveSearch
  simp only
  split
  · exact Or.inl rfl
  · rw [Action.after_get_bind]
    split
    · exact Or.inl rfl
    · split
      · exact Or.inl (keeps_raiseReject quiet_toAccounts _ t)
      · rename_i hfits
        refine Or.inr ⟨fun limit hlimit => ?_, rfl⟩
        by_contra hover
        exact hfits ⟨limit, hlimit, not_le.mp hover⟩

/-- `settleSearch` leaves the accounts alone when its price is negative or its reservation is not
    open; otherwise it releases the hold, and charges what was spent unless it refuses. -/
theorem settleSearch_accounts (settled : SearchSettlement) (t : Tracker) :
    ((settled.unit cfg < 0 ∨ t.openSearchReservations.get? settled.reservationSeq = none) ∧
        ((settleSearch cfg env settled).after t).toAccounts = t.toAccounts) ∨
      0 ≤ settled.unit cfg ∧ ∃ held,
        t.openSearchReservations.get? settled.reservationSeq = some held ∧
        ((settled.refused cfg held t.toAccounts ∧
          ((settleSearch cfg env settled).after t).toAccounts =
            t.toAccounts.releaseSearch settled.reservationSeq held) ∨
        (¬ settled.refused cfg held t.toAccounts ∧
          ((settleSearch cfg env settled).after t).toAccounts =
            t.toAccounts.spendSearch cfg settled held)) := by
  unfold settleSearch
  split
  · rename_i hunit
    exact Or.inl ⟨Or.inl hunit, rfl⟩
  · rename_i hunit
    rw [Action.after_get_bind]
    cases hheld : t.openSearchReservations.get? settled.reservationSeq with
    | none => exact Or.inl ⟨Or.inr rfl, rfl⟩
    | some held =>
      refine Or.inr ⟨not_lt.mp hunit, held, rfl, ?_⟩
      by_cases hrefused : settled.refused cfg held t.toAccounts
      · refine Or.inl ⟨hrefused, ?_⟩
        simp only [hrefused, if_true]
        rw [Action.after_modify_bind]
        exact keeps_raiseStop quiet_toAccounts _ _
      · refine Or.inr ⟨hrefused, ?_⟩
        simp only [hrefused, if_false]
        rw [Action.after_modify_bind]
        have hrest : Keeps Tracker.toAccounts (record env >>= fun _ =>
            checkSearches cfg env (settled.charged held) held) :=
          (keeps_record quiet_toAccounts).bind fun _ => keeps_checkSearches quiet_toAccounts _ _ _
        exact hrest _

end Effects

/-! ## 3. What an admission grants -/

theorem refuseOver_eq_ok {α : Type} {limit : Option α} {exceeds : α → Prop} [DecidablePred exceeds]
    {refusal : α → Refusal} {u : Unit} :
    refuseOver limit exceeds refusal = .ok u ↔ ∀ m ∈ limit, ¬ exceeds m := by
  cases limit with
  | none => simp [refuseOver, pure, Except.pure]
  | some m => simp [refuseOver, refuseIf_eq_ok]

/-- The token limits an admitted call respects, with `r` the output allowance they leave. -/
structure WithinTokens (cfg : BudgetConfig) (a : Accounts) (call : CallRequest) (r : Option ℤ) :
    Prop where
  input : ∀ m ∈ cfg.maxInputTokensPerRun, a.committedInput + call.estimatedInput ≤ m
  output : ∀ m ∈ cfg.maxOutputTokensPerRun, ∃ n, r = some n ∧ n ≤ m - a.committedOutput
  total : ∀ m ∈ cfg.maxTotalTokensPerRun,
    ∃ n, r = some n ∧ n ≤ m - a.committedInput - a.committedOutput - call.estimatedInput
  positive : ∀ n ∈ r, 0 < n

variable {call : CallRequest} {cfg : BudgetConfig}

theorem remainingOutput_spec {a : Accounts} {r : Option ℤ} (h : remainingOutput cfg a call = .ok r) :
    WithinTokens cfg a call r := by
  unfold remainingOutput at h
  obtain ⟨_, hinput, h⟩ := except_bind_eq_ok.mp h
  obtain ⟨_, -, h⟩ := except_bind_eq_ok.mp h
  obtain ⟨_, hpositive, h⟩ := except_bind_eq_ok.mp h
  obtain rfl : remainingByTotal cfg a call = r := by simpa [pure, Except.pure] using h
  rw [refuseOver_eq_ok] at hinput hpositive
  refine ⟨fun m hm => not_lt.mp (hinput m hm), fun m hm => ?_, fun m hm => ?_,
    fun n hn => not_le.mp (hpositive n hn)⟩
  · have hout : cfg.maxOutputTokensPerRun = some m := hm
    unfold remainingByTotal remainingByOutput
    cases cfg.maxTotalTokensPerRun with
    | none => exact ⟨_, by rw [hout]; rfl, le_rfl⟩
    | some total =>
      rw [hout]
      exact ⟨_, rfl, min_le_left _ _⟩
  · have htotal : cfg.maxTotalTokensPerRun = some m := hm
    unfold remainingByTotal
    rw [htotal]
    cases remainingByOutput cfg a with
    | none => exact ⟨_, rfl, le_rfl⟩
    | some n => exact ⟨_, rfl, min_le_right _ _⟩

/-- The output a call holds is positive or absent, and within the allowance it was cut from. -/
theorem allowedOutput_le {r : Option ℤ} (call : CallRequest) {n : ℤ} (hr : r = some n) :
    (allowedOutput r call).getD 0 ≤ n := by
  subst hr
  unfold allowedOutput
  split
  · exact le_rfl
  · exact min_le_left _ _

theorem allowedOutput_nonneg {r : Option ℤ} (hr : ∀ n ∈ r, 0 < n) : 0 ≤ (allowedOutput r call).getD 0 := by
  unfold allowedOutput
  cases hreq : call.requestedMaxTokens with
  | none =>
    cases r with
    | none => exact le_rfl
    | some n => exact (hr n rfl).le
  | some requested =>
    cases r with
    | none => exact requested.2.le
    | some n => exact le_min (hr n rfl).le requested.2.le

/-- Everything the accounts rely on when a call is admitted. -/
structure Admitted (cfg : BudgetConfig) (a : Accounts) (call : CallRequest) (adm : Admission) :
    Prop where
  seq : adm.callSeq = a.modelCalls + 1
  calls : ∀ m ∈ cfg.maxModelCallsPerRun, a.modelCalls < m
  estimated : ∀ m ∈ cfg.maxEstimatedCostPerRun, a.estimatedCost + cfg.estimatedCostPerCall ≤ m
  input : ∀ m ∈ cfg.maxInputTokensPerRun, a.committedInput + call.estimatedInput ≤ m
  output : ∀ m ∈ cfg.maxOutputTokensPerRun, a.committedOutput + adm.heldOutput ≤ m
  total : ∀ m ∈ cfg.maxTotalTokensPerRun,
    a.committedInput + call.estimatedInput + (a.committedOutput + adm.heldOutput) ≤ m
  held_nonneg : 0 ≤ adm.heldOutput
  worst : ∀ w ∈ adm.worstCase, 0 ≤ w ∧
    ∀ m ∈ cfg.maxCostPerRun, a.actualCost + a.reservedCost + w ≤ m

theorem worstCase_spec {env : Collaborators} {t : Tracker} {allowed : Option ℤ} {worst : Option ℚ}
    (h : worstCase cfg env t call allowed = .ok worst) :
    ∀ w ∈ worst, 0 ≤ w ∧ ∀ m ∈ cfg.maxCostPerRun, t.actualCost + t.reservedCost + w ≤ m := by
  intro w hw
  obtain rfl : worst = some w := hw
  unfold worstCase at h
  split at h
  · simp [pure, Except.pure] at h
  · split at h
    · cases h
    · rename_i profile _
      split at h
      · cases h
      · rename_i cap _
        obtain ⟨_, hrun, h⟩ := except_bind_eq_ok.mp h
        obtain ⟨_, -, h⟩ := except_bind_eq_ok.mp h
        obtain ⟨_, -, h⟩ := except_bind_eq_ok.mp h
        have hw : profile.worstCaseCost call.inputUpperBound cap = w := by
          simpa [pure, Except.pure] using h
        rw [refuseOver_eq_ok, hw] at hrun
        refine ⟨?_, fun m hm => not_lt.mp (hrun m hm)⟩
        rw [← hw]
        exact profile.worstCaseCost_nonneg _ _

theorem admitCall_spec {env : Collaborators} {t : Tracker} {adm : Admission}
    (h : admitCall cfg env t call = .ok adm) : Admitted cfg t.toAccounts call adm := by
  unfold admitCall at h
  obtain ⟨_, -, h⟩ := except_bind_eq_ok.mp h
  obtain ⟨_, hcounts, h⟩ := except_bind_eq_ok.mp h
  obtain ⟨r, htokens, h⟩ := except_bind_eq_ok.mp h
  obtain ⟨_, hcosts, h⟩ := except_bind_eq_ok.mp h
  obtain ⟨_, -, h⟩ := except_bind_eq_ok.mp h
  obtain ⟨worst, hworst, h⟩ := except_bind_eq_ok.mp h
  obtain ⟨reservation, -, h⟩ := except_bind_eq_ok.mp h
  obtain rfl : (⟨t.modelCalls + 1, allowedOutput r call, worst, reservation⟩ : Admission) = adm := by
    simpa [pure, Except.pure] using h
  have htok := remainingOutput_spec htokens
  obtain ⟨_, -, hcounts⟩ := except_bind_eq_ok.mp hcounts
  obtain ⟨_, hcalls, -⟩ := except_bind_eq_ok.mp hcounts
  obtain ⟨_, hestimated, -⟩ := except_bind_eq_ok.mp hcosts
  rw [refuseOver_eq_ok] at hcalls hestimated
  refine
    { seq := rfl
      calls := fun m hm => not_le.mp (hcalls m hm)
      estimated := fun m hm => not_lt.mp (hestimated m hm)
      input := htok.input
      output := fun m hm => ?_
      total := fun m hm => ?_
      held_nonneg := allowedOutput_nonneg htok.positive
      worst := worstCase_spec hworst }
  · obtain ⟨n, hr, hn⟩ := htok.output m hm
    have hheld := allowedOutput_le call hr
    simp only [Admission.heldOutput]
    omega
  · obtain ⟨n, hr, hn⟩ := htok.total m hm
    have hheld := allowedOutput_le call hr
    simp only [Admission.heldOutput]
    omega

/-! ## 4. The held totals are the open reservations -/

/-- Every held total is the sum of the reservations still open. -/
structure Accounts.Consistent (a : Accounts) : Prop where
  input : Holds (fun r : ℤ × ℤ => r.1) a.openReservations a.reservedInputTokens a.modelCalls
  output : Holds (fun r : ℤ × ℤ => r.2) a.openReservations a.reservedOutputTokens a.modelCalls
  cost : Holds (fun w : ℚ => w) a.openCostReservations a.reservedCost a.modelCalls
  search : Holds (fun n : ℤ => n) a.openSearchReservations a.reservedSearchInvocations a.searchSeq

theorem Tracker.fresh_consistent : Tracker.fresh.Consistent :=
  ⟨.empty _ _, .empty _ _, .empty _ _, .empty _ _⟩

theorem estimatedInput_nonneg (call : CallRequest) : 0 ≤ call.estimatedInput := le_max_left _ _

namespace Accounts

variable {cfg : BudgetConfig} {a : Accounts}

@[simp] theorem recordUsage_consistent_fields (usage : Option UsageBreakdown) :
    (a.recordUsage usage).reservedInputTokens = a.reservedInputTokens ∧
      (a.recordUsage usage).reservedOutputTokens = a.reservedOutputTokens ∧
      (a.recordUsage usage).reservedCost = a.reservedCost ∧
      (a.recordUsage usage).openReservations = a.openReservations := by
  cases usage <;> exact ⟨rfl, rfl, rfl, rfl⟩

theorem Consistent.reserveCapacity (h : a.Consistent) {call : CallRequest} {adm : Admission}
    (hadm : Admitted cfg a call adm) : (a.reserveCapacity cfg call adm).Consistent := by
  have hlt : a.modelCalls < a.modelCalls + 1 := lt_add_one _
  refine ⟨?_, ?_, ?_, h.search⟩
  · change Holds _ (a.openReservations.set adm.callSeq _) _ _
    rw [hadm.seq]
    exact h.input.opened hlt (estimatedInput_nonneg call)
  · have hsum : (a.reserveCapacity cfg call adm).reservedOutputTokens =
        a.reservedOutputTokens + adm.heldOutput := by
      have hheld := hadm.held_nonneg
      simp only [Accounts.reserveCapacity]
      split <;> omega
    rw [hsum]
    change Holds _ (a.openReservations.set adm.callSeq _) _ _
    rw [hadm.seq]
    exact h.output.opened hlt hadm.held_nonneg
  · cases hworst : adm.worstCase with
    | none =>
      simp only [Accounts.reserveCapacity, hworst, Option.getD_none, add_zero]
      exact h.cost.mono hlt.le
    | some w =>
      simp only [Accounts.reserveCapacity, hworst, Option.getD_some]
      rw [hadm.seq]
      exact h.cost.opened hlt (hadm.worst w hworst).1

/-- Dollars: settling releases exactly the worst case held for the call, nothing when it holds
    none. -/
theorem cost_releaseCall (settled : Settlement)
    (h : Holds (fun w : ℚ => w) a.openCostReservations a.reservedCost a.modelCalls) :
    (a.releaseCall settled).reservedCost = a.reservedCost - a.heldCost settled ∧
      Holds (fun w : ℚ => w) (a.releaseCall settled).openCostReservations
        (a.releaseCall settled).reservedCost a.modelCalls := by
  simp only [releaseCall, heldCost]
  rcases Option.eq_none_or_eq_some (a.openCostReservations.get? (settled.seq a)) with
    hget | ⟨w, hget⟩
  · rw [Dict.erase_of_notMem (Dict.get?_eq_none.mp hget)]
    simpa [hget] using h
  · have hle := h.weight_le_sum hget
    have hclosed := h.closed hget
    simp only [hget, Option.getD_some]
    split
    · rename_i hzero
      rw [hzero, sub_zero, max_eq_right h.sum_nonneg] at hclosed
      rw [hzero, sub_zero]
      exact ⟨rfl, hclosed⟩
    · rw [max_eq_right (sub_nonneg.mpr hle)] at hclosed ⊢
      exact ⟨rfl, hclosed⟩

/-- Tokens: settling an open call releases exactly what its record says. -/
theorem tokens_releaseCall {settled : Settlement} {held : ℤ × ℤ} (h : a.Consistent)
    (hopen : a.openReservations.get? (settled.seq a) = some held) :
    (a.releaseCall settled).reservedInputTokens = a.reservedInputTokens - held.1 ∧
      (a.releaseCall settled).reservedOutputTokens = a.reservedOutputTokens - held.2 := by
  have hin := h.input.weight_le_sum hopen
  have hout := h.output.weight_le_sum hopen
  have hheld : a.held settled = held := by
    unfold Accounts.held
    rw [hopen]
  simp only [releaseCall, hheld]
  refine ⟨max_eq_right (sub_nonneg.mpr hin), ?_⟩
  split
  · omega
  · exact max_eq_right (sub_nonneg.mpr hout)

theorem Consistent.releaseCall {settled : Settlement} {held : ℤ × ℤ} (h : a.Consistent)
    (hopen : a.openReservations.get? (settled.seq a) = some held) :
    (a.releaseCall settled).Consistent := by
  obtain ⟨hin, hout⟩ := tokens_releaseCall h hopen
  refine ⟨?_, ?_, (cost_releaseCall settled h.cost).2, h.search⟩
  · rw [hin]
    exact h.input.erase hopen
  · rw [hout]
    exact h.output.erase hopen

theorem Consistent.recordActuals (settled : Settlement) (h : a.Consistent) :
    (a.recordActuals settled).Consistent := by
  unfold Accounts.recordActuals Accounts.recordUsage
  cases settled.usage <;> exact ⟨h.input, h.output, h.cost, h.search⟩

theorem Consistent.holdSearch (h : a.Consistent) {wanted : ℤ} (hwanted : 0 ≤ wanted) :
    (a.holdSearch wanted).Consistent :=
  ⟨h.input, h.output, h.cost, h.search.opened (lt_add_one _) hwanted⟩

theorem Consistent.releaseSearch {seq held : ℤ} (h : a.Consistent)
    (hopen : a.openSearchReservations.get? seq = some held) :
    (a.releaseSearch seq held).Consistent :=
  ⟨h.input, h.output, h.cost, h.search.closed hopen⟩

theorem releaseSearch_reserved {seq held : ℤ} (h : a.Consistent)
    (hopen : a.openSearchReservations.get? seq = some held) :
    (a.releaseSearch seq held).reservedSearchInvocations =
      a.reservedSearchInvocations - held :=
  max_eq_right (sub_nonneg.mpr (h.search.weight_le_sum hopen))

theorem Consistent.spendSearch {settled : SearchSettlement} {held : ℤ} (h : a.Consistent)
    (hopen : a.openSearchReservations.get? settled.reservationSeq = some held) :
    (a.spendSearch cfg settled held).Consistent := by
  have hreleased := h.releaseSearch hopen
  unfold Accounts.spendSearch Accounts.chargeSearch
  split
  · exact hreleased
  · exact ⟨hreleased.input, hreleased.output, hreleased.cost, hreleased.search⟩

end Accounts

/-! ## 5. The limits, up to what callers under-estimated -/

/-- By how much settled items used more than they had reserved. -/
structure Overshoot where
  input : ℤ
  output : ℤ
  search : ℤ

namespace Overshoot

def none : Overshoot := ⟨0, 0, 0⟩

def add (e f : Overshoot) : Overshoot :=
  ⟨e.input + f.input, e.output + f.output, e.search + f.search⟩

/-- What one settled call or search used above its reservation. -/
def excess (actual reserved : ℤ) : ℤ := max 0 (actual - reserved)

theorem excess_nonneg (actual reserved : ℤ) : 0 ≤ excess actual reserved := le_max_left _ _

structure Nonneg (e : Overshoot) : Prop where
  input : 0 ≤ e.input
  output : 0 ≤ e.output
  search : 0 ≤ e.search

end Overshoot

/-- Every ceiling of the configuration, with the slack `e`. -/
structure WithinLimits (cfg : BudgetConfig) (a : Accounts) (e : Overshoot) : Prop where
  calls : ∀ m ∈ cfg.maxModelCallsPerRun, a.modelCalls ≤ m
  estimated : ∀ m ∈ cfg.maxEstimatedCostPerRun, a.estimatedCost ≤ m
  input : ∀ m ∈ cfg.maxInputTokensPerRun, a.inputTokens + a.reservedInputTokens ≤ m + e.input
  output : ∀ m ∈ cfg.maxOutputTokensPerRun, a.outputTokens + a.reservedOutputTokens ≤ m + e.output
  total : ∀ m ∈ cfg.maxTotalTokensPerRun,
    a.inputTokens + a.outputTokens + a.reservedInputTokens + a.reservedOutputTokens ≤
      m + e.input + e.output
  search : ∀ m ∈ cfg.maxSearchInvocationsPerRun,
    a.searchInvocations + a.reservedSearchInvocations ≤ m + e.search

namespace WithinLimits

variable {cfg : BudgetConfig} {a : Accounts} {e : Overshoot}

theorem mono (h : WithinLimits cfg a e) {f : Overshoot} (hf : f.Nonneg) :
    WithinLimits cfg a (e.add f) := by
  have hin := hf.input
  have hout := hf.output
  have hsearch := hf.search
  refine ⟨h.calls, h.estimated, fun m hm => ?_, fun m hm => ?_, fun m hm => ?_, fun m hm => ?_⟩
  · have hbefore := h.input m hm
    simp only [Overshoot.add]
    omega
  · have hbefore := h.output m hm
    simp only [Overshoot.add]
    omega
  · have hbefore := h.total m hm
    simp only [Overshoot.add]
    omega
  · have hbefore := h.search m hm
    simp only [Overshoot.add]
    omega

theorem reserveCapacity (h : WithinLimits cfg a e) (he : e.Nonneg) {call : CallRequest}
    {adm : Admission} (hadm : Admitted cfg a call adm) :
    WithinLimits cfg (a.reserveCapacity cfg call adm) e := by
  have hin := he.input
  have hout := he.output
  have hheld := hadm.held_nonneg
  have hreserved : (a.reserveCapacity cfg call adm).reservedOutputTokens =
      a.reservedOutputTokens + adm.heldOutput := by
    simp only [Accounts.reserveCapacity]
    split <;> omega
  refine ⟨fun m hm => hadm.calls m hm, fun m hm => hadm.estimated m hm, fun m hm => ?_,
    fun m hm => ?_, fun m hm => ?_, h.search⟩
  · have hcap := hadm.input m hm
    simp only [Accounts.committedInput] at hcap
    simp only [Accounts.reserveCapacity]
    omega
  · have hcap := hadm.output m hm
    simp only [Accounts.committedOutput] at hcap
    rw [hreserved]
    simp only [Accounts.reserveCapacity]
    omega
  · have hcap := hadm.total m hm
    simp only [Accounts.committedInput, Accounts.committedOutput] at hcap
    rw [hreserved]
    simp only [Accounts.reserveCapacity]
    omega

theorem settleCall (h : WithinLimits cfg a e) (hc : a.Consistent) {settled : Settlement}
    {held : ℤ × ℤ} (hopen : a.openReservations.get? (settled.seq a) = some held) :
    WithinLimits cfg ((a.releaseCall settled).recordActuals settled)
      (e.add ⟨Overshoot.excess settled.inputTokens held.1,
        Overshoot.excess settled.outputTokens held.2, 0⟩) := by
  obtain ⟨hin, hout⟩ := Accounts.tokens_releaseCall hc hopen
  have hin0 := hc.input.nonneg _ _ hopen
  have hout0 := hc.output.nonneg _ _ hopen
  have hfields := Accounts.recordUsage_consistent_fields (a := a.releaseCall settled) settled.usage
  have hcalls : ((a.releaseCall settled).recordUsage settled.usage).modelCalls = a.modelCalls ∧
      ((a.releaseCall settled).recordUsage settled.usage).estimatedCost = a.estimatedCost := by
    cases settled.usage <;> exact ⟨rfl, rfl⟩
  have hsearch : ((a.releaseCall settled).recordUsage settled.usage).searchInvocations =
      a.searchInvocations ∧
      ((a.releaseCall settled).recordUsage settled.usage).reservedSearchInvocations =
        a.reservedSearchInvocations := by
    cases settled.usage <;> exact ⟨rfl, rfl⟩
  refine ⟨fun m hm => ?_, fun m hm => ?_, fun m hm => ?_, fun m hm => ?_, fun m hm => ?_,
    fun m hm => ?_⟩
  · simpa only [Accounts.recordActuals, hcalls.1] using h.calls m hm
  · simpa only [Accounts.recordActuals, hcalls.2] using h.estimated m hm
  · have hbefore := h.input m hm
    simp only [Accounts.recordActuals, hfields.1, hin, Overshoot.add, Overshoot.excess]
    simp only [Accounts.releaseCall]
    omega
  · have hbefore := h.output m hm
    simp only [Accounts.recordActuals, hfields.2.1, hout, Overshoot.add, Overshoot.excess]
    simp only [Accounts.releaseCall]
    omega
  · have hbefore := h.total m hm
    simp only [Accounts.recordActuals, hfields.1, hfields.2.1, hin, hout, Overshoot.add,
      Overshoot.excess]
    simp only [Accounts.releaseCall]
    omega
  · have hbefore := h.search m hm
    simp only [Accounts.recordActuals, hsearch.1, hsearch.2, Overshoot.add]
    omega

theorem holdSearch (h : WithinLimits cfg a e) (he : e.Nonneg) {wanted : ℤ}
    (hfits : ∀ m ∈ cfg.maxSearchInvocationsPerRun,
      a.searchInvocations + a.reservedSearchInvocations + wanted ≤ m) :
    WithinLimits cfg (a.holdSearch wanted) e := by
  refine ⟨h.calls, h.estimated, h.input, h.output, h.total, fun m hm => ?_⟩
  have hcap := hfits m hm
  have hslack := he.search
  simp only [Accounts.holdSearch]
  omega

theorem releaseSearch (h : WithinLimits cfg a e) (hc : a.Consistent) {seq held : ℤ}
    (hopen : a.openSearchReservations.get? seq = some held) :
    WithinLimits cfg (a.releaseSearch seq held) e := by
  refine ⟨h.calls, h.estimated, h.input, h.output, h.total, fun m hm => ?_⟩
  have hbefore := h.search m hm
  have hheld := hc.search.nonneg _ _ hopen
  rw [Accounts.releaseSearch_reserved hc hopen]
  simp only [Accounts.releaseSearch]
  omega

theorem spendSearch (h : WithinLimits cfg a e) (hc : a.Consistent) {settled : SearchSettlement}
    {held : ℤ} (hopen : a.openSearchReservations.get? settled.reservationSeq = some held) :
    WithinLimits cfg (a.spendSearch cfg settled held)
      (e.add ⟨0, 0, Overshoot.excess (settled.charged held) held⟩) := by
  have hslack := Overshoot.excess_nonneg (settled.charged held) held
  have hreleased := h.releaseSearch hc hopen
  have hreserved := Accounts.releaseSearch_reserved hc hopen
  unfold Accounts.spendSearch Accounts.chargeSearch
  split
  · refine ⟨hreleased.calls, hreleased.estimated, fun m hm => ?_, fun m hm => ?_, fun m hm => ?_,
      fun m hm => ?_⟩
    · simpa [Overshoot.add] using hreleased.input m hm
    · simpa [Overshoot.add] using hreleased.output m hm
    · simpa [Overshoot.add] using hreleased.total m hm
    · have hsearch := hreleased.search m hm
      simp only [Overshoot.add]
      omega
  · refine ⟨hreleased.calls, hreleased.estimated, fun m hm => ?_, fun m hm => ?_, fun m hm => ?_,
      fun m hm => ?_⟩
    · simpa [Overshoot.add] using hreleased.input m hm
    · simpa [Overshoot.add] using hreleased.output m hm
    · simpa [Overshoot.add] using hreleased.total m hm
    · have hbefore := h.search m hm
      simp only [hreserved, Overshoot.add, Overshoot.excess]
      simp only [Accounts.releaseSearch]
      omega

end WithinLimits

/-! ## 6. Runs of the tracker -/

/-- One operation on the tracker, with what its collaborators do meanwhile. -/
inductive Operation
  | openCall (env : Collaborators) (call : CallRequest)
  | settleCall (env : Collaborators) (settled : Settlement)
  | reserveSearch (env : Collaborators) (count : ℤ)
  | settleSearch (env : Collaborators) (settled : SearchSettlement)

namespace Operation

/-- The tracker an operation leaves behind, whether it returns or raises. -/
def perform (cfg : BudgetConfig) : Operation → Tracker → Tracker
  | .openCall env call => (Milo.Budget.openCall cfg env call).after
  | .settleCall env settled => (Milo.Budget.settleCall cfg env settled).after
  | .reserveSearch env count => (Milo.Budget.reserveSearch cfg env count).after
  | .settleSearch env settled => (Milo.Budget.settleSearch cfg env settled).after

/-- A settlement is for an admitted call that has not been settled yet. -/
def SettlesOpenCall (t : Tracker) : Operation → Prop
  | .settleCall _ settled => ∃ held, t.openReservations.get? (settled.seq t.toAccounts) = some held
  | _ => True

/-- What the item an operation settled used above its reservation. -/
def overshoot (cfg : BudgetConfig) (t : Tracker) : Operation → Overshoot
  | .settleCall env settled =>
    match (settleDaily env settled (settled.seq t.toAccounts)).result t,
      t.openReservations.get? (settled.seq t.toAccounts) with
    | .ok _, some held => ⟨Overshoot.excess settled.inputTokens held.1,
        Overshoot.excess settled.outputTokens held.2, 0⟩
    | _, _ => .none
  | .settleSearch _ settled =>
    match t.openSearchReservations.get? settled.reservationSeq with
    | some held =>
      if settled.unit cfg < 0 ∨ settled.refused cfg held t.toAccounts then .none
      else ⟨0, 0, Overshoot.excess (settled.charged held) held⟩
    | none => .none
  | _ => .none

end Operation

/-- One operation of a run in which each admitted call is settled at most once. -/
def Step (cfg : BudgetConfig) : Tracker → Operation → Tracker → Prop :=
  Performs (fun t op => op.SettlesOpenCall t) fun t op => op.perform cfg t

/-- The slack terms of a run: the sums over the items it settled. -/
def overshootOf (cfg : BudgetConfig) : List (Tracker × Operation) → Overshoot
  | [] => .none
  | (t, op) :: hist => (op.overshoot cfg t).add (overshootOf cfg hist)

namespace Overshoot

@[simp] theorem add_none (e : Overshoot) : e.add .none = e := by
  cases e
  simp [add, none]

@[simp] theorem none_add (e : Overshoot) : Overshoot.none.add e = e := by
  cases e
  simp [add, none]

theorem add_assoc (e f g : Overshoot) : (e.add f).add g = e.add (f.add g) := by
  simp [add, Int.add_assoc]

theorem Nonneg.add {e f : Overshoot} (he : e.Nonneg) (hf : f.Nonneg) : (e.add f).Nonneg :=
  ⟨Int.add_nonneg he.input hf.input, Int.add_nonneg he.output hf.output,
    Int.add_nonneg he.search hf.search⟩

theorem none_nonneg : Overshoot.none.Nonneg := ⟨le_rfl, le_rfl, le_rfl⟩

end Overshoot

theorem overshootOf_snoc (cfg : BudgetConfig) (hist : List (Tracker × Operation)) (t : Tracker)
    (op : Operation) :
    overshootOf cfg (hist ++ [(t, op)]) = (overshootOf cfg hist).add (op.overshoot cfg t) := by
  induction hist with
  | nil => simp [overshootOf]
  | cons e hist ih => simp [overshootOf, ih, Overshoot.add_assoc]

theorem Operation.overshoot_nonneg (cfg : BudgetConfig) (t : Tracker) (op : Operation) :
    (op.overshoot cfg t).Nonneg := by
  unfold Operation.overshoot
  split
  · split
    · exact ⟨Overshoot.excess_nonneg _ _, Overshoot.excess_nonneg _ _, le_rfl⟩
    · exact Overshoot.none_nonneg
  · split
    · split
      · exact Overshoot.none_nonneg
      · exact ⟨le_rfl, le_rfl, Overshoot.excess_nonneg _ _⟩
    · exact Overshoot.none_nonneg
  · exact Overshoot.none_nonneg

theorem overshootOf_nonneg (cfg : BudgetConfig) (hist : List (Tracker × Operation)) :
    (overshootOf cfg hist).Nonneg := by
  induction hist with
  | nil => exact Overshoot.none_nonneg
  | cons e hist ih => exact (e.2.overshoot_nonneg cfg e.1).add ih

/-- The step lemma: one operation keeps the held totals exact and the ceilings within the slack,
    enlarged by what the item it settled used above its reservation. -/
theorem step_withinLimits {t t' : Tracker} {op : Operation} {e : Overshoot} (he : e.Nonneg) (hc : t.Consistent)
    (hl : WithinLimits cfg t.toAccounts e) (hstep : Step cfg t op t') :
    t'.Consistent ∧ WithinLimits cfg t'.toAccounts (e.add (op.overshoot cfg t)) := by
  obtain ⟨hopen, rfl⟩ := hstep
  cases op with
  | openCall env call =>
    simp only [Operation.perform, Operation.overshoot, Overshoot.add_none]
    rcases openCall_accounts cfg env call t with hsame | ⟨adm, hadm, hheld⟩
    · rw [hsame]
      exact ⟨hc, hl⟩
    · rw [hheld]
      have hadmitted := admitCall_spec hadm
      exact ⟨hc.reserveCapacity hadmitted, hl.reserveCapacity he hadmitted⟩
  | settleCall env settled =>
    obtain ⟨held, hget⟩ := hopen
    simp only [Operation.perform, Operation.overshoot]
    rcases settleCall_accounts cfg env settled t with ⟨⟨error, herror⟩, hsame⟩ | ⟨hok, hsettled⟩
    · rw [hsame, herror]
      exact ⟨hc, by simpa using hl⟩
    · rw [hsettled, hok, hget]
      exact ⟨(hc.releaseCall hget).recordActuals settled, hl.settleCall hc hget⟩
  | reserveSearch env count =>
    simp only [Operation.perform, Operation.overshoot, Overshoot.add_none]
    rcases reserveSearch_accounts cfg env count t with hsame | ⟨hfits, hheld⟩
    · rw [hsame]
      exact ⟨hc, hl⟩
    · rw [hheld]
      exact ⟨hc.holdSearch (le_max_left _ _), hl.holdSearch he hfits⟩
  | settleSearch env settled =>
    simp only [Operation.perform, Operation.overshoot]
    have hslack := (Operation.settleSearch env settled).overshoot_nonneg cfg t
    rcases settleSearch_accounts cfg env settled t with
      ⟨-, hsame⟩ | ⟨hunit, held, hget, ⟨hrefused, hreleased⟩ | ⟨hcharged, hspent⟩⟩
    · rw [hsame]
      exact ⟨hc, hl.mono (Operation.overshoot_nonneg cfg t (.settleSearch env settled))⟩
    · rw [hreleased, hget]
      simp only [hrefused, or_true, if_true, Overshoot.add_none]
      exact ⟨hc.releaseSearch hget, hl.releaseSearch hc hget⟩
    · rw [hspent, hget]
      simp only [not_lt.mpr hunit, hcharged, or_self, if_false]
      exact ⟨hc.spendSearch hget, hl.spendSearch hc hget⟩

/-- In every run the ceilings hold up to what settled items used above their reservations, and
    each held total is the sum of the reservations still open. -/
theorem ceilings_hold (cfg : BudgetConfig) {t₀ t : Tracker} {hist : List (Tracker × Operation)}
    (hc : t₀.Consistent) (hl : WithinLimits cfg t₀.toAccounts .none)
    (hrun : Run (Step cfg) t₀ hist t) :
    WithinLimits cfg t.toAccounts (overshootOf cfg hist) ∧ t.Consistent := by
  have hinv : t.Consistent ∧ WithinLimits cfg t.toAccounts (overshootOf cfg hist) := by
    refine hrun.history_invariant
      (J := fun hist t => t.Consistent ∧ WithinLimits cfg t.toAccounts (overshootOf cfg hist))
      ⟨hc, hl⟩ ?_
    rintro hist m op m' - ⟨hm, hlimits⟩ hstep
    rw [overshootOf_snoc]
    exact step_withinLimits (overshootOf_nonneg cfg hist) hm hlimits hstep
  exact ⟨hinv.2, hinv.1⟩

def smallConfig : BudgetConfig :=
  { BudgetConfig.default with
    maxModelCallsPerRun := some 2, maxInputTokensPerRun := some 100,
    maxOutputTokensPerRun := some 100, maxTotalTokensPerRun := some 150 }

/-- A call that reserves 10 input and 20 output tokens. -/
def tenAndTwenty : CallRequest := ⟨10, some ⟨20, by decide⟩, none, none, 0⟩

/-- The call settles at 15 and 20, then a search. -/
def smallRun : List Operation :=
  [.openCall .quiet tenAndTwenty,
    .settleCall .quiet ⟨10, some 20, 15, 20, none, "settled", none, some 1, none, ""⟩,
    .reserveSearch .quiet 1, .settleSearch .quiet ⟨1, some 1, none, false⟩]

theorem ceilings_hold_smallRun :
    WithinLimits smallConfig
        (smallRun.foldl (fun t op => op.perform smallConfig t) Tracker.fresh).toAccounts
        (overshootOf smallConfig
          (performed (fun t op => op.perform smallConfig t) Tracker.fresh smallRun)) ∧
      (smallRun.foldl (fun t op => op.perform smallConfig t) Tracker.fresh).Consistent := by
  refine ceilings_hold smallConfig Tracker.fresh_consistent ?_ (run_performed smallRun _ ?_)
  · refine ⟨?_, ?_, ?_, ?_, ?_, ?_⟩ <;> intro m hm <;> cases hm <;> decide
  · intro e he
    simp only [smallRun, performed, List.mem_cons, List.not_mem_nil, or_false] at he
    rcases he with rfl | rfl | rfl | rfl
    · trivial
    · exact ⟨(10, 20), by decide +kernel⟩
    · trivial
    · trivial

/-! ## 7. The dollars as floats

`reserved_cost` is the one held total that is no integer: the code keeps it as a float.  The two
updates are stated over any type of amounts; over the rationals they are those of the accounts.
-/

/-- The dollars held for open calls and their running total. -/
structure HeldDollars (κ : Type) where
  reservedCost : κ
  openCostReservations : Dict ℤ κ

namespace HeldDollars

variable {κ : Type} [Zero κ] [Add κ] [Sub κ] [Max κ] [BEq κ]

def none : HeldDollars κ := ⟨0, .empty⟩

def hold (seq : ℤ) (worst : κ) (d : HeldDollars κ) : HeldDollars κ :=
  ⟨d.reservedCost + worst, d.openCostReservations.set seq worst⟩

def release (seq : ℤ) (d : HeldDollars κ) : HeldDollars κ :=
  let held := (d.openCostReservations.get? seq).getD 0
  ⟨if held == 0 then d.reservedCost else max 0 (d.reservedCost - held),
    d.openCostReservations.erase seq⟩

end HeldDollars

/-- Calls holding 0.1 and 0.2 dollars settle in turn: as floats 2.8e-17 dollars stay reserved with
    nothing open. -/
theorem reservedCost_drifts :
    let after := HeldDollars.none.hold 1 (0.1 : Float) |>.hold 2 0.2 |>.release 1 |>.release 2
    after.openCostReservations.entries.isEmpty = true ∧ (after.reservedCost == 0) = false ∧
      (0 < after.reservedCost) := by
  decide +kernel

end Milo.Budget
