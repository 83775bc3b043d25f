import Milo.Budget.Ceilings

/-!
# RepeatedSettlement — a call that is settled twice

The first settlement of a call takes its record away.  A later one for the same call finds none and
hands back the numbers its caller passes, which by then only other calls hold.
-/

namespace Milo.Budget

open Milo.Reasoning

/-! ## 1. What a second settlement finds -/

/-- The held totals and the reservations of every other call are what they were. -/
structure LeavesReservations (seq : ℤ) (t t' : Tracker) : Prop where
  input : t'.reservedInputTokens = t.reservedInputTokens
  output : t'.reservedOutputTokens = t.reservedOutputTokens
  cost : t'.reservedCost = t.reservedCost
  tokens : ∀ other ≠ seq, t'.openReservations.get? other = t.openReservations.get? other
  costs : ∀ other ≠ seq, t'.openCostReservations.get? other = t.openCostReservations.get? other
  daily : ∀ other ≠ seq, t'.reservations.get? other = t.reservations.get? other

/-- The caller passes no tokens of a kind that something is still held of. -/
structure NothingToHandBack (t : Tracker) (settled : Settlement) : Prop where
  input : settled.reservedInputTokens ≤ 0 ∨ t.reservedInputTokens = 0
  output : settled.reservedOutputTokens.getD 0 ≤ 0 ∨ t.reservedOutputTokens = 0

namespace Accounts

/-- The call was opened, and nothing is held for it. -/
structure Closed (seq : ℤ) (a : Accounts) : Prop where
  opened : seq ≤ a.modelCalls
  tokens : a.openReservations.get? seq = none
  cost : a.openCostReservations.get? seq = none

/-- No less than nothing is held. -/
structure HeldNonneg (a : Accounts) : Prop where
  input : 0 ≤ a.reservedInputTokens
  output : 0 ≤ a.reservedOutputTokens

/-- What a search does not touch. -/
structure SameCalls (a a' : Accounts) : Prop where
  calls : a'.modelCalls = a.modelCalls
  input : a'.reservedInputTokens = a.reservedInputTokens
  output : a'.reservedOutputTokens = a.reservedOutputTokens
  tokens : a'.openReservations = a.openReservations
  cost : a'.openCostReservations = a.openCostReservations

/-- What one operation can have done to the accounts. -/
inductive Updated (cfg : BudgetConfig) (a : Accounts) : Accounts → Prop
  | opened (call : CallRequest) (adm : Admission) :
      Admitted cfg a call adm → Updated cfg a (a.reserveCapacity cfg call adm)
  | settled (settled : Settlement) :
      Updated cfg a ((a.releaseCall settled).recordActuals settled)
  | beside (a' : Accounts) : SameCalls a a' → Updated cfg a a'

end Accounts

namespace Tracker

/-- The call was opened, and nothing is held for it, in the daily ledger either. -/
structure Closed (seq : ℤ) (t : Tracker) : Prop where
  accounts : t.toAccounts.Closed seq
  daily : t.reservations.get? seq = none

end Tracker

/-! ## 2. What the operations do -/

section Settling

variable {α : Type} (env : Collaborators) (settled : Settlement) (seq : ℤ) (t : Tracker)

theorem raiseStop_ensures (exceeded : BudgetExceeded) :
    (raiseStop env exceeded : BudgetM α).Ensures t fun r t' =>
      (∃ e, r = .error e) ∧ t'.reservations = t.reservations := by
  have hkeeps : ((raiseStop env exceeded : BudgetM α).after t).holdings = t.holdings :=
    keeps_raiseStop quiet_holdings exceeded t
  refine ⟨?_, congrArg Prod.snd hkeeps⟩
  cases hresult : (raiseStop env exceeded : BudgetM α).result t with
  | error e => exact ⟨e, rfl⟩
  | ok a =>
    obtain ⟨_, _, hraise⟩ := Action.result_bind_eq_ok.mp hresult
    cases hraise

/-- The daily settlement takes the reservation of its call out.  It fails only for a call that has
    one, and may then have put it back. -/
theorem settleDaily_ensures :
    (settleDaily env settled seq).Ensures t fun r t' =>
      (r = .ok () ∧ t'.reservations = t.reservations.erase seq) ∨
        ∃ held, t.reservations.get? seq = some held ∧ (∃ e, r = .error e) ∧
          (t'.reservations = t.reservations.erase seq ∨
            t'.reservations = (t.reservations.erase seq).set seq held) := by
  unfold settleDaily
  refine Action.ensures_get_bind (Action.ensures_modify_bind ?_)
  cases hheld : t.reservations.get? seq with
  | none => exact Action.ensures_pure (Or.inl ⟨rfl, rfl⟩)
  | some held =>
    cases env.dailySettler with
    | none => exact Action.ensures_pure (Or.inl ⟨rfl, rfl⟩)
    | some settler =>
      dsimp only
      rcases settler held settled.actualCost settled.status settled.rejectionReason with
        (name | fault) | _
      · refine Action.ensures_modify_bind ((raiseStop_ensures env _ _).mono fun r t' h => ?_)
        exact Or.inr ⟨held, rfl, h.1, Or.inr h.2⟩
      · exact Action.ensures_raise (Or.inr ⟨held, rfl, ⟨_, rfl⟩, Or.inl rfl⟩)
      · exact Action.ensures_pure (Or.inl ⟨rfl, rfl⟩)

/-- A daily settlement leaves a reservation of another call, and gives no call a new one. -/
theorem settleDaily_other {other : ℤ} (h : other ≠ seq) :
    ((settleDaily env settled seq).after t).reservations.get? other = t.reservations.get? other := by
  rcases settleDaily_ensures env settled seq t with ⟨-, hafter⟩ | ⟨held, -, -, hafter | hafter⟩
  · rw [hafter, Dict.get?_erase_ne _ h]
  · rw [hafter, Dict.get?_erase_ne _ h]
  · rw [hafter, Dict.get?_set_ne _ _ h, Dict.get?_erase_ne _ h]

theorem settleDaily_ok (h : (settleDaily env settled seq).result t = .ok ()) :
    ((settleDaily env settled seq).after t).reservations.get? seq = none := by
  rcases settleDaily_ensures env settled seq t with ⟨-, hafter⟩ | ⟨held, -, ⟨e, herror⟩, -⟩
  · rw [hafter, Dict.get?_erase_self]
  · rw [h] at herror
    cases herror

theorem settleDaily_absent (h : t.reservations.get? seq = none) :
    (settleDaily env settled seq).result t = .ok () := by
  rcases settleDaily_ensures env settled seq t with ⟨hok, -⟩ | ⟨held, hheld, -⟩
  · exact hok
  · rw [h] at hheld
    cases hheld

end Settling

namespace Accounts

variable {cfg : BudgetConfig} {a a' : Accounts} {seq : ℤ}

theorem sameCalls_refl (a : Accounts) : SameCalls a a := ⟨rfl, rfl, rfl, rfl, rfl⟩

theorem sameCalls_recordActuals (settled : Settlement) (a : Accounts) :
    SameCalls a (a.recordActuals settled) := by
  unfold recordActuals recordUsage
  cases settled.usage <;> exact ⟨rfl, rfl, rfl, rfl, rfl⟩

theorem reservedCost_recordActuals (settled : Settlement) (a : Accounts) :
    (a.recordActuals settled).reservedCost = a.reservedCost := by
  unfold recordActuals recordUsage
  cases settled.usage <;> rfl

theorem sameCalls_spendSearch (settled : SearchSettlement) (held : ℤ) (a : Accounts) :
    SameCalls a (a.spendSearch cfg settled held) := by
  unfold spendSearch chargeSearch
  split <;> exact ⟨rfl, rfl, rfl, rfl, rfl⟩

theorem SameCalls.closed (h : SameCalls a a') (hclosed : a.Closed seq) : a'.Closed seq where
  opened := h.calls ▸ hclosed.opened
  tokens := h.tokens ▸ hclosed.tokens
  cost := h.cost ▸ hclosed.cost

theorem SameCalls.heldNonneg (h : SameCalls a a') (hheld : a.HeldNonneg) : a'.HeldNonneg where
  input := h.input ▸ hheld.input
  output := h.output ▸ hheld.output

theorem get?_erase_of_none {β : Type} {d : Dict ℤ β} {other : ℤ} (h : d.get? seq = none) :
    (d.erase other).get? seq = none := by
  rw [Dict.get?_erase]
  split
  · rfl
  · exact h

/-- Nothing is held anew for a call that was opened before. -/
theorem Updated.closed (h : Updated cfg a a') (hclosed : a.Closed seq) : a'.Closed seq := by
  cases h with
  | opened call adm hadm =>
    have hnumber := hadm.seq
    have hopened := hclosed.opened
    have hother : seq ≠ adm.callSeq := by omega
    exact
      { opened := by
          show seq ≤ a.modelCalls + 1
          omega
        tokens := by
          show (a.openReservations.set adm.callSeq _).get? seq = none
          rw [Dict.get?_set_ne _ _ hother]
          exact hclosed.tokens
        cost := by
          unfold reserveCapacity
          cases adm.worstCase with
          | none => exact hclosed.cost
          | some worst =>
            show (a.openCostReservations.set adm.callSeq worst).get? seq = none
            rw [Dict.get?_set_ne _ _ hother]
            exact hclosed.cost }
  | settled settled =>
    refine (sameCalls_recordActuals settled _).closed ⟨hclosed.opened, ?_, ?_⟩
    · exact get?_erase_of_none hclosed.tokens
    · exact get?_erase_of_none hclosed.cost
  | beside a' hsame => exact hsame.closed hclosed

theorem Updated.heldNonneg (h : Updated cfg a a') (hheld : a.HeldNonneg) : a'.HeldNonneg := by
  cases h with
  | opened call adm hadm =>
    have hinput := hheld.input
    have houtput := hheld.output
    have hestimated := estimatedInput_nonneg call
    refine ⟨?_, ?_⟩
    · show 0 ≤ a.reservedInputTokens + call.estimatedInput
      omega
    · show 0 ≤ if 0 < adm.heldOutput then a.reservedOutputTokens + adm.heldOutput
        else a.reservedOutputTokens
      split <;> omega
  | settled settled =>
    refine (sameCalls_recordActuals settled _).heldNonneg ⟨le_max_left _ _, ?_⟩
    show 0 ≤ if (a.held settled).2 = 0 then a.reservedOutputTokens
      else max 0 (a.reservedOutputTokens - (a.held settled).2)
    have houtput := hheld.output
    split <;> omega
  | beside a' hsame => exact hsame.heldNonneg hheld

end Accounts

/-! ## 3. One operation, and a run of them -/

section Runs

variable {cfg : BudgetConfig} {t : Tracker} {seq : ℤ}

theorem keeps_reserveSearch (env : Collaborators) (count : ℤ) :
    Keeps Tracker.reservations (reserveSearch cfg env count) := by
  unfold reserveSearch
  refine Action.relates_ite (keeps_pure _) (keeps_get.bind fun t => ?_)
  split
  · exact keeps_raise _
  · refine Action.relates_ite (keeps_raiseReject quiet_reservations _) ?_
    exact Keeps.bind (keeps_modify fun _ => rfl) fun _ => keeps_pure _

theorem keeps_settleSearch (env : Collaborators) (settled : SearchSettlement) :
    Keeps Tracker.reservations (settleSearch cfg env settled) := by
  unfold settleSearch
  refine Action.relates_ite (keeps_raise _) (keeps_get.bind fun t => ?_)
  split
  · exact keeps_pure _
  · refine Action.relates_ite ?_ ?_
    · exact Keeps.bind (keeps_modify fun _ => rfl) fun _ => keeps_raiseStop quiet_reservations _
    · exact Keeps.bind (keeps_modify fun _ => rfl) fun _ =>
        (keeps_record quiet_reservations).bind fun _ => keeps_checkSearches quiet_reservations _ _ _

/-- The daily reservations after a settlement are those its daily settlement left. -/
theorem settleCall_reservations (env : Collaborators) (settled : Settlement) (t : Tracker) :
    ((settleCall cfg env settled).after t).reservations =
      ((settleDaily env settled (settled.seq t.toAccounts)).after t).reservations := by
  rcases settleCall_holdings cfg env settled t with ⟨-, hafter⟩ | ⟨-, hheld⟩
  · rw [hafter]
  · exact congrArg Prod.snd hheld

namespace Operation

/-- The operation settles the call `seq`, which was opened, and the daily settler does not fail. -/
def SettlesCall (seq : ℤ) (t : Tracker) : Operation → Prop
  | .settleCall env settled =>
    settled.seq t.toAccounts = seq ∧ seq ≤ t.modelCalls ∧
      (settleDaily env settled seq).result t = .ok ()
  | _ => False

theorem updated (cfg : BudgetConfig) (op : Operation) (t : Tracker) :
    Accounts.Updated cfg t.toAccounts (op.perform cfg t).toAccounts := by
  have hsame : ∀ a, a = t.toAccounts → Accounts.Updated cfg t.toAccounts a := by
    intro a ha
    rw [ha]
    exact .beside _ (Accounts.sameCalls_refl _)
  cases op with
  | openCall env call =>
    rcases openCall_accounts cfg env call t with hkept | ⟨adm, hadm, hheld⟩
    · exact hsame _ hkept
    · show Accounts.Updated cfg _ ((Milo.Budget.openCall cfg env call).after t).toAccounts
      rw [hheld]
      exact .opened call adm (admitCall_spec hadm)
  | settleCall env settled =>
    rcases settleCall_accounts cfg env settled t with ⟨-, hkept⟩ | ⟨-, hreleased⟩
    · exact hsame _ hkept
    · show Accounts.Updated cfg _ ((Milo.Budget.settleCall cfg env settled).after t).toAccounts
      rw [hreleased]
      exact .settled settled
  | reserveSearch env count =>
    rcases reserveSearch_accounts cfg env count t with hkept | ⟨-, hheld⟩
    · exact hsame _ hkept
    · exact .beside _ (hheld ▸ ⟨rfl, rfl, rfl, rfl, rfl⟩)
  | settleSearch env settled =>
    rcases settleSearch_accounts cfg env settled t with
      ⟨-, hkept⟩ | ⟨-, held, -, ⟨-, hreleased⟩ | ⟨-, hspent⟩⟩
    · exact hsame _ hkept
    · exact .beside _ (hreleased ▸ ⟨rfl, rfl, rfl, rfl, rfl⟩)
    · exact .beside _ (hspent ▸ Accounts.sameCalls_spendSearch settled held _)

end Operation

/-- Nothing is held for a closed call, whatever is done next. -/
theorem Tracker.Closed.perform (h : t.Closed seq) (op : Operation) : (op.perform cfg t).Closed seq where
  accounts := (op.updated cfg t).closed h.accounts
  daily := by
    cases op with
    | openCall env call =>
      rcases openCall_holdings cfg env call t with hkept | ⟨adm, hadm, hheld⟩
      · exact (congrArg (fun held => held.2.get? seq) hkept).trans h.daily
      · refine (congrArg (fun held => held.2.get? seq) hheld).trans ?_
        have hnumber := (admitCall_spec hadm).seq
        have hopened := h.accounts.opened
        have hother : seq ≠ adm.callSeq := by omega
        show (keepReservation adm t.reservations).get? seq = none
        unfold keepReservation
        cases adm.reservation with
        | none => exact h.daily
        | some reservation => exact (Dict.get?_set_ne _ _ hother).trans h.daily
    | settleCall env settled =>
      show ((settleCall cfg env settled).after t).reservations.get? seq = none
      rw [settleCall_reservations]
      by_cases hown : seq = settled.seq t.toAccounts
      · rw [← hown]
        exact settleDaily_ok env settled seq t (settleDaily_absent env settled seq t h.daily)
      · exact (settleDaily_other env settled _ t hown).trans h.daily
    | reserveSearch env count =>
      exact (congrArg (Dict.get? · seq) (keeps_reserveSearch env count t)).trans h.daily
    | settleSearch env settled =>
      exact (congrArg (Dict.get? · seq) (keeps_settleSearch env settled t)).trans h.daily

theorem Operation.SettlesCall.closed {op : Operation} (h : op.SettlesCall seq t) :
    (op.perform cfg t).Closed seq := by
  cases op with
  | settleCall env settled =>
    obtain ⟨hseq, hopened, hok⟩ := h
    have hdone : (settleDaily env settled (settled.seq t.toAccounts)).result t = .ok () := by
      rw [hseq]
      exact hok
    have hafter : ((Milo.Budget.settleCall cfg env settled).after t).toAccounts =
        (t.toAccounts.releaseCall settled).recordActuals settled := by
      rcases settleCall_accounts cfg env settled t with ⟨⟨e, herror⟩, -⟩ | ⟨-, hreleased⟩
      · rw [hdone] at herror
        cases herror
      · exact hreleased
    refine ⟨?_, ?_⟩
    · show ((Milo.Budget.settleCall cfg env settled).after t).toAccounts.Closed seq
      rw [hafter]
      refine (Accounts.sameCalls_recordActuals settled _).closed ⟨hopened, ?_, ?_⟩
      · show (t.openReservations.erase (settled.seq t.toAccounts)).get? seq = none
        rw [hseq, Dict.get?_erase_self]
      · show (t.openCostReservations.erase (settled.seq t.toAccounts)).get? seq = none
        rw [hseq, Dict.get?_erase_self]
    · show ((Milo.Budget.settleCall cfg env settled).after t).reservations.get? seq = none
      rw [settleCall_reservations, hseq]
      exact settleDaily_ok env settled seq t hok
  | openCall | reserveSearch | settleSearch => exact h.elim

/-- One operation of any caller, on any call, any number of times. -/
def AnyOperation (cfg : BudgetConfig) : Tracker → Operation → Tracker → Prop :=
  Performs (fun _ _ => True) fun t op => op.perform cfg t

variable {hist : List (Tracker × Operation)}

/-- Once a call is settled, nothing is held for it in the rest of the run. -/
theorem closed_of_settled (hrun : Run (AnyOperation cfg) Tracker.fresh hist t) :
    (∃ e ∈ hist, e.2.SettlesCall seq e.1) → t.Closed seq := by
  refine hrun.history_invariant
    (J := fun hist t => (∃ e ∈ hist, e.2.SettlesCall seq e.1) → t.Closed seq) ?_ ?_
  · intro ⟨e, he, _⟩
    cases he
  · intro hist m op m' _ ih hstep ⟨e, he, hsettles⟩
    obtain ⟨-, rfl⟩ := hstep
    rcases List.mem_append.mp he with he | he
    · exact (ih ⟨e, he, hsettles⟩).perform op
    · rw [List.mem_singleton.mp he] at hsettles
      exact hsettles.closed

theorem heldNonneg_of_run (hrun : Run (AnyOperation cfg) Tracker.fresh hist t) :
    t.toAccounts.HeldNonneg := by
  refine hrun.invariant (I := fun t => t.toAccounts.HeldNonneg) ⟨le_refl 0, le_refl 0⟩ ?_
  intro m op m' hheld hstep
  obtain ⟨-, rfl⟩ := hstep
  exact (op.updated cfg m).heldNonneg hheld

/-! ## 4. The second settlement -/

theorem max_zero_sub_eq_iff (held passed : ℤ) (h : 0 ≤ held) :
    max 0 (held - max 0 passed) = held ↔ passed ≤ 0 ∨ held = 0 := by omega

/-- Releasing a closed call hands back what the caller says. -/
theorem releaseCall_closed {a : Accounts} {settled : Settlement} (hseq : settled.seq a = seq)
    (hclosed : a.Closed seq) (hheld : a.HeldNonneg) :
    (a.releaseCall settled).reservedInputTokens =
        max 0 (a.reservedInputTokens - max 0 settled.reservedInputTokens) ∧
      (a.releaseCall settled).reservedOutputTokens =
        max 0 (a.reservedOutputTokens - max 0 (settled.reservedOutputTokens.getD 0)) ∧
      (a.releaseCall settled).reservedCost = a.reservedCost := by
  have hpassed : a.held settled =
      (max 0 settled.reservedInputTokens, max 0 (settled.reservedOutputTokens.getD 0)) := by
    unfold Accounts.held
    rw [hseq, hclosed.tokens]
  have hcost : a.heldCost settled = 0 := by
    unfold Accounts.heldCost
    rw [hseq, hclosed.cost]
    rfl
  have houtput := hheld.output
  unfold Accounts.releaseCall
  rw [hpassed, hcost]
  refine ⟨rfl, ?_, ?_⟩
  · show (if max 0 (settled.reservedOutputTokens.getD 0) = 0 then a.reservedOutputTokens
      else max 0 (a.reservedOutputTokens - max 0 (settled.reservedOutputTokens.getD 0))) = _
    split <;> omega
  · show (if (0 : ℚ) = 0 then a.reservedCost else max 0 (a.reservedCost - 0)) = a.reservedCost
    exact if_pos rfl

/-- A further settlement of a settled call leaves every reservation alone exactly if its caller passes
    no tokens of a kind that other calls hold. -/
theorem leavesReservations_iff (cfg : BudgetConfig) {hist : List (Tracker × Operation)} {t : Tracker}
    (hrun : Run (AnyOperation cfg) Tracker.fresh hist t) {seq : ℤ}
    (hsettled : ∃ e ∈ hist, e.2.SettlesCall seq e.1) (env : Collaborators) (again : Settlement)
    (hagain : again.seq t.toAccounts = seq) :
    LeavesReservations seq t ((settleCall cfg env again).after t) ↔ NothingToHandBack t again := by
  have hclosed := closed_of_settled hrun hsettled
  have hheld := heldNonneg_of_run hrun
  have hdone : (settleDaily env again (again.seq t.toAccounts)).result t = .ok () := by
    rw [hagain]
    exact settleDaily_absent env again seq t hclosed.daily
  have hafter : ((settleCall cfg env again).after t).toAccounts =
      (t.toAccounts.releaseCall again).recordActuals again := by
    rcases settleCall_accounts cfg env again t with ⟨⟨e, herror⟩, -⟩ | ⟨-, hreleased⟩
    · rw [hdone] at herror
      cases herror
    · exact hreleased
  obtain ⟨hinput, houtput, hcost⟩ := releaseCall_closed hagain hclosed.accounts hheld
  have hrecord := Accounts.sameCalls_recordActuals again (t.toAccounts.releaseCall again)
  have hinput' : ((settleCall cfg env again).after t).reservedInputTokens = _ :=
    (congrArg Accounts.reservedInputTokens hafter).trans (hrecord.input.trans hinput)
  have houtput' : ((settleCall cfg env again).after t).reservedOutputTokens = _ :=
    (congrArg Accounts.reservedOutputTokens hafter).trans (hrecord.output.trans houtput)
  have hpassedInput := max_zero_sub_eq_iff _ again.reservedInputTokens hheld.input
  have hpassedOutput := max_zero_sub_eq_iff _ (again.reservedOutputTokens.getD 0) hheld.output
  constructor
  · intro h
    exact ⟨hpassedInput.mp (hinput'.symm.trans h.input),
      hpassedOutput.mp (houtput'.symm.trans h.output)⟩
  · intro h
    exact
      { input := hinput'.trans (hpassedInput.mpr h.input)
        output := houtput'.trans (hpassedOutput.mpr h.output)
        cost := by
          refine (congrArg Accounts.reservedCost hafter).trans ?_
          rw [Accounts.reservedCost_recordActuals, hcost]
        tokens := by
          intro other hother
          refine (congrArg (fun a : Accounts => a.openReservations.get? other) hafter).trans ?_
          rw [hrecord.tokens]
          show (t.openReservations.erase (again.seq t.toAccounts)).get? other = _
          rw [hagain, Dict.get?_erase_ne _ hother]
        costs := by
          intro other hother
          refine (congrArg (fun a : Accounts => a.openCostReservations.get? other) hafter).trans ?_
          rw [hrecord.cost]
          show (t.openCostReservations.erase (again.seq t.toAccounts)).get? other = _
          rw [hagain, Dict.get?_erase_ne _ hother]
        daily := by
          intro other hother
          rw [settleCall_reservations, hagain, settleDaily_other env again seq t hother] }

end Runs

/-! ### Two calls, and the first of them settled twice -/

def settledFirst : Settlement := ⟨10, some 20, 10, 20, none, "settled", none, some 1, none, ""⟩

/-- Two calls are opened, and the first is settled. -/
def oneOfTwo : List Operation :=
  [.openCall .quiet tenAndTwenty, .openCall .quiet tenAndTwenty, .settleCall .quiet settledFirst]

def afterOneOfTwo : Tracker := oneOfTwo.foldl (fun t op => op.perform smallConfig t) Tracker.fresh

def oneOfTwoHistory : List (Tracker × Operation) :=
  performed (fun t op => op.perform smallConfig t) Tracker.fresh oneOfTwo

theorem oneOfTwo_run :
    Run (AnyOperation smallConfig) Tracker.fresh oneOfTwoHistory afterOneOfTwo :=
  run_performed oneOfTwo _ fun _ _ => trivial

theorem oneOfTwo_settles : ∃ e ∈ oneOfTwoHistory, e.2.SettlesCall 1 e.1 := by
  refine ⟨(_, .settleCall .quiet settledFirst), List.mem_cons_of_mem _ (List.mem_cons_of_mem _
    List.mem_cons_self), rfl, ?_, ?_⟩
  · decide +kernel
  · exact settleDaily_absent _ _ _ _ (by decide +kernel)

theorem leavesReservations_iff_settledFirst :
    LeavesReservations 1 afterOneOfTwo
        ((settleCall smallConfig .quiet settledFirst).after afterOneOfTwo) ↔
      NothingToHandBack afterOneOfTwo settledFirst :=
  leavesReservations_iff smallConfig oneOfTwo_run oneOfTwo_settles .quiet settledFirst rfl

/-- The second settlement of the first call hands back what the second call holds. -/
theorem settledFirst_handsBack :
    ¬ ∀ (cfg : BudgetConfig) (hist : List (Tracker × Operation)) (t : Tracker) (seq : ℤ),
      Run (AnyOperation cfg) Tracker.fresh hist t → (∃ e ∈ hist, e.2.SettlesCall seq e.1) →
      ∀ (env : Collaborators) (again : Settlement), again.seq t.toAccounts = seq →
      LeavesReservations seq t ((settleCall cfg env again).after t) := by
  intro hclaim
  have hleft := (hclaim smallConfig _ _ 1 oneOfTwo_run oneOfTwo_settles .quiet settledFirst rfl).input
  have hheld : afterOneOfTwo.reservedInputTokens = 10 := by decide +kernel
  have hafter : ((settleCall smallConfig .quiet settledFirst).after
      afterOneOfTwo).reservedInputTokens = 0 := by decide +kernel
  rw [hheld, hafter] at hleft
  omega

end Milo.Budget
