import Milo.Budget.Ceilings

/-!
# DollarCeiling — the per-run dollar ceiling across calls and searches

Two gates guard `max_cost_per_run`.  `openCall` counts the worst cases already held for calls in
flight; the pre-execution price check of `settleSearch` counts only what is already recorded.  The
ceiling therefore holds in exactly those runs in which no search is charged into dollars that a
call in flight still holds.
-/

namespace Milo.Budget

open Milo.Reasoning

/-- What is spent and held stays within the ceiling. -/
def UnderCeiling (ceiling : ℚ) (t : Tracker) : Prop := t.actualCost + t.reservedCost ≤ ceiling

/-- No contract call is in flight: the state of a constructed or restored tracker. -/
structure NoneInFlight (t : Tracker) : Prop where
  held : t.openCostReservations = .empty
  total : t.reservedCost = 0

namespace Operation

/-- Contract calls settled within the worst case held for them, and standalone searches. -/
def WithinReservation (cfg : BudgetConfig) (t : Tracker) : Operation → Prop
  | .openCall _ call => call.contract.isSome ∧ call.costProfile.isSome
  | .settleCall _ settled => settled.actualCost ≤ t.heldCost settled
  | .reserveSearch _ _ => True
  | .settleSearch _ settled => settled.preExecution = true ∧ 0 ≤ settled.unit cfg

/-- A search whose price fits what is recorded also fits beside what is held for calls. -/
def SearchFits (cfg : BudgetConfig) (ceiling : ℚ) (t : Tracker) : Operation → Prop
  | .settleSearch _ settled => ∀ held,
      t.openSearchReservations.get? settled.reservationSeq = some held →
      t.actualCost + settled.amount cfg held ≤ ceiling →
      t.actualCost + t.reservedCost + settled.amount cfg held ≤ ceiling
  | _ => True

end Operation

def DollarStep (cfg : BudgetConfig) : Tracker → Operation → Tracker → Prop :=
  Performs (fun t op => op.WithinReservation cfg t) fun t op => op.perform cfg t

/-- The worst cases held for calls are recorded under the calls they are held for. -/
def CostsHeld (t : Tracker) : Prop :=
  Holds (fun w : ℚ => w) t.openCostReservations t.reservedCost t.modelCalls

variable {t : Tracker}

theorem CostsHeld.of_toAccounts_eq {t' : Tracker} (h : t'.toAccounts = t.toAccounts) (hheld : CostsHeld t) :
    CostsHeld t' := by
  unfold CostsHeld
  rw [h]
  exact hheld

theorem NoneInFlight.costsHeld (h : NoneInFlight t) : CostsHeld t := by
  unfold CostsHeld
  rw [h.held, h.total]
  exact Holds.empty _ _

namespace Accounts

variable {cfg : BudgetConfig} {a : Accounts}

theorem cost_reserveCapacity {call : CallRequest} {adm : Admission}
    (h : Holds (fun w : ℚ => w) a.openCostReservations a.reservedCost a.modelCalls)
    (hadm : Admitted cfg a call adm) :
    Holds (fun w : ℚ => w) (a.reserveCapacity cfg call adm).openCostReservations
      (a.reserveCapacity cfg call adm).reservedCost (a.modelCalls + 1) := by
  have hlt : a.modelCalls < a.modelCalls + 1 := lt_add_one _
  cases hworst : adm.worstCase with
  | none =>
    simp only [Accounts.reserveCapacity, hworst, Option.getD_none, add_zero]
    exact h.mono hlt.le
  | some w =>
    simp only [Accounts.reserveCapacity, hworst, Option.getD_some]
    rw [hadm.seq]
    exact h.opened hlt (hadm.worst w hworst).1

theorem spendSearch_cost (cfg : BudgetConfig) (a : Accounts) (settled : SearchSettlement) (held : ℤ) :
    (a.spendSearch cfg settled held).actualCost = a.actualCost + settled.amount cfg held ∧
      (a.spendSearch cfg settled held).reservedCost = a.reservedCost ∧
      (a.spendSearch cfg settled held).openCostReservations = a.openCostReservations ∧
      (a.spendSearch cfg settled held).modelCalls = a.modelCalls := by
  unfold Accounts.spendSearch Accounts.chargeSearch
  split
  · rename_i hzero
    refine ⟨?_, rfl, rfl, rfl⟩
    simp [SearchSettlement.amount, hzero, Accounts.releaseSearch]
  · exact ⟨rfl, rfl, rfl, rfl⟩

theorem recordActuals_cost (a : Accounts) (settled : Settlement) :
    (a.recordActuals settled).actualCost = a.actualCost + max 0 settled.actualCost ∧
      (a.recordActuals settled).reservedCost = a.reservedCost ∧
      (a.recordActuals settled).openCostReservations = a.openCostReservations ∧
      (a.recordActuals settled).modelCalls = a.modelCalls := by
  have hactual : (if 0 < settled.actualCost then a.actualCost + settled.actualCost
      else a.actualCost) = a.actualCost + max 0 settled.actualCost := by
    split
    · rename_i hpos
      rw [max_eq_right hpos.le]
    · rename_i hpos
      rw [max_eq_left (not_lt.mp hpos), add_zero]
  unfold Accounts.recordActuals Accounts.recordUsage
  cases settled.usage <;> exact ⟨hactual, rfl, rfl, rfl⟩

end Accounts

theorem dollarStep_costsHeld {cfg : BudgetConfig} {t' : Tracker} {op : Operation} (hheld : CostsHeld t)
    (hstep : DollarStep cfg t op t') : CostsHeld t' := by
  obtain ⟨-, rfl⟩ := hstep
  cases op with
  | openCall env call =>
    rcases openCall_accounts cfg env call t with hsame | ⟨adm, hadm, hopened⟩
    · exact hheld.of_toAccounts_eq hsame
    · unfold CostsHeld
      simp only [Operation.perform, hopened]
      exact Accounts.cost_reserveCapacity hheld (admitCall_spec hadm)
  | settleCall env settled =>
    rcases settleCall_accounts cfg env settled t with ⟨-, hsame⟩ | ⟨-, hsettled⟩
    · exact hheld.of_toAccounts_eq hsame
    · obtain ⟨-, hreserved, hopen, hcalls⟩ :=
        Accounts.recordActuals_cost (t.toAccounts.releaseCall settled) settled
      unfold CostsHeld
      simp only [Operation.perform, hsettled, hreserved, hopen, hcalls]
      exact (Accounts.cost_releaseCall settled hheld).2
  | reserveSearch env count =>
    rcases reserveSearch_accounts cfg env count t with hsame | ⟨-, hopened⟩
    · exact hheld.of_toAccounts_eq hsame
    · unfold CostsHeld
      simp only [Operation.perform, hopened]
      exact hheld
  | settleSearch env settled =>
    rcases settleSearch_accounts cfg env settled t with
      ⟨-, hsame⟩ | ⟨-, held, -, ⟨-, hreleased⟩ | ⟨-, hspent⟩⟩
    · exact hheld.of_toAccounts_eq hsame
    · unfold CostsHeld
      simp only [Operation.perform, hreleased]
      exact hheld
    · obtain ⟨-, hreserved, hopen, hcalls⟩ :=
        Accounts.spendSearch_cost cfg t.toAccounts settled held
      unfold CostsHeld
      simp only [Operation.perform, hspent, hreserved, hopen, hcalls]
      exact hheld

/-- The step lemma: from a state under the ceiling only a search can leave it, and it does exactly
    when its price fits what is recorded but not beside what is held. -/
theorem dollarStep_underCeiling {cfg : BudgetConfig} {ceiling : ℚ} (hceiling : cfg.maxCostPerRun = some ceiling)
    {t' : Tracker} {op : Operation} (hheld : CostsHeld t) (hunder : UnderCeiling ceiling t)
    (hstep : DollarStep cfg t op t') : UnderCeiling ceiling t' ↔ op.SearchFits cfg ceiling t := by
  obtain ⟨hwithin, rfl⟩ := hstep
  unfold UnderCeiling at hunder ⊢
  cases op with
  | openCall env call =>
    simp only [Operation.SearchFits, iff_true, Operation.perform]
    rcases openCall_accounts cfg env call t with hsame | ⟨adm, hadm, hopened⟩
    · rw [hsame]
      exact hunder
    · have hadmitted := admitCall_spec hadm
      rw [hopened]
      simp only [Accounts.reserveCapacity]
      cases hworst : adm.worstCase with
      | none => simpa using hunder
      | some w =>
        have hfits := (hadmitted.worst w hworst).2 ceiling hceiling
        rw [Option.getD_some]
        linarith
  | settleCall env settled =>
    simp only [Operation.SearchFits, iff_true, Operation.perform]
    rcases settleCall_accounts cfg env settled t with ⟨-, hsame⟩ | ⟨-, hsettled⟩
    · rw [hsame]
      exact hunder
    · obtain ⟨hactual, hreserved, -, -⟩ :=
        Accounts.recordActuals_cost (t.toAccounts.releaseCall settled) settled
      obtain ⟨hreleased, -⟩ := Accounts.cost_releaseCall settled hheld
      rw [hsettled, hactual, hreserved, hreleased]
      have hkept : (t.toAccounts.releaseCall settled).actualCost = t.actualCost := rfl
      have hnonneg : 0 ≤ t.heldCost settled := by
        unfold Accounts.heldCost
        rcases Option.eq_none_or_eq_some (t.openCostReservations.get? (settled.seq t.toAccounts))
          with hget | ⟨w, hget⟩
        · simp [hget]
        · simpa [hget] using hheld.nonneg _ _ hget
      have hcost : max 0 settled.actualCost ≤ t.heldCost settled := max_le hnonneg hwithin
      rw [hkept]
      linarith
  | reserveSearch env count =>
    simp only [Operation.SearchFits, iff_true, Operation.perform]
    rcases reserveSearch_accounts cfg env count t with hsame | ⟨-, hopened⟩
    · rw [hsame]
      exact hunder
    · rw [hopened]
      exact hunder
  | settleSearch env settled =>
    simp only [Operation.SearchFits, Operation.perform]
    rcases settleSearch_accounts cfg env settled t with
      ⟨hidle, hsame⟩ | ⟨-, held, hget, ⟨hrefused, hreleased⟩ | ⟨hcharged, hspent⟩⟩
    · have hnone : t.openSearchReservations.get? settled.reservationSeq = none :=
        hidle.resolve_left (not_lt.mpr hwithin.2)
      rw [hsame, hnone]
      simpa using hunder
    · -- the price check refused: nothing is charged and the price does not fit what is recorded
      rcases hrefused with ⟨-, -, limit, hlimit, hover⟩
      have hlimit : limit = ceiling := Option.some.inj (hlimit.symm.trans hceiling)
      subst hlimit
      rw [hreleased, hget]
      constructor
      · intro _ held' hheld' hfits
        cases hheld'
        exact absurd hfits (not_le.mpr hover)
      · intro _
        exact hunder
    · rcases Accounts.spendSearch_cost cfg t.toAccounts settled held with
        ⟨hactual, hreserved, -, -⟩
      rw [hspent, hget, hactual, hreserved]
      constructor
      · intro hafter held' hheld' _
        cases hheld'
        linarith
      · intro hfits
        by_cases hzero : settled.charged held = 0
        · have hamount : settled.amount cfg held = 0 := by
            simp [SearchSettlement.amount, hzero]
          rw [hamount]
          linarith
        · have hrecorded : t.actualCost + settled.amount cfg held ≤ ceiling := by
            by_contra hover
            exact hcharged ⟨hwithin.1, hzero, ceiling, hceiling, not_le.mp hover⟩
          have hbeside := hfits held rfl hrecorded
          linarith

/-- A run stays under the dollar ceiling exactly if every search in it that was charged fitted
    beside the worst cases held at that moment. -/
theorem underCeiling_iff (cfg : BudgetConfig) (ceiling : ℚ)
    (hceiling : cfg.maxCostPerRun = some ceiling) {t₀ t : Tracker}
    {hist : List (Tracker × Operation)} (hnone : NoneInFlight t₀)
    (hstart : t₀.actualCost ≤ ceiling) (hrun : Run (DollarStep cfg) t₀ hist t) :
    Throughout (UnderCeiling ceiling) hist t ↔
      ∀ e ∈ hist, e.2.SearchFits cfg ceiling e.1 := by
  have hunder : UnderCeiling ceiling t₀ := by
    unfold UnderCeiling
    rw [hnone.total, add_zero]
    exact hstart
  exact hrun.throughout_iff hnone.costsHeld hunder
    (fun _ _ _ hheld hstep => dollarStep_costsHeld hheld hstep)
    (fun _ _ _ hheld hm hstep => dollarStep_underCeiling hceiling hheld hm hstep)

/-! ## A run that ends above the ceiling -/

def oneDollarConfig : BudgetConfig :=
  { BudgetConfig.default with maxCostPerRun := some 1, searchCostPerInvocation := 1 / 20 }

/-- A role call whose worst case is 96 cents. -/
def commanderCall : CallRequest where
  estimatedInputTokens := 0
  requestedMaxTokens := some ⟨64000, by decide⟩
  contract := some ⟨"commander", 1⟩
  costProfile := some kimiK3
  inputUpperBound := 0

def commanderSettlement : Settlement where
  reservedInputTokens := 0
  reservedOutputTokens := some 64000
  inputTokens := 0
  outputTokens := 64000
  cost := some (96 / 100)
  status := "settled"
  rejectionReason := none
  callSeq := some 1
  usage := none
  model := "kimi-k3"

/-- One call is opened, one search is reserved and charged, and the call settles. -/
def commanderWithSearch : List Operation :=
  [.openCall .quiet commanderCall, .reserveSearch .quiet 1,
    .settleSearch .quiet ⟨1, some 1, none, true⟩, .settleCall .quiet commanderSettlement]

def afterDollars (ops : List Operation) : Tracker :=
  ops.foldl (fun t op => op.perform oneDollarConfig t) Tracker.fresh

def dollarHistory (ops : List Operation) : List (Tracker × Operation) :=
  performed (fun t op => op.perform oneDollarConfig t) Tracker.fresh ops

theorem fresh_noneInFlight : NoneInFlight Tracker.fresh := ⟨rfl, rfl⟩

theorem commanderWithSearch_run : Run (DollarStep oneDollarConfig) Tracker.fresh
    (dollarHistory commanderWithSearch) (afterDollars commanderWithSearch) := by
  apply run_performed
  intro e he
  simp only [commanderWithSearch, performed, List.mem_cons, List.not_mem_nil, or_false] at he
  rcases he with rfl | rfl | rfl | rfl
  · exact ⟨rfl, rfl⟩
  · trivial
  · exact ⟨rfl, by decide +kernel⟩
  · have hheld : commanderSettlement.actualCost ≤
        (afterDollars (commanderWithSearch.take 3)).heldCost commanderSettlement := by
      decide +kernel
    exact hheld

theorem underCeiling_iff_commanderWithSearch :
    Throughout (UnderCeiling 1) (dollarHistory commanderWithSearch)
        (afterDollars commanderWithSearch) ↔
      ∀ e ∈ dollarHistory commanderWithSearch, e.2.SearchFits oneDollarConfig 1 e.1 :=
  underCeiling_iff oneDollarConfig 1 rfl fresh_noneInFlight (by decide +kernel)
    commanderWithSearch_run

/-- Under a ceiling of one dollar the run ends with 1.01 dollars recorded. -/
theorem dollarCeiling_exceeded :
    ¬ ∀ (cfg : BudgetConfig) (ceiling : ℚ) (t₀ t : Tracker) (hist : List (Tracker × Operation)),
      cfg.maxCostPerRun = some ceiling → NoneInFlight t₀ → t₀.actualCost ≤ ceiling →
      Run (DollarStep cfg) t₀ hist t →
      t.actualCost + t.reservedCost ≤ ceiling ∧ t.actualCost ≤ ceiling := by
  intro hclaim
  have hspent := (hclaim oneDollarConfig 1 _ _ _ rfl fresh_noneInFlight (by decide +kernel)
    commanderWithSearch_run).2
  have hactual : (afterDollars commanderWithSearch).actualCost = 101 / 100 := by decide +kernel
  rw [hactual] at hspent
  norm_num at hspent

end Milo.Budget
