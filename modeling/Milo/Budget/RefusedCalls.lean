import Milo.Budget.Ceilings

/-!
# Refused calls — what a call that is not admitted leaves reserved

`openCall` asks the user's reserver, then the project's, and only then holds the capacity and makes
it durable.  A refusal at any of its checks leaves everything as it was.  What is granted or held
before a later collaborator fails stays so: a project reserver that refuses after the user's has
granted, and a recorder that raises once the capacity is held.
-/

namespace Milo.Budget

open Milo.Reasoning

/-! ## 1. What a call reserves -/

/-- What the tracker counts and holds for calls. -/
structure Reserved where
  modelCalls : ℤ
  providerAttempts : ℤ
  estimatedCost : ℚ
  reservedInputTokens : ℤ
  reservedOutputTokens : ℤ
  reservedSearchInvocations : ℤ
  reservedCost : ℚ
  openReservations : Dict ℤ (ℤ × ℤ)
  openCostReservations : Dict ℤ ℚ
  openSearchReservations : Dict ℤ ℤ
  reservations : Dict ℤ ModelCallReservation

def Tracker.reserved (t : Tracker) : Reserved where
  modelCalls := t.modelCalls
  providerAttempts := t.providerAttempts
  estimatedCost := t.estimatedCost
  reservedInputTokens := t.reservedInputTokens
  reservedOutputTokens := t.reservedOutputTokens
  reservedSearchInvocations := t.reservedSearchInvocations
  reservedCost := t.reservedCost
  openReservations := t.openReservations
  openCostReservations := t.openCostReservations
  openSearchReservations := t.openSearchReservations
  reservations := t.reservations

theorem quiet_reserved : Quiet Tracker.reserved :=
  ⟨fun _ _ => rfl, fun _ _ => rfl, fun _ _ => rfl⟩

/-! ## 2. The gate, up to the reservers -/

section Gate

variable (cfg : BudgetConfig) (env : Collaborators) (call : CallRequest) (t : Tracker)

/-- The checks made before any reserver is asked: the output allowance and the worst case. -/
def gateChecks : Except Refusal (Option ℤ × Option ℚ) := do
  checkPermitted env
  checkCounts cfg env t
  let remaining ← remainingOutput cfg t.toAccounts call
  checkCosts cfg env t
  let allowed := allowedOutput remaining call
  checkAnswerReserve call allowed
  let worst ← worstCase cfg env t call allowed
  pure (allowed, worst)

/-- What the reservers are asked to hold. -/
def askedAmount (worst : Option ℚ) : ℚ := worst.getD cfg.estimatedCostPerCall

/-- The answer of a reserver that is asked, as the tracker reads it. -/
def reserverAnswer (limit : Option ℚ) (reserver : Option (ℚ → ℤ → Reply RawReservation))
    (amount : ℚ) (callSeq : ℤ) : Option (Except Refusal ModelCallReservation) :=
  match limit, reserver with
  | some _, some reserve => some do
    normalizeReservation (← asked (reserve amount callSeq)) callSeq amount
  | _, _ => none

def userAnswer (worst : Option ℚ) : Option (Except Refusal ModelCallReservation) :=
  reserverAnswer cfg.dailyUserBudget env.dailyUserReserver (askedAmount cfg worst) (t.modelCalls + 1)

def projectAnswer (worst : Option ℚ) : Option (Except Refusal ModelCallReservation) :=
  reserverAnswer cfg.dailyProjectBudget env.dailyProjectReserver (askedAmount cfg worst)
    (t.modelCalls + 1)

def grantOf : Option (Except Refusal ModelCallReservation) → List ModelCallReservation
  | some (.ok reservation) => [reservation]
  | _ => []

def Refuses : Option (Except Refusal ModelCallReservation) → Prop
  | some (.error _) => True
  | _ => False

instance : DecidablePred Refuses := fun answer => by
  unfold Refuses
  split <;> infer_instance

/-- The daily reservations granted during the call.  `openCall` never asks the settler, so each of
    them is still held when it ends. -/
def dailyGrants : List ModelCallReservation :=
  match t.stop, gateChecks cfg env call t with
  | none, .ok (_, worst) =>
    if Refuses (userAnswer cfg env t worst) then []
    else grantOf (userAnswer cfg env t worst) ++ grantOf (projectAnswer cfg env t worst)
  | _, _ => []

/-- Both recorders, where they are wired, take the admission. -/
structure RecordersTake (row : LedgerRow) : Prop where
  ledger : ∀ recorder ∈ env.ledgerRecorder, recorder row = .ok ()
  usage : ∀ reported ∈ env.usageRecorder, ∃ version, reported = .ok version

/-- The collaborators of a call that passed its checks with this allowance and worst case agree. -/
structure AgreeOn (allowed : Option ℤ) (worst : Option ℚ) : Prop where
  /-- Where the user's reserver grants, the project's does not refuse. -/
  reservers : grantOf (userAnswer cfg env t worst) ≠ [] → ¬ Refuses (projectAnswer cfg env t worst)
  /-- Where neither reserver refuses, the recorders take the admission. -/
  recorders : ¬ Refuses (userAnswer cfg env t worst) → ¬ Refuses (projectAnswer cfg env t worst) →
    RecordersTake env (reservedRow cfg call ⟨t.modelCalls + 1, allowed, worst, none⟩)

/-- The condition of a call: once its checks pass, the collaborators agree. -/
def CollaboratorsAgree : Prop :=
  t.stop = none → ∀ allowed worst, gateChecks cfg env call t = .ok (allowed, worst) →
    AgreeOn cfg env call t allowed worst

/-- A call that raises reserves nothing, and one that returns has one record for its sequence. -/
structure RefusalReservesNothing : Prop where
  refused : ∀ e, (openCall cfg env call).result t = .error e →
    ((openCall cfg env call).after t).reserved = t.reserved ∧ dailyGrants cfg env call t = []
  returned : ∀ seq allowed, (openCall cfg env call).result t = .ok (seq, allowed) →
    ((openCall cfg env call).after t).openReservations.keys.count seq = 1

end Gate

/-! ## 3. The reservers -/

section Reservers

variable {cfg : BudgetConfig} {env : Collaborators} {call : CallRequest} {t : Tracker}

/-- One reserver of the gate, by the answer the tracker reads. -/
theorem reserveDailyOne_eq (limit : Option ℚ) (reserver : Option (ℚ → ℤ → Reply RawReservation))
    (amount : ℚ) (callSeq : ℤ) (before : Option ModelCallReservation) :
    reserveDailyOne limit reserver amount callSeq before =
      (reserverAnswer limit reserver amount callSeq).elim (.ok before) (some <$> ·) := by
  cases limit with
  | none => rfl
  | some limit =>
    cases reserver with
    | none => rfl
    | some reserve =>
      simp only [reserveDailyOne, reserverAnswer, Option.elim_some]
      cases asked (reserve amount callSeq) <;> rfl

theorem reserveDailyOne_error {limit : Option ℚ} {reserver : Option (ℚ → ℤ → Reply RawReservation)}
    {amount : ℚ} {callSeq : ℤ} (before : Option ModelCallReservation) :
    (∃ e, reserveDailyOne limit reserver amount callSeq before = .error e) ↔
      Refuses (reserverAnswer limit reserver amount callSeq) := by
  rw [reserveDailyOne_eq]
  cases reserverAnswer limit reserver amount callSeq with
  | none => exact ⟨(fun ⟨_, h⟩ => by cases h), False.elim⟩
  | some answer =>
    cases answer with
    | error e => exact ⟨fun _ => trivial, fun _ => ⟨e, rfl⟩⟩
    | ok reservation => exact ⟨(fun ⟨_, h⟩ => by cases h), False.elim⟩

theorem not_error_iff_ok {ε α : Type} {r : Except ε α} : (¬ ∃ e, r = .error e) ↔ ∃ a, r = .ok a := by
  cases r with
  | error e => exact ⟨fun h => absurd ⟨e, rfl⟩ h, (fun ⟨_, h⟩ => by cases h)⟩
  | ok a => exact ⟨fun _ => ⟨a, rfl⟩, (fun _ ⟨_, h⟩ => by cases h)⟩

/-- The two reservers let the call through exactly if neither refuses. -/
theorem reserveDaily_ok (worst : Option ℚ) :
    (∃ reservation, reserveDaily cfg env (askedAmount cfg worst) (t.modelCalls + 1) =
        .ok reservation) ↔
      ¬ Refuses (userAnswer cfg env t worst) ∧ ¬ Refuses (projectAnswer cfg env t worst) := by
  unfold reserveDaily userAnswer projectAnswer
  constructor
  · rintro ⟨reservation, h⟩
    obtain ⟨user, huser, hproject⟩ := except_bind_eq_ok.mp h
    refine ⟨fun hrefuses => ?_, fun hrefuses => ?_⟩
    · obtain ⟨e, he⟩ := (reserveDailyOne_error none).mpr hrefuses
      rw [he] at huser
      cases huser
    · obtain ⟨e, he⟩ := (reserveDailyOne_error user).mpr hrefuses
      rw [he] at hproject
      cases hproject
  · rintro ⟨huser, hproject⟩
    obtain ⟨user, hu⟩ := not_error_iff_ok.mp fun h => huser ((reserveDailyOne_error none).mp h)
    obtain ⟨reservation, hp⟩ := not_error_iff_ok.mp fun h => hproject ((reserveDailyOne_error user).mp h)
    exact ⟨reservation, except_bind_eq_ok.mpr ⟨user, hu, hp⟩⟩

theorem admitCall_eq (cfg : BudgetConfig) (env : Collaborators) (t : Tracker) (call : CallRequest) :
    admitCall cfg env t call = gateChecks cfg env call t >>= fun granted =>
      reserveDaily cfg env (askedAmount cfg granted.2) (t.modelCalls + 1) >>= fun reservation =>
        pure ⟨t.modelCalls + 1, granted.1, granted.2, reservation⟩ := by
  unfold admitCall gateChecks askedAmount
  simp only [bind_assoc, pure_bind]

theorem admitCall_of_gate_error {refusal : Refusal}
    (h : gateChecks cfg env call t = .error refusal) :
    admitCall cfg env t call = .error refusal := by
  rw [admitCall_eq, h]
  rfl

variable {allowed : Option ℤ} {worst : Option ℚ}

theorem admitCall_of_refused (h : gateChecks cfg env call t = .ok (allowed, worst))
    (hrefused : Refuses (userAnswer cfg env t worst) ∨ Refuses (projectAnswer cfg env t worst)) :
    ∃ refusal, admitCall cfg env t call = .error refusal := by
  refine not_not.mp fun hok => ?_
  obtain ⟨adm, hadm⟩ := not_error_iff_ok.mp hok
  rw [admitCall_eq, h] at hadm
  obtain ⟨passed, hpassed, hadm⟩ := except_bind_eq_ok.mp hadm
  cases hpassed
  obtain ⟨reservation, hreserved, -⟩ := except_bind_eq_ok.mp hadm
  obtain ⟨huser, hproject⟩ := (reserveDaily_ok worst).mp ⟨reservation, hreserved⟩
  exact hrefused.elim huser hproject

theorem admitCall_of_granted (h : gateChecks cfg env call t = .ok (allowed, worst))
    (huser : ¬ Refuses (userAnswer cfg env t worst)) (hproject : ¬ Refuses (projectAnswer cfg env t worst)) :
    ∃ reservation, admitCall cfg env t call =
      .ok ⟨t.modelCalls + 1, allowed, worst, reservation⟩ := by
  obtain ⟨reservation, hreserved⟩ := (reserveDaily_ok worst).mpr ⟨huser, hproject⟩
  refine ⟨reservation, ?_⟩
  rw [admitCall_eq, h]
  exact except_bind_eq_ok.mpr ⟨_, rfl, except_bind_eq_ok.mpr ⟨reservation, hreserved, rfl⟩⟩

/-! ### What the reservers granted -/

theorem dailyGrants_stopped {exceeded : BudgetExceeded} (h : t.stop = some exceeded) :
    dailyGrants cfg env call t = [] := by
  unfold dailyGrants
  rw [h]

theorem dailyGrants_of_gate_error {refusal : Refusal}
    (h : gateChecks cfg env call t = .error refusal) : dailyGrants cfg env call t = [] := by
  unfold dailyGrants
  rw [h]
  cases t.stop <;> rfl

theorem dailyGrants_of_gate (hstop : t.stop = none) (h : gateChecks cfg env call t = .ok (allowed, worst)) :
    dailyGrants cfg env call t = if Refuses (userAnswer cfg env t worst) then []
      else grantOf (userAnswer cfg env t worst) ++ grantOf (projectAnswer cfg env t worst) := by
  unfold dailyGrants
  rw [h, hstop]

theorem grantOf_of_refuses {answer : Option (Except Refusal ModelCallReservation)}
    (h : Refuses answer) : grantOf answer = [] := by
  cases answer with
  | none => rfl
  | some answer =>
    cases answer with
    | error e => rfl
    | ok reservation => exact h.elim

end Reservers

/-! ## 4. What one call leaves -/

section Calls

variable {cfg : BudgetConfig} {env : Collaborators} {call : CallRequest} {t : Tracker}

theorem raiseStop_raises {α : Type} (exceeded : BudgetExceeded) (t : Tracker) :
    ∃ e, (raiseStop env exceeded : BudgetM α).result t = .error e := by
  refine not_not.mp fun hok => ?_
  obtain ⟨a, ha⟩ := not_error_iff_ok.mp hok
  obtain ⟨_, -, h⟩ := Action.result_bind_eq_ok.mp ha
  cases h

theorem raiseReject_raises {α : Type} (exceeded : BudgetExceeded) (t : Tracker) :
    ∃ e, (raiseReject env exceeded : BudgetM α).result t = .error e := by
  refine not_not.mp fun hok => ?_
  obtain ⟨a, ha⟩ := not_error_iff_ok.mp hok
  obtain ⟨before, -, h⟩ := Action.result_bind_eq_ok.mp ha
  obtain ⟨_, -, h⟩ := Action.result_bind_eq_ok.mp h
  obtain ⟨e, he⟩ := raiseStop_raises (α := α) exceeded _
  rw [he] at h
  cases h

theorem ofReply_ok {α : Type} {reply : Reply α} {a : α} {t : Tracker} :
    (ofReply reply).result t = .ok a ↔ reply = .ok a := by
  cases reply with
  | ok b =>
    show Except.ok b = Except.ok a ↔ _
    simp
  | error fault => exact ⟨(fun h => by cases h), (fun h => by cases h)⟩

theorem ledger_ok {row : LedgerRow} {t : Tracker} :
    (ledger env row).result t = .ok () ↔ ∀ recorder ∈ env.ledgerRecorder, recorder row = .ok () := by
  unfold ledger
  cases env.ledgerRecorder with
  | none => exact ⟨fun _ _ h => absurd h (by simp), fun _ => rfl⟩
  | some recorder => simpa using ofReply_ok

theorem record_ok {t : Tracker} :
    (record env).result t = .ok () ↔
      ∀ reported ∈ env.usageRecorder, ∃ version, reported = .ok version := by
  unfold record
  cases env.usageRecorder with
  | none => exact ⟨fun _ _ h => absurd h (by simp), fun _ => rfl⟩
  | some reported =>
    simp only [Option.mem_def, Option.some.injEq, forall_eq']
    rw [Action.result_bind_eq_ok]
    constructor
    · rintro ⟨version, hversion, -⟩
      exact ⟨version, ofReply_ok.mp hversion⟩
    · rintro ⟨version, hversion⟩
      refine ⟨version, ofReply_ok.mpr hversion, ?_⟩
      cases version <;> rfl

/-- What an admitted call does once its capacity is held. -/
def makeDurable (cfg : BudgetConfig) (env : Collaborators) (call : CallRequest) (adm : Admission) :
    BudgetM (ℤ × Option ℤ) := do
  ledger env (reservedRow cfg call adm)
  record env
  pure (adm.callSeq, adm.allowedOutput)

theorem makeDurable_ok {adm : Admission} {t : Tracker} {granted : ℤ × Option ℤ} :
    (makeDurable cfg env call adm).result t = .ok granted ↔
      RecordersTake env (reservedRow cfg call adm) ∧ granted = (adm.callSeq, adm.allowedOutput) := by
  unfold makeDurable
  rw [Action.result_bind_eq_ok]
  constructor
  · rintro ⟨_, hledger, h⟩
    obtain ⟨_, hrecord, h⟩ := Action.result_bind_eq_ok.mp h
    cases h
    exact ⟨⟨ledger_ok.mp hledger, record_ok.mp hrecord⟩, rfl⟩
  · rintro ⟨hrecorded, rfl⟩
    exact ⟨(), ledger_ok.mpr hrecorded.ledger,
      Action.result_bind_eq_ok.mpr ⟨(), record_ok.mpr hrecorded.usage, rfl⟩⟩

theorem keeps_makeDurable (adm : Admission) :
    Keeps Tracker.reserved (makeDurable cfg env call adm) :=
  (keeps_ledger _).bind fun _ => (keeps_record quiet_reserved).bind fun _ => keeps_pure _

/-- The capacity an admission holds. -/
def holdCapacity (cfg : BudgetConfig) (call : CallRequest) (adm : Admission) (t : Tracker) :
    Tracker :=
  { t with
    toAccounts := t.toAccounts.reserveCapacity cfg call adm
    reservations := keepReservation adm t.reservations }

theorem get_bind_run {α : Type} (f : Tracker → BudgetM α) (t : Tracker) :
    (Action.get >>= f) t = f t t := rfl

theorem openCall_stopped {exceeded : BudgetExceeded} (h : t.stop = some exceeded) :
    openCall cfg env call t = (.error (.exceeded exceeded), t) := by
  unfold openCall
  rw [get_bind_run]
  simp only [h]
  rfl

/-- A call that fails a check, or that a reserver refuses, raises and holds nothing. -/
theorem openCall_refused {refusal : Refusal} (hstop : t.stop = none)
    (h : admitCall cfg env t call = .error refusal) :
    (∃ e, (openCall cfg env call).result t = .error e) ∧
      ((openCall cfg env call).after t).reserved = t.reserved := by
  unfold Action.result Action.after openCall
  rw [get_bind_run]
  simp only [hstop, h]
  cases refusal with
  | reject exceeded =>
    exact ⟨raiseReject_raises exceeded t, keeps_raiseReject quiet_reserved exceeded t⟩
  | raise error => exact ⟨⟨_, rfl⟩, rfl⟩

/-- An admitted call holds its capacity and makes it durable. -/
theorem openCall_admitted {adm : Admission} (hstop : t.stop = none)
    (h : admitCall cfg env t call = .ok adm) :
    openCall cfg env call t = makeDurable cfg env call adm (holdCapacity cfg call adm t) := by
  unfold openCall
  rw [get_bind_run]
  simp only [hstop, h]
  rfl

/-- Settled by what the gate and the reservers say: a call some reserver refuses reserves nothing
    exactly if the user's reserver did not grant before. -/
theorem refused_reserves_nothing {allowed : Option ℤ} {worst : Option ℚ} (hstop : t.stop = none)
    (hgate : gateChecks cfg env call t = .ok (allowed, worst))
    (hrefused : Refuses (userAnswer cfg env t worst) ∨ Refuses (projectAnswer cfg env t worst)) :
    RefusalReservesNothing cfg env call t ↔ (grantOf (userAnswer cfg env t worst) ≠ [] →
      ¬ Refuses (projectAnswer cfg env t worst)) := by
  obtain ⟨refusal, hadmit⟩ := admitCall_of_refused hgate hrefused
  obtain ⟨⟨error, herror⟩, hsame⟩ := openCall_refused hstop hadmit
  have hgrants := dailyGrants_of_gate hstop hgate
  constructor
  · intro h hgranted hproject
    have hnone := (h.refused error herror).2
    have huser : ¬ Refuses (userAnswer cfg env t worst) := fun hr =>
      hgranted (grantOf_of_refuses hr)
    rw [hgrants, if_neg huser, List.append_eq_nil_iff] at hnone
    exact hgranted hnone.1
  · intro h
    refine ⟨fun e _ => ⟨hsame, ?_⟩, fun seq allowed hok => ?_⟩
    · rw [hgrants]
      by_cases huser : Refuses (userAnswer cfg env t worst)
      · rw [if_pos huser]
      · have hproject := hrefused.resolve_left huser
        have hnone : grantOf (userAnswer cfg env t worst) = [] :=
          not_not.mp fun hgranted => h hgranted hproject
        rw [if_neg huser, hnone, grantOf_of_refuses hproject]
        rfl
    · rw [herror] at hok
      cases hok

/-- A call no reserver refuses holds its capacity, and keeps it whatever the recorders do. -/
theorem granted_reserves_nothing {allowed : Option ℤ} {worst : Option ℚ} (hstop : t.stop = none)
    (hgate : gateChecks cfg env call t = .ok (allowed, worst))
    (huser : ¬ Refuses (userAnswer cfg env t worst))
    (hproject : ¬ Refuses (projectAnswer cfg env t worst)) :
    RefusalReservesNothing cfg env call t ↔
      RecordersTake env (reservedRow cfg call ⟨t.modelCalls + 1, allowed, worst, none⟩) := by
  obtain ⟨reservation, hadmit⟩ := admitCall_of_granted hgate huser hproject
  have hrun := openCall_admitted hstop hadmit
  have hafter : ((openCall cfg env call).after t).reserved =
      (holdCapacity cfg call ⟨t.modelCalls + 1, allowed, worst, reservation⟩ t).reserved := by
    unfold Action.after
    rw [hrun]
    exact keeps_makeDurable _ _
  have hresult : (openCall cfg env call).result t = (makeDurable cfg env call
      ⟨t.modelCalls + 1, allowed, worst, reservation⟩).result
        (holdCapacity cfg call ⟨t.modelCalls + 1, allowed, worst, reservation⟩ t) := by
    unfold Action.result
    rw [hrun]
  constructor
  · intro h
    by_contra hunrecorded
    have hraised : ∃ e, (openCall cfg env call).result t = .error e := by
      refine not_not.mp fun hok => ?_
      obtain ⟨granted, hgranted⟩ := not_error_iff_ok.mp hok
      rw [hresult] at hgranted
      exact hunrecorded (makeDurable_ok.mp hgranted).1
    obtain ⟨error, herror⟩ := hraised
    -- The call is counted already when a recorder raises.
    have hcalls : t.modelCalls + 1 = t.modelCalls :=
      congrArg Reserved.modelCalls (hafter.symm.trans (h.refused error herror).1)
    omega
  · intro hrecorded
    have hok : (openCall cfg env call).result t = .ok (t.modelCalls + 1, allowed) := by
      rw [hresult]
      exact makeDurable_ok.mpr ⟨hrecorded, rfl⟩
    refine ⟨fun e herror => ?_, fun seq granted hreturned => ?_⟩
    · rw [hok] at herror
      cases herror
    · rw [hok] at hreturned
      cases hreturned
      have hopen : ((openCall cfg env call).after t).openReservations =
          t.openReservations.set (t.modelCalls + 1) (call.estimatedInput, allowed.getD 0) :=
        congrArg Reserved.openReservations hafter
      rw [hopen]
      exact List.count_eq_one_of_mem (Dict.keys_nodup _) (Dict.mem_keys_set.mpr (Or.inl rfl))

end Calls

/-! ## 5. When a refused call reserves nothing -/

/-- A call that raises leaves nothing reserved, and one that returns has one record, exactly if the
    collaborators of an admissible call agree: the project's reserver does not refuse what the
    user's granted, and the recorders take what was reserved. -/
theorem refusalReservesNothing_iff (cfg : BudgetConfig) (env : Collaborators) (call : CallRequest)
    (t : Tracker) :
    RefusalReservesNothing cfg env call t ↔ CollaboratorsAgree cfg env call t := by
  cases hstop : t.stop with
  | some exceeded =>
    have hrun : openCall cfg env call t = (.error (.exceeded exceeded), t) := openCall_stopped hstop
    refine ⟨fun _ hnone => ?_, fun _ => ⟨fun e _ => ⟨?_, dailyGrants_stopped hstop⟩,
      fun seq allowed hok => ?_⟩⟩
    · rw [hstop] at hnone
      cases hnone
    · unfold Action.after
      rw [hrun]
    · unfold Action.result at hok
      rw [hrun] at hok
      cases hok
  | none =>
    cases hgate : gateChecks cfg env call t with
    | error refusal =>
      obtain ⟨⟨error, herror⟩, hsame⟩ := openCall_refused hstop (admitCall_of_gate_error hgate)
      refine ⟨fun _ _ allowed worst hpassed => ?_,
        fun _ => ⟨fun e _ => ⟨hsame, dailyGrants_of_gate_error hgate⟩, fun seq allowed hok => ?_⟩⟩
      · rw [hgate] at hpassed
        cases hpassed
      · rw [herror] at hok
        cases hok
    | ok passed =>
      obtain ⟨allowed, worst⟩ := passed
      have hagree : CollaboratorsAgree cfg env call t ↔ AgreeOn cfg env call t allowed worst := by
        constructor
        · exact fun h => h hstop allowed worst hgate
        · intro h _ allowed' worst' hpassed
          rw [hgate] at hpassed
          cases hpassed
          exact h
      rw [hagree]
      -- Either the reservers stop the call, or only the recorders are left to fail.
      by_cases hrefused : Refuses (userAnswer cfg env t worst) ∨
          Refuses (projectAnswer cfg env t worst)
      · rw [refused_reserves_nothing hstop hgate hrefused]
        exact ⟨fun h => ⟨h, fun huser hproject => absurd hrefused (not_or.mpr ⟨huser, hproject⟩)⟩,
          fun h => h.reservers⟩
      · obtain ⟨huser, hproject⟩ := not_or.mp hrefused
        rw [granted_reserves_nothing hstop hgate huser hproject]
        exact ⟨fun h => ⟨fun _ => hproject, fun _ _ => h⟩, fun h => h.recorders huser hproject⟩

/-! ### The user's reservation is lost when the project's reserver fails -/

def bothDailyBudgets : BudgetConfig :=
  { BudgetConfig.default with dailyUserBudget := some 10, dailyProjectBudget := some 10 }

def projectReserverDown : Collaborators :=
  { Collaborators.quiet with
    dailyUserReserver := some fun _ _ => .ok (.text "user-1")
    dailyProjectReserver := some fun _ _ => .error (.exception "ConnectionError") }

def bareCall : CallRequest := ⟨0, none, none, none, 0⟩

theorem user_reservation_lost :
    ¬ RefusalReservesNothing bothDailyBudgets projectReserverDown bareCall Tracker.fresh := by
  intro h
  have hraised : (openCall bothDailyBudgets projectReserverDown bareCall).result Tracker.fresh =
      .error (.collaborator (.exception "ConnectionError")) := rfl
  have hnone := (h.refused _ hraised).2
  exact absurd hnone (by decide +kernel)

end Milo.Budget
