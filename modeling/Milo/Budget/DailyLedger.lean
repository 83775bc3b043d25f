import Milo.Budget.CallReservations
import Milo.Reasoning.Transition

/-!
# DailyLedger — the daily budgets under any interleaving of reservations and settlements

The spend a day's budget commits never passes its limit by more than what settled calls cost beyond
their estimates.  A repeated reservation is where the ledger can forget: a refusal turns the row
already there into a rejected one, and a grant answers whatever row is there.
-/

namespace Milo.Budget

open Milo.Reasoning Milo.Catalog

/-! ## 1. Events -/

inductive LedgerEvent
  | reserve (call : ReserveCall)
  | settle (call : SettleCall)
  /-- What others do to the runs, and the passing of time. -/
  | elsewhere (runs : Dict Text RunRow) (now : ℤ)

abbrev LedgerHistory := List (CallDatabase × LedgerEvent)

namespace CallDatabase

variable {db db' : CallDatabase} {call : ReserveCall} {k : CallIdentity}

def perform (db : CallDatabase) : LedgerEvent → CallDatabase
  | .reserve call => (db.reserveModelCallBudget call).2
  | .settle call => (db.settleModelCallBudget call).2
  | .elsewhere runs now => { db with runs := runs, now := now }

/-- The call gets past its lease and its argument checks. -/
def Accepts (db : CallDatabase) (call : ReserveCall) : Prop :=
  db.assertWorkerLease call.runId call.lease = .ok () ∧ call.WellFormed

theorem reserveGuarded_of_accepts (h : db.Accepts call) :
    db.reserveGuarded call =
      .ok (match db.refusal call with
        | some reason => db.reject call reason
        | none => db.grant call) := by
  simp only [reserveGuarded, h.1, reserveForAttempt, if_pos h.2]
  show (match db.refusal call with | some reason => _ | none => _) = _
  cases db.refusal call <;> rfl

theorem reserveGuarded_of_not_accepts (h : ¬ db.Accepts call) :
    ∃ error, db.reserveGuarded call = .error error := by
  unfold reserveGuarded
  cases hlease : db.assertWorkerLease call.runId call.lease with
  | error error => exact ⟨error, rfl⟩
  | ok _ =>
    have hmalformed : ¬ call.WellFormed := fun hwell => h ⟨hlease, hwell⟩
    show ∃ error, db.reserveForAttempt call = .error error
    rw [reserveForAttempt, if_neg hmalformed]
    exact ⟨_, rfl⟩

/-- The settlement that a call performs: the row it finds, and what it writes there. -/
def Settles (db : CallDatabase) (call : SettleCall) (found : CallRow) (status : CallStatus) : Prop :=
  0 ≤ call.actualCost ∧ settlementStatus? call.status = some status ∧
    db.reservations.get? found.1 = some found.2 ∧ found.2.status = .reserved ∧
    db.settleGuarded call =
      .ok ((found.1, call.write status db.now found.2),
        { db with
          reservations := db.reservations.set found.1 (call.write status db.now found.2) })

theorem settleGuarded_cases (db : CallDatabase) (call : SettleCall) :
    (∃ error, db.settleGuarded call = .error error) ∨
      ∃ found status, db.Settles call found status := by
  cases hresult : db.settleGuarded call with
  | error error => exact Or.inl ⟨error, rfl⟩
  | ok result =>
    right
    simp only [settleGuarded] at hresult
    cases hlease : db.assertWorkerLease call.runId call.lease with
    | error error =>
      rw [hlease] at hresult
      cases hresult
    | ok _ =>
      rw [hlease] at hresult
      by_cases hcost : call.actualCost < 0
      · simp only [if_pos hcost] at hresult
        cases hresult
      · cases hstatus : settlementStatus? call.status with
        | none =>
          simp only [if_neg hcost, hstatus] at hresult
          cases hresult
        | some status =>
          cases hfound : db.reservations.entries.find? (settles call) with
          | none =>
            simp only [if_neg hcost, hstatus, hfound] at hresult
            cases hresult
          | some found =>
            have hmem := Dict.get?_eq_some.mpr (List.mem_of_find?_eq_some hfound)
            have hsettles := List.find?_some hfound
            simp only [settles, Bool.and_eq_true, decide_eq_true_eq] at hsettles
            refine ⟨found, status, not_lt.mp hcost, hstatus, hmem, hsettles.2, ?_⟩
            simp only [settleGuarded, hlease, if_neg hcost, hstatus, hfound]
            rfl

/-- All that an event can do to the ledger. -/
inductive LedgerEffect (db : CallDatabase) : LedgerEvent → CallDatabase → Prop
  | kept {event : LedgerEvent} {db' : CallDatabase} (h : db'.reservations = db.reservations) :
      LedgerEffect db event db'
  | rejected {call : ReserveCall} {reason : String} (haccepts : db.Accepts call)
      (hrefusal : db.refusal call = some reason) :
      LedgerEffect db (.reserve call) (db.reject call reason).2
  | added {call : ReserveCall} (haccepts : db.Accepts call) (hgranted : db.refusal call = none)
      (hnew : db.reservations.get? call.identity = none) :
      LedgerEffect db (.reserve call)
        { db with
          reservations :=
            db.reservations.set call.identity (call.row db.today .reserved none) }
  | settled {call : SettleCall} {found : CallRow} {status : CallStatus}
      (h : db.Settles call found status) :
      LedgerEffect db (.settle call)
        { db with
          reservations := db.reservations.set found.1 (call.write status db.now found.2) }

theorem effect_perform (db : CallDatabase) (event : LedgerEvent) :
    LedgerEffect db event (db.perform event) := by
  cases event with
  | elsewhere runs now => exact .kept rfl
  | settle call =>
    rcases settleGuarded_cases db call with ⟨error, herror⟩ | ⟨found, status, h⟩
    · apply LedgerEffect.kept
      simp only [perform, settleModelCallBudget, herror]
    · have heffect := LedgerEffect.settled h
      have hwritten := h.2.2.2.2
      simpa only [perform, settleModelCallBudget, hwritten] using heffect
  | reserve call =>
    by_cases haccepts : db.Accepts call
    · have hguarded := reserveGuarded_of_accepts haccepts
      cases hrefusal : db.refusal call with
      | some reason =>
        rw [hrefusal] at hguarded
        have hperform : db.perform (.reserve call) = (db.reject call reason).2 := by
          simp only [perform, reserveModelCallBudget, hguarded]
          split <;> rfl
        rw [hperform]
        exact .rejected haccepts hrefusal
      | none =>
        rw [hrefusal] at hguarded
        have hperform : db.perform (.reserve call) = (db.grant call).2 := by
          simp only [perform, reserveModelCallBudget, hguarded]
          split <;> rfl
        rw [hperform]
        cases hrow : db.reservations.get? call.identity with
        | some row =>
          apply LedgerEffect.kept
          simp only [grant, hrow]
        | none =>
          simp only [grant, hrow]
          exact .added haccepts hrefusal hrow
    · obtain ⟨error, herror⟩ := reserveGuarded_of_not_accepts haccepts
      apply LedgerEffect.kept
      simp only [perform, reserveModelCallBudget, herror]

end CallDatabase

/-! ## 2. One owner's day -/

inductive Payer
  | user
  | project
  deriving DecidableEq

def CallReservation.payer (row : CallReservation) : Payer → Option Text
  | .user => row.userId
  | .project => row.projectId

/-- The rows that count against a user, or a project, on a day. -/
structure OwnerDay where
  payer : Payer
  id : Text
  day : ℤ

namespace OwnerDay

variable (o : OwnerDay)

def Dated (row : CallReservation) : Prop := row.payer o.payer = some o.id ∧ row.budgetDate = o.day

instance (row : CallReservation) : Decidable (o.Dated row) :=
  inferInstanceAs (Decidable (_ ∧ _))

variable {row : CallReservation}

theorem dated_congr {row' : CallReservation} (huser : row.userId = row'.userId)
    (hproject : row.projectId = row'.projectId) (hdate : row.budgetDate = row'.budgetDate) :
    o.Dated row ↔ o.Dated row' := by
  have hpayer : row.payer o.payer = row'.payer o.payer := by
    cases o.payer with
    | user => exact huser
    | project => exact hproject
  unfold Dated
  rw [hpayer, hdate]

/-- What a row counts. -/
def counted (row : CallReservation) : ℚ :=
  if o.Dated row ∧ row.status.isCounted = true then row.cost else 0

/-- What a row costs beyond its estimate, where it counts. -/
def excess (row : CallReservation) : ℚ := if o.Dated row then row.excess else 0

/-- The committed spend. -/
def committed (rows : Dict CallIdentity CallReservation) : ℚ := rows.total fun _ row => o.counted row

/-- What the settled rows cost beyond their estimates. -/
def overspent (rows : Dict CallIdentity CallReservation) : ℚ := rows.total fun _ row => o.excess row

/-- A row of the day is priced from zero up, and has no actual cost while it is reserved. -/
def Priced (row : CallReservation) : Prop :=
  o.Dated row → 0 ≤ row.estimatedCost ∧ (∀ cost ∈ row.actualCost, 0 ≤ cost) ∧
    (row.status = .reserved → row.actualCost = none)

variable {o}

theorem excess_nonneg (row : CallReservation) : 0 ≤ o.excess row := by
  unfold excess CallReservation.excess
  split
  · split
    · exact le_max_left _ _
    · exact le_refl _
  · exact le_refl _

/-- Short of its excess, a row counts at least nothing and at most its estimate. -/
theorem counted_bounds (h : o.Priced row) (hdated : o.Dated row) :
    0 ≤ o.counted row - o.excess row ∧ o.counted row - o.excess row ≤ row.estimatedCost := by
  obtain ⟨hestimate, hactual, hreserved⟩ := h hdated
  have hcost : 0 ≤ row.cost := by
    unfold CallReservation.cost
    cases hcost : row.actualCost with
    | none => exact hestimate
    | some cost => exact hactual cost hcost
  unfold counted excess CallReservation.excess
  rw [if_pos hdated]
  cases hstatus : row.status with
  | reserved =>
    have hnone := hreserved hstatus
    have hsame : row.cost = row.estimatedCost := by rw [CallReservation.cost, hnone]; rfl
    simp [hdated, CallStatus.isCounted, hsame, hestimate]
  | settled | overage =>
    simp only [hdated, CallStatus.isCounted, and_self, or_true, true_or, if_true]
    rcases le_total row.cost row.estimatedCost with hle | hle
    · rw [max_eq_left (by linarith)]
      constructor <;> linarith
    · rw [max_eq_right (by linarith)]
      constructor <;> linarith
  | released | rejected => simp [CallStatus.isCounted, hestimate]

/-! ### What one step does to the spend -/

/-- The committed spend short of the excess. -/
def base (o : OwnerDay) (rows : Dict CallIdentity CallReservation) : ℚ :=
  rows.total fun _ row => o.counted row - o.excess row

theorem committed_eq (rows : Dict CallIdentity CallReservation) :
    o.committed rows = o.base rows + o.overspent rows := by
  unfold committed base overspent Dict.total
  rw [← List.sum_map_add]
  simp only [sub_add_cancel]

theorem overspent_nonneg (rows : Dict CallIdentity CallReservation) : 0 ≤ o.overspent rows := by
  unfold overspent Dict.total
  induction rows.entries with
  | nil => exact le_refl _
  | cons e rest ih =>
    rw [List.map_cons, List.sum_cons]
    exact add_nonneg (excess_nonneg e.2) ih

/-- Rows of the day are priced, and the spend short of the excess is within the limit. -/
structure Bounded (o : OwnerDay) (limit : ℚ) (db : CallDatabase) : Prop where
  priced : ∀ k row, db.reservations.get? k = some row → o.Priced row
  base_le : o.base db.reservations ≤ limit

variable {limit : ℚ} {db : CallDatabase}

/-- Writing a row of a smaller count over another one. -/
theorem Bounded.rewrite (h : o.Bounded limit db) {k : CallIdentity} {row' : CallReservation}
    (hrow : db.reservations.get? k = some row) (hpriced : o.Priced row')
    (hle : o.counted row' - o.excess row' ≤ o.counted row - o.excess row) {now : CallDatabase}
    (hnow : now.reservations = db.reservations.set k row') : o.Bounded limit now := by
  constructor
  · intro k' found hfound
    rw [hnow, Dict.get?_set] at hfound
    split at hfound
    · cases hfound
      exact hpriced
    · exact h.priced k' found hfound
  · rw [hnow]
    have htotal := Dict.total_set_of_get? (fun _ row => o.counted row - o.excess row) (v := row') hrow
    have hbase := h.base_le
    unfold base at hbase ⊢
    linarith

theorem Bounded.add (h : o.Bounded limit db) {k : CallIdentity} (hnew : db.reservations.get? k = none)
    (hpriced : o.Priced row) (hle : o.base db.reservations + (o.counted row - o.excess row) ≤ limit)
    {now : CallDatabase} (hnow : now.reservations = db.reservations.set k row) : o.Bounded limit now := by
  constructor
  · intro k' found hfound
    rw [hnow, Dict.get?_set] at hfound
    split at hfound
    · cases hfound
      exact hpriced
    · exact h.priced k' found hfound
  · rw [hnow]
    have htotal := Dict.total_set_of_notMem (fun _ row => o.counted row - o.excess row) (v := row)
      (Dict.get?_eq_none.mp hnew)
    unfold base at hle ⊢
    rw [htotal]
    exact hle

/-- The limit a granted reservation was held against. -/
def Guards (o : OwnerDay) (limit : ℚ) (db : CallDatabase) (event : LedgerEvent) : Prop :=
  ∀ call, event = .reserve call → db.refusal call = none →
    o.Dated (call.row db.today .reserved none) →
      o.committed db.reservations + call.estimatedCost ≤ limit

theorem counted_rejected (h : row.status = .rejected) : o.counted row - o.excess row = 0 := by
  simp [counted, excess, CallReservation.excess, CallStatus.isCounted, h]

theorem Priced.reject (h : o.Priced row) (reason : Option String) :
    o.Priced { row with status := .rejected, rejectionReason := reason } := by
  intro hdated
  obtain ⟨hestimate, hactual, -⟩ := h ((o.dated_congr rfl rfl rfl).mp hdated)
  exact ⟨hestimate, hactual, fun hreserved => by cases hreserved⟩

theorem Priced.of_row {call : ReserveCall} (h : call.WellFormed) (day : ℤ) (status : CallStatus)
    (reason : Option String) : o.Priced (call.row day status reason) :=
  fun _ => ⟨h.2.2, fun _ hcost => (by cases hcost), fun _ => rfl⟩

theorem Priced.write (h : o.Priced row) {call : SettleCall} (hcost : 0 ≤ call.actualCost) {status : CallStatus}
    (hstatus : settlementStatus? call.status = some status) (now : ℤ) : o.Priced (call.write status now row) := by
  intro hdated
  obtain ⟨hestimate, -, -⟩ := h ((o.dated_congr rfl rfl rfl).mp hdated)
  refine ⟨hestimate, fun cost hactual => by cases hactual; exact hcost, fun hreserved => ?_⟩
  have hcode : status = .reserved := hreserved
  rw [hcode] at hstatus
  unfold settlementStatus? at hstatus
  split at hstatus <;> cases hstatus

/-- The count of a row of the day, short of its excess, is nothing where the row is not of the day. -/
theorem counted_of_not_dated (h : ¬ o.Dated row) : o.counted row - o.excess row = 0 := by
  simp [counted, excess, h]

/-- Whatever a step does, the spend short of the excess stays within the limit. -/
theorem Bounded.step (h : o.Bounded limit db) {event : LedgerEvent}
    (hguards : o.Guards limit db event) : o.Bounded limit (db.perform event) := by
  generalize hnext : db.perform event = next
  have heffect : CallDatabase.LedgerEffect db event next := hnext ▸ db.effect_perform event
  cases heffect with
  | kept hkept =>
    constructor
    · rw [hkept]
      exact h.priced
    · rw [hkept]
      exact h.base_le
  | @rejected call reason haccepts hrefusal =>
    cases hrow : db.reservations.get? call.identity with
    | some row =>
      have hpriced := h.priced _ row hrow
      apply h.rewrite hrow (hpriced.reject (some reason))
      · rw [counted_rejected rfl]
        by_cases hdated : o.Dated row
        · exact (counted_bounds hpriced hdated).1
        · rw [counted_of_not_dated hdated]
      · simp only [CallDatabase.reject, hrow]
    | none =>
      apply h.add hrow (Priced.of_row haccepts.2 db.today .rejected (some reason))
      · rw [counted_rejected rfl, add_zero]
        exact h.base_le
      · simp only [CallDatabase.reject, hrow]
  | @added call haccepts hgranted hnew =>
    have hpriced := Priced.of_row (o := o) haccepts.2 db.today .reserved none
    apply h.add hnew hpriced _ rfl
    by_cases hdated : o.Dated (call.row db.today .reserved none)
    · have hlimit := hguards call rfl hgranted hdated
      have hbounds := (counted_bounds hpriced hdated).2
      have hestimate : (call.row db.today .reserved none).estimatedCost = call.estimatedCost := rfl
      rw [committed_eq] at hlimit
      have hover := overspent_nonneg (o := o) db.reservations
      linarith
    · rw [counted_of_not_dated hdated, add_zero]
      exact h.base_le
  | @settled call found status hsettles =>
    obtain ⟨hcost, hstatus, hrow, hreserved, -⟩ := hsettles
    have hpriced := h.priced _ _ hrow
    have hwritten := hpriced.write hcost hstatus db.now
    have hsame : o.Dated (call.write status db.now found.2) ↔ o.Dated found.2 :=
      o.dated_congr rfl rfl rfl
    apply h.rewrite hrow hwritten _ rfl
    by_cases hdated : o.Dated found.2
    · have hold : o.counted found.2 - o.excess found.2 = found.2.estimatedCost := by
        have hnone := (hpriced hdated).2.2 hreserved
        simp [counted, excess, CallReservation.excess, CallReservation.cost, hdated, hreserved,
          hnone, CallStatus.isCounted]
      rw [hold]
      exact (counted_bounds hwritten (hsame.mpr hdated)).2
    · rw [counted_of_not_dated hdated, counted_of_not_dated (fun h => hdated (hsame.mp h))]

end OwnerDay

/-! ## 3. What the ledger promises -/

namespace CallDatabase

variable {db : CallDatabase} {k : CallIdentity}

theorem committed_user (db : CallDatabase) (id : Text) (projectId : Option Text) (day : ℤ) :
    (db.modelCallBudgetCommitted (some id) projectId day).1 =
      OwnerDay.committed ⟨.user, id, day⟩ db.reservations := by
  unfold modelCallBudgetCommitted OwnerDay.committed Dict.total
  apply congrArg List.sum
  apply List.map_congr_left
  intro e _
  simp only [OwnerDay.counted, OwnerDay.Dated, CallReservation.payer, names, Option.isSome_some,
    Bool.true_and]
  by_cases hid : e.2.userId = some id <;> by_cases hday : e.2.budgetDate = day <;>
    by_cases hcounted : e.2.status.isCounted = true <;> simp [hid, hday, hcounted]

theorem committed_project (db : CallDatabase) (userId : Option Text) (id : Text) (day : ℤ) :
    (db.modelCallBudgetCommitted userId (some id) day).2 =
      OwnerDay.committed ⟨.project, id, day⟩ db.reservations := by
  unfold modelCallBudgetCommitted OwnerDay.committed Dict.total
  apply congrArg List.sum
  apply List.map_congr_left
  intro e _
  simp only [OwnerDay.counted, OwnerDay.Dated, CallReservation.payer, names, Option.isSome_some,
    Bool.true_and]
  by_cases hid : e.2.projectId = some id <;> by_cases hday : e.2.budgetDate = day <;>
    by_cases hcounted : e.2.status.isCounted = true <;> simp [hid, hday, hcounted]

/-- The row of an identity counts against its day. -/
def Counts (db : CallDatabase) (k : CallIdentity) : Prop :=
  ∃ row, db.reservations.get? k = some row ∧ row.status.isCounted = true

/-- The step settles the row of an identity as `released`. -/
def Releases (db : CallDatabase) (event : LedgerEvent) (k : CallIdentity) : Prop :=
  ∃ call found, event = .settle call ∧ db.Settles call found .released ∧ found.1 = k

/-- A reservation call that repeats an identity finds a row the answer is right about: none that
    counts when the limits refuse it, and else a rejected one, or one still reserved for enough. -/
def RepeatsSafely (db : CallDatabase) : LedgerEvent → Prop
  | .reserve call =>
    db.Accepts call → ∀ row, db.reservations.get? call.identity = some row →
      if (db.refusal call).isSome then row.status.isCounted = false
      else row.status = .rejected ∨
        row.status = .reserved ∧ call.estimatedCost ≤ row.estimatedCost
  | _ => True

/-- A row that counts is lost in one step only by its release or by a refused repetition. -/
theorem Counts.step {event : LedgerEvent} (h : db.Counts k) (hsafe : db.RepeatsSafely event) :
    (db.perform event).Counts k ∨ db.Releases event k := by
  obtain ⟨row, hrow, hcounted⟩ := h
  generalize hnext : db.perform event = next
  have heffect : LedgerEffect db event next := hnext ▸ db.effect_perform event
  cases heffect with
  | kept hkept => exact Or.inl ⟨row, by rw [hkept]; exact hrow, hcounted⟩
  | @rejected call reason haccepts hrefusal =>
    left
    have hne : k ≠ call.identity := by
      intro heq
      have hlost := hsafe haccepts row (heq ▸ hrow)
      rw [hrefusal, Option.isSome_some, if_pos rfl, hcounted] at hlost
      cases hlost
    refine ⟨row, ?_, hcounted⟩
    simp only [reject]
    rw [Dict.get?_set_ne _ _ hne]
    exact hrow
  | @added call haccepts hgranted hnew =>
    left
    have hne : k ≠ call.identity := by
      intro heq
      rw [← heq, hrow] at hnew
      cases hnew
    refine ⟨row, ?_, hcounted⟩
    rw [Dict.get?_set_ne _ _ hne]
    exact hrow
  | @settled call found status hsettles =>
    by_cases hkey : k = found.1
    · cases hstatus : status with
      | released => exact Or.inr ⟨call, found, rfl, hstatus ▸ hsettles, hkey.symm⟩
      | settled | overage | reserved =>
        left
        refine ⟨call.write status db.now found.2, ?_, by rw [hstatus]; rfl⟩
        rw [hkey]
        simp [hstatus]
      | rejected =>
        have hwritten := hsettles.2.1
        rw [hstatus] at hwritten
        unfold settlementStatus? at hwritten
        split at hwritten <;> cases hwritten
    · left
      refine ⟨row, ?_, hcounted⟩
      rw [Dict.get?_set_ne _ _ hkey]
      exact hrow

/-- The row of an identity was turned into a rejected one. -/
def Rejected (db : CallDatabase) (k : CallIdentity) : Prop :=
  ∃ row, db.reservations.get? k = some row ∧ row.status = .rejected

/-- A rejected row is rejected for good: nothing grants, settles or releases it again. -/
theorem Rejected.step (h : db.Rejected k) (event : LedgerEvent) : (db.perform event).Rejected k := by
  obtain ⟨row, hrow, hrejected⟩ := h
  generalize hnext : db.perform event = next
  have heffect : LedgerEffect db event next := hnext ▸ db.effect_perform event
  cases heffect with
  | kept hkept => exact ⟨row, by rw [hkept]; exact hrow, hrejected⟩
  | @rejected call reason haccepts hrefusal =>
    by_cases hkey : k = call.identity
    · rw [hkey] at hrow ⊢
      simp only [reject, hrow]
      exact ⟨_, Dict.get?_set_self _ _ _, rfl⟩
    · refine ⟨row, ?_, hrejected⟩
      simp only [reject]
      rw [Dict.get?_set_ne _ _ hkey]
      exact hrow
  | @added call haccepts hgranted hnew =>
    have hkey : k ≠ call.identity := by
      intro heq
      rw [← heq, hrow] at hnew
      cases hnew
    refine ⟨row, ?_, hrejected⟩
    rw [Dict.get?_set_ne _ _ hkey]
    exact hrow
  | @settled call found status hsettles =>
    have hkey : k ≠ found.1 := by
      intro heq
      have hfound := hsettles.2.2.1
      have hreserved := hsettles.2.2.2.1
      rw [← heq, hrow] at hfound
      cases hfound
      rw [hrejected] at hreserved
      cases hreserved
    refine ⟨row, ?_, hrejected⟩
    rw [Dict.get?_set_ne _ _ hkey]
    exact hrow

theorem Rejected.not_counts (h : db.Rejected k) : ¬ db.Counts k := by
  obtain ⟨row, hrow, hrejected⟩ := h
  rintro ⟨row', hrow', hcounted⟩
  rw [hrow] at hrow'
  cases hrow'
  rw [hrejected] at hcounted
  cases hcounted

theorem Rejected.not_releases (h : db.Rejected k) (event : LedgerEvent) : ¬ db.Releases event k := by
  obtain ⟨row, hrow, hrejected⟩ := h
  rintro ⟨call, found, -, hsettles, rfl⟩
  have hreserved := hsettles.2.2.2.1
  rw [hsettles.2.2.1] at hrow
  cases hrow
  rw [hrejected] at hreserved
  cases hreserved

/-- What a reservation call that is not turned away answers. -/
theorem reserve_answers {call : ReserveCall} {row : CallRow}
    (h : (db.reserveModelCallBudget call).1 = .ok row) :
    db.Accepts call ∧ db.refusal call = none ∧ row.2.status ≠ .rejected ∧
      (db.reservations.get? call.identity = some row.2 ∨
        db.reservations.get? call.identity = none ∧
          row.2 = call.row db.today .reserved none) := by
  by_cases haccepts : db.Accepts call
  · have hguarded := reserveGuarded_of_accepts haccepts
    unfold reserveModelCallBudget at h
    rw [hguarded] at h
    cases hrefusal : db.refusal call with
    | some reason =>
      cases hrow : db.reservations.get? call.identity <;>
        simp only [hrefusal, reject, hrow, ReserveCall.row, if_true] at h <;> cases h
    | none =>
      simp only [hrefusal, grant] at h
      cases hrow : db.reservations.get? call.identity with
      | some found =>
        simp only [hrow] at h
        split at h
        · cases h
        · rename_i hstatus
          cases h
          exact ⟨haccepts, rfl, hstatus, Or.inl rfl⟩
      | none =>
        simp only [hrow] at h
        split at h
        · cases h
        · rename_i hstatus
          cases h
          exact ⟨haccepts, rfl, hstatus, Or.inr ⟨rfl, rfl⟩⟩
  · obtain ⟨error, herror⟩ := reserveGuarded_of_not_accepts haccepts
    simp only [reserveModelCallBudget, herror] at h
    cases h

theorem reserve_repeats {call : ReserveCall} {row : CallReservation} (haccepts : db.Accepts call)
    (hgranted : db.refusal call = none) (hrow : db.reservations.get? call.identity = some row)
    (hstatus : row.status ≠ .rejected) :
    (db.reserveModelCallBudget call).1 = .ok (call.identity, row) := by
  unfold reserveModelCallBudget
  rw [reserveGuarded_of_accepts haccepts]
  simp only [hgranted, grant, hrow, if_neg hstatus]

end CallDatabase

/-! ## 4. Runs -/

/-- One user, one project and one day, with the limits in force. -/
structure DayLimits where
  userId : Text
  projectId : Text
  day : ℤ
  userLimit : Option ℚ
  projectLimit : Option ℚ
  user_nonneg : ∀ limit ∈ userLimit, 0 ≤ limit
  project_nonneg : ∀ limit ∈ projectLimit, 0 ≤ limit

namespace DayLimits

def user (limits : DayLimits) : OwnerDay := ⟨.user, limits.userId, limits.day⟩

def project (limits : DayLimits) : OwnerDay := ⟨.project, limits.projectId, limits.day⟩

/-- A reservation made on the day for the user, or for the project, states the limit in force. -/
def Fixed (limits : DayLimits) (db : CallDatabase) (event : LedgerEvent) : Prop :=
  ∀ call, event = .reserve call → db.today = limits.day →
    (call.userId = some limits.userId → call.dailyUserLimit = limits.userLimit) ∧
      (call.projectId = some limits.projectId → call.dailyProjectLimit = limits.projectLimit)

/-- What the database commits for the user and for the project is within the limits, but for what
    settled rows cost beyond their estimates. -/
def Within (limits : DayLimits) (db : CallDatabase) : Prop :=
  let spend := db.modelCallBudgetCommitted (some limits.userId) (some limits.projectId) limits.day
  (∀ limit ∈ limits.userLimit, spend.1 ≤ limit + limits.user.overspent db.reservations) ∧
    ∀ limit ∈ limits.projectLimit, spend.2 ≤ limit + limits.project.overspent db.reservations

/-- The ledger forgets no spend: the limits hold throughout, a row that counted in some state counts
    at the end unless it was released on the way, and an answered reservation is held in full. -/
structure Conservative (limits : DayLimits) (hist : LedgerHistory) (db : CallDatabase) : Prop where
  within : Throughout limits.Within hist db
  counted : ∀ earlier e later, hist = earlier ++ e :: later → ∀ k, e.1.Counts k →
    db.Counts k ∨ ∃ e' ∈ e :: later, e'.1.Releases e'.2 k
  answered : ∀ e ∈ hist, ∀ call row, e.2 = .reserve call →
    (e.1.reserveModelCallBudget call).1 = .ok row →
      row.2.status = .reserved ∧ call.estimatedCost ≤ row.2.estimatedCost

variable {limits : DayLimits} {db : CallDatabase}

theorem guards_user {limit : ℚ} (hlimit : limits.userLimit = some limit) {event : LedgerEvent}
    (h : limits.Fixed db event) : limits.user.Guards limit db event := by
  rintro call rfl hgranted ⟨hid, hday⟩
  have huser : call.userId = some limits.userId := hid
  have htoday : db.today = limits.day := hday
  have hstated := (h call rfl htoday).1 huser
  unfold CallDatabase.refusal at hgranted
  simp only [huser, hstated, hlimit, CallDatabase.committed_user, htoday] at hgranted
  by_cases hover : overLimit (some limit) (some limits.userId)
      (OwnerDay.committed ⟨.user, limits.userId, limits.day⟩ db.reservations) call.estimatedCost = true
  · rw [if_pos hover] at hgranted
    cases hgranted
  · simp only [overLimit, decide_eq_true_eq] at hover
    exact not_lt.mp hover

theorem guards_project {limit : ℚ} (hlimit : limits.projectLimit = some limit) {event : LedgerEvent}
    (h : limits.Fixed db event) : limits.project.Guards limit db event := by
  rintro call rfl hgranted ⟨hid, hday⟩
  have hproject : call.projectId = some limits.projectId := hid
  have htoday : db.today = limits.day := hday
  have hstated := (h call rfl htoday).2 hproject
  unfold CallDatabase.refusal at hgranted
  simp only [hproject, hstated, hlimit, CallDatabase.committed_project, htoday] at hgranted
  by_cases huser : overLimit call.dailyUserLimit call.userId
      (db.modelCallBudgetCommitted call.userId (some limits.projectId) limits.day).1
      call.estimatedCost = true
  · rw [if_pos huser] at hgranted
    cases hgranted
  · rw [if_neg huser] at hgranted
    by_cases hover : overLimit (some limit) (some limits.projectId)
        (OwnerDay.committed ⟨.project, limits.projectId, limits.day⟩ db.reservations)
        call.estimatedCost = true
    · rw [if_pos hover] at hgranted
      cases hgranted
    · simp only [overLimit, decide_eq_true_eq] at hover
      exact not_lt.mp hover

/-- A ledger without a row of the day. -/
def Fresh (limits : DayLimits) (db : CallDatabase) : Prop :=
  ∀ k row, db.reservations.get? k = some row → row.budgetDate ≠ limits.day

theorem Fresh.bounded (h : limits.Fresh db) {o : OwnerDay} (hday : o.day = limits.day) {limit : ℚ}
    (hlimit : 0 ≤ limit) : o.Bounded limit db := by
  have hnone : ∀ k row, db.reservations.get? k = some row → ¬ o.Dated row := by
    intro k row hrow hdated
    exact h k row hrow (hdated.2.trans hday)
  constructor
  · intro k row hrow hdated
    exact absurd hdated (hnone k row hrow)
  · have hzero : o.base db.reservations = 0 := by
      unfold OwnerDay.base Dict.total
      have hmap : ∀ e ∈ db.reservations.entries, o.counted e.2 - o.excess e.2 = 0 := by
        intro e he
        exact OwnerDay.counted_of_not_dated (hnone e.1 e.2 (Dict.get?_eq_some.mpr he))
      rw [List.map_congr_left hmap, List.map_const', List.sum_replicate, nsmul_zero]
    rw [hzero]
    exact hlimit

variable {s : CallDatabase} {hist : LedgerHistory}

/-- The limits hold in every state, whatever is repeated. -/
theorem throughout_within (hfresh : limits.Fresh s)
    (hrun : Run (Performs limits.Fixed CallDatabase.perform) s hist db) :
    Throughout limits.Within hist db := by
  have hbounded : Throughout (fun db =>
      (∀ limit, limits.userLimit = some limit → limits.user.Bounded limit db) ∧
        ∀ limit, limits.projectLimit = some limit → limits.project.Bounded limit db) hist db := by
    apply hrun.throughout
    · exact ⟨fun limit hlimit => hfresh.bounded rfl (limits.user_nonneg limit hlimit),
        fun limit hlimit => hfresh.bounded rfl (limits.project_nonneg limit hlimit)⟩
    · rintro m event m' ⟨huser, hproject⟩ ⟨hfixed, rfl⟩
      exact ⟨fun limit hlimit => (huser limit hlimit).step (guards_user hlimit hfixed),
        fun limit hlimit => (hproject limit hlimit).step (guards_project hlimit hfixed)⟩
  have hwithin : ∀ m : CallDatabase,
      ((∀ limit, limits.userLimit = some limit → limits.user.Bounded limit m) ∧
        ∀ limit, limits.projectLimit = some limit → limits.project.Bounded limit m) →
      limits.Within m := by
    rintro m ⟨huser, hproject⟩
    simp only [Within, CallDatabase.committed_user, CallDatabase.committed_project]
    constructor
    · intro limit hlimit
      have hbase := (huser limit hlimit).base_le
      rw [show (⟨.user, limits.userId, limits.day⟩ : OwnerDay) = limits.user from rfl,
        OwnerDay.committed_eq]
      linarith
    · intro limit hlimit
      have hbase := (hproject limit hlimit).base_le
      rw [show (⟨.project, limits.projectId, limits.day⟩ : OwnerDay) = limits.project from rfl,
        OwnerDay.committed_eq]
      linarith
  exact ⟨fun e he => hwithin e.1 (hbounded.1 e he), hwithin db hbounded.2⟩

/-- In a run of safe repetitions a row that counted stays counted until it is released. -/
theorem counted_of_safe (hrun : Run (Performs limits.Fixed CallDatabase.perform) s hist db)
    (hsafe : ∀ e ∈ hist, e.1.RepeatsSafely e.2) :
    ∀ earlier e later, hist = earlier ++ e :: later → ∀ k, e.1.Counts k →
      db.Counts k ∨ ∃ e' ∈ e :: later, e'.1.Releases e'.2 k := by
  intro earlier e later hsplit k hcounts
  obtain ⟨m, ⟨-, hm⟩, hrest⟩ := hrun.after hsplit
  have hmem : e ∈ hist := by rw [hsplit]; simp
  rcases hcounts.step (hsafe e hmem) with hkept | hreleased
  · rw [← hm] at hkept
    have hlater : ∀ e' ∈ later, e'.1.RepeatsSafely e'.2 := by
      intro e' he'
      apply hsafe e'
      rw [hsplit]
      simp [he']
    -- from the state after the step on: still counted, or released by one of the steps since
    have hinv : (∀ e' ∈ later, e'.1.RepeatsSafely e'.2) →
        db.Counts k ∨ ∃ e' ∈ later, e'.1.Releases e'.2 k := by
      apply hrest.history_invariant (J := fun h s => (∀ e' ∈ h, e'.1.RepeatsSafely e'.2) →
        s.Counts k ∨ ∃ e' ∈ h, e'.1.Releases e'.2 k)
      · exact fun _ => Or.inl hkept
      · rintro h m' event m'' - ih ⟨-, rfl⟩ hall
        rcases ih (fun e' he' => hall e' (List.mem_append_left _ he')) with hcounts | ⟨e', he', hrel⟩
        · rcases hcounts.step (hall (m', event) (by simp)) with hstill | hreleased
          · exact Or.inl hstill
          · exact Or.inr ⟨(m', event), by simp, hreleased⟩
        · exact Or.inr ⟨e', List.mem_append_left _ he', hrel⟩
    rcases hinv hlater with hstill | ⟨e', he', hreleased⟩
    · exact Or.inl hstill
    · exact Or.inr ⟨e', List.mem_cons_of_mem _ he', hreleased⟩
  · exact Or.inr ⟨e, List.mem_cons_self, hreleased⟩

/-- A refused repetition of a row that counts loses it: it counts no more, and was never released. -/
theorem lost_of_refused (hrun : Run (Performs limits.Fixed CallDatabase.perform) s hist db)
    {earlier later : LedgerHistory} {m : CallDatabase} {call : ReserveCall}
    (hsplit : hist = earlier ++ (m, .reserve call) :: later) (haccepts : m.Accepts call)
    {reason : String} (hrefusal : m.refusal call = some reason) {row : CallReservation}
    (hrow : m.reservations.get? call.identity = some row) :
    ¬ db.Counts call.identity ∧
      ∀ e ∈ (m, LedgerEvent.reserve call) :: later, ¬ e.1.Releases e.2 call.identity := by
  obtain ⟨next, ⟨-, hnext⟩, hrest⟩ := hrun.after hsplit
  have hrejected : next.Rejected call.identity := by
    have hguarded := CallDatabase.reserveGuarded_of_accepts haccepts
    rw [hrefusal] at hguarded
    have hwritten : next = (m.reject call reason).2 := by
      rw [hnext]
      simp only [CallDatabase.perform, CallDatabase.reserveModelCallBudget, hguarded]
      split <;> rfl
    rw [hwritten]
    simp only [CallDatabase.reject, hrow]
    exact ⟨_, Dict.get?_set_self _ _ _, rfl⟩
  have hthroughout : Throughout (fun db => db.Rejected call.identity) later db := by
    apply hrest.throughout (I := fun db => db.Rejected call.identity) hrejected
    rintro m event m' h ⟨-, rfl⟩
    exact h.step event
  constructor
  · exact hthroughout.2.not_counts
  · intro e he
    rcases List.mem_cons.mp he with rfl | he
    · rintro ⟨settle, found, hevent, -⟩
      cases hevent
    · exact (hthroughout.1 e he).not_releases e.2

/-- The ledger is conservative in exactly those runs in which every repeated reservation finds a row
    the answer is right about. -/
theorem conservative_iff (hfresh : limits.Fresh s)
    (hrun : Run (Performs limits.Fixed CallDatabase.perform) s hist db) :
    limits.Conservative hist db ↔ ∀ e ∈ hist, e.1.RepeatsSafely e.2 := by
  constructor
  · rintro ⟨-, hcounted, hanswered⟩ ⟨m, event⟩ he
    cases event with
    | settle call => trivial
    | elsewhere runs now => trivial
    | reserve call =>
      intro haccepts row hrow
      cases hrefusal : m.refusal call with
      | some reason =>
        rw [Option.isSome_some, if_pos rfl]
        obtain ⟨earlier, later, hsplit⟩ := List.append_of_mem he
        have hlost := lost_of_refused hrun hsplit haccepts hrefusal hrow
        cases hstatus : row.status.isCounted with
        | false => rfl
        | true =>
          rcases hcounted _ _ _ hsplit _ ⟨row, hrow, hstatus⟩ with hcounts | ⟨e', he', hreleased⟩
          · exact absurd hcounts hlost.1
          · exact absurd hreleased (hlost.2 e' he')
      | none =>
        rw [Option.isSome_none, if_neg Bool.false_ne_true]
        by_cases hstatus : row.status = .rejected
        · exact Or.inl hstatus
        · right
          have hanswer := CallDatabase.reserve_repeats haccepts hrefusal hrow hstatus
          exact hanswered _ he call _ rfl hanswer
  · intro hsafe
    refine ⟨throughout_within hfresh hrun, counted_of_safe hrun hsafe, ?_⟩
    rintro ⟨m, event⟩ he call row rfl hanswer
    rcases CallDatabase.reserve_answers hanswer with ⟨haccepts, hgranted, hstatus, hrow | ⟨-, hrow⟩⟩
    · have hfound := hsafe _ he haccepts row.2 hrow
      rw [hgranted, Option.isSome_none, if_neg Bool.false_ne_true] at hfound
      rcases hfound with hrejected | hheld
      · exact absurd hrejected hstatus
      · exact hheld
    · rw [hrow]
      exact ⟨rfl, le_refl _⟩

/-! ### A row forgotten -/

def oneRun : CallDatabase where
  runs := ⟨[("r".toList,
    { status := .running
      workerId := some "w".toList
      attempt := 1
      leaseToken := some "t".toList
      leaseExpiresAt := some 1000 })], by decide⟩
  now := 0
  reservations := Dict.empty

def tenADay : DayLimits where
  userId := "u".toList
  projectId := "p".toList
  day := 0
  userLimit := some 10
  projectLimit := none
  user_nonneg := by decide +kernel
  project_nonneg := by decide

def askCall (callSeq : ℤ) (amount : ℚ) : ReserveCall where
  runId := "r".toList
  callSeq := callSeq
  userId := some "u".toList
  projectId := some "p".toList
  estimatedCost := amount
  dailyUserLimit := some 10
  dailyProjectLimit := none
  lease := ⟨"w".toList, 1, "t".toList⟩
  newId := (toString callSeq).toList

def askFor (ask : ℤ × ℚ) : LedgerEvent := .reserve (askCall ask.1 ask.2)

theorem fresh_oneRun : tenADay.Fresh oneRun := fun _ _ hrow => (by cases hrow)

theorem run_askFor (asks : List (ℤ × ℚ)) :
    Run (Performs tenADay.Fixed CallDatabase.perform) oneRun
      (performed CallDatabase.perform oneRun (asks.map askFor))
      ((asks.map askFor).foldl CallDatabase.perform oneRun) := by
  apply run_performed
  intro e he call hcall _
  obtain ⟨ask, -, hask⟩ := List.mem_map.mp (mem_of_mem_performed he)
  rw [← hask] at hcall
  cases hcall
  exact ⟨fun _ => rfl, fun _ => rfl⟩

/-- Four and five units are held out of ten. -/
def nineHeld : CallDatabase := ([(1, 4), (2, 5)].map askFor).foldl CallDatabase.perform oneRun

/-- Asked for once more, the four are refused, and the row that held them counts no longer. -/
theorem not_conservative_refusedRepeat :
    ∃ hist db, tenADay.Fresh oneRun ∧
      Run (Performs tenADay.Fixed CallDatabase.perform) oneRun hist db ∧
      ¬ tenADay.Conservative hist db := by
  have hrun := run_askFor [(1, 4), (2, 5), (1, 4)]
  refine ⟨_, _, fresh_oneRun, hrun, ?_⟩
  rintro ⟨-, hcounted, -⟩
  have hsplit : performed CallDatabase.perform oneRun ([(1, 4), (2, 5), (1, 4)].map askFor) =
      performed CallDatabase.perform oneRun ([(1, 4), (2, 5)].map askFor) ++
        [(nineHeld, .reserve (askCall 1 4))] := rfl
  have haccepts : nineHeld.Accepts (askCall 1 4) := ⟨by decide +kernel, by decide +kernel⟩
  have hrefusal : nineHeld.refusal (askCall 1 4) = some "DAILY_USER_BUDGET_REACHED" := by
    decide +kernel
  have hrow : nineHeld.reservations.get? (askCall 1 4).identity =
      some ((askCall 1 4).row 0 .reserved none) := by decide +kernel
  have hlost := lost_of_refused hrun hsplit haccepts hrefusal hrow
  rcases hcounted _ _ _ hsplit _ ⟨_, hrow, rfl⟩ with hcounts | ⟨e, he, hreleased⟩
  · exact hlost.1 hcounts
  · exact hlost.2 e he hreleased

/-- A repetition within the limits finds its row reserved for enough. -/
theorem conservative_iff_grantedRepeat :
    ∃ hist db, hist.length = 2 ∧ tenADay.Conservative hist db := by
  have hrun := run_askFor [(1, 4), (1, 3)]
  refine ⟨_, _, rfl, (conservative_iff fresh_oneRun hrun).mpr ?_⟩
  intro e he
  rcases List.mem_cons.mp he with rfl | he
  · exact fun _ row hrow => (by cases hrow)
  · rw [List.mem_singleton.mp he]
    intro _ row hrow
    have hheld : (oneRun.perform (askFor (1, 4))).reservations.get? (askCall 1 3).identity =
        some ((askCall 1 4).row 0 .reserved none) := by decide +kernel
    rw [hheld] at hrow
    cases hrow
    have hgranted : (oneRun.perform (askFor (1, 4))).refusal (askCall 1 3) = none := by
      decide +kernel
    rw [hgranted, Option.isSome_none, if_neg Bool.false_ne_true]
    exact Or.inr ⟨rfl, by decide +kernel⟩

end DayLimits

end Milo.Budget
