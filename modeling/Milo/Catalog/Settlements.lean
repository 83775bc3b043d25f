import Milo.Catalog.Coverage

/-!
# Settlements — the ledger over many writes

A run is settled by the finalize path under its lease, by `settle_run` later, or by the operator
backfill; each of them is one write of the run's entries, and a refused write changes nothing.
Replaying a list of runs changes nothing.  The order matters as soon as two runs name one key with
two contents, or reach its greatest rank both.
-/

namespace Milo.Catalog

open Milo.Reasoning

/-! ## 1. Settling a run -/

/-- The lease identity the finalize path writes under. -/
structure LeaseIdentity where
  workerId : Text
  attempt : ℕ
  leaseToken : Text
  deriving DecidableEq

/-- `BACKFILL_SKIP_REASONS`. -/
inductive SkipReason
  | noOutput
  | noPreparation
  | preparationUnreadable
  | snapshotUnavailable
  | writeRefused
  deriving DecidableEq, Repr

structure BackfillReport where
  runsSeen : ℕ := 0
  runsRecorded : ℕ := 0
  entries : ℕ := 0
  skipped : Dict SkipReason ℕ := Dict.empty

def BackfillReport.skip (report : BackfillReport) (reason : SkipReason) : BackfillReport :=
  { report with skipped := report.skipped.set reason ((report.skipped.get? reason).getD 0 + 1) }

section Writes

variable (sha256 : Text → Text)

/-- `record_catalog_variant_coverage`: accepted from the lease identity that finalized the run. -/
def recordCatalogVariantCoverage (vocabulary : Text) (store : CoverageStore) (runId : Text)
    (level : CoverageLevel) (entries : List CoverageEntry) (lease : LeaseIdentity) :
    Except AppError (CoverageStore × CoverageAnswer) :=
  match store.runs.get? runId with
  | none => .error ⟨"RUN_LEASE_LOST", "run lease is held by another worker", 409⟩
  | some run =>
    if run.workerId = some lease.workerId ∧ run.attempt = lease.attempt ∧
        run.leaseToken = some lease.leaseToken then
      applyCatalogVariantCoverage sha256 vocabulary store runId level entries
    else .error ⟨"RUN_LEASE_LOST", "run lease is held by another worker", 409⟩

/-- `rebuild_catalog_variant_coverage`: the same write, with no lease. -/
def rebuildCatalogVariantCoverage (vocabulary : Text) (store : CoverageStore) (runId : Text)
    (level : CoverageLevel) (entries : List CoverageEntry) :
    Except AppError (CoverageStore × CoverageAnswer) :=
  applyCatalogVariantCoverage sha256 vocabulary store runId level entries

/-- What a run's durable data supports, or why it cannot be read. -/
abbrev Derived := Text → Except SkipReason (List CoverageEntry)

variable (derived : Derived)

/-- Rebuild the ledger rows of one finished run. -/
def backfillRun (vocabulary : Text) (level : CoverageLevel) (dryRun : Bool)
    (state : CoverageStore × BackfillReport) (runId : Text) : CoverageStore × BackfillReport :=
  let report := { state.2 with runsSeen := state.2.runsSeen + 1 }
  match derived runId with
  | .error reason => (state.1, report.skip reason)
  | .ok entries =>
    if dryRun then
      (state.1, { report with
        runsRecorded := report.runsRecorded + 1
        entries := report.entries + entries.length })
    else
      match rebuildCatalogVariantCoverage sha256 vocabulary state.1 runId level entries with
      | .error _ => (state.1, report.skip .writeRefused)
      | .ok (store, _) =>
        (store, { report with
          runsRecorded := report.runsRecorded + 1
          entries := report.entries + entries.length })

/-- Rebuild the ledger from a list of finished runs. -/
def backfill (vocabulary : Text) (level : CoverageLevel) (dryRun : Bool) (store : CoverageStore)
    (runIds : List Text) : CoverageStore × BackfillReport :=
  runIds.foldl (backfillRun sha256 derived vocabulary level dryRun) (store, {})

/-- `settle_run`: the store afterwards, and whether the run was settled now. -/
def settleRun (vocabulary : Text) (level : CoverageLevel) (store : CoverageStore) (runId : Text) :
    CoverageStore × Bool :=
  let settled := backfillRun sha256 derived vocabulary level false (store, {}) runId
  (settled.1, decide (settled.2.runsRecorded = 1))

/-- `record_run_coverage`: never raises; a failed write leaves the store as it was. -/
def recordRunCoverage (vocabulary : Text) (level : CoverageLevel) (store : CoverageStore)
    (runId : Text) (lease : LeaseIdentity) : CoverageStore :=
  match derived runId with
  | .error _ => store
  | .ok entries =>
    match recordCatalogVariantCoverage sha256 vocabulary store runId level entries lease with
    | .error _ => store
    | .ok (store', _) => store'

/-- One settlement of a run: the vocabulary in force at the write, and the lease if it is the finalize
    path's. -/
structure Application where
  runId : Text
  vocabulary : Text
  lease : Option LeaseIdentity := none
  deriving DecidableEq

/-- The store after one settlement. -/
def applySettlement (level : CoverageLevel) (store : CoverageStore) (app : Application) :
    CoverageStore :=
  match app.lease with
  | none => (settleRun sha256 derived app.vocabulary level store app.runId).1
  | some lease => recordRunCoverage sha256 derived app.vocabulary level store app.runId lease

def applySettlements (level : CoverageLevel) (store : CoverageStore) (apps : List Application) :
    CoverageStore :=
  apps.foldl (applySettlement sha256 derived level) store

/-! ## 2. What one settlement offers a key -/

/-- The lease identity, if one is given, is the run's. -/
def CoverageStore.holds (store : CoverageStore) (app : Application) : Bool :=
  match app.lease, store.runs.get? app.runId with
  | none, _ => true
  | some _, none => false
  | some lease, some run =>
    decide (run.workerId = some lease.workerId) && decide (run.attempt = lease.attempt) &&
      decide (run.leaseToken = some lease.leaseToken)

/-- The row a settlement offers a key; nothing if it is refused or does not name the key. -/
def offered (level : CoverageLevel) (store : CoverageStore) (key : Text) (app : Application) :
    Option LedgerRow :=
  match derived app.runId with
  | .error _ => none
  | .ok entries =>
    if store.holds app ∧ level = .register ∧ entries.length ≤ maxCoverageEntries then
      match store.settled sha256 app.runId entries with
      | .error _ => none
      | .ok (batch, settled) =>
        (settled.get? key).map fun settlement =>
          settlement.row app.runId batch.snapshotKey app.vocabulary
    else none

variable {sha256 derived} {level : CoverageLevel}

theorem apply_cases (vocabulary : Text) (store : CoverageStore) (runId : Text)
    (entries : List CoverageEntry) :
    (∃ batch settled answer, level = .register ∧ entries.length ≤ maxCoverageEntries ∧
      store.settled sha256 runId entries = .ok (batch, settled) ∧
      applyCatalogVariantCoverage sha256 vocabulary store runId level entries =
        .ok ({ store with
          coverage := ((incomingRows settled runId batch.snapshotKey vocabulary).foldl (upsert level)
            (store.coverage, 0)).1
          reservations := store.reservations.filter fun key row =>
            !(decide (row.runId = runId) && decide (key.2 = level)) }, answer)) ∨
    (∃ error, applyCatalogVariantCoverage sha256 vocabulary store runId level entries = .error error ∧
      (level = .register → entries.length ≤ maxCoverageEntries →
        ∃ error, store.settled sha256 runId entries = .error error)) := by
  unfold applyCatalogVariantCoverage coverageLevel
  by_cases hlevel : level = .register
  · rw [if_pos hlevel]
    by_cases hlength : maxCoverageEntries < entries.length
    · right
      refine ⟨_, if_pos hlength, ?_⟩
      intro _ hle
      omega
    · have hle : entries.length ≤ maxCoverageEntries := by omega
      cases hsettled : store.settled sha256 runId entries with
      | error error =>
        right
        refine ⟨error, ?_, fun _ _ => ⟨error, rfl⟩⟩
        exact if_neg hlength
      | ok pair =>
        exact Or.inl ⟨pair.1, pair.2, _, hlevel, hle, rfl, if_neg hlength⟩
  · right
    rw [if_neg hlevel]
    exact ⟨_, rfl, fun h => absurd h hlevel⟩

/-- Everything a settlement reads of the store and does not write. -/
structure CoverageStore.SameRuns (store other : CoverageStore) : Prop where
  runs : other.runs = store.runs
  batchRuns : other.batchRuns = store.batchRuns
  batches : other.batches = store.batches
  candidates : other.candidates = store.candidates

variable {other store : CoverageStore}

theorem CoverageStore.SameRuns.trans {third : CoverageStore} (h : store.SameRuns other) (h' : other.SameRuns third) :
    store.SameRuns third where
  runs := h'.runs.trans h.runs
  batchRuns := h'.batchRuns.trans h.batchRuns
  batches := h'.batches.trans h.batches
  candidates := h'.candidates.trans h.candidates

theorem CoverageStore.SameRuns.settled (h : store.SameRuns other) (runId : Text) (entries : List CoverageEntry) :
    other.settled sha256 runId entries = store.settled sha256 runId entries := by
  unfold CoverageStore.settled CoverageStore.keyed CoverageStore.snapshotKeyContents
  rw [h.runs, h.batchRuns, h.batches, h.candidates]

theorem CoverageStore.SameRuns.offered (h : store.SameRuns other) (key : Text) (app : Application) :
    offered sha256 derived level other key app = offered sha256 derived level store key app := by
  have hholds : other.holds app = store.holds app := by
    unfold CoverageStore.holds
    rw [h.runs]
  unfold Milo.Catalog.offered
  rw [hholds]
  simp only [h.settled]

/-- A settlement is a ledger write, or changes nothing. -/
theorem applySettlement_eq (store : CoverageStore) (app : Application) :
    applySettlement sha256 derived level store app =
      match derived app.runId with
      | .error _ => store
      | .ok entries =>
        if store.holds app then
          match applyCatalogVariantCoverage sha256 app.vocabulary store app.runId level entries with
          | .error _ => store
          | .ok (store', _) => store'
        else store := by
  unfold applySettlement settleRun recordRunCoverage backfillRun rebuildCatalogVariantCoverage
    recordCatalogVariantCoverage CoverageStore.holds
  cases hderived : derived app.runId with
  | error reason => cases app.lease <;> rfl
  | ok entries =>
    cases hlease : app.lease with
    | none =>
      simp only [Bool.false_eq_true, if_false, if_true]
      cases applyCatalogVariantCoverage sha256 app.vocabulary store app.runId level entries <;> rfl
    | some lease =>
      cases hrun : store.runs.get? app.runId with
      | none => simp
      | some run =>
        simp only [Bool.and_eq_true, decide_eq_true_eq]
        by_cases hholds : run.workerId = some lease.workerId ∧ run.attempt = lease.attempt ∧
            run.leaseToken = some lease.leaseToken
        · rw [if_pos hholds, if_pos ⟨⟨hholds.1, hholds.2.1⟩, hholds.2.2⟩]
        · rw [if_neg hholds, if_neg fun h => hholds ⟨h.1.1, h.1.2, h.2⟩]

theorem sameRuns_applySettlement (store : CoverageStore) (app : Application) :
    store.SameRuns (applySettlement sha256 derived level store app) := by
  rw [applySettlement_eq]
  cases derived app.runId with
  | error reason => exact ⟨rfl, rfl, rfl, rfl⟩
  | ok entries =>
    simp only
    by_cases hholds : store.holds app = true
    · rw [if_pos hholds]
      rcases @apply_cases sha256 level app.vocabulary store app.runId entries
        with ⟨batch, settled, answer, -, -, -, heq⟩ | ⟨error, heq, -⟩
      · rw [heq]
        exact ⟨rfl, rfl, rfl, rfl⟩
      · rw [heq]
        exact ⟨rfl, rfl, rfl, rfl⟩
    · rw [if_neg hholds]
      exact ⟨rfl, rfl, rfl, rfl⟩

theorem get?_applySettlement (store : CoverageStore) (app : Application) (key : Text) :
    (applySettlement sha256 derived level store app).coverage.get? (key, level) =
      ledgerRanking.offerAll (store.coverage.get? (key, level))
        ([app].filterMap (offered sha256 derived level store key)) := by
  rw [applySettlement_eq, List.filterMap_cons, List.filterMap_nil]
  unfold offered
  cases derived app.runId with
  | error reason => rfl
  | ok entries =>
    simp only
    by_cases hholds : store.holds app = true
    · rw [if_pos hholds]
      rcases @apply_cases sha256 level app.vocabulary store app.runId entries
        with ⟨batch, settled, answer, hlevel, hlength, hsettled, heq⟩ | ⟨error, heq, hrefused⟩
      · rw [heq, if_pos ⟨hholds, hlevel, hlength⟩, hsettled]
        simp only
        cases hget : settled.get? key with
        | none =>
          rw [get?_upserts_of_notMem]
          · rfl
          · intro row hrow
            rcases mem_incomingRows.mp hrow with ⟨settlement, hsettlement, -⟩
            rw [hget] at hsettlement
            cases hsettlement
        | some settlement =>
          exact get?_upserts_of_mem level (nodup_incomingRows _ _ _ _)
            (mem_incomingRows.mpr ⟨settlement, hget, rfl⟩) (store.coverage, 0)
      · rw [heq]
        by_cases hallowed : level = .register ∧ entries.length ≤ maxCoverageEntries
        · rcases hrefused hallowed.1 hallowed.2 with ⟨error', herror⟩
          rw [if_pos ⟨hholds, hallowed⟩, herror]
          rfl
        · rw [if_neg fun h => hallowed h.2]
          rfl
    · rw [if_neg hholds, if_neg fun h => hholds h.1]
      rfl

theorem sameRuns_applySettlements (apps : List Application) (store : CoverageStore) :
    store.SameRuns (applySettlements sha256 derived level store apps) := by
  induction apps generalizing store with
  | nil => exact ⟨rfl, rfl, rfl, rfl⟩
  | cons app apps ih => exact (sameRuns_applySettlement store app).trans (ih _)

/-- What a list of settlements leaves at a key: their rows, offered in turn. -/
theorem get?_applySettlements (apps : List Application) (store : CoverageStore) (key : Text) :
    (applySettlements sha256 derived level store apps).coverage.get? (key, level) =
      ledgerRanking.offerAll (store.coverage.get? (key, level))
        (apps.filterMap (offered sha256 derived level store key)) := by
  induction apps generalizing store with
  | nil => rfl
  | cons app apps ih =>
    have hsame : offered sha256 derived level (applySettlement sha256 derived level store app) key =
        offered sha256 derived level store key :=
      funext ((sameRuns_applySettlement store app).offered key)
    show (applySettlements sha256 derived level (applySettlement sha256 derived level store app)
      apps).coverage.get? (key, level) = _
    rw [ih, hsame, get?_applySettlement, ← Ranking.offerAll_append, ← List.filterMap_append]
    rfl

theorem get?_applySettlement_ne (store : CoverageStore) (app : Application)
    {place : Text × CoverageLevel} (h : place.2 ≠ level) :
    (applySettlement sha256 derived level store app).coverage.get? place =
      store.coverage.get? place := by
  rw [applySettlement_eq]
  cases derived app.runId with
  | error reason => rfl
  | ok entries =>
    simp only
    by_cases hholds : store.holds app = true
    · rw [if_pos hholds]
      rcases @apply_cases sha256 level app.vocabulary store app.runId entries
        with ⟨batch, settled, answer, -, -, -, heq⟩ | ⟨error, heq, -⟩
      · rw [heq]
        exact get?_upserts_of_notMem level (fun _ _ => h) (store.coverage, 0)
      · rw [heq]
    · rw [if_neg hholds]

theorem get?_applySettlements_ne (apps : List Application) (store : CoverageStore)
    {place : Text × CoverageLevel} (h : place.2 ≠ level) :
    (applySettlements sha256 derived level store apps).coverage.get? place =
      store.coverage.get? place := by
  induction apps generalizing store with
  | nil => rfl
  | cons app apps ih =>
    show (applySettlements sha256 derived level (applySettlement sha256 derived level store app)
      apps).coverage.get? place = _
    rw [ih, get?_applySettlement_ne store app h]

end Writes

/-! ## 3. Replaying the backfill -/

section Backfill

variable (sha256 : Text → Text) (derived : Derived) (vocabulary : Text) (level : CoverageLevel)

/-- The backfill is a settlement of each run in turn. -/
theorem backfill_eq (runIds : List Text) (store : CoverageStore) (report : BackfillReport) :
    (runIds.foldl (backfillRun sha256 derived vocabulary level false) (store, report)).1 =
      applySettlements sha256 derived level store (runIds.map fun runId => ⟨runId, vocabulary, none⟩) := by
  induction runIds generalizing store report with
  | nil => rfl
  | cons runId runIds ih =>
    have hstore : (backfillRun sha256 derived vocabulary level false (store, report) runId).1 =
        applySettlement sha256 derived level store ⟨runId, vocabulary, none⟩ := by
      unfold applySettlement settleRun backfillRun
      cases derived runId with
      | error reason => rfl
      | ok entries =>
        simp only [Bool.false_eq_true, if_false]
        cases rebuildCatalogVariantCoverage sha256 vocabulary store runId level entries <;> rfl
    rw [List.foldl_cons, List.map_cons]
    show _ = applySettlements sha256 derived level
      (applySettlement sha256 derived level store ⟨runId, vocabulary, none⟩) _
    rw [← hstore, ← ih]

/-- A second backfill of the same runs changes no row.  While the runs of a stretch state the content
    a row has, its rank never decreases. -/
theorem backfill_idempotent (store : CoverageStore) (runIds : List Text) :
    (∀ place, (backfill sha256 derived vocabulary level false
        (backfill sha256 derived vocabulary level false store runIds).1 runIds).1.coverage.get? place =
      (backfill sha256 derived vocabulary level false store runIds).1.coverage.get? place) ∧
    ∀ key held, store.coverage.get? (key, level) = some held →
      (∀ runId ∈ runIds, ∀ row,
        offered sha256 derived level store key ⟨runId, vocabulary, none⟩ = some row →
          row.contentSha256 = held.contentSha256) →
      ∃ row, (backfill sha256 derived vocabulary level false store runIds).1.coverage.get?
          (key, level) = some row ∧
        row.contentSha256 = held.contentSha256 ∧ held.status.rank ≤ row.status.rank := by
  unfold backfill
  rw [backfill_eq, backfill_eq]
  apply And.intro
  · intro place
    by_cases hlevel : place.2 = level
    · have hplace : place = (place.1, level) := by
        rw [← hlevel]
      have hsame : offered sha256 derived level (applySettlements sha256 derived level store
            (runIds.map fun runId => ⟨runId, vocabulary, none⟩)) place.1 =
          offered sha256 derived level store place.1 :=
        funext ((sameRuns_applySettlements _ store).offered place.1)
      rw [hplace, get?_applySettlements, hsame, get?_applySettlements]
      exact ledgerRanking.offerAll_replay _ _
    · rw [get?_applySettlements_ne _ _ hlevel]
  · intro key held hheld hcontent
    rw [get?_applySettlements, hheld]
    apply ledgerRanking.rank_le_offerAll
    intro row hrow
    rcases List.mem_filterMap.mp hrow with ⟨app, happ, hoffered⟩
    rcases List.mem_map.mp happ with ⟨runId, hrunId, heq⟩
    rw [← heq] at hoffered
    exact hcontent runId hrunId row hoffered

end Backfill

/-! ## 4. Settling late -/

section Late

variable (sha256 : Text → Text) (derived : Derived) (level : CoverageLevel)

/-- When a run finished, and its id: the order the backfill lists runs in. -/
def CoverageStore.finishOrder (store : CoverageStore) (app : Application) : ℤ ×ₗ Text :=
  toLex (((store.runs.get? app.runId).map RunRow.finishedAt).getD 0, app.runId)

def CoverageStore.finishesBefore (store : CoverageStore) (a b : Application) : Prop :=
  store.finishOrder a ≤ store.finishOrder b

instance (store : CoverageStore) : DecidableRel store.finishesBefore := fun a b =>
  inferInstanceAs (Decidable (store.finishOrder a ≤ store.finishOrder b))

instance (store : CoverageStore) : Std.Total store.finishesBefore :=
  ⟨fun a b => le_total (store.finishOrder a) (store.finishOrder b)⟩

instance (store : CoverageStore) : IsTrans Application store.finishesBefore :=
  ⟨fun _ _ _ hab hbc => le_trans hab hbc⟩

/-- The settlements in order of finish, those of one run as they came. -/
def CoverageStore.inFinishOrder (store : CoverageStore) (apps : List Application) :
    List Application :=
  apps.insertionSort store.finishesBefore

/-- One content is settled for the key, and the greatest rank of it by one run, unless the row
    recorded has that content and outranks all. -/
def SettledByOne (store : CoverageStore) (apps : List Application) (key : Text) : Prop :=
  ledgerRanking.OrderFree (offered sha256 derived level store key) Application.runId
    (store.coverage.get? (key, level)) apps

/-- What a row offered says of the settlement it comes from. -/
theorem offered_eq_some {store : CoverageStore} {key : Text} {app : Application} {row : LedgerRow}
    (h : offered sha256 derived level store key app = some row) :
    ∃ entries batch settled settlement, derived app.runId = .ok entries ∧
      store.settled sha256 app.runId entries = .ok (batch, settled) ∧
      settled.get? key = some settlement ∧
      row = settlement.row app.runId batch.snapshotKey app.vocabulary := by
  unfold offered at h
  cases hderived : derived app.runId with
  | error reason =>
    rw [hderived] at h
    cases h
  | ok entries =>
    rw [hderived] at h
    simp only at h
    split at h
    · cases hsettled : store.settled sha256 app.runId entries with
      | error error =>
        rw [hsettled] at h
        cases h
      | ok pair =>
        rw [hsettled] at h
        rcases Option.map_eq_some_iff.mp h with ⟨settlement, hget, hrow⟩
        exact ⟨entries, pair.1, pair.2, settlement, rfl, hsettled, hget, hrow.symm⟩
    · cases h

/-- A run states one content for a key, and its rows name it. -/
theorem writers_offered (store : CoverageStore) (apps : List Application) (key : Text) :
    ledgerRanking.Writers (offered sha256 derived level store key) Application.runId
      store.finishesBefore apps where
  same a _ b _ h := by
    show store.finishOrder a ≤ store.finishOrder b
    unfold CoverageStore.finishOrder
    rw [h]
  antisymm a _ b _ hab hba := by
    have hkeys : store.finishOrder a = store.finishOrder b := le_antisymm hab hba
    unfold CoverageStore.finishOrder at hkeys
    simp only [EmbeddingLike.apply_eq_iff_eq, Prod.mk.injEq] at hkeys
    exact hkeys.2
  content a _ b _ row other hrun hrow hother := by
    rcases offered_eq_some sha256 derived level hrow with
      ⟨entries, batch, settled, settlement, hentries, hsettled, hget, heq⟩
    rcases offered_eq_some sha256 derived level hother with
      ⟨entries', batch', settled', settlement', hentries', hsettled', hget', heq'⟩
    rw [← hrun, hentries] at hentries'
    cases hentries'
    rw [← hrun, hsettled] at hsettled'
    cases hsettled'
    rw [hget] at hget'
    cases hget'
    rw [heq, heq']
    rfl
  named a _ b _ row hrow hother := by
    rcases offered_eq_some sha256 derived level hrow with
      ⟨entries, batch, settled, settlement, -, -, -, heq⟩
    rcases offered_eq_some sha256 derived level hother with
      ⟨entries', batch', settled', settlement', -, -, -, heq'⟩
    have hrun := congrArg LedgerRow.lastRunId (heq.symm.trans heq')
    exact hrun

/-- Every order of the settlements leaves the rows of the finish order exactly if each key is settled
    by one run. -/
theorem late_settlement_iff (store : CoverageStore) (apps : List Application) :
    (∀ order : List Application, order.Perm apps → ∀ key,
      (applySettlements sha256 derived level store order).coverage.get? (key, level) =
        (applySettlements sha256 derived level store (store.inFinishOrder order)).coverage.get?
          (key, level)) ↔
    ∀ key, SettledByOne sha256 derived level store apps key := by
  have hkey : ∀ key, ledgerRanking.AnyOrder (offered sha256 derived level store key)
      store.finishesBefore (store.coverage.get? (key, level)) apps ↔
      SettledByOne sha256 derived level store apps key := fun key =>
    (writers_offered sha256 derived level store apps key).orderFree_iff
  apply Iff.intro
  · intro h key
    apply (hkey key).mp
    intro order hperm
    rw [← get?_applySettlements, ← get?_applySettlements]
    exact h order hperm key
  · intro h order hperm key
    rw [get?_applySettlements, get?_applySettlements]
    exact (hkey key).mpr (h key) order hperm

end Late

/-- Two finished runs whose snapshots state different rows of one variant. -/
def changedRow : CoverageStore where
  runs := ⟨[("earlier".toList, { status := .completed, finishedAt := 1000 }),
      ("later".toList, { status := .completed, finishedAt := 2000 })], by decide⟩
  batchRuns := ⟨[("earlier".toList, "batch1".toList), ("later".toList, "batch2".toList)], by decide⟩
  batches := ⟨[("batch1".toList, ⟨"snapshot1".toList, "2026-01".toList, ["row1".toList], false⟩),
      ("batch2".toList, ⟨"snapshot2".toList, "2026-02".toList, ["row2".toList], false⟩)], by decide⟩
  candidates := ⟨[("row1".toList, ⟨"snapshot1".toList, [], "variant".toList, "old".toList, "1".toList⟩),
      ("row2".toList, ⟨"snapshot2".toList, [], "variant".toList, "new".toList, "2".toList⟩)], by decide⟩
  coverage := Dict.empty
  reservations := Dict.empty

/-- Each run enriched the row it read. -/
def changedRowDerived : Derived := fun runId =>
  if runId = "earlier".toList then .ok [⟨"row1".toList, .enriched⟩]
  else if runId = "later".toList then .ok [⟨"row2".toList, .enriched⟩]
  else .error .noOutput

def settledLate : List Application :=
  [⟨"later".toList, "v1".toList, none⟩, ⟨"earlier".toList, "v1".toList, none⟩]

/-- The run that finished first is settled last, and its older content displaces the newer one. -/
theorem late_settlement_displaces :
    (changedRow.inFinishOrder settledLate).Perm settledLate ∧
    ∀ sha256 : Text → Text,
      (applySettlements sha256 changedRowDerived .register changedRow settledLate).coverage.get?
          ("variant".toList, .register) =
        some ⟨.enriched, "earlier".toList, "2026-01".toList, "old".toList, "v1".toList, none⟩ ∧
      (applySettlements sha256 changedRowDerived .register changedRow
          (changedRow.inFinishOrder settledLate)).coverage.get? ("variant".toList, .register) =
        some ⟨.enriched, "later".toList, "2026-02".toList, "new".toList, "v1".toList, none⟩ := by
  apply And.intro
  · exact List.perm_insertionSort changedRow.finishesBefore settledLate
  · intro sha256
    rw [get?_applySettlements, get?_applySettlements]
    exact ⟨rfl, rfl⟩

end Milo.Catalog
