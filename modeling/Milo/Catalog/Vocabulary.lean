import Milo.Catalog.Settlements
import Milo.Reasoning.Transition

/-!
# Vocabulary — what a change of the vocabulary re-opens

A row is stamped with the vocabulary in force when it is written, not with the one its run finished
under.  A run settled after a change therefore marks its variants as known under the new vocabulary,
unless the rows it finds were already enriched or already marked.
-/

namespace Milo.Catalog

open Milo.Reasoning

/-! ## 1. Histories -/

/-- The store, the vocabulary in force, and the one each run finished under. -/
structure LedgerState where
  store : CoverageStore
  vocabulary : Text
  finishedUnder : Dict Text Text

inductive LedgerEvent
  | finish (runId : Text) (status : RunStatus) (finishedAt : ℤ)
  | setVocabulary (version : Text)
  | settle (runId : Text) (lease : Option LeaseIdentity)

/-- A run finishes once, with a result. -/
def LedgerEvent.Allowed (state : LedgerState) : LedgerEvent → Prop
  | .finish runId status _ =>
    status.isFinished = true ∧
      ∃ run, state.store.runs.get? runId = some run ∧ run.status.isTerminal = false
  | .setVocabulary _ => True
  | .settle _ _ => True

section Histories

variable (sha256 : Text → Text) (derived : Derived)

def LedgerState.settle (state : LedgerState) (runId : Text) (lease : Option LeaseIdentity) :
    CoverageStore :=
  applySettlement sha256 derived .register state.store ⟨runId, state.vocabulary, lease⟩

def LedgerEvent.exec (state : LedgerState) : LedgerEvent → LedgerState
  | .finish runId status finishedAt =>
    match state.store.runs.get? runId with
    | none => state
    | some run =>
      { state with
        store := { state.store with
          runs := state.store.runs.set runId { run with status := status, finishedAt := finishedAt } }
        finishedUnder := state.finishedUnder.set runId state.vocabulary }
  | .setVocabulary version => { state with vocabulary := version }
  | .settle runId lease => { state with store := state.settle sha256 derived runId lease }

/-- Nothing is recorded, and no run has finished. -/
structure LedgerState.Fresh (state : LedgerState) : Prop where
  coverage : ∀ place, state.store.coverage.get? place = none
  runs : ∀ runId run, state.store.runs.get? runId = some run → run.status.isFinished = false

/-- What the ledger decides for a candidate of this key and content. -/
def LedgerState.decision (state : LedgerState) (key content : Text) : CoverageDecision :=
  coverageDecision (state.store.coverage.get? (key, .register)) content false state.vocabulary

/-- The run left the key unresolved, with this content. -/
def LeftUnresolved (store : CoverageStore) (runId key content : Text) : Prop :=
  ∃ entries batch settled settlement, derived runId = .ok entries ∧
    store.settled sha256 runId entries = .ok (batch, settled) ∧
    settled.get? key = some settlement ∧ settlement.status.isUnresolved = true ∧
    settlement.contentSha256 = content

/-- What is left out as known was left unresolved under the vocabulary in force. -/
def KnownUnderCurrent (state : LedgerState) : Prop :=
  ∀ key content, state.decision key content = .excludedKnownUnresolved →
    ∃ runId, state.finishedUnder.get? runId = some state.vocabulary ∧
      LeftUnresolved sha256 derived state.store runId key content

/-- Settling a run of another vocabulary marks nothing as known. -/
def NeverMarks (state : LedgerState) : LedgerEvent → Prop
  | .settle runId lease =>
    ∀ version, state.finishedUnder.get? runId = some version → version ≠ state.vocabulary →
      ∀ key content,
        (LedgerEvent.exec sha256 derived state (.settle runId lease)).decision key content =
          .excludedKnownUnresolved →
        state.decision key content = .excludedKnownUnresolved
  | _ => True

/-- A run of another vocabulary finds every variant it left unresolved enriched, or already marked, by
    a row of the same content. -/
def SettledInTime (state : LedgerState) : LedgerEvent → Prop
  | .settle runId lease =>
    ∀ version, state.finishedUnder.get? runId = some version → version ≠ state.vocabulary →
      ∀ key row,
        offered sha256 derived .register state.store key ⟨runId, state.vocabulary, lease⟩ = some row →
        row.status.isUnresolved = true →
        ∃ held, state.store.coverage.get? (key, .register) = some held ∧
          held.contentSha256 = row.contentSha256 ∧
          (held.status = .enriched ∨
            held.status.isUnresolved = true ∧ held.vocabularyVersion = state.vocabulary)
  | _ => True

/-- Every run that finished is known to have, and every unresolved row goes back to a run that
    finished under its vocabulary. -/
structure Stamped (state : LedgerState) : Prop where
  finished : ∀ runId run, state.store.runs.get? runId = some run → run.status.isFinished = true →
    ∃ version, state.finishedUnder.get? runId = some version
  justified : ∀ key row, state.store.coverage.get? (key, .register) = some row →
    row.status.isUnresolved = true →
    ∃ runId, state.finishedUnder.get? runId = some row.vocabularyVersion ∧
      LeftUnresolved sha256 derived state.store runId key row.contentSha256

variable {sha256 derived}

/-! ## 2. One settlement -/

variable {key runId : Text} {state : LedgerState} {lease : Option LeaseIdentity} {row : LedgerRow}
  {store : CoverageStore} {event : LedgerEvent}

theorem decision_eq_knownUnresolved {content : Text} :
    state.decision key content = .excludedKnownUnresolved ↔
      ∃ held, state.store.coverage.get? (key, .register) = some held ∧
        held.status.isUnresolved = true ∧ held.contentSha256 = content ∧
        held.vocabularyVersion = state.vocabulary :=
  coverageDecision_eq_knownUnresolved

/-- After a settlement a key has the row it had, or the one offered, which nothing there outranks. -/
theorem settle_row_cases (h : (state.settle sha256 derived runId lease).coverage.get? (key, .register) = some row) :
    state.store.coverage.get? (key, .register) = some row ∨
    (offered sha256 derived .register state.store key ⟨runId, state.vocabulary, lease⟩ = some row ∧
      ∀ held, state.store.coverage.get? (key, .register) = some held →
        held.contentSha256 = row.contentSha256 → held.status.rank ≤ row.status.rank) := by
  unfold LedgerState.settle at h
  rw [get?_applySettlement] at h
  cases hoffered : offered sha256 derived .register state.store key
      ⟨runId, state.vocabulary, lease⟩ with
  | none =>
    rw [List.filterMap_cons_none hoffered] at h
    exact Or.inl h
  | some incoming =>
    rw [List.filterMap_cons_some hoffered, List.filterMap_nil] at h
    cases h
    rcases ledgerRanking.offer_cases (state.store.coverage.get? (key, .register)) incoming with
      ⟨held, hheld, -, -, heq⟩ | ⟨hover, heq⟩
    · rw [heq]
      exact Or.inl hheld
    · rw [heq]
      exact Or.inr ⟨rfl, hover⟩

/-- A row offered is recorded, unless an enriched row of its content stays. -/
theorem settle_writes (hunresolved : row.status.isUnresolved = true)
    (h : offered sha256 derived .register state.store key ⟨runId, state.vocabulary, lease⟩ = some row) :
    (state.settle sha256 derived runId lease).coverage.get? (key, .register) = some row ∨
    ∃ held, state.store.coverage.get? (key, .register) = some held ∧
      held.contentSha256 = row.contentSha256 ∧ held.status = .enriched := by
  unfold LedgerState.settle
  rw [get?_applySettlement, List.filterMap_cons_some h, List.filterMap_nil]
  rcases ledgerRanking.offer_cases (state.store.coverage.get? (key, .register)) row with
    ⟨held, hheld, hcontent, hrank, -⟩ | ⟨-, heq⟩
  · right
    refine ⟨held, hheld, hcontent, CoverageStatus.eq_enriched_of_rank ?_⟩
    rw [← CoverageStatus.rank_of_isUnresolved hunresolved]
    exact hrank
  · left
    show some _ = some row
    rw [heq]

theorem vocabulary_offered {app : Application} (h : offered sha256 derived .register store key app = some row) :
    row.vocabularyVersion = app.vocabulary := by
  rcases offered_eq_some sha256 derived .register h with
    ⟨entries, batch, settled, settlement, -, -, -, heq⟩
  rw [heq]
  rfl

theorem leftUnresolved_of_offered {app : Application}
    (h : offered sha256 derived .register store key app = some row) (hunresolved : row.status.isUnresolved = true) :
    LeftUnresolved sha256 derived store app.runId key row.contentSha256 := by
  rcases offered_eq_some sha256 derived .register h with
    ⟨entries, batch, settled, settlement, hentries, hsettled, hget, heq⟩
  rw [heq] at hunresolved ⊢
  exact ⟨entries, batch, settled, settlement, hentries, hsettled, hget, hunresolved, rfl⟩

theorem finished_of_settled {entries : List CoverageEntry} {answer : Batch × Dict Text KeySettlement}
    (h : store.settled sha256 runId entries = .ok answer) :
    ∃ run, store.runs.get? runId = some run ∧ run.status.isFinished = true := by
  unfold CoverageStore.settled at h
  cases hrun : store.runs.get? runId with
  | none =>
    rw [hrun] at h
    cases h
  | some run =>
    rw [hrun] at h
    simp only at h
    split at h
    · rename_i hfinished
      exact ⟨run, rfl, hfinished⟩
    · cases h

/-- What a finished run settles does not change when another run finishes. -/
theorem settled_of_runs_set {other : Text} {row : RunRow} {entries : List CoverageEntry} (h : runId ≠ other) :
    { store with runs := store.runs.set other row }.settled sha256 runId entries =
      store.settled sha256 runId entries := by
  unfold CoverageStore.settled CoverageStore.keyed CoverageStore.snapshotKeyContents
  simp only [Dict.get?_set_ne _ _ h]

/-! ## 3. Each step -/

theorem Stamped.knownUnderCurrent (h : Stamped sha256 derived state) : KnownUnderCurrent sha256 derived state := by
  intro key content hdecision
  rcases decision_eq_knownUnresolved.mp hdecision with
    ⟨held, hheld, hunresolved, hcontent, hvocabulary⟩
  rcases h.justified key held hheld hunresolved with ⟨runId, hfinished, hleft⟩
  rw [hvocabulary] at hfinished
  rw [hcontent] at hleft
  exact ⟨runId, hfinished, hleft⟩

theorem SettledInTime.neverMarks (h : SettledInTime sha256 derived state event) :
    NeverMarks sha256 derived state event := by
  cases event with
  | finish runId status finishedAt => trivial
  | setVocabulary version => trivial
  | settle runId lease =>
    intro version hfinished hother key content hdecision
    rcases decision_eq_knownUnresolved.mp hdecision with
      ⟨row, hrow, hunresolved, hcontent, hvocabulary⟩
    rcases settle_row_cases hrow with hold | ⟨hoffered, hover⟩
    · exact decision_eq_knownUnresolved.mpr ⟨row, hold, hunresolved, hcontent, hvocabulary⟩
    · rcases h version hfinished hother key row hoffered hunresolved with
        ⟨held, hheld, hsame, henriched | ⟨hmarked, hcurrent⟩⟩
      · -- an enriched row of the content would have stayed
        have hrank := hover held hheld hsame
        rw [henriched, CoverageStatus.rank_of_isUnresolved hunresolved] at hrank
        exact absurd hrank (by decide)
      · exact decision_eq_knownUnresolved.mpr
          ⟨held, hheld, hmarked, hsame.trans hcontent, hcurrent⟩

theorem NeverMarks.settledInTime (h : NeverMarks sha256 derived state event) :
    SettledInTime sha256 derived state event := by
  cases event with
  | finish runId status finishedAt => trivial
  | setVocabulary version => trivial
  | settle runId lease =>
    intro version hfinished hother key row hoffered hunresolved
    rcases settle_writes hunresolved hoffered with hwritten | ⟨held, hheld, hcontent, henriched⟩
    · have hdecision := h version hfinished hother key row.contentSha256
        (decision_eq_knownUnresolved.mpr
          ⟨row, hwritten, hunresolved, rfl, vocabulary_offered hoffered⟩)
      rcases decision_eq_knownUnresolved.mp hdecision with
        ⟨held, hheld, hmarked, hcontent, hcurrent⟩
      exact ⟨held, hheld, hcontent, Or.inr ⟨hmarked, hcurrent⟩⟩
    · exact ⟨held, hheld, hcontent, Or.inl henriched⟩

theorem Fresh.stamped (h : state.Fresh) :
    Stamped sha256 derived state where
  finished runId run hrun hfinished := by
    rw [h.runs runId run hrun] at hfinished
    cases hfinished
  justified key row hrow _ := by
    rw [h.coverage] at hrow
    cases hrow

/-- A settlement in time leaves every unresolved row justified. -/
theorem Stamped.settle (h : Stamped sha256 derived state)
    (htime : SettledInTime sha256 derived state (.settle runId lease)) :
    Stamped sha256 derived (LedgerEvent.exec sha256 derived state (.settle runId lease)) := by
  have hsame : state.store.SameRuns (state.settle sha256 derived runId lease) :=
    sameRuns_applySettlement _ _
  have hleft : ∀ {run key content}, LeftUnresolved sha256 derived state.store run key content →
      LeftUnresolved sha256 derived (state.settle sha256 derived runId lease) run key content := by
    intro run key content hleft
    rcases hleft with ⟨entries, batch, settled, settlement, hentries, hsettled, hrest⟩
    exact ⟨entries, batch, settled, settlement, hentries, (hsame.settled run entries).trans hsettled,
      hrest⟩
  constructor
  · intro run row hrun hfinished
    apply h.finished run row _ hfinished
    rw [← hsame.runs]
    exact hrun
  · intro key row hrow hunresolved
    show ∃ run, state.finishedUnder.get? run = some row.vocabularyVersion ∧ _
    rcases settle_row_cases hrow with hold | ⟨hoffered, hover⟩
    · rcases h.justified key row hold hunresolved with ⟨run, hfinished, hjustified⟩
      exact ⟨run, hfinished, hleft hjustified⟩
    · have hown := leftUnresolved_of_offered hoffered hunresolved
      rcases id hown with ⟨entries, batch, settled, settlement, -, hsettled, -⟩
      rcases finished_of_settled hsettled with ⟨run, hrun, hisFinished⟩
      rcases h.finished runId run hrun hisFinished with ⟨version, hversion⟩
      have hvocabulary : row.vocabularyVersion = state.vocabulary := vocabulary_offered hoffered
      rw [hvocabulary]
      by_cases hcurrent : version = state.vocabulary
      · rw [hcurrent] at hversion
        exact ⟨runId, hversion, hleft hown⟩
      · rcases htime version hversion hcurrent key row hoffered hunresolved with
          ⟨held, hheld, hcontent, henriched | ⟨hmarked, hstamp⟩⟩
        · have hrank := hover held hheld hcontent
          rw [henriched, CoverageStatus.rank_of_isUnresolved hunresolved] at hrank
          exact absurd hrank (by decide)
        · rcases h.justified key held hheld hmarked with ⟨other, hfinished, hjustified⟩
          rw [hstamp] at hfinished
          rw [hcontent] at hjustified
          exact ⟨other, hfinished, hleft hjustified⟩

theorem Stamped.finish (h : Stamped sha256 derived state) {status : RunStatus} {finishedAt : ℤ}
    (hallowed : LedgerEvent.Allowed state (.finish runId status finishedAt)) :
    Stamped sha256 derived (LedgerEvent.exec sha256 derived state (.finish runId status finishedAt)) := by
  rcases hallowed with ⟨-, run, hrun, hopen⟩
  have hexec : LedgerEvent.exec sha256 derived state (.finish runId status finishedAt) =
      { state with
        store := { state.store with
          runs := state.store.runs.set runId { run with status := status, finishedAt := finishedAt } }
        finishedUnder := state.finishedUnder.set runId state.vocabulary } := by
    simp only [LedgerEvent.exec, hrun]
  rw [hexec]
  constructor
  · intro other row hother hfinished
    by_cases heq : other = runId
    · rw [heq]
      exact ⟨state.vocabulary, Dict.get?_set_self _ _ _⟩
    · simp only [Dict.get?_set_ne _ _ heq] at hother ⊢
      exact h.finished other row hother hfinished
  · intro key row hrow hunresolved
    rcases h.justified key row hrow hunresolved with
      ⟨other, hfinished, entries, batch, settled, settlement, hentries, hsettled, hrest⟩
    -- the run that justifies the row had finished before, so it is not the one that finishes now
    have hne : other ≠ runId := by
      intro heq
      rcases finished_of_settled hsettled with ⟨own, hown, hisFinished⟩
      rw [heq, hrun] at hown
      cases hown
      rw [RunStatus.isTerminal_of_isFinished hisFinished] at hopen
      cases hopen
    refine ⟨other, ?_, entries, batch, settled, settlement, hentries, ?_, hrest⟩
    · simp only [Dict.get?_set_ne _ _ hne]
      exact hfinished
    · rw [settled_of_runs_set hne]
      exact hsettled

theorem Stamped.step {state' : LedgerState} (h : Stamped sha256 derived state)
    (hstep : Performs LedgerEvent.Allowed (LedgerEvent.exec sha256 derived) state event state')
    (htime : SettledInTime sha256 derived state event) : Stamped sha256 derived state' := by
  rw [hstep.2]
  cases event with
  | finish runId status finishedAt => exact h.finish hstep.1
  | setVocabulary version => exact ⟨h.finished, h.justified⟩
  | settle runId lease => exact h.settle htime

/-! ## 4. Every history -/

/-- In every history what is left out as known was left unresolved under the vocabulary in force, and
    settling a run of another vocabulary marks nothing, exactly if every such run is settled in
    time. -/
theorem vocabulary_reopens_iff (sha256 : Text → Text) (derived : Derived)
    {start state : LedgerState} {hist : List (LedgerState × LedgerEvent)} (hfresh : start.Fresh)
    (hrun : Run (Performs LedgerEvent.Allowed (LedgerEvent.exec sha256 derived)) start hist state) :
    (Throughout (KnownUnderCurrent sha256 derived) hist state ∧
      ∀ e ∈ hist, NeverMarks sha256 derived e.1 e.2) ↔
    ∀ e ∈ hist, SettledInTime sha256 derived e.1 e.2 := by
  apply Iff.intro
  · intro h e he
    exact (h.2 e he).settledInTime
  · intro h
    have hstamped : Throughout (Stamped sha256 derived) hist state := by
      revert h
      apply hrun.history_invariant
        (J := fun hist state => (∀ e ∈ hist, SettledInTime sha256 derived e.1 e.2) →
          Throughout (Stamped sha256 derived) hist state)
      · intro _
        exact ⟨by simp, Fresh.stamped hfresh⟩
      · intro hist state event state' _ ih hstep hall
        have hbefore := ih fun e he => hall e (List.mem_append_left _ he)
        refine ⟨?_, hbefore.2.step hstep (hall (state, event) (by simp))⟩
        intro e he
        rcases List.mem_append.mp he with he | he
        · exact hbefore.1 e he
        · rw [List.mem_singleton.mp he]
          exact hbefore.2
    refine ⟨⟨fun e he => (hstamped.1 e he).knownUnderCurrent, hstamped.2.knownUnderCurrent⟩, ?_⟩
    intro e he
    exact (h e he).neverMarks

end Histories

/-- A run that will not find the variant of its only item. -/
def openRun : LedgerState where
  store :=
    { runs := ⟨[("run".toList, { status := .running })], by decide⟩
      batchRuns := ⟨[("run".toList, "batch".toList)], by decide⟩
      batches := ⟨[("batch".toList, ⟨"snapshot".toList, "2026-01".toList, ["row".toList], false⟩)], by decide⟩
      candidates := ⟨[("row".toList, ⟨"snapshot".toList, [], "variant".toList, "content".toList, "1".toList⟩)], by decide⟩
      coverage := Dict.empty
      reservations := Dict.empty }
  vocabulary := "v1".toList
  finishedUnder := Dict.empty

def openRunDerived : Derived := fun _ => .ok [⟨"row".toList, .unresolvedNotFound⟩]

theorem openRun_fresh : openRun.Fresh where
  coverage _ := rfl
  runs runId run h := by
    have hentries : openRun.store.runs = Dict.empty.set "run".toList { status := .running } := rfl
    rw [hentries, Dict.get?_set] at h
    split at h
    · cases h
      rfl
    · cases h

/-- Settled under the first vocabulary, and again after it changed. -/
def resettled : List LedgerEvent :=
  [.finish "run".toList .completed 1000, .settle "run".toList none, .setVocabulary "v2".toList,
    .settle "run".toList none]

theorem resettled_allowed (sha256 : Text → Text) :
    ∀ e ∈ performed (LedgerEvent.exec sha256 openRunDerived) openRun resettled,
      LedgerEvent.Allowed e.1 e.2 := by
  intro e he
  simp only [resettled, performed, List.mem_cons, List.not_mem_nil, or_false] at he
  rcases he with heq | heq | heq | heq
  · rw [heq]
    exact ⟨rfl, { status := .running }, rfl, rfl⟩
  · rw [heq]
    trivial
  · rw [heq]
    trivial
  · rw [heq]
    trivial

/-- The second settlement marks the variant as known under the new vocabulary, which no run finished
    under. -/
theorem resettled_marks_known :
    openRun.Fresh ∧ ∀ sha256 : Text → Text,
      Run (Performs LedgerEvent.Allowed (LedgerEvent.exec sha256 openRunDerived)) openRun
        (performed (LedgerEvent.exec sha256 openRunDerived) openRun resettled)
        (resettled.foldl (LedgerEvent.exec sha256 openRunDerived) openRun) ∧
      ¬ KnownUnderCurrent sha256 openRunDerived
        (resettled.foldl (LedgerEvent.exec sha256 openRunDerived) openRun) := by
  apply And.intro openRun_fresh
  intro sha256
  apply And.intro
  · exact run_performed resettled openRun (resettled_allowed sha256)
  · let finished := LedgerEvent.exec sha256 openRunDerived openRun
      (.finish "run".toList .completed 1000)
    let changed : LedgerState :=
      { finished with
        store := finished.settle sha256 openRunDerived "run".toList none
        vocabulary := "v2".toList }
    have hfinal : resettled.foldl (LedgerEvent.exec sha256 openRunDerived) openRun =
        { changed with store := changed.settle sha256 openRunDerived "run".toList none } := rfl
    have hrow : (changed.settle sha256 openRunDerived "run".toList none).coverage.get?
        ("variant".toList, .register) =
        some ⟨.unresolvedNotFound, "run".toList, "2026-01".toList, "content".toList, "v2".toList,
          none⟩ := by
      have hsame : finished.store.SameRuns changed.store :=
        @sameRuns_applySettlement sha256 openRunDerived .register finished.store
          ⟨"run".toList, "v1".toList, none⟩
      have hoffered : offered sha256 openRunDerived .register changed.store "variant".toList =
          offered sha256 openRunDerived .register finished.store "variant".toList :=
        funext (hsame.offered "variant".toList)
      have hfirst : changed.store.coverage.get? ("variant".toList, .register) =
          ledgerRanking.offerAll none ([⟨"run".toList, "v1".toList, none⟩].filterMap
            (offered sha256 openRunDerived .register finished.store "variant".toList)) :=
        get?_applySettlement finished.store _ _
      unfold LedgerState.settle
      rw [get?_applySettlement, hoffered, hfirst]
      rfl
    rw [hfinal]
    intro hknown
    rcases hknown "variant".toList "content".toList
      (decision_eq_knownUnresolved.mpr ⟨_, hrow, rfl, rfl, rfl⟩) with ⟨runId, hfinished, -⟩
    have hunder : finished.finishedUnder = Dict.empty.set "run".toList "v1".toList := rfl
    simp only [changed, hunder, Dict.get?_set] at hfinished
    split at hfinished
    · exact absurd (Option.some.inj hfinished) (by decide)
    · cases hfinished

/-- Settled once, under the vocabulary the run finished under. -/
def settledOnce : List LedgerEvent :=
  [.finish "run".toList .completed 1000, .settle "run".toList none]

theorem settledOnce_reopens :
    Throughout (KnownUnderCurrent id openRunDerived)
      (performed (LedgerEvent.exec id openRunDerived) openRun settledOnce)
      (settledOnce.foldl (LedgerEvent.exec id openRunDerived) openRun) := by
  have hrun : Run (Performs LedgerEvent.Allowed (LedgerEvent.exec id openRunDerived)) openRun
      (performed (LedgerEvent.exec id openRunDerived) openRun settledOnce)
      (settledOnce.foldl (LedgerEvent.exec id openRunDerived) openRun) := by
    apply run_performed settledOnce openRun
    intro e he
    simp only [settledOnce, performed, List.mem_cons, List.not_mem_nil, or_false] at he
    rcases he with heq | heq
    · rw [heq]
      exact ⟨rfl, { status := .running }, rfl, rfl⟩
    · rw [heq]
      trivial
  apply ((vocabulary_reopens_iff id openRunDerived openRun_fresh hrun).mpr _).1
  intro e he
  simp only [settledOnce, performed, List.mem_cons, List.not_mem_nil, or_false] at he
  rcases he with heq | heq
  · rw [heq]
    trivial
  · rw [heq]
    intro version hversion hother
    have hunder : (LedgerEvent.exec id openRunDerived openRun
        (.finish "run".toList .completed 1000)).finishedUnder =
        Dict.empty.set "run".toList "v1".toList := rfl
    rw [hunder, Dict.get?_set_self] at hversion
    exact absurd (Option.some.inj hversion).symm hother

end Milo.Catalog
