import Milo.Reasoning.ReplayLog
import Milo.Reasoning.Transition
import Milo.Swarm.EvidenceStore

/-!
# VerdictHistory — the last decision recorded, and the one that is current

A verdict replays onto the row of its content and keeps that row's time, while the current verdict is
the newest row.  So what is current is the last decision that brought a content not recorded before.
-/

namespace Milo.Swarm

open Milo.Python Milo.Reasoning

/-! ## 1. What a recorded verdict changes -/

/-- A payload under a new key adds its row; under a known key it returns the row that is there. -/
inductive RecordedVerdict (s : EvidenceStore) (runId id : Text) (now : ℤ) (payload : VerdictPayload) :
    EvidenceStore → VerdictRecord → Prop
  | appended {supports : List SupportRecord}
      (hnew : s.verdictByKey runId payload.evidenceKey = none)
      (hmode : payload.verdict = .verified → payload.mode ≠ .deterministicLocal ∧ supports ≠ []) :
      RecordedVerdict s runId id now payload
        { s with verdicts := s.verdicts ++ [{ payload.row runId id now with supports }] }
        { payload.row runId id now with supports }
  | replayed {old : VerdictRecord} (hold : s.verdictByKey runId payload.evidenceKey = some old)
      (hsame : old.replays payload = true) : RecordedVerdict s runId id now payload s old

variable {s : EvidenceStore}

theorem verdictByKey_eq_some {runId evidenceKey : Text} {row : VerdictRecord}
    (h : s.verdictByKey runId evidenceKey = some row) :
    row ∈ s.verdicts ∧ row.runId = runId ∧ row.evidenceKey = evidenceKey := by
  have hfound := List.find?_some h
  rw [Bool.and_eq_true, decide_eq_true_eq, decide_eq_true_eq] at hfound
  exact ⟨List.mem_of_find?_eq_some h, hfound⟩

theorem verdictByKey_eq_none {runId evidenceKey : Text} :
    s.verdictByKey runId evidenceKey = none ↔
      (runId, evidenceKey) ∉ s.verdicts.map fun v => (v.runId, v.evidenceKey) := by
  unfold EvidenceStore.verdictByKey
  rw [List.find?_eq_none, List.mem_map]
  constructor
  · rintro h ⟨v, hv, heq⟩
    rw [Prod.mk.injEq] at heq
    have hnot := h v hv
    rw [Bool.and_eq_true, decide_eq_true_eq, decide_eq_true_eq] at hnot
    exact hnot heq
  · intro h v hv hfound
    rw [Bool.and_eq_true, decide_eq_true_eq, decide_eq_true_eq] at hfound
    exact h ⟨v, hv, Prod.ext hfound.1 hfound.2⟩

theorem recordedVerdict_of_ok {unsafeText : VerdictPayload → Bool} {s' : EvidenceStore} {writer : Writer}
    {id : Text} {now : ℤ} {payload : VerdictPayload} {row : VerdictRecord}
    (h : recordClaimVerdictGuarded unsafeText s writer id now payload = .ok (s', row)) :
    RecordedVerdict s writer.runId id now payload s' row := by
  unfold recordClaimVerdictGuarded at h
  obtain ⟨_, _, h⟩ := except_bind_eq_ok.mp h
  obtain ⟨_, _, h⟩ := except_bind_eq_ok.mp h
  obtain ⟨_, _, h⟩ := except_bind_eq_ok.mp h
  obtain ⟨_, _, h⟩ := except_bind_eq_ok.mp h
  obtain ⟨claim, _, h⟩ := except_bind_eq_ok.mp h
  obtain ⟨_, hlocal, h⟩ := except_bind_eq_ok.mp h
  obtain ⟨_, hbare, h⟩ := except_bind_eq_ok.mp h
  obtain ⟨source, _, h⟩ := except_bind_eq_ok.mp h
  obtain ⟨links, _, h⟩ := except_bind_eq_ok.mp h
  obtain ⟨_, _, h⟩ := except_bind_eq_ok.mp h
  obtain ⟨_, _, h⟩ := except_bind_eq_ok.mp h
  have hlocal := refuseIf_eq_ok.mp hlocal
  have hbare := refuseIf_eq_ok.mp hbare
  cases hkey : s.verdictByKey writer.runId payload.evidenceKey with
  | some old =>
    rw [hkey] at h
    obtain ⟨_, hreplays, h⟩ := except_bind_eq_ok.mp h
    obtain ⟨_, _, h⟩ := except_bind_eq_ok.mp h
    cases h
    exact RecordedVerdict.replayed hkey (Bool.of_not_eq_false (refuseIf_eq_ok.mp hreplays))
  | none =>
    rw [hkey] at h
    obtain ⟨_, hset, h⟩ := except_bind_eq_ok.mp h
    have hset := not_not.mp (refuseIf_eq_ok.mp hset)
    cases h
    apply RecordedVerdict.appended hkey
    intro hverified
    have hcited : payload.support ≠ [] := fun hnil => hbare ⟨hverified, hnil⟩
    apply And.intro
    · exact fun hmode => hlocal ⟨hmode, hcited⟩
    · intro hnil
      rw [hnil] at hset
      exact hcited (List.length_eq_zero_iff.mp hset.symm)

/-! ## 2. Histories -/

/-- The durable evidence, and the time of the last verdict written. -/
structure EvidenceWorld where
  store : EvidenceStore
  clock : ℤ

/-- One call of `EvidenceBoard.record_verification_verdict`. -/
structure VerdictCall where
  writer : Writer
  verdict : VerificationVerdict

inductive EvidenceEvent
  | verdict (call : VerdictCall) (id : Text) (now : ℤ)
  | evidence (claims : List ClaimRecord) (sources : List SourceRecord)
      (fragments : List FragmentRecord)
  | contradiction (conflicts : List ConflictRecord) (resolutions : List ResolutionRecord)

section Histories

variable (verdictKey : VerificationVerdict → Text) (unsafeText : VerdictPayload → Bool)

namespace EvidenceWorld

variable (w : EvidenceWorld)

/-- A call that is refused writes nothing. -/
def afterCall (call : VerdictCall) (id : Text) (now : ℤ) : EvidenceStore :=
  match recordVerificationVerdict verdictKey unsafeText w.store call.writer id now call.verdict with
  | .ok answer => answer.1
  | .error _ => w.store

def exec : EvidenceEvent → EvidenceWorld
  | .verdict call id now => ⟨w.afterCall verdictKey unsafeText call id now, now⟩
  | .evidence claims sources fragments =>
    { w with
      store :=
        { w.store with
          claims := w.store.claims ++ claims
          sources := w.store.sources ++ sources
          fragments := w.store.fragments ++ fragments } }
  | .contradiction conflicts resolutions =>
    { w with
      store :=
        { w.store with
          conflicts := w.store.conflicts ++ conflicts
          resolutions := w.store.resolutions ++ resolutions } }

/-- Verdicts are stamped in the order they are written. -/
def allowed : EvidenceEvent → Prop
  | .verdict _ _ now => w.clock < now
  | _ => True

end EvidenceWorld

abbrev EvidenceStep : EvidenceWorld → EvidenceEvent → EvidenceWorld → Prop :=
  Performs EvidenceWorld.allowed (EvidenceWorld.exec verdictKey unsafeText)

/-- The call of an event that was accepted. -/
def acceptedCall (e : EvidenceWorld × EvidenceEvent) : Option VerdictCall :=
  match e.2 with
  | .verdict call id now =>
    match recordVerificationVerdict verdictKey unsafeText e.1.store call.writer id now call.verdict with
    | .ok _ => some call
    | .error _ => none
  | _ => none

/-- The accepted calls of a history, in order. -/
def acceptedCalls (hist : List (EvidenceWorld × EvidenceEvent)) : List VerdictCall :=
  hist.filterMap (acceptedCall verdictKey unsafeText)

/-- The evidence key of a call, in its run. -/
def VerdictCall.key (call : VerdictCall) : Text × Text :=
  (call.writer.runId, verdictKey call.verdict)

def callsFor (calls : List VerdictCall) (claimId : Text) : List VerdictCall :=
  calls.filter fun call => decide (call.verdict.claimId = claimId)

/-- The last accepted call about a claim. -/
def lastCall (hist : List (EvidenceWorld × EvidenceEvent)) (claimId : Text) : Option VerdictCall :=
  (callsFor (acceptedCalls verdictKey unsafeText hist) claimId).getLast?

/-- The last accepted call about a claim whose content no earlier call had brought. -/
def lastNovelCall (hist : List (EvidenceWorld × EvidenceEvent)) (claimId : Text) :
    Option VerdictCall :=
  (callsFor (novel (VerdictCall.key verdictKey) (acceptedCalls verdictKey unsafeText hist))
    claimId).getLast?

end Histories

/-! ## 3. The rows of a history -/

/-- What a row keeps of the call that brought it. -/
structure RowOf (verdictKey : VerificationVerdict → Text) (row : VerdictRecord) (call : VerdictCall) :
    Prop where
  runId : row.runId = call.writer.runId
  evidenceKey : row.evidenceKey = verdictKey call.verdict
  claimId : row.claimId = call.verdict.claimId
  verdict : row.verdict = call.verdict.verdict
  contract : call.verdict.contractVersion = some row.contractVersion
  grounded : row.verdict = .verified → row.mode ≠ .deterministicLocal ∧ row.supports ≠ []

/-- The rows are those of the calls that brought a content, in rising time. -/
structure Recorded (verdictKey : VerificationVerdict → Text) (calls : List VerdictCall)
    (w : EvidenceWorld) : Prop where
  rows : List.Forall₂ (RowOf verdictKey) w.store.verdicts (novel (VerdictCall.key verdictKey) calls)
  rising : w.store.verdicts.Pairwise fun a b => a.createdAt < b.createdAt
  past : ∀ row ∈ w.store.verdicts, row.createdAt ≤ w.clock
  covered : ∀ call ∈ calls, call.verdict.claimId ∈ w.store.verdicts.map VerdictRecord.claimId

section Recorded

variable {verdictKey : VerificationVerdict → Text} {unsafeText : VerdictPayload → Bool}
  {calls : List VerdictCall} {w w' : EvidenceWorld} {hist : List (EvidenceWorld × EvidenceEvent)}

theorem Recorded.keys (h : Recorded verdictKey calls w) :
    (w.store.verdicts.map fun v => (v.runId, v.evidenceKey)) =
      (novel (VerdictCall.key verdictKey) calls).map (VerdictCall.key verdictKey) := by
  have hrows := h.rows
  generalize w.store.verdicts = rows at hrows
  generalize novel (VerdictCall.key verdictKey) calls = brought at hrows
  induction hrows with
  | nil => rfl
  | cons hrow _ ih =>
    rw [List.map_cons, List.map_cons, ih, hrow.runId, hrow.evidenceKey]
    rfl

theorem recordedVerdict_of_call {s s' : EvidenceStore} {writer : Writer} {id : Text} {now : ℤ}
    {verdict : VerificationVerdict} {row : VerdictRecord}
    (h : recordVerificationVerdict verdictKey unsafeText s writer id now verdict = .ok (s', row)) :
    ∃ mode contractVersion, verdict.mode = some mode ∧
      verdict.contractVersion = some contractVersion ∧
      RecordedVerdict s writer.runId id now
        ⟨verdict.claimId, verdictKey verdict, verdict.verdict, verdict.reason, mode, contractVersion,
          verdict.support⟩ s' row := by
  unfold recordVerificationVerdict at h
  cases hmode : verdict.mode with
  | none =>
    rw [hmode] at h
    cases h
  | some mode =>
    cases hcontract : verdict.contractVersion with
    | none =>
      rw [hmode, hcontract] at h
      cases h
    | some contractVersion =>
      rw [hmode, hcontract] at h
      exact ⟨mode, contractVersion, rfl, rfl, recordedVerdict_of_ok h⟩

/-- A call that is accepted keeps the rows those of the calls that brought a content. -/
theorem Recorded.call (h : Recorded verdictKey calls w) {call : VerdictCall} {id : Text} {now : ℤ}
    (hnow : w.clock < now) {s' : EvidenceStore} {row : VerdictRecord}
    (hok : recordVerificationVerdict verdictKey unsafeText w.store call.writer id now call.verdict =
      .ok (s', row)) : Recorded verdictKey (calls ++ [call]) ⟨s', now⟩ := by
  obtain ⟨mode, contractVersion, hmode, hcontract, hrecorded⟩ := recordedVerdict_of_call hok
  cases hrecorded with
  | @appended supports hnew hgrounded =>
    have hkey : VerdictCall.key verdictKey call ∉ calls.map (VerdictCall.key verdictKey) := by
      rw [verdictByKey_eq_none, h.keys] at hnew
      exact fun hknown => hnew (mem_map_novel.mpr hknown)
    constructor
    · rw [novel_snoc_of_notMem hkey]
      apply List.rel_append h.rows
      apply List.Forall₂.cons _ List.Forall₂.nil
      exact ⟨rfl, rfl, rfl, rfl, hcontract, hgrounded⟩
    · show (w.store.verdicts ++ [_]).Pairwise _
      rw [List.pairwise_append]
      refine ⟨h.rising, List.pairwise_singleton _ _, ?_⟩
      intro old hold new hnew
      rw [List.mem_singleton.mp hnew]
      exact lt_of_le_of_lt (h.past old hold) hnow
    · intro old hold
      rcases List.mem_append.mp hold with hold | hold
      · exact le_trans (h.past old hold) (le_of_lt hnow)
      · rw [List.mem_singleton.mp hold]
        exact le_refl now
    · intro call' hcall'
      show _ ∈ (w.store.verdicts ++ [_]).map VerdictRecord.claimId
      rw [List.map_append, List.mem_append]
      rcases List.mem_append.mp hcall' with hcall' | hcall'
      · exact Or.inl (h.covered call' hcall')
      · rw [List.mem_singleton.mp hcall']
        exact Or.inr (List.mem_singleton.mpr rfl)
  | replayed hold hsame =>
    have hfound := verdictByKey_eq_some hold
    have hknown : VerdictCall.key verdictKey call ∈ calls.map (VerdictCall.key verdictKey) := by
      rw [← mem_map_novel, ← h.keys, List.mem_map]
      exact ⟨row, hfound.1, Prod.ext hfound.2.1 hfound.2.2⟩
    constructor
    · rw [novel_snoc_of_mem hknown]
      exact h.rows
    · exact h.rising
    · exact fun v hv => le_trans (h.past v hv) (le_of_lt hnow)
    · intro call' hcall'
      rcases List.mem_append.mp hcall' with hcall' | hcall'
      · exact h.covered call' hcall'
      · rw [List.mem_singleton.mp hcall']
        have hclaim : row.claimId = call.verdict.claimId := by
          unfold VerdictRecord.replays at hsame
          simp only [Bool.and_eq_true, decide_eq_true_eq] at hsame
          exact hsame.1.1.1.1
        rw [← hclaim]
        exact List.mem_map_of_mem hfound.1

theorem acceptedCalls_snoc (hist : List (EvidenceWorld × EvidenceEvent))
    (e : EvidenceWorld × EvidenceEvent) :
    acceptedCalls verdictKey unsafeText (hist ++ [e]) =
      acceptedCalls verdictKey unsafeText hist ++ (acceptedCall verdictKey unsafeText e).toList := by
  unfold acceptedCalls
  rw [List.filterMap_append]
  cases hcall : acceptedCall verdictKey unsafeText e with
  | none => rw [List.filterMap_cons_none hcall]; rfl
  | some call => rw [List.filterMap_cons_some hcall]; rfl

/-- Along every history the rows are those of the calls that brought a content. -/
theorem recorded_of_run {w₀ : EvidenceWorld} (hempty : w₀.store.verdicts = [])
    (hrun : Run (EvidenceStep verdictKey unsafeText) w₀ hist w) :
    Recorded verdictKey (acceptedCalls verdictKey unsafeText hist) w := by
  apply Run.history_invariant
    (J := fun hist w => Recorded verdictKey (acceptedCalls verdictKey unsafeText hist) w) _ _ hrun
  · constructor
    · rw [hempty]
      exact List.Forall₂.nil
    · rw [hempty]
      exact List.Pairwise.nil
    · rw [hempty]
      exact fun _ h => absurd h List.not_mem_nil
    · exact fun _ h => absurd h List.not_mem_nil
  · rintro hist m event m' - ih ⟨hallowed, rfl⟩
    rw [acceptedCalls_snoc]
    cases event with
    | evidence claims sources fragments =>
      rw [show acceptedCall verdictKey unsafeText (m, .evidence claims sources fragments) = none from rfl,
        Option.toList_none, List.append_nil]
      exact ⟨ih.rows, ih.rising, ih.past, ih.covered⟩
    | contradiction conflicts resolutions =>
      rw [show acceptedCall verdictKey unsafeText (m, .contradiction conflicts resolutions) = none
        from rfl, Option.toList_none, List.append_nil]
      exact ⟨ih.rows, ih.rising, ih.past, ih.covered⟩
    | verdict call id now =>
      unfold acceptedCall EvidenceWorld.exec EvidenceWorld.afterCall
      cases hanswer : recordVerificationVerdict verdictKey unsafeText m.store call.writer id now
          call.verdict with
      | error refusal =>
        dsimp only
        rw [hanswer]
        dsimp only
        rw [Option.toList_none, List.append_nil]
        exact ⟨ih.rows, ih.rising, fun row hrow => le_trans (ih.past row hrow) (le_of_lt hallowed),
          ih.covered⟩
      | ok answer =>
        dsimp only
        rw [hanswer]
        exact ih.call hallowed hanswer

end Recorded

/-! ## 4. What is reported -/


section ReportsVerdict

variable (fromisoformat : Text → Option ℤ) (isoformat : ℤ → Text)

/-- The verdict both readers report of a claim. -/
structure ReportsVerdict (s : EvidenceStore) (claimId : Text) (verdict : VerdictValue) : Prop where
  database : ∃ report row, claimCurrentVerdictState s claimId = some report ∧
    report.row = some row ∧ row.verdict = verdict
  program : ∃ current, resolveStored fromisoformat isoformat s claimId = some (.ok current) ∧
    current.verdict = some verdict.text.toList

end ReportsVerdict

section Reported

variable {verdictKey : VerificationVerdict → Text} {unsafeText : VerdictPayload → Bool}
  {fromisoformat : Text → Option ℤ} {isoformat : ℤ → Text} {calls : List VerdictCall}
  {w : EvidenceWorld} {claimId : Text}

theorem getLast?_of_forall₂ {α β : Type} {R : α → β → Prop} {l : List α} {r : List β}
    (h : List.Forall₂ R l r) :
    (l.getLast? = none ∧ r.getLast? = none) ∨
      ∃ a b, l.getLast? = some a ∧ r.getLast? = some b ∧ R a b := by
  induction h with
  | nil => exact Or.inl ⟨rfl, rfl⟩
  | @cons a b l r hab _ ih =>
    right
    rw [List.getLast?_cons, List.getLast?_cons]
    rcases ih with ⟨hl, hr⟩ | ⟨a', b', hl, hr, hab'⟩
    · rw [hl, hr]
      exact ⟨a, b, rfl, rfl, hab⟩
    · rw [hl, hr]
      exact ⟨a', b', rfl, rfl, hab'⟩

theorem Recorded.rising_verdictsOf (h : Recorded verdictKey calls w) :
    (w.store.verdictsOf claimId).Pairwise fun a b => a.createdAt < b.createdAt :=
  h.rising.filter _

theorem Recorded.currentRow_eq (h : Recorded verdictKey calls w) :
    w.store.currentRow claimId = (w.store.verdictsOf claimId).getLast? := by
  apply argmax_eq_getLast?
  apply h.rising_verdictsOf.imp
  intro a b hlt
  exact Prod.Lex.toLex_lt_toLex.mpr (Or.inl hlt)

/-- The program reads the row of the latest time as current. -/
theorem Recorded.currentVerdictRow_eq (h : Recorded verdictKey calls w) (claimId : Text)
    (hiso : ∀ row ∈ w.store.verdicts, ∃ spelling,
      readCreatedAt fromisoformat (.text (isoformat row.createdAt)) = some (row.createdAt, spelling)) :
    currentVerdictRow fromisoformat
        ((w.store.verdicts.map (VerdictRecord.asRow isoformat)).filter fun row =>
          decide (row.claimId.getD [] = claimId)) =
      (w.store.verdictsOf claimId).getLast?.map (VerdictRecord.asRow isoformat) := by
  have hrows : (w.store.verdicts.map (VerdictRecord.asRow isoformat)).filter (fun row =>
      decide (row.claimId.getD [] = claimId)) =
        (w.store.verdictsOf claimId).map (VerdictRecord.asRow isoformat) := by
    rw [List.filter_map]
    rfl
  unfold currentVerdictRow
  rw [hrows, argmax_eq_getLast?, List.getLast?_map]
  rw [List.pairwise_map]
  apply h.rising_verdictsOf.imp_of_mem
  intro a b hmem hmem' hlt
  obtain ⟨spelling, ha⟩ := hiso a (List.mem_of_mem_filter hmem)
  obtain ⟨spelling', hb⟩ := hiso b (List.mem_of_mem_filter hmem')
  show toLex (createdAtKey fromisoformat (.text (isoformat a.createdAt)), _) <
    toLex (createdAtKey fromisoformat (.text (isoformat b.createdAt)), _)
  rw [createdAtKey_of_timed ha, createdAtKey_of_timed hb]
  apply Prod.Lex.toLex_lt_toLex.mpr
  left
  apply Prod.Lex.toLex_lt_toLex.mpr
  right
  exact ⟨rfl, Prod.Lex.toLex_lt_toLex.mpr (Or.inl hlt)⟩

/-- The current row of a claim is that of the last call that brought a content. -/
theorem Recorded.exists_current (h : Recorded verdictKey calls w)
    (hcalled : callsFor calls claimId ≠ []) :
    ∃ row brought, (w.store.verdictsOf claimId).getLast? = some row ∧
      (callsFor (novel (VerdictCall.key verdictKey) calls) claimId).getLast? = some brought ∧
      RowOf verdictKey row brought := by
  have hfilter : List.Forall₂ (RowOf verdictKey) (w.store.verdictsOf claimId)
      (callsFor (novel (VerdictCall.key verdictKey) calls) claimId) := by
    apply List.rel_filter _ h.rows
    intro row call hrow
    show decide (row.claimId = claimId) = true ↔ decide (call.verdict.claimId = claimId) = true
    rw [decide_eq_true_eq, decide_eq_true_eq, hrow.claimId]
  rcases getLast?_of_forall₂ hfilter with ⟨hnone, -⟩ | ⟨row, brought, hrow, hbrought, hof⟩
  · obtain ⟨call, hcall⟩ := List.exists_mem_of_ne_nil _ hcalled
    unfold callsFor at hcall
    rw [List.mem_filter, decide_eq_true_eq] at hcall
    obtain ⟨row, hrow, hclaim⟩ := List.mem_map.mp (h.covered call hcall.1)
    have hmem : row ∈ w.store.verdictsOf claimId := by
      unfold EvidenceStore.verdictsOf
      rw [List.mem_filter, decide_eq_true_eq]
      exact ⟨hrow, hclaim.trans hcall.2⟩
    rw [List.getLast?_eq_none_iff.mp hnone] at hmem
    exact absurd hmem List.not_mem_nil
  · exact ⟨row, brought, hrow, hbrought, hof⟩

theorem VerdictValue.text_injective {v v' : VerdictValue} (h : v.text.toList = v'.text.toList) :
    v = v' := by
  cases v <;> cases v' <;> first | rfl | exact absurd h (by decide)

/-- The state of a claim whose current verdict has a value, where a verified one names its contract. -/
def VerdictValue.currentState : VerdictValue → CurrentState
  | .verified => .supported
  | .needsReview => .needsReview
  | .rejected => .rejected

theorem blankContract_eq_false {contractVersion : String}
    (h : textOf (some contractVersion.toList) ≠ none) : blankContract contractVersion = false := by
  rw [Bool.eq_false_iff]
  intro hblank
  unfold blankContract at hblank
  rw [List.all_eq_true] at hblank
  have hspaces : contractVersion.toList.dropWhile isSpace = [] := by
    rw [List.dropWhile_eq_nil_iff]
    intro c hc
    rw [of_decide_eq_true (hblank c hc)]
    decide
  apply h
  show (if strip contractVersion.toList = [] then _ else _) = none
  unfold strip
  rw [hspaces]
  rfl

theorem textOf_verdict (verdict : VerdictValue) :
    textOf (some verdict.text.toList) = some verdict.text.toList := by
  cases verdict <;> decide +kernel

theorem textOf_mode (mode : VerificationMode) :
    textOf (some mode.text.toList) = some mode.text.toList := by
  cases mode <;> decide +kernel

/-- Both readers give a row that names its contract the state of its value. -/
theorem RowOf.state_eq {row : VerdictRecord} {call : VerdictCall} (h : RowOf verdictKey row call)
    (isoformat : ℤ → Text) (hcontract : textOf (some row.contractVersion.toList) ≠ none) :
    row.state = row.verdict.currentState ∧
      (stateOf (row.asRow isoformat)).1 = row.verdict.currentState := by
  unfold VerdictRecord.state stateOf VerdictRecord.asRow
  dsimp only
  rw [textOf_verdict]
  cases hvalue : row.verdict with
  | needsReview =>
    apply And.intro rfl
    dsimp only [VerdictValue.text]
    rw [if_pos rfl]
    rfl
  | rejected =>
    apply And.intro rfl
    dsimp only [VerdictValue.text]
    rw [if_neg (by decide), if_pos rfl]
    rfl
  | verified =>
    obtain ⟨hmode, hsupports⟩ := h.grounded hvalue
    have hcited : 0 < row.supports.length := List.length_pos_iff.mpr hsupports
    constructor
    · exact if_pos ⟨hmode, blankContract_eq_false hcontract, hcited⟩
    · rw [textOf_mode]
      obtain ⟨named, hnamed⟩ := Option.ne_none_iff_exists'.mp hcontract
      rw [hnamed]
      have hgrounds : evidenceBearingModes.contains row.mode.text.toList = true := by
        cases hvalue : row.mode with
        | deterministicLocal => exact absurd hvalue hmode
        | deterministicStructured => decide
        | groundedModel => decide
      have hsize : 0 < (SupportCell.stated (some (row.supports.length : ℤ))).size := by
        show 0 < ((row.supports.length : ℤ)).toNat
        omega
      show (if evidenceBearingModes.contains row.mode.text.toList = true then
        ((if 0 < (SupportCell.stated (some (row.supports.length : ℤ))).size then _ else _), _)
        else _ : CurrentState × ℕ).1 = _
      rw [if_pos hgrounds, if_pos hsize]
      rfl

end Reported

/-! ## 5. The last decision -/

/-- Along every history both readers report the last decision that brought a new content, in the
    state of its value; so they report the last decision exactly if that one has its value. -/
theorem current_verdict_is_last_novel {verdictKey : VerificationVerdict → Text}
    {unsafeText : VerdictPayload → Bool} {fromisoformat : Text → Option ℤ} {isoformat : ℤ → Text}
    {hist : List (EvidenceWorld × EvidenceEvent)} {w₀ w : EvidenceWorld}
    (hempty : w₀.store.verdicts = []) (hrun : Run (EvidenceStep verdictKey unsafeText) w₀ hist w)
    (hiso : ∀ row ∈ w.store.verdicts, ∃ spelling,
      readCreatedAt fromisoformat (.text (isoformat row.createdAt)) = some (row.createdAt, spelling))
    {claimId : Text} (hid : textOf (some claimId) = some claimId) {claim : ClaimRecord}
    (hclaim : w.store.claims.find? (fun c => decide (c.reference.claimId = claimId)) = some claim)
    (hactive : claim.status = "active".toList)
    (hstands : claimId ∉ supersededClaimIds w.store.resolutions)
    (huncontested : claimId ∉ contestedClaimIds w.store.conflicts) {call : VerdictCall}
    (hlast : lastCall verdictKey unsafeText hist claimId = some call) :
    (∃ brought, lastNovelCall verdictKey unsafeText hist claimId = some brought ∧
      ReportsVerdict fromisoformat isoformat w.store claimId brought.verdict.verdict ∧
      ∀ contractVersion, brought.verdict.contractVersion = some contractVersion →
        textOf (some contractVersion.toList) ≠ none →
        (claimCurrentVerdictState w.store claimId).map VerdictReport.state =
            some brought.verdict.verdict.currentState ∧
          ∃ current, resolveStored fromisoformat isoformat w.store claimId = some (.ok current) ∧
            current.state = brought.verdict.verdict.currentState) ∧
    (ReportsVerdict fromisoformat isoformat w.store claimId call.verdict.verdict ↔
      ∃ brought, lastNovelCall verdictKey unsafeText hist claimId = some brought ∧
        brought.verdict.verdict = call.verdict.verdict) := by
  have hrecorded := recorded_of_run hempty hrun
  have hcalled : callsFor (acceptedCalls verdictKey unsafeText hist) claimId ≠ [] := by
    intro hnil
    unfold lastCall at hlast
    rw [hnil] at hlast
    cases hlast
  obtain ⟨row, brought, hrow, hbrought, hof⟩ := hrecorded.exists_current hcalled
  have hdatabase : claimCurrentVerdictState w.store claimId = some ⟨row.state, some row⟩ := by
    unfold claimCurrentVerdictState
    rw [hclaim, Option.map_some, if_neg (not_not.mpr hactive), if_neg hstands, if_neg huncontested,
      hrecorded.currentRow_eq, hrow]
  have hprogram : ∃ current, resolveStored fromisoformat isoformat w.store claimId =
      some (.ok current) ∧ current.verdict = some row.verdict.text.toList ∧
        current.state = (stateOf (row.asRow isoformat)).1 := by
    have hrows := hrecorded.currentVerdictRow_eq claimId hiso
    rw [hrow, Option.map_some] at hrows
    have hstatus : (textOf (some claim.status)).getD "active".toList = "active".toList := by
      rw [hactive]
      decide +kernel
    unfold resolveStored resolveCurrentVerdict
    rw [hclaim, Option.map_some]
    dsimp only
    rw [hid, Option.some_or]
    dsimp only
    rw [if_neg (not_not.mpr hstatus), if_neg (by rw [List.contains_iff_mem]; exact hstands),
      if_neg (by rw [List.contains_iff_mem]; exact huncontested), hrows]
    exact ⟨_, rfl, textOf_verdict row.verdict, rfl⟩
  obtain ⟨current, hresolved, hverdict, hstate⟩ := hprogram
  have hreports : ReportsVerdict fromisoformat isoformat w.store claimId brought.verdict.verdict := by
    rw [← hof.verdict]
    exact ⟨⟨_, row, hdatabase, rfl, rfl⟩, ⟨current, hresolved, hverdict⟩⟩
  constructor
  · refine ⟨brought, hbrought, hreports, ?_⟩
    intro contractVersion hcontract hnamed
    rw [hof.contract] at hcontract
    rw [← Option.some.inj hcontract] at hnamed
    have hstates := hof.state_eq isoformat hnamed
    rw [← hof.verdict, hdatabase]
    exact ⟨congrArg some hstates.1, current, hresolved, hstate.trans hstates.2⟩
  · constructor
    · intro hreported
      refine ⟨brought, hbrought, ?_⟩
      obtain ⟨current', hresolved', hverdict'⟩ := hreported.program
      rw [hresolved] at hresolved'
      cases hresolved'
      rw [hverdict'] at hverdict
      rw [← hof.verdict]
      exact (VerdictValue.text_injective (Option.some.inj hverdict)).symm
    · rintro ⟨brought', hbrought', hsame⟩
      have heq : brought = brought' := Option.some.inj (hbrought.symm.trans hbrought')
      rw [← hsame, ← heq]
      exact hreports

/-- A claim rejected, verified on its source, and rejected again for the same reason. -/
def reviewedClaim : ClaimRecord where
  reference :=
    { claimId := "c1".toList
      sourceId := "s1".toList
      runId := "r1".toList
      taskId := "t1".toList
      entity := "Corolla".toList
      field := "power".toList
      geography := none
      market := none
      timeScope := []
      value := .int 122
      unit := some "hp".toList
      locator := none
      sourceVersion := none
      identity := []
      confidence := ⟨false, 0, 0, PyFloat.normal_zero⟩
      supported := true
      named := by decide }
  status := "active".toList
  canonicalScopeHash := none
  scopeNormalizationVersion := none

def reviewedStore : EvidenceStore where
  claims := [reviewedClaim]
  sources := [⟨"s1".toList, "r1".toList, "t1".toList⟩]
  fragments := [⟨"f1".toList, "r1".toList, "s1".toList, "t1".toList, List.replicate 64 'a', none⟩]
  verdicts := []
  conflicts := []
  resolutions := []

def rejection : VerificationVerdict where
  claimId := "c1".toList
  verdict := .rejected
  reason := "grounded_contradiction"
  mode := some .groundedModel
  contractVersion := some "r4.2"
  support := []
  contract := supportRequiresMode_nil _ _

def verification : VerificationVerdict where
  claimId := "c1".toList
  verdict := .verified
  reason := "grounded_support"
  mode := some .groundedModel
  contractVersion := some "r4.2"
  support := [⟨"s1".toList, List.replicate 64 'a', some "f1".toList, none⟩]
  contract := by decide

/-- The content of a verdict, in the place of its digest. -/
def verdictContent (v : VerificationVerdict) : Text :=
  v.claimId ++ v.verdict.text.toList ++ v.reason.toList ++
    v.support.flatMap fun link => link.contentHash ++ link.fragmentId.getD []

def reviewer : Writer := ⟨"r1".toList, true⟩

/-- Three decisions, a second apart. -/
def decisions (first second third : VerificationVerdict) : List EvidenceEvent :=
  [.verdict ⟨reviewer, first⟩ "v1".toList 1789984800000000,
    .verdict ⟨reviewer, second⟩ "v2".toList 1789984801000000,
    .verdict ⟨reviewer, third⟩ "v3".toList 1789984802000000]

def reviewHistory (first second third : VerificationVerdict) :
    List (EvidenceWorld × EvidenceEvent) :=
  performed (EvidenceWorld.exec verdictContent fun _ => false) ⟨reviewedStore, 0⟩
    (decisions first second third)

def reviewEnd (first second third : VerificationVerdict) : EvidenceWorld :=
  (decisions first second third).foldl (EvidenceWorld.exec verdictContent fun _ => false)
    ⟨reviewedStore, 0⟩

theorem review_run (first second third : VerificationVerdict) :
    Run (EvidenceStep verdictContent fun _ => false) ⟨reviewedStore, 0⟩
      (reviewHistory first second third) (reviewEnd first second third) := by
  apply run_performed
  intro e he
  simp only [decisions, performed, List.mem_cons, List.not_mem_nil, or_false] at he
  rcases he with rfl | rfl | rfl
  · exact (by decide : (0 : ℤ) < 1789984800000000)
  · exact (by decide : (1789984800000000 : ℤ) < 1789984801000000)
  · exact (by decide : (1789984801000000 : ℤ) < 1789984802000000)

/-- What `isoformat` writes of the three times. -/
def reviewTime (t : ℤ) : Text :=
  if t = 1789984800000000 then "2026-09-21T10:00:00+00:00".toList
  else if t = 1789984801000000 then "2026-09-21T10:00:01+00:00".toList
  else "2026-09-21T10:00:02+00:00".toList

/-- The claim is rejected again and stays `supported`. -/
theorem rejected_again_stays_supported :
    Run (EvidenceStep verdictContent fun _ => false) ⟨reviewedStore, 0⟩
        (reviewHistory rejection verification rejection)
        (reviewEnd rejection verification rejection) ∧
      lastCall verdictContent (fun _ => false) (reviewHistory rejection verification rejection)
          "c1".toList = some ⟨reviewer, rejection⟩ ∧
      (claimCurrentVerdictState (reviewEnd rejection verification rejection).store
        "c1".toList).map VerdictReport.state = some .supported ∧
      ¬ ReportsVerdict fromisoformat reviewTime (reviewEnd rejection verification rejection).store
        "c1".toList .rejected := by
  refine ⟨review_run _ _ _, rfl, by decide +kernel, ?_⟩
  rintro ⟨⟨report, row, hreport, hrow, hvalue⟩, -⟩
  have hstored : (claimCurrentVerdictState (reviewEnd rejection verification rejection).store
      "c1".toList).map (fun report => report.row.map VerdictRecord.verdict) =
        some (some .verified) := by decide +kernel
  rw [hreport, Option.map_some, hrow, Option.map_some, hvalue] at hstored
  exact absurd hstored (by decide)

/-- Of two different decisions the later is reported. -/
theorem current_verdict_after_rejection :
    ReportsVerdict fromisoformat reviewTime (reviewEnd verification verification rejection).store
      "c1".toList .rejected := by
  have hread : ∀ row ∈ (reviewEnd verification verification rejection).store.verdicts,
      (readCreatedAt fromisoformat (.text (reviewTime row.createdAt))).map Prod.fst =
        some row.createdAt := by decide +kernel
  have hiso : ∀ row ∈ (reviewEnd verification verification rejection).store.verdicts, ∃ spelling,
      readCreatedAt fromisoformat (.text (reviewTime row.createdAt)) =
        some (row.createdAt, spelling) := by
    intro row hrow
    obtain ⟨read, hread, htime⟩ := Option.map_eq_some_iff.mp (hread row hrow)
    exact ⟨read.2, by rw [hread, ← htime]⟩
  have hclaim : (reviewEnd verification verification rejection).store.claims.find?
      (fun c => decide (c.reference.claimId = "c1".toList)) = some reviewedClaim := rfl
  have hlast : lastCall verdictContent (fun _ => false)
      (reviewHistory verification verification rejection) "c1".toList = some ⟨reviewer, rejection⟩ :=
    rfl
  exact (current_verdict_is_last_novel rfl (review_run verification verification rejection) hiso
    (by decide +kernel) hclaim rfl (by decide +kernel) (by decide +kernel) hlast).2.mpr
      ⟨⟨reviewer, rejection⟩, rfl, rfl⟩

end Milo.Swarm
