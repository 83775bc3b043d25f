import Milo.Swarm.Verifier

/-!
# Settling — what each step of a verification pass does

One lemma for each step of the pass: what is resumed from a checkpoint, what a pending claim is
settled as, how the batches cover the candidates and what one batch answers.
-/

namespace Milo.Swarm

open Milo.Python Milo.Reasoning

/-! ## 1. Before any source is read -/

section Before

variable {items : List EvidenceReference} {contested : List Text}
  {existing : Dict Text StoredVerdict} {deterministic : Dict Text VerificationVerdict}

theorem get?_deterministicVerdicts (hnodup : (items.map EvidenceReference.claimId).Nodup)
    {claimId : Text} {verdict : VerificationVerdict} :
    (deterministicVerdicts items).get? claimId = some verdict ↔
      ∃ item ∈ items, item.supported = false ∧ claimId = item.claimId ∧
        verdict = bareVerdict item.claimId .deterministicLocal unsupportedVerdict := by
  have hkeys : (((items.filter fun item => !item.supported).map fun item =>
      (item.claimId, bareVerdict item.claimId .deterministicLocal unsupportedVerdict)).map
        Prod.fst).Nodup := by
    rw [List.map_map]
    exact hnodup.sublist (List.Sublist.map _ List.filter_sublist)
  unfold deterministicVerdicts
  rw [Dict.get?_eq_some, Dict.entries_ofList hkeys]
  constructor
  · intro hmem
    rcases List.mem_map.mp hmem with ⟨item, hitem, heq⟩
    rcases List.mem_filter.mp hitem with ⟨hin, hunsupported⟩
    rw [Prod.mk.injEq] at heq
    exact ⟨item, hin, by simpa using hunsupported, heq.1.symm, heq.2.symm⟩
  · intro h
    rcases h with ⟨item, hin, hunsupported, rfl, rfl⟩
    exact List.mem_map_of_mem (List.mem_filter.mpr ⟨hin, by simp [hunsupported]⟩)

/-- What a resumed verdict satisfies. -/
structure ResumedAs (items : List EvidenceReference) (contested : List Text)
    (deterministic : Dict Text VerificationVerdict) (claimId : Text)
    (verdict : VerificationVerdict) : Prop where
  own : verdict.claimId = claimId
  known : claimId ∈ items.map EvidenceReference.claimId
  uncontested : claimId ∉ contested
  agrees : ∀ expected, deterministic.get? claimId = some expected →
    verdict.verdict = expected.verdict

theorem resumeEntry_resumedAs {claimId : Text} {raw : StoredVerdict}
    {verdict : VerificationVerdict}
    (h : resumeEntry items deterministic contested claimId raw = .ok (some verdict)) :
    ResumedAs items contested deterministic claimId verdict ∧ raw = some verdict := by
  unfold resumeEntry at h
  split at h
  · cases h
  · rename_i reference hfound
    have hreference := List.find?_some hfound
    have hin := List.mem_of_find?_eq_some hfound
    split at h
    · cases h
    · split at h
      · cases h
      · rename_i stored hown
        split at h
        · cases h
        · cases h
        · split at h
          · cases h
          · split at h
            · cases h
            · rename_i hagrees
              split at h
              · cases h
              · rename_i hscope
                cases h
                rw [not_or] at hscope
                refine ⟨⟨not_not.mp hown, ?_, by simpa using hscope.2, ?_⟩, rfl⟩
                · rw [← of_decide_eq_true hreference]
                  exact List.mem_map_of_mem hin
                · intro expected hexpected
                  rw [hexpected] at hagrees
                  by_contra hne
                  apply hagrees
                  simp only [Option.any_some, decide_eq_true_eq]
                  exact fun heq => hne (Prod.mk.inj heq).1

theorem resumeEntries_resumedAs : ∀ (entries : List (Text × StoredVerdict))
    {resumed result : Dict Text VerificationVerdict},
    resumeEntries items deterministic contested entries resumed = .ok result →
    (∀ claimId verdict, resumed.get? claimId = some verdict →
      ResumedAs items contested deterministic claimId verdict) →
    ∀ claimId verdict, result.get? claimId = some verdict →
      ResumedAs items contested deterministic claimId verdict := by
  intro entries
  induction entries with
  | nil =>
    intro resumed result h hresumed
    cases h
    exact hresumed
  | cons entry rest ih =>
    intro resumed result h hresumed
    rcases entry with ⟨claimId, raw⟩
    rcases except_bind_eq_ok.mp h with ⟨next, hnext, hrest⟩
    cases next with
    | none => exact ih hrest hresumed
    | some verdict =>
      apply ih hrest
      intro claimId' verdict' hget
      rw [Dict.get?_set] at hget
      by_cases heq : claimId' = claimId
      · rw [if_pos heq, Option.some.injEq] at hget
        rw [heq, ← hget]
        exact (resumeEntry_resumedAs hnext).1
      · rw [if_neg heq] at hget
        exact hresumed _ _ hget

/-- What the verdicts settled without a source satisfy. -/
structure SettledBefore (items : List EvidenceReference) (contested : List Text)
    (settled : Dict Text VerificationVerdict) : Prop where
  own : ∀ claimId verdict, settled.get? claimId = some verdict → verdict.claimId = claimId
  known : ∀ claimId ∈ settled.keys, claimId ∈ items.map EvidenceReference.claimId
  unsupported : ∀ item ∈ items, item.supported = false → item.claimId ∈ settled.keys ∧
    ∀ verdict, settled.get? item.claimId = some verdict → verdict.verdict = .rejected
  uncontested : ∀ item ∈ items, item.supported = true → item.claimId ∈ contested →
    item.claimId ∉ settled.keys

theorem eq_of_claimId (hnodup : (items.map EvidenceReference.claimId).Nodup)
    {item other : EvidenceReference} (hitem : item ∈ items) (hother : other ∈ items)
    (h : item.claimId = other.claimId) : item = other :=
  List.inj_on_of_nodup_map hnodup hitem hother h

theorem settledBefore_spec (hnodup : (items.map EvidenceReference.claimId).Nodup)
    {groundingVersion : ℕ} {settled : Dict Text VerificationVerdict}
    (h : settledBefore items contested existing groundingVersion = .ok settled) :
    SettledBefore items contested settled := by
  rcases except_bind_eq_ok.mp h with ⟨resumed, hresumed, hsettled⟩
  cases hsettled
  have hresumedAs := resumeEntries_resumedAs _ hresumed (fun _ _ hget => by cases hget)
  -- dropping ungrounded verdicts keeps what is known of the others
  have hcurrent : ∀ claimId verdict,
      (currentlyGrounded groundingVersion (deterministicVerdicts items) resumed).get? claimId =
        some verdict → ResumedAs items contested (deterministicVerdicts items) claimId verdict := by
    intro claimId verdict hget
    unfold currentlyGrounded at hget
    split at hget
    · rw [Dict.get?_eq_some, Dict.mem_entries_filter] at hget
      exact hresumedAs _ _ (Dict.get?_eq_some.mpr hget.1)
    · exact hresumedAs _ _ hget
  have hcases := fun claimId verdict => Dict.get?_update_cases
    (d := deterministicVerdicts items)
    (e := currentlyGrounded groundingVersion (deterministicVerdicts items) resumed)
    (k := claimId) (v := verdict)
  constructor
  · intro claimId verdict hget
    rcases hcases _ _ hget with hres | ⟨-, hdet⟩
    · exact (hcurrent _ _ hres).own
    · rcases (get?_deterministicVerdicts hnodup).mp hdet with ⟨item, -, -, rfl, rfl⟩
      rfl
  · intro claimId hkey
    rcases Dict.mem_keys_iff.mp hkey with ⟨verdict, hget⟩
    rcases hcases _ _ hget with hres | ⟨-, hdet⟩
    · exact (hcurrent _ _ hres).known
    · rcases (get?_deterministicVerdicts hnodup).mp hdet with ⟨item, hin, -, rfl, -⟩
      exact List.mem_map_of_mem hin
  · intro item hin hunsupported
    have hdet := (get?_deterministicVerdicts hnodup).mpr ⟨item, hin, hunsupported, rfl, rfl⟩
    refine ⟨Dict.mem_keys_update.mpr (Or.inr (Dict.mem_keys_iff.mpr ⟨_, hdet⟩)), ?_⟩
    intro verdict hget
    rcases hcases _ _ hget with hres | ⟨-, hdet'⟩
    · exact (hcurrent _ _ hres).agrees _ hdet
    · rw [hdet, Option.some.injEq] at hdet'
      rw [← hdet']
      rfl
  · intro item hin hsupported hcontested hkey
    rcases Dict.mem_keys_iff.mp hkey with ⟨verdict, hget⟩
    rcases hcases _ _ hget with hres | ⟨-, hdet⟩
    · exact (hcurrent _ _ hres).uncontested hcontested
    · rcases (get?_deterministicVerdicts hnodup).mp hdet with ⟨other, hother, hunsupported, hid, -⟩
      rw [eq_of_claimId hnodup hin hother hid, hunsupported] at hsupported
      cases hsupported

end Before

/-! ## 2. Settling the pending claims -/

section Pending

variable {u : Unicode} {resolutions : List ConflictResolution}

theorem citedVerdict_eq_ok {claimId : Text} {mode : VerificationMode} {outcome : LocalOutcome}
    {support : List SupportLink} {verdict : VerificationVerdict}
    (h : citedVerdict claimId mode outcome support = .ok verdict) :
    verdict.claimId = claimId ∧ verdict.verdict = outcome.1 := by
  unfold citedVerdict at h
  split at h
  · cases h
    exact ⟨rfl, rfl⟩
  · cases h

variable {pending : Pending} {result : VerificationVerdict ⊕ GroundedCandidate} {claims : List EvidenceReference}

theorem structuredVerdict_claimId {comparison : StructuredComparison} {verdict : VerificationVerdict}
    (h : structuredVerdict pending comparison = .ok verdict) : verdict.claimId = pending.1.claimId := by
  unfold structuredVerdict at h
  simp only at h
  split at h
  · split at h
    · exact (citedVerdict_eq_ok h).1
    · cases h
      rfl
    · cases h
    · cases h
  · cases h
    rfl

theorem except_map_eq_ok {ε α β : Type} {x : Except ε α} {f : α → β} {b : β}
    (h : x.map f = .ok b) : ∃ a, x = .ok a ∧ f a = b := by
  cases x with
  | error e => cases h
  | ok a =>
    cases h
    exact ⟨a, rfl, rfl⟩

/-- A claim that lost or stands in an open conflict is settled, and not as verified. -/
theorem settleClaim_contested (h : settleClaim u resolutions pending = .ok result)
    (hlost : superseded resolutions pending.1.claimId = true ∨ inOpenConflict resolutions pending.1.claimId = true) :
    ∃ verdict, result = .inl verdict ∧ verdict.verdict ≠ .verified := by
  unfold settleClaim at h
  simp only at h
  by_cases hsuperseded : superseded resolutions pending.1.claimId = true
  · rw [if_pos hsuperseded] at h
    cases h
    exact ⟨_, rfl, fun heq => by cases heq⟩
  · rw [if_neg hsuperseded, if_pos (hlost.resolve_left hsuperseded)] at h
    cases h
    exact ⟨_, rfl, fun heq => by cases heq⟩

/-- Whatever a pending claim becomes, it keeps its id. -/
theorem settleClaim_claimId (h : settleClaim u resolutions pending = .ok result) :
    (∀ verdict, result = .inl verdict → verdict.claimId = pending.1.claimId) ∧
      ∀ candidate, result = .inr candidate → candidate.claimId = pending.1.claimId := by
  unfold settleClaim at h
  simp only at h
  split at h
  · cases h
    exact ⟨(fun _ heq => by cases heq; rfl), fun _ heq => by cases heq⟩
  · split at h
    · cases h
      exact ⟨(fun _ heq => by cases heq; rfl), fun _ heq => by cases heq⟩
    · split at h
      · rcases except_map_eq_ok h with ⟨verdict, hverdict, rfl⟩
        refine ⟨?_, fun _ heq => by cases heq⟩
        intro _ heq
        cases heq
        exact structuredVerdict_claimId hverdict
      · split at h
        · cases h
          exact ⟨(fun _ heq => by cases heq; rfl), fun _ heq => by cases heq⟩
        · rcases except_map_eq_ok h with ⟨candidate, hcandidate, rfl⟩
          refine ⟨(fun _ heq => by cases heq), ?_⟩
          intro _ heq
          cases heq
          show candidate.reference.claimId = _
          rw [groundCandidate_eq_ok hcandidate]

def pendingIds (pending : List Pending) : List Text := pending.map fun p => p.1.claimId

/-- What settling the pending claims gives, from what was settled before. -/
structure Settles (u : Unicode) (resolutions : List ConflictResolution) (pending : List Pending)
    (settled : Dict Text VerificationVerdict) (candidates : List GroundedCandidate)
    (settled' : Dict Text VerificationVerdict) (candidates' : List GroundedCandidate) : Prop where
  covers : (settled'.keys ++ candidates'.map GroundedCandidate.claimId).Perm
    (settled.keys ++ candidates.map GroundedCandidate.claimId ++ pendingIds pending)
  verdictFrom : ∀ claimId verdict, settled'.get? claimId = some verdict →
    settled.get? claimId = some verdict ∨ ∃ p ∈ pending, p.1.claimId = claimId ∧
      settleClaim u resolutions p = .ok (.inl verdict)
  candidateFrom : ∀ c ∈ candidates', c ∈ candidates ∨
    ∃ p ∈ pending, settleClaim u resolutions p = .ok (.inr c)

theorem settlePending_spec : ∀ (pending : List Pending)
    {settled settled' : Dict Text VerificationVerdict}
    {candidates candidates' : List GroundedCandidate},
    (pendingIds pending).Nodup → (∀ claimId ∈ pendingIds pending, claimId ∉ settled.keys) →
    settlePending u resolutions pending settled candidates = .ok (settled', candidates') →
    Settles u resolutions pending settled candidates settled' candidates' := by
  intro pending
  induction pending with
  | nil =>
    intro settled settled' candidates candidates' _ _ h
    cases h
    exact ⟨by simp [pendingIds], fun _ _ hget => Or.inl hget, fun _ hc => Or.inl hc⟩
  | cons p rest ih =>
    intro settled settled' candidates candidates' hnodup hnew h
    rcases except_bind_eq_ok.mp h with ⟨result, hresult, hrest⟩
    have hhead : p.1.claimId ∉ settled.keys := hnew _ List.mem_cons_self
    have htail := List.nodup_cons.mp hnodup
    have hids := settleClaim_claimId hresult
    cases result with
    | inl verdict =>
      have hspec := ih htail.2 (by
        intro claimId hmem hkey
        rcases Dict.mem_keys_set.mp hkey with heq | hold
        · rw [heq] at hmem
          exact htail.1 hmem
        · exact hnew claimId (List.mem_cons_of_mem _ hmem) hold) hrest
      constructor
      · apply hspec.covers.trans
        rw [Dict.keys_set_of_notMem hhead]
        show List.Perm _ (_ ++ p.1.claimId :: pendingIds rest)
        rw [List.append_assoc, List.append_assoc, List.append_assoc]
        apply List.Perm.append_left
        show List.Perm
          (p.1.claimId :: (candidates.map GroundedCandidate.claimId ++ pendingIds rest)) _
        exact List.perm_middle.symm
      · intro claimId verdict' hget
        rcases hspec.verdictFrom _ _ hget with hset | ⟨q, hq, hid, hsettle⟩
        · rw [Dict.get?_set] at hset
          by_cases heq : claimId = p.1.claimId
          · rw [if_pos heq, Option.some.injEq] at hset
            right
            exact ⟨p, List.mem_cons_self, heq.symm, hset ▸ hresult⟩
          · rw [if_neg heq] at hset
            exact Or.inl hset
        · exact Or.inr ⟨q, List.mem_cons_of_mem _ hq, hid, hsettle⟩
      · intro c hc
        rcases hspec.candidateFrom c hc with hold | ⟨q, hq, hsettle⟩
        · exact Or.inl hold
        · exact Or.inr ⟨q, List.mem_cons_of_mem _ hq, hsettle⟩
    | inr candidate =>
      have hspec := ih htail.2 (fun claimId hmem => hnew claimId (List.mem_cons_of_mem _ hmem)) hrest
      constructor
      · apply hspec.covers.trans
        rw [List.map_append, List.map_singleton, hids.2 candidate rfl]
        show List.Perm _ (_ ++ p.1.claimId :: pendingIds rest)
        simp only [List.append_assoc, List.singleton_append]
        exact List.Perm.refl _
      · intro claimId verdict hget
        rcases hspec.verdictFrom _ _ hget with hold | ⟨q, hq, hid, hsettle⟩
        · exact Or.inl hold
        · exact Or.inr ⟨q, List.mem_cons_of_mem _ hq, hid, hsettle⟩
      · intro c hc
        rcases hspec.candidateFrom c hc with hold | ⟨q, hq, hsettle⟩
        · rcases List.mem_append.mp hold with hold | hnewest
          · exact Or.inl hold
          · rw [List.mem_singleton] at hnewest
            exact Or.inr ⟨p, List.mem_cons_self, hnewest ▸ hresult⟩
        · exact Or.inr ⟨q, List.mem_cons_of_mem _ hq, hsettle⟩

/-- The pending claims are the claims that were to be resolved. -/
theorem references_of_contexts {resolved : Text → Option ResolvedSourceEvidence} {pending : List Pending}
    (h : claims.mapM (contextOf resolved) = .ok pending) : pending.map Prod.fst = claims := by
  have hall := forall₂_of_mapM h
  clear h
  induction hall with
  | nil => rfl
  | cons hhead _ ih => rw [List.map_cons, contextOf_eq_ok hhead, ih]

theorem resolvePending_references {W : Type}
    {resolve : List EvidenceReference → Action W Failure (Text → Option ResolvedSourceEvidence)} {w : W}
    {pending : List Pending} (h : (resolvePending resolve claims).result w = .ok pending) :
    pending.map Prod.fst = claims := by
  cases claims with
  | nil =>
    cases h
    rfl
  | cons first rest =>
    rcases Action.result_bind_eq_ok.mp h with ⟨resolved, -, hmap⟩
    exact references_of_contexts hmap

end Pending

/-! ## 3. Batches -/

section Batches

theorem fillBatches_flatten {bounds : VerifierBounds} :
    ∀ (candidates : List GroundedCandidate) {batches result : List (List GroundedCandidate)}
      {current : List GroundedCandidate}, fillBatches bounds candidates batches current = .ok result →
      result.flatten = batches.flatten ++ current ++ candidates := by
  intro candidates
  induction candidates with
  | nil =>
    intro batches result current h
    cases h
    cases current with
    | nil => simp
    | cons c cs => simp
  | cons item rest ih =>
    intro batches result current h
    unfold fillBatches at h
    split at h
    · cases h
    · split at h
      · rw [ih h]
        simp
      · rw [ih h]
        simp

theorem buildVerifierBatches_perm {bounds : VerifierBounds} {candidates : List GroundedCandidate}
    {batches : List (List GroundedCandidate)}
    (h : buildVerifierBatches bounds candidates = .ok batches) : batches.flatten.Perm candidates := by
  have hflatten := fillBatches_flatten _ h
  rw [List.flatten_nil, List.nil_append, List.nil_append] at hflatten
  rw [hflatten]
  exact perm_sortOn _ _

variable {context : BatchContext} {verdicts : List VerificationVerdict}

theorem groundAnswer_claimId {answer : VerifierResponseVerdict} {verdict : VerificationVerdict}
    (h : groundAnswer context answer = .ok verdict) : verdict.claimId = answer.claimId := by
  unfold groundAnswer at h
  simp only at h
  split at h
  · rcases except_bind_eq_ok.mp h with ⟨_, -, hrest⟩
    rcases except_bind_eq_ok.mp hrest with ⟨support, -, hcited⟩
    exact (citedVerdict_eq_ok hcited).1
  · cases h
    rfl

/-- Every verdict is stored under the claim it is about. -/
theorem readEntries_own {expected : List Text} :
    ∀ (entries : List Json) {byId result : Dict Text VerificationVerdict},
      readEntries expected context entries byId = .ok result →
      (∀ claimId verdict, byId.get? claimId = some verdict → verdict.claimId = claimId) →
      ∀ claimId verdict, result.get? claimId = some verdict → verdict.claimId = claimId := by
  intro entries
  induction entries with
  | nil =>
    intro byId result h hown
    cases h
    exact hown
  | cons entry rest ih =>
    intro byId result h hown
    unfold readEntries at h
    split at h
    · cases h
    · rename_i answer hanswer
      rcases except_bind_eq_ok.mp h with ⟨_, -, h⟩
      rcases except_bind_eq_ok.mp h with ⟨_, -, h⟩
      rcases except_bind_eq_ok.mp h with ⟨verdict, hverdict, h⟩
      apply ih h
      intro claimId verdict' hget
      rw [Dict.get?_set] at hget
      by_cases heq : claimId = answer.claimId
      · rw [if_pos heq, Option.some.injEq] at hget
        rw [← hget, heq]
        exact groundAnswer_claimId hverdict
      · rw [if_neg heq] at hget
        exact hown _ _ hget

/-- A batch response gives one verdict per expected claim, in order. -/
theorem parseVerifierBatch_claimIds {content : ResponseContent} {expected : List Text}
    (h : parseVerifierBatch content expected context = .ok verdicts) :
    verdicts.map VerificationVerdict.claimId = expected := by
  rcases except_bind_eq_ok.mp h with ⟨entries, -, hread⟩
  rcases except_bind_eq_ok.mp hread with ⟨byId, hbyId, hverdicts⟩
  have hown := readEntries_own _ hbyId (fun _ _ hget => by cases hget)
  cases hverdicts
  rw [List.map_map, List.map_congr_left, List.map_id]
  intro claimId _
  show ((byId.get? claimId).getD _).claimId = claimId
  cases hget : byId.get? claimId with
  | none => rfl
  | some verdict => exact hown _ _ hget

variable {W : Type} {verifier : Verifier W} {batchCompleted : VerifierProgress → Action W Failure PUnit}

theorem verifyBatch_claimIds {batch : List GroundedCandidate} {w : W}
    (h : (verifier.verifyBatch batch).result w = .ok verdicts) :
    (verdicts.map VerificationVerdict.claimId).Perm (batch.map GroundedCandidate.claimId) := by
  rcases Action.result_bind_eq_ok.mp h with ⟨content, -, h⟩
  rcases Action.result_bind_eq_ok.mp h with ⟨resolved, hresolved, h⟩
  rcases Action.result_bind_eq_ok.mp h with ⟨_, -, h⟩
  cases h
  rw [parseVerifierBatch_claimIds hresolved]
  exact (perm_sortOn _ _).map _

/-- The batches answer for exactly the claims they were sent. -/
theorem runBatches_claimIds {count : ℕ} :
    ∀ (batches : List (List GroundedCandidate)) {index : ℕ} {w : W}
      {verdicts : List VerificationVerdict},
      (verifier.runBatches batchCompleted count batches index).result w = .ok verdicts →
      (verdicts.map VerificationVerdict.claimId).Perm
        (batches.flatten.map GroundedCandidate.claimId) := by
  intro batches
  induction batches with
  | nil =>
    intro index w verdicts h
    cases h
    exact List.Perm.refl _
  | cons batch rest ih =>
    intro index w verdicts h
    rcases Action.result_bind_eq_ok.mp h with ⟨resolved, hresolved, h⟩
    rcases Action.result_bind_eq_ok.mp h with ⟨_, -, h⟩
    rcases Action.result_bind_eq_ok.mp h with ⟨others, hothers, h⟩
    cases h
    rw [List.map_append, List.flatten_cons, List.map_append]
    exact (verifyBatch_claimIds hresolved).append (ih hothers)

/-- Executing a plan returns its settled verdicts with one for each claim of its batches. -/
theorem verifyPrepared_spec {plan : GroundedVerificationPlan} {w : W}
    (h : (verifier.verifyPrepared batchCompleted plan).result w = .ok verdicts) :
    ∃ answered : List VerificationVerdict, verdicts.Perm (plan.settled ++ answered) ∧
      (answered.map VerificationVerdict.claimId).Perm
        (plan.batches.flatten.map GroundedCandidate.claimId) := by
  rcases Action.result_bind_eq_ok.mp h with ⟨_, -, h⟩
  rcases Action.result_bind_eq_ok.mp h with ⟨answered, hanswered, h⟩
  cases h
  exact ⟨answered, perm_sortOn _ _, runBatches_claimIds _ hanswered⟩

end Batches

end Milo.Swarm
