import Milo.Catalog.Promotion

/-!
# PromotionRuns — what every run of promotions keeps

Promotions of any runs come between any writes of evidence and of captures.  Whatever is stored rests
on a whole chain, a variant has one scope, and the history of a field is numbered without a gap.
-/

namespace Milo.Catalog

open Milo.Python Milo.Reasoning Milo.Swarm

/-! ## 1. What a stored fact rests on -/

/-- The chain of a fact, in the store its row is checked against. -/
structure Rests (db : PromotionDatabase) (s : PromotionStore) (row : FieldProvenanceRow)
    (chain : PromotionStore.SupportChain) : Prop where
  link : chain.link ∈ s.links ∧ chain.link.id = row.evidenceLinkId
  candidate : chain.candidate ∈ s.capture.candidates ∧ chain.candidate.id = row.candidateId ∧
    chain.link.candidateId = row.candidateId ∧ chain.candidate.snapshotId = row.snapshotId
  ready : chain.candidate.status = PromotionStore.readyForReview
  snapshot : s.capture.snapshots.get? row.snapshotId = some chain.snapshot ∧
    chain.snapshot.activatedAt.isSome = true ∧ chain.snapshot.validationState = .complete ∧
    chain.snapshot.trustState = "evidence".toList
  verdict : chain.verdict ∈ s.evidence.verdicts ∧ chain.verdict.id = row.verdictId ∧
    chain.link.verdictId = some row.verdictId ∧ chain.verdict.claimId = row.claimId
  claim : chain.claim ∈ s.evidence.claims ∧ chain.claim.reference.claimId = row.claimId ∧
    chain.link.claimId = some row.claimId ∧ chain.claim.status = "active".toList ∧
    row.claimId ∉ contestedClaimIds s.evidence.conflicts
  current : s.claimVerdictIsCurrentSupport row.claimId row.verdictId = true
  run : chain.link.runId = row.runId ∧ chain.source.runId = row.runId ∧
    chain.claim.reference.runId = row.runId ∧ chain.verdict.runId = row.runId
  source : chain.source ∈ s.evidence.sources ∧ chain.source.id = chain.link.sourceId ∧
    chain.claim.reference.sourceId = chain.link.sourceId
  field : chain.claim.reference.field = row.fieldKey
  value : (db.column chain.claim.reference.value).same row.fieldValue = true
  scope : row.scope.entityKey = chain.claim.reference.entity ∧
    some row.scope.market = chain.claim.reference.market ∧
    some row.scope.geography = chain.claim.reference.geography ∧
    row.scope.timeScope = db.column (.obj chain.claim.reference.timeScope) ∧
    row.scope.identityScope = chain.claim.reference.identity
  identity : sameTexts row.scope.identityScope (catalogCandidateIdentityScope db chain.candidate) = true
  year : scopedYear row.scope.timeScope = some chain.modelYear ∧
    chain.variant.modelYearStart ≤ chain.modelYear ∧ chain.modelYear ≤ chain.variant.modelYearEnd ∧
    row.scope.entityKey = catalogClaimEntityKey chain.model.canonicalKey chain.modelYear
  vehicle : chain.variant ∈ s.variants ∧ chain.variant.id = row.variantId ∧ chain.model ∈ s.models ∧
    chain.model.id = chain.variant.modelId ∧
    chain.candidate.manufacturer = chain.model.manufacturer ∧
    chain.candidate.commercialModel = chain.model.commercialModel
  record : chain.record ∈ s.capture.rawRecords ∧ chain.record.id = chain.candidate.rawRecordId ∧
    chain.claim.reference.locator = some row.recordLocator ∧
    (db.canonicalLocator row.recordLocator).bind (fun parts => parts[1]?) =
      some (catalogRecordLocatorId chain.snapshot.snapshotKey chain.record.upstreamRecordId)

namespace PromotionStore

variable {db : PromotionDatabase} {s s' : PromotionStore}

/-- A row looked up by its id is stored and has the id. -/
theorem mem_of_find?_id {α : Type} (key : α → Text) {l : List α} {id : Text} {a : α}
    (h : l.find? (fun b => decide (key b = id)) = some a) : a ∈ l ∧ key a = id :=
  ⟨List.mem_of_find?_eq_some h, by simpa using List.find?_some h⟩

variable {act : PromotionAct} {candidate : CapturedCandidate} {link : EvidenceLinkRow} {variant : ModelVariantRow}
  {claim : ClaimRecord}

theorem citedEvidence_eq_ok {linkId : Text} {snapshot : SnapshotRow} {verdict : VerdictRecord}
    (h : s.citedEvidence act linkId = .ok (link, variant, candidate, snapshot, verdict)) :
    s.link? linkId = some link ∧ s.variant? act.variantId = some variant ∧
      s.candidate? act.candidateId = some candidate ∧ link.candidateId = act.candidateId ∧
      candidate.snapshotId = link.snapshotId ∧ candidate.status = readyForReview ∧
      s.capture.snapshots.get? link.snapshotId = some snapshot ∧
      snapshot.activatedAt.isSome = true ∧ snapshot.validationState = .complete ∧
      snapshot.trustState = "evidence".toList ∧ link.verdictId = some verdict.id ∧
      verdict ∈ s.evidence.verdicts ∧ link.claimId = some verdict.claimId := by
  unfold citedEvidence at h
  simp only [except_bind_eq_ok, required_eq_ok, refuseIf_eq_ok, exists_const, not_not, not_or] at h
  obtain ⟨link', hlink, variant', hvariant, candidate', hcandidate, hof, hsnapshotId, hready,
    snapshot', hsnapshot, ⟨hactive, hcomplete⟩, htrust, verdictId, hverdictId, verdict', hverdict,
    hverified, hclaim, h⟩ := h
  cases h
  obtain ⟨hmem, hid⟩ := mem_of_find?_id VerdictRecord.id hverdict
  exact ⟨hlink, hvariant, hcandidate, hof, hsnapshotId, hready, hsnapshot, Option.isSome_iff_ne_none.mpr (by simpa using hactive),
    hcomplete, htrust, by rw [hverdictId, hid], hmem, hclaim⟩

theorem citedClaim_eq_ok {claimId fieldKey : Text} {value : Jsonb}
    (h : s.citedClaim db link variant claimId fieldKey value = .ok claim) :
    claim ∈ s.evidence.claims ∧ claim.reference.claimId = claimId ∧
      claim.reference.sourceId = link.sourceId ∧ claim.status = "active".toList ∧
      claim.reference.field = fieldKey ∧ (db.column claim.reference.value).same value = true ∧
      claimId ∉ contestedClaimIds s.evidence.conflicts := by
  unfold citedClaim at h
  simp only [except_bind_eq_ok, required_eq_ok, refuseIf_eq_ok, exists_const, not_not] at h
  obtain ⟨claim', hclaim, hsource, hactive, hfield, hvalue, hcontested, hidentity, h⟩ := h
  cases h
  obtain ⟨hmem, hid⟩ := mem_of_find?_id (fun c : ClaimRecord => c.reference.claimId) hclaim
  exact ⟨hmem, hid, hsource, hactive, hfield, by simpa using hvalue, hcontested⟩

theorem citedVehicle_eq_ok {model : CatalogModelRow} {modelYear : ℤ} {scope : ClaimScope}
    (h : s.citedVehicle db variant candidate claim = .ok (model, modelYear, scope)) :
    s.model? variant.modelId = some model ∧ candidate.manufacturer = model.manufacturer ∧
      candidate.commercialModel = model.commercialModel ∧
      scopedYear scope.timeScope = some modelYear ∧ variant.modelYearStart ≤ modelYear ∧
      modelYear ≤ variant.modelYearEnd ∧
      scope.entityKey = catalogClaimEntityKey model.canonicalKey modelYear ∧
      sameTexts scope.identityScope (catalogCandidateIdentityScope db candidate) = true ∧
      scope.entityKey = claim.reference.entity ∧ some scope.market = claim.reference.market ∧
      some scope.geography = claim.reference.geography ∧
      scope.timeScope = db.column (.obj claim.reference.timeScope) ∧
      scope.identityScope = claim.reference.identity := by
  unfold citedVehicle at h
  simp only [except_bind_eq_ok, required_eq_ok, refuseIf_eq_ok, exists_const, not_not, not_or,
    not_lt] at h
  obtain ⟨model', hmodel, ⟨hmake, hname⟩, hvariant, year, hyear, ⟨hfirst, hlast⟩, hentity, market,
    hmarket, geography, hgeography, hblank, hidentity, h⟩ := h
  cases h
  exact ⟨hmodel, hmake, hname, hyear, hfirst, hlast, hentity, by simpa using hidentity, rfl,
    hmarket.symm, hgeography.symm, rfl, rfl⟩

theorem citedRecord_eq_ok {snapshot : SnapshotRow} {verdict : VerdictRecord} {record : RawRecordRow}
    {source : SourceRecord} (h : s.citedRecord db act link candidate snapshot verdict claim = .ok (record, source)) :
    record ∈ s.capture.rawRecords ∧ record.id = candidate.rawRecordId ∧
      claim.reference.locator = some link.recordLocator ∧
      (db.canonicalLocator link.recordLocator).bind (fun parts => parts[1]?) =
        some (catalogRecordLocatorId snapshot.snapshotKey record.upstreamRecordId) ∧
      source ∈ s.evidence.sources ∧ source.id = link.sourceId ∧ link.runId = act.runId ∧
      source.runId = act.runId ∧ claim.reference.runId = act.runId ∧ verdict.runId = act.runId := by
  unfold citedRecord at h
  simp only [except_bind_eq_ok, required_eq_ok, refuseIf_eq_ok, exists_const, not_not, not_or] at h
  obtain ⟨record', hrecord, hlocator, hplace, source', hsource, hrun, ⟨hsourceRun, hclaimRun,
    hverdictRun⟩, h⟩ := h
  cases h
  obtain ⟨hmem, hid⟩ := mem_of_find?_id RawRecordRow.id hrecord
  obtain ⟨hmem', hid'⟩ := mem_of_find?_id SourceRecord.id hsource
  exact ⟨hmem, hid, hlocator, hplace, hmem', hid', hrun.symm, hsourceRun, hclaimRun, hverdictRun⟩

/-- What an inserted fact is. -/
structure Fact (db : PromotionDatabase) (s : PromotionStore) (act : PromotionAct)
    (field : PromotedField) (row : FieldProvenanceRow) : Prop where
  rests : ∃ chain, Rests db s row chain
  fieldKey : row.fieldKey = field.fieldKey
  value : field.value = some row.fieldValue
  ofAct : row.candidateId = act.candidateId ∧ row.variantId = act.variantId ∧
    row.runId = act.runId ∧ row.promotionKey = act.promotionKey
  revision : row.revision = s.nextRevision act.variantId field.fieldKey
  oneAct : ∀ p ∈ s.provenance, p.promotionKey = act.promotionKey → p.isOtherAct act = false
  oneScope : ∀ p ∈ s.provenance, p.variantId = act.variantId → p.scope.same row.scope = true
  novel : ∀ other ∈ s.provenance, row.clashes other = false

theorem insertFact_eq_ok {field : PromotedField} (h : s.insertFact db act field = .ok s') :
    ∃ row, Fact db s act field row ∧ s' = { s with provenance := s.provenance ++ [row] } := by
  unfold insertFact at h
  simp only [except_bind_eq_ok, required_eq_ok, refuseIf_eq_ok, exists_const] at h
  obtain ⟨linkId, hlinkId, hfound, value, hvalue, chain, hchain, hvalid, hnovel, h⟩ := h
  cases h
  refine ⟨s.provenanceRow act chain field.fieldKey value, ?_, rfl⟩
  unfold checkFieldProvenance at hchain
  simp only [except_bind_eq_ok, refuseIf_eq_ok, exists_const, Prod.exists] at hchain
  obtain ⟨link, variant, candidate, snapshot, verdict, hevidence, claim, hclaim, model, modelYear,
    scope, hvehicle, record, source, hrecord, hact, hscope, hcurrent, hchain⟩ := hchain
  cases hchain
  obtain ⟨hlink, hvariant, hcandidate, hof, hsnapshotId, hready, hsnapshot, hactive, hcomplete,
    htrust, hverdictId, hverdict, hlinkClaim⟩ := citedEvidence_eq_ok hevidence
  obtain ⟨hclaimMem, hclaimId, hclaimSource, hclaimActive, hfield, hclaimValue, huncontested⟩ :=
    citedClaim_eq_ok hclaim
  obtain ⟨hmodel, hmake, hname, hyear, hfirst, hlast, hentityKey, hidentity, hentity, hmarket,
    hgeography, htime, hscopeIdentity⟩ := citedVehicle_eq_ok hvehicle
  obtain ⟨hrecordMem, hrecordId, hlocator, hplace, hsourceMem, hsourceId, hlinkRun, hsourceRun,
    hclaimRun, hverdictRun⟩ := citedRecord_eq_ok hrecord
  have hrests : Rests db s
      (s.provenanceRow act ⟨link, variant, candidate, snapshot, verdict, claim, model, modelYear,
        record, source, scope⟩ field.fieldKey value)
      ⟨link, variant, candidate, snapshot, verdict, claim, model, modelYear, record, source,
        scope⟩ :=
    { link := ⟨(mem_of_find?_id EvidenceLinkRow.id hlink).1, rfl⟩
      candidate := ⟨(mem_of_find?_id CapturedCandidate.id hcandidate).1, (mem_of_find?_id CapturedCandidate.id hcandidate).2, hof,
        hsnapshotId⟩
      ready := hready
      snapshot := ⟨hsnapshot, hactive, hcomplete, htrust⟩
      verdict := ⟨hverdict, rfl, hverdictId, rfl⟩
      claim := ⟨hclaimMem, hclaimId, hlinkClaim, hclaimActive, huncontested⟩
      current := (Bool.not_eq_false _).mp hcurrent
      run := ⟨hlinkRun, hsourceRun, hclaimRun, hverdictRun⟩
      source := ⟨hsourceMem, hsourceId, hclaimSource⟩
      field := hfield
      value := hclaimValue
      scope := ⟨hentity, hmarket, hgeography, htime, hscopeIdentity⟩
      identity := hidentity
      year := ⟨hyear, hfirst, hlast, hentityKey⟩
      vehicle := ⟨(mem_of_find?_id ModelVariantRow.id hvariant).1, (mem_of_find?_id ModelVariantRow.id hvariant).2,
        (mem_of_find?_id CatalogModelRow.id hmodel).1, (mem_of_find?_id CatalogModelRow.id hmodel).2, hmake, hname⟩
      record := ⟨hrecordMem, hrecordId, hlocator, hplace⟩ }
  refine ⟨⟨_, hrests⟩, rfl, hvalue, ⟨rfl, rfl, rfl, rfl⟩, rfl, ?_, ?_, ?_⟩
  · intro p hp hkey
    simpa using fun hother => hact ⟨p, hp, hkey, hother⟩
  · intro p hp hof
    exact (Bool.not_eq_false _).mp fun hother => hscope ⟨p, hp, hof, hother⟩
  · intro other hother
    simpa using fun hclash => hnovel ⟨other, hother, hclash⟩

/-! ## 2. The facts of a promotion -/

/-- Facts inserted one after another. -/
inductive Inserted (db : PromotionDatabase) (act : PromotionAct) :
    PromotionStore → List PromotedField → List FieldProvenanceRow → PromotionStore → Prop
  | nil (s : PromotionStore) : Inserted db act s [] [] s
  | cons (s : PromotionStore) (field : PromotedField) (row : FieldProvenanceRow)
    (fields : List PromotedField) (rows : List FieldProvenanceRow) (s' : PromotionStore) :
    Fact db s act field row →
    Inserted db act { s with provenance := s.provenance ++ [row] } fields rows s' →
    Inserted db act s (field :: fields) (row :: rows) s'

theorem inserted_of_insertFacts {fields : List PromotedField} :
    ∀ {s : PromotionStore}, insertFacts db act fields s = .ok s' →
      ∃ rows, Inserted db act s fields rows s' := by
  induction fields with
  | nil =>
    intro s h
    cases h
    exact ⟨[], .nil _⟩
  | cons field fields ih =>
    intro s h
    obtain ⟨m, hfirst, hrest⟩ := except_bind_eq_ok.mp h
    obtain ⟨row, hfact, rfl⟩ := insertFact_eq_ok hfirst
    obtain ⟨rows, hrows⟩ := ih hrest
    exact ⟨row :: rows, .cons _ _ _ _ _ _ hfact hrows⟩

/-- A chain is of the evidence, the capture and the vehicles, whatever facts there are. -/
theorem rests_of_eq {row : FieldProvenanceRow} {chain : SupportChain} (h : Rests db s row chain)
    (hcapture : s'.capture = s.capture) (hevidence : s'.evidence = s.evidence)
    (hlinks : s'.links = s.links) (hmodels : s'.models = s.models)
    (hvariants : s'.variants = s.variants) : Rests db s' row chain := by
  have hcurrent : s'.claimVerdictIsCurrentSupport row.claimId row.verdictId = true := by
    unfold claimVerdictIsCurrentSupport
    rw [hevidence]
    exact h.current
  cases s
  cases s'
  cases hcapture
  cases hevidence
  cases hlinks
  cases hmodels
  cases hvariants
  exact { h with current := hcurrent }

namespace Inserted

variable {act : PromotionAct} {fields : List PromotedField} {rows : List FieldProvenanceRow}

theorem eq (h : Inserted db act s fields rows s') :
    s' = { s with provenance := s.provenance ++ rows } := by
  induction h with
  | nil s => rw [List.append_nil]
  | cons s field row fields rows s' hfact hrest ih =>
    rw [ih]
    simp

/-- What every single insertion keeps, they all keep. -/
theorem invariant {J : PromotionStore → Prop} (h : Inserted db act s fields rows s') (hs : J s)
    (hstep : ∀ m field row, J m → Fact db m act field row →
      J { m with provenance := m.provenance ++ [row] }) : J s' := by
  induction h with
  | nil s => exact hs
  | cons s field row fields rows s' hfact hrest ih => exact ih (hstep _ _ _ hs hfact)

theorem rests (h : Inserted db act s fields rows s') :
    ∀ row ∈ rows, ∃ chain, Rests db s' row chain := by
  induction h with
  | nil s => exact nofun
  | cons s field row fields rows s' hfact hrest ih =>
    intro other hother
    rcases List.mem_cons.mp hother with rfl | hother
    · obtain ⟨chain, hchain⟩ := hfact.rests
      rw [hrest.eq]
      exact ⟨chain, rests_of_eq hchain rfl rfl rfl rfl rfl⟩
    · exact ih other hother

theorem ofAct (h : Inserted db act s fields rows s') :
    ∀ row ∈ rows, row.candidateId = act.candidateId ∧ row.variantId = act.variantId ∧
      row.runId = act.runId ∧ row.promotionKey = act.promotionKey := by
  induction h with
  | nil s => exact nofun
  | cons s field row fields rows s' hfact hrest ih =>
    intro other hother
    rcases List.mem_cons.mp hother with rfl | hother
    · exact hfact.ofAct
    · exact ih other hother

/-- One row for each field, of its key and its value. -/
theorem map_fields (h : Inserted db act s fields rows s') :
    rows.map (fun row => (row.fieldKey, row.fieldValue)) =
      fields.map fun field => (field.fieldKey, field.value.getD .null) := by
  induction h with
  | nil s => rfl
  | cons s field row fields rows s' hfact hrest ih =>
    rw [List.map_cons, List.map_cons, ih, hfact.fieldKey, hfact.value, Option.getD_some]

end Inserted

/-! ## 3. What the facts of all promotions keep -/

/-- The facts: numbered without a gap, of one scope for a variant and of one act for a key. -/
structure Numbered (s : PromotionStore) : Prop where
  revisions : ∀ variantId fieldKey, (s.history variantId fieldKey).map FieldProvenanceRow.revision =
    List.range' 1 (s.history variantId fieldKey).length
  oneScope : s.provenance.Pairwise fun p q => p.variantId = q.variantId → p.scope.same q.scope = true
  oneAct : s.provenance.Pairwise fun p q => p.promotionKey = q.promotionKey →
    p.candidateId = q.candidateId ∧ p.variantId = q.variantId ∧ p.fieldKey ≠ q.fieldKey

theorem foldr_max_range' (n b : ℕ) : (List.range' 1 n).foldr max b = max n b := by
  induction n generalizing b with
  | zero => simp
  | succ n ih =>
    rw [List.range'_concat, List.foldr_append, ih]
    simp
    omega

theorem nextRevision_eq (h : s.Numbered) (variantId fieldKey : Text) :
    s.nextRevision variantId fieldKey = (s.history variantId fieldKey).length + 1 := by
  unfold nextRevision
  rw [h.revisions, foldr_max_range', Nat.max_zero]

theorem history_append (row : FieldProvenanceRow) (variantId fieldKey : Text) :
    ({ s with provenance := s.provenance ++ [row] } : PromotionStore).history variantId fieldKey =
      s.history variantId fieldKey ++
        if row.variantId = variantId ∧ row.fieldKey = fieldKey then [row] else [] := by
  unfold history
  rw [List.filter_append]
  by_cases hplace : row.variantId = variantId ∧ row.fieldKey = fieldKey
  · simp [hplace]
  · rw [if_neg hplace]
    simpa using hplace

theorem numbered_insert {field : PromotedField} {row : FieldProvenanceRow} (h : s.Numbered)
    (hfact : Fact db s act field row) : Numbered { s with provenance := s.provenance ++ [row] } := by
  refine ⟨?_, ?_, ?_⟩
  · intro variantId fieldKey
    rw [history_append]
    by_cases hplace : row.variantId = variantId ∧ row.fieldKey = fieldKey
    · have hrevision : row.revision = (s.history variantId fieldKey).length + 1 := by
        rw [hfact.revision, ← hfact.fieldKey, ← hfact.ofAct.2.1, hplace.1, hplace.2,
          nextRevision_eq h]
      rw [if_pos hplace, List.map_append, h.revisions, List.length_append, List.map_singleton,
        hrevision, List.length_singleton, List.range'_concat]
      simp [Nat.add_comm]
    · rw [if_neg hplace, List.append_nil]
      exact h.revisions variantId fieldKey
  · refine List.pairwise_append.mpr ⟨h.oneScope, List.pairwise_singleton _ _, ?_⟩
    intro p hp q hq hof
    rw [List.mem_singleton.mp hq] at hof ⊢
    exact hfact.oneScope p hp (hof.trans hfact.ofAct.2.1)
  · refine List.pairwise_append.mpr ⟨h.oneAct, List.pairwise_singleton _ _, ?_⟩
    intro p hp q hq hkey
    rw [List.mem_singleton.mp hq] at hkey ⊢
    have hact := hfact.oneAct p hp (hkey.trans hfact.ofAct.2.2.2)
    have hclash := hfact.novel p hp
    unfold FieldProvenanceRow.isOtherAct at hact
    unfold FieldProvenanceRow.clashes at hclash
    simp only [Bool.or_eq_false_iff, decide_eq_false_iff_not, not_not] at hact
    refine ⟨hact.1.2.trans hfact.ofAct.1.symm, hact.2.trans hfact.ofAct.2.1.symm, fun hfield => ?_⟩
    simp [hfield, hkey] at hclash

theorem sameTexts_comm (a b : List (Text × Text)) : sameTexts a b = sameTexts b a := by
  unfold sameTexts
  rw [List.all_append, List.all_append, Bool.and_comm]
  simp only [eq_comm (a := a.lookup _)]

theorem sameScope_self (scope : ClaimScope) : scope.same scope = true := by
  simp [ClaimScope.same, sameTexts]

theorem sameScope_comm (a b : ClaimScope) : a.same b = b.same a := by
  unfold ClaimScope.same
  rw [Jsonb.same_comm, sameTexts_comm]
  simp only [eq_comm (a := a.entityKey), eq_comm (a := a.market), eq_comm (a := a.geography)]

theorem Numbered.sameScope (h : s.Numbered) : ∀ p ∈ s.provenance, ∀ q ∈ s.provenance,
    p.variantId = q.variantId → p.scope.same q.scope = true := by
  refine List.Pairwise.forall_of_forall_of_flip (fun p _ _ => sameScope_self p.scope) h.oneScope ?_
  refine h.oneScope.imp fun hpq hof => ?_
  rw [sameScope_comm]
  exact hpq hof.symm

/-! ## 4. An accepted promotion -/

/-- A promotion that passes the checks of its document against its candidate. -/
structure Accepted (db : PromotionDatabase) (s : PromotionStore) (p : Jsonb) (r : PromotionReading)
    (candidate : CapturedCandidate) (fields : List PromotedField) : Prop where
  safe : db.unsafePayload p.text = false
  read : readPromotion p = .ok r
  found : (rendered (p.member? "candidate_id".toList)).bind s.candidate? = some candidate
  ready : candidate.status = readyForReview
  identity : candidate.manufacturer = r.manufacturer ∧
    candidate.commercialModel = r.commercialModel ∧
    candidate.modelYearStart = some r.modelYearStart ∧
    candidate.modelYearEnd = some r.modelYearEnd ∧
    candidate.officialModelCode = r.officialModelCode ∧ candidate.trim = r.trim
  entries : r.fields.mapM readField = .ok fields
  dimensions : r.identityDimensions.isObject = true
  stated : sameFields (requestedFields fields) r.stated = true

theorem promote_eq_ok {call : WorkerCall} {ids : NewIds} {p : Jsonb}
    {answer : PromotionStore × ModelVariantRow} :
    s.promoteCatalogVariantGuarded db call ids p = .ok answer ↔
      s.capture.assertWorkerLease call = .ok () ∧ ∃ r candidate fields,
        Accepted db s p r candidate fields ∧
        (if s.promoted r.promotionKey = [] then s.writePromotion db call ids r candidate.id fields
          else do
            let variant ← s.replayPromotion r candidate.id fields
            return (s, variant)) = .ok answer := by
  unfold promoteCatalogVariantGuarded
  simp only [except_bind_eq_ok, required_eq_ok, refuseIf_eq_ok, exists_const, not_not, not_or,
    Bool.not_eq_true, Bool.not_eq_false]
  constructor
  · rintro ⟨⟨⟩, hlease, hsafe, r, hread, candidate, hcandidate, hready, hidentity, fields, hfields,
      hdimensions, hstated, h⟩
    exact ⟨hlease, r, candidate, fields, ⟨hsafe, hread, hcandidate, hready, hidentity, hfields,
      hdimensions, hstated⟩, h⟩
  · rintro ⟨hlease, r, candidate, fields, ⟨hsafe, hread, hcandidate, hready, hidentity, hfields,
      hdimensions, hstated⟩, h⟩
    exact ⟨⟨⟩, hlease, hsafe, r, hread, candidate, hcandidate, hready, hidentity, fields, hfields,
      hdimensions, hstated, h⟩

/-- What a promotion that was not stored wrote: facts of a variant that was there, or a variant and
    the facts of all it states. -/
inductive Written (db : PromotionDatabase) (s : PromotionStore) (call : WorkerCall)
    (r : PromotionReading) (candidateId : Text) (fields : List PromotedField) :
    PromotionStore → ModelVariantRow → Prop
  | revised (models : List CatalogModelRow) (variant : ModelVariantRow)
    (rows : List FieldProvenanceRow) (s' : PromotionStore) :
    s.variantByKey? r.canonicalKey = some variant →
    variant.modelYearStart = r.modelYearStart ∧ variant.modelYearEnd = r.modelYearEnd ∧
      variant.officialModelCode = r.officialModelCode ∧ variant.trim = r.trim →
    Inserted db (actOf call candidateId variant.id r.promotionKey) { s with models := models }
      (sortedBy PromotedField.fieldKey fields) rows s' →
    Written db s call r candidateId fields s' variant
  | created (models : List CatalogModelRow) (variant : ModelVariantRow)
    (rows : List FieldProvenanceRow) (s' : PromotionStore) : variant.stated = r.stated →
    variant.canonicalKey = r.canonicalKey →
    (∀ other ∈ s.variants, variant.clashes other = false) →
    Inserted db (actOf call candidateId variant.id r.promotionKey)
      { s with models := models, variants := s.variants ++ [variant] }
      (sortedBy PromotedField.fieldKey fields) rows s' →
    sameFields variant.stated (s'.firstRevisions variant.id) = true →
    Written db s call r candidateId fields s' variant

theorem ensureModel_eq_ok {modelId : Text} {r : PromotionReading} {model : CatalogModelRow}
    (h : s.ensureModel modelId r = .ok (s', model)) : ∃ models, s' = { s with models := models } := by
  unfold ensureModel at h
  split at h
  · cases h
    exact ⟨_, rfl⟩
  · simp only [except_bind_eq_ok, refuseIf_eq_ok, exists_const] at h
    obtain ⟨-, -, h⟩ := h
    cases h
    exact ⟨_, rfl⟩

theorem written_of_writePromotion {call : WorkerCall} {ids : NewIds} {r : PromotionReading}
    {candidateId : Text} {fields : List PromotedField} {v : ModelVariantRow}
    (h : s.writePromotion db call ids r candidateId fields = .ok (s', v)) :
    Written db s call r candidateId fields s' v := by
  unfold writePromotion at h
  simp only [except_bind_eq_ok, required_eq_ok, refuseIf_eq_ok, exists_const, Prod.exists] at h
  obtain ⟨withModel, model, hmodel, hsame, verdictId, hverdict, h⟩ := h
  obtain ⟨models, rfl⟩ := ensureModel_eq_ok hmodel
  cases hvariant : s.variantByKey? r.canonicalKey with
  | some variant =>
    rw [hvariant] at h
    simp only [except_bind_eq_ok, refuseIf_eq_ok, exists_const, not_or, not_not] at h
    obtain ⟨⟨-, hidentity⟩, written, hwritten, h⟩ := h
    cases h
    obtain ⟨rows, hrows⟩ := inserted_of_insertFacts hwritten
    exact .revised models v rows _ hvariant hidentity hrows
  | none =>
    rw [hvariant] at h
    simp only [except_bind_eq_ok, refuseIf_eq_ok, exists_const] at h
    obtain ⟨hvalid, hnovel, written, hwritten, ⟨⟩, hrequired, h⟩ := h
    cases h
    obtain ⟨rows, hrows⟩ := inserted_of_insertFacts hwritten
    unfold requireFieldProvenance at hrequired
    simp only [except_bind_eq_ok, refuseIf_eq_ok, exists_const] at hrequired
    refine .created models _ rows _ rfl rfl ?_ hrows ((Bool.not_eq_false _).mp hrequired.1)
    intro other hother
    exact (Bool.not_eq_true _).mp fun hclash => hnovel ⟨other, hother, hclash⟩

/-- The event is a promotion that is accepted and was not stored before. -/
def Promotes (db : PromotionDatabase) (s : PromotionStore) (e : PromotionEvent)
    (r : PromotionReading) : Prop :=
  ∃ call ids p answer, e = .promote call ids p ∧
    s.promoteCatalogVariantGuarded db call ids p = .ok answer ∧ readPromotion p = .ok r ∧
    s.promoted r.promotionKey = []

/-- What an event may change. -/
inductive Change (db : PromotionDatabase) (s : PromotionStore) :
    PromotionEvent → PromotionStore → Prop
  | kept (e : PromotionEvent) (s' : PromotionStore) : (∀ r, ¬ Promotes db s e r) →
    s'.models = s.models → s'.variants = s.variants → s'.provenance = s.provenance →
    s.KeepsReady s' → Change db s e s'
  | written (call : WorkerCall) (ids : NewIds) (p : Jsonb) (r : PromotionReading)
    (candidate : CapturedCandidate) (fields : List PromotedField) (s' : PromotionStore)
    (v : ModelVariantRow) : s.promoteCatalogVariantGuarded db call ids p = .ok (s', v) →
    Accepted db s p r candidate fields → s.promoted r.promotionKey = [] →
    Written db s call r candidate.id fields s' v → Change db s (.promote call ids p) s'

theorem change_perform {e : PromotionEvent} (hallowed : s.Allowed e) :
    Change db s e (s.perform db e) := by
  cases e with
  | evidence evidence =>
    refine .kept _ _ ?_ rfl rfl rfl (KeepsReady.of_eq s rfl)
    rintro r ⟨_, _, _, _, h, -⟩
    cases h
  | links links =>
    refine .kept _ _ ?_ rfl rfl rfl (KeepsReady.of_eq s rfl)
    rintro r ⟨_, _, _, _, h, -⟩
    cases h
  | capture capture =>
    refine .kept _ _ ?_ rfl rfl rfl hallowed
    rintro r ⟨_, _, _, _, h, -⟩
    cases h
  | promote call ids p =>
    cases hanswer : s.promoteCatalogVariantGuarded db call ids p with
    | error message =>
      rw [perform_of_refused db s hanswer]
      refine .kept _ _ ?_ rfl rfl rfl (KeepsReady.of_eq s rfl)
      rintro r ⟨call', ids', p', answer, h, hok, -⟩
      cases h
      rw [hanswer] at hok
      cases hok
    | ok answer =>
      rw [perform_of_promoted db s hanswer]
      obtain ⟨-, r, candidate, fields, haccepted, h⟩ := promote_eq_ok.mp hanswer
      by_cases hfresh : s.promoted r.promotionKey = []
      · rw [if_pos hfresh] at h
        exact .written call ids p r candidate fields _ answer.2 hanswer haccepted hfresh
          (written_of_writePromotion h)
      · rw [if_neg hfresh] at h
        obtain ⟨variant, -, h⟩ := except_bind_eq_ok.mp h
        cases h
        refine .kept _ _ ?_ rfl rfl rfl (KeepsReady.of_eq s rfl)
        rintro r' ⟨call', ids', p', answer, h, -, hread, hfresh'⟩
        cases h
        rw [haccepted.read] at hread
        cases hread
        exact hfresh hfresh'

end PromotionStore

end Milo.Catalog
