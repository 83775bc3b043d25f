import Milo.Swarm.Settling

/-!
# Consistency — a verification pass never verifies a contradiction

If a pass returns, it returns one verdict for each claim, and the verified claims of one scope
state one quantity: in a scope that contradicts itself only the winning quantity can be verified,
and none while the contradiction is open.
-/

namespace Milo.Swarm

open Milo.Python Milo.Reasoning

/-! ## 1. What consistency means -/

section Meaning

variable (u : Unicode) (evidence : List EvidenceReference) (verdicts : List VerificationVerdict)

/-- The claim carries a verified verdict. -/
def IsVerified (item : EvidenceReference) : Prop :=
  ∃ v ∈ verdicts, v.claimId = item.claimId ∧ v.verdict = .verified

/-- The decision taken for one contradicting group, and what the verdicts make of it. -/
structure DecidedGroup (claims : List EvidenceReference) (r : ConflictResolution) : Prop where
  ofGroup : r.claimIds.Perm (claims.map EvidenceReference.claimId)
  resolved : r.state = .resolved → ∃ winner ∈ claims, r.winningClaimId = some winner.claimId ∧
    ∀ item ∈ claims, IsVerified verdicts item → statedValue u item = statedValue u winner
  unresolved : r.state = .unresolved → ∀ item ∈ claims, ¬IsVerified verdicts item

/-- One verdict for each claim, and one verified quantity for each scope. -/
structure Consistent (resolutions : List ConflictResolution) : Prop where
  distinct : (evidence.map EvidenceReference.claimId).Nodup
  total : (verdicts.map VerificationVerdict.claimId).Perm
    (evidence.map EvidenceReference.claimId)
  decided : ∀ g ∈ conflictGroups u evidence, ∃ r ∈ resolutions, DecidedGroup u verdicts g.2 r
  oneQuantity : ∀ item ∈ evidence, ∀ other ∈ evidence,
    referenceIdentity u item = referenceIdentity u other → IsVerified verdicts item →
    IsVerified verdicts other → statedValue u item = statedValue u other

end Meaning

/-! ## 2. Groups -/

section Groups

variable {u : Unicode} {references evidence : List EvidenceReference}

variable {claims : List EvidenceReference}

theorem contradicts_iff :
    contradicts u claims = true ↔
      ∃ item ∈ claims, ∃ other ∈ claims, statedValue u item ≠ statedValue u other := by
  have hvalues : 1 < (claims.map (statedValue u)).dedup.length ↔
      ∃ item ∈ claims, ∃ other ∈ claims, statedValue u item ≠ statedValue u other := by
    rw [one_lt_length_dedup]
    constructor
    · intro h
      rcases h with ⟨a, ha, b, hb, hne⟩
      rcases List.mem_map.mp ha with ⟨item, hitem, rfl⟩
      rcases List.mem_map.mp hb with ⟨other, hother, rfl⟩
      exact ⟨item, hitem, other, hother, hne⟩
    · intro h
      rcases h with ⟨item, hitem, other, hother, hne⟩
      exact ⟨_, List.mem_map_of_mem hitem, _, List.mem_map_of_mem hother, hne⟩
  unfold contradicts
  rw [Bool.and_eq_true, decide_eq_true_eq, decide_eq_true_eq, hvalues]
  constructor
  · exact fun h => h.2
  · -- two different quantities need two claims
    intro h
    refine ⟨?_, h⟩
    have hlong := hvalues.mpr h
    have hdedup := (List.dedup_sublist (claims.map (statedValue u))).length_le
    rw [List.length_map] at hdedup
    omega

/-- A conflict group is all claims of one identity, and two of them differ. -/
theorem mem_conflictGroups {identity : ScopeIdentity} :
    (identity, claims) ∈ conflictGroups u references ↔
      claims = references.filter (fun item => referenceIdentity u item = identity) ∧
        ∃ item ∈ claims, ∃ other ∈ claims, statedValue u item ≠ statedValue u other := by
  unfold conflictGroups
  rw [List.mem_filter, Dict.mem_groupBy, contradicts_iff]
  constructor
  · exact fun h => ⟨h.1.1, h.2⟩
  · intro h
    rcases h.2 with ⟨item, hitem, -⟩
    exact ⟨⟨h.1, List.ne_nil_of_mem hitem⟩, h.2⟩

theorem mem_conflictMembers {claimId : Text} :
    claimId ∈ conflictMembers u references ↔
      ∃ g ∈ conflictGroups u references, ∃ item ∈ g.2, item.claimId = claimId := by
  unfold conflictMembers
  rw [List.mem_flatMap]
  constructor
  · intro h
    rcases h with ⟨g, hg, hid⟩
    exact ⟨g, hg, List.mem_map.mp hid⟩
  · intro h
    rcases h with ⟨g, hg, hid⟩
    exact ⟨g, hg, List.mem_map.mpr hid⟩

/-- Two claims of one identity that state different quantities stand in a conflict group. -/
theorem exists_conflictGroup {item other : EvidenceReference} (hitem : item ∈ evidence)
    (hother : other ∈ evidence) (hidentity : referenceIdentity u item = referenceIdentity u other)
    (hne : statedValue u item ≠ statedValue u other) :
    ∃ g ∈ conflictGroups u evidence, item ∈ g.2 ∧ other ∈ g.2 := by
  let claims := evidence.filter fun e => referenceIdentity u e = referenceIdentity u item
  have hin : item ∈ claims := List.mem_filter.mpr ⟨hitem, by simp⟩
  have hin' : other ∈ claims := List.mem_filter.mpr ⟨hother, by simp [hidentity]⟩
  exact ⟨(referenceIdentity u item, claims),
    mem_conflictGroups.mpr ⟨rfl, item, hin, other, hin', hne⟩, hin, hin'⟩

/-- Naming the members of the conflict groups finds each of these groups again. -/
theorem namedGroups_complete {conflictClaimIds : List Text} {items : List EvidenceReference}
    (hperm : items.Perm evidence)
    (hnamed : ∀ id, id ∈ conflictMembers u evidence → id ∈ conflictClaimIds)
    {g : ScopeIdentity × List EvidenceReference} (hg : g ∈ conflictGroups u evidence) :
    ∃ claims, (g.1, claims) ∈ namedGroups u items conflictClaimIds ∧ claims.Perm g.2 := by
  rcases g with ⟨identity, claims⟩
  have hclaims := (mem_conflictGroups.mp hg).1
  have hdiffer := (mem_conflictGroups.mp hg).2
  -- every claim of the identity is named, so naming loses none of the group
  have hfilter : (items.filter fun item => conflictClaimIds.contains item.claimId).filter
      (fun item => referenceIdentity u item = identity) =
        items.filter fun item => referenceIdentity u item = identity := by
    rw [List.filter_filter]
    apply List.filter_congr
    intro item hitem
    by_cases hidentity : referenceIdentity u item = identity
    · have hmem : item ∈ claims := by
        rw [hclaims]
        exact List.mem_filter.mpr ⟨hperm.mem_iff.mp hitem, by simpa using hidentity⟩
      have hin := hnamed _ (mem_conflictMembers.mpr ⟨_, hg, item, hmem, rfl⟩)
      simp [hidentity, hin]
    · simp [hidentity]
  have hsame : (items.filter fun item => referenceIdentity u item = identity).Perm claims := by
    rw [hclaims]
    exact hperm.filter _
  refine ⟨items.filter fun item => referenceIdentity u item = identity, ?_, hsame⟩
  apply mem_conflictGroups.mpr
  refine ⟨hfilter.symm, ?_⟩
  rcases hdiffer with ⟨item, hitem, other, hother, hne⟩
  exact ⟨item, hsame.mem_iff.mpr hitem, other, hsame.mem_iff.mpr hother, hne⟩

end Groups

/-! ## 3. Decisions -/

section Decisions

variable {u : Unicode} {sha256 : Text → Text}

/-- A decision either leaves the scope open or lets one quantity win over all others. -/
theorem decideGroup_cases (identity : ScopeIdentity) (claims : List EvidenceReference)
    (decisive : List Text) :
    (decideGroup u sha256 identity claims decisive).claimIds.Perm
        (claims.map EvidenceReference.claimId) ∧
      (((decideGroup u sha256 identity claims decisive).state = .unresolved ∧
          (decideGroup u sha256 identity claims decisive).supersededClaimIds = []) ∨
        ((decideGroup u sha256 identity claims decisive).state = .resolved ∧
          ∃ winner ∈ claims,
            (decideGroup u sha256 identity claims decisive).winningClaimId = some winner.claimId ∧
            ∀ item ∈ claims, statedValue u item ≠ statedValue u winner →
              item.claimId ∈ (decideGroup u sha256 identity claims decisive).supersededClaimIds)) := by
  have hperm := (perm_sortOn EvidenceReference.claimId claims).map EvidenceReference.claimId
  unfold decideGroup
  simp only
  split
  · exact ⟨hperm, Or.inl ⟨rfl, rfl⟩⟩
  · rename_i first rest hdecisive
    have hfirst : first ∈ claims := by
      have hmem : first ∈ first :: rest := List.mem_cons_self
      rw [← hdecisive] at hmem
      exact mem_sortOn.mp (List.mem_filter.mp hmem).1
    split
    · exact ⟨hperm, Or.inl ⟨rfl, rfl⟩⟩
    · refine ⟨hperm, Or.inr ⟨rfl, first, hfirst, rfl, ?_⟩⟩
      intro item hitem hne
      exact List.mem_map_of_mem
        (List.mem_filter.mpr ⟨mem_sortOn.mpr hitem, by simpa using hne⟩)

variable {resolutions : List ConflictResolution}

theorem resolveConflicts_complete {groups : List (ScopeIdentity × List EvidenceReference)} {decisive : List Text}
    (h : resolveConflicts u sha256 groups decisive = .ok resolutions) {g : ScopeIdentity × List EvidenceReference}
    (hg : g ∈ groups) : ∃ r ∈ resolutions, r.toDecision = decideGroup u sha256 g.1 g.2 decisive := by
  rcases except_bind_eq_ok.mp h with ⟨made, hmade, hsorted⟩
  cases hsorted
  have hall := forall₂_of_mapM hmade
  clear h hmade
  have hfound : ∃ r ∈ made, resolveConflictGroup u sha256 g.1 g.2 decisive = .ok r := by
    induction hall with
    | nil => exact absurd hg List.not_mem_nil
    | cons hhead _ ih =>
      rcases List.mem_cons.mp hg with rfl | hrest
      · exact ⟨_, List.mem_cons_self, hhead⟩
      · rcases ih hrest with ⟨r, hr, heq⟩
        exact ⟨r, List.mem_cons_of_mem _ hr, heq⟩
  rcases hfound with ⟨r, hr, heq⟩
  exact ⟨r, mem_sortOn.mpr hr, Decision.record_eq_ok heq⟩

theorem superseded_of_mem {r : ConflictResolution} (hr : r ∈ resolutions) {claimId : Text}
    (hlost : claimId ∈ r.supersededClaimIds) : superseded resolutions claimId = true := by
  have hlosers := r.sound.losers claimId hlost
  have hstate : r.stateOf claimId = .superseded := by
    unfold Decision.stateOf
    rw [if_neg hlosers.2, if_pos (by simpa using hlost)]
  unfold superseded
  rw [List.any_eq_true]
  exact ⟨r, hr, by simp [hlosers.1, hstate]⟩

theorem inOpenConflict_of_mem {r : ConflictResolution} (hr : r ∈ resolutions) (hopen : r.state = .unresolved)
    {claimId : Text} (hin : claimId ∈ r.claimIds) : inOpenConflict resolutions claimId = true := by
  have hwinner : r.winningClaimId = none := by
    by_contra hne
    rw [r.sound.winner.mpr hne] at hopen
    cases hopen
  have hstate : r.stateOf claimId ≠ .superseded := by
    unfold Decision.stateOf
    rw [hwinner, r.sound.open' hopen, hopen]
    simp
  unfold inOpenConflict
  rw [List.any_eq_true]
  exact ⟨r, hr, by simp [hin, hstate, hopen]⟩

end Decisions

/-! ## 4. The plan -/

section Plan

variable {W : Type} {u : Unicode} {sha256 : Text → Text}
  {resolve : List EvidenceReference → Action W Failure (Text → Option ResolvedSourceEvidence)}
  {bounds : VerifierBounds} {evidence : List EvidenceReference} {conflictClaimIds : List Text}
  {existing : Dict Text StoredVerdict} {groundingVersion : ℕ}

/-- How a plan came about: what was settled first, the resolved pending claims, the decisions over
    them, and what each pending claim became. -/
structure Planned (u : Unicode) (sha256 : Text → Text) (evidence : List EvidenceReference)
    (conflictClaimIds : List Text) (plan : GroundedVerificationPlan)
    (items : List EvidenceReference) (settled : Dict Text VerificationVerdict)
    (pending : List Pending) (settled' : Dict Text VerificationVerdict)
    (candidates : List GroundedCandidate) : Prop where
  perm : items.Perm evidence
  distinct : (items.map EvidenceReference.claimId).Nodup
  before : SettledBefore items (groupClaims (namedGroups u items conflictClaimIds)) settled
  references : pending.map Prod.fst = unsettled items settled
  decisions : resolveConflicts u sha256 (namedGroups u items conflictClaimIds)
    (decisiveClaims u pending) = .ok plan.resolutions
  settles : Settles u plan.resolutions pending settled [] settled' candidates
  output : plan.settled = (sortOn Prod.fst settled'.entries).map Prod.snd
  sent : plan.batches.flatten.Perm candidates

/-- The claims settled first and the pending ones are all the claims. -/
theorem settled_pending_perm {items : List EvidenceReference}
    (hdistinct : (items.map EvidenceReference.claimId).Nodup)
    {settled : Dict Text VerificationVerdict}
    (hknown : ∀ claimId ∈ settled.keys, claimId ∈ items.map EvidenceReference.claimId) :
    (settled.keys ++ (unsettled items settled).map EvidenceReference.claimId).Perm
      (items.map EvidenceReference.claimId) := by
  have hpending : (unsettled items settled).map EvidenceReference.claimId =
      (items.map EvidenceReference.claimId).filter fun id => !settled.keys.contains id := by
    rw [List.filter_map]
    rfl
  rw [hpending, List.perm_ext_iff_of_nodup _ hdistinct]
  · intro id
    rw [List.mem_append, List.mem_filter]
    constructor
    · exact fun h => h.elim (hknown id) fun h => h.1
    · intro hid
      by_cases hkey : id ∈ settled.keys
      · exact Or.inl hkey
      · exact Or.inr ⟨hid, by simp [hkey]⟩
  · rw [List.nodup_append]
    refine ⟨settled.keys_nodup, hdistinct.filter _, ?_⟩
    intro a ha b hb hab
    have hnew := (List.mem_filter.mp hb).2
    rw [← hab] at hnew
    simp [ha] at hnew

theorem planGroundedVerification_planned {w : W} {plan : GroundedVerificationPlan}
    (h : (planGroundedVerification u sha256 resolve bounds evidence conflictClaimIds existing
      groundingVersion).result w = .ok plan) :
    ∃ items settled pending settled' candidates, Planned u sha256 evidence conflictClaimIds plan
      items settled pending settled' candidates := by
  rcases Action.result_bind_eq_ok.mp h with ⟨_, hdistinct, h⟩
  rcases Action.result_bind_eq_ok.mp h with ⟨settled, hsettled, h⟩
  rcases Action.result_bind_eq_ok.mp h with ⟨pending, hpending, h⟩
  rw [Action.result_ofExcept] at hdistinct hsettled h
  rcases except_bind_eq_ok.mp h with ⟨resolutions, hresolutions, h⟩
  rcases except_bind_eq_ok.mp h with ⟨⟨settled', candidates⟩, hsettle, h⟩
  rcases except_bind_eq_ok.mp h with ⟨batches, hbatches, h⟩
  cases h
  have hnodup := not_not.mp (refuseIf_eq_ok.mp hdistinct)
  have hbefore := settledBefore_spec hnodup hsettled
  have hreferences := resolvePending_references hpending
  have hids : pendingIds pending = (unsettled (sortOn EvidenceReference.claimId evidence)
      settled).map EvidenceReference.claimId := by
    rw [← hreferences, List.map_map]
    rfl
  have hnew : ∀ claimId ∈ pendingIds pending, claimId ∉ settled.keys := by
    intro claimId hid
    rw [hids] at hid
    rcases List.mem_map.mp hid with ⟨item, hitem, rfl⟩
    simpa using (List.mem_filter.mp hitem).2
  have hpendingNodup : (pendingIds pending).Nodup := by
    rw [hids]
    exact hnodup.sublist (List.Sublist.map _ List.filter_sublist)
  exact ⟨_, settled, pending, settled', candidates,
    ⟨perm_sortOn _ _, hnodup, hbefore, hreferences, hresolutions,
      settlePending_spec pending hpendingNodup hnew hsettle, rfl,
      buildVerifierBatches_perm hbatches⟩⟩

section Planned

variable {plan : GroundedVerificationPlan} {items : List EvidenceReference}
  {settled settled' : Dict Text VerificationVerdict} {pending : List Pending}
  {candidates : List GroundedCandidate}

theorem Planned.covers (h : Planned u sha256 evidence conflictClaimIds plan items settled pending
    settled' candidates) :
    (settled'.keys ++ candidates.map GroundedCandidate.claimId).Perm
      (evidence.map EvidenceReference.claimId) := by
  have hids : pendingIds pending = (unsettled items settled).map EvidenceReference.claimId := by
    rw [← h.references, List.map_map]
    rfl
  apply h.settles.covers.trans
  rw [List.map_nil, List.append_nil, hids]
  exact (settled_pending_perm h.distinct h.before.known).trans (h.perm.map _)

/-- Every settled verdict is the stored one of its own claim. -/
theorem Planned.own (h : Planned u sha256 evidence conflictClaimIds plan items settled pending
    settled' candidates) :
    ∀ claimId verdict, settled'.get? claimId = some verdict → verdict.claimId = claimId := by
  intro claimId verdict hget
  rcases h.settles.verdictFrom _ _ hget with hold | ⟨p, -, hid, hsettle⟩
  · exact h.before.own _ _ hold
  · rw [← hid]
    exact (settleClaim_claimId hsettle).1 verdict rfl

theorem Planned.mem_settled (h : Planned u sha256 evidence conflictClaimIds plan items settled
    pending settled' candidates) {verdict : VerificationVerdict} :
    verdict ∈ plan.settled ↔ settled'.get? verdict.claimId = some verdict := by
  rw [h.output, List.mem_map]
  constructor
  · intro hmem
    rcases hmem with ⟨⟨claimId, v⟩, hentry, rfl⟩
    have hget := Dict.get?_eq_some.mpr (mem_sortOn.mp hentry)
    rw [h.own _ _ hget]
    exact hget
  · intro hget
    exact ⟨(verdict.claimId, verdict), mem_sortOn.mpr (Dict.get?_eq_some.mp hget), rfl⟩

theorem Planned.settled_claimIds (h : Planned u sha256 evidence conflictClaimIds plan items settled
    pending settled' candidates) :
    (plan.settled.map VerificationVerdict.claimId).Perm settled'.keys := by
  have hkeys : (sortOn Prod.fst settled'.entries).map (fun e => e.2.claimId) =
      (sortOn Prod.fst settled'.entries).map Prod.fst := by
    apply List.map_congr_left
    intro e he
    exact h.own e.1 e.2 (Dict.get?_eq_some.mpr (mem_sortOn.mp he))
  rw [h.output, List.map_map]
  show List.Perm ((sortOn Prod.fst settled'.entries).map fun e => e.2.claimId) _
  rw [hkeys]
  exact (perm_sortOn _ _).map _

/-- A contested claim that lost, or whose conflict is open, is neither settled as verified nor
    sent to a model. -/
theorem Planned.contested (h : Planned u sha256 evidence conflictClaimIds plan items settled pending
    settled' candidates) {item : EvidenceReference} (hitem : item ∈ items)
    (hcontested : item.claimId ∈ groupClaims (namedGroups u items conflictClaimIds))
    (hlost : superseded plan.resolutions item.claimId = true ∨
      inOpenConflict plan.resolutions item.claimId = true) :
    (∀ verdict, settled'.get? item.claimId = some verdict → verdict.verdict ≠ .verified) ∧
      item.claimId ∉ candidates.map GroundedCandidate.claimId := by
  constructor
  · intro verdict hget hverified
    rcases h.settles.verdictFrom _ _ hget with hold | ⟨p, -, hid, hsettle⟩
    · -- nothing of a contested claim is resumed, so only an unsupported one is settled this early
      cases hsupported : item.supported with
      | true => exact h.before.uncontested item hitem hsupported hcontested (Dict.mem_keys_iff.mpr ⟨_, hold⟩)
      | false =>
        rw [(h.before.unsupported item hitem hsupported).2 verdict hold] at hverified
        cases hverified
    · rw [← hid] at hlost
      rcases settleClaim_contested hsettle hlost with ⟨v, hv, hne⟩
      cases hv
      exact hne hverified
  · intro hmem
    rcases List.mem_map.mp hmem with ⟨c, hc, hid⟩
    rcases h.settles.candidateFrom c hc with hnil | ⟨p, -, hsettle⟩
    · exact absurd hnil List.not_mem_nil
    · rw [← hid, (settleClaim_claimId hsettle).2 c rfl] at hlost
      rcases settleClaim_contested hsettle hlost with ⟨v, hv, -⟩
      cases hv

end Planned

end Plan

/-! ## 5. The pass -/

section PassResult

variable {W : Type} {verifier : Verifier W}
  {batchCompleted : VerifierProgress → Action W Failure PUnit}
  {evidence : List EvidenceReference} {conflictClaimIds : List Text}
  {existing : Dict Text StoredVerdict} {groundingVersion : ℕ}

variable {verdicts : List VerificationVerdict} {resolutions : List ConflictResolution}

/-- A claim the plan neither settles as verified nor sends is not verified. -/
theorem not_isVerified {plan : GroundedVerificationPlan} {items : List EvidenceReference}
    {settled settled' : Dict Text VerificationVerdict} {pending : List Pending}
    {candidates : List GroundedCandidate}
    (hplanned : Planned verifier.unicode verifier.sha256 evidence conflictClaimIds plan items settled
      pending settled' candidates) {answered : List VerificationVerdict}
    (hverdicts : verdicts.Perm (plan.settled ++ answered))
    (hanswered : (answered.map VerificationVerdict.claimId).Perm
      (plan.batches.flatten.map GroundedCandidate.claimId)) {item : EvidenceReference}
    (hsettled : ∀ verdict, settled'.get? item.claimId = some verdict → verdict.verdict ≠ .verified)
    (hsent : item.claimId ∉ candidates.map GroundedCandidate.claimId) : ¬IsVerified verdicts item := by
  intro h
  rcases h with ⟨verdict, hmem, hid, hverified⟩
  rcases List.mem_append.mp (hverdicts.mem_iff.mp hmem) with hin | hin
  · apply hsettled verdict _ hverified
    rw [← hid]
    exact hplanned.mem_settled.mp hin
  · apply hsent
    rw [← hid]
    have hbatch := hanswered.mem_iff.mp (List.mem_map_of_mem hin)
    exact (hplanned.sent.map _).mem_iff.mp hbatch

/-- One group: only the winning quantity, and nothing while the conflict is open. -/
theorem decidedGroup_of_decision {u : Unicode} {sha256 : Text → Text} {identity : ScopeIdentity}
    {claims group : List EvidenceReference} {decisive : List Text} {r : ConflictResolution} (hr : r ∈ resolutions)
    (hdecision : r.toDecision = decideGroup u sha256 identity claims decisive) (hperm : claims.Perm group)
    (hlosers : ∀ item ∈ group, superseded resolutions item.claimId = true ∨
      inOpenConflict resolutions item.claimId = true → ¬IsVerified verdicts item) :
    DecidedGroup u verdicts group r := by
  have hcases := @decideGroup_cases u sha256 identity claims decisive
  rw [← hdecision] at hcases
  constructor
  · exact hcases.1.trans (hperm.map _)
  · intro hstate
    rcases hcases.2 with hopen | ⟨-, winner, hwinner, hid, hothers⟩
    · rw [hopen.1] at hstate
      cases hstate
    · refine ⟨winner, hperm.mem_iff.mp hwinner, hid, ?_⟩
      intro item hitem hverified
      by_contra hne
      have hlost := hothers item (hperm.mem_iff.mpr hitem) hne
      exact hlosers item hitem (Or.inl (superseded_of_mem hr hlost)) hverified
  · intro hstate item hitem
    apply hlosers item hitem
    right
    apply inOpenConflict_of_mem hr hstate
    rw [hcases.1.mem_iff]
    exact List.mem_map_of_mem (hperm.mem_iff.mpr hitem)

/-- Decided groups leave one verified quantity for each scope. -/
theorem oneQuantity_of_decided {u : Unicode}
    (hdecided : ∀ g ∈ conflictGroups u evidence, ∃ r ∈ resolutions, DecidedGroup u verdicts g.2 r)
    {item other : EvidenceReference} (hitem : item ∈ evidence) (hother : other ∈ evidence)
    (hidentity : referenceIdentity u item = referenceIdentity u other) (hverified : IsVerified verdicts item)
    (hverified' : IsVerified verdicts other) : statedValue u item = statedValue u other := by
  by_contra hne
  rcases exists_conflictGroup hitem hother hidentity hne with ⟨g, hg, hin, hin'⟩
  rcases hdecided g hg with ⟨r, -, hr⟩
  cases hstate : r.state with
  | unresolved => exact hr.unresolved hstate item hin hverified
  | resolved =>
    rcases hr.resolved hstate with ⟨winner, -, -, hall⟩
    exact hne ((hall item hin hverified).trans (hall other hin' hverified').symm)

/-- A pass over evidence whose conflicts are the named ones is consistent and total. -/
theorem verify_consistent (verifier : Verifier W)
    (batchCompleted : VerifierProgress → Action W Failure PUnit)
    (evidence : List EvidenceReference) (conflictClaimIds : List Text)
    (existing : Dict Text StoredVerdict) (groundingVersion : ℕ) (w : W)
    (verdicts : List VerificationVerdict)
    (hconflicts : ∀ id, id ∈ conflictClaimIds ↔ id ∈ conflictMembers verifier.unicode evidence)
    (hreturns : (verifier.verify batchCompleted evidence conflictClaimIds existing
      groundingVersion).result w = .ok verdicts) :
    ∃ plan, (verifier.prepare evidence conflictClaimIds existing groundingVersion).result w =
        .ok plan ∧
      Consistent verifier.unicode evidence verdicts plan.resolutions := by
  rcases Action.result_bind_eq_ok.mp hreturns with ⟨plan, hplan, hprepared⟩
  refine ⟨plan, hplan, ?_⟩
  rcases planGroundedVerification_planned hplan with
    ⟨items, settled, pending, settled', candidates, hplanned⟩
  rcases verifyPrepared_spec hprepared with ⟨answered, hverdicts, hanswered⟩
  have hdecided : ∀ g ∈ conflictGroups verifier.unicode evidence, ∃ r ∈ plan.resolutions,
      DecidedGroup verifier.unicode verdicts g.2 r := by
    intro g hg
    rcases namedGroups_complete hplanned.perm (fun id hid => (hconflicts id).mpr hid) hg with
      ⟨claims, hnamed, hperm⟩
    rcases resolveConflicts_complete hplanned.decisions hnamed with ⟨r, hr, hdecision⟩
    refine ⟨r, hr, decidedGroup_of_decision hr hdecision hperm ?_⟩
    intro item hitem hlost
    have hin : item ∈ items := by
      rw [hplanned.perm.mem_iff]
      rw [(mem_conflictGroups.mp hg).1] at hitem
      exact (List.mem_filter.mp hitem).1
    have hcontested : item.claimId ∈
        groupClaims (namedGroups verifier.unicode items conflictClaimIds) :=
      List.mem_flatMap.mpr ⟨_, hnamed, List.mem_map_of_mem (hperm.mem_iff.mpr hitem)⟩
    have hboth := hplanned.contested hin hcontested hlost
    exact not_isVerified hplanned hverdicts hanswered hboth.1 hboth.2
  constructor
  · exact (hplanned.perm.map _).nodup_iff.mp hplanned.distinct
  · apply (hverdicts.map _).trans
    rw [List.map_append]
    apply List.Perm.trans _ hplanned.covers
    exact hplanned.settled_claimIds.append (hanswered.trans (hplanned.sent.map _))
  · exact hdecided
  · intro item hitem other hother hidentity hverified hverified'
    exact oneQuantity_of_decided hdecided hitem hother hidentity hverified hverified'

end PassResult

/-! ## 6. A registry against a forum -/

section Example

/-- A claim of a displacement in cubic centimetres. -/
def displacementClaim (name : Char) (sourceId : String) (cc : ℤ) : EvidenceReference where
  claimId := [name]
  sourceId := sourceId.toList
  runId := "run".toList
  taskId := "task".toList
  entity := "Tucson".toList
  field := "engine_displacement_cc".toList
  geography := none
  market := none
  timeScope := []
  value := .int cc
  unit := some "cc".toList
  locator := none
  sourceVersion := none
  identity := []
  confidence := ⟨false, 9, -1, Or.inl (by decide)⟩
  supported := true
  named := List.cons_ne_nil _ _

/-- Two sources contradict each other on the displacement; a third claim is free text. -/
def displacementEvidence : List EvidenceReference :=
  [displacementClaim 'a' "registry" 1598, displacementClaim 'b' "forum" 1600,
    { displacementClaim 'c' "forum" 5 with field := "seats".toList, unit := none }]

def displacementLocator : Text :=
  "[\"record_field\",\"r1\",[\"engine_displacement_cc\"],null,null,null]".toList

def displacementFact : StructuredSourceFact where
  factId := "f1".toList
  sourceId := "registry".toList
  taskId := "task".toList
  field := "engine_displacement_cc".toList
  entity := "tucson".toList
  value := .int 1598
  unit := some "cm3".toList
  geography := none
  market := none
  timeScope := none
  identity := []
  locator := some displacementLocator
  named := by decide

def displacementFragment : SourceFragment where
  fragmentIndex := 0
  contentHash := "58819e9da74f6be0b51df89cb5041dfdc05bb46be3c753d2d365d4afec039b34".toList
  text := "engine_displacement_cc: 1598 cc".toList
  fragmentType := some "structured_projection".toList
  locator := some displacementLocator
  fragmentId := none
  indexed := by decide
  hashed := by decide +kernel
  bounded := by decide +kernel
  whole := by simp

def seatsFragment : SourceFragment where
  fragmentIndex := 0
  contentHash := "8733726972665ec3d13e088488b488d420101d2852b5a405d86f80d2922865c3".toList
  text := "seats five".toList
  fragmentType := none
  locator := none
  fragmentId := none
  indexed := by decide
  hashed := by decide +kernel
  bounded := by decide +kernel
  whole := by simp

def registrySource : ResolvedSourceEvidence where
  sourceId := "registry".toList
  taskId := "task".toList
  url := "registry".toList
  title := "Registry".toList
  domain := "registry".toList
  sourceType := "government_registry".toList
  sourceStrength := "official".toList
  sourceDate := none
  sourceVersion := none
  fragments := [displacementFragment]
  facts := [displacementFact]
  named := by decide
  fewFragments := by decide
  fewChars := by decide +kernel
  distinctFragments := List.nodup_singleton _
  fewFacts := by decide
  ownFacts := by
    intro fact hfact
    rw [List.mem_singleton.mp hfact]
    exact ⟨rfl, rfl⟩
  distinctFacts := List.nodup_singleton _

def forumSource : ResolvedSourceEvidence where
  sourceId := "forum".toList
  taskId := "task".toList
  url := "forum".toList
  title := "Forum".toList
  domain := "forum".toList
  sourceType := "forum".toList
  sourceStrength := "weak".toList
  sourceDate := none
  sourceVersion := none
  fragments := [seatsFragment]
  facts := []
  named := by decide
  fewFragments := by decide
  fewChars := by decide +kernel
  distinctFragments := List.nodup_singleton _
  fewFacts := by decide
  ownFacts := by
    intro fact hfact
    exact absurd hfact List.not_mem_nil
  distinctFacts := List.nodup_nil

/-- A model that verifies the seats from the fragment it was sent. -/
def seatsAnswer : ResponseContent :=
  .document [("verdicts".toList, .arr [.obj [("claim_id".toList, .str "c".toList),
    ("verdict".toList, .str "verified".toList),
    ("supporting_fragment_refs".toList, .arr [.str "f0-0".toList])]])]

def displacementVerifier : Verifier Unit where
  unicode := asciiUnicode
  -- the digest of the one scope that is hashed
  sha256 := fun _ => "417b9e3abfc757be6a0eab7062c925b07f4a1ad27deea73a2b784612f0c71cf7".toList
  resolve := fun _ => pure fun sourceId =>
    if sourceId = "registry".toList then some registrySource
    else if sourceId = "forum".toList then some forumSource else none
  call := fun _ _ => pure (.answer seatsAnswer)
  retryCallback := fun _ => pure ⟨⟩
  initialShape := ⟨24000, "high"⟩
  escalate := fun _ => none

/-- The registry settles the contradiction: its claim is verified, the other one superseded. -/
theorem verify_consistent_registry :
    ∃ verdicts, (displacementVerifier.verify (fun _ => pure ⟨⟩) displacementEvidence
        (conflictMembers asciiUnicode displacementEvidence) Dict.empty 1).result () = .ok verdicts ∧
      verdicts.map (fun v => (v.claimId, v.verdict)) =
        [(['a'], .verified), (['b'], .rejected), (['c'], .verified)] ∧
      ∃ plan, (displacementVerifier.prepare displacementEvidence
          (conflictMembers asciiUnicode displacementEvidence) Dict.empty 1).result () = .ok plan ∧
        Consistent asciiUnicode displacementEvidence verdicts plan.resolutions := by
  have hrun : ((displacementVerifier.verify (fun _ => pure ⟨⟩) displacementEvidence
      (conflictMembers asciiUnicode displacementEvidence) Dict.empty 1).result ()).toOption.map
        (List.map fun v => (v.claimId, v.verdict)) =
      some [(['a'], .verified), (['b'], .rejected), (['c'], .verified)] := by decide +kernel
  cases hresult : (displacementVerifier.verify (fun _ => pure ⟨⟩) displacementEvidence
      (conflictMembers asciiUnicode displacementEvidence) Dict.empty 1).result () with
  | error e =>
    rw [hresult] at hrun
    cases hrun
  | ok verdicts =>
    rw [hresult] at hrun
    exact ⟨verdicts, rfl, Option.some.inj hrun, verify_consistent displacementVerifier _
      displacementEvidence _ Dict.empty 1 () verdicts (fun _ => Iff.rfl) hresult⟩

end Example

end Milo.Swarm
