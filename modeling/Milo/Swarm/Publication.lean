import Milo.Swarm.Consistency
import Milo.Swarm.Verification

/-!
# Publication — when a contested claim stays unpublished

A pass that commits its plan never returns a contested claim as verified, however it ends.  A pass
that ends before the commit goes on with the verdicts of the pass before, and with whatever these
say about a claim that has been contested since.
-/

namespace Milo.Swarm

open Milo.Python Milo.Reasoning

/-! ## 1. Contested claims -/

/-- The claim stands in a conflict group of the evidence. -/
def Contested (u : Unicode) (evidence : List EvidenceReference) (item : EvidenceReference) : Prop :=
  ∃ g ∈ conflictGroups u evidence, item ∈ g.2

/-- A decision was taken in favour of the claim: it won, or states what the winner states. -/
def ResolvedFor (resolutions : List ConflictResolution) (item : EvidenceReference) : Prop :=
  ∃ r ∈ resolutions, item.claimId ∈ r.claimIds ∧
    (r.stateOf item.claimId = .resolved ∨ r.stateOf item.claimId = .corroborating)

/-- No claim of `lost` is returned as verified, nor appears in the fields built from the verdicts. -/
structure Unpublished (lost : EvidenceReference → Prop) (evidence : List EvidenceReference)
    (verdicts : List VerificationVerdict) : Prop where
  unverified : ∀ item, lost item → ∀ v ∈ verdicts, v.claimId = item.claimId →
    v.verdict ≠ .verified
  absent : ∀ item, lost item → ¬AppearsIn (buildFields evidence verdicts) item.claimId

section Stored

variable {lost : EvidenceReference → Prop} {evidence : List EvidenceReference}

/-- The verdict verifies no claim of `lost`. -/
def Safe (lost : EvidenceReference → Prop) (v : VerificationVerdict) : Prop :=
  ∀ item, lost item → v.claimId = item.claimId → v.verdict ≠ .verified

/-- No claim of `lost` is verified, and each is refused in so many words. -/
structure Clean (lost : EvidenceReference → Prop) (verdicts : List VerificationVerdict) : Prop where
  safe : ∀ v ∈ verdicts, Safe lost v
  refused : ∀ item, lost item → strip item.claimId = item.claimId →
    ∃ v ∈ verdicts, strip v.claimId = item.claimId ∧ v.verdict ≠ .verified

variable {verdicts : List VerificationVerdict} {state : SwarmState}

theorem Clean.unpublished (h : Clean lost verdicts) : Unpublished lost evidence verdicts := by
  constructor
  · exact fun item hlost v hv hid => h.safe v hv item hlost hid
  · intro item hlost happears
    rcases appearsIn_buildFields.mp happears with ⟨other, -, hid, -, hne, hall⟩
    rcases List.exists_mem_of_ne_nil _ hne with ⟨v, hv⟩
    have hstrip : strip v.claimId = item.claimId := by simpa using (List.mem_filter.mp hv).2
    have htrimmed : strip item.claimId = item.claimId := by rw [← hstrip, strip_strip]
    rcases h.refused item hlost htrimmed with ⟨w, hw, hwid, hrefused⟩
    exact hrefused (hall w (List.mem_filter.mpr ⟨hw, by simpa using hwid⟩))

/-! ## 2. What the checkpoint holds -/

/-- The checkpoint holds the verdict for this evidence set. -/
def HeldFor (state : SwarmState) (evidence : List EvidenceReference) (v : VerificationVerdict) :
    Prop :=
  state.verifierGroundingVersion = verifierGroundingVersion ∧
    ∃ key ∈ evidence.map EvidenceReference.claimId, state.verifierState.get? key = some (some v)

theorem mem_settledVerdicts {v : VerificationVerdict} :
    v ∈ state.settledVerdicts evidence ↔ HeldFor state evidence v := by
  unfold SwarmState.settledVerdicts HeldFor
  by_cases hversion : state.verifierGroundingVersion = verifierGroundingVersion
  · rw [if_neg (not_not.mpr hversion), List.mem_filterMap]
    constructor
    · intro h
      rcases h with ⟨⟨key, stored⟩, hentry, hheld⟩
      simp only at hheld
      split at hheld
      · rename_i hkey
        rw [hheld] at hentry
        exact ⟨hversion, key, by simpa using hkey, Dict.get?_eq_some.mpr (mem_sortOn.mp hentry)⟩
      · cases hheld
    · intro h
      rcases h.2 with ⟨key, hkey, hget⟩
      exact ⟨(key, some v), mem_sortOn.mpr (Dict.get?_eq_some.mp hget),
        if_pos (by simpa using hkey)⟩
  · rw [if_pos hversion]
    constructor
    · exact fun h => absurd h List.not_mem_nil
    · exact fun h => absurd h.1 hversion

/-- The checkpoint is grounded, verifies no claim of `lost` and holds a refusal of each. -/
structure StateClean (lost : EvidenceReference → Prop) (state : SwarmState) : Prop where
  grounded : state.verifierGroundingVersion = verifierGroundingVersion
  safe : ∀ key v, state.verifierState.get? key = some (some v) → Safe lost v
  refused : ∀ item, lost item → strip item.claimId = item.claimId →
    ∃ v, state.verifierState.get? item.claimId = some (some v) ∧
      strip v.claimId = item.claimId ∧ v.verdict ≠ .verified

theorem StateClean.settled (h : StateClean lost state) (hlost : ∀ item, lost item → item ∈ evidence) :
    Clean lost (state.settledVerdicts evidence) := by
  constructor
  · intro v hv
    rcases (mem_settledVerdicts.mp hv).2 with ⟨key, -, hget⟩
    exact h.safe key v hget
  · intro item hitem htrimmed
    rcases h.refused item hitem htrimmed with ⟨v, hget, hid, hrefused⟩
    exact ⟨v, mem_settledVerdicts.mpr
      ⟨h.grounded, _, List.mem_map_of_mem (hlost item hitem), hget⟩, hid, hrefused⟩

/-- Storing a verdict that verifies no claim of `lost` keeps the checkpoint clean. -/
theorem StateClean.storeVerdict (h : StateClean lost state) {v : VerificationVerdict} (hv : Safe lost v) :
    StateClean lost (state.storeVerdict v) := by
  constructor
  · exact h.grounded
  · intro key w hget
    change (state.verifierState.set v.claimId (some v)).get? key = _ at hget
    rw [Dict.get?_set] at hget
    split at hget
    · cases hget
      exact hv
    · exact h.safe key w hget
  · intro item hitem htrimmed
    show ∃ w, (state.verifierState.set v.claimId (some v)).get? item.claimId = _ ∧ _
    rw [Dict.get?_set]
    by_cases hid : item.claimId = v.claimId
    · rw [if_pos hid]
      exact ⟨v, rfl, by rw [← hid, htrimmed], hv item hitem hid.symm⟩
    · rw [if_neg hid]
      exact h.refused item hitem htrimmed

theorem StateClean.storeAll (hsafe : ∀ v ∈ verdicts, Safe lost v) (h : StateClean lost state) :
    StateClean lost (verdicts.foldl SwarmState.storeVerdict state) := by
  induction verdicts generalizing state with
  | nil => exact h
  | cons v rest ih =>
    rw [List.foldl_cons]
    apply ih (fun w hw => hsafe w (List.mem_cons_of_mem _ hw))
    exact h.storeVerdict (hsafe v List.mem_cons_self)

/-- The verdicts of a clean pass leave a clean checkpoint. -/
theorem StateClean.complete (h : StateClean lost state) (hclean : Clean lost verdicts)
    (hnamed : ∀ item, lost item → item.claimId ≠ []) : StateClean lost (state.complete verdicts) := by
  have hentries : (Dict.ofList ((currentVerdictByClaim verdicts).entries.map fun e =>
      (e.1, some e.2)) : Dict Text StoredVerdict).entries =
        (currentVerdictByClaim verdicts).entries.map fun e => (e.1, some e.2) := by
    apply Dict.entries_ofList
    rw [List.map_map]
    exact (currentVerdictByClaim verdicts).nodup
  have hget : ∀ key v, (state.complete verdicts).verifierState.get? key = some (some v) ↔
      (currentVerdictByClaim verdicts).get? key = some v := by
    intro key v
    show (Dict.ofList _).get? key = _ ↔ _
    rw [Dict.get?_eq_some, hentries, Dict.get?_eq_some, List.mem_map]
    constructor
    · intro hmem
      rcases hmem with ⟨e, he, heq⟩
      cases heq
      exact he
    · exact fun hmem => ⟨_, hmem, rfl⟩
  constructor
  · exact h.grounded
  · intro key v hstored
    have hcurrent := (get?_currentVerdictByClaim.mp ((hget key v).mp hstored)).2
    exact hclean.safe v (List.mem_filter.mp (currentOf_eq_some hcurrent).1).1
  · intro item hitem htrimmed
    rcases hclean.refused item hitem htrimmed with ⟨w, hw, hwid, hrefused⟩
    have hmem : w ∈ verdictsFor verdicts item.claimId :=
      List.mem_filter.mpr ⟨hw, by simpa using hwid⟩
    rcases currentOf_isSome (List.ne_nil_of_mem hmem) with ⟨v, hcurrent⟩
    have hv := currentOf_eq_some hcurrent
    refine ⟨v, (hget _ _).mpr (get?_currentVerdictByClaim.mpr ⟨hnamed item hitem, hcurrent⟩),
      by simpa using (List.mem_filter.mp hv.1).2, ?_⟩
    exact fun hverified => hrefused (hv.2 hverified w hmem)

/-- What a plan settles for the claims of `lost`: each is refused, and none is sent to a model. -/
structure PlanClean (lost : EvidenceReference → Prop) (plan : GroundedVerificationPlan) : Prop where
  distinct : (plan.settled.map VerificationVerdict.claimId).Nodup
  safe : ∀ v ∈ plan.settled, Safe lost v
  answered : ∀ item, lost item → ∃ v ∈ plan.settled, v.claimId = item.claimId
  unsent : ∀ item, lost item →
    item.claimId ∉ plan.batches.flatten.map GroundedCandidate.claimId

theorem PlanClean.commit {plan : GroundedVerificationPlan} (h : PlanClean lost plan)
    (state : SwarmState) : StateClean lost (state.commit plan) := by
  have hentries : (Dict.ofList (plan.settled.map fun v => (v.claimId, some v)) :
      Dict Text StoredVerdict).entries = plan.settled.map fun v => (v.claimId, some v) := by
    apply Dict.entries_ofList
    rw [List.map_map]
    exact h.distinct
  have hget : ∀ key v, (state.commit plan).verifierState.get? key = some (some v) ↔
      v ∈ plan.settled ∧ v.claimId = key := by
    intro key v
    show (Dict.ofList _).get? key = _ ↔ _
    rw [Dict.get?_eq_some, hentries, List.mem_map]
    constructor
    · intro hmem
      rcases hmem with ⟨w, hw, heq⟩
      cases heq
      exact ⟨hw, rfl⟩
    · intro hmem
      exact ⟨v, hmem.1, by rw [hmem.2]⟩
  constructor
  · rfl
  · exact fun key v hstored => h.safe v ((hget key v).mp hstored).1
  · intro item hitem htrimmed
    rcases h.answered item hitem with ⟨v, hv, hid⟩
    exact ⟨v, (hget _ _).mpr ⟨hv, hid⟩, by rw [hid, htrimmed], h.safe v hv item hitem hid⟩

/-- The verdicts of a clean plan with the answers of its batches are clean. -/
theorem PlanClean.clean {plan : GroundedVerificationPlan} (h : PlanClean lost plan)
    {verdicts answered : List VerificationVerdict} (hperm : verdicts.Perm (plan.settled ++ answered))
    (hanswered : ∀ v ∈ answered, Safe lost v) : Clean lost verdicts := by
  have hsafe : ∀ v ∈ verdicts, Safe lost v := by
    intro v hv
    rcases List.mem_append.mp (hperm.mem_iff.mp hv) with hsettled | hnew
    · exact h.safe v hsettled
    · exact hanswered v hnew
  refine ⟨hsafe, ?_⟩
  intro item hitem htrimmed
  rcases h.answered item hitem with ⟨v, hv, hid⟩
  have hin := hperm.mem_iff.mpr (List.mem_append_left answered hv)
  exact ⟨v, hin, by rw [hid, htrimmed], hsafe v hin item hitem hid⟩

end Stored

/-! ## 3. From the commit on -/

section Committed

variable {X : Type} {engine : Engine X} {lost : EvidenceReference → Prop}

/-- Whatever a step does, it keeps the checkpoint clean. -/
abbrev KeepsClean (lost : EvidenceReference → Prop) {α : Type} (c : Step X α) : Prop :=
  Action.Relates (fun w w' : SwarmState × X => StateClean lost w.1 → StateClean lost w'.1) c

theorem keepsClean_trans (a b c : SwarmState × X)
    (hab : StateClean lost a.1 → StateClean lost b.1)
    (hbc : StateClean lost b.1 → StateClean lost c.1) :
    StateClean lost a.1 → StateClean lost c.1 := fun h => hbc (hab h)

theorem keepsClean_outside {α : Type} (c : Action X Failure α) :
    KeepsClean lost (Action.outside c : Step X α) := fun _ h => h

theorem keepsClean_update {f : SwarmState → SwarmState}
    (h : ∀ state, StateClean lost state → StateClean lost (f state)) :
    KeepsClean lost (Engine.update f : Step X PUnit) := fun w => h w.1

theorem keepsClean_bind {α β : Type} {c : Step X α} {f : α → Step X β} (hc : KeepsClean lost c)
    (hf : ∀ a, KeepsClean lost (f a)) : KeepsClean lost (c >>= f) :=
  Action.relates_bind keepsClean_trans hc hf

theorem keepsClean_pure {α : Type} (a : α) : KeepsClean lost (pure a : Step X α) := fun _ h => h

theorem keepsClean_runState : KeepsClean lost (Engine.runState : Step X SwarmState) :=
  fun _ h => h

theorem keepsClean_persistVerdicts (verdicts : List VerificationVerdict) :
    KeepsClean lost (engine.persistVerdicts verdicts) := by
  induction verdicts with
  | nil => exact fun _ h => h
  | cons v rest ih => exact keepsClean_bind (keepsClean_outside _) fun _ => ih

theorem keepsClean_announceResolutions (resolutions : List ConflictResolution) :
    KeepsClean lost (engine.announceResolutions resolutions) := by
  induction resolutions with
  | nil => exact fun _ h => h
  | cons r rest ih =>
    exact keepsClean_bind (keepsClean_outside _) fun _ =>
      keepsClean_bind (keepsClean_outside _) fun _ => ih

theorem keepsClean_refreshUsage : KeepsClean lost engine.refreshUsage := by
  apply keepsClean_bind (keepsClean_outside _)
  intro usage
  apply keepsClean_update
  exact fun state h => ⟨h.grounded, h.safe, h.refused⟩

theorem keepsClean_saveState : KeepsClean lost engine.saveState := by
  apply keepsClean_bind keepsClean_runState
  exact fun state => keepsClean_outside _

/-- Recording verdicts that verify no claim of `lost` keeps the checkpoint clean. -/
theorem keepsClean_record {progress : VerifierProgress}
    (hsafe : ∀ v ∈ progress.verdicts, Safe lost v) : KeepsClean lost (engine.record progress) := by
  apply keepsClean_bind
  · apply keepsClean_update
    exact fun state h => h.storeAll hsafe
  · intro _
    apply keepsClean_bind (keepsClean_persistVerdicts _)
    intro _
    apply keepsClean_bind keepsClean_refreshUsage
    intro _
    apply keepsClean_bind keepsClean_saveState
    intro _
    unfold Engine.announceBatch
    exact Action.relates_ite (keepsClean_outside _) (keepsClean_pure _)

/-- One batch leaves the run state alone and answers for its own claims. -/
theorem verifyBatch_keeps (batch : List GroundedCandidate) :
    Action.Relates (fun w w' => w'.1 = w.1) (engine.stepVerifier.verifyBatch batch) := by
  have htrans : ∀ a b c : SwarmState × X, b.1 = a.1 → c.1 = b.1 → c.1 = a.1 :=
    fun a b c hab hbc => hbc.trans hab
  have hagain : ∀ payload shape, Action.Relates (fun w w' : SwarmState × X => w'.1 = w.1)
      (engine.stepVerifier.askAgain payload shape) := by
    intro payload shape
    apply Action.relates_bind htrans (Action.relates_outside _)
    intro reply
    cases reply <;> exact fun _ => rfl
  apply Action.relates_bind htrans
  · apply Action.relates_bind htrans (Action.relates_outside _)
    intro reply
    cases reply with
    | answer content => exact fun _ => rfl
    | shapeInvalid => exact fun _ => rfl
    | failed code =>
      -- a repair asks once more
      dsimp only
      split
      · exact fun _ => rfl
      · exact Action.relates_bind htrans (Action.relates_outside _) fun _ => hagain _ _
  · intro content
    apply Action.relates_bind htrans (fun _ => rfl)
    intro resolved
    apply Action.relates_bind htrans (fun _ => rfl)
    exact fun _ _ => rfl

/-- Batches that hold none of the claims of `lost` keep the checkpoint clean on every exit. -/
theorem runBatches_clean {count : ℕ} : ∀ (batches : List (List GroundedCandidate)) {index : ℕ}
    {w : SwarmState × X}, StateClean lost w.1 →
    (∀ item, lost item → item.claimId ∉ batches.flatten.map GroundedCandidate.claimId) →
    (engine.stepVerifier.runBatches engine.record count batches index).Ensures w fun r w' =>
      StateClean lost w'.1 ∧ ∀ verdicts, r = .ok verdicts → ∀ v ∈ verdicts, Safe lost v := by
  intro batches
  induction batches with
  | nil =>
    intro index w hclean _
    apply Action.ensures_pure
    refine ⟨hclean, ?_⟩
    intro verdicts heq v hv
    cases heq
    exact absurd hv List.not_mem_nil
  | cons batch rest ih =>
    intro index w hclean hunsent
    have hunsentRest : ∀ item, lost item →
        item.claimId ∉ rest.flatten.map GroundedCandidate.claimId := by
      intro item hitem hmem
      apply hunsent item hitem
      rw [List.flatten_cons, List.map_append]
      exact List.mem_append_right _ hmem
    have hbatch : (engine.stepVerifier.verifyBatch batch).Ensures w fun r w' =>
        StateClean lost w'.1 ∧ ∀ verdicts, r = .ok verdicts → ∀ v ∈ verdicts, Safe lost v := by
      constructor
      · rw [verifyBatch_keeps batch w]
        exact hclean
      · intro verdicts hok v hv item hitem hid
        exfalso
        apply hunsent item hitem
        rw [← hid, List.flatten_cons, List.map_append]
        apply List.mem_append_left
        exact (verifyBatch_claimIds hok).mem_iff.mp (List.mem_map_of_mem hv)
    apply hbatch.bind
    · intro resolved w' hresolved
      have hrecord : (engine.record ⟨resolved, index, count, resolved.length⟩).Ensures w'
          fun _ w'' => StateClean lost w''.1 :=
        keepsClean_record (hresolved.2 resolved rfl) w' hresolved.1
      apply hrecord.bind
      · intro _ w'' hclean''
        apply (ih hclean'' hunsentRest).bind
        · intro others w₃ hothers
          apply Action.ensures_pure
          refine ⟨hothers.1, ?_⟩
          intro verdicts heq v hv
          cases heq
          rcases List.mem_append.mp hv with hnew | hold
          · exact hresolved.2 resolved rfl v hnew
          · exact hothers.2 others rfl v hold
        · exact fun e w₃ hraised => ⟨hraised.1, fun _ heq => by cases heq⟩
      · exact fun e w'' hclean'' => ⟨hclean'', fun _ heq => by cases heq⟩
    · exact fun e w' hraised => ⟨hraised.1, fun _ heq => by cases heq⟩

variable {plan : GroundedVerificationPlan}

/-- Executing a clean plan: a clean checkpoint on every exit, and a clean list if it returns. -/
theorem verifyPrepared_clean (hplan : PlanClean lost plan) {w : SwarmState × X} (hclean : StateClean lost w.1) :
    (engine.stepVerifier.verifyPrepared engine.record plan).Ensures w fun r w' =>
      StateClean lost w'.1 ∧ ∀ verdicts, r = .ok verdicts → Clean lost verdicts := by
  have hannounce : (Verifier.announce engine.record plan).Ensures w
      fun _ w' => StateClean lost w'.1 := by
    unfold Verifier.announce
    have hkeeps : KeepsClean lost (if plan.batches.isEmpty = true then pure ⟨⟩
        else engine.record ⟨plan.settled, 0, plan.batches.length, plan.settled.length⟩) :=
      Action.relates_ite (keepsClean_pure _) (keepsClean_record hplan.safe)
    exact hkeeps w hclean
  apply hannounce.bind
  · intro _ w' hclean'
    apply (runBatches_clean plan.batches hclean' hplan.unsent).bind
    · intro answered w'' hanswered
      apply Action.ensures_pure
      refine ⟨hanswered.1, ?_⟩
      intro verdicts heq
      cases heq
      exact hplan.clean (perm_sortOn _ _) (hanswered.2 answered rfl)
    · exact fun e w'' hraised => ⟨hraised.1, fun _ heq => by cases heq⟩
  · exact fun e w' hclean' => ⟨hclean', fun _ heq => by cases heq⟩

/-- From the commit of a clean plan on, every exit leaves a clean checkpoint, and what is returned
    is clean. -/
theorem executePass_clean (hplan : PlanClean lost plan) (hnamed : ∀ item, lost item → item.claimId ≠ [])
    (w : SwarmState × X) :
    (engine.executePass plan).Ensures w fun r w' =>
      StateClean lost w'.1 ∧ ∀ result, r = .ok result → Clean lost result.2 := by
  apply Action.ensures_modify_bind
  have hcommitted : StateClean lost (w.1.commit plan) := hplan.commit w.1
  have hresolutions : (engine.announceResolutions plan.resolutions).Ensures (w.1.commit plan, w.2)
      fun _ w' => StateClean lost w'.1 := keepsClean_announceResolutions _ _ hcommitted
  apply hresolutions.bind
  · intro _ w₁ hclean₁
    have hemit : (Action.outside (engine.emit "grounding_context_resolved") : Step X PUnit).Ensures
        w₁ fun _ w' => StateClean lost w'.1 := hclean₁
    apply hemit.bind
    · intro _ w₂ hclean₂
      apply (verifyPrepared_clean hplan hclean₂).bind
      · intro verdicts w₃ hverdicts
        have hlist := hverdicts.2 verdicts rfl
        apply Action.ensures_modify_bind
        have hcomplete : StateClean lost (w₃.1.complete verdicts) :=
          hverdicts.1.complete hlist hnamed
        -- the rest writes the usage only, and returns the verdicts it was given
        constructor
        · refine keepsClean_bind (keepsClean_persistVerdicts _) (fun _ => ?_) _ hcomplete
          apply keepsClean_bind keepsClean_refreshUsage
          intro _
          apply keepsClean_bind (keepsClean_outside _)
          intro _
          apply keepsClean_bind keepsClean_saveState
          exact fun _ => keepsClean_pure _
        · intro result hok
          rcases Action.result_bind_eq_ok.mp hok with ⟨_, -, hok⟩
          rcases Action.result_bind_eq_ok.mp hok with ⟨_, -, hok⟩
          rcases Action.result_bind_eq_ok.mp hok with ⟨_, -, hok⟩
          rcases Action.result_bind_eq_ok.mp hok with ⟨_, -, hok⟩
          cases hok
          exact hlist
      · exact fun e w₃ hraised => ⟨hraised.1, fun _ heq => by cases heq⟩
    · exact fun e w₂ hclean₂ => ⟨hclean₂, fun _ heq => by cases heq⟩
  · exact fun e w₁ hclean₁ => ⟨hclean₁, fun _ heq => by cases heq⟩

end Committed

/-! ## 4. The plan of a pass -/

section PlanOfPass

variable {X : Type} {engine : Engine X} {evidence : List EvidenceReference}

/-- A claim no decision favours has lost its conflict, or the conflict is open. -/
theorem against_of_not_resolvedFor {resolutions : List ConflictResolution}
    {item : EvidenceReference} (hno : ¬ResolvedFor resolutions item) {r : ConflictResolution}
    (hr : r ∈ resolutions) (hin : item.claimId ∈ r.claimIds) :
    superseded resolutions item.claimId = true ∨ inOpenConflict resolutions item.claimId = true := by
  cases hstate : r.stateOf item.claimId with
  | resolved => exact absurd ⟨r, hr, hin, Or.inl hstate⟩ hno
  | corroborating => exact absurd ⟨r, hr, hin, Or.inr hstate⟩ hno
  | superseded =>
    left
    unfold superseded
    rw [List.any_eq_true]
    exact ⟨r, hr, by simp [hin, hstate]⟩
  | unresolved =>
    right
    apply inOpenConflict_of_mem hr _ hin
    unfold Decision.stateOf at hstate
    split at hstate
    · cases hstate
    · split at hstate
      · cases hstate
      · split at hstate
        · cases hstate
        · rename_i hopen
          cases hr' : r.state with
          | unresolved => rfl
          | resolved => exact absurd hr' hopen

variable {plan : GroundedVerificationPlan}

/-- A plan over the members of the conflict groups is clean for the claims it does not favour. -/
theorem planClean_of_prepare {u : Unicode} {sha256 : Text → Text}
    {resolve : List EvidenceReference → Action X Failure (Text → Option ResolvedSourceEvidence)}
    {bounds : VerifierBounds} {existing : Dict Text StoredVerdict} {groundingVersion : ℕ} {x : X}
    (h : (planGroundedVerification u sha256 resolve bounds evidence (conflictMembers u evidence)
      existing groundingVersion).result x = .ok plan) :
    PlanClean (fun item => Contested u evidence item ∧ ¬ResolvedFor plan.resolutions item) plan := by
  rcases planGroundedVerification_planned h with
    ⟨items, settled, pending, settled', candidates, hplanned⟩
  have hlost : ∀ item, Contested u evidence item → ¬ResolvedFor plan.resolutions item →
      item ∈ evidence ∧ (∀ verdict, settled'.get? item.claimId = some verdict →
        verdict.verdict ≠ .verified) ∧ item.claimId ∉ candidates.map GroundedCandidate.claimId := by
    intro item hcontested hno
    rcases hcontested with ⟨g, hg, hitem⟩
    rcases namedGroups_complete hplanned.perm (fun id hid => hid) hg with ⟨claims, hnamed, hperm⟩
    rcases resolveConflicts_complete hplanned.decisions hnamed with ⟨r, hr, hdecision⟩
    have hin : item ∈ evidence := by
      rw [(mem_conflictGroups.mp hg).1] at hitem
      exact (List.mem_filter.mp hitem).1
    have hmem : item.claimId ∈ claims.map EvidenceReference.claimId :=
      List.mem_map_of_mem (hperm.mem_iff.mpr hitem)
    have hclaims : item.claimId ∈ r.claimIds := by
      rw [hdecision, (decideGroup_cases _ _ _).1.mem_iff]
      exact hmem
    refine ⟨hin, hplanned.contested (hplanned.perm.mem_iff.mpr hin)
      (List.mem_flatMap.mpr ⟨_, hnamed, hmem⟩) (against_of_not_resolvedFor hno hr hclaims)⟩
  constructor
  · exact hplanned.settled_claimIds.nodup_iff.mpr settled'.keys_nodup
  · intro v hv item hitem hid
    apply (hlost item hitem.1 hitem.2).2.1
    rw [← hid]
    exact hplanned.mem_settled.mp hv
  · intro item hitem
    have hfacts := hlost item hitem.1 hitem.2
    have hcovered := hplanned.covers.mem_iff.mpr
      (List.mem_map_of_mem (f := EvidenceReference.claimId) hfacts.1)
    rcases List.mem_append.mp hcovered with hkey | hsent
    · rcases Dict.mem_keys_iff.mp hkey with ⟨v, hget⟩
      have hid := hplanned.own _ _ hget
      exact ⟨v, hplanned.mem_settled.mpr (by rw [hid]; exact hget), hid⟩
    · exact absurd hsent hfacts.2.2
  · intro item hitem hmem
    apply (hlost item hitem.1 hitem.2).2.2
    exact (hplanned.sent.map _).mem_iff.mp hmem

theorem preparePass_planned {conflictIds : List Text} {w : SwarmState × X}
    (h : (engine.preparePass evidence conflictIds).result w = .ok plan) :
    (engine.verifier.prepare evidence conflictIds w.1.verifierState
      w.1.verifierGroundingVersion).result w.2 = .ok plan := by
  rcases Action.result_bind_eq_ok.mp h with ⟨state, hstate, h⟩
  rcases Action.result_bind_eq_ok.mp h with ⟨planned, hplanned, h⟩
  rcases Action.result_bind_eq_ok.mp h with ⟨calls, -, h⟩
  rcases Action.result_bind_eq_ok.mp h with ⟨_, -, h⟩
  cases hstate
  cases h
  exact hplanned

theorem preparePass_keeps (conflictIds : List Text) :
    Action.Relates (fun w w' => w'.1 = w.1) (engine.preparePass evidence conflictIds) := by
  have htrans : ∀ a b c : SwarmState × X, b.1 = a.1 → c.1 = b.1 → c.1 = a.1 :=
    fun a b c hab hbc => hbc.trans hab
  apply Action.relates_bind htrans (fun _ => rfl)
  intro state
  apply Action.relates_bind htrans (Action.relates_outside _)
  intro plan
  apply Action.relates_bind htrans (Action.relates_outside _)
  intro calls
  apply Action.relates_bind htrans (fun _ => rfl)
  exact fun _ _ => rfl

end PlanOfPass

/-! ## 5. Every way the step can end -/

section Ends

variable {X : Type} (engine : Engine X) (evidence : List EvidenceReference)

/-- The plan the pass commits, if it gets that far: the step is not already recorded as degraded,
    the plan is made and its batches can be paid for. -/
def Engine.committedPlan (w : SwarmState × X) : Option GroundedVerificationPlan :=
  if Engine.alreadyDegraded w.1 then none
  else ((engine.preparePass evidence
    (conflictMembers engine.verifier.unicode evidence)).result w).toOption

/-- The decisions of the current pass. -/
def Engine.passResolutions (w : SwarmState × X) : List ConflictResolution :=
  ((engine.committedPlan evidence w).map GroundedVerificationPlan.resolutions).getD []

/-- The claim stands in a conflict that the current pass has not resolved in its favour. -/
def Engine.Unresolved (w : SwarmState × X) (item : EvidenceReference) : Prop :=
  Contested engine.verifier.unicode evidence item ∧
    ¬ResolvedFor (engine.passResolutions evidence w) item

/-- The checkpoint holds nothing that verifies the claim: no verified verdict of its own, and
    where a verdict is held under its id up to surrounding whitespace, one that refuses. -/
structure NotHeldVerified (state : SwarmState) (item : EvidenceReference) : Prop where
  own : ∀ v, HeldFor state evidence v → v.claimId = item.claimId → v.verdict ≠ .verified
  spelled : (∃ other ∈ evidence, other.claimId = item.claimId ∧ other.supported = true) →
    (∃ v, HeldFor state evidence v ∧ strip v.claimId = item.claimId) →
    ∃ v, HeldFor state evidence v ∧ strip v.claimId = item.claimId ∧ v.verdict ≠ .verified

variable {engine evidence}

/-- What the checkpoint holds is published exactly where it verifies. -/
theorem unpublished_settled_iff {lost : EvidenceReference → Prop} {state : SwarmState} :
    Unpublished lost evidence (state.settledVerdicts evidence) ↔
      ∀ item, lost item → NotHeldVerified evidence state item := by
  constructor
  · intro h item hitem
    constructor
    · exact fun v hv hid => h.unverified item hitem v (mem_settledVerdicts.mpr hv) hid
    · intro hsupported hspelled
      rcases hsupported with ⟨other, hother, hid, hsupported⟩
      rcases hspelled with ⟨v, hv, hvid⟩
      by_contra hall
      apply h.absent item hitem
      have hmem : v ∈ verdictsFor (state.settledVerdicts evidence) item.claimId :=
        List.mem_filter.mpr ⟨mem_settledVerdicts.mpr hv, by simpa using hvid⟩
      refine appearsIn_buildFields.mpr
        ⟨other, hother, hid, hsupported, List.ne_nil_of_mem hmem, ?_⟩
      intro v' hv'
      rcases List.mem_filter.mp hv' with ⟨hin, hid'⟩
      by_contra hrefused
      exact hall ⟨v', mem_settledVerdicts.mp hin, by simpa using hid', hrefused⟩
  · intro h
    constructor
    · exact fun item hitem v hv hid => (h item hitem).own v (mem_settledVerdicts.mp hv) hid
    · intro item hitem happears
      rcases appearsIn_buildFields.mp happears with ⟨other, hother, hid, hsupported, hne, hall⟩
      rcases List.exists_mem_of_ne_nil _ hne with ⟨v, hv⟩
      rcases List.mem_filter.mp hv with ⟨hin, hvid⟩
      rcases (h item hitem).spelled ⟨other, hother, hid, hsupported⟩
        ⟨v, mem_settledVerdicts.mp hin, by simpa using hvid⟩ with ⟨v', hv', hid', hrefused⟩
      exact hrefused (hall v' (List.mem_filter.mpr
        ⟨mem_settledVerdicts.mpr hv', by simpa using hid'⟩))

theorem settledVerdicts_degrade (state : SwarmState) (code : DegradedCode) :
    (state.degrade code).settledVerdicts evidence = state.settledVerdicts evidence := by
  unfold SwarmState.degrade
  simp only
  split <;> rfl

variable {degraded : Bool} {resolutions : List ConflictResolution} {verdicts : List VerificationVerdict}
  {w : SwarmState × X}

/-- A degraded step returns what the checkpoint holds for the evidence. -/
theorem degradeAndSettle_result {code : DegradedCode}
    (h : (engine.degradeAndSettle code evidence).result w = .ok (resolutions, verdicts, degraded)) :
    verdicts = w.1.settledVerdicts evidence := by
  rcases Action.result_bind_eq_ok.mp h with ⟨_, -, h⟩
  rcases Action.result_bind_eq_ok.mp h with ⟨state, hstate, h⟩
  rcases Action.result_bind_eq_ok.mp h with ⟨_, -, h⟩
  rcases Action.result_bind_eq_ok.mp h with ⟨_, -, h⟩
  rcases Action.result_bind_eq_ok.mp h with ⟨_, -, h⟩
  cases hstate
  cases h
  exact settledVerdicts_degrade w.1 code

/-- How a returning pass ends: complete, or degraded from the state its failure left. -/
theorem attemptPass_result {conflictIds : List Text}
    (h : (engine.attemptPass evidence conflictIds).result w = .ok (resolutions, verdicts, degraded)) :
    (engine.runVerification evidence conflictIds).result w = .ok (resolutions, verdicts) ∨
      ((∃ failure, (engine.runVerification evidence conflictIds).result w = .error failure) ∧
        verdicts = ((engine.runVerification evidence conflictIds).after w).1.settledVerdicts
          evidence) := by
  rcases Action.result_bind_eq_ok.mp h with ⟨outcome, houtcome, h⟩
  change Except.ok ((engine.runVerification evidence conflictIds).result w) = .ok outcome
    at houtcome
  cases houtcome
  cases hrun : (engine.runVerification evidence conflictIds).result w with
  | ok result =>
    rcases result with ⟨r, v⟩
    rw [hrun] at h
    cases h
    exact Or.inl rfl
  | error failure =>
    rw [hrun] at h
    right
    refine ⟨⟨failure, rfl⟩, ?_⟩
    cases hcode : Engine.degradedCode evidence failure with
    | none =>
      simp only [hcode] at h
      cases h
    | some code =>
      simp only [hcode] at h
      exact degradeAndSettle_result h

/-- A pass that commits never returns a contested claim as verified. -/
theorem unpublished_of_committed {plan : GroundedVerificationPlan}
    (hplan : engine.committedPlan evidence w = some plan)
    (hreturns : (engine.verifyOrDegrade evidence
      (conflictMembers engine.verifier.unicode evidence)).result w =
        .ok (resolutions, verdicts, degraded)) : Unpublished (engine.Unresolved evidence w) evidence verdicts := by
  let lost := fun item => Contested engine.verifier.unicode evidence item ∧
    ¬ResolvedFor plan.resolutions item
  have hsame : engine.Unresolved evidence w = lost := by
    unfold Engine.Unresolved Engine.passResolutions
    rw [hplan]
    rfl
  rw [hsame]
  unfold Engine.committedPlan at hplan
  by_cases hdegraded : Engine.alreadyDegraded w.1 = true
  · rw [if_pos hdegraded] at hplan
    cases hplan
  rw [if_neg hdegraded] at hplan
  have hprepared : (engine.preparePass evidence
      (conflictMembers engine.verifier.unicode evidence)).result w = .ok plan := by
    cases hresult : (engine.preparePass evidence
        (conflictMembers engine.verifier.unicode evidence)).result w with
    | error e =>
      rw [hresult] at hplan
      cases hplan
    | ok p =>
      rw [hresult] at hplan
      exact congrArg Except.ok (Option.some.inj hplan)
  have hclean : PlanClean lost plan := planClean_of_prepare (preparePass_planned hprepared)
  have hin : ∀ item, lost item → item ∈ evidence := by
    intro item hitem
    rcases hitem.1 with ⟨g, hg, hmem⟩
    rw [(mem_conflictGroups.mp hg).1] at hmem
    exact (List.mem_filter.mp hmem).1
  have hattempt : (engine.attemptPass evidence
      (conflictMembers engine.verifier.unicode evidence)).result w =
        .ok (resolutions, verdicts, degraded) := by
    rcases Action.result_bind_eq_ok.mp hreturns with ⟨state, hstate, hrest⟩
    cases hstate
    rw [if_neg hdegraded] at hrest
    exact hrest
  -- from the commit on the checkpoint is clean, and so is what is returned
  have hrun : (engine.runVerification evidence
      (conflictMembers engine.verifier.unicode evidence)).Ensures w fun r w' =>
        StateClean lost w'.1 ∧ ∀ result, r = .ok result → Clean lost result.2 := by
    apply Action.Ensures.bind (P := fun r _ => r = .ok plan) hprepared
    · intro p w' heq
      cases heq
      exact executePass_clean hclean (fun item _ => item.named) w'
    · exact fun e w' heq => by cases heq
  rcases attemptPass_result hattempt with hcomplete | ⟨-, hverdicts⟩
  · exact (hrun.2 _ hcomplete).unpublished
  · rw [hverdicts]
    exact (hrun.1.settled hin).unpublished

/-- A pass that does not commit returns what the checkpoint held before it. -/
theorem settled_of_not_committed (hplan : engine.committedPlan evidence w = none)
    (hreturns : (engine.verifyOrDegrade evidence
      (conflictMembers engine.verifier.unicode evidence)).result w =
        .ok (resolutions, verdicts, degraded)) : verdicts = w.1.settledVerdicts evidence := by
  rcases Action.result_bind_eq_ok.mp hreturns with ⟨state, hstate, hrest⟩
  cases hstate
  unfold Engine.committedPlan at hplan
  by_cases hdegraded : Engine.alreadyDegraded w.1 = true
  · rw [if_pos hdegraded] at hrest
    cases hrest
    rfl
  · rw [if_neg hdegraded] at hplan hrest
    have hattempt : (engine.attemptPass evidence
        (conflictMembers engine.verifier.unicode evidence)).result w =
          .ok (resolutions, verdicts, degraded) := hrest
    cases hresult : (engine.preparePass evidence
        (conflictMembers engine.verifier.unicode evidence)).result w with
    | ok plan =>
      rw [hresult] at hplan
      cases hplan
    | error e =>
      -- the failure is the preparation's, which wrote nothing
      have hrun : (engine.runVerification evidence
          (conflictMembers engine.verifier.unicode evidence)).Ensures w fun r w' =>
            r = .error e ∧ w'.1 = w.1 := by
        apply Action.Ensures.bind (P := fun r w' => r = .error e ∧ w'.1 = w.1)
          ⟨hresult, preparePass_keeps _ w⟩
        · exact fun p w' h => by cases h.1
        · intro e' w' h
          cases h.1
          exact ⟨rfl, h.2⟩
      rcases attemptPass_result hattempt with hcomplete | ⟨-, hverdicts⟩
      · have hraised := hrun.1
        rw [hcomplete] at hraised
        cases hraised
      · rw [hverdicts, hrun.2]

/-- When the step returns, no contested claim is published as verified exactly if the pass committed
    its plan, or the checkpoint held no verified verdict for a claim contested since. -/
theorem contested_unpublished_iff (engine : Engine X) (evidence : List EvidenceReference)
    (w : SwarmState × X) (resolutions : List ConflictResolution)
    (verdicts : List VerificationVerdict) (degraded : Bool)
    (hreturns : (engine.verifyOrDegrade evidence
      (conflictMembers engine.verifier.unicode evidence)).result w =
        .ok (resolutions, verdicts, degraded)) :
    Unpublished (engine.Unresolved evidence w) evidence verdicts ↔
      (engine.committedPlan evidence w).isSome = true ∨
        ∀ item, Contested engine.verifier.unicode evidence item →
          NotHeldVerified evidence w.1 item := by
  cases hplan : engine.committedPlan evidence w with
  | some plan =>
    exact iff_of_true (unpublished_of_committed hplan hreturns) (Or.inl rfl)
  | none =>
    have hsame : ∀ item, engine.Unresolved evidence w item ↔
        Contested engine.verifier.unicode evidence item := by
      intro item
      unfold Engine.Unresolved Engine.passResolutions
      rw [hplan]
      constructor
      · exact fun h => h.1
      · intro h
        refine ⟨h, fun hfor => ?_⟩
        rcases hfor with ⟨r, hr, -⟩
        exact absurd hr List.not_mem_nil
    rw [settled_of_not_committed hplan hreturns, unpublished_settled_iff]
    constructor
    · exact fun h => Or.inr fun item hitem => h item ((hsame item).mpr hitem)
    · intro h item hitem
      rcases h with hnone | h
      · cases hnone
      · exact h item ((hsame item).mp hitem)

end Ends

/-! ## 6. A contradiction that arrives after the verdict -/

section Example

/-- The forum's claim was verified when it stood alone; the registry now contradicts it. -/
def lateContradiction : List EvidenceReference :=
  [displacementClaim 'a' "forum" 1600, displacementClaim 'b' "registry" 1598]

def earlierSupport : SupportLink where
  sourceId := "forum".toList
  contentHash := "8733726972665ec3d13e088488b488d420101d2852b5a405d86f80d2922865c3".toList
  locator := none
  fragmentId := none

def earlierVerdict : VerificationVerdict where
  claimId := ['a']
  verdict := .verified
  reason := "verified by independent verifier"
  mode := some .groundedModel
  contractVersion := some verifierContractVersion
  support := [earlierSupport]
  contract := by decide

/-- An engine whose sources cannot be resolved any more. -/
def unresolvableEngine : Engine Unit where
  verifier := { displacementVerifier with resolve := fun _ => Action.raise .grounding }
  remainingModelCalls := pure 10
  usageSnapshot := pure []
  verdictSink := fun _ => pure ⟨⟩
  resolutionSink := fun _ => pure ⟨⟩
  emit := fun _ => pure ⟨⟩
  save := fun _ => pure ⟨⟩

def secondPass : SwarmState where
  graphRevision := 2
  verifierState := Dict.empty.set ['a'] (some earlierVerdict)
  verifierGroundingVersion := verifierGroundingVersion
  verifierContractVersion := verifierContractVersion
  conflictResolutions := []
  degradedSteps := []
  usageSnapshot := []

theorem lateContradiction_uncommitted :
    unresolvableEngine.committedPlan lateContradiction (secondPass, ()) = none := by
  rw [← Option.not_isSome_iff_eq_none]
  decide +kernel

/-- The step degrades and returns the verdict of the pass before. -/
theorem lateContradiction_returns :
    (unresolvableEngine.verifyOrDegrade lateContradiction
      (conflictMembers asciiUnicode lateContradiction)).result (secondPass, ()) =
        .ok ([], [earlierVerdict], true) := by
  have hdegraded : ((unresolvableEngine.verifyOrDegrade lateContradiction
      (conflictMembers asciiUnicode lateContradiction)).result (secondPass, ())).toOption.map
        (fun r => (r.1.length, r.2.2)) = some (0, true) := by decide +kernel
  cases hresult : (unresolvableEngine.verifyOrDegrade lateContradiction
      (conflictMembers asciiUnicode lateContradiction)).result (secondPass, ()) with
  | error e =>
    rw [hresult] at hdegraded
    cases hdegraded
  | ok result =>
    rcases result with ⟨resolutions, verdicts, degraded⟩
    rw [hresult] at hdegraded
    rcases Prod.mk.inj (Option.some.inj hdegraded) with ⟨hnone, rfl⟩
    cases List.length_eq_zero_iff.mp hnone
    have hheld : verdicts = [earlierVerdict] :=
      (settled_of_not_committed lateContradiction_uncommitted hresult).trans rfl
    rw [hheld]

theorem lateContradiction_unresolved :
    ∃ item ∈ lateContradiction, item.claimId = ['a'] ∧
      unresolvableEngine.Unresolved lateContradiction (secondPass, ()) item := by
  have hgroups : (conflictGroups asciiUnicode lateContradiction).map
      (fun g => g.2.map EvidenceReference.claimId) = [[['a'], ['b']]] := by decide +kernel
  have hcontested : ∃ item, Contested asciiUnicode lateContradiction item ∧
      item.claimId = ['a'] := by
    cases hfound : conflictGroups asciiUnicode lateContradiction with
    | nil =>
      rw [hfound] at hgroups
      cases hgroups
    | cons g rest =>
      rw [hfound, List.map_cons] at hgroups
      have hmem : ['a'] ∈ g.2.map EvidenceReference.claimId := by
        rw [(List.cons.inj hgroups).1]
        exact List.mem_cons_self
      rcases List.mem_map.mp hmem with ⟨item, hitem, hid⟩
      exact ⟨item, ⟨g, by rw [hfound]; exact List.mem_cons_self, hitem⟩, hid⟩
  rcases hcontested with ⟨item, ⟨g, hg, hitem⟩, hid⟩
  have hin : item ∈ lateContradiction := by
    rw [(mem_conflictGroups.mp hg).1] at hitem
    exact (List.mem_filter.mp hitem).1
  have hopen : ¬ResolvedFor (unresolvableEngine.passResolutions lateContradiction
      (secondPass, ())) item := by
    unfold Engine.passResolutions
    rw [lateContradiction_uncommitted]
    intro hfor
    rcases hfor with ⟨r, hr, -⟩
    exact absurd hr List.not_mem_nil
  exact ⟨item, hin, hid, ⟨g, hg, hitem⟩, hopen⟩

/-- The pass fails before its commit and returns the earlier verdict: a contested claim is published
    as verified. -/
theorem contested_published :
    ∃ verdicts, (unresolvableEngine.verifyOrDegrade lateContradiction
        (conflictMembers asciiUnicode lateContradiction)).result (secondPass, ()) =
          .ok ([], verdicts, true) ∧
      ∃ item ∈ lateContradiction,
        unresolvableEngine.Unresolved lateContradiction (secondPass, ()) item ∧
        (∃ v ∈ verdicts, v.claimId = item.claimId ∧ v.verdict = .verified) ∧
        AppearsIn (buildFields lateContradiction verdicts) item.claimId := by
  rcases lateContradiction_unresolved with ⟨item, hin, hid, hunresolved⟩
  have happears : AppearsIn (buildFields lateContradiction [earlierVerdict]) item.claimId := by
    rw [hid]
    apply appearsIn_buildFields.mpr
    have hone : verdictsFor [earlierVerdict] ['a'] = [earlierVerdict] := rfl
    rw [hone]
    refine ⟨displacementClaim 'a' "forum" 1600, List.mem_cons_self, rfl, rfl,
      List.cons_ne_nil _ _, ?_⟩
    intro v hv
    rw [List.mem_singleton.mp hv]
    rfl
  exact ⟨[earlierVerdict], lateContradiction_returns, item, hin, hunresolved,
    ⟨earlierVerdict, List.mem_cons_self, hid.symm, rfl⟩, happears⟩

/-- At that pass both sides of the equivalence fail. -/
theorem contested_unpublished_iff_lateContradiction :
    ¬Unpublished (unresolvableEngine.Unresolved lateContradiction (secondPass, ()))
        lateContradiction [earlierVerdict] ∧
      ¬((unresolvableEngine.committedPlan lateContradiction (secondPass, ())).isSome = true ∨
        ∀ item, Contested unresolvableEngine.verifier.unicode lateContradiction item →
          NotHeldVerified lateContradiction secondPass item) := by
  rcases lateContradiction_unresolved with ⟨item, -, hid, hunresolved⟩
  have hnot : ¬Unpublished (unresolvableEngine.Unresolved lateContradiction (secondPass, ()))
      lateContradiction [earlierVerdict] := fun h =>
    h.unverified item hunresolved earlierVerdict List.mem_cons_self hid.symm rfl
  exact ⟨hnot, fun h => hnot ((contested_unpublished_iff unresolvableEngine lateContradiction
    (secondPass, ()) [] [earlierVerdict] true lateContradiction_returns).mpr h)⟩

end Example

end Milo.Swarm
