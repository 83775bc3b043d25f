import Milo.Finalization.RunFinalizer

/-!
# OneDecision — one terminal decision per run, and never a weaker one

Whatever the repository answers, a call of `finalize` ends in one of three ways: it raises and
nothing has changed, it adopts a terminal state found in the database, or the repository accepted
one write and the finalizer holds the decision that write was about.  Every statement about runs
follows from this and from what the other two methods may not do.
-/

namespace Milo.Finalization

open Milo.Reasoning

variable {δ σ : Type}

/-! ## 1. What each method ends with -/

/-- Neither the finalizer nor the record of accepted writes has changed. -/
def Kept (w w' : FinalizerWorld δ σ) : Prop :=
  w'.finalizer = w.finalizer ∧ w'.written = w.written

theorem Kept.refl (w : FinalizerWorld δ σ) : Kept w w := ⟨rfl, rfl⟩

variable {w w' w'' : FinalizerWorld δ σ} {c : TerminalClaim δ × TerminalWrite δ}

theorem Kept.trans (h : Kept w w') (h' : Kept w' w'') : Kept w w'' := ⟨h'.1.trans h.1, h'.2.trans h.2⟩

/-- The repository accepted one write, for `claim`; the finalizer does not know it yet. -/
def Accepted (claim : TerminalClaim δ) (w w' : FinalizerWorld δ σ) : Prop :=
  w'.finalizer = w.finalizer ∧ ∃ write : TerminalWrite δ, write.status = claim.durableStatus ∧
    w'.written = w.written ++ [(claim, write)]

theorem Accepted.of_kept {claim : TerminalClaim δ} (h : Kept w w') (h' : Accepted claim w' w'') :
    Accepted claim w w'' := by
  rcases h' with ⟨hfinalizer, write, hstatus, hwritten⟩
  exact ⟨hfinalizer.trans h.1, write, hstatus, by rw [hwritten, h.2]⟩

/-- How a call of `finalize` without a decision in force may end, if its claim and every claim known
    to it weighs at most `floor`. -/
inductive Settles (floor : ℕ) (w : FinalizerWorld δ σ) :
    Except FinalizeError (FinalizationResult δ) → FinalizerWorld δ σ → Prop
  | raised {e : FinalizeError} {w' : FinalizerWorld δ σ} (kept : Kept w w') :
      Settles floor w (.error e) w'
  | adopted {result : FinalizationResult δ} {w' : FinalizerWorld δ σ}
      (wrote : result.wrote = false)
      (finalizer : w'.finalizer = { w.finalizer with result := some result })
      (written : w'.written = w.written) : Settles floor w (.ok result) w'
  | committed {result : FinalizationResult δ} {w' : FinalizerWorld δ σ} {claim : TerminalClaim δ}
      {write : TerminalWrite δ} (outranks : floor ≤ claim.authority)
      (status : write.status = claim.durableStatus)
      (finalizer : w'.finalizer =
        { w.finalizer with decision := some claim, result := some result })
      (written : w'.written = w.written ++ [(claim, write)]) (wrote : result.wrote = true)
      (reports : result.status = claim.durableStatus.text) : Settles floor w (.ok result) w'

theorem Settles.of_kept {floor : ℕ} {r : Except FinalizeError (FinalizationResult δ)} (h : Kept w w')
    (h' : Settles floor w' r w'') : Settles floor w r w'' := by
  cases h' with
  | raised kept => exact .raised (h.trans kept)
  | adopted wrote finalizer written =>
    exact .adopted wrote (by rw [finalizer, h.1]) (by rw [written, h.2])
  | committed outranks status finalizer written wrote reports =>
    exact .committed outranks status (by rw [finalizer, h.1]) (by rw [written, h.2]) wrote reports

section Methods

variable (repo : Repository δ) (w : FinalizerWorld δ σ)

theorem observedStatus_ensures :
    (observedStatus repo).Ensures w fun r w' => (∃ status, r = .ok status) ∧ Kept w w' :=
  ⟨⟨_, rfl⟩, rfl, rfl⟩

theorem adopt_ensures (observed : Option String) : (adopt observed).Ensures w fun r w' =>
    (r = .ok none ∧ w' = w) ∨ ∃ result, r = .ok (some result) ∧ result.wrote = false ∧
      w'.finalizer = { w.finalizer with result := some result } ∧ w'.written = w.written := by
  unfold adopt
  cases observed.bind TerminalStatus.ofText? with
  | none => exact Or.inl ⟨rfl, rfl⟩
  | some status => exact Or.inr ⟨_, rfl, rfl, rfl, rfl⟩

theorem finalizeRun_ensures (claim : TerminalClaim δ) (write : TerminalWrite δ)
    (hstatus : write.status = claim.durableStatus) :
    (finalizeRun repo claim write).Ensures w fun r w' =>
      (∃ e, r = .error e ∧ Kept w w') ∨ (r = .ok () ∧ Accepted claim w w') := by
  unfold finalizeRun
  apply Action.ensures_get_bind
  apply Action.ensures_modify_bind
  cases repo.write w.calls write with
  | committed => exact Or.inr ⟨rfl, rfl, write, hstatus, rfl⟩
  | refused code => exact Or.inl ⟨_, rfl, rfl, rfl⟩
  | raised exception => exact Or.inl ⟨_, rfl, rfl, rfl⟩

theorem observe_ensures (event : Option (TerminalEvent δ)) :
    (observe event).Ensures w fun r w' => r = .ok () ∧ Kept w w' := by
  cases event with
  | none => exact ⟨rfl, rfl, rfl⟩
  | some event => exact ⟨rfl, rfl, rfl⟩

theorem expectedStatus_ensures (observed : Option String) :
    (expectedStatus repo observed).Ensures w fun r w' => (∃ status, r = .ok status) ∧ Kept w w' := by
  cases observed with
  | none => exact observedStatus_ensures repo w
  | some status => exact ⟨⟨_, rfl⟩, rfl, rfl⟩

theorem persist_ensures (claim : TerminalClaim δ) (observed : Option String) :
    (persist repo claim observed).Ensures w fun r w' =>
      (∃ e, r = .error e ∧ Kept w w') ∨ (r = .ok true ∧ Accepted claim w w') := by
  unfold persist
  split
  · exact Or.inl ⟨_, rfl, Kept.refl w⟩
  · apply (expectedStatus_ensures repo w observed).bind
    · intro expected w₁ hexpected
      cases expected with
      | none => exact Or.inl ⟨_, rfl, hexpected.2⟩
      | some expected =>
        apply (finalizeRun_ensures repo w₁ claim _ rfl).bind
        · intro _ w₂ haccepted
          rcases haccepted with ⟨_, hcontra, -⟩ | ⟨-, haccepted⟩
          · cases hcontra
          · apply (observe_ensures w₂ _).bind
            · intro _ w₃ hobserved
              right
              refine ⟨rfl, ?_⟩
              have hall := Accepted.of_kept hexpected.2 haccepted
              rcases hall with ⟨hfinalizer, write, hstatus, hwritten⟩
              exact ⟨hobserved.2.1.trans hfinalizer, write, hstatus, hobserved.2.2.trans hwritten⟩
            · intro e w₃ hobserved
              cases hobserved.1
        · intro e w₂ haccepted
          rcases haccepted with ⟨_, -, hkept⟩ | ⟨hcontra, -⟩
          · exact Or.inl ⟨e, rfl, hexpected.2.trans hkept⟩
          · cases hcontra
    · intro e w₁ hexpected
      rcases hexpected.1 with ⟨_, hcontra⟩
      cases hcontra

variable {claim : TerminalClaim δ} {w₀ : FinalizerWorld δ σ}

/-- After an accepted write the decision is the claim that was written. -/
theorem decided_ensures {floor : ℕ} (hfloor : floor ≤ claim.authority) (haccepted : Accepted claim w₀ w) :
    (decided claim true).Ensures w (Settles floor w₀) := by
  rcases haccepted with ⟨hfinalizer, write, hstatus, hwritten⟩
  unfold decided
  apply Action.ensures_modify_bind
  rw [if_neg (by simp)]
  apply Action.ensures_pure
  refine .committed hfloor hstatus ?_ hwritten rfl rfl
  unfold FinalizerWorld.setFinalizer
  rw [hfinalizer]

theorem commitOr_ensures {floor : ℕ} {redecide : String → Option String → Finalizing δ σ (FinalizationResult δ)}
    (observed : Option String) (hfloor : floor ≤ claim.authority) (hkept : Kept w₀ w)
    (hredecide : ∀ code current w', Kept w₀ w' → (redecide code current).Ensures w' (Settles floor w₀)) :
    (commitOr repo redecide claim observed).Ensures w (Settles floor w₀) := by
  unfold commitOr
  apply (persist_ensures repo w claim observed).attempt_bind
  intro persisted w₁ hpersisted
  rcases hpersisted with ⟨e, rfl, hsame⟩ | ⟨rfl, haccepted⟩
  · cases e with
    | other exception => exact .raised (hkept.trans hsame)
    | app code =>
      show (ite _ _ _ : Finalizing δ σ _).Ensures w₁ _
      split
      · exact .raised (hkept.trans hsame)
      · -- a race: the run is read again
        apply (observedStatus_ensures repo w₁).bind
        · intro current w₂ hcurrent
          have hkept₂ := (hkept.trans hsame).trans hcurrent.2
          apply (adopt_ensures w₂ current).bind
          · intro adopted w₃ hadopted
            rcases hadopted with ⟨hnone, rfl⟩ | ⟨result, hsome, hwrote, hfinalizer, hwritten⟩
            · cases hnone
              show (ite _ _ _ : Finalizing δ σ _).Ensures w₃ _
              split
              · exact hredecide code current w₃ hkept₂
              · exact .raised hkept₂
            · cases hsome
              exact .of_kept hkept₂ (.adopted hwrote hfinalizer hwritten)
          · intro e w₃ hadopted
            rcases hadopted with ⟨hcontra, -⟩ | ⟨_, hcontra, -⟩ <;> cases hcontra
        · intro e w₂ hcurrent
          rcases hcurrent.1 with ⟨_, hcontra⟩
          cases hcontra
  · exact decided_ensures w₁ hfloor (Accepted.of_kept hkept haccepted)

/-- A commit settles the run at no less than its claim weighs, however often it decides again. -/
theorem commit_ensures {floor : ℕ} (redecisionsLeft : ℕ) :
    ∀ (claim : TerminalClaim δ) (observed : Option String) (w : FinalizerWorld δ σ),
      floor ≤ claim.authority → Kept w₀ w →
      (commit repo redecisionsLeft claim observed).Ensures w (Settles floor w₀) := by
  induction redecisionsLeft with
  | zero =>
    intro claim observed w hfloor hkept
    exact commitOr_ensures repo w observed hfloor hkept fun _ _ _ hkept' => .raised hkept'
  | succ left ih =>
    intro claim observed w hfloor hkept
    apply commitOr_ensures repo w observed hfloor hkept
    intro _ current w' hkept'
    exact ih _ _ w' (Nat.le_trans hfloor (claim.authority_le_legalize current)) hkept'

theorem note_of_open {w : FinalizerWorld δ σ} (h : w.finalizer.result = none) :
    (note claim).after w =
      { w with finalizer := { w.finalizer with pending := w.finalizer.pending ++ [claim] } } := by
  unfold note Action.after Action.modify FinalizerWorld.setFinalizer
  simp only [h]

theorem note_of_decided {w : FinalizerWorld δ σ} {result : FinalizationResult δ}
    (h : w.finalizer.result = some result) : (note claim).after w = w := by
  unfold note Action.after Action.modify FinalizerWorld.setFinalizer
  simp only [h]

/-- Without one, it settles the run at no less than any claim it knows weighs. -/
theorem finalize_ensures (offer : σ → SourceReply δ) (claim : TerminalClaim δ)
    (h : w.finalizer.result = none) :
    (finalize repo offer claim).Ensures w
      (Settles (claim.strongest (knownClaims w.finalizer offer)).authority w) := by
  unfold finalize
  apply Action.ensures_get_bind
  rw [h]
  apply (observedStatus_ensures repo w).bind
  · intro observed w₁ hobserved
    apply (adopt_ensures w₁ observed).bind
    · intro adopted w₂ hadopted
      rcases hadopted with ⟨hnone, rfl⟩ | ⟨result, hsome, hwrote, hfinalizer, hwritten⟩
      · cases hnone
        exact commit_ensures repo 1 _ _ w₂ (TerminalClaim.authority_le_legalize _ _) hobserved.2
      · cases hsome
        exact .of_kept hobserved.2 (.adopted hwrote hfinalizer hwritten)
    · intro e w₂ hadopted
      rcases hadopted with ⟨hcontra, -⟩ | ⟨_, hcontra, -⟩ <;> cases hcontra
  · intro e w₁ hobserved
    rcases hobserved.1 with ⟨_, hcontra⟩
    cases hcontra

end Methods

/-! ## 2. Runs -/

inductive FinalizerCall (δ σ : Type)
  | note (claim : TerminalClaim δ)
  | addClaimSource (source : σ)
  | finalize (offer : σ → SourceReply δ) (claim : TerminalClaim δ)

def FinalizerWorld.perform (repo : Repository δ) (w : FinalizerWorld δ σ) :
    FinalizerCall δ σ → FinalizerWorld δ σ
  | .note claim => (note claim).after w
  | .addClaimSource source => (addClaimSource source).after w
  | .finalize offer claim => (Milo.Finalization.finalize repo offer claim).after w

/-- Any call may come next: `note`, `add_claim_source` and `finalize` are open to every thread. -/
def FinalizerStep (repo : Repository δ) :
    FinalizerWorld δ σ → FinalizerCall δ σ → FinalizerWorld δ σ → Prop :=
  Performs (fun _ _ => True) (FinalizerWorld.perform repo)

abbrev FinalizerHistory (δ σ : Type) : Type := List (FinalizerWorld δ σ × FinalizerCall δ σ)

def Noted (hist : FinalizerHistory δ σ) (claim : TerminalClaim δ) : Prop :=
  ∃ e ∈ hist, e.2 = .note claim

def Registered (hist : FinalizerHistory δ σ) (source : σ) : Prop :=
  ∃ e ∈ hist, e.2 = .addClaimSource source

/-- Nothing was written, or one claim was and the finalizer holds it as its decision. -/
inductive Decided : FinalizerWorld δ σ → Prop
  | open {w : FinalizerWorld δ σ} (written : w.written = []) : Decided w
  | closed {w : FinalizerWorld δ σ} {claim : TerminalClaim δ} {write : TerminalWrite δ}
      {result : FinalizationResult δ} (written : w.written = [(claim, write)])
      (status : write.status = claim.durableStatus)
      (decision : w.finalizer.decision = some claim) (inForce : w.finalizer.result = some result)
      (reports : result.status = claim.durableStatus.text) : Decided w

/-- While nothing is decided every claim noted and every source registered is still known. -/
structure Remembers (hist : FinalizerHistory δ σ) (w : FinalizerWorld δ σ) : Prop where
  decided : Decided w
  noted : w.finalizer.result = none → ∀ claim, Noted hist claim → claim ∈ w.finalizer.pending
  registered : ∀ source, Registered hist source → source ∈ w.finalizer.sources

namespace Remembers

variable {repo : Repository δ} {hist : FinalizerHistory δ σ} {w : FinalizerWorld δ σ}

theorem mem_knownClaims_of_offer {f : RunFinalizer δ σ} {offer : σ → SourceReply δ} {source : σ}
    {live : TerminalClaim δ} (hsource : source ∈ f.sources) (hoffer : offer source = .claim live) :
    live ∈ knownClaims f offer := by
  apply List.mem_append_right
  apply List.mem_filterMap.mpr
  exact ⟨source, hsource, by rw [hoffer]⟩

theorem of_finalize {w' : FinalizerWorld δ σ} (h : Remembers hist w) {offer : σ → SourceReply δ}
    {claim : TerminalClaim δ} (hdecided : Decided w')
    (hpending : w'.finalizer.pending = w.finalizer.pending)
    (hsources : w'.finalizer.sources = w.finalizer.sources)
    (hopen : w'.finalizer.result = none → w.finalizer.result = none) :
    Remembers (hist ++ [(w, .finalize offer claim)]) w' := by
  refine ⟨hdecided, ?_, ?_⟩
  · intro hnone noted hnoted
    rcases hnoted with ⟨e, he, hcall⟩
    rw [hpending]
    rcases List.mem_append.mp he with hold | hlast
    · exact h.noted (hopen hnone) noted ⟨e, hold, hcall⟩
    · rw [List.mem_singleton.mp hlast] at hcall
      cases hcall
  · intro source hregistered
    rcases hregistered with ⟨e, he, hcall⟩
    rw [hsources]
    rcases List.mem_append.mp he with hold | hlast
    · exact h.registered source ⟨e, hold, hcall⟩
    · rw [List.mem_singleton.mp hlast] at hcall
      cases hcall

theorem note (h : Remembers hist w) (claim : TerminalClaim δ) :
    Remembers (hist ++ [(w, .note claim)]) (w.perform repo (.note claim)) := by
  have hregistered : ∀ source, Registered (hist ++ [(w, FinalizerCall.note claim)]) source →
      source ∈ w.finalizer.sources := by
    intro source hmem
    rcases hmem with ⟨e, he, hcall⟩
    rcases List.mem_append.mp he with hold | hlast
    · exact h.registered source ⟨e, hold, hcall⟩
    · rw [List.mem_singleton.mp hlast] at hcall
      cases hcall
  show Remembers _ ((Milo.Finalization.note claim).after w)
  cases hresult : w.finalizer.result with
  | none =>
    rw [note_of_open hresult]
    refine ⟨?_, ?_, hregistered⟩
    · cases h.decided with
      | «open» written => exact .open written
      | closed written status decision inForce reports =>
        rw [hresult] at inForce
        cases inForce
    · intro _ noted hnoted
      rcases hnoted with ⟨e, he, hcall⟩
      apply List.mem_append.mpr
      rcases List.mem_append.mp he with hold | hlast
      · exact Or.inl (h.noted hresult noted ⟨e, hold, hcall⟩)
      · rw [List.mem_singleton.mp hlast] at hcall
        cases hcall
        exact Or.inr List.mem_cons_self
  | some result =>
    rw [note_of_decided hresult]
    refine ⟨h.decided, ?_, hregistered⟩
    · intro hnone
      rw [hresult] at hnone
      cases hnone

theorem addClaimSource (h : Remembers hist w) (source : σ) :
    Remembers (hist ++ [(w, .addClaimSource source)]) (w.perform repo (.addClaimSource source)) := by
  refine ⟨?_, ?_, ?_⟩
  · cases h.decided with
    | «open» written => exact .open written
    | closed written status decision inForce reports =>
      exact .closed written status decision inForce reports
  · intro hnone noted hnoted
    rcases hnoted with ⟨e, he, hcall⟩
    rcases List.mem_append.mp he with hold | hlast
    · exact h.noted hnone noted ⟨e, hold, hcall⟩
    · rw [List.mem_singleton.mp hlast] at hcall
      cases hcall
  · intro source' hregistered
    rcases hregistered with ⟨e, he, hcall⟩
    apply List.mem_append.mpr
    rcases List.mem_append.mp he with hold | hlast
    · exact Or.inl (h.registered source' ⟨e, hold, hcall⟩)
    · rw [List.mem_singleton.mp hlast] at hcall
      cases hcall
      exact Or.inr List.mem_cons_self

theorem finalize (h : Remembers hist w) (offer : σ → SourceReply δ) (claim : TerminalClaim δ) :
    Remembers (hist ++ [(w, .finalize offer claim)]) (w.perform repo (.finalize offer claim)) := by
  show Remembers _ ((Milo.Finalization.finalize repo offer claim).after w)
  cases hresult : w.finalizer.result with
  | some result =>
    have hsame : (Milo.Finalization.finalize repo offer claim).after w = w :=
      congrArg Prod.snd (finalize_repeats repo offer claim hresult)
    rw [hsame]
    exact h.of_finalize h.decided rfl rfl id
  | none =>
    have hwritten : w.written = [] := by
      cases h.decided with
      | «open» written => exact written
      | closed written status decision inForce reports =>
        rw [hresult] at inForce
        cases inForce
    have hsettles := finalize_ensures repo w offer claim hresult
    unfold Action.Ensures at hsettles
    generalize (Milo.Finalization.finalize repo offer claim).result w = r at hsettles
    generalize (Milo.Finalization.finalize repo offer claim).after w = w' at hsettles ⊢
    cases hsettles with
    | raised kept =>
      apply h.of_finalize
      · exact .open (kept.2.trans hwritten)
      · rw [kept.1]
      · rw [kept.1]
      · rw [kept.1]
        exact id
    | adopted wrote finalizer written =>
      apply h.of_finalize
      · exact .open (written.trans hwritten)
      · rw [finalizer]
      · rw [finalizer]
      · exact fun _ => hresult
    | committed outranks status finalizer written wrote reports =>
      rw [hwritten, List.nil_append] at written
      apply h.of_finalize
      · exact .closed written status (by rw [finalizer]) (by rw [finalizer]) reports
      · rw [finalizer]
      · rw [finalizer]
      · exact fun _ => hresult

/-- The step lemma. -/
theorem step (h : Remembers hist w) {call : FinalizerCall δ σ} {w' : FinalizerWorld δ σ}
    (hstep : FinalizerStep repo w call w') : Remembers (hist ++ [(w, call)]) w' := by
  rcases hstep with ⟨-, rfl⟩
  cases call with
  | note claim => exact h.note claim
  | addClaimSource source => exact h.addClaimSource source
  | finalize offer claim => exact h.finalize offer claim

theorem run (hrun : Run (FinalizerStep repo) (.initial δ σ) hist w) : Remembers hist w := by
  apply hrun.history_invariant
  · refine ⟨.open rfl, ?_, ?_⟩
    · intro _ claim hnoted
      rcases hnoted with ⟨_, he, -⟩
      exact absurd he List.not_mem_nil
    · intro source hregistered
      rcases hregistered with ⟨_, he, -⟩
      exact absurd he List.not_mem_nil
  · exact fun _ _ _ _ _ h hstep => h.step hstep

end Remembers

/-! ## 3. One decision -/

/-- A finalize call in a world where `claim` was already written reports its status again. -/
structure RepeatsDecision (repo : Repository δ) (w : FinalizerWorld δ σ)
    (offer : σ → SourceReply δ) (claim committed : TerminalClaim δ) : Prop where
  unchanged : (finalize repo offer claim).after w = w
  repeats : ∃ result, (finalize repo offer claim).result w = .ok result ∧
    result.status = committed.durableStatus.text ∧ result.wrote = false ∧
    (result.duplicate = true ↔ claim.identity = committed.identity)

/-- The status a finalize call wrote outranks, or equals, everything known when it wrote. -/
structure NeverWeaker (hist : FinalizerHistory δ σ) (offer : σ → SourceReply δ)
    (claim : TerminalClaim δ) (write : TerminalWrite δ) : Prop where
  passed : claim.authority ≤ write.status.authority
  noted : ∀ other, Noted hist other → other.authority ≤ write.status.authority
  offered : ∀ source, Registered hist source → ∀ live, offer source = .claim live →
    live.authority ≤ write.status.authority

theorem Remembers.repeatsDecision {repo : Repository δ} {hist : FinalizerHistory δ σ} (h : Remembers hist w)
    (offer : σ → SourceReply δ) (claim : TerminalClaim δ) (hc : c ∈ w.written) :
    RepeatsDecision repo w offer claim c.1 := by
  cases h.decided with
  | «open» written =>
    rw [written] at hc
    exact absurd hc List.not_mem_nil
  | @closed committed write result written status decision inForce reports =>
    rw [written] at hc
    rw [List.mem_singleton.mp hc]
    have hrepeats := finalize_repeats repo offer claim inForce
    refine ⟨congrArg Prod.snd hrepeats, _, congrArg Prod.fst hrepeats, reports, rfl, ?_⟩
    show decide (_ = _) = true ↔ _
    rw [decide_eq_true_iff, decision, Option.map_some, Option.some.injEq]
    exact eq_comm

theorem Remembers.neverWeaker {repo : Repository δ} {hist : FinalizerHistory δ σ} (h : Remembers hist w)
    {offer : σ → SourceReply δ} {claim : TerminalClaim δ}
    (hc : c ∈ (w.perform repo (.finalize offer claim)).written) (hnew : c ∉ w.written) :
    c.2.status = c.1.durableStatus ∧ NeverWeaker hist offer claim c.2 := by
  change c ∈ ((Milo.Finalization.finalize repo offer claim).after w).written at hc
  cases hresult : w.finalizer.result with
  | some result =>
    have hsame : (Milo.Finalization.finalize repo offer claim).after w = w :=
      congrArg Prod.snd (finalize_repeats repo offer claim hresult)
    rw [hsame] at hc
    exact absurd hc hnew
  | none =>
    have hsettles := finalize_ensures repo w offer claim hresult
    unfold Action.Ensures at hsettles
    generalize (Milo.Finalization.finalize repo offer claim).result w = r at hsettles
    generalize (Milo.Finalization.finalize repo offer claim).after w = w' at hsettles hc
    have hbound := claim.strongest_bound (knownClaims w.finalizer offer)
    cases hsettles with
    | raised kept => exact absurd (kept.2 ▸ hc) hnew
    | adopted wrote finalizer written => exact absurd (written ▸ hc) hnew
    | @committed _ _ committed write outranks status finalizer written wrote reports =>
      rw [written] at hc
      rcases List.mem_append.mp hc with hold | hlast
      · exact absurd hold hnew
      · rw [List.mem_singleton.mp hlast]
        have hfloor : (claim.strongest (knownClaims w.finalizer offer)).authority ≤
            write.status.authority := by
          rw [status]
          exact outranks
        refine ⟨status, Nat.le_trans hbound.1 hfloor, ?_, ?_⟩
        · intro other hnoted
          have hknown : other ∈ knownClaims w.finalizer offer :=
            List.mem_append_left _ (h.noted hresult other hnoted)
          exact Nat.le_trans (hbound.2 other hknown) hfloor
        · intro source hregistered live hoffer
          have hknown := mem_knownClaims_of_offer (h.registered source hregistered) hoffer
          exact Nat.le_trans (hbound.2 live hknown) hfloor

/-- Whatever the repository does, a run is terminalized by at most one write; every later call
    reports that decision and writes nothing; and the status written is not weaker than any claim
    known when it was written. -/
theorem one_terminal_decision (repo : Repository δ) {hist : FinalizerHistory δ σ}
    {w : FinalizerWorld δ σ} (hrun : Run (FinalizerStep repo) (.initial δ σ) hist w) :
    w.written.length ≤ 1 ∧
    ∀ earlier e later, hist = earlier ++ e :: later → ∀ offer claim, e.2 = .finalize offer claim →
      (∀ c ∈ e.1.written, RepeatsDecision repo e.1 offer claim c.1) ∧
      ∀ c ∈ (e.1.perform repo e.2).written, c ∉ e.1.written →
        c.2.status = c.1.durableStatus ∧ NeverWeaker earlier offer claim c.2 := by
  constructor
  · cases (Remembers.run hrun).decided with
    | «open» written =>
      rw [written]
      exact Nat.zero_le 1
    | closed written status decision inForce reports =>
      rw [written]
      exact Nat.le_refl 1
  · intro earlier e later hsplit offer claim hcall
    have hbefore := Remembers.run (hrun.before hsplit)
    refine ⟨fun c hc => hbefore.repeatsDecision offer claim hc, ?_⟩
    intro c hc hnew
    rw [hcall] at hc
    exact hbefore.neverWeaker hc hnew

/-- A claim with no documents. -/
def plainClaim (reason : ClaimReason) (hreason : reason ≠ .budgetStop)
    (semanticStatus : SemanticStatus) : TerminalClaim Unit where
  reason := reason
  outcome := ⟨"swarm_v2", semanticStatus, none, none⟩
  output := none
  error := none
  usage := none
  stopStatus := none
  eventEmitted := false
  eventPayload := []
  stopNamed := fun h => absurd h hreason

/-- A repository that reports a running run and accepts what it is asked. -/
def runningRepository : Repository Unit :=
  ⟨true, fun _ => some "running", fun _ _ => .committed⟩

/-- A cancellation is noted, then the engine finishes its product, and then reports a failure. -/
def lateProduct : List (FinalizerCall Unit Unit) :=
  [.note (plainClaim .cancelled (by decide) .notProduced),
    .finalize (fun _ => .nothing) (plainClaim .product (by decide) .complete),
    .finalize (fun _ => .nothing) (plainClaim .failure (by decide) .refused)]

theorem one_terminal_decision_lateProduct :
    let w := lateProduct.foldl (FinalizerWorld.perform runningRepository) (.initial Unit Unit)
    let hist := performed (FinalizerWorld.perform runningRepository) (.initial Unit Unit) lateProduct
    w.written.map (fun c => c.2.status) = [.cancelled] ∧ w.written.length ≤ 1 ∧
    ∀ earlier e later, hist = earlier ++ e :: later → ∀ offer claim, e.2 = .finalize offer claim →
      (∀ c ∈ e.1.written, RepeatsDecision runningRepository e.1 offer claim c.1) ∧
      ∀ c ∈ (e.1.perform runningRepository e.2).written, c ∉ e.1.written →
        c.2.status = c.1.durableStatus ∧ NeverWeaker earlier offer claim c.2 := by
  refine ⟨by decide +kernel, ?_⟩
  exact one_terminal_decision runningRepository (run_performed lateProduct _ fun _ _ => trivial)

end Milo.Finalization
