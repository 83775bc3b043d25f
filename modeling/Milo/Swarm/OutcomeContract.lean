import Milo.Python.PyValue
import Milo.Reasoning.Checks
import Milo.Swarm.Contracts

/-!
# OutcomeContract — the finalizer of a run's payload and its validator

One decision names the status of a finished run and the kind of its result.  The finalizer writes the
decision with the review items, the validator states the same contract again for what it is handed, and a
later degradation is decided by the same table.
-/

namespace Milo.Swarm

open Milo.Python Milo.Reasoning

/-! ## 1. The decision -/

inductive ProductStatus
  | complete
  | partialSuccess
  deriving DecidableEq

inductive ResultKind
  | usableResult
  | partialResult
  | noUsableResult
  | notFound
  deriving DecidableEq

def ProductStatus.text : ProductStatus → Text
  | complete => "complete".toList
  | partialSuccess => "partial_success".toList

def ProductStatus.all : List ProductStatus := [complete, partialSuccess]

def ResultKind.text : ResultKind → Text
  | usableResult => "usable_result".toList
  | partialResult => "partial_result".toList
  | noUsableResult => "no_usable_result".toList
  | notFound => "not_found".toList

def ResultKind.all : List ResultKind := [usableResult, partialResult, noUsableResult, notFound]

abbrev DecidedOutcome := ProductStatus × ResultKind

/-- `ALLOWED_OUTCOMES`. -/
def allowedOutcomes : List DecidedOutcome :=
  [(.complete, .usableResult), (.complete, .notFound), (.partialSuccess, .partialResult),
    (.partialSuccess, .noUsableResult)]

inductive OutcomeViolation
  | notMapping
  | vocabularyNotText
  | vocabularyUnknown
  | statusContradictsKind
  | structureInvalid
  | kindContradictsFields
  | completeWithReview
  | markerMissing
  | markerContradictsKind
  | candidatesInvalid
  | untrustedNegative
  | unknownDegradedStep
  deriving DecidableEq

def OutcomeViolation.message : OutcomeViolation → String
  | notMapping => "product outcome must be a mapping"
  | vocabularyNotText => "product outcome vocabulary must be text"
  | vocabularyUnknown => "product outcome vocabulary is not allowlisted"
  | statusContradictsKind => "product status contradicts the result kind"
  | structureInvalid => "product outcome is structurally invalid"
  | kindContradictsFields => "product result kind contradicts the verified fields"
  | completeWithReview => "a complete outcome cannot carry review items"
  | markerMissing => "no_usable_result requires exactly one trailing static marker"
  | markerContradictsKind => "the empty-result marker contradicts the result kind"
  | candidatesInvalid => "candidate outcomes are structurally invalid"
  | untrustedNegative => "untrusted negative-result signal"
  | unknownDegradedStep => "degraded step code must come from the static allowlist"

/-- The members of a mapping. -/
abbrev Members := List (Text × PyValue)

/-- A value that carries a verified entry. -/
def carriesEntry (value : PyValue) : Bool := value.items?.any fun items => !items.isEmpty

/-- `_usable_field_count`. -/
def usableFieldCount (fields : Members) : ℕ := fields.countP fun field => carriesEntry field.2

def trustedNegativeCodes : List Text := ["TRUSTED_SOURCE_NO_MATCH".toList]

/-- `decide_outcome`; a trusted negative is known by its code. -/
def decideOutcome (usable blocking : Bool) (trustedNegative : Option Text) : Except OutcomeViolation DecidedOutcome :=
  if usable then
    if blocking then .ok (.partialSuccess, .partialResult) else .ok (.complete, .usableResult)
  else
    match trustedNegative with
    | some code =>
      if blocking then .ok (.partialSuccess, .noUsableResult)
      else if code ∈ trustedNegativeCodes then .ok (.complete, .notFound)
      else .error .untrustedNegative
    | none => .ok (.partialSuccess, .noUsableResult)

/-! ## 2. The finalizer -/

def noUsableResultCode : Text := "NO_USABLE_RESULT".toList

/-- The one static marker. -/
def marker : Members := [("code".toList, .str noUsableResultCode)]

/-- `item.get("code") == NO_USABLE_RESULT_CODE`. -/
def looksLikeMarker (item : Members) : Bool := decide ((PyValue.get item "code").str? = some noUsableResultCode)

/-- `_with_marker`. -/
def withMarker (review : List Members) : List Members := review.filter (fun item => !looksLikeMarker item) ++ [marker]

def reviewValue (review : List Members) : PyValue := .list (review.map .dict)

/-- The facts of a finished run. -/
structure RunFacts where
  fields : Members
  verdictReview : List Members
  taskFailures : List Members
  coverageGaps : List Members
  conflictClaimIds : List Text
  unverifiedClaimIds : List Text
  candidateOutcomes : List Members

namespace RunFacts

variable (facts : RunFacts)

def review : List Members := facts.verdictReview ++ facts.taskFailures ++ facts.coverageGaps

def hasBlockingItems : Bool :=
  !(facts.review.isEmpty && facts.conflictClaimIds.isEmpty && facts.unverifiedClaimIds.isEmpty)

def usable : Bool := decide (0 < usableFieldCount facts.fields)

end RunFacts

/-- The review a payload of the outcome carries. -/
def RunFacts.payloadReview (facts : RunFacts) (outcome : DecidedOutcome) : List Members :=
  if outcome.2 = .noUsableResult then withMarker facts.review else facts.review

def RunFacts.payload (facts : RunFacts) (outcome : DecidedOutcome) : Members :=
  [("status".toList, .str outcome.1.text), ("result_kind".toList, .str outcome.2.text),
    ("fields".toList, .dict facts.fields), ("needs_review".toList, reviewValue (facts.payloadReview outcome))] ++
    if facts.candidateOutcomes = [] then []
    else [("candidate_outcomes".toList, .list (facts.candidateOutcomes.map .dict))]

/-- `finalize_product_outcome`. -/
def finalizeProductOutcome (facts : RunFacts) (trustedNegative : Option Text) : Except OutcomeViolation Members := do
  let outcome ← decideOutcome facts.usable facts.hasBlockingItems trustedNegative
  pure (facts.payload outcome)

/-! ## 3. The validator -/

def candidateOutcomeTexts : List Text :=
  ["resolved".toList, "unresolved_ambiguous".toList, "unresolved_not_found".toList]

def candidateValid (item : Members) : Bool :=
  (PyValue.get item "outcome").str?.any fun outcome => decide (outcome ∈ candidateOutcomeTexts)

def candidateOutcomesValid (value : PyValue) : Bool :=
  value.items?.any fun items => !items.isEmpty && items.all fun item => item.members?.any candidateValid

def reviewItems? (value : PyValue) : Option (List Members) := value.items?.bind fun items => items.mapM PyValue.members?

/-- The places of the items that look like the marker. -/
def markerPlaces (review : List Members) : List ℕ :=
  (review.zipIdx.filter fun item => looksLikeMarker item.1).map Prod.snd

/-- Exactly one marker, last, and nothing beside its code. -/
def markedLast (review : List Members) : Bool :=
  decide (markerPlaces review = [review.length - 1]) &&
    review.getLast?.any fun item => (PyValue.dict item).same (.dict marker)

/-- `validate_product_outcome`. -/
def validateProductOutcome (result : PyValue) : Except OutcomeViolation DecidedOutcome := do
  let members ← required result.members? .notMapping
  let statusText ← required (PyValue.get members "status").str? .vocabularyNotText
  let kindText ← required (PyValue.get members "result_kind").str? .vocabularyNotText
  let status ← required (ProductStatus.all.find? fun status => decide (status.text = statusText)) .vocabularyUnknown
  let kind ← required (ResultKind.all.find? fun kind => decide (kind.text = kindText)) .vocabularyUnknown
  refuseIf ((status, kind) ∉ allowedOutcomes) .statusContradictsKind
  let fields ← required (PyValue.get members "fields").members? .structureInvalid
  let review ← required (reviewItems? (PyValue.get members "needs_review")) .structureInvalid
  refuseIf (¬(0 < usableFieldCount fields ↔ kind = .usableResult ∨ kind = .partialResult)) .kindContradictsFields
  refuseIf (status = .complete ∧ review ≠ []) .completeWithReview
  refuseIf (kind = .noUsableResult ∧ markedLast review = false) .markerMissing
  refuseIf (kind ≠ .noUsableResult ∧ markerPlaces review ≠ []) .markerContradictsKind
  refuseIf ((members.lookup "candidate_outcomes".toList).any (fun value => !candidateOutcomesValid value) = true)
    .candidatesInvalid
  pure (status, kind)

/-! ## 4. A later degradation -/

/-- `DEGRADED_STEP_CODES`. -/
def degradedStepCodes : List (Text × Text) :=
  [("COMMANDER_REPLAN_REJECTED".toList, "commander_replan".toList),
    ("COVERAGE_CHECK_FAILED".toList, "coverage_check".toList),
    ("CONFLICT_DETECTION_FAILED".toList, "conflict_detection".toList),
    ("VERIFIER_FAILED".toList, "verification".toList),
    ("VERIFICATION_BUDGET_INSUFFICIENT".toList, "verification".toList),
    ("CANDIDATE_OUTCOMES_FAILED".toList, "candidate_outcomes".toList),
    ("ASSEMBLER_FAILED".toList, "catalog_assembly".toList),
    ("FINAL_BUILD_DEGRADED".toList, "final_build".toList),
    ("CATALOG_PROMOTION_FAILED".toList, "catalog_promotion".toList)]

/-- `degraded_review_item`. -/
def degradedReviewItem (code : Text) : Except OutcomeViolation Members := do
  let step ← required (degradedStepCodes.lookup code) .unknownDegradedStep
  pure [("task_id".toList, .str step), ("code".toList, .str code)]

/-- `members[key] = value`. -/
def setMember (members : Members) (key : Text) (value : PyValue) : Members :=
  if key ∈ members.map Prod.fst then members.map fun e => if e.1 = key then (key, value) else e
  else members ++ [(key, value)]

/-- The review without markers, with the item once. -/
def reviewWith (item : Members) (review : List Members) : List Members :=
  let kept := review.filter fun entry => !looksLikeMarker entry
  if kept.any fun entry => (PyValue.dict item).same (.dict entry) then kept else kept ++ [item]

/-- `with_degraded_review`. -/
def withDegradedReview (result : PyValue) (code : Text) : Except OutcomeViolation PyValue := do
  let _ ← validateProductOutcome result
  let item ← degradedReviewItem code
  let members := result.members?.getD []
  let review := reviewWith item ((reviewItems? (PyValue.get members "needs_review")).getD [])
  let fields := (PyValue.get members "fields").members?.getD []
  let outcome ← decideOutcome (decide (0 < usableFieldCount fields)) true none
  let review := if outcome.2 = .noUsableResult then withMarker review else review
  let degraded := setMember (setMember (setMember members "status".toList (.str outcome.1.text))
    "result_kind".toList (.str outcome.2.text)) "needs_review".toList (reviewValue review)
  let _ ← validateProductOutcome (.dict degraded)
  pure (.dict degraded)

/-! ## 5. What the validator accepts -/

/-- The members of a payload the contract states. -/
structure ValidPayload (members fields : Members) (review : List Members) (outcome : DecidedOutcome) : Prop where
  status : PyValue.get members "status" = .str outcome.1.text
  kind : PyValue.get members "result_kind" = .str outcome.2.text
  allowed : outcome ∈ allowedOutcomes
  verified : PyValue.get members "fields" = .dict fields
  outstanding : PyValue.get members "needs_review" = reviewValue review
  usable : 0 < usableFieldCount fields ↔ outcome.2 = .usableResult ∨ outcome.2 = .partialResult
  complete : outcome.1 = .complete → review = []
  marked : outcome.2 = .noUsableResult → markedLast review = true
  unmarked : outcome.2 ≠ .noUsableResult → markerPlaces review = []
  candidates : ∀ value ∈ members.lookup "candidate_outcomes".toList, candidateOutcomesValid value = true

section Validator

variable {members fields : Members} {review : List Members} {outcome : DecidedOutcome} {value : PyValue}

theorem reviewItems?_eq_some : reviewItems? value = some review ↔ value = reviewValue review :=
  PyValue.items?_bind_mapM_eq_some fun _ _ => PyValue.members?_eq_some

theorem find?_status (status : ProductStatus) :
    ProductStatus.all.find? (fun other => decide (other.text = status.text)) = some status := by
  cases status <;> rfl

theorem find?_kind (kind : ResultKind) :
    ResultKind.all.find? (fun other => decide (other.text = kind.text)) = some kind := by
  cases kind <;> rfl

theorem validateProductOutcome_eq_ok :
    validateProductOutcome (.dict members) = .ok outcome ↔ ∃ fields review, ValidPayload members fields review outcome := by
  constructor
  · intro h
    unfold validateProductOutcome at h
    rcases except_bind_eq_ok.mp h with ⟨found, hmembers, h⟩
    cases hmembers
    rcases except_bind_eq_ok.mp h with ⟨statusText, hstatusText, h⟩
    rcases except_bind_eq_ok.mp h with ⟨kindText, hkindText, h⟩
    rcases except_bind_eq_ok.mp h with ⟨status, hstatus, h⟩
    rcases except_bind_eq_ok.mp h with ⟨kind, hkind, h⟩
    rcases except_bind_eq_ok.mp h with ⟨_, hallowed, h⟩
    rcases except_bind_eq_ok.mp h with ⟨fields, hfields, h⟩
    rcases except_bind_eq_ok.mp h with ⟨review, hreview, h⟩
    rcases except_bind_eq_ok.mp h with ⟨_, husable, h⟩
    rcases except_bind_eq_ok.mp h with ⟨_, hcomplete, h⟩
    rcases except_bind_eq_ok.mp h with ⟨_, hmarked, h⟩
    rcases except_bind_eq_ok.mp h with ⟨_, hunmarked, h⟩
    rcases except_bind_eq_ok.mp h with ⟨_, hcandidates, h⟩
    cases h
    have hfoundStatus := List.find?_some (required_eq_ok.mp hstatus)
    have hfoundKind := List.find?_some (required_eq_ok.mp hkind)
    have hcomplete := refuseIf_eq_ok.mp hcomplete
    have hmarked := refuseIf_eq_ok.mp hmarked
    have hunmarked := refuseIf_eq_ok.mp hunmarked
    refine ⟨fields, review, ?_⟩
    exact
      { status := by
          rw [PyValue.str?_eq_some.mp (required_eq_ok.mp hstatusText), of_decide_eq_true hfoundStatus]
        kind := by
          rw [PyValue.str?_eq_some.mp (required_eq_ok.mp hkindText), of_decide_eq_true hfoundKind]
        allowed := not_not.mp (refuseIf_eq_ok.mp hallowed)
        verified := PyValue.members?_eq_some.mp (required_eq_ok.mp hfields)
        outstanding := reviewItems?_eq_some.mp (required_eq_ok.mp hreview)
        usable := not_not.mp (refuseIf_eq_ok.mp husable)
        complete := fun hstatus => by
          by_contra hne
          exact hcomplete ⟨hstatus, hne⟩
        marked := fun hkind => by
          by_contra hne
          exact hmarked ⟨hkind, Bool.eq_false_of_not_eq_true hne⟩
        unmarked := fun hkind => by
          by_contra hne
          exact hunmarked ⟨hkind, hne⟩
        candidates := fun value hvalue => by
          have hnot := refuseIf_eq_ok.mp hcandidates
          rw [Option.mem_def.mp hvalue] at hnot
          by_contra hne
          exact hnot (by rw [Option.any_some, Bool.eq_false_of_not_eq_true hne]; rfl) }
  · rintro ⟨fields, review, h⟩
    obtain ⟨status, kind⟩ := outcome
    unfold validateProductOutcome
    refine except_bind_eq_ok.mpr ⟨members, rfl, ?_⟩
    refine except_bind_eq_ok.mpr ⟨status.text, required_eq_ok.mpr (PyValue.str?_eq_some.mpr h.status), ?_⟩
    refine except_bind_eq_ok.mpr ⟨kind.text, required_eq_ok.mpr (PyValue.str?_eq_some.mpr h.kind), ?_⟩
    refine except_bind_eq_ok.mpr ⟨status, required_eq_ok.mpr (find?_status status), ?_⟩
    refine except_bind_eq_ok.mpr ⟨kind, required_eq_ok.mpr (find?_kind kind), ?_⟩
    refine except_bind_eq_ok.mpr ⟨(), refuseIf_eq_ok.mpr (not_not.mpr h.allowed), ?_⟩
    refine except_bind_eq_ok.mpr ⟨fields, required_eq_ok.mpr (PyValue.members?_eq_some.mpr h.verified), ?_⟩
    refine except_bind_eq_ok.mpr ⟨review, required_eq_ok.mpr (reviewItems?_eq_some.mpr h.outstanding), ?_⟩
    refine except_bind_eq_ok.mpr ⟨(), refuseIf_eq_ok.mpr (not_not.mpr h.usable), ?_⟩
    refine except_bind_eq_ok.mpr ⟨(), refuseIf_eq_ok.mpr fun hbad => hbad.2 (h.complete hbad.1), ?_⟩
    refine except_bind_eq_ok.mpr ⟨(), refuseIf_eq_ok.mpr ?_, ?_⟩
    · rintro ⟨hkind, hfalse⟩
      rw [h.marked hkind] at hfalse
      cases hfalse
    refine except_bind_eq_ok.mpr ⟨(), refuseIf_eq_ok.mpr fun hbad => hbad.2 (h.unmarked hbad.1), ?_⟩
    refine except_bind_eq_ok.mpr ⟨(), refuseIf_eq_ok.mpr ?_, rfl⟩
    cases hlookup : members.lookup "candidate_outcomes".toList with
    | none => exact Bool.false_ne_true
    | some value =>
      rw [Option.any_some, h.candidates value hlookup]
      exact Bool.false_ne_true

end Validator

/-! ## 6. Markers -/

section Markers

variable {review : List Members} {item : Members}

theorem looksLikeMarker_marker : looksLikeMarker marker = true := by decide

theorem markerPlaces_eq_nil_iff : markerPlaces review = [] ↔ ∀ item ∈ review, looksLikeMarker item = false := by
  unfold markerPlaces
  rw [List.map_eq_nil_iff, List.filter_eq_nil_iff]
  constructor
  · intro h item hitem
    obtain ⟨place, hplace⟩ := List.mem_iff_getElem?.mp hitem
    exact Bool.eq_false_of_not_eq_true (h (item, place) (List.mk_mem_zipIdx_iff_getElem?.mpr hplace))
  · rintro h ⟨item, place⟩ hmem
    rw [h item (List.fst_mem_of_mem_zipIdx hmem)]
    exact Bool.false_ne_true

theorem unmarked_filter : ∀ entry ∈ review.filter (fun item => !looksLikeMarker item), looksLikeMarker entry = false := by
  intro entry hentry
  exact Bool.eq_false_of_not_eq_true' (List.mem_filter.mp hentry).2

theorem markedLast_append (h : ∀ item ∈ review, looksLikeMarker item = false) :
    markedLast (review ++ [marker]) = true := by
  have hplaces : markerPlaces (review ++ [marker]) = [review.length] := by
    have hnone := markerPlaces_eq_nil_iff.mpr h
    unfold markerPlaces at hnone ⊢
    rw [List.map_eq_nil_iff] at hnone
    rw [List.zipIdx_append, List.filter_append, hnone, List.nil_append, Nat.zero_add]
    show (List.filter _ [(marker, review.length)]).map Prod.snd = _
    rw [List.filter_cons_of_pos (by exact looksLikeMarker_marker)]
    rfl
  have hsame : (PyValue.dict marker).same (.dict marker) = true := by decide
  unfold markedLast
  rw [hplaces, List.length_append, List.length_singleton, Nat.add_sub_cancel, List.getLast?_concat, Option.any_some,
    hsame, decide_eq_true rfl]
  rfl

theorem markedLast_withMarker (review : List Members) : markedLast (withMarker review) = true :=
  markedLast_append unmarked_filter

end Markers

/-! ## 7. What the finalizer writes -/

section Finalizer

variable {facts : RunFacts} {outcome : DecidedOutcome}

/-- The outcome of a run without a trusted negative. -/
def RunFacts.decided (facts : RunFacts) : DecidedOutcome :=
  if facts.usable then
    if facts.hasBlockingItems then (.partialSuccess, .partialResult) else (.complete, .usableResult)
  else (.partialSuccess, .noUsableResult)

theorem decideOutcome_none (facts : RunFacts) :
    decideOutcome facts.usable facts.hasBlockingItems none = .ok facts.decided := by
  unfold decideOutcome RunFacts.decided
  cases facts.usable <;> cases facts.hasBlockingItems <;> rfl

theorem finalizeProductOutcome_none (facts : RunFacts) :
    finalizeProductOutcome facts none = .ok (facts.payload facts.decided) :=
  except_bind_eq_ok.mpr ⟨_, decideOutcome_none facts, rfl⟩

theorem hasBlockingItems_eq_false_iff : facts.hasBlockingItems = false ↔
    facts.review = [] ∧ facts.conflictClaimIds = [] ∧ facts.unverifiedClaimIds = [] := by
  unfold RunFacts.hasBlockingItems
  rw [Bool.not_eq_false', Bool.and_eq_true, Bool.and_eq_true, List.isEmpty_iff, List.isEmpty_iff, List.isEmpty_iff,
    and_assoc]

theorem decided_complete (h : facts.decided.1 = .complete) : facts.usable = true ∧ facts.hasBlockingItems = false := by
  unfold RunFacts.decided at h
  cases husable : facts.usable with
  | false =>
    rw [husable] at h
    cases h
  | true =>
    refine ⟨rfl, ?_⟩
    cases hblocking : facts.hasBlockingItems with
    | false => rfl
    | true =>
      rw [husable, hblocking] at h
      cases h

/-- The candidates of a payload are listed only if there are some. -/
theorem lookup_candidates (outcome : DecidedOutcome) :
    (facts.payload outcome).lookup "candidate_outcomes".toList =
      if facts.candidateOutcomes = [] then none else some (.list (facts.candidateOutcomes.map .dict)) := by
  unfold RunFacts.payload
  split <;> rfl

theorem candidateOutcomesValid_list {candidates : List Members} (hne : candidates ≠ [])
    (h : ∀ item ∈ candidates, candidateValid item = true) :
    candidateOutcomesValid (.list (candidates.map .dict)) = true := by
  obtain ⟨first, rest, rfl⟩ := List.exists_cons_of_ne_nil hne
  show (true && ((first :: rest).map PyValue.dict).all fun item => item.members?.any candidateValid) = true
  rw [Bool.true_and, List.all_map, List.all_eq_true]
  exact h

/-- A review item that looks like the marker stands beside a verified entry. -/
def RunFacts.Misread (facts : RunFacts) : Prop :=
  facts.usable = true ∧ ∃ item ∈ facts.review, looksLikeMarker item = true

theorem validPayload_iff (hcandidates : ∀ item ∈ facts.candidateOutcomes, candidateValid item = true) :
    validateProductOutcome (.dict (facts.payload facts.decided)) = .ok facts.decided ↔ ¬facts.Misread := by
  rw [validateProductOutcome_eq_ok]
  constructor
  · rintro ⟨fields, review, h⟩ ⟨husable, item, hitem, hmarker⟩
    have hkind : facts.decided.2 ≠ .noUsableResult := by
      unfold RunFacts.decided
      rw [husable]
      cases facts.hasBlockingItems <;> decide
    have hreview : review = facts.review := by
      have hstated : reviewValue (facts.payloadReview facts.decided) = reviewValue review := h.outstanding
      have hlists := reviewItems?_eq_some.mpr hstated
      rw [reviewItems?_eq_some.mpr rfl] at hlists
      have hsame : facts.payloadReview facts.decided = review := Option.some.inj hlists
      rw [← hsame]
      unfold RunFacts.payloadReview
      exact if_neg hkind
    have hnone := markerPlaces_eq_nil_iff.mp (h.unmarked hkind)
    rw [hreview] at hnone
    rw [hnone item hitem] at hmarker
    cases hmarker
  · intro hread
    have hdecided : facts.decided ∈ allowedOutcomes ∧
        (facts.usable = true ↔ facts.decided.2 = .usableResult ∨ facts.decided.2 = .partialResult) := by
      unfold RunFacts.decided
      cases facts.usable <;> cases facts.hasBlockingItems <;> decide
    refine ⟨facts.fields, facts.payloadReview facts.decided, ?_⟩
    exact
      { status := rfl
        kind := rfl
        allowed := hdecided.1
        verified := rfl
        outstanding := rfl
        usable := by
          rw [← hdecided.2]
          unfold RunFacts.usable
          rw [decide_eq_true_eq]
        complete := fun hcomplete => by
          obtain ⟨husable, hblocking⟩ := decided_complete hcomplete
          have hkind : facts.decided.2 ≠ .noUsableResult := by
            unfold RunFacts.decided
            rw [husable, hblocking]
            decide
          unfold RunFacts.payloadReview
          rw [if_neg hkind]
          exact (hasBlockingItems_eq_false_iff.mp hblocking).1
        marked := fun hkind => by
          unfold RunFacts.payloadReview
          rw [if_pos hkind]
          exact markedLast_withMarker facts.review
        unmarked := fun hkind => by
          have husable : facts.usable = true := by
            cases husable : facts.usable with
            | true => rfl
            | false =>
              unfold RunFacts.decided at hkind
              rw [husable] at hkind
              exact absurd rfl hkind
          unfold RunFacts.payloadReview
          rw [if_neg hkind, markerPlaces_eq_nil_iff]
          intro item hitem
          by_contra hmarker
          exact hread ⟨husable, item, hitem, Bool.eq_true_of_not_eq_false hmarker⟩
        candidates := fun value hvalue => by
          rw [lookup_candidates] at hvalue
          split at hvalue
          · cases hvalue
          · rename_i hne
            have hlist : PyValue.list (facts.candidateOutcomes.map .dict) = value := Option.some.inj hvalue
            rw [← hlist]
            exact candidateOutcomesValid_list hne hcandidates }

end Finalizer

/-! ## 8. What a degradation keeps -/

section Degradation

variable {members fields : Members} {review : List Members} {outcome : DecidedOutcome} {key key' : Text} {value : PyValue}
  {item : Members}

theorem lookup_map_set {l : Members} (h : key ∈ l.map Prod.fst) :
    (l.map fun e => if e.1 = key then (key, value) else e).lookup key = some value := by
  induction l with
  | nil => cases h
  | cons e l ih =>
    rw [List.map_cons]
    by_cases hkey : e.1 = key
    · rw [if_pos hkey, List.lookup_cons_self]
    · rw [if_neg hkey]
      have hne : (key == e.1) = false := beq_false_of_ne fun heq => hkey heq.symm
      obtain ⟨k, v⟩ := e
      rw [List.lookup_cons, hne]
      refine ih ?_
      rw [List.map_cons] at h
      exact (List.mem_cons.mp h).resolve_left fun heq => hkey heq.symm

theorem lookup_map_set_ne {l : Members} (h : key' ≠ key) :
    (l.map fun e => if e.1 = key then (key, value) else e).lookup key' = l.lookup key' := by
  induction l with
  | nil => rfl
  | cons e l ih =>
    obtain ⟨k, v⟩ := e
    rw [List.map_cons]
    dsimp only
    by_cases hkey : k = key
    · have hne : (key' == key) = false := beq_false_of_ne h
      rw [if_pos hkey, List.lookup_cons, List.lookup_cons, hkey, hne]
      exact ih
    · rw [if_neg hkey, List.lookup_cons, List.lookup_cons, ih]

@[simp] theorem lookup_setMember (members : Members) (key : Text) (value : PyValue) :
    (setMember members key value).lookup key = some value := by
  unfold setMember
  split
  · rename_i hmem
    exact lookup_map_set hmem
  · rename_i hmem
    have hnone : members.lookup key = none := by
      rw [List.lookup_eq_none_iff]
      intro e he
      rw [bne_iff_ne]
      rintro rfl
      exact hmem (List.mem_map_of_mem he)
    rw [List.lookup_append, hnone, List.lookup_cons_self]
    rfl

theorem lookup_setMember_ne (members : Members) (value : PyValue) (h : key' ≠ key) :
    (setMember members key value).lookup key' = members.lookup key' := by
  unfold setMember
  split
  · exact lookup_map_set_ne h
  · have hne : (key' == key) = false := beq_false_of_ne h
    rw [List.lookup_append, List.lookup_cons, hne, List.lookup_nil, Option.or_none]

theorem lookup_isSome_of_get {name : String} (h : PyValue.get members name ≠ .none) :
    (members.lookup name.toList).isSome = true := by
  unfold PyValue.get at h
  cases hlookup : members.lookup name.toList with
  | none =>
    rw [hlookup] at h
    exact absurd rfl h
  | some value => rfl

theorem lookup_isSome_iff_mem_keys : (members.lookup key).isSome = true ↔ key ∈ members.map Prod.fst := by
  rw [List.lookup_isSome_iff, List.mem_map]
  constructor
  · rintro ⟨e, he, hkey⟩
    exact ⟨e, he, (beq_iff_eq.mp hkey).symm⟩
  · rintro ⟨e, he, hkey⟩
    exact ⟨e, he, beq_iff_eq.mpr hkey.symm⟩

/-- What stands under a key once or more is set to what it is. -/
theorem setMember_self (hmem : key ∈ members.map Prod.fst) (h : ∀ e ∈ members, e.1 = key → e.2 = value) :
    setMember members key value = members := by
  unfold setMember
  rw [if_pos hmem]
  conv_rhs => rw [← List.map_id members]
  apply List.map_congr_left
  intro e he
  split
  · rename_i hkey
    rw [← hkey, ← h e he hkey]
    rfl
  · rfl

theorem value_of_mem_setMember {e : Text × PyValue} (h : e ∈ setMember members key value) (hkey : e.1 = key) :
    e.2 = value := by
  unfold setMember at h
  split at h
  · obtain ⟨found, _, heq⟩ := List.mem_map.mp h
    split at heq
    · rw [← heq]
    · rename_i hne
      exact absurd (heq ▸ hkey) hne
  · rename_i habsent
    rcases List.mem_append.mp h with hmem | hnew
    · exact absurd (hkey ▸ List.mem_map_of_mem hmem) habsent
    · rw [List.mem_singleton.mp hnew]

/-- Setting one key leaves the entries of the others. -/
theorem mem_of_mem_setMember {e : Text × PyValue} (h : e ∈ setMember members key value) (hkey : e.1 ≠ key) :
    e ∈ members := by
  unfold setMember at h
  split at h
  · obtain ⟨found, hfound, heq⟩ := List.mem_map.mp h
    split at heq
    · exact absurd (heq ▸ rfl) hkey
    · exact heq ▸ hfound
  · rcases List.mem_append.mp h with hmem | hnew
    · exact hmem
    · rw [List.mem_singleton.mp hnew] at hkey
      exact absurd rfl hkey

theorem get_setMember_ne {name : String} (members : Members) (value : PyValue) (h : name.toList ≠ key) :
    PyValue.get (setMember members key value) name = PyValue.get members name := by
  unfold PyValue.get
  rw [lookup_setMember_ne members value h]

/-- The three members a degradation sets. -/
def degradedMembers (members : Members) (outcome : DecidedOutcome) (review : List Members) : Members :=
  setMember (setMember (setMember members "status".toList (.str outcome.1.text))
    "result_kind".toList (.str outcome.2.text)) "needs_review".toList (reviewValue review)

theorem get_degradedMembers (members : Members) (outcome : DecidedOutcome) (review : List Members) :
    PyValue.get (degradedMembers members outcome review) "status" = .str outcome.1.text ∧
      PyValue.get (degradedMembers members outcome review) "result_kind" = .str outcome.2.text ∧
      PyValue.get (degradedMembers members outcome review) "needs_review" = reviewValue review := by
  unfold degradedMembers
  refine ⟨?_, ?_, ?_⟩
  · rw [get_setMember_ne _ _ (by decide), get_setMember_ne _ _ (by decide)]
    unfold PyValue.get
    rw [lookup_setMember]
    rfl
  · rw [get_setMember_ne _ _ (by decide)]
    unfold PyValue.get
    rw [lookup_setMember]
    rfl
  · unfold PyValue.get
    rw [lookup_setMember]
    rfl

theorem lookup_degradedMembers (members : Members) (outcome : DecidedOutcome) (review : List Members)
    (h : key ∉ ["status".toList, "result_kind".toList, "needs_review".toList]) :
    (degradedMembers members outcome review).lookup key = members.lookup key := by
  simp only [List.mem_cons, List.not_mem_nil, or_false, not_or] at h
  unfold degradedMembers
  rw [lookup_setMember_ne _ _ h.2.2, lookup_setMember_ne _ _ h.2.1, lookup_setMember_ne _ _ h.1]

theorem degradedMembers_again (members : Members) (outcome : DecidedOutcome) (review : List Members) :
    degradedMembers (degradedMembers members outcome review) outcome review = degradedMembers members outcome review := by
  have hkeys : ∀ key ∈ ["status".toList, "result_kind".toList, "needs_review".toList],
      key ∈ (degradedMembers members outcome review).map Prod.fst := by
    intro key hkey
    obtain ⟨hstatus, hkind, hreview⟩ := get_degradedMembers members outcome review
    rw [← lookup_isSome_iff_mem_keys]
    rcases List.mem_cons.mp hkey with rfl | hkey
    · exact lookup_isSome_of_get (by rw [hstatus]; exact fun h => by cases h)
    · rcases List.mem_cons.mp hkey with rfl | hkey
      · exact lookup_isSome_of_get (by rw [hkind]; exact fun h => by cases h)
      · rw [List.mem_singleton.mp hkey]
        exact lookup_isSome_of_get (by rw [hreview]; exact fun h => by cases h)
  have hstatus : ∀ e ∈ degradedMembers members outcome review, e.1 = "status".toList → e.2 = .str outcome.1.text := by
    intro e he hkey
    have hfirst := mem_of_mem_setMember he (by rw [hkey]; decide)
    have hsecond := mem_of_mem_setMember hfirst (by rw [hkey]; decide)
    exact value_of_mem_setMember hsecond hkey
  have hkind : ∀ e ∈ degradedMembers members outcome review, e.1 = "result_kind".toList → e.2 = .str outcome.2.text := by
    intro e he hkey
    have hfirst := mem_of_mem_setMember he (by rw [hkey]; decide)
    exact value_of_mem_setMember hfirst hkey
  have hreview : ∀ e ∈ degradedMembers members outcome review, e.1 = "needs_review".toList →
      e.2 = reviewValue review := fun e he hkey => value_of_mem_setMember he hkey
  conv_lhs => rw [degradedMembers]
  rw [setMember_self (hkeys _ (by simp)) hstatus, setMember_self (hkeys _ (by simp)) hkind,
    setMember_self (hkeys _ (by simp)) hreview]

/-- The item of a degraded step. -/
def stepItem (code step : Text) : Members := [("task_id".toList, .str step), ("code".toList, .str code)]

variable {code step : Text} {core : List Members}

/-- No step is reported under the code of the marker. -/
theorem looksLikeMarker_degraded (h : degradedStepCodes.lookup code = some step) :
    looksLikeMarker (stepItem code step) = false := by
  have hall : ∀ entry ∈ degradedStepCodes, entry.1 ≠ noUsableResultCode := by decide
  obtain ⟨before, after, hsplit, _⟩ := List.lookup_eq_some_iff.mp h
  have hmem : (code, step) ∈ degradedStepCodes := by
    rw [hsplit]
    exact List.mem_append_right _ List.mem_cons_self
  have hne : code ≠ noUsableResultCode := hall _ hmem
  show decide (some code = some noUsableResultCode) = false
  exact decide_eq_false fun heq => hne (Option.some.inj heq)

theorem unmarked_reviewWith (h : looksLikeMarker item = false) :
    ∀ entry ∈ reviewWith item review, looksLikeMarker entry = false := by
  intro entry hentry
  unfold reviewWith at hentry
  dsimp only at hentry
  split at hentry
  · exact unmarked_filter entry hentry
  · rcases List.mem_append.mp hentry with hkept | hnew
    · exact unmarked_filter entry hkept
    · rw [List.mem_singleton.mp hnew]
      exact h

theorem unmarked_step (h : degradedStepCodes.lookup code = some step) (review : List Members) :
    ∀ entry ∈ reviewWith (stepItem code step) review, looksLikeMarker entry = false :=
  unmarked_reviewWith (looksLikeMarker_degraded h)

theorem any_reviewWith (hself : (PyValue.dict item).same (.dict item) = true) :
    ((reviewWith item review).any fun entry => (PyValue.dict item).same (.dict entry)) = true := by
  unfold reviewWith
  dsimp only
  split
  · rename_i hany
    exact hany
  · rw [List.any_append, List.any_cons, hself, Bool.true_or, Bool.or_true]

theorem filter_unmarked {list : List Members} (h : ∀ entry ∈ list, looksLikeMarker entry = false) :
    list.filter (fun entry => !looksLikeMarker entry) = list := by
  rw [List.filter_eq_self]
  intro entry hentry
  rw [h entry hentry]
  rfl

theorem reviewWith_of_any {list : List Members} (hfilter : list.filter (fun entry => !looksLikeMarker entry) = review)
    (hany : (review.any fun entry => (PyValue.dict item).same (.dict entry)) = true) : reviewWith item list = review := by
  unfold reviewWith
  dsimp only
  rw [hfilter, if_pos hany]

/-- What a degradation decides, by the verified entries alone. -/
def degradedOutcome (fields : Members) : DecidedOutcome :=
  if 0 < usableFieldCount fields then (.partialSuccess, .partialResult) else (.partialSuccess, .noUsableResult)

/-- The review of a degraded payload; where nothing is verified the marker closes it. -/
def closedReview (fields : Members) (core : List Members) : List Members :=
  if (degradedOutcome fields).2 = .noUsableResult then withMarker core else core

theorem filter_closedReview (h : ∀ entry ∈ core, looksLikeMarker entry = false) :
    (closedReview fields core).filter (fun entry => !looksLikeMarker entry) = core := by
  unfold closedReview
  split
  · unfold withMarker
    rw [List.filter_append, filter_unmarked h, filter_unmarked h]
    show core ++ List.filter _ [marker] = core
    rw [List.filter_cons_of_neg (by decide), List.filter_nil, List.append_nil]
  · exact filter_unmarked h

theorem fst_degradedOutcome (fields : Members) : (degradedOutcome fields).1 = .partialSuccess := by
  unfold degradedOutcome
  split <;> rfl

theorem decideOutcome_blocking (fields : Members) :
    decideOutcome (decide (0 < usableFieldCount fields)) true none = .ok (degradedOutcome fields) := by
  unfold decideOutcome degradedOutcome
  by_cases husable : 0 < usableFieldCount fields
  · rw [if_pos husable, if_pos (decide_eq_true husable)]
    rfl
  · rw [if_neg husable, if_neg (by rw [decide_eq_true_eq]; exact husable)]

/-- The members a degraded payload has. -/
def degradedPayload (members fields : Members) (review : List Members) : Members :=
  degradedMembers members (degradedOutcome fields) review

/-- A degraded payload is valid by the table that decided it. -/
theorem degradedPayload_valid (h : ValidPayload members fields review outcome)
    (hunmarked : ∀ entry ∈ core, looksLikeMarker entry = false) :
    ValidPayload (degradedPayload members fields (closedReview fields core)) fields (closedReview fields core)
      (degradedOutcome fields) := by
  obtain ⟨hgetStatus, hgetKind, hgetReview⟩ := get_degradedMembers members (degradedOutcome fields) (closedReview fields core)
  exact
    { status := hgetStatus
      kind := hgetKind
      allowed := by
        unfold degradedOutcome
        split <;> decide
      verified := by
        have hlookup := lookup_degradedMembers members (degradedOutcome fields) (closedReview fields core)
          (show "fields".toList ∉ _ by decide)
        unfold PyValue.get degradedPayload
        rw [hlookup]
        exact h.verified
      outstanding := hgetReview
      usable := by
        unfold degradedOutcome
        by_cases husable : 0 < usableFieldCount fields
        · rw [if_pos husable]
          exact ⟨fun _ => Or.inr rfl, fun _ => husable⟩
        · rw [if_neg husable]
          exact ⟨fun hcount => absurd hcount husable, fun hkind => by rcases hkind with hkind | hkind <;> cases hkind⟩
      complete := fun hcomplete => by
        rw [fst_degradedOutcome] at hcomplete
        cases hcomplete
      marked := fun hkind => by
        unfold closedReview
        rw [if_pos hkind]
        exact markedLast_withMarker core
      unmarked := fun hkind => by
        unfold closedReview
        rw [if_neg hkind]
        exact markerPlaces_eq_nil_iff.mpr hunmarked
      candidates := fun value hvalue => by
        unfold degradedPayload at hvalue
        rw [lookup_degradedMembers members _ _ (show "candidate_outcomes".toList ∉ _ by decide)] at hvalue
        exact h.candidates value hvalue }

theorem withDegradedReview_eq (h : ValidPayload members fields review outcome)
    (hstep : degradedStepCodes.lookup code = some step) :
    withDegradedReview (.dict members) code =
      .ok (.dict (degradedPayload members fields (closedReview fields (reviewWith (stepItem code step) review)))) := by
  have hvalid := degradedPayload_valid h (unmarked_step hstep review)
  have hitems : (reviewItems? (PyValue.get members "needs_review")).getD [] = review := by
    rw [reviewItems?_eq_some.mpr h.outstanding]
    rfl
  have hfields : ((PyValue.get members "fields").members?).getD [] = fields := by
    rw [h.verified]
    rfl
  refine except_bind_eq_ok.mpr ⟨outcome, validateProductOutcome_eq_ok.mpr ⟨fields, review, h⟩, ?_⟩
  refine except_bind_eq_ok.mpr ⟨stepItem code step, except_bind_eq_ok.mpr ⟨step, required_eq_ok.mpr hstep, rfl⟩, ?_⟩
  refine except_bind_eq_ok.mpr ⟨degradedOutcome fields, ?_, ?_⟩
  · show decideOutcome (decide (0 < usableFieldCount ((PyValue.get members "fields").members?.getD []))) true none = _
    rw [hfields]
    exact decideOutcome_blocking fields
  · refine except_bind_eq_ok.mpr ⟨degradedOutcome fields, ?_, ?_⟩
    · show validateProductOutcome (.dict (degradedPayload members fields (closedReview fields (reviewWith (stepItem code step)
        ((reviewItems? (PyValue.get members "needs_review")).getD []))))) = _
      rw [hitems]
      exact validateProductOutcome_eq_ok.mpr ⟨fields, _, hvalid⟩
    · show Except.ok (PyValue.dict (degradedPayload members fields (closedReview fields (reviewWith (stepItem code step)
        ((reviewItems? (PyValue.get members "needs_review")).getD []))))) = _
      rw [hitems]

/-- The step is among the outstanding items. -/
def Reported (review : List Members) (code step : Text) : Prop :=
  ((review.filter fun entry => !looksLikeMarker entry).any fun entry =>
    (PyValue.dict (stepItem code step)).same (.dict entry)) = true

/-- A payload that is what degrading it made of it. -/
structure Degraded (members fields : Members) (review : List Members) : Prop where
  members : degradedPayload members fields review = members
  review : closedReview fields (review.filter fun entry => !looksLikeMarker entry) = review

theorem degraded_degradedPayload (h : ∀ entry ∈ core, looksLikeMarker entry = false) :
    Degraded (degradedPayload members fields (closedReview fields core)) fields (closedReview fields core) where
  members := degradedMembers_again members _ _
  review := by rw [filter_closedReview h]

theorem withDegradedReview_again (h : ValidPayload members fields review outcome)
    (hdegraded : Degraded members fields review) (hstep : degradedStepCodes.lookup code = some step)
    (hreported : Reported review code step) : withDegradedReview (.dict members) code = .ok (.dict members) := by
  rw [withDegradedReview_eq h hstep, reviewWith_of_any rfl hreported, hdegraded.review, hdegraded.members]

theorem reported_closedReview (hstep : degradedStepCodes.lookup code = some step) :
    Reported (closedReview fields (reviewWith (stepItem code step) review)) code step := by
  have hself : (PyValue.dict (stepItem code step)).same (.dict (stepItem code step)) = true := by
    rw [PyValue.same_dict_iff]
    refine ⟨_, rfl, rfl, ?_⟩
    unfold stepItem
    rw [List.forall_mem_cons, List.forall_mem_singleton]
    exact ⟨⟨_, rfl, PyValue.same_str_iff.mpr rfl⟩, _, rfl, PyValue.same_str_iff.mpr rfl⟩
  unfold Reported
  rw [filter_closedReview (unmarked_step hstep review)]
  exact any_reviewWith hself

/-- A payload is degraded to a valid one that is not complete, once for each code, and keeps its other keys. -/
theorem withDegradedReview_valid (h : ValidPayload members fields review outcome)
    (hstep : degradedStepCodes.lookup code = some step) :
    ∃ degraded, withDegradedReview (.dict members) code = .ok (.dict degraded) ∧
      (∃ after, validateProductOutcome (.dict degraded) = .ok after ∧ after.1 ≠ .complete) ∧
      withDegradedReview (.dict degraded) code = .ok (.dict degraded) ∧
      ∀ key ∉ ["status".toList, "result_kind".toList, "needs_review".toList], degraded.lookup key = members.lookup key := by
  have hunmarked := unmarked_step hstep review
  have hvalid := degradedPayload_valid h hunmarked
  refine ⟨_, withDegradedReview_eq h hstep, ⟨_, validateProductOutcome_eq_ok.mpr ⟨_, _, hvalid⟩, ?_⟩, ?_, ?_⟩
  · rw [fst_degradedOutcome]
    decide
  · exact withDegradedReview_again hvalid (degraded_degradedPayload hunmarked) hstep (reported_closedReview hstep)
  · exact fun key hkey => lookup_degradedMembers members _ _ hkey

end Degradation

/-! ## 9. The contract of both sides -/

/-- What the finalizer of a run's facts, the validator and a degradation of a result agree on. -/
structure OutcomeContract (facts : RunFacts) (result : PyValue) : Prop where
  finalized : (∀ item ∈ facts.candidateOutcomes, candidateValid item = true) →
    ∃ payload, finalizeProductOutcome facts none = .ok payload ∧
      PyValue.get payload "status" = .str facts.decided.1.text ∧
      PyValue.get payload "result_kind" = .str facts.decided.2.text ∧
      (validateProductOutcome (.dict payload) = .ok facts.decided ↔ ¬facts.Misread)
  complete : facts.decided.1 = .complete →
    0 < usableFieldCount facts.fields ∧ facts.review = [] ∧ facts.conflictClaimIds = [] ∧
      facts.unverifiedClaimIds = []
  degraded : ∀ (outcome : DecidedOutcome) (code step : Text),
    validateProductOutcome result = .ok outcome → degradedStepCodes.lookup code = some step →
      ∃ members degraded, result = .dict members ∧ withDegradedReview result code = .ok (.dict degraded) ∧
        (∃ after, validateProductOutcome (.dict degraded) = .ok after ∧ after.1 ≠ .complete) ∧
        withDegradedReview (.dict degraded) code = .ok (.dict degraded) ∧
        ∀ key ∉ ["status".toList, "result_kind".toList, "needs_review".toList],
          degraded.lookup key = members.lookup key

theorem dict_of_validateProductOutcome {result : PyValue} {outcome : DecidedOutcome}
    (h : validateProductOutcome result = .ok outcome) : ∃ members, result = .dict members := by
  unfold validateProductOutcome at h
  rcases except_bind_eq_ok.mp h with ⟨members, hmembers, _⟩
  exact ⟨members, PyValue.members?_eq_some.mp (required_eq_ok.mp hmembers)⟩

/-- The validator takes what the finalizer writes unless an outstanding item beside a verified entry looks like
the marker. -/
theorem outcomeContract_holds (facts : RunFacts) (result : PyValue) : OutcomeContract facts result where
  finalized := by
    intro hcandidates
    exact ⟨facts.payload facts.decided, finalizeProductOutcome_none facts, rfl, rfl, validPayload_iff hcandidates⟩
  complete := by
    intro h
    obtain ⟨husable, hblocking⟩ := decided_complete h
    exact ⟨of_decide_eq_true husable, hasBlockingItems_eq_false_iff.mp hblocking⟩
  degraded := by
    intro outcome code step hresult hstep
    obtain ⟨members, rfl⟩ := dict_of_validateProductOutcome hresult
    obtain ⟨fields, review, hvalid⟩ := validateProductOutcome_eq_ok.mp hresult
    obtain ⟨degraded, h⟩ := withDegradedReview_valid hvalid hstep
    exact ⟨members, degraded, rfl, h⟩

/-- A run with a verified entry and an item under the code of the marker. -/
def lookalikeFacts : RunFacts where
  fields := [("power".toList, .list [.int 110])]
  verdictReview := [[("code".toList, .str noUsableResultCode)]]
  taskFailures := []
  coverageGaps := []
  conflictClaimIds := []
  unverifiedClaimIds := []
  candidateOutcomes := []

theorem lookalike_refused : ¬∀ facts : RunFacts, (∀ item ∈ facts.candidateOutcomes, candidateValid item = true) →
    ∃ payload, finalizeProductOutcome facts none = .ok payload ∧
      validateProductOutcome (.dict payload) = .ok facts.decided := by
  intro h
  obtain ⟨payload, hpayload, hvalid⟩ := h lookalikeFacts (by decide)
  have hmisread : lookalikeFacts.Misread := ⟨by decide, _, List.mem_cons_self, by decide⟩
  rw [finalizeProductOutcome_none] at hpayload
  rw [← Except.ok.inj hpayload] at hvalid
  exact (validPayload_iff (by decide)).mp hvalid hmisread

end Milo.Swarm
