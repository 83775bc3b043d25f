import Milo.Finalization.Claim
import Milo.Python.PyValue
import Milo.Reasoning.Checks

/-!
# OutcomeRecord — a product outcome and its record

An outcome is recorded as a dictionary of plain values, and acceptance gates rebuild it from there.  The
reader gives every outcome back; of other records it refuses some, believes some that no outcome writes,
and breaks on some.
-/

namespace Milo.Finalization

open Milo.Python Milo.Reasoning

/-! ## 1. The outcome -/

def SemanticStatus.all : List SemanticStatus := [.complete, .partly, .unusable, .refused, .notProduced]

def SemanticStatus.text : SemanticStatus → List Char
  | complete => "complete".toList
  | partly => "partial".toList
  | unusable => "unusable".toList
  | refused => "refused".toList
  | notProduced => "not_produced".toList

/-- `_USABILITY_OF`. -/
def SemanticStatus.usability : SemanticStatus → List Char
  | complete => "usable".toList
  | partly => "partial".toList
  | unusable => "unusable".toList
  | refused => "refused".toList
  | notProduced => "none".toList

/-- `BLOCKING_CODES`. -/
inductive BlockingCode
  | outstandingReviewItems
  | taskFailures
  | coverageGaps
  | unverifiedClaims
  | conflictingClaims
  | rejectedItems
  | failedAgents
  | degradedVerification
  | degradedEnrichment
  | noUsableResult
  | noProductPayload
  | outcomeContractViolation
  | engineReportedFailure
  | refusedBeforeExecution
  | runNotProduced
  deriving DecidableEq

namespace BlockingCode

def all : List BlockingCode :=
  [outstandingReviewItems, taskFailures, coverageGaps, unverifiedClaims, conflictingClaims, rejectedItems, failedAgents,
    degradedVerification, degradedEnrichment, noUsableResult, noProductPayload, outcomeContractViolation,
    engineReportedFailure, refusedBeforeExecution, runNotProduced]

def text : BlockingCode → List Char
  | outstandingReviewItems => "OUTSTANDING_REVIEW_ITEMS".toList
  | taskFailures => "TASK_FAILURES".toList
  | coverageGaps => "COVERAGE_GAPS".toList
  | unverifiedClaims => "UNVERIFIED_CLAIMS".toList
  | conflictingClaims => "CONFLICTING_CLAIMS".toList
  | rejectedItems => "REJECTED_ITEMS".toList
  | failedAgents => "FAILED_AGENTS".toList
  | degradedVerification => "DEGRADED_VERIFICATION".toList
  | degradedEnrichment => "DEGRADED_ENRICHMENT".toList
  | noUsableResult => "NO_USABLE_RESULT".toList
  | noProductPayload => "NO_PRODUCT_PAYLOAD".toList
  | outcomeContractViolation => "OUTCOME_CONTRACT_VIOLATION".toList
  | engineReportedFailure => "ENGINE_REPORTED_FAILURE".toList
  | refusedBeforeExecution => "REFUSED_BEFORE_EXECUTION".toList
  | runNotProduced => "RUN_NOT_PRODUCED".toList

end BlockingCode

structure Coverage where
  produced : ℕ
  outstanding : ℕ

/-- Rounding to the nearest whole number, halves to even. -/
def roundHalfEven (q : ℚ) : ℤ :=
  let part := q - ⌊q⌋
  if part < 1 / 2 then ⌊q⌋
  else if 1 / 2 < part then ⌊q⌋ + 1
  else if ⌊q⌋ % 2 = 0 then ⌊q⌋
  else ⌊q⌋ + 1

/-- The float nearest to a number of at most one: 53 bits from its first. -/
def nearestFloat (q : ℚ) : ℚ :=
  let bits := 52 - Int.log 2 q
  roundHalfEven (q * 2 ^ bits) / 2 ^ bits

/-- `ratio`: the share to six digits. -/
def Coverage.ratio (coverage : Coverage) : PyValue :=
  let total := coverage.produced + coverage.outstanding
  if total = 0 then .none
  else .float (.finite (nearestFloat (roundHalfEven (nearestFloat (coverage.produced / total) * 10 ^ 6) / 10 ^ 6)))

structure BlockingItem where
  code : BlockingCode
  count : ℕ
  positive : 1 ≤ count

structure PayloadReference where
  present : Bool
  digest : List Char
  byteSize : ℤ
  shape : List (List Char)

/-- The complete outcome; a blocking code appears at most once. -/
structure CanonicalOutcome where
  engine : List Char
  semanticStatus : SemanticStatus
  coverage : Coverage
  blocking : List BlockingItem
  payload : PayloadReference
  resultKind : Option (List Char)
  distinct : (blocking.map BlockingItem.code).Nodup

/-! ## 2. The record -/

def entry (key : String) (value : PyValue) : List Char × PyValue := (key.toList, value)

def Coverage.asRecord (coverage : Coverage) : PyValue :=
  .dict [entry "produced" (.int coverage.produced), entry "outstanding" (.int coverage.outstanding),
    entry "ratio" coverage.ratio]

def BlockingItem.asRecord (item : BlockingItem) : PyValue :=
  .dict [entry "code" (.str item.code.text), entry "count" (.int item.count)]

def PayloadReference.asRecord (payload : PayloadReference) : PyValue :=
  .dict [entry "present" (.bool payload.present), entry "digest" (.str payload.digest),
    entry "byte_size" (.int payload.byteSize), entry "shape" (.list (payload.shape.map .str))]

/-- `as_record`. -/
def CanonicalOutcome.asRecord (outcome : CanonicalOutcome) : PyValue :=
  .dict [entry "engine" (.str outcome.engine), entry "semantic_status" (.str outcome.semanticStatus.text),
    entry "usability" (.str outcome.semanticStatus.usability),
    entry "result_kind" (outcome.resultKind.elim .none .str), entry "coverage" outcome.coverage.asRecord,
    entry "blocking" (.list (outcome.blocking.map BlockingItem.asRecord)),
    entry "payload" outcome.payload.asRecord]

/-! ## 3. The reader -/

/-- What reading a record raises: the refusal, or what the reader does not catch. -/
inductive OutcomeFailure
  | refusal
  | uncaught (failure : PyValue.IntFailure)
  deriving DecidableEq

/-- `except (TypeError, ValueError)`. -/
def caught : PyValue.IntFailure → OutcomeFailure
  | .overflowError => .uncaught .overflowError
  | _ => .refusal

def isEngineChar (c : Char) : Bool := c.isAlphanum || c == '_'

def maxEngineNameChars : ℕ := 64

section Reader

variable (spelled : List Char → Option ℤ) (textOf : PyValue → List Char)

/-- `str(value or "")`. -/
def textOr (value : PyValue) : List Char :=
  if value.truthy then value.str?.getD (textOf value) else []

/-- `_engine_name`; the characters `strip` takes are among those the filter drops. -/
def engineName (value : PyValue) : List Char :=
  let name := ((textOr textOf value).filter isEngineChar).take maxEngineNameChars
  if name = [] then "unknown".toList else name

def semantic? (value : PyValue) : Option SemanticStatus :=
  value.str?.bind fun text => SemanticStatus.all.find? fun status => decide (status.text = text)

def blockingCode? (value : PyValue) : Option BlockingCode :=
  value.str?.bind fun text => BlockingCode.all.find? fun code => decide (code.text = text)

def readCoverage (value : PyValue) : Except OutcomeFailure Coverage := do
  let members := value.members?.getD []
  let produced ← (PyValue.intOr spelled 0 (PyValue.get members "produced")).mapError caught
  let outstanding ← (PyValue.intOr spelled 0 (PyValue.get members "outstanding")).mapError caught
  refuseIf (produced < 0 ∨ outstanding < 0) .refusal
  pure ⟨produced.toNat, outstanding.toNat⟩

def readBlockingItem (value : PyValue) : Except OutcomeFailure BlockingItem := do
  let members ← required value.members? .refusal
  let code ← required (blockingCode? (PyValue.get members "code")) .refusal
  let count ← (PyValue.intOr spelled 1 (PyValue.get members "count")).mapError caught
  if h : 1 ≤ count then pure ⟨code, count.toNat, by omega⟩ else .error .refusal

/-- The items of `value or []`: of a text its letters, of a mapping its keys. -/
def blockingValues (value : PyValue) : Except OutcomeFailure (List PyValue) :=
  if value.truthy then
    match value with
    | .list items => .ok items
    | .str text => .ok (text.map fun c => .str [c])
    | .dict members => .ok (members.map fun entry => .str entry.1)
    | _ => .error (.uncaught .typeError)
  else .ok []

def readPayload (value : PyValue) : Except OutcomeFailure PayloadReference := do
  let members := value.members?.getD []
  let byteSize ← (PyValue.intOr spelled 0 (PyValue.get members "byte_size")).mapError .uncaught
  pure
    { present := (PyValue.get members "present").truthy
      digest := textOr textOf (PyValue.get members "digest")
      byteSize := byteSize
      shape := ((PyValue.get members "shape").items?.getD []).map fun key => key.str?.getD (textOf key) }

/-- `outcome_from_record`. -/
def outcomeFromRecord (record : PyValue) : Except OutcomeFailure CanonicalOutcome := do
  let members ← required record.members? .refusal
  let semanticStatus ← required (semantic? (PyValue.get members "semantic_status")) .refusal
  let coverage ← readCoverage spelled (PyValue.get members "coverage")
  let values ← blockingValues (PyValue.get members "blocking")
  let blocking ← values.mapM (readBlockingItem spelled)
  let payload ← readPayload spelled textOf (PyValue.get members "payload")
  if h : (blocking.map BlockingItem.code).Nodup then
    pure
      { engine := engineName textOf (PyValue.get members "engine")
        semanticStatus := semanticStatus
        coverage := coverage
        blocking := blocking
        payload := payload
        resultKind := (PyValue.get members "result_kind").str?
        distinct := h }
  else .error .refusal

end Reader

/-! ## 4. The parts are read back -/

section Parts

variable {spelled : List Char → Option ℤ} {textOf : PyValue → List Char} {members : List (List Char × PyValue)} {value : PyValue}

/-- What is stated under a key is read from a mapping that equals the one stated. -/
theorem same_get {stated : List (List Char × PyValue)}
    (h : ∀ e ∈ stated, ∃ c, members.lookup e.1 = some c ∧ PyValue.same e.2 c = true) (key : String) {a : PyValue}
    (hentry : entry key a ∈ stated) : PyValue.same a (PyValue.get members key) = true := by
  obtain ⟨c, hlookup, hsame⟩ := h _ hentry
  unfold PyValue.get
  have hkey : members.lookup key.toList = some c := hlookup
  rw [hkey]
  exact hsame

theorem semantic?_text (status : SemanticStatus) : semantic? (.str status.text) = some status := by
  cases status <;> rfl

theorem blockingCode?_text (code : BlockingCode) : blockingCode? (.str code.text) = some code := by
  cases code <;> rfl

theorem textOr_str (text : List Char) : textOr textOf (.str text) = text := by
  cases text with
  | nil => rfl
  | cons c text => rfl

theorem readCoverage_of_same {coverage : Coverage} (h : coverage.asRecord.same value = true) :
    readCoverage spelled value = .ok coverage := by
  obtain ⟨members, rfl, _, hmembers⟩ := PyValue.same_dict_iff.mp h
  have hproduced := PyValue.same_int_iff.mp (same_get hmembers "produced" List.mem_cons_self)
  have houtstanding := PyValue.same_int_iff.mp
    (same_get hmembers "outstanding" (List.mem_cons_of_mem _ List.mem_cons_self))
  refine except_bind_eq_ok.mpr ⟨(coverage.produced : ℤ), ?_, ?_⟩
  · show (PyValue.intOr spelled 0 (PyValue.get members "produced")).mapError caught = _
    rw [PyValue.intOr_of_amount? hproduced fun _ => rfl]
    rfl
  refine except_bind_eq_ok.mpr ⟨(coverage.outstanding : ℤ), ?_, ?_⟩
  · show (PyValue.intOr spelled 0 (PyValue.get members "outstanding")).mapError caught = _
    rw [PyValue.intOr_of_amount? houtstanding fun _ => rfl]
    rfl
  exact except_bind_eq_ok.mpr ⟨(), refuseIf_eq_ok.mpr (by omega), rfl⟩

theorem readBlockingItem_of_same {item : BlockingItem} (h : item.asRecord.same value = true) :
    readBlockingItem spelled value = .ok item := by
  obtain ⟨members, rfl, _, hmembers⟩ := PyValue.same_dict_iff.mp h
  have hcode := PyValue.same_str_iff.mp (same_get hmembers "code" List.mem_cons_self)
  have hcount := PyValue.same_int_iff.mp
    (same_get hmembers "count" (List.mem_cons_of_mem _ List.mem_cons_self))
  have hpositive : (1 : ℤ) ≤ item.count := by exact_mod_cast item.positive
  refine except_bind_eq_ok.mpr ⟨members, rfl, ?_⟩
  refine except_bind_eq_ok.mpr ⟨item.code, required_eq_ok.mpr ?_, ?_⟩
  · rw [hcode]
    exact blockingCode?_text item.code
  refine except_bind_eq_ok.mpr ⟨(item.count : ℤ), ?_, ?_⟩
  · rw [PyValue.intOr_of_amount? hcount fun hzero => absurd hzero (by omega)]
    rfl
  exact dif_pos hpositive

theorem readBlocking_of_same {items : List BlockingItem}
    (h : (PyValue.list (items.map BlockingItem.asRecord)).same value = true) :
    ∃ values, blockingValues value = .ok values ∧ values.mapM (readBlockingItem spelled) = .ok items := by
  obtain ⟨values, rfl, hvalues⟩ := PyValue.same_list_iff.mp h
  refine ⟨values, ?_, ?_⟩
  · cases values with
    | nil => rfl
    | cons first rest => rfl
  · clear h
    induction items generalizing values with
    | nil =>
      cases hvalues
      rfl
    | cons item items ih =>
      cases hvalues with
      | cons hfirst hrest =>
        rw [List.mapM_cons]
        refine except_bind_eq_ok.mpr ⟨item, readBlockingItem_of_same hfirst, ?_⟩
        exact except_bind_eq_ok.mpr ⟨items, ih _ hrest, rfl⟩

theorem readPayload_of_same {payload : PayloadReference} (h : payload.asRecord.same value = true) :
    readPayload spelled textOf value = .ok payload := by
  obtain ⟨members, rfl, _, hmembers⟩ := PyValue.same_dict_iff.mp h
  have hpresent := PyValue.same_bool_iff.mp (same_get hmembers "present" List.mem_cons_self)
  have hdigest := PyValue.same_str_iff.mp
    (same_get hmembers "digest" (List.mem_cons_of_mem _ List.mem_cons_self))
  have hsize := PyValue.same_int_iff.mp
    (same_get hmembers "byte_size" (List.mem_cons_of_mem _ (List.mem_cons_of_mem _ List.mem_cons_self)))
  obtain ⟨keys, hkeys, hall⟩ := PyValue.same_list_iff.mp (same_get hmembers "shape"
    (List.mem_cons_of_mem _ (List.mem_cons_of_mem _ (List.mem_cons_of_mem _ List.mem_cons_self))))
  have hshape : keys = payload.shape.map .str := by
    rw [List.forall₂_map_left_iff] at hall
    have heq := hall.imp fun _ _ hsame => PyValue.same_str_iff.mp hsame
    clear hall hkeys
    generalize payload.shape = shape at heq
    induction heq with
    | nil => rfl
    | cons hfirst _ ih => rw [hfirst, ih, List.map_cons]
  refine except_bind_eq_ok.mpr ⟨payload.byteSize, ?_, ?_⟩
  · show (PyValue.intOr spelled 0 (PyValue.get members "byte_size")).mapError OutcomeFailure.uncaught = _
    rw [PyValue.intOr_of_amount? hsize fun _ => rfl]
    rfl
  have htruthy : (PyValue.get members "present").truthy = payload.present := by
    rw [PyValue.truthy_of_amount? hpresent]
    cases payload.present <;> decide
  have htexts : (((PyValue.get members "shape").items?.getD []).map fun key => key.str?.getD (textOf key)) =
      payload.shape := by
    rw [hkeys, hshape]
    show (payload.shape.map PyValue.str).map _ = _
    rw [List.map_map]
    exact List.map_id _
  show Except.ok (PayloadReference.mk (PyValue.get members "present").truthy
    (textOr textOf (PyValue.get members "digest")) payload.byteSize
    (((PyValue.get members "shape").items?.getD []).map fun key => key.str?.getD (textOf key))) = Except.ok payload
  rw [htruthy, hdigest, textOr_str, htexts]

theorem engineName_engineName (value : PyValue) : engineName textOf (.str (engineName textOf value)) = engineName textOf value := by
  have hlabel : ∀ name : List Char, name ≠ [] → (∀ c ∈ name, isEngineChar c = true) → name.length ≤ maxEngineNameChars →
      engineName textOf (.str name) = name := by
    intro name hne hchars hlength
    unfold engineName
    rw [textOr_str]
    dsimp only
    rw [List.filter_eq_self.mpr hchars, List.take_of_length_le hlength, if_neg hne]
  unfold engineName
  dsimp only
  split
  · have hchars : ("unknown".toList).all isEngineChar = true := by decide
    exact hlabel "unknown".toList (by decide) (List.all_eq_true.mp hchars) (by decide)
  · rename_i hne
    exact hlabel _ hne (fun c hc => (List.mem_filter.mp (List.mem_of_mem_take hc)).2) (List.length_take_le _ _)

end Parts

/-! ## 5. Records -/

section Records

variable (spelled : List Char → Option ℤ) (textOf : PyValue → List Char)

/-- An engine label as the reader leaves it. -/
def CanonicalOutcome.Normalised (outcome : CanonicalOutcome) : Prop :=
  engineName textOf (.str outcome.engine) = outcome.engine

/-- The value equals the record some outcome writes. -/
def IsRecord (record : PyValue) : Prop :=
  ∃ outcome : CanonicalOutcome, outcome.Normalised textOf ∧ outcome.asRecord.same record = true

/-- `int(value or default)` is this number; it raises what the reader catches. -/
def Whole (default : ℤ) (value : PyValue) (z : ℤ) : Prop := PyValue.intOr spelled default value = .ok z

def NotWhole (default : ℤ) (value : PyValue) : Prop :=
  ∃ failure ≠ PyValue.IntFailure.overflowError, PyValue.intOr spelled default value = .error failure

/-- The counts of a coverage, which are none if it is no mapping. -/
def CoverageStated (value : PyValue) : Prop :=
  ∃ produced outstanding, Whole spelled 0 (PyValue.get (value.members?.getD []) "produced") produced ∧
    Whole spelled 0 (PyValue.get (value.members?.getD []) "outstanding") outstanding ∧
      0 ≤ produced ∧ 0 ≤ outstanding

def CoverageRefused (value : PyValue) : Prop :=
  NotWhole spelled 0 (PyValue.get (value.members?.getD []) "produced") ∨
    ∃ produced, Whole spelled 0 (PyValue.get (value.members?.getD []) "produced") produced ∧
      (NotWhole spelled 0 (PyValue.get (value.members?.getD []) "outstanding") ∨
        ∃ outstanding, Whole spelled 0 (PyValue.get (value.members?.getD []) "outstanding") outstanding ∧
          (produced < 0 ∨ outstanding < 0))

/-- A mapping with a known code and a count of at least one. -/
def ItemStated (value : PyValue) (code : BlockingCode) : Prop :=
  ∃ members count, value.members? = some members ∧ blockingCode? (PyValue.get members "code") = some code ∧
    Whole spelled 1 (PyValue.get members "count") count ∧ 1 ≤ count

def ItemRefused (value : PyValue) : Prop :=
  value.members? = none ∨ ∃ members, value.members? = some members ∧
    (blockingCode? (PyValue.get members "code") = none ∨
      (blockingCode? (PyValue.get members "code")).isSome = true ∧
        (NotWhole spelled 1 (PyValue.get members "count") ∨
          ∃ count, Whole spelled 1 (PyValue.get members "count") count ∧ count < 1))

/-- What `for item in value or []` goes through. -/
inductive Iterates : PyValue → List PyValue → Prop
  | nothing {value : PyValue} (h : value.truthy = false) : Iterates value []
  | list {items : List PyValue} (h : (PyValue.list items).truthy = true) : Iterates (.list items) items
  | text {text : List Char} (h : (PyValue.str text).truthy = true) :
    Iterates (.str text) (text.map fun c => .str [c])
  | mapping {members : List (List Char × PyValue)} (h : (PyValue.dict members).truthy = true) :
    Iterates (.dict members) (members.map fun entry => .str entry.1)

/-- The first part of the value that cannot be read is one the reader refuses. -/
inductive Refused (record : PyValue) : Prop
  | shape (h : record.members? = none)
  | status {members : List (List Char × PyValue)} (hmembers : record.members? = some members)
      (h : semantic? (PyValue.get members "semantic_status") = none)
  | coverage {members : List (List Char × PyValue)} (hmembers : record.members? = some members)
      (hstatus : (semantic? (PyValue.get members "semantic_status")).isSome = true)
      (h : CoverageRefused spelled (PyValue.get members "coverage"))
  | blocking {members : List (List Char × PyValue)} {before after : List PyValue} {item : PyValue}
      (hmembers : record.members? = some members)
      (hstatus : (semantic? (PyValue.get members "semantic_status")).isSome = true)
      (hcoverage : CoverageStated spelled (PyValue.get members "coverage"))
      (hvalues : Iterates (PyValue.get members "blocking") (before ++ item :: after))
      (hbefore : ∀ value ∈ before, ∃ code, ItemStated spelled value code) (h : ItemRefused spelled item)
  | repeated {members : List (List Char × PyValue)} {values : List PyValue} {codes : List BlockingCode} {byteSize : ℤ}
      (hmembers : record.members? = some members)
      (hstatus : (semantic? (PyValue.get members "semantic_status")).isSome = true)
      (hcoverage : CoverageStated spelled (PyValue.get members "coverage"))
      (hvalues : Iterates (PyValue.get members "blocking") values)
      (hcodes : List.Forall₂ (ItemStated spelled) values codes)
      (hpayload : Whole spelled 0 (PyValue.get ((PyValue.get members "payload").members?.getD []) "byte_size") byteSize)
      (h : ¬codes.Nodup)

/-- What is read of the record is what it records, and what is not read is refused. -/
def ReadAsRecorded (record : PyValue) : Prop :=
  (∀ outcome, outcomeFromRecord spelled textOf record = .ok outcome → outcome.asRecord.same record = true) ∧
    ∀ failure, outcomeFromRecord spelled textOf record = .error failure → failure = .refusal

variable {spelled textOf} {record : PyValue} {outcome : CanonicalOutcome}

theorem outcomeFromRecord_of_same (hnormal : outcome.Normalised textOf) (h : outcome.asRecord.same record = true) :
    outcomeFromRecord spelled textOf record = .ok outcome := by
  obtain ⟨members, rfl, _, hmembers⟩ := PyValue.same_dict_iff.mp h
  have hengine : (PyValue.str outcome.engine).same (PyValue.get members "engine") = true :=
    same_get hmembers "engine" (by simp)
  have hstatus : (PyValue.str outcome.semanticStatus.text).same (PyValue.get members "semantic_status") = true :=
    same_get hmembers "semantic_status" (by simp)
  have hkind : (outcome.resultKind.elim PyValue.none .str).same (PyValue.get members "result_kind") = true :=
    same_get hmembers "result_kind" (by simp)
  have hcoverage : outcome.coverage.asRecord.same (PyValue.get members "coverage") = true :=
    same_get hmembers "coverage" (by simp)
  have hblocking : (PyValue.list (outcome.blocking.map BlockingItem.asRecord)).same (PyValue.get members "blocking") =
      true := same_get hmembers "blocking" (by simp)
  have hpayload : outcome.payload.asRecord.same (PyValue.get members "payload") = true :=
    same_get hmembers "payload" (by simp)
  obtain ⟨values, hvalues, hitems⟩ := readBlocking_of_same hblocking
  refine except_bind_eq_ok.mpr ⟨members, rfl, ?_⟩
  refine except_bind_eq_ok.mpr ⟨outcome.semanticStatus, required_eq_ok.mpr ?_, ?_⟩
  · rw [PyValue.same_str_iff.mp hstatus]
    exact semantic?_text _
  refine except_bind_eq_ok.mpr ⟨outcome.coverage, readCoverage_of_same hcoverage, ?_⟩
  refine except_bind_eq_ok.mpr ⟨values, hvalues, ?_⟩
  refine except_bind_eq_ok.mpr ⟨outcome.blocking, hitems, ?_⟩
  refine except_bind_eq_ok.mpr ⟨outcome.payload, readPayload_of_same hpayload, ?_⟩
  have hresult : (PyValue.get members "result_kind").str? = outcome.resultKind := by
    cases hnone : outcome.resultKind with
    | none =>
      rw [hnone] at hkind
      rw [PyValue.same_none_iff.mp hkind]
      rfl
    | some kind =>
      rw [hnone] at hkind
      rw [PyValue.same_str_iff.mp hkind]
      rfl
  rw [dif_pos outcome.distinct, PyValue.same_str_iff.mp hengine, hresult]
  unfold CanonicalOutcome.Normalised at hnormal
  rw [hnormal]
  rfl

theorem normalised_of_outcomeFromRecord (h : outcomeFromRecord spelled textOf record = .ok outcome) :
    outcome.Normalised textOf := by
  unfold outcomeFromRecord at h
  rcases except_bind_eq_ok.mp h with ⟨members, _, h⟩
  rcases except_bind_eq_ok.mp h with ⟨status, _, h⟩
  rcases except_bind_eq_ok.mp h with ⟨coverage, _, h⟩
  rcases except_bind_eq_ok.mp h with ⟨values, _, h⟩
  rcases except_bind_eq_ok.mp h with ⟨blocking, _, h⟩
  rcases except_bind_eq_ok.mp h with ⟨payload, _, h⟩
  split at h
  · cases h
    exact engineName_engineName _
  · cases h

theorem except_bind_eq_error {ε α β : Type} {x : Except ε α} {f : α → Except ε β} {e : ε} :
    (x >>= f) = .error e ↔ x = .error e ∨ ∃ a, x = .ok a ∧ f a = .error e := by
  cases x with
  | error e' =>
    show Except.error e' = Except.error e ↔ _
    constructor
    · intro h
      cases h
      exact Or.inl rfl
    · rintro (h | ⟨a, h, _⟩)
      · cases h
        rfl
      · cases h
  | ok a =>
    constructor
    · exact fun h => Or.inr ⟨a, rfl, h⟩
    · rintro (h | ⟨b, h, hf⟩)
      · cases h
      · cases h
        exact hf

theorem required_eq_error {ε α : Type} {o : Option α} {e e' : ε} (h : required o e = .error e') : o = none ∧ e = e' := by
  cases o with
  | none =>
    cases h
    exact ⟨rfl, rfl⟩
  | some a => cases h

variable {x : Except PyValue.IntFailure ℤ} {value : PyValue} {values : List PyValue}

theorem mapError_eq_ok {f : PyValue.IntFailure → OutcomeFailure} {z : ℤ} : x.mapError f = .ok z ↔ x = .ok z := by
  cases x with
  | ok z' =>
    constructor
    · rintro ⟨⟩
      rfl
    · rintro ⟨⟩
      rfl
  | error failure =>
    constructor
    · rintro ⟨⟩
    · rintro ⟨⟩

theorem mapError_caught_eq_refusal :
    x.mapError caught = .error .refusal ↔ ∃ failure ≠ PyValue.IntFailure.overflowError, x = .error failure := by
  constructor
  · intro h
    cases x with
    | ok z => cases h
    | error failure =>
      refine ⟨failure, ?_, rfl⟩
      rintro rfl
      cases h
  · rintro ⟨failure, hcaught, rfl⟩
    cases failure with
    | overflowError => exact absurd rfl hcaught
    | _ => rfl

theorem required_eq_error_iff {ε α : Type} {o : Option α} {e : ε} : required o e = .error e ↔ o = none :=
  ⟨fun h => (required_eq_error h).1, fun h => by rw [h]; rfl⟩

theorem refuseIf_eq_error_iff {ε : Type} {p : Prop} [Decidable p] {e : ε} : refuseIf p e = .error e ↔ p := by
  unfold refuseIf
  split
  · exact iff_of_true rfl ‹p›
  · rename_i hnot
    constructor
    · rintro ⟨⟩
    · exact fun h => absurd h hnot

theorem readCoverage_eq_ok :
    (∃ coverage, readCoverage spelled value = .ok coverage) ↔ CoverageStated spelled value := by
  unfold readCoverage CoverageStated Whole
  simp only [except_bind_eq_ok, mapError_eq_ok, refuseIf_eq_ok, not_or, not_lt, pure, Except.pure, Except.ok.injEq]
  constructor
  · rintro ⟨_, produced, hproduced, outstanding, houtstanding, _, hsigns, _⟩
    exact ⟨produced, outstanding, hproduced, houtstanding, hsigns⟩
  · rintro ⟨produced, outstanding, hproduced, houtstanding, hsigns⟩
    exact ⟨_, produced, hproduced, outstanding, houtstanding, ⟨⟩, hsigns, rfl⟩

theorem readCoverage_eq_refusal : readCoverage spelled value = .error .refusal ↔ CoverageRefused spelled value := by
  unfold readCoverage CoverageRefused Whole NotWhole
  simp only [except_bind_eq_error, mapError_eq_ok, mapError_caught_eq_refusal, refuseIf_eq_error_iff, pure,
    Except.pure, reduceCtorEq, and_false, exists_false, or_false]

theorem readBlockingItem_eq_ok {code : BlockingCode} :
    (∃ item, readBlockingItem spelled value = .ok item ∧ item.code = code) ↔ ItemStated spelled value code := by
  constructor
  · rintro ⟨item, h, rfl⟩
    obtain ⟨members, hmembers, h⟩ := except_bind_eq_ok.mp h
    obtain ⟨code, hcode, h⟩ := except_bind_eq_ok.mp h
    obtain ⟨count, hcount, h⟩ := except_bind_eq_ok.mp h
    split at h
    · rename_i hpositive
      cases h
      exact ⟨members, count, required_eq_ok.mp hmembers, required_eq_ok.mp hcode, mapError_eq_ok.mp hcount,
        hpositive⟩
    · cases h
  · rintro ⟨members, count, hmembers, hcode, hcount, hpositive⟩
    refine ⟨⟨code, count.toNat, by omega⟩, ?_, rfl⟩
    refine except_bind_eq_ok.mpr ⟨members, required_eq_ok.mpr hmembers, ?_⟩
    refine except_bind_eq_ok.mpr ⟨code, required_eq_ok.mpr hcode, ?_⟩
    exact except_bind_eq_ok.mpr ⟨count, mapError_eq_ok.mpr hcount, dif_pos hpositive⟩

theorem readBlockingItem_eq_refusal :
    readBlockingItem spelled value = .error .refusal ↔ ItemRefused spelled value := by
  have hcount : ∀ (code : BlockingCode) (count : ℤ), ((if h : 1 ≤ count then pure ⟨code, count.toNat, by omega⟩
      else .error .refusal : Except OutcomeFailure BlockingItem) = .error .refusal) ↔ count < 1 := by
    intro code count
    split
    · rename_i hpositive
      exact ⟨fun h => (by cases h), fun h => absurd h (not_lt.mpr hpositive)⟩
    · rename_i hnone
      exact ⟨fun _ => not_le.mp hnone, fun _ => rfl⟩
  unfold readBlockingItem ItemRefused Whole NotWhole
  simp only [except_bind_eq_error, required_eq_ok, required_eq_error_iff, mapError_eq_ok,
    mapError_caught_eq_refusal, hcount, Option.isSome_iff_exists, exists_and_right]

/-- The items before the first one that is refused are read; induction on the items. -/
theorem mapM_eq_refusal :
    values.mapM (readBlockingItem spelled) = .error .refusal ↔
      ∃ before item after, values = before ++ item :: after ∧
        (∀ value ∈ before, ∃ code, ItemStated spelled value code) ∧ ItemRefused spelled item := by
  induction values with
  | nil => simp [pure, Except.pure]
  | cons value values ih =>
    rw [List.mapM_cons, except_bind_eq_error, readBlockingItem_eq_refusal]
    constructor
    · rintro (hrefused | ⟨item, hitem, h⟩)
      · exact ⟨[], value, values, rfl, by simp, hrefused⟩
      · rcases except_bind_eq_error.mp h with h | ⟨_, _, h⟩
        · obtain ⟨before, refused, after, rfl, hbefore, hrefused⟩ := ih.mp h
          refine ⟨value :: before, refused, after, rfl, ?_, hrefused⟩
          rw [List.forall_mem_cons]
          exact ⟨⟨item.code, readBlockingItem_eq_ok.mp ⟨item, hitem, rfl⟩⟩, hbefore⟩
        · cases h
    · rintro ⟨before, refused, after, heq, hbefore, hrefused⟩
      cases before with
      | nil =>
        cases heq
        exact Or.inl hrefused
      | cons first before =>
        cases heq
        rw [List.forall_mem_cons] at hbefore
        obtain ⟨code, hcode⟩ := hbefore.1
        obtain ⟨item, hitem, -⟩ := readBlockingItem_eq_ok.mpr hcode
        exact Or.inr ⟨item, hitem, except_bind_eq_error.mpr (Or.inl (ih.mpr ⟨before, refused, after, rfl,
          hbefore.2, hrefused⟩))⟩

theorem mapM_eq_ok {codes : List BlockingCode} :
    (∃ blocking, values.mapM (readBlockingItem spelled) = .ok blocking ∧ blocking.map BlockingItem.code = codes) ↔
      List.Forall₂ (ItemStated spelled) values codes := by
  induction values generalizing codes with
  | nil =>
    constructor
    · rintro ⟨blocking, h, rfl⟩
      cases h
      exact List.Forall₂.nil
    · rintro ⟨⟩
      exact ⟨[], rfl, rfl⟩
  | cons value values ih =>
    simp only [List.mapM_cons, except_bind_eq_ok]
    constructor
    · rintro ⟨_, ⟨item, hitem, blocking, hblocking, h⟩, rfl⟩
      cases h
      exact List.Forall₂.cons (readBlockingItem_eq_ok.mp ⟨item, hitem, rfl⟩) (ih.mp ⟨blocking, hblocking, rfl⟩)
    · rintro (_ | ⟨hfirst, hrest⟩)
      obtain ⟨item, hitem, rfl⟩ := readBlockingItem_eq_ok.mpr hfirst
      obtain ⟨blocking, hblocking, rfl⟩ := ih.mpr hrest
      exact ⟨item :: blocking, ⟨item, hitem, blocking, hblocking, rfl⟩, rfl⟩

theorem blockingValues_eq_ok : blockingValues value = .ok values ↔ Iterates value values := by
  unfold blockingValues
  constructor
  · intro h
    split at h
    · rename_i htruthy
      split at h
      · cases h
        exact .list htruthy
      · cases h
        exact .text htruthy
      · cases h
        exact .mapping htruthy
      · cases h
    · rename_i hfalsy
      cases h
      exact .nothing (Bool.not_eq_true _ ▸ hfalsy)
  · rintro (h | h | h | h)
    · rw [h]
      rfl
    all_goals rw [if_pos h]

theorem blockingValues_ne_refusal (value : PyValue) : blockingValues value ≠ .error .refusal := by
  intro h
  unfold blockingValues at h
  split at h
  · split at h <;> cases h
  · cases h

/-- A payload is never refused: it is read, or its size breaks the reader. -/
theorem readPayload_ne_refusal (value : PyValue) : readPayload spelled textOf value ≠ .error .refusal := by
  intro h
  rcases except_bind_eq_error.mp h with hsize | ⟨_, _, hpure⟩
  · cases hread : PyValue.intOr spelled 0 (PyValue.get (value.members?.getD []) "byte_size") with
    | ok z =>
      rw [hread] at hsize
      cases hsize
    | error failure =>
      rw [hread] at hsize
      cases hsize
  · cases hpure

theorem readPayload_eq_ok :
    (∃ payload, readPayload spelled textOf value = .ok payload) ↔
    ∃ byteSize, Whole spelled 0 (PyValue.get (value.members?.getD []) "byte_size") byteSize := by
  unfold readPayload Whole
  simp only [except_bind_eq_ok, mapError_eq_ok]
  exact ⟨fun ⟨_, size, h, _⟩ => ⟨size, h⟩, fun ⟨size, h⟩ => ⟨_, size, h, rfl⟩⟩

theorem refused_iff : outcomeFromRecord spelled textOf record = .error .refusal ↔ Refused spelled record := by
  constructor
  · -- the first stage that refuses names the part; the stages before it were passed
    intro h
    unfold outcomeFromRecord at h
    rcases except_bind_eq_error.mp h with hshape | ⟨members, hmembers, h⟩
    · exact .shape (required_eq_error hshape).1
    have hmembers := required_eq_ok.mp hmembers
    rcases except_bind_eq_error.mp h with hstatus | ⟨status, hstatus, h⟩
    · exact .status hmembers (required_eq_error hstatus).1
    have hstatus := Option.isSome_iff_exists.mpr ⟨status, required_eq_ok.mp hstatus⟩
    rcases except_bind_eq_error.mp h with hcoverage | ⟨coverage, hcoverage, h⟩
    · exact .coverage hmembers hstatus (readCoverage_eq_refusal.mp hcoverage)
    have hcoverage := readCoverage_eq_ok.mp ⟨coverage, hcoverage⟩
    rcases except_bind_eq_error.mp h with hvalues | ⟨values, hvalues, h⟩
    · exact absurd hvalues (blockingValues_ne_refusal _)
    have hvalues := blockingValues_eq_ok.mp hvalues
    rcases except_bind_eq_error.mp h with hblocking | ⟨blocking, hblocking, h⟩
    · obtain ⟨before, item, after, rfl, hbefore, hrefused⟩ := mapM_eq_refusal.mp hblocking
      exact .blocking hmembers hstatus hcoverage hvalues hbefore hrefused
    rcases except_bind_eq_error.mp h with hpayload | ⟨payload, hpayload, h⟩
    · exact absurd hpayload (readPayload_ne_refusal _)
    obtain ⟨byteSize, hsize⟩ := readPayload_eq_ok.mp ⟨payload, hpayload⟩
    split at h
    · cases h
    · rename_i hrepeated
      exact .repeated hmembers hstatus hcoverage hvalues (mapM_eq_ok.mp ⟨blocking, hblocking, rfl⟩) hsize hrepeated
  · -- each constructor names the first part that cannot be read; those before it are read
    intro h
    unfold outcomeFromRecord
    cases h with
    | shape h =>
      rw [h]
      rfl
    | status hmembers h =>
      rw [hmembers]
      refine except_bind_eq_error.mpr (Or.inr ⟨_, rfl, ?_⟩)
      rw [h]
      rfl
    | coverage hmembers hstatus h =>
      obtain ⟨status, hstatus⟩ := Option.isSome_iff_exists.mp hstatus
      rw [hmembers]
      refine except_bind_eq_error.mpr (Or.inr ⟨_, rfl, ?_⟩)
      refine except_bind_eq_error.mpr (Or.inr ⟨_, required_eq_ok.mpr hstatus, ?_⟩)
      exact except_bind_eq_error.mpr (Or.inl (readCoverage_eq_refusal.mpr h))
    | @blocking members before after item hmembers hstatus hcoverage hvalues hbefore h =>
      obtain ⟨status, hstatus⟩ := Option.isSome_iff_exists.mp hstatus
      obtain ⟨coverage, hcoverage⟩ := readCoverage_eq_ok.mpr hcoverage
      rw [hmembers]
      refine except_bind_eq_error.mpr (Or.inr ⟨_, rfl, ?_⟩)
      refine except_bind_eq_error.mpr (Or.inr ⟨_, required_eq_ok.mpr hstatus, ?_⟩)
      refine except_bind_eq_error.mpr (Or.inr ⟨_, hcoverage, ?_⟩)
      refine except_bind_eq_error.mpr (Or.inr ⟨_, blockingValues_eq_ok.mpr hvalues, ?_⟩)
      exact except_bind_eq_error.mpr (Or.inl (mapM_eq_refusal.mpr ⟨before, item, after, rfl, hbefore, h⟩))
    | repeated hmembers hstatus hcoverage hvalues hcodes hpayload h =>
      obtain ⟨status, hstatus⟩ := Option.isSome_iff_exists.mp hstatus
      obtain ⟨coverage, hcoverage⟩ := readCoverage_eq_ok.mpr hcoverage
      obtain ⟨blocking, hblocking, rfl⟩ := mapM_eq_ok.mpr hcodes
      obtain ⟨payload, hpayload⟩ := readPayload_eq_ok.mpr ⟨_, hpayload⟩
      rw [hmembers]
      refine except_bind_eq_error.mpr (Or.inr ⟨_, rfl, ?_⟩)
      refine except_bind_eq_error.mpr (Or.inr ⟨_, required_eq_ok.mpr hstatus, ?_⟩)
      refine except_bind_eq_error.mpr (Or.inr ⟨_, hcoverage, ?_⟩)
      refine except_bind_eq_error.mpr (Or.inr ⟨_, blockingValues_eq_ok.mpr hvalues, ?_⟩)
      refine except_bind_eq_error.mpr (Or.inr ⟨_, hblocking, ?_⟩)
      refine except_bind_eq_error.mpr (Or.inr ⟨_, hpayload, ?_⟩)
      exact dif_neg h

/-- A value is read as recorded exactly if it is a record or one the reader refuses. -/
theorem readAsRecorded_iff :
    ReadAsRecorded spelled textOf record ↔ IsRecord textOf record ∨ Refused spelled record := by
  constructor
  · rintro ⟨hread, hrefused⟩
    cases hresult : outcomeFromRecord spelled textOf record with
    | ok outcome => exact Or.inl ⟨outcome, normalised_of_outcomeFromRecord hresult, hread outcome hresult⟩
    | error failure =>
      have hfailure := hrefused failure hresult
      rw [hfailure] at hresult
      exact Or.inr (refused_iff.mp hresult)
  · rintro (⟨outcome, hnormal, hsame⟩ | hrefused)
    · have hread : outcomeFromRecord spelled textOf record = .ok outcome := outcomeFromRecord_of_same hnormal hsame
      constructor
      · intro other hother
        rw [hread] at hother
        cases hother
        exact hsame
      · intro failure hfailure
        rw [hread] at hfailure
        cases hfailure
    · have hread : outcomeFromRecord spelled textOf record = .error .refusal := refused_iff.mpr hrefused
      constructor
      · intro other hother
        rw [hread] at hother
        cases hother
      · intro failure hfailure
        rw [hread] at hfailure
        cases hfailure
        rfl

/-- A mapping equals itself if its keys are distinct and its values do. -/
theorem same_dict_self {members : List (List Char × PyValue)} (hkeys : (members.map Prod.fst).Nodup)
    (h : ∀ e ∈ members, e.2.same e.2 = true) : (PyValue.dict members).same (.dict members) = true :=
  PyValue.same_dict_iff.mpr ⟨members, rfl, rfl, fun e he => ⟨e.2, (Dict.lookup_eq_some_iff_mem hkeys).mpr he, h e he⟩⟩

theorem same_list_self {α : Type} {items : List α} {write : α → PyValue} (h : ∀ a ∈ items, (write a).same (write a) = true) :
    (PyValue.list (items.map write)).same (.list (items.map write)) = true := by
  refine PyValue.same_list_iff.mpr ⟨_, rfl, ?_⟩
  rw [List.forall₂_same]
  intro value hvalue
  obtain ⟨a, ha, rfl⟩ := List.mem_map.mp hvalue
  exact h a ha

theorem same_asRecord (outcome : CanonicalOutcome) : outcome.asRecord.same outcome.asRecord = true := by
  have hstr : ∀ text : List Char, (PyValue.str text).same (.str text) = true := fun _ => PyValue.same_str_iff.mpr rfl
  have hint : ∀ z : ℤ, (PyValue.int z).same (.int z) = true := fun _ => PyValue.same_int_iff.mpr rfl
  have hcoverage : outcome.coverage.asRecord.same outcome.coverage.asRecord = true := by
    have hratio : outcome.coverage.ratio.same outcome.coverage.ratio = true := by
      unfold Coverage.ratio
      dsimp only
      split
      · rfl
      · exact PyValue.same_finite_iff.mpr rfl
    refine same_dict_self (by simp [entry]) ?_
    rw [List.forall_mem_cons, List.forall_mem_cons, List.forall_mem_singleton]
    exact ⟨hint _, hint _, hratio⟩
  have hitem : ∀ item : BlockingItem, item.asRecord.same item.asRecord = true := by
    intro item
    refine same_dict_self (by simp [entry]) ?_
    rw [List.forall_mem_cons, List.forall_mem_singleton]
    exact ⟨hstr _, hint _⟩
  have hpayload : outcome.payload.asRecord.same outcome.payload.asRecord = true := by
    refine same_dict_self (by simp [entry]) ?_
    rw [List.forall_mem_cons, List.forall_mem_cons, List.forall_mem_cons, List.forall_mem_singleton]
    exact ⟨PyValue.same_bool_iff.mpr rfl, hstr _, hint _, same_list_self fun text _ => hstr text⟩
  have hkind : (outcome.resultKind.elim PyValue.none .str).same (outcome.resultKind.elim .none .str) = true := by
    cases outcome.resultKind with
    | none => rfl
    | some kind => exact hstr kind
  refine same_dict_self (by simp [entry]) ?_
  simp only [List.forall_mem_cons]
  exact ⟨hstr _, hstr _, hstr _, hkind, hcoverage, same_list_self fun item _ => hitem item, hpayload,
    fun e he => absurd he List.not_mem_nil⟩

end Records

/-- Every outcome is read back from its record, and which values are read as recorded. -/
structure OutcomeRecords (spelled : List Char → Option ℤ) (textOf : PyValue → List Char) : Prop where
  readBack : ∀ outcome : CanonicalOutcome, outcome.Normalised textOf →
    outcomeFromRecord spelled textOf outcome.asRecord = .ok outcome
  exact : ∀ record, ReadAsRecorded spelled textOf record ↔ IsRecord textOf record ∨ Refused spelled record

theorem outcomeRecords (spelled : List Char → Option ℤ) (textOf : PyValue → List Char) : OutcomeRecords spelled textOf where
  readBack := fun outcome hnormal => outcomeFromRecord_of_same hnormal (same_asRecord outcome)
  exact := fun _ => readAsRecorded_iff

/-- A status alone is believed as a complete outcome that counted nothing. -/
theorem statusAlone_believed :
    ¬∀ spelled textOf record, ReadAsRecorded spelled textOf record := by
  intro h
  have hread := (h (fun _ => none) (fun _ => []) (.dict [entry "semantic_status" (.str "complete".toList)])).1 _ rfl
  exact absurd hread (by decide +kernel)

end Milo.Finalization
