import Milo.Catalog.VariantPages

/-!
# HandedRows — register codes bind a call to a row the run was handed

A call that states the register's own codes is answered only when it describes a row of the run's
queue.  Every filter it states is then one that row satisfies, so the row is among the matches, and a
unique match is that row.
-/

namespace Milo.Catalog

open Milo.Reasoning Milo.Python

/-! ## 1. Calls and handed rows -/

/-- `REGISTER_CODE_FILTERS`. -/
inductive RegisterCode
  | registerManufacturerCode
  | registerModelCode
  | vehicleTypeCode
  deriving DecidableEq, Repr

def registerCodeFilters : List RegisterCode :=
  [.registerManufacturerCode, .registerModelCode, .vehicleTypeCode]

theorem mem_registerCodeFilters (name : RegisterCode) : name ∈ registerCodeFilters := by
  cases name <;> decide

/-- The payload of a `resolve_variant` call, each argument stated or not. -/
structure ResolvePayload where
  manufacturer : Option Text := none
  commercialModel : Option Text := none
  modelYear : Option ℤ := none
  trim : Option Text := none
  officialModelCode : Option Text := none
  registerManufacturerCode : Option Text := none
  registerModelCode : Option Text := none
  vehicleTypeCode : Option Text := none

def ResolvePayload.code (payload : ResolvePayload) : RegisterCode → Option Text
  | .registerManufacturerCode => payload.registerManufacturerCode
  | .registerModelCode => payload.registerModelCode
  | .vehicleTypeCode => payload.vehicleTypeCode

/-- The register codes a call states. -/
def ResolvePayload.statedCodes (payload : ResolvePayload) : List (RegisterCode × Text) :=
  registerCodeFilters.filterMap fun name => (payload.code name).map fun value => (name, value)

/-- One item of the queue the server handed the run. -/
structure GovernmentWorkItem where
  manufacturer : Text
  commercialModel : Text
  modelYearStart : Option ℤ
  modelYearEnd : Option ℤ
  officialModelCode : Option Text
  trim : Option Text
  registerManufacturerCode : Option Text
  registerModelCode : Option Text
  vehicleTypeCode : Option Text

def GovernmentWorkItem.code (item : GovernmentWorkItem) : RegisterCode → Option Text
  | .registerManufacturerCode => item.registerManufacturerCode
  | .registerModelCode => item.registerModelCode
  | .vehicleTypeCode => item.vehicleTypeCode

structure HandedRegisterRow where
  manufacturer : Text
  commercialModel : Text
  modelYearStart : Option ℤ
  modelYearEnd : Option ℤ
  officialModelCode : Option Text
  trim : Option Text
  registerCodes : RegisterCode → Option Text

namespace HandedRegisterRow

variable (row : HandedRegisterRow) (payload : ResolvePayload)

/-- `HandedRegisterRow.could_answer`. -/
def couldAnswer : Bool :=
  if payload.manufacturer.any (fun value => decide (value ≠ row.manufacturer)) ||
      payload.commercialModel.any (fun value => decide (value ≠ row.commercialModel)) ||
      payload.trim.any (fun value => decide (some value ≠ row.trim)) ||
      payload.officialModelCode.any (fun value => decide (some value ≠ row.officialModelCode)) then
    false
  else
    match payload.modelYear with
    | none => true
    | some year =>
      match row.modelYearStart, row.modelYearEnd with
      | some start, some stop => decide (start ≤ year) && decide (year ≤ stop)
      | _, _ => false

/-- `HandedRegisterRow.describes`. -/
def describes : Bool :=
  if payload.statedCodes.isEmpty ||
      payload.statedCodes.any (fun code => decide (row.registerCodes code.1 ≠ some code.2)) then
    false
  else if payload.manufacturer.isNone || payload.commercialModel.isNone ||
      payload.modelYear.isNone then false
  else row.couldAnswer payload

end HandedRegisterRow

/-- What the binding checks of an item. -/
def GovernmentWorkItem.handedRow (item : GovernmentWorkItem) : HandedRegisterRow where
  manufacturer := item.manufacturer
  commercialModel := item.commercialModel
  modelYearStart := item.modelYearStart
  modelYearEnd := item.modelYearEnd
  officialModelCode := item.officialModelCode
  trim := item.trim
  registerCodes := item.code

/-- `handed_register_rows`: every item that states register codes. -/
def handedRegisterRows (items : List GovernmentWorkItem) : List HandedRegisterRow :=
  (items.filter fun item => registerCodeFilters.any fun name => (item.code name).isSome).map
    GovernmentWorkItem.handedRow

/-- The item of a candidate, with the codes of its own register row. -/
def CandidateVariantRow.workItem (row : CandidateVariantRow) : GovernmentWorkItem where
  manufacturer := columnString row.reading.manufacturer
  commercialModel := columnString row.reading.commercialModel
  modelYearStart := row.reading.modelYearStart
  modelYearEnd := row.reading.modelYearEnd
  officialModelCode := row.reading.officialModelCode
  trim := row.reading.trim
  registerManufacturerCode := row.registerManufacturerCode
  registerModelCode := row.registerModelCode
  vehicleTypeCode := row.vehicleTypeCode

/-- The columns that are never null. -/
def CandidateVariantRow.NamesVehicle (row : CandidateVariantRow) : Prop :=
  row.reading.manufacturer ≠ none ∧ row.reading.commercialModel ≠ none

/-! ## 2. The rule of the plan and the tool -/

def governmentToolName : Text := "catalog.government_vehicle".toList

/-- A call of a plan, with the arguments that dependency bindings supply at execution. -/
structure PlannedResolve where
  name : Text
  operation : Text
  arguments : ResolvePayload
  boundArguments : List RegisterCode

/-- `register_code_plan_rule`: the reason the plan is refused, where there is one. -/
def registerCodePlanRule (rows : List HandedRegisterRow) (call : PlannedResolve) : Option String :=
  if (call.name, call.operation) ≠ (governmentToolName, "resolve_variant".toList) ∨ rows = [] then
    none
  else if call.arguments.statedCodes ≠ [] then
    if ∃ row ∈ rows, row.describes call.arguments = true then none
    else some "REGISTER_CODE_NOT_IN_BATCH"
  else if call.boundArguments ≠ [] then none
  else if ∃ row ∈ rows, row.couldAnswer call.arguments = true then some "REGISTER_CODES_REQUIRED"
  else none

/-- What `resolve_variant` of the tool raises. -/
inductive ResolveFailure
  | registerCodeNotInBatch
  | missingArgument
  | read (failure : ReadFailure)
  deriving DecidableEq, Repr

def ResolveFailure.code : ResolveFailure → Option String
  | registerCodeNotInBatch => some "GOVERNMENT_REGISTER_CODE_NOT_IN_BATCH"
  | missingArgument => none
  | read failure => failure.code

section Tool

variable (readFloat : ℤ → ℕ → Option PyFloat) (handedRows : List HandedRegisterRow)
  (s : CatalogSnapshot)

/-- `GovernmentVehicleTool._op_resolve_variant`. -/
def opResolveVariant (payload : ResolvePayload) : Except ResolveFailure VariantResolutionResult := do
  refuseIf (payload.statedCodes ≠ [] ∧ ¬ ∃ row ∈ handedRows, row.describes payload = true)
    .registerCodeNotInBatch
  let manufacturer ← required payload.manufacturer .missingArgument
  let commercialModel ← required payload.commercialModel .missingArgument
  let modelYear ← required payload.modelYear .missingArgument
  (GovernmentCatalogQuery.resolveVariant readFloat s
    { manufacturer := manufacturer
      commercialModel := commercialModel
      modelYear := modelYear
      trim := payload.trim
      officialModelCode := payload.officialModelCode
      registerManufacturerCode := payload.registerManufacturerCode
      registerModelCode := payload.registerModelCode
      vehicleTypeCode := payload.vehicleTypeCode }).mapError .read

end Tool

/-! ## 3. A described row is among the matches -/

variable {payload : ResolvePayload}

theorem mem_statedCodes {name : RegisterCode} {value : Text} :
    (name, value) ∈ payload.statedCodes ↔ payload.code name = some value := by
  unfold ResolvePayload.statedCodes
  rw [List.mem_filterMap]
  constructor
  · rintro ⟨name', -, h⟩
    obtain ⟨value', hvalue, heq⟩ := Option.map_eq_some_iff.mp h
    cases heq
    exact hvalue
  · intro h
    exact ⟨name, mem_registerCodeFilters name, by rw [h]; rfl⟩

/-- What a described row meets: every argument the call states. -/
structure HandedRegisterRow.Meets (row : HandedRegisterRow) (payload : ResolvePayload) : Prop where
  codes : ∀ name value, payload.code name = some value → row.registerCodes name = some value
  manufacturer : ∀ value, payload.manufacturer = some value → value = row.manufacturer
  commercialModel : ∀ value, payload.commercialModel = some value → value = row.commercialModel
  trim : ∀ value, payload.trim = some value → row.trim = some value
  officialModelCode : ∀ value, payload.officialModelCode = some value →
    row.officialModelCode = some value
  modelYear : ∀ year, payload.modelYear = some year → ∃ start stop,
    row.modelYearStart = some start ∧ row.modelYearEnd = some stop ∧ start ≤ year ∧ year ≤ stop

theorem meets_of_describes {row : HandedRegisterRow} (h : row.describes payload = true) : row.Meets payload := by
  unfold HandedRegisterRow.describes at h
  split at h
  · cases h
  split at h
  · cases h
  rename_i hcodes _
  simp only [Bool.or_eq_true, List.any_eq_true, decide_eq_true_eq, not_or, not_exists, not_and,
    not_not] at hcodes
  unfold HandedRegisterRow.couldAnswer at h
  split at h
  · cases h
  rename_i hstated
  simp only [Bool.or_eq_true, Option.any_eq_true_iff_get, decide_eq_true_eq, not_or, not_exists,
    not_not] at hstated
  obtain ⟨⟨⟨hmake, hmodel⟩, htrim⟩, hcode⟩ := hstated
  refine ⟨fun name value hvalue => hcodes.2 _ (mem_statedCodes.mpr hvalue), ?_, ?_, ?_, ?_, ?_⟩
  · intro value hvalue
    simpa [hvalue] using hmake
  · intro value hvalue
    simpa [hvalue] using hmodel
  · intro value hvalue
    simpa [hvalue, eq_comm] using htrim
  · intro value hvalue
    simpa [hvalue, eq_comm] using hcode
  · intro year hyear
    rw [hyear] at h
    dsimp only at h
    split at h
    · rename_i start stop hstart hstop
      simp only [Bool.and_eq_true, decide_eq_true_eq] at h
      exact ⟨start, stop, hstart, hstop, h.1, h.2⟩
    · cases h

/-! ## 4. A unique match is the described row -/

theorem variantRow_eq_ok {row row' : CandidateVariantRow} (h : variantRow row = .ok row') :
    row' = row := by
  unfold variantRow at h
  split at h
  · cases h
    rfl
  · cases h

namespace GovernmentCatalogQuery

variable {readFloat : ℤ → ℕ → Option PyFloat} {s : CatalogSnapshot} {request : VariantFilters}

/-- The items of a first page are matches, and its total counts them all. -/
theorem listVariants_eq_ok {filters : PageFilters} {limit : ℤ} {p : QueryPage}
    (h : listVariants s filters limit 0 = .ok p) : p.total = (s.variantListing filters).length ∧
      ∀ row ∈ p.items, row ∈ s.variantListing filters := by
  by_cases haccepted : (filters.accepted && isInteger (boundedOffset 0)) = true
  · unfold listVariants at h
    rw [read_eq haccepted] at h
    obtain ⟨answer, hread, h⟩ := except_bind_eq_ok.mp h
    cases hread
    obtain ⟨items, hitems, h⟩ := except_bind_eq_ok.mp h
    cases h
    refine ⟨rfl, fun row hrow => ?_⟩
    obtain ⟨row', hrow', hread⟩ := exists_of_mem_mapM hitems hrow
    rw [variantRow_eq_ok hread]
    exact (page_sublist _ _ _).subset hrow'
  · rw [listVariants_refused ((Bool.not_eq_true _).mp haccepted)] at h
    cases h

/-- A row that meets the stated filters is the one that a resolution answers. -/
theorem variant_eq_of_admits {handed row : CandidateVariantRow} {result : VariantResolutionResult}
    (hhanded : handed ∈ s.candidateRows) (hadmits : request.page.admits handed = true)
    (h : resolveVariant readFloat s request = .ok result) (hvariant : result.variant = some row) :
    row = handed := by
  have hlisted : handed ∈ s.variantListing request.page :=
    CatalogSnapshot.mem_variantListing.mpr ⟨hhanded, hadmits⟩
  obtain ⟨answer, hanswer, h⟩ := except_bind_eq_ok.mp h
  -- the exact spelling matches the handed row, so it is never tried again without the code
  have hexact : ∃ exact, listVariants s request.page maxResolutionMatches 0 = .ok exact ∧
      answer = (exact.items, exact.total, .exact) := by
    unfold resolutionMatches at hanswer
    obtain ⟨exact, hexact, hanswer⟩ := except_bind_eq_ok.mp hanswer
    refine ⟨exact, hexact, ?_⟩
    have htotal : exact.total ≠ 0 := by
      rw [(listVariants_eq_ok hexact).1]
      exact Nat.pos_iff_ne_zero.mp (List.length_pos_of_mem hlisted)
    cases hcode : request.officialModelCode with
    | none =>
      rw [hcode] at hanswer
      cases hanswer
      rfl
    | some code =>
      rw [hcode] at hanswer
      simp only [if_neg htotal] at hanswer
      cases hanswer
      rfl
  obtain ⟨exact, hexact, rfl⟩ := hexact
  obtain ⟨htotal, hitems⟩ := listVariants_eq_ok hexact
  have hresult : result.found = exact.items ∧ result.matchCount = exact.total := by
    split at h
    · rename_i first rest mode heq
      simp only [Prod.mk.injEq] at heq
      split at h
      · cases h
      · cases h
        exact ⟨heq.1.symm, heq.2.1.symm⟩
    · rename_i found matchCount mode hnot heq
      simp only [Prod.mk.injEq] at heq
      cases h
      exact ⟨heq.1.symm, heq.2.1.symm⟩
  unfold VariantResolutionResult.variant at hvariant
  rw [hresult.1, hresult.2] at hvariant
  by_cases hone : exact.total = 1
  · rw [if_pos hone] at hvariant
    rw [htotal] at hone
    obtain ⟨only, honly⟩ := List.length_eq_one_iff.mp hone
    have hrow := hitems row (List.mem_of_mem_head? hvariant)
    rw [honly, List.mem_singleton] at hrow hlisted
    rw [hrow, hlisted]
  · rw [if_neg hone] at hvariant
    cases hvariant

end GovernmentCatalogQuery

theorem admits_of_meets {row : CandidateVariantRow} {manufacturer commercialModel : Text} {modelYear : ℤ}
    (hstated : row.NamesVehicle) (hmake : payload.manufacturer = some manufacturer)
    (hmodel : payload.commercialModel = some commercialModel) (hyear : payload.modelYear = some modelYear)
    (h : row.workItem.handedRow.Meets payload) :
    (VariantFilters.page
      { manufacturer := manufacturer
        commercialModel := commercialModel
        modelYear := modelYear
        trim := payload.trim
        officialModelCode := payload.officialModelCode
        registerManufacturerCode := payload.registerManufacturerCode
        registerModelCode := payload.registerModelCode
        vehicleTypeCode := payload.vehicleTypeCode }).admits row = true := by
  obtain ⟨make, hreadMake⟩ := Option.ne_none_iff_exists'.mp hstated.1
  obtain ⟨model, hreadModel⟩ := Option.ne_none_iff_exists'.mp hstated.2
  have hsameMake : manufacturer = make := by
    have hmeets := h.manufacturer manufacturer hmake
    simpa [CandidateVariantRow.workItem, GovernmentWorkItem.handedRow, columnString, hreadMake]
      using hmeets
  have hsameModel : commercialModel = model := by
    have hmeets := h.commercialModel commercialModel hmodel
    simpa [CandidateVariantRow.workItem, GovernmentWorkItem.handedRow, columnString, hreadModel]
      using hmeets
  obtain ⟨start, stop, hstart, hstop, hfrom, hto⟩ := h.modelYear modelYear hyear
  have hmeets : ∀ stated value : Option Text, (∀ t, stated = some t → value = some t) →
      meets stated value = true := by
    intro stated value hvalue
    rw [meets_iff]
    cases stated with
    | none => exact .inl rfl
    | some t => exact .inr (hvalue t rfl)
  unfold PageFilters.admits VariantFilters.page
  simp only [Bool.and_eq_true]
  refine ⟨⟨⟨⟨⟨⟨⟨⟨⟨?_, ?_⟩, ?_⟩, ?_⟩, ?_⟩, ?_⟩, ?_⟩, ?_⟩, ?_⟩, ?_⟩
  · exact meets_iff.mpr (.inr (by rw [hreadMake, hsameMake]))
  · exact meets_iff.mpr (.inr (by rw [hreadModel, hsameModel]))
  · exact hmeets _ _ h.officialModelCode
  · exact hmeets _ _ h.trim
  · exact meets_iff.mpr (.inl rfl)
  · unfold PageFilters.meetsYear
    have hreadStart : row.reading.modelYearStart = some start := hstart
    have hreadStop : row.reading.modelYearEnd = some stop := hstop
    simp [hreadStart, hreadStop, hfrom, hto]
  · rfl
  · exact hmeets _ _ (h.codes .registerManufacturerCode)
  · exact hmeets _ _ (h.codes .registerModelCode)
  · exact hmeets _ _ (h.codes .vehicleTypeCode)

/-! ## 5. What the codes of a call can name -/

variable {readFloat : ℤ → ℕ → Option PyFloat} {s : CatalogSnapshot}

/-- The tool refuses a call for its codes exactly when it states some and describes no handed row. -/
theorem opResolveVariant_refused {handedRows : List HandedRegisterRow} :
    opResolveVariant readFloat handedRows s payload = .error .registerCodeNotInBatch ↔
      payload.statedCodes ≠ [] ∧ ¬ ∃ row ∈ handedRows, row.describes payload = true := by
  unfold opResolveVariant
  by_cases h : payload.statedCodes ≠ [] ∧ ¬ ∃ row ∈ handedRows, row.describes payload = true
  · rw [refuseIf, if_pos h]
    exact ⟨fun _ => h, fun _ => rfl⟩
  · rw [refuseIf, if_neg h]
    refine ⟨fun heq => ?_, fun h' => absurd h' h⟩
    have hnot : ∀ (α : Type) (x : Except ReadFailure α),
        x.mapError ResolveFailure.read ≠ .error .registerCodeNotInBatch := by
      intro α x hx
      cases x <;> cases hx
    cases hmake : payload.manufacturer with
    | none =>
      rw [hmake] at heq
      cases heq
    | some manufacturer =>
      cases hmodel : payload.commercialModel with
      | none =>
        rw [hmake, hmodel] at heq
        cases heq
      | some commercialModel =>
        cases hyear : payload.modelYear with
        | none =>
          rw [hmake, hmodel, hyear] at heq
          cases heq
        | some modelYear =>
          rw [hmake, hmodel, hyear] at heq
          exact absurd heq (hnot _ _)

/-- The row that a call resolves to is the handed row it describes. -/
theorem resolved_row_handed {items : List CandidateVariantRow} {rows : List HandedRegisterRow}
    {handed : HandedRegisterRow} {result : VariantResolutionResult} {row : CandidateVariantRow}
    (hitems : ∀ row ∈ items, row ∈ s.candidateRows ∧ row.NamesVehicle)
    (hhanded : handed ∈ handedRegisterRows (items.map CandidateVariantRow.workItem))
    (hdescribes : handed.describes payload = true) (hresult : opResolveVariant readFloat rows s payload = .ok result)
    (hvariant : result.variant = some row) : row ∈ items ∧ row.workItem.handedRow = handed := by
  unfold handedRegisterRows at hhanded
  obtain ⟨item, hitem, rfl⟩ := List.mem_map.mp hhanded
  obtain ⟨candidate, hcandidate, rfl⟩ := List.mem_map.mp (List.mem_filter.mp hitem).1
  unfold opResolveVariant at hresult
  simp only [except_bind_eq_ok, required_eq_ok, refuseIf_eq_ok, exists_const] at hresult
  obtain ⟨-, manufacturer, hmake, commercialModel, hmodel, modelYear, hyear, hresult⟩ := hresult
  obtain ⟨hstored, hnames⟩ := hitems candidate hcandidate
  have hadmits := admits_of_meets hnames hmake hmodel hyear (meets_of_describes hdescribes)
  have hread : ∀ x : Except ReadFailure VariantResolutionResult,
      x.mapError ResolveFailure.read = .ok result → x = .ok result := by
    intro x hx
    cases x with
    | error failure => cases hx
    | ok answer =>
      cases hx
      rfl
  rw [GovernmentCatalogQuery.variant_eq_of_admits hstored hadmits (hread _ hresult) hvariant]
  exact ⟨hcandidate, rfl⟩

/-- What the rule admits, where the run was handed rows with codes, the tool does not refuse. -/
theorem admitted_call_not_refused {rows : List HandedRegisterRow} {call : PlannedResolve}
    (hrows : rows ≠ []) (hname : call.name = governmentToolName)
    (hoperation : call.operation = "resolve_variant".toList)
    (hadmitted : registerCodePlanRule rows call = none) :
    opResolveVariant readFloat rows s call.arguments ≠ .error .registerCodeNotInBatch := by
  intro hrefused
  obtain ⟨hcodes, hdescribed⟩ := opResolveVariant_refused.mp hrefused
  unfold registerCodePlanRule at hadmitted
  rw [hname, hoperation, if_neg (by simp [hrows]), if_pos hcodes, if_neg hdescribed] at hadmitted
  cases hadmitted

/-- Codes name a handed row or nothing, and a plan that the rule admits over handed rows with codes is
    never refused for them. -/
theorem register_codes_bound (readFloat : ℤ → ℕ → Option PyFloat) (s : CatalogSnapshot) :
    (∀ (items : List CandidateVariantRow) (payload : ResolvePayload),
      (∀ row ∈ items, row ∈ s.candidateRows ∧ row.NamesVehicle) → payload.statedCodes ≠ [] →
      opResolveVariant readFloat (handedRegisterRows (items.map CandidateVariantRow.workItem)) s
          payload = .error .registerCodeNotInBatch ∨
        ∀ result row, opResolveVariant readFloat
            (handedRegisterRows (items.map CandidateVariantRow.workItem)) s payload = .ok result →
          result.variant = some row → row ∈ items ∧ row.workItem.handedRow ∈
            handedRegisterRows (items.map CandidateVariantRow.workItem)) ∧
    ∀ (rows : List HandedRegisterRow) (call : PlannedResolve), rows ≠ [] →
      call.name = governmentToolName → call.operation = "resolve_variant".toList →
      call.boundArguments = [] → registerCodePlanRule rows call = none →
      opResolveVariant readFloat rows s call.arguments ≠ .error .registerCodeNotInBatch := by
  refine ⟨?_, fun _ _ hrows hname hoperation _ hadmitted =>
    admitted_call_not_refused hrows hname hoperation hadmitted⟩
  intro items payload hitems hcodes
  by_cases hdescribed : ∃ row ∈ handedRegisterRows (items.map CandidateVariantRow.workItem),
      row.describes payload = true
  · obtain ⟨handed, hhanded, hdescribes⟩ := hdescribed
    right
    intro result row hresult hvariant
    obtain ⟨hrow, hsame⟩ := resolved_row_handed hitems hhanded hdescribes hresult hvariant
    exact ⟨hrow, hsame ▸ hhanded⟩
  · exact .inl (opResolveVariant_refused.mpr ⟨hcodes, hdescribed⟩)

def codedPayload : ResolvePayload where
  manufacturer := some "Mazda".toList
  commercialModel := some "3".toList
  modelYear := some 2020
  registerManufacturerCode := some "7".toList

theorem register_codes_bound_oneRow :
    opResolveVariant noFloat
        (handedRegisterRows (oneRow.candidateRows.map CandidateVariantRow.workItem)) oneRow
        codedPayload = .error .registerCodeNotInBatch ∨
      ∀ result row, opResolveVariant noFloat
          (handedRegisterRows (oneRow.candidateRows.map CandidateVariantRow.workItem)) oneRow
          codedPayload = .ok result →
        result.variant = some row → row ∈ oneRow.candidateRows ∧ row.workItem.handedRow ∈
          handedRegisterRows (oneRow.candidateRows.map CandidateVariantRow.workItem) := by
  refine (register_codes_bound noFloat oneRow).1 oneRow.candidateRows codedPayload ?_ (by decide)
  have hall : ∀ row ∈ oneRow.candidateRows, row.reading.manufacturer ≠ none ∧
      row.reading.commercialModel ≠ none := by decide +kernel
  exact fun row hrow => ⟨hrow, hall row hrow⟩

/-- A run that was handed no row with codes: the rule states nothing, and the tool refuses codes. -/
theorem admitted_call_refused :
    ¬ ∀ (rows : List HandedRegisterRow) (call : PlannedResolve), call.name = governmentToolName →
      call.operation = "resolve_variant".toList → call.boundArguments = [] →
      registerCodePlanRule rows call = none →
      opResolveVariant noFloat rows oneRow call.arguments ≠ .error .registerCodeNotInBatch := by
  intro h
  refine h (handedRegisterRows [])
    ⟨governmentToolName, "resolve_variant".toList, codedPayload, []⟩ rfl rfl rfl (by decide) ?_
  refine opResolveVariant_refused.mpr ⟨by decide, ?_⟩
  rintro ⟨row, hrow, -⟩
  cases hrow

end Milo.Catalog
