import Milo.Catalog.Compaction

/-!
# Resolution — one variant, before and after its payload is removed

The bounded candidate page narrows by what the caller states; a unique match is answered with the
identity fields of its register row, read from the payload while it exists and from the typed row
afterwards.
-/

namespace Milo.Catalog

open Milo.Reasoning Milo.Python

/-! ## 1. A snapshot -/

/-- A stored register row; the payload is removed by a compaction. -/
structure RawRecord where
  id : Text
  upstreamRecordId : Text
  resourceId : Text
  sourceLocator : Dict Text ℤ
  payloadSha256 : Text
  payload : Option Payload

/-- The identity columns of a candidate. -/
structure CandidateReading where
  manufacturer : Option Text := none
  commercialModel : Option Text := none
  modelYearStart : Option ℤ := none
  modelYearEnd : Option ℤ := none
  officialModelCode : Option Text := none
  trim : Option Text := none
  identityDimensions : Dict String Text := Dict.empty
  deriving DecidableEq

structure SnapshotCandidate where
  id : Text
  rawRecordId : Text
  status : Text
  candidateKey : Text
  identity : CandidateReading

/-- A Government snapshot with the typed rows built from it; `compacted` once its typed rows answer
    for its payloads. -/
structure CatalogSnapshot where
  records : List RawRecord
  candidates : List SnapshotCandidate
  variants : Dict Text CatalogVariant
  compacted : Bool

/-- `nullif(btrim(column), '')`. -/
def trimmedText (value : Option FieldValue) : Option Text :=
  match value with
  | some (.text t) =>
    let trimmed := ((t.dropWhile (· = ' ')).reverse.dropWhile (· = ' ')).reverse
    if trimmed = [] then none else some trimmed
  | _ => none

def integerColumn (value : Option FieldValue) : Option ℤ :=
  match value with
  | some (.int n) => some n
  | _ => none

/-- The dimensions of a candidate, each with the column that holds its normalised value. -/
def dimensionColumns : List (String × String) :=
  [("fuel_type", "norm_fuel_type"), ("body_style", "norm_body_style"),
    ("drivetrain", "norm_drivetrain"), ("propulsion_technology", "norm_propulsion_technology")]

def strippedDimensions (normalised : Dict String (Option Text)) : Dict String Text :=
  dimensionColumns.foldl
    (fun dimensions column =>
      match (normalised.get? column.2).join with
      | some value => dimensions.set column.1 value
      | none => dimensions)
    Dict.empty

/-- `catalog_variant_candidate_reading`. -/
def CatalogVariant.candidateReading (variant : CatalogVariant) : CandidateReading where
  manufacturer := trimmedText (variant.column "tozar")
  commercialModel := trimmedText (variant.column "kinuy_mishari")
  modelYearStart := integerColumn (variant.column "shnat_yitzur")
  modelYearEnd := integerColumn (variant.column "shnat_yitzur")
  officialModelCode := trimmedText (variant.column "degem_nm")
  trim := trimmedText (variant.column "ramat_gimur")
  identityDimensions := strippedDimensions variant.normalised

namespace CatalogSnapshot

variable (s : CatalogSnapshot)

def recordById (id : Text) : Option RawRecord := s.records.find? fun r => decide (r.id = id)

def recordByUpstreamId (upstreamRecordId : Text) : Option RawRecord :=
  s.records.find? fun r => decide (r.upstreamRecordId = upstreamRecordId)

/-- The typed row that answers for a record, once the snapshot is compacted. -/
def compactedVariant (r : RawRecord) : Option CatalogVariant :=
  if s.compacted then s.variants.get? r.upstreamRecordId else none

/-- `catalog_raw_record_code`. -/
def recordCode (r : RawRecord) (name : String) : Option Text :=
  match r.payload with
  | some payload => rendered (payload.field name)
  | none => (s.compactedVariant r).bind fun variant => columnText (variant.column name)

/-- `catalog_candidate_variants_resolved`: a candidate still stating its identity is read as stored,
    a compacted one from its typed row. -/
def resolvedReading (c : SnapshotCandidate) : CandidateReading :=
  if c.identity.manufacturer ≠ none then c.identity
  else
    match (s.recordById c.rawRecordId).bind s.compactedVariant with
    | some variant => variant.candidateReading
    | none => { identityDimensions := c.identity.identityDimensions }

end CatalogSnapshot

/-! ## 2. The candidate page -/

structure VariantFilters where
  manufacturer : Text
  commercialModel : Text
  modelYear : ℤ
  trim : Option Text := none
  officialModelCode : Option Text := none
  identityDimensions : Dict String Text := Dict.empty
  registerManufacturerCode : Option Text := none
  registerModelCode : Option Text := none
  vehicleTypeCode : Option Text := none

/-- `CandidateVariantRow`. -/
structure CandidateVariantRow where
  candidateId : Text
  candidateKey : Text
  status : Text
  reading : CandidateReading
  upstreamRecordId : Text
  rawRecordId : Text
  resourceId : Text
  sourceLocator : Dict Text ℤ
  payloadSha256 : Text
  registerManufacturerCode : Option Text
  registerModelCode : Option Text
  vehicleTypeCode : Option Text

/-- A stated filter is met exactly. -/
def meets (filter value : Option Text) : Bool := filter.isNone || decide (value = filter)

namespace VariantFilters

variable (filters : VariantFilters)

/-- The year is in the candidate's range. -/
def meetsYear (reading : CandidateReading) : Bool :=
  match reading.modelYearStart, reading.modelYearEnd with
  | some start, some stop => decide (start ≤ filters.modelYear) && decide (filters.modelYear ≤ stop)
  | _, _ => false

def admits (row : CandidateVariantRow) : Bool :=
  decide (row.reading.manufacturer = some filters.manufacturer) &&
    decide (row.reading.commercialModel = some filters.commercialModel) &&
    meets filters.officialModelCode row.reading.officialModelCode &&
    meets filters.trim row.reading.trim && filters.meetsYear row.reading &&
    (filters.identityDimensions.entries.all fun e =>
      decide (row.reading.identityDimensions.get? e.1 = some e.2)) &&
    meets filters.registerManufacturerCode row.registerManufacturerCode &&
    meets filters.registerModelCode row.registerModelCode &&
    meets filters.vehicleTypeCode row.vehicleTypeCode

end VariantFilters

def nullsLast {α : Type} [Ord α] : Option α → Option α → Ordering
  | none, none => .eq
  | none, some _ => .gt
  | some _, none => .lt
  | some a, some b => compare a b

/-- The order of the page. -/
def CandidateVariantRow.before (a b : CandidateVariantRow) : Bool :=
  ((nullsLast a.reading.manufacturer b.reading.manufacturer).then <|
    (nullsLast a.reading.commercialModel b.reading.commercialModel).then <|
    (nullsLast a.reading.modelYearStart b.reading.modelYearStart).then <|
    (nullsLast a.reading.modelYearEnd b.reading.modelYearEnd).then <|
    (compare (a.reading.officialModelCode.getD []) (b.reading.officialModelCode.getD [])).then <|
    (compare (a.reading.trim.getD []) (b.reading.trim.getD [])).then <|
    compare a.candidateKey b.candidateKey) != .gt

def maxResultItems : ℕ := 200

namespace CatalogSnapshot

variable (s : CatalogSnapshot)

/-- The candidates as the page reads them, each joined to its record. -/
def candidateRows : List CandidateVariantRow :=
  s.candidates.filterMap fun c =>
    (s.recordById c.rawRecordId).map fun r =>
      { candidateId := c.id
        candidateKey := c.candidateKey
        status := c.status
        reading := s.resolvedReading c
        upstreamRecordId := r.upstreamRecordId
        rawRecordId := r.id
        resourceId := r.resourceId
        sourceLocator := r.sourceLocator
        payloadSha256 := r.payloadSha256
        registerManufacturerCode := s.recordCode r "tozeret_cd"
        registerModelCode := s.recordCode r "degem_cd"
        vehicleTypeCode := s.recordCode r "sug_degem" }

/-- `catalog_candidate_variant_page` from its first row: one page, with the exact number of
    matches. -/
def listVariants (filters : VariantFilters) (limit : ℕ) : List CandidateVariantRow × ℕ :=
  let matched := s.candidateRows.filter filters.admits
  ((matched.insertionSort fun a b => a.before b).take (max 1 (min limit maxResultItems)),
    matched.length)

end CatalogSnapshot

/-! ## 3. Resolving a variant -/

def maxResolutionMatches : ℕ := 20

def maxSeparatorScanRows : ℕ := 200

inductive MatchMode
  | exact
  | separatorInsensitive
  deriving DecidableEq, Repr

structure VariantResolutionResult where
  found : List CandidateVariantRow
  matchCount : ℕ
  identityProjection : Dict String FieldValue := Dict.empty
  unstatedFields : List String := []
  matchMode : MatchMode

inductive ProjectionReason
  | recordMissing
  deriving DecidableEq, Repr

def ProjectionReason.code : ProjectionReason → String
  | recordMissing => "GOV_PROJECTION_RECORD_MISSING"

/-- `separator_key`. -/
def separatorKey (code : Text) : Option Text :=
  let key := joinWords (words (code.map fun c => if c = '-' then ' ' else c))
  if key = [] then none else some key

namespace CatalogSnapshot

variable (readFloat : ℤ → ℕ → Option PyFloat) (s : CatalogSnapshot)

/-- `_separator_insensitive`: one bounded page with the code filter dropped. -/
def separatorInsensitive (request : VariantFilters) (officialModelCode : Text) :
    Option (List CandidateVariantRow × ℕ) :=
  match separatorKey officialModelCode with
  | none => none
  | some wanted =>
    let page := s.listVariants { request with officialModelCode := none } maxSeparatorScanRows
    if page.1.length < page.2 then none
    else
      let found := page.1.filter fun row =>
        decide (row.reading.officialModelCode.bind separatorKey = some wanted)
      if found = [] then none else some (found.take maxResolutionMatches, found.length)

/-- What the request matches, and how. -/
def resolutionMatches (request : VariantFilters) : List CandidateVariantRow × ℕ × MatchMode :=
  let page := s.listVariants request maxResolutionMatches
  match request.officialModelCode with
  | none => (page.1, page.2, .exact)
  | some code =>
    if page.2 = 0 then
      match s.separatorInsensitive request code with
      | some found => (found.1, found.2, .separatorInsensitive)
      | none => (page.1, page.2, .exact)
    else (page.1, page.2, .exact)

/-- What the register row of a unique match states, and what it leaves unstated. -/
def readRecord (upstreamRecordId : Text) :
    Except ProjectionReason (Dict String FieldValue × List String) :=
  match s.recordByUpstreamId upstreamRecordId with
  | none => .error .recordMissing
  | some r =>
    match r.payload with
    | some payload => .ok (identityProjection readFloat payload, unstatedFields payload)
    | none =>
      match s.compactedVariant r with
      | none => .error .recordMissing
      | some variant => .ok (variant.reading.projection, variant.reading.unstated)

/-- `resolve_variant`. -/
def resolveVariant (request : VariantFilters) : Except ProjectionReason VariantResolutionResult :=
  let answer := s.resolutionMatches request
  match answer.1 with
  | [] => .ok { found := [], matchCount := answer.2.1, matchMode := answer.2.2 }
  | row :: rows =>
    if answer.2.1 = 1 then
      match s.readRecord readFloat row.upstreamRecordId with
      | .error reason => .error reason
      | .ok (projection, unstated) =>
        .ok
          { found := row :: rows
            matchCount := 1
            identityProjection := projection
            unstatedFields := unstated
            matchMode := answer.2.2 }
    else .ok { found := row :: rows, matchCount := answer.2.1, matchMode := answer.2.2 }

end CatalogSnapshot

/-! ## 4. Removing the payloads -/

section Compact

variable (isSpaceClass : Char → Bool) (contentSha256 : Payload → Text) (s : CatalogSnapshot)

/-- The typed row of the record reads as its payload. -/
def CatalogSnapshot.recordLossless (r : RawRecord) : Bool :=
  match s.variants.get? r.upstreamRecordId, r.payload with
  | some variant, some payload => readsAsPayload isSpaceClass contentSha256 payload variant
  | _, _ => false

/-- `catalog_candidate_reads_as_variant`, for the typed row of the candidate's record. -/
def CatalogSnapshot.candidateLossless (c : SnapshotCandidate) : Bool :=
  match (s.recordById c.rawRecordId).bind fun r => s.variants.get? r.upstreamRecordId with
  | some variant => decide (c.identity = variant.candidateReading)
  | none => false

/-- `compact_register_snapshot` of an active snapshot: every row is checked, then the payloads and the
    candidates' identities are removed. -/
def CatalogSnapshot.compact : Except String CatalogSnapshot :=
  if (s.records.all (s.recordLossless isSpaceClass contentSha256) &&
      s.candidates.all s.candidateLossless) = true then
    .ok
      { s with
        records := s.records.map fun r => { r with payload := none }
        candidates := s.candidates.map fun c => { c with identity := {} }
        compacted := true }
  else .error "CATALOG_COMPACTION_TYPED_MISMATCH"

end Compact

/-! ## 5. The same answer -/

/-- A snapshot before its compaction: each typed row is its payload's, and every candidate states its
    identity. -/
structure CatalogSnapshot.Built (readFloat : ℤ → ℕ → Option PyFloat) (str : Jsonb → Text)
    (normalise : Payload → Dict String (Option Text)) (s : CatalogSnapshot) : Prop where
  mapped : ∀ r ∈ s.records, ∀ payload variant, r.payload = some payload →
    s.variants.get? r.upstreamRecordId = some variant →
      mapRecord readFloat str normalise payload = .ok variant.toVariantRow
  stated : ∀ c ∈ s.candidates, c.identity.manufacturer ≠ none

section SameAnswer

variable {readFloat : ℤ → ℕ → Option PyFloat} {str : Jsonb → Text}
  {normalise : Payload → Dict String (Option Text)} {isSpaceClass : Char → Bool}
  {contentSha256 : Payload → Text} {s compacted : CatalogSnapshot}

namespace CatalogSnapshot

/-- What a compaction found, and what it left. -/
structure Compacted (isSpaceClass : Char → Bool) (contentSha256 : Payload → Text)
    (s compacted : CatalogSnapshot) : Prop where
  records : ∀ r ∈ s.records, s.recordLossless isSpaceClass contentSha256 r = true
  candidates : ∀ c ∈ s.candidates, s.candidateLossless c = true
  eq : compacted =
    { s with
      records := s.records.map fun r => { r with payload := none }
      candidates := s.candidates.map fun c => { c with identity := {} }
      compacted := true }

theorem compact_ok (h : s.compact isSpaceClass contentSha256 = .ok compacted) :
    Compacted isSpaceClass contentSha256 s compacted := by
  unfold compact at h
  by_cases hall : (s.records.all (s.recordLossless isSpaceClass contentSha256) &&
      s.candidates.all s.candidateLossless) = true
  · rw [if_pos hall] at h
    rw [Bool.and_eq_true, List.all_eq_true, List.all_eq_true] at hall
    exact ⟨hall.1, hall.2, (Except.ok.inj h).symm⟩
  · rw [if_neg hall] at h
    cases h

theorem recordLossless_eq_true {r : RawRecord}
    (h : s.recordLossless isSpaceClass contentSha256 r = true) :
    ∃ variant payload, s.variants.get? r.upstreamRecordId = some variant ∧ r.payload = some payload ∧
      readsAsPayload isSpaceClass contentSha256 payload variant = true := by
  unfold recordLossless at h
  split at h
  · rename_i variant payload hvariant hpayload
    exact ⟨variant, payload, hvariant, hpayload, h⟩
  · cases h

theorem Compacted.recordById (h : Compacted isSpaceClass contentSha256 s compacted) (id : Text) :
    compacted.recordById id = (s.recordById id).map fun r => { r with payload := none } := by
  unfold CatalogSnapshot.recordById
  rw [h.eq]
  exact List.find?_map

theorem Compacted.recordByUpstreamId (h : Compacted isSpaceClass contentSha256 s compacted)
    (upstreamRecordId : Text) :
    compacted.recordByUpstreamId upstreamRecordId =
      (s.recordByUpstreamId upstreamRecordId).map fun r => { r with payload := none } := by
  unfold CatalogSnapshot.recordByUpstreamId
  rw [h.eq]
  exact List.find?_map

theorem Compacted.compactedVariant (h : Compacted isSpaceClass contentSha256 s compacted)
    (r : RawRecord) : compacted.compactedVariant r = s.variants.get? r.upstreamRecordId := by
  unfold CatalogSnapshot.compactedVariant
  rw [h.eq]
  rfl

theorem Compacted.recordCode (h : Compacted isSpaceClass contentSha256 s compacted) {r : RawRecord}
    (hr : r ∈ s.records) {name : String} (hname : name ∈ checkedCodes) :
    compacted.recordCode { r with payload := none } name = s.recordCode r name := by
  rcases recordLossless_eq_true (h.records r hr) with ⟨variant, payload, hvariant, hpayload, hreads⟩
  have hchecks := (Bool.and_eq_true _ _ ▸ hreads).1
  have hcode := List.all_eq_true.mp (Bool.and_eq_true _ _ ▸ hchecks).2 name hname
  unfold CatalogSnapshot.recordCode
  rw [hpayload, h.compactedVariant]
  simp only [hvariant]
  exact of_decide_eq_true hcode

theorem Compacted.resolvedReading (h : Compacted isSpaceClass contentSha256 s compacted)
    (hbuilt : s.Built readFloat str normalise) {c : SnapshotCandidate} (hc : c ∈ s.candidates) :
    compacted.resolvedReading { c with identity := {} } = s.resolvedReading c := by
  have hlossless := h.candidates c hc
  unfold candidateLossless at hlossless
  have hstored : s.resolvedReading c = c.identity := if_pos (hbuilt.stated c hc)
  rw [hstored]
  show (match (compacted.recordById c.rawRecordId).bind compacted.compactedVariant with
    | some variant => variant.candidateReading
    | none => { identityDimensions := Dict.empty }) = c.identity
  rw [h.recordById]
  cases hrecord : s.recordById c.rawRecordId with
  | none =>
    rw [hrecord] at hlossless
    cases hlossless
  | some r =>
    rw [hrecord] at hlossless
    simp only [Option.bind_some, Option.map_some, h.compactedVariant] at hlossless ⊢
    cases hvariant : s.variants.get? r.upstreamRecordId with
    | none =>
      rw [hvariant] at hlossless
      cases hlossless
    | some variant =>
      rw [hvariant] at hlossless
      exact (of_decide_eq_true hlossless).symm

theorem Compacted.candidateRows (h : Compacted isSpaceClass contentSha256 s compacted)
    (hbuilt : s.Built readFloat str normalise) : compacted.candidateRows = s.candidateRows := by
  have hcandidates : compacted.candidates = s.candidates.map fun c => { c with identity := {} } := by
    rw [h.eq]
  unfold CatalogSnapshot.candidateRows
  rw [hcandidates, List.filterMap_map]
  apply List.filterMap_congr
  intro c hc
  have hreading := h.resolvedReading hbuilt hc
  simp only [Function.comp]
  rw [h.recordById]
  cases hrecord : s.recordById c.rawRecordId with
  | none => rfl
  | some r =>
    have hr : r ∈ s.records := List.mem_of_find?_eq_some hrecord
    have hmanufacturer := h.recordCode hr (show "tozeret_cd" ∈ checkedCodes by decide)
    have hmodel := h.recordCode hr (show "degem_cd" ∈ checkedCodes by decide)
    have hvehicle := h.recordCode hr (show "sug_degem" ∈ checkedCodes by decide)
    simp only [Option.map_some, hreading, hmanufacturer, hmodel, hvehicle]

theorem Compacted.resolutionMatches (h : Compacted isSpaceClass contentSha256 s compacted)
    (hbuilt : s.Built readFloat str normalise) (request : VariantFilters) :
    compacted.resolutionMatches request = s.resolutionMatches request := by
  have hpage : ∀ filters limit, compacted.listVariants filters limit = s.listVariants filters limit := by
    intro filters limit
    unfold listVariants
    rw [h.candidateRows hbuilt]
  unfold CatalogSnapshot.resolutionMatches separatorInsensitive
  simp only [hpage]

/-- A record states the same, and leaves the same unstated. -/
theorem Compacted.readRecord (h : Compacted isSpaceClass contentSha256 s compacted)
    (hbuilt : s.Built readFloat str normalise) (upstreamRecordId : Text) :
    compacted.readRecord readFloat upstreamRecordId = s.readRecord readFloat upstreamRecordId := by
  unfold CatalogSnapshot.readRecord
  rw [h.recordByUpstreamId]
  cases hrecord : s.recordByUpstreamId upstreamRecordId with
  | none => rfl
  | some r =>
    have hr : r ∈ s.records := List.mem_of_find?_eq_some hrecord
    rcases recordLossless_eq_true (h.records r hr) with ⟨variant, payload, hvariant, hpayload, hreads⟩
    have hadmitted : Admitted readFloat str normalise contentSha256 isSpaceClass payload variant :=
      ⟨hbuilt.mapped r hr payload variant hpayload hvariant, hreads⟩
    simp only [Option.map_some, hpayload, h.compactedVariant, hvariant]
    rw [hadmitted.projection, hadmitted.unstated]

theorem Compacted.resolveVariant (h : Compacted isSpaceClass contentSha256 s compacted)
    (hbuilt : s.Built readFloat str normalise) (request : VariantFilters) :
    compacted.resolveVariant readFloat request = s.resolveVariant readFloat request := by
  unfold CatalogSnapshot.resolveVariant
  rw [h.resolutionMatches hbuilt]
  simp only [h.readRecord hbuilt]

end CatalogSnapshot

end SameAnswer

/-- A typed row that the check admits reads as its payload for every reader, and a snapshot answers
    `resolve_variant` the same before and after its payloads are removed. -/
theorem compaction_lossless {readFloat : ℤ → ℕ → Option PyFloat} {str : Jsonb → Text}
    {normalise : Payload → Dict String (Option Text)} {isSpaceClass : Char → Bool}
    {contentSha256 : Payload → Text} :
    (∀ payload variant,
      Admitted readFloat str normalise contentSha256 isSpaceClass payload variant →
        variant.reading.projection = identityProjection readFloat payload ∧
        variant.reading.unstated = unstatedFields payload ∧
        ∀ name ∈ registerCodeFields.map Prod.snd,
          registerCode readFloat payload name = .ok (variant.reading.code name)) ∧
    ∀ s compacted : CatalogSnapshot, s.Built readFloat str normalise →
      s.compact isSpaceClass contentSha256 = .ok compacted →
        ∀ request, compacted.resolveVariant readFloat request = s.resolveVariant readFloat request := by
  apply And.intro
  · intro payload variant h
    exact ⟨h.projection, h.unstated, fun name hname => (h.code hname).1⟩
  · intro s compacted hbuilt hcompact request
    exact (CatalogSnapshot.compact_ok hcompact).resolveVariant hbuilt request

/-! ## 6. A snapshot of one row -/

def onePayload : Payload :=
  ⟨[("_id".toList, .number 1 0), ("tozar".toList, .str "Mazda".toList),
    ("kinuy_mishari".toList, .str "3".toList), ("shnat_yitzur".toList, .number 2020 0),
    ("tozeret_cd".toList, .number 7 0), ("degem_cd".toList, .str "12".toList),
    ("delek_cd".toList, .str "unknown".toList), ("ramat_gimur".toList, .str " ".toList)],
    by decide +kernel⟩

def noFloat (_unscaled : ℤ) (_scale : ℕ) : Option PyFloat := none

def statedId : Jsonb → Text
  | .str s => s
  | value => value.text

def noDimensions (_payload : Payload) : Dict String (Option Text) := Dict.empty

def oneHash (_payload : Payload) : Text := "content".toList

def oneVariant : CatalogVariant where
  upstreamRecordId := statedId (.number 1 0)
  columns := dropUnknownConverter (parsedColumns noFloat onePayload)
  equipment := parsedEquipments noFloat onePayload
  parseIssues := parseIssues noFloat onePayload
  normalised := noDimensions onePayload
  vehicleSegment := vehicleSegment
    ((dropUnknownConverter (parsedColumns noFloat onePayload)).get? "sug_degem").join
  contentSha256 := "content".toList
  mapperVersion := "gov.wltp.variant-mapper.1".toList

def oneRow : CatalogSnapshot where
  records := [⟨"record".toList, "1".toList, "resource".toList, Dict.empty, "digest".toList,
    some onePayload⟩]
  candidates := [⟨"candidate".toList, "record".toList, "candidate".toList, "key".toList,
    { manufacturer := some "Mazda".toList
      commercialModel := some "3".toList
      modelYearStart := some 2020
      modelYearEnd := some 2020 }⟩]
  variants := ⟨[("1".toList, oneVariant)], by decide⟩
  compacted := false

theorem oneVariant_mapped :
    mapRecord noFloat statedId noDimensions onePayload = .ok oneVariant.toVariantRow :=
  mapRecord_eq_ok.mpr ⟨.number 1 0, by rfl, rfl, rfl⟩

theorem oneRow_built : oneRow.Built noFloat statedId noDimensions where
  mapped r hr payload variant hpayload hvariant := by
    rw [List.mem_singleton.mp hr] at hpayload hvariant
    have hv : variant = oneVariant := (Option.some.inj hvariant).symm
    rw [hv, ← Option.some.inj hpayload]
    exact oneVariant_mapped
  stated c hc := by
    rw [List.mem_singleton.mp hc]
    decide

/-- The class of blanks of the database's ASCII locale. -/
def asciiSpace (c : Char) : Bool := decide (c = ' ') || decide (9 ≤ c.toNat ∧ c.toNat ≤ 13)

theorem compaction_lossless_oneRow :
    (oneVariant.reading.projection = identityProjection noFloat onePayload ∧
      oneVariant.reading.unstated = unstatedFields onePayload ∧
      ∀ name ∈ registerCodeFields.map Prod.snd,
        registerCode noFloat onePayload name = .ok (oneVariant.reading.code name)) ∧
    ∃ compacted, oneRow.compact asciiSpace oneHash = .ok compacted ∧
      ∀ request, compacted.resolveVariant noFloat request = oneRow.resolveVariant noFloat request := by
  have hreads : readsAsPayload asciiSpace oneHash onePayload oneVariant = true := by decide +kernel
  have hcompact : (oneRow.records.all (oneRow.recordLossless asciiSpace oneHash) &&
      oneRow.candidates.all oneRow.candidateLossless) = true := by decide +kernel
  have hok : oneRow.compact asciiSpace oneHash = .ok _ := if_pos hcompact
  have hlossless := @compaction_lossless noFloat statedId noDimensions asciiSpace oneHash
  exact ⟨hlossless.1 onePayload oneVariant ⟨oneVariant_mapped, hreads⟩, _, hok,
    hlossless.2 oneRow _ oneRow_built hok⟩

end Milo.Catalog
