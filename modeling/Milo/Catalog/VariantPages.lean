import Milo.Catalog.Resolution
import Milo.Reasoning.Action
import Milo.Reasoning.Pages

/-!
# VariantPages — two readers of one snapshot

The bounded query reads the candidates in pages the database filters and orders; the projection reads
the snapshot into memory once and answers from the sorted list.  Both state the same variants.
-/

namespace Milo.Catalog

open Milo.Reasoning Milo.Python

/-! ## 1. The stated filters -/

/-- The filters of `list_variants`; one that is not stated narrows nothing. -/
structure PageFilters where
  manufacturer : Option Text := none
  commercialModel : Option Text := none
  modelYear : Option ℤ := none
  officialModelCode : Option Text := none
  trim : Option Text := none
  identityDimensions : Dict String Text := Dict.empty
  status : Option Text := none
  registerManufacturerCode : Option Text := none
  registerModelCode : Option Text := none
  vehicleTypeCode : Option Text := none

def VariantFilters.page (request : VariantFilters) : PageFilters where
  manufacturer := some request.manufacturer
  commercialModel := some request.commercialModel
  modelYear := some request.modelYear
  officialModelCode := request.officialModelCode
  trim := request.trim
  identityDimensions := request.identityDimensions
  registerManufacturerCode := request.registerManufacturerCode
  registerModelCode := request.registerModelCode
  vehicleTypeCode := request.vehicleTypeCode

/-- `btrim`. -/
def btrim (t : Text) : Text := ((t.dropWhile (· = ' ')).reverse.dropWhile (· = ' ')).reverse

def candidateDimensions : List String :=
  ["body_style", "drivetrain", "engine_code", "fuel_type", "generation", "market",
    "propulsion_technology", "transmission"]

/-- `catalog_identity_dimensions_valid`. -/
def identityDimensionsValid (dimensions : Dict String Text) : Bool :=
  dimensions.entries.all fun e =>
    decide (e.1 ∈ candidateDimensions) && decide (1 ≤ e.2.length) && decide (e.2.length ≤ 120) &&
      decide (btrim e.2 = e.2)

def candidateStatuses : List Text :=
  ["candidate".toList, "ambiguous".toList, "rejected".toList, "ready_for_review".toList]

/-- An `integer` of the database. -/
def isInteger (n : ℤ) : Bool := decide (-2147483648 ≤ n) && decide (n ≤ 2147483647)

namespace PageFilters

variable (filters : PageFilters)

/-- The filters the database takes. -/
def accepted : Bool :=
  (filters.status.all fun status => decide (status ∈ candidateStatuses)) &&
    identityDimensionsValid filters.identityDimensions && filters.modelYear.all isInteger

/-- A stated year is in the candidate's range. -/
def meetsYear (reading : CandidateReading) : Bool :=
  filters.modelYear.all fun year =>
    match reading.modelYearStart, reading.modelYearEnd with
    | some start, some stop => decide (start ≤ year) && decide (year ≤ stop)
    | _, _ => false

def admits (row : CandidateVariantRow) : Bool :=
  meets filters.manufacturer row.reading.manufacturer &&
    meets filters.commercialModel row.reading.commercialModel &&
    meets filters.officialModelCode row.reading.officialModelCode &&
    meets filters.trim row.reading.trim && meets filters.status (some row.status) &&
    filters.meetsYear row.reading &&
    (filters.identityDimensions.entries.all fun e =>
      decide (row.reading.identityDimensions.get? e.1 = some e.2)) &&
    meets filters.registerManufacturerCode row.registerManufacturerCode &&
    meets filters.registerModelCode row.registerModelCode &&
    meets filters.vehicleTypeCode row.vehicleTypeCode

end PageFilters

/-! ## 2. The query -/

inductive ReadFailure
  | queryUnavailable
  | boundExceeded
  | snapshotCompacted
  | snapshotStateInvalid
  | recordMissing
  | typeError
  deriving DecidableEq, Repr

/-- The reason a read fails with; a `TypeError` of a row without model years carries none. -/
def ReadFailure.code : ReadFailure → Option String
  | queryUnavailable => some "GOV_QUERY_UNAVAILABLE"
  | boundExceeded => some "GOV_PROJECTION_BOUND_EXCEEDED"
  | snapshotCompacted => some "GOV_PROJECTION_SNAPSHOT_COMPACTED"
  | snapshotStateInvalid => some "GOV_PROJECTION_SNAPSHOT_STATE_INVALID"
  | recordMissing => some "GOV_PROJECTION_RECORD_MISSING"
  | typeError => none

structure QueryPage where
  items : List CandidateVariantRow
  total : ℕ
  offset : ℕ
  limit : ℕ

def QueryPage.hasMore (p : QueryPage) : Bool := decide (p.offset + p.items.length < p.total)

/-- `bounded_limit`, and the bound of the database. -/
def boundedLimit (limit : ℤ) : ℕ := (max 1 (min limit maxResultItems)).toNat

def boundedOffset (offset : ℤ) : ℕ := offset.toNat

/-- `_variant_row`: the model years are read as numbers. -/
def variantRow (row : CandidateVariantRow) : Except ReadFailure CandidateVariantRow :=
  match row.reading.modelYearStart, row.reading.modelYearEnd with
  | some _, some _ => .ok row
  | _, _ => .error .typeError

namespace CatalogSnapshot

variable (s : CatalogSnapshot)

/-- The candidates that meet the filters, in the order of the page. -/
def variantListing (filters : PageFilters) : List CandidateVariantRow :=
  (s.candidateRows.filter filters.admits).insertionSort fun a b => a.before b

/-- `catalog_candidate_variant_page`: the rows of one page, or one row of nulls, each with the exact
    number of matches. -/
def candidateVariantPage (filters : PageFilters) (limit offset : ℕ) :
    Option (List (Option CandidateVariantRow × ℕ)) :=
  if (filters.accepted && isInteger offset) = false then none
  else
    let total := (s.candidateRows.filter filters.admits).length
    match page (s.variantListing filters) (boundedLimit limit) offset with
    | [] => some [(none, total)]
    | row :: rows => some ((row :: rows).map fun row => (some row, total))

end CatalogSnapshot

namespace GovernmentCatalogQuery

variable (readFloat : ℤ → ℕ → Option PyFloat) (s : CatalogSnapshot)

/-- `_read`: the count is taken from the first row, and the row of nulls dropped. -/
def read (filters : PageFilters) (limit offset : ℕ) :
    Except ReadFailure (List CandidateVariantRow × ℕ) :=
  match s.candidateVariantPage filters limit offset with
  | none => .error .queryUnavailable
  | some rows => .ok (rows.filterMap Prod.fst, (rows.head?.map Prod.snd).getD 0)

/-- `GovernmentCatalogQuery.list_variants`. -/
def listVariants (filters : PageFilters) (limit offset : ℤ) : Except ReadFailure QueryPage := do
  let answer ← read s filters (boundedLimit limit) (boundedOffset offset)
  let items ← answer.1.mapM variantRow
  return ⟨items, answer.2, boundedOffset offset, boundedLimit limit⟩

/-- `GovernmentCatalogQuery.find_by_model_code`. -/
def findByModelCode (officialModelCode : Text) (limit offset : ℤ) : Except ReadFailure QueryPage :=
  listVariants s { officialModelCode := some officialModelCode } limit offset

/-- `_separator_insensitive`: one page with the code filter dropped. -/
def separatorInsensitive (request : VariantFilters) (officialModelCode : Text) :
    Except ReadFailure (Option (List CandidateVariantRow × ℕ)) :=
  match separatorKey officialModelCode with
  | none => .ok none
  | some wanted => do
    let scanned ← listVariants s { request with officialModelCode := none }.page
      maxSeparatorScanRows 0
    if scanned.hasMore then return none
    else
      let found := scanned.items.filter fun item =>
        decide (item.reading.officialModelCode.bind separatorKey = some wanted)
      return if found = [] then none else some (found.take maxResolutionMatches, found.length)

/-- What a request matches: the exact answer, or the one retry's when the exact spelling matched
    nothing. -/
def resolutionMatches (request : VariantFilters) :
    Except ReadFailure (List CandidateVariantRow × ℕ × MatchMode) := do
  let exact ← listVariants s request.page maxResolutionMatches 0
  match request.officialModelCode with
  | none => return (exact.items, exact.total, .exact)
  | some code =>
    if exact.total = 0 then
      match ← separatorInsensitive s request code with
      | some retried => return (retried.1, retried.2, .separatorInsensitive)
      | none => return (exact.items, exact.total, .exact)
    else return (exact.items, exact.total, .exact)

/-- `GovernmentCatalogQuery.resolve_variant`. -/
def resolveVariant (request : VariantFilters) : Except ReadFailure VariantResolutionResult := do
  let answer ← resolutionMatches s request
  match answer with
  | (row :: rows, 1, mode) =>
    match s.readRecord readFloat row.upstreamRecordId with
    | .error _ => throw .recordMissing
    | .ok (projection, unstated) =>
      return { found := row :: rows
               matchCount := 1
               identityProjection := projection
               unstatedFields := unstated
               matchMode := mode }
  | (found, matchCount, mode) => return { found, matchCount, matchMode := mode }

end GovernmentCatalogQuery

/-- `VariantResolutionResult.variant`. -/
def VariantResolutionResult.variant (result : VariantResolutionResult) :
    Option CandidateVariantRow :=
  if result.matchCount = 1 then result.found.head? else none

/-! ## 3. The projection -/

/-- What both readers state of a candidate. -/
structure StatedVariant where
  candidateId : Text
  candidateKey : Text
  status : Text
  manufacturer : Text
  commercialModel : Text
  modelYearStart : ℤ
  modelYearEnd : ℤ
  officialModelCode : Option Text
  trim : Option Text
  identityDimensions : Dict String Text
  upstreamRecordId : Text
  rawRecordId : Text
  resourceId : Text
  sourceLocator : Dict Text ℤ

/-- `str(value)` of a column. -/
def columnString (value : Option Text) : Text := value.getD "None".toList

/-- The fields of a row of the query; it is read only with its model years stated. -/
def CandidateVariantRow.stated (row : CandidateVariantRow) : StatedVariant where
  candidateId := row.candidateId
  candidateKey := row.candidateKey
  status := row.status
  manufacturer := columnString row.reading.manufacturer
  commercialModel := columnString row.reading.commercialModel
  modelYearStart := row.reading.modelYearStart.getD 0
  modelYearEnd := row.reading.modelYearEnd.getD 0
  officialModelCode := row.reading.officialModelCode
  trim := row.reading.trim
  identityDimensions := row.reading.identityDimensions
  upstreamRecordId := row.upstreamRecordId
  rawRecordId := row.rawRecordId
  resourceId := row.resourceId
  sourceLocator := row.sourceLocator

structure VariantView extends StatedVariant where
  engineDisplacementCc : Option ℤ
  unresolvedDimensions : List String

/-- `_variant_sort_key`, compared. -/
def StatedVariant.compareKeys (a b : StatedVariant) : Ordering :=
  (compare a.manufacturer b.manufacturer).then <|
    (compare a.commercialModel b.commercialModel).then <|
    (compare a.modelYearStart b.modelYearStart).then <|
    (compare a.modelYearEnd b.modelYearEnd).then <|
    (compare (a.officialModelCode.getD []) (b.officialModelCode.getD [])).then <|
    (compare (a.trim.getD []) (b.trim.getD [])).then <|
    compare a.candidateKey b.candidateKey

/-- What the normalization of a snapshot recorded. -/
structure NormalizationState where
  rawOnly : Bool
  normalizedRecordCount : ℕ

structure ResultPage where
  items : List VariantView
  total : ℕ
  offset : ℕ
  limit : ℕ

def maxProjectionCandidates : ℕ := 5000

def readChunk : ℕ := 500

namespace GovernmentCatalogProjection

section Load

-- `readWltpRecord` reads the displacement and the unresolved dimensions, unless it refuses the payload
variable (readWltpRecord : Payload → Text → Option (Option ℤ × List String)) (s : CatalogSnapshot)

/-- `_read_all`. -/
def readRelation {α : Type} (relation : List α) : Except ReadFailure (List α) :=
  required (readAll maxProjectionCandidates readChunk relation (maxProjectionCandidates + 1) [] 0)
    .boundExceeded

/-- `_require_candidates_match`. -/
def candidatesMatch (state : NormalizationState) (candidates : List SnapshotCandidate)
    (records : List RawRecord) : Bool :=
  if state.rawOnly then candidates.isEmpty
  else
    decide (candidates.length = state.normalizedRecordCount) &&
      decide (candidates.map SnapshotCandidate.rawRecordId).Nodup &&
      candidates.all fun c => decide (c.rawRecordId ∈ records.map RawRecord.id)

/-- `_variant_view`. -/
def variantView (c : SnapshotCandidate) (r : RawRecord) : Except ReadFailure VariantView :=
  let reading := r.payload.bind fun payload => readWltpRecord payload r.resourceId
  match c.identity.modelYearStart, c.identity.modelYearEnd with
  | some start, some stop =>
    .ok
      { candidateId := c.id
        candidateKey := c.candidateKey
        status := c.status
        manufacturer := columnString c.identity.manufacturer
        commercialModel := columnString c.identity.commercialModel
        modelYearStart := start
        modelYearEnd := stop
        officialModelCode := c.identity.officialModelCode
        trim := c.identity.trim
        identityDimensions := c.identity.identityDimensions
        upstreamRecordId := r.upstreamRecordId
        rawRecordId := r.id
        resourceId := r.resourceId
        sourceLocator := r.sourceLocator
        engineDisplacementCc := reading.bind Prod.fst
        unresolvedDimensions := (reading.map Prod.snd).getD [] }
  | _, _ => .error .typeError

/-- `_load`. -/
def load (state : NormalizationState) : Except ReadFailure (List VariantView) := do
  let records ← readRelation s.records
  refuseIf (∃ r ∈ records, r.payload = none) .snapshotCompacted
  let candidates ← readRelation s.candidates
  refuseIf (candidatesMatch state candidates records = false) .snapshotStateInvalid
  let views ← candidates.mapM fun c => do
    let r ← required (s.recordById c.rawRecordId) .recordMissing
    variantView readWltpRecord c r
  return views.insertionSort fun a b => (a.toStatedVariant.compareKeys b.toStatedVariant).isLE

end Load

variable (views : List VariantView)

/-- `_page`. -/
def resultPage (items : List VariantView) (limit offset : ℤ) : ResultPage :=
  ⟨page items (boundedLimit limit) (boundedOffset offset), items.length, boundedOffset offset,
    boundedLimit limit⟩

/-- Every variant of one model, and one year of it when asked. -/
def variantsOf (manufacturer commercialModel : Text) (modelYear : Option ℤ) : List VariantView :=
  views.filter fun view =>
    decide (view.manufacturer = manufacturer) && decide (view.commercialModel = commercialModel) &&
      modelYear.all fun year =>
        decide (view.modelYearStart ≤ year) && decide (year ≤ view.modelYearEnd)

/-- `GovernmentCatalogProjection.list_variants`. -/
def listVariants (manufacturer commercialModel : Text) (modelYear : Option ℤ) (limit offset : ℤ) :
    ResultPage :=
  resultPage (variantsOf views manufacturer commercialModel modelYear) limit offset

def variantsWithCode (officialModelCode : Text) : List VariantView :=
  views.filter fun view => decide (view.officialModelCode = some officialModelCode)

/-- `GovernmentCatalogProjection.find_by_model_code`. -/
def findByModelCode (officialModelCode : Text) (limit offset : ℤ) : ResultPage :=
  resultPage (variantsWithCode views officialModelCode) limit offset

/-- `GovernmentCatalogProjection.resolve_variant`; it knows no register codes. -/
def resolveVariant (request : VariantFilters) : List VariantView :=
  views.filter fun view =>
    decide (view.manufacturer = request.manufacturer) &&
      decide (view.commercialModel = request.commercialModel) &&
      (decide (view.modelYearStart ≤ request.modelYear) &&
        decide (request.modelYear ≤ view.modelYearEnd)) &&
      meets request.trim view.trim && meets request.officialModelCode view.officialModelCode &&
      request.identityDimensions.entries.all fun e =>
        decide (view.identityDimensions.get? e.1 = some e.2)

end GovernmentCatalogProjection

/-! ## 4. The order of a listing -/

namespace StatedVariant

open Std

instance : TransCmp compareKeys :=
  inferInstanceAs (TransCmp (compareLex (compareOn manufacturer) <|
    compareLex (compareOn commercialModel) <| compareLex (compareOn modelYearStart) <|
    compareLex (compareOn modelYearEnd) <|
    compareLex (compareOn fun v : StatedVariant => v.officialModelCode.getD []) <|
    compareLex (compareOn fun v : StatedVariant => v.trim.getD []) <| compareOn candidateKey))

/-- The order of a listing. -/
def le (a b : StatedVariant) : Prop := (compareKeys a b).isLE = true

instance : DecidableRel le := fun a b => inferInstanceAs (Decidable ((compareKeys a b).isLE = true))

instance : IsTrans StatedVariant le := ⟨fun _ _ _ => TransCmp.isLE_trans⟩

instance : Std.Total le where
  total a b := by
    show (compareKeys a b).isLE = true ∨ (compareKeys b a).isLE = true
    have hswap : compareKeys a b = (compareKeys b a).swap := OrientedCmp.eq_swap
    rw [hswap]
    cases compareKeys b a <;> simp

theorem candidateKey_eq {a b : StatedVariant} (hab : le a b) (hba : le b a) :
    a.candidateKey = b.candidateKey := by
  have heq : compareKeys a b = .eq := OrientedCmp.isLE_antisymm hab hba
  unfold compareKeys at heq
  simp only [Ordering.then_eq_eq] at heq
  exact LawfulEqOrd.eq_of_compare heq.2.2.2.2.2.2

/-- A listing, narrowed before or after it is sorted. -/
theorem insertionSort_filter {variants : List StatedVariant} (p : StatedVariant → Bool)
    (hkeys : (variants.map candidateKey).Nodup) :
    (variants.filter p).insertionSort le = (variants.insertionSort le).filter p := by
  have hperm : ((variants.filter p).insertionSort le).Perm ((variants.insertionSort le).filter p) :=
    (List.perm_insertionSort le _).trans ((List.perm_insertionSort le variants).symm.filter p)
  apply sorted_unique hperm (List.pairwise_insertionSort le _)
    ((List.pairwise_insertionSort le variants).filter p)
  intro a ha b hb hab hba
  rw [List.mem_insertionSort, List.mem_filter] at ha hb
  exact List.inj_on_of_nodup_map hkeys ha.1 hb.1 (candidateKey_eq hab hba)

end StatedVariant

/-- A row that states what every reader needs. -/
structure CandidateVariantRow.Complete (row : CandidateVariantRow) : Prop where
  manufacturer : row.reading.manufacturer ≠ none
  commercialModel : row.reading.commercialModel ≠ none
  modelYearStart : row.reading.modelYearStart ≠ none
  modelYearEnd : row.reading.modelYearEnd ≠ none

namespace CandidateVariantRow

variable {row a b : CandidateVariantRow}

theorem Complete.variantRow (h : row.Complete) : variantRow row = .ok row := by
  unfold Catalog.variantRow
  cases hstart : row.reading.modelYearStart with
  | none => exact absurd hstart h.modelYearStart
  | some start =>
    cases hstop : row.reading.modelYearEnd with
    | none => exact absurd hstop h.modelYearEnd
    | some stop => rfl

/-- The order of the database, on rows that state the columns it orders by. -/
theorem before_iff (ha : a.Complete) (hb : b.Complete) :
    a.before b = true ↔ StatedVariant.le a.stated b.stated := by
  obtain ⟨m, hm⟩ := Option.ne_none_iff_exists'.mp ha.manufacturer
  obtain ⟨m', hm'⟩ := Option.ne_none_iff_exists'.mp hb.manufacturer
  obtain ⟨c, hc⟩ := Option.ne_none_iff_exists'.mp ha.commercialModel
  obtain ⟨c', hc'⟩ := Option.ne_none_iff_exists'.mp hb.commercialModel
  obtain ⟨y, hy⟩ := Option.ne_none_iff_exists'.mp ha.modelYearStart
  obtain ⟨y', hy'⟩ := Option.ne_none_iff_exists'.mp hb.modelYearStart
  obtain ⟨z, hz⟩ := Option.ne_none_iff_exists'.mp ha.modelYearEnd
  obtain ⟨z', hz'⟩ := Option.ne_none_iff_exists'.mp hb.modelYearEnd
  unfold before StatedVariant.le StatedVariant.compareKeys stated columnString
  rw [hm, hm', hc, hc', hy, hy', hz, hz']
  simp only [nullsLast, Option.getD_some]
  rw [Ordering.isLE_iff_ne_gt, bne_iff_ne]

end CandidateVariantRow

/-! ## 5. What a page holds -/

section Pages

variable {s : CatalogSnapshot} {filters : PageFilters}

@[simp] theorem boundedLimit_boundedLimit (limit : ℤ) :
    boundedLimit (boundedLimit limit) = boundedLimit limit := by
  unfold boundedLimit maxResultItems
  omega

theorem CatalogSnapshot.mem_variantListing {row : CandidateVariantRow} :
    row ∈ s.variantListing filters ↔ row ∈ s.candidateRows ∧ filters.admits row = true := by
  unfold CatalogSnapshot.variantListing
  rw [List.mem_insertionSort, List.mem_filter]

theorem CatalogSnapshot.length_variantListing :
    (s.variantListing filters).length = (s.candidateRows.filter filters.admits).length :=
  List.length_insertionSort _ _

namespace GovernmentCatalogQuery

/-- The database refuses a filter it does not take, and an offset past its integers. -/
theorem listVariants_refused {limit offset : ℤ}
    (h : (filters.accepted && isInteger (boundedOffset offset)) = false) :
    listVariants s filters limit offset = .error .queryUnavailable := by
  have hread : read s filters (boundedLimit limit) (boundedOffset offset) =
      .error .queryUnavailable := by
    unfold read CatalogSnapshot.candidateVariantPage
    rw [if_pos h]
  unfold listVariants
  rw [hread]
  rfl

/-- A page and the exact count, also where the page is past the last match. -/
theorem read_eq {limit offset : ℕ} (h : (filters.accepted && isInteger offset) = true) :
    read s filters limit offset =
      .ok (page (s.variantListing filters) (boundedLimit limit) offset,
        (s.variantListing filters).length) := by
  unfold read CatalogSnapshot.candidateVariantPage
  rw [if_neg (by rw [h]; decide), CatalogSnapshot.length_variantListing]
  cases hpage : page (s.variantListing filters) (boundedLimit limit) offset with
  | nil => rfl
  | cons row rows =>
    have hitems : ∀ l : List CandidateVariantRow, ∀ n : ℕ,
        (l.map fun row => (some row, n)).filterMap Prod.fst = l := by
      intro l n
      rw [List.filterMap_map]
      exact List.filterMap_some
    dsimp only
    rw [hitems]
    rfl

theorem listVariants_eq {limit offset : ℤ} (hcomplete : ∀ row ∈ s.candidateRows, row.Complete)
    (h : (filters.accepted && isInteger (boundedOffset offset)) = true) :
    listVariants s filters limit offset =
      .ok ⟨page (s.variantListing filters) (boundedLimit limit) (boundedOffset offset),
        (s.variantListing filters).length, boundedOffset offset, boundedLimit limit⟩ := by
  have hitems : (page (s.variantListing filters) (boundedLimit limit) (boundedOffset offset)).mapM
      variantRow = .ok (page (s.variantListing filters) (boundedLimit limit) (boundedOffset offset)) := by
    rw [mapM_eq_ok_map (g := id) fun row hrow => ?_, List.map_id]
    have hlisted := (page_sublist _ _ _).subset hrow
    exact (hcomplete row (CatalogSnapshot.mem_variantListing.mp hlisted).1).variantRow
  unfold listVariants
  rw [read_eq h, boundedLimit_boundedLimit]
  show (List.mapM variantRow _ >>= fun items => _) = _
  rw [hitems]
  rfl

/-- The pages at the multiples of a limit follow each other without a gap, each with the exact
    total. -/
theorem listVariants_pages (hcomplete : ∀ row ∈ s.candidateRows, row.Complete)
    (haccepted : filters.accepted = true) (limit : ℤ) (n : ℕ)
    (hoffsets : ∀ k < n, isInteger (k * boundedLimit limit : ℕ) = true) :
    ∃ pages : List QueryPage,
      ((List.range n).mapM fun k =>
        listVariants s filters limit (k * boundedLimit limit : ℕ)) = .ok pages ∧
      (∀ p ∈ pages, p.total = (s.variantListing filters).length) ∧
      pages.flatMap QueryPage.items = (s.variantListing filters).take (n * boundedLimit limit) := by
  refine ⟨(List.range n).map fun k =>
    ⟨page (s.variantListing filters) (boundedLimit limit) (k * boundedLimit limit),
      (s.variantListing filters).length, k * boundedLimit limit, boundedLimit limit⟩, ?_, ?_, ?_⟩
  · have hread : ∀ k ∈ List.range n,
        listVariants s filters limit (k * boundedLimit limit : ℕ) = .ok
          ⟨page (s.variantListing filters) (boundedLimit limit) (k * boundedLimit limit),
            (s.variantListing filters).length, k * boundedLimit limit, boundedLimit limit⟩ := by
      intro k hk
      have hoffset := hoffsets k (List.mem_range.mp hk)
      have hsame : boundedOffset (k * boundedLimit limit : ℕ) = k * boundedLimit limit :=
        Int.toNat_natCast _
      rw [listVariants_eq hcomplete (by rw [hsame, haccepted, hoffset]; rfl), hsame]
    exact mapM_eq_ok_map hread
  · intro p hp
    obtain ⟨k, -, rfl⟩ := List.mem_map.mp hp
    rfl
  · rw [List.flatMap_map]
    exact flatMap_page _ _ n

end GovernmentCatalogQuery

end Pages

/-! ## 6. What the projection holds -/

/-- What the tables keep: the keys of a snapshot are unique, and a candidate states its manufacturer
    and model until the payload of its record is removed. -/
structure CatalogSnapshot.Stored (s : CatalogSnapshot) : Prop where
  candidateIds : (s.candidates.map SnapshotCandidate.id).Nodup
  candidateKeys : (s.candidates.map SnapshotCandidate.candidateKey).Nodup
  stated : ∀ c ∈ s.candidates, ∀ r ∈ s.records, r.id = c.rawRecordId → r.payload ≠ none →
    c.identity.manufacturer ≠ none ∧ c.identity.commercialModel ≠ none

namespace GovernmentCatalogProjection

variable {readWltpRecord : Payload → Text → Option (Option ℤ × List String)} {s : CatalogSnapshot}
  {state : NormalizationState} {views : List VariantView}

theorem readRelation_eq_ok {α : Type} {relation rows : List α}
    (h : readRelation relation = .ok rows) : rows = relation := by
  unfold readRelation at h
  rw [readAll_eq (show 0 < readChunk by decide), required_eq_ok] at h
  by_cases hbound : relation.length ≤ maxProjectionCandidates
  · rw [if_pos hbound] at h
    exact (Option.some.inj h).symm
  · rw [if_neg hbound] at h
    cases h

/-- The row the query reads of a candidate and its record. -/
def rowOf (s : CatalogSnapshot) (c : SnapshotCandidate) (r : RawRecord) : CandidateVariantRow where
  candidateId := c.id
  candidateKey := c.candidateKey
  status := c.status
  reading := s.resolvedReading c
  upstreamRecordId := r.upstreamRecordId
  rawRecordId := r.id
  resourceId := r.resourceId
  sourceLocator := r.sourceLocator
  payloadSha256 := r.payloadSha256
  registerManufacturerCode := s.recordCode r "tozeret_cd"
  registerModelCode := s.recordCode r "degem_cd"
  vehicleTypeCode := s.recordCode r "sug_degem"

def rowsOf (s : CatalogSnapshot) (candidates : List SnapshotCandidate) : List CandidateVariantRow :=
  candidates.filterMap fun c => (s.recordById c.rawRecordId).map (rowOf s c)

theorem rowsOf_candidates : rowsOf s s.candidates = s.candidateRows := rfl

/-- A view states what the row of its candidate states, and the row states what readers need. -/
theorem stated_of_variantView (hstored : s.Stored) {c : SnapshotCandidate} (hc : c ∈ s.candidates)
    {r : RawRecord} (hrecord : s.recordById c.rawRecordId = some r) (hpayload : r.payload ≠ none)
    {view : VariantView} (h : variantView readWltpRecord c r = .ok view) :
    (rowOf s c r).Complete ∧ (rowOf s c r).stated = view.toStatedVariant := by
  have hr : r ∈ s.records := List.mem_of_find?_eq_some hrecord
  have hfound : decide (r.id = c.rawRecordId) = true :=
    List.find?_some (p := fun r : RawRecord => decide (r.id = c.rawRecordId)) hrecord
  have hnamed := hstored.stated c hc r hr (of_decide_eq_true hfound) hpayload
  have hreading : (rowOf s c r).reading = c.identity := if_pos hnamed.1
  unfold variantView at h
  cases hstart : c.identity.modelYearStart with
  | none =>
    rw [hstart] at h
    cases h
  | some start =>
    cases hstop : c.identity.modelYearEnd with
    | none =>
      rw [hstart, hstop] at h
      cases h
    | some stop =>
      rw [hstart, hstop] at h
      have hcomplete : (rowOf s c r).Complete := by
        constructor <;> rw [hreading]
        · exact hnamed.1
        · exact hnamed.2
        · rw [hstart]
          exact Option.some_ne_none start
        · rw [hstop]
          exact Option.some_ne_none stop
      apply And.intro hcomplete
      rw [← Except.ok.inj h]
      unfold CandidateVariantRow.stated
      rw [hreading, hstart, hstop]
      rfl

/-- What a loaded snapshot is known to hold. -/
structure Loaded (s : CatalogSnapshot) (views : List VariantView) : Prop where
  payloads : ∀ r ∈ s.records, r.payload ≠ none
  complete : ∀ row ∈ s.candidateRows, row.Complete
  candidateIds : (s.candidateRows.map CandidateVariantRow.candidateId).Nodup
  candidateKeys : ((s.candidateRows.map CandidateVariantRow.stated).map
    StatedVariant.candidateKey).Nodup
  sorted : views.map VariantView.toStatedVariant =
    (s.candidateRows.map CandidateVariantRow.stated).insertionSort StatedVariant.le

/-- The rows of some candidates and the views made of them, one for one. -/
theorem rowsOf_of_views (hstored : s.Stored) (hpayloads : ∀ r ∈ s.records, r.payload ≠ none)
    {candidates : List SnapshotCandidate} {loaded : List VariantView}
    (hcandidates : ∀ c ∈ candidates, c ∈ s.candidates)
    (h : List.Forall₂ (fun c view =>
      (do let r ← required (s.recordById c.rawRecordId) ReadFailure.recordMissing
          variantView readWltpRecord c r) = .ok view) candidates loaded) :
    (∀ row ∈ rowsOf s candidates, row.Complete) ∧
      (rowsOf s candidates).map CandidateVariantRow.candidateId =
        candidates.map SnapshotCandidate.id ∧
      (rowsOf s candidates).map CandidateVariantRow.candidateKey =
        candidates.map SnapshotCandidate.candidateKey ∧
      (rowsOf s candidates).map CandidateVariantRow.stated =
        loaded.map VariantView.toStatedVariant := by
  induction h with
  | nil => exact ⟨fun _ hrow => absurd hrow List.not_mem_nil, rfl, rfl, rfl⟩
  | @cons c view candidates loaded hview _ ih =>
    obtain ⟨r, hrequired, hview⟩ := except_bind_eq_ok.mp hview
    have hrecord := required_eq_ok.mp hrequired
    have hone := stated_of_variantView hstored (hcandidates c List.mem_cons_self) hrecord
      (hpayloads r (List.mem_of_find?_eq_some hrecord)) hview
    obtain ⟨hcomplete, hids, hkeys, hstated⟩ :=
      ih fun c' hc' => hcandidates c' (List.mem_cons_of_mem _ hc')
    have hcons : rowsOf s (c :: candidates) = rowOf s c r :: rowsOf s candidates :=
      List.filterMap_cons_some (by rw [hrecord]; rfl)
    rw [hcons]
    refine ⟨?_, ?_, ?_, ?_⟩
    · intro row hrow
      rcases List.mem_cons.mp hrow with rfl | hrow
      · exact hone.1
      · exact hcomplete row hrow
    · rw [List.map_cons, List.map_cons, hids]
      rfl
    · rw [List.map_cons, List.map_cons, hkeys]
      rfl
    · rw [List.map_cons, List.map_cons, hstated, hone.2]

theorem loaded_of_load (hstored : s.Stored) (h : load readWltpRecord s state = .ok views) :
    Loaded s views := by
  obtain ⟨records, hrecords, h⟩ := except_bind_eq_ok.mp h
  obtain ⟨_, hcompacted, h⟩ := except_bind_eq_ok.mp h
  obtain ⟨candidates, hcandidates, h⟩ := except_bind_eq_ok.mp h
  obtain ⟨_, _, h⟩ := except_bind_eq_ok.mp h
  obtain ⟨loaded, hloaded, h⟩ := except_bind_eq_ok.mp h
  have hpayloads : ∀ r ∈ s.records, r.payload ≠ none := by
    intro r hr hpayload
    rw [readRelation_eq_ok hrecords] at hcompacted
    exact refuseIf_eq_ok.mp hcompacted ⟨r, hr, hpayload⟩
  rw [readRelation_eq_ok hcandidates] at hloaded
  obtain ⟨hcomplete, hids, hkeys, hstated⟩ :=
    rowsOf_of_views hstored hpayloads (fun _ hc => hc) (forall₂_of_mapM hloaded)
  rw [rowsOf_candidates] at hcomplete hids hkeys hstated
  apply Loaded.mk hpayloads hcomplete
  · rw [hids]
    exact hstored.candidateIds
  · rw [List.map_map]
    show (s.candidateRows.map CandidateVariantRow.candidateKey).Nodup
    rw [hkeys]
    exact hstored.candidateKeys
  · rw [← Except.ok.inj h, hstated]
    exact List.map_insertionSort
      (fun a b : VariantView => (a.toStatedVariant.compareKeys b.toStatedVariant).isLE = true)
      StatedVariant.le VariantView.toStatedVariant loaded fun _ _ _ _ => Iff.rfl

end GovernmentCatalogProjection

/-! ## 7. The same listing -/

section Agreement

variable {s : CatalogSnapshot} {views : List VariantView} {filters : PageFilters}

open GovernmentCatalogProjection

/-- A filter that is met by what a row states lists the same variants, in the same order, as the
    projection narrowed by it. -/
theorem map_variantListing (hloaded : Loaded s views) {p : StatedVariant → Bool}
    (hfilter : ∀ row ∈ s.candidateRows, filters.admits row = p row.stated) :
    (s.variantListing filters).map CandidateVariantRow.stated =
      (views.filter fun view => p view.toStatedVariant).map VariantView.toStatedVariant := by
  have hrows : (s.candidateRows.filter filters.admits).map CandidateVariantRow.stated =
      (s.candidateRows.map CandidateVariantRow.stated).filter p := by
    rw [List.filter_map]
    congr 1
    exact List.filter_congr hfilter
  have hviews : (views.filter fun view => p view.toStatedVariant).map VariantView.toStatedVariant =
      (views.map VariantView.toStatedVariant).filter p := by
    rw [List.filter_map]
    rfl
  have hsort : (s.variantListing filters).map CandidateVariantRow.stated =
      ((s.candidateRows.filter filters.admits).map CandidateVariantRow.stated).insertionSort
        StatedVariant.le := by
    apply List.map_insertionSort
    intro a ha b hb
    exact CandidateVariantRow.before_iff (hloaded.complete a (List.mem_filter.mp ha).1)
      (hloaded.complete b (List.mem_filter.mp hb).1)
  rw [hsort, hrows, StatedVariant.insertionSort_filter p hloaded.candidateKeys, hviews, hloaded.sorted]

theorem meets_iff {filter value : Option Text} :
    meets filter value = true ↔ filter = none ∨ value = filter := by
  unfold meets
  rw [Bool.or_eq_true, Option.isNone_iff_eq_none, decide_eq_true_eq]

theorem meets_some {value : Option Text} (hvalue : value ≠ none) (stated : Text) :
    meets (some stated) value = decide (columnString value = stated) := by
  obtain ⟨v, rfl⟩ := Option.ne_none_iff_exists'.mp hvalue
  show (false || decide (some v = some stated)) = decide (v = stated)
  simp

theorem meetsYear_eq {row : CandidateVariantRow} (h : row.Complete) :
    filters.meetsYear row.reading =
      filters.modelYear.all fun year =>
        decide (row.stated.modelYearStart ≤ year) && decide (year ≤ row.stated.modelYearEnd) := by
  obtain ⟨start, hstart⟩ := Option.ne_none_iff_exists'.mp h.modelYearStart
  obtain ⟨stop, hstop⟩ := Option.ne_none_iff_exists'.mp h.modelYearEnd
  unfold PageFilters.meetsYear CandidateVariantRow.stated
  rw [hstart, hstop]
  rfl

theorem map_listing_variantsOf (hloaded : Loaded s views) (manufacturer commercialModel : Text)
    (modelYear : Option ℤ) :
    (s.variantListing
        { manufacturer := some manufacturer, commercialModel := some commercialModel, modelYear }).map
          CandidateVariantRow.stated =
      (variantsOf views manufacturer commercialModel modelYear).map VariantView.toStatedVariant := by
  refine map_variantListing hloaded (p := fun v : StatedVariant =>
    decide (v.manufacturer = manufacturer) && decide (v.commercialModel = commercialModel) &&
      modelYear.all fun year => decide (v.modelYearStart ≤ year) && decide (year ≤ v.modelYearEnd)) ?_
  intro row hrow
  have hcomplete := hloaded.complete row hrow
  unfold PageFilters.admits
  rw [meets_some hcomplete.manufacturer, meets_some hcomplete.commercialModel, meetsYear_eq hcomplete]
  rw [Bool.eq_iff_iff]
  simp [meets, Dict.empty]
  exact fun _ => Iff.rfl

theorem map_listing_variantsWithCode (hloaded : Loaded s views) (officialModelCode : Text) :
    (s.variantListing { officialModelCode := some officialModelCode }).map
        CandidateVariantRow.stated =
      (variantsWithCode views officialModelCode).map VariantView.toStatedVariant := by
  refine map_variantListing hloaded (p := fun v : StatedVariant =>
    decide (v.officialModelCode = some officialModelCode)) ?_
  intro row hrow
  unfold PageFilters.admits PageFilters.meetsYear
  rw [Bool.eq_iff_iff]
  simp [meets, Dict.empty]
  rfl

/-- Without register codes a request matches, verbatim, what the projection matches. -/
theorem map_listing_resolveVariant (hloaded : Loaded s views) {request : VariantFilters}
    (hmanufacturer : request.registerManufacturerCode = none)
    (hmodel : request.registerModelCode = none) (htype : request.vehicleTypeCode = none) :
    (s.variantListing request.page).map CandidateVariantRow.stated =
      (resolveVariant views request).map VariantView.toStatedVariant := by
  refine map_variantListing hloaded (p := fun v : StatedVariant =>
    decide (v.manufacturer = request.manufacturer) &&
      decide (v.commercialModel = request.commercialModel) &&
      (decide (v.modelYearStart ≤ request.modelYear) && decide (request.modelYear ≤ v.modelYearEnd)) &&
      meets request.trim v.trim && meets request.officialModelCode v.officialModelCode &&
      request.identityDimensions.entries.all fun e =>
        decide (v.identityDimensions.get? e.1 = some e.2)) ?_
  intro row hrow
  have hcomplete := hloaded.complete row hrow
  unfold PageFilters.admits
  rw [meetsYear_eq hcomplete]
  show (meets (some request.manufacturer) _ && meets (some request.commercialModel) _ && _ && _ && _ &&
    _ && _ && meets request.registerManufacturerCode _ && meets request.registerModelCode _ &&
    meets request.vehicleTypeCode _) = _
  rw [meets_some hcomplete.manufacturer, meets_some hcomplete.commercialModel, hmanufacturer, hmodel,
    htype]
  rw [Bool.eq_iff_iff]
  simp only [meets_iff, Bool.and_eq_true, decide_eq_true_eq, List.all_eq_true]
  simp only [VariantFilters.page, Option.all_some, Bool.and_eq_true, decide_eq_true_eq, true_or,
    and_true]
  simp only [CandidateVariantRow.stated]
  tauto

end Agreement

/-! ## 8. What a request resolves to -/

namespace CatalogSnapshot

variable (s : CatalogSnapshot) (request : VariantFilters)

/-- The candidates that satisfy every stated filter verbatim. -/
def verbatim : List CandidateVariantRow := s.candidateRows.filter request.page.admits

/-- The model year's candidates under the other filters. -/
def underOtherFilters : List CandidateVariantRow :=
  s.candidateRows.filter { request with officialModelCode := none }.page.admits

end CatalogSnapshot

def CandidateVariantRow.hasKey (wanted : Text) (row : CandidateVariantRow) : Bool :=
  decide (row.reading.officialModelCode.bind separatorKey = some wanted)

section Resolve

variable {readFloat : ℤ → ℕ → Option PyFloat} {s : CatalogSnapshot} {views : List VariantView}
  {request : VariantFilters}

open GovernmentCatalogProjection

namespace GovernmentCatalogQuery

/-- What the retry finds for a request; nothing without a stated code that has a key, and nothing where
    the other filters leave more rows than one page holds. -/
def retried (s : CatalogSnapshot) (request : VariantFilters) : List CandidateVariantRow :=
  match request.officialModelCode.bind separatorKey with
  | none => []
  | some wanted =>
    let listed := s.variantListing { request with officialModelCode := none }.page
    if listed.length ≤ maxSeparatorScanRows then listed.filter (CandidateVariantRow.hasKey wanted)
    else []

/-- The matches of a request, their number and the mode that found them. -/
def answer (s : CatalogSnapshot) (request : VariantFilters) :
    List CandidateVariantRow × ℕ × MatchMode :=
  if s.variantListing request.page = [] ∧ retried s request ≠ [] then
    ((retried s request).take maxResolutionMatches, (retried s request).length, .separatorInsensitive)
  else
    ((s.variantListing request.page).take maxResolutionMatches, (s.variantListing request.page).length,
      .exact)

theorem listVariants_first {filters : PageFilters} {limit : ℕ} (hlimit : boundedLimit limit = limit)
    (hcomplete : ∀ row ∈ s.candidateRows, row.Complete) (haccepted : filters.accepted = true) :
    listVariants s filters limit 0 =
      .ok ⟨(s.variantListing filters).take limit, (s.variantListing filters).length, 0, limit⟩ := by
  have hoffset : (filters.accepted && isInteger (boundedOffset 0)) = true := by
    rw [haccepted]
    rfl
  rw [listVariants_eq hcomplete hoffset, hlimit]
  rfl

theorem separatorInsensitive_eq (hcomplete : ∀ row ∈ s.candidateRows, row.Complete)
    (haccepted : request.page.accepted = true) {code : Text}
    (hcode : request.officialModelCode = some code) :
    separatorInsensitive s request code =
      .ok (if retried s request = [] then none
        else some ((retried s request).take maxResolutionMatches, (retried s request).length)) := by
  have hother : ({ request with officialModelCode := none } : VariantFilters).page.accepted = true :=
    haccepted
  unfold separatorInsensitive
  cases hkey : separatorKey code with
  | none =>
    have hretried : retried s request = [] := by
      unfold retried
      rw [hcode, Option.bind_some, hkey]
    simp only [hretried]
    rfl
  | some wanted =>
    dsimp only
    rw [listVariants_first (by decide) hcomplete hother]
    have hretried : retried s request =
        if (s.variantListing
          ({ request with officialModelCode := none } : VariantFilters).page).length ≤
            maxSeparatorScanRows then
          (s.variantListing ({ request with officialModelCode := none } : VariantFilters).page).filter
            (CandidateVariantRow.hasKey wanted)
        else [] := by
      unfold retried
      rw [hcode, Option.bind_some, hkey]
    generalize s.variantListing ({ request with officialModelCode := none } : VariantFilters).page =
      listed at hretried
    simp only [bind, Except.bind, QueryPage.hasMore, Nat.zero_add, List.length_take]
    by_cases hfits : listed.length ≤ maxSeparatorScanRows
    · rw [if_pos hfits] at hretried
      rw [if_neg (by rw [decide_eq_true_eq]; omega)]
      simp only [hretried, List.take_of_length_le hfits]
      rfl
    · rw [if_neg hfits] at hretried
      rw [if_pos (by rw [decide_eq_true_eq]; omega)]
      simp only [hretried]
      rfl

theorem retried_of_no_code (hcode : request.officialModelCode = none) : retried s request = [] := by
  unfold retried
  rw [hcode]
  rfl

theorem resolutionMatches_eq (hcomplete : ∀ row ∈ s.candidateRows, row.Complete)
    (haccepted : request.page.accepted = true) :
    resolutionMatches s request = .ok (answer s request) := by
  unfold resolutionMatches answer
  rw [listVariants_first (by decide) hcomplete haccepted]
  simp only [bind, Except.bind]
  cases hcode : request.officialModelCode with
  | none =>
    rw [if_neg fun h => h.2 (retried_of_no_code hcode)]
    rfl
  | some code =>
    dsimp only
    by_cases hnone : s.variantListing request.page = []
    · rw [if_pos (by rw [hnone]; rfl), separatorInsensitive_eq hcomplete haccepted hcode]
      by_cases hretried : retried s request = []
      · rw [if_pos hretried, if_neg fun h => h.2 hretried]
        rfl
      · rw [if_neg hretried, if_pos ⟨hnone, hretried⟩]
        rfl
    · rw [if_neg fun h => hnone (List.length_eq_zero_iff.mp h), if_neg fun h => hnone h.1]
      rfl

variable {row : CandidateVariantRow} {rows : List CandidateVariantRow}

theorem mem_candidateRows_of_answer (h : row ∈ (answer s request).1) : row ∈ s.candidateRows := by
  unfold answer at h
  split at h
  · have hretried := List.mem_of_mem_take h
    unfold retried at hretried
    cases hkey : request.officialModelCode.bind separatorKey with
    | none =>
      rw [hkey] at hretried
      cases hretried
    | some wanted =>
      rw [hkey] at hretried
      dsimp only at hretried
      split at hretried
      · exact (CatalogSnapshot.mem_variantListing.mp (List.mem_filter.mp hretried).1).1
      · cases hretried
  · exact (CatalogSnapshot.mem_variantListing.mp (List.mem_of_mem_take h)).1

/-- The record of a listed candidate is there to be read. -/
theorem exists_readRecord (hpayloads : ∀ r ∈ s.records, r.payload ≠ none) (hrow : row ∈ s.candidateRows) :
    ∃ reading, s.readRecord readFloat row.upstreamRecordId = .ok reading := by
  obtain ⟨c, -, hc⟩ := List.mem_filterMap.mp hrow
  obtain ⟨r, hrecord, rfl⟩ := Option.map_eq_some_iff.mp hc
  have hr : r ∈ s.records := List.mem_of_find?_eq_some hrecord
  have hfound : (s.recordByUpstreamId r.upstreamRecordId).isSome = true := by
    unfold CatalogSnapshot.recordByUpstreamId
    rw [List.find?_isSome]
    exact ⟨r, hr, decide_eq_true rfl⟩
  obtain ⟨r', hr'⟩ := Option.isSome_iff_exists.mp hfound
  obtain ⟨payload, hpayload⟩ :=
    Option.ne_none_iff_exists'.mp (hpayloads r' (List.mem_of_find?_eq_some hr'))
  refine ⟨(identityProjection readFloat payload, unstatedFields payload), ?_⟩
  unfold CatalogSnapshot.readRecord
  dsimp only
  rw [hr']
  dsimp only
  rw [hpayload]

theorem resolveVariant_eq (hloaded : Loaded s views) (haccepted : request.page.accepted = true) :
    ∃ result, resolveVariant readFloat s request = .ok result ∧
      (result.found, result.matchCount, result.matchMode) = answer s request := by
  have hrows : ∀ row ∈ (answer s request).1, row ∈ s.candidateRows :=
    fun row hrow => mem_candidateRows_of_answer hrow
  unfold resolveVariant
  rw [resolutionMatches_eq hloaded.complete haccepted]
  simp only [bind, Except.bind]
  generalize answer s request = found at hrows
  rcases found with ⟨rows, matchCount, mode⟩
  split
  · rename_i row rest mode' hfound
    cases hfound
    obtain ⟨reading, hreading⟩ :=
      @exists_readRecord readFloat s row hloaded.payloads (hrows row List.mem_cons_self)
    rw [hreading]
    exact ⟨_, rfl, rfl⟩
  · rename_i found' matchCount' mode' _ hfound
    cases hfound
    exact ⟨_, rfl, rfl⟩

theorem variantListing_perm {filters : PageFilters} :
    (s.variantListing filters).Perm (s.candidateRows.filter filters.admits) :=
  List.perm_insertionSort _ _

/-- The listing has one row exactly if the candidates that meet the filters are that one. -/
theorem eq_singleton_iff {rows' : List CandidateVariantRow} (h : rows.Perm rows') (row : CandidateVariantRow) :
    rows = [row] ↔ rows' = [row] := by
  constructor
  · intro hrows
    rw [hrows] at h
    exact List.perm_singleton.mp h.symm
  · intro hrows
    rw [hrows] at h
    exact List.perm_singleton.mp h

theorem retried_eq_singleton_iff (row : CandidateVariantRow) :
    retried s request = [row] ↔
      ∃ code wanted, request.officialModelCode = some code ∧ separatorKey code = some wanted ∧
        (s.underOtherFilters request).length ≤ maxSeparatorScanRows ∧
        (s.underOtherFilters request).filter (CandidateVariantRow.hasKey wanted) = [row] := by
  have hperm := @variantListing_perm s
    ({ request with officialModelCode := none } : VariantFilters).page
  unfold retried
  cases hkey : request.officialModelCode.bind separatorKey with
  | none =>
    constructor
    · intro h
      cases h
    · rintro ⟨code, wanted, hcode, hwanted, -⟩
      rw [hcode, Option.bind_some, hwanted] at hkey
      cases hkey
  | some wanted =>
    obtain ⟨code, hcode, hwanted⟩ := Option.bind_eq_some_iff.mp hkey
    dsimp only
    rw [hperm.length_eq]
    show (if (s.underOtherFilters request).length ≤ maxSeparatorScanRows then _ else _) = [row] ↔ _
    constructor
    · intro h
      by_cases hfits : (s.underOtherFilters request).length ≤ maxSeparatorScanRows
      · rw [if_pos hfits] at h
        exact ⟨code, wanted, hcode, hwanted, hfits, (eq_singleton_iff (hperm.filter _) row).mp h⟩
      · rw [if_neg hfits] at h
        cases h
    · rintro ⟨code', wanted', hcode', hwanted', hfits, hone⟩
      have hsame : wanted' = wanted := by
        rw [hcode, Option.some.injEq] at hcode'
        rw [hcode'] at hwanted
        exact Option.some.inj (hwanted'.symm.trans hwanted)
      rw [if_pos hfits, ← hsame]
      exact (eq_singleton_iff (hperm.filter _) row).mpr hone

theorem only_iff :
    (if rows.length = 1 then (rows.take maxResolutionMatches).head? else none) = some row ↔
      rows = [row] := by
  match rows with
  | [] => simp
  | [one] => simp [maxResolutionMatches]
  | one :: other :: rest => simp

/-- One variant is answered where one candidate satisfies the request verbatim, or none does and the
    retry finds one. -/
theorem variant_answer (row : CandidateVariantRow) :
    (if (answer s request).2.1 = 1 then (answer s request).1.head? else none) = some row ↔
      s.verbatim request = [row] ∨ s.verbatim request = [] ∧ retried s request = [row] := by
  have hperm := @variantListing_perm s request.page
  have hempty : s.variantListing request.page = [] ↔ s.verbatim request = [] := by
    constructor
    · intro h
      rw [h] at hperm
      exact List.perm_nil.mp hperm.symm
    · intro h
      unfold CatalogSnapshot.verbatim at h
      rw [h] at hperm
      exact List.perm_nil.mp hperm
  unfold answer
  by_cases hwidened : s.variantListing request.page = [] ∧ retried s request ≠ []
  · rw [if_pos hwidened, only_iff]
    have hnone := hempty.mp hwidened.1
    rw [hnone]
    simp
  · rw [if_neg hwidened, only_iff, eq_singleton_iff hperm]
    show s.verbatim request = [row] ↔ _
    constructor
    · exact Or.inl
    · intro h
      rcases h with hverbatim | ⟨hnone, hretried⟩
      · exact hverbatim
      · rw [not_and, not_not] at hwidened
        rw [hwidened (hempty.mpr hnone)] at hretried
        cases hretried

end GovernmentCatalogQuery

end Resolve

/-! ## 9. The readers agree -/

section Agree

variable {readFloat : ℤ → ℕ → Option PyFloat}
  {readWltpRecord : Payload → Text → Option (Option ℤ × List String)} {s : CatalogSnapshot}
  {state : NormalizationState} {views : List VariantView} {request : VariantFilters}

namespace GovernmentCatalogProjection

/-- The pages of a listing that the projection agrees with. -/
theorem Loaded.pages (hloaded : Loaded s views) {filters : PageFilters} {listed : List VariantView}
    (hlisted : (s.variantListing filters).map CandidateVariantRow.stated =
      listed.map VariantView.toStatedVariant)
    (haccepted : filters.accepted = true) (limit : ℤ) (n : ℕ)
    (hoffsets : ∀ k < n, isInteger (k * boundedLimit limit : ℕ) = true) :
    ∃ pages : List QueryPage,
      ((List.range n).mapM fun k =>
        GovernmentCatalogQuery.listVariants s filters limit (k * boundedLimit limit : ℕ)) = .ok pages ∧
      (∀ p ∈ pages, p.total = listed.length) ∧
      (pages.flatMap QueryPage.items).map CandidateVariantRow.stated =
        (listed.map VariantView.toStatedVariant).take (n * boundedLimit limit) := by
  obtain ⟨pages, hpages, htotals, hitems⟩ :=
    GovernmentCatalogQuery.listVariants_pages hloaded.complete haccepted limit n hoffsets
  refine ⟨pages, hpages, ?_, ?_⟩
  · intro p hp
    have hlength := congrArg List.length hlisted
    rw [List.length_map, List.length_map] at hlength
    rw [htotals p hp, hlength]
  · rw [hitems, List.map_take, hlisted]

theorem Loaded.nodup (hloaded : Loaded s views) :
    (views.map fun view => view.candidateId).Nodup := by
  have hids : (views.map fun view => view.candidateId) =
      (views.map VariantView.toStatedVariant).map StatedVariant.candidateId := by
    rw [List.map_map]
    rfl
  have hperm := (List.perm_insertionSort StatedVariant.le
    (s.candidateRows.map CandidateVariantRow.stated)).map StatedVariant.candidateId
  rw [hids, hloaded.sorted, hperm.nodup_iff, List.map_map]
  exact hloaded.candidateIds

end GovernmentCatalogProjection

/-- Where the projection holds a snapshot, its lists and the pages of the query are the same variants
    in the same order, and `resolve_variant` widens only a request that nothing satisfies verbatim. -/
theorem readers_agree (hstored : s.Stored)
    (hload : GovernmentCatalogProjection.load readWltpRecord s state = .ok views) :
    (views.map fun view => view.candidateId).Nodup ∧
    (∀ manufacturer commercialModel modelYear limit n, modelYear.all isInteger = true →
      (∀ k < n, isInteger (k * boundedLimit limit : ℕ) = true) →
      let listed := GovernmentCatalogProjection.variantsOf views manufacturer commercialModel modelYear
      ∃ pages : List QueryPage,
        ((List.range n).mapM fun k =>
          GovernmentCatalogQuery.listVariants s
            { manufacturer := some manufacturer, commercialModel := some commercialModel, modelYear }
            limit (k * boundedLimit limit : ℕ)) = .ok pages ∧
        (∀ p ∈ pages, p.total = listed.length) ∧
        (pages.flatMap QueryPage.items).map CandidateVariantRow.stated =
          (listed.map VariantView.toStatedVariant).take (n * boundedLimit limit)) ∧
    (∀ officialModelCode limit n,
      (∀ k < n, isInteger (k * boundedLimit limit : ℕ) = true) →
      let listed := GovernmentCatalogProjection.variantsWithCode views officialModelCode
      ∃ pages : List QueryPage,
        ((List.range n).mapM fun k =>
          GovernmentCatalogQuery.findByModelCode s officialModelCode limit
            (k * boundedLimit limit : ℕ)) = .ok pages ∧
        (∀ p ∈ pages, p.total = listed.length) ∧
        (pages.flatMap QueryPage.items).map CandidateVariantRow.stated =
          (listed.map VariantView.toStatedVariant).take (n * boundedLimit limit)) ∧
    (∀ filters limit offset, (filters.accepted && isInteger (boundedOffset offset)) = false →
      GovernmentCatalogQuery.listVariants s filters limit offset = .error .queryUnavailable) ∧
    (∀ request : VariantFilters, request.page.accepted = true →
      (∃ result, GovernmentCatalogQuery.resolveVariant readFloat s request = .ok result) ∧
      (∀ row, (∃ result, GovernmentCatalogQuery.resolveVariant readFloat s request = .ok result ∧
          result.variant = some row) ↔
        s.verbatim request = [row] ∨
        s.verbatim request = [] ∧
          ∃ code wanted, request.officialModelCode = some code ∧ separatorKey code = some wanted ∧
            (s.underOtherFilters request).length ≤ maxSeparatorScanRows ∧
            (s.underOtherFilters request).filter (CandidateVariantRow.hasKey wanted) = [row]) ∧
      ∀ result, GovernmentCatalogQuery.resolveVariant readFloat s request = .ok result →
        (s.verbatim request ≠ [] → result.matchMode = .exact) ∧
        (result.matchMode = .exact → request.registerManufacturerCode = none →
          request.registerModelCode = none → request.vehicleTypeCode = none →
            let matched := GovernmentCatalogProjection.resolveVariant views request
            result.matchCount = matched.length ∧
              result.found.map CandidateVariantRow.stated =
                (matched.map VariantView.toStatedVariant).take maxResolutionMatches)) := by
  have hloaded := GovernmentCatalogProjection.loaded_of_load hstored hload
  refine ⟨hloaded.nodup, ?_, ?_, ?_, ?_⟩
  · intro manufacturer commercialModel modelYear limit n hyear hoffsets
    have haccepted : PageFilters.accepted
        { manufacturer := some manufacturer, commercialModel := some commercialModel, modelYear } =
          true := by
      show (true && true && modelYear.all isInteger) = true
      rw [hyear]
      rfl
    exact hloaded.pages (map_listing_variantsOf hloaded manufacturer commercialModel modelYear)
      haccepted limit n hoffsets
  · intro officialModelCode limit n hoffsets
    exact hloaded.pages (map_listing_variantsWithCode hloaded officialModelCode) rfl limit n hoffsets
  · intro filters limit offset hrefused
    exact GovernmentCatalogQuery.listVariants_refused hrefused
  · intro request haccepted
    obtain ⟨result, hresult, hanswer⟩ :=
      @GovernmentCatalogQuery.resolveVariant_eq readFloat s views request hloaded haccepted
    have hvariant : result.variant =
        if (GovernmentCatalogQuery.answer s request).2.1 = 1 then
          (GovernmentCatalogQuery.answer s request).1.head?
        else none := by
      rw [← hanswer]
      rfl
    refine ⟨⟨result, hresult⟩, ?_, ?_⟩
    · intro row
      rw [← GovernmentCatalogQuery.retried_eq_singleton_iff,
        ← GovernmentCatalogQuery.variant_answer, ← hvariant, hresult]
      constructor
      · rintro ⟨_, hsame, hrow⟩
        rw [Except.ok.inj hsame]
        exact hrow
      · intro hrow
        exact ⟨result, rfl, hrow⟩
    · intro result' hresult'
      have hsame : result = result' := Except.ok.inj (hresult.symm.trans hresult')
      rw [← hsame]
      have hlisting := @GovernmentCatalogQuery.variantListing_perm s request.page
      unfold GovernmentCatalogQuery.answer at hanswer
      apply And.intro
      · intro hverbatim
        have hlisted : s.variantListing request.page ≠ [] := by
          intro hempty
          rw [hempty] at hlisting
          exact hverbatim (List.perm_nil.mp hlisting.symm)
        rw [if_neg fun h => hlisted h.1] at hanswer
        exact congrArg (fun t => t.2.2) hanswer
      · intro hexact hmanufacturer hmodel htype
        have hmatched := map_listing_resolveVariant hloaded hmanufacturer hmodel htype
        split at hanswer
        · have hmode : result.matchMode = .separatorInsensitive := congrArg (fun t => t.2.2) hanswer
          rw [hexact] at hmode
          cases hmode
        · have hfound : result.found = _ := congrArg (fun t => t.1) hanswer
          have hcount : result.matchCount = _ := congrArg (fun t => t.2.1) hanswer
          have hlength := congrArg List.length hmatched
          rw [List.length_map, List.length_map] at hlength
          apply And.intro
          · rw [hcount, hlength]
          · rw [hfound, List.map_take, hmatched]

end Agree

/-! ## 10. A model year of twenty-one rows -/

def wideLetters : List Char := "ABCDEFGHIJKLMNOPQRSTU".toList

def wide : CatalogSnapshot where
  records := wideLetters.map fun letter =>
    ⟨[letter], [letter], "resource".toList, Dict.empty, "digest".toList, some Dict.empty⟩
  candidates := wideLetters.map fun letter =>
    ⟨[letter], [letter], "candidate".toList, [letter],
      { manufacturer := some "Mazda".toList
        commercialModel := some "3".toList
        modelYearStart := some 2020
        modelYearEnd := some 2020 }⟩
  variants := Dict.empty
  compacted := false

def wideState : NormalizationState := ⟨false, 21⟩

def wideRequest : VariantFilters where
  manufacturer := "Mazda".toList
  commercialModel := "3".toList
  modelYear := 2020

def noReading (_payload : Payload) (_resourceId : Text) : Option (Option ℤ × List String) := none

theorem wide_stored : wide.Stored where
  candidateIds := by decide +kernel
  candidateKeys := by decide +kernel
  stated := by
    intro c hc _ _ _ _
    obtain ⟨letter, -, rfl⟩ := List.mem_map.mp hc
    exact ⟨Option.some_ne_none _, Option.some_ne_none _⟩

theorem exists_wideViews : ∃ views,
    GovernmentCatalogProjection.load noReading wide wideState = .ok views ∧
      (GovernmentCatalogProjection.resolveVariant views wideRequest).length = 21 := by
  have hlength : (match GovernmentCatalogProjection.load noReading wide wideState with
      | .ok views => (GovernmentCatalogProjection.resolveVariant views wideRequest).length
      | .error _ => 0) = 21 := by decide +kernel
  cases hload : GovernmentCatalogProjection.load noReading wide wideState with
  | error failure =>
    rw [hload] at hlength
    cases hlength
  | ok views =>
    rw [hload] at hlength
    exact ⟨views, rfl, hlength⟩

/-- An exact answer does not carry every match of the projection. -/
theorem exact_answer_cut_short :
    ¬ ∀ (s : CatalogSnapshot) (state : NormalizationState) (views : List VariantView)
        (request : VariantFilters) (result : VariantResolutionResult), s.Stored →
      GovernmentCatalogProjection.load noReading s state = .ok views →
      GovernmentCatalogQuery.resolveVariant noFloat s request = .ok result →
      result.matchMode = .exact →
        result.found.map CandidateVariantRow.stated =
          (GovernmentCatalogProjection.resolveVariant views request).map
            VariantView.toStatedVariant := by
  intro h
  obtain ⟨views, hload, hlength⟩ := exists_wideViews
  have hloaded := GovernmentCatalogProjection.loaded_of_load wide_stored hload
  obtain ⟨result, hresult, hanswer⟩ :=
    @GovernmentCatalogQuery.resolveVariant_eq noFloat wide views wideRequest hloaded rfl
  have hretried : GovernmentCatalogQuery.retried wide wideRequest = [] :=
    GovernmentCatalogQuery.retried_of_no_code rfl
  unfold GovernmentCatalogQuery.answer at hanswer
  rw [if_neg fun hwidened => hwidened.2 hretried] at hanswer
  have hmode : result.matchMode = .exact := congrArg (fun t => t.2.2) hanswer
  have hfound : result.found = (wide.variantListing wideRequest.page).take maxResolutionMatches :=
    congrArg (fun t => t.1) hanswer
  have hall := congrArg List.length (h wide wideState views wideRequest result wide_stored hload hresult
    hmode)
  have hcut := List.length_take_le maxResolutionMatches (wide.variantListing wideRequest.page)
  rw [List.length_map, List.length_map, hlength, hfound] at hall
  rw [hall] at hcut
  exact absurd hcut (by decide)

theorem readers_agree_wide : ∃ views,
    GovernmentCatalogProjection.load noReading wide wideState = .ok views ∧
      (views.map fun view => view.candidateId).Nodup ∧
      ∃ result, GovernmentCatalogQuery.resolveVariant noFloat wide wideRequest = .ok result := by
  obtain ⟨views, hload, -⟩ := exists_wideViews
  have hagree := @readers_agree noFloat noReading wide wideState views wide_stored hload
  exact ⟨views, hload, hagree.1, (hagree.2.2.2.2 wideRequest rfl).1⟩

end Milo.Catalog
