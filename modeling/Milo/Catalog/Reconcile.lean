import Milo.Catalog.Runs
import Milo.Python.Text
import Milo.Reasoning.Grouping
import Milo.Reasoning.StableSort

/-!
# Reconcile — the comparison of the register with the legacy reference

Every legacy row is placed by the first tier that finds a government candidate: an exact model code, the
normalized identity, a reviewed alias; each with overlapping years.  Several candidates are an ambiguity,
and what neither side reaches is a gap.
-/

namespace Milo.Catalog

open Milo.Reasoning Milo.Python

/-- `MAX_RECONCILED_VARIANTS`. -/
def maxReconciledVariants : ℕ := 5000

/-! ## 1. The two sides -/

structure AliasRule where
  legacyManufacturer : Text
  legacyCommercialModel : Text
  governmentManufacturer : Text
  governmentCommercialModel : Text
  deriving DecidableEq

structure ReconcilableVariant where
  candidateId : Text
  candidateKey : Text
  manufacturer : Text
  commercialModel : Text
  modelYearStart : ℤ
  modelYearEnd : ℤ
  officialModelCode : Option Text := none
  trim : Option Text := none
  identityDimensions : Dict Text Text := Dict.empty
  deriving DecidableEq

abbrev Identity := Text × Text

namespace ReconcilableVariant

/-- `range(start, end + 1)`. -/
def modelYears (v : ReconcilableVariant) : List ℤ :=
  (List.range (v.modelYearEnd + 1 - v.modelYearStart).toNat).map fun n => v.modelYearStart + n

/-- The key both sides are sorted by. -/
def sortKey (v : ReconcilableVariant) : Text ×ₗ Text ×ₗ ℤ ×ₗ Text :=
  toLex (v.manufacturer, toLex (v.commercialModel, toLex (v.modelYearStart, v.candidateKey)))

end ReconcilableVariant

/-- An absent text and an empty one are both false. -/
def stated (text : Option Text) : Option Text := text.filter fun text => decide (text ≠ [])

def yearsOverlap (left right : ReconcilableVariant) : Bool :=
  decide (left.modelYearStart ≤ right.modelYearEnd) && decide (right.modelYearStart ≤ left.modelYearEnd)

/-! ## 2. Results -/

inductive ReconciliationState
  | matched
  | ambiguous
  | underEnriched
  | governmentOnly
  | legacyOnly
  | missingYears
  deriving DecidableEq, Repr

inductive ReconciliationMethod
  | officialModelCode
  | normalizedIdentityAndYear
  | reviewedAlias
  | none
  deriving DecidableEq, Repr

/-- `CatalogMatch` and `CatalogGap`, which have the same fields. -/
structure CatalogResult where
  state : ReconciliationState
  method : ReconciliationMethod
  manufacturer : Text
  commercialModel : Text
  modelYears : List ℤ
  governmentCandidateIds : List Text
  legacyCandidateIds : List Text
  detail : List Text
  deriving DecidableEq

structure ReconciliationReport where
  catalogMatches : List CatalogResult
  gaps : List CatalogResult
  governmentVariantCount : ℕ
  legacyVariantCount : ℕ
  deriving DecidableEq

inductive CatalogReconciliationError
  | exceedsBound
  | aliasRulesContradict
  deriving DecidableEq, Repr

/-! ## 3. The comparison -/

/-- `normalize_identity_text`; `fold` is the NFKC form, case folded. -/
def normalizeIdentityText (fold : Text → Text) (value : Text) : Text := joinWords (words (fold value))

def ReconcilableVariant.identity (fold : Text → Text) (v : ReconcilableVariant) : Identity :=
  (normalizeIdentityText fold v.manufacturer, normalizeIdentityText fold v.commercialModel)

/-- `_alias_index`: two rules for one legacy identity must agree. -/
def aliasIndex (fold : Text → Text) (rules : List AliasRule) :
    Except CatalogReconciliationError (Dict Identity Identity) :=
  rules.foldlM (fun index rule =>
    let key := (normalizeIdentityText fold rule.legacyManufacturer,
      normalizeIdentityText fold rule.legacyCommercialModel)
    let target := (normalizeIdentityText fold rule.governmentManufacturer,
      normalizeIdentityText fold rule.governmentCommercialModel)
    if (index.get? key).getD target ≠ target then .error .aliasRulesContradict
    else .ok (index.set key target)) Dict.empty

/-- `_under_enrichment`: what the government row states and the legacy row does not. -/
def underEnrichment (government legacy : ReconcilableVariant) : List Text :=
  (if (stated government.officialModelCode).isSome && (stated legacy.officialModelCode).isNone then
      ["official_model_code".toList]
    else []) ++
    (if (stated government.trim).isSome && (stated legacy.trim).isNone then ["trim".toList] else []) ++
    sortedBy id (government.identityDimensions.keys.filter fun name =>
      decide (name ∉ legacy.identityDimensions.keys))

/-- The government side, by code and by normalized identity. -/
structure GovernmentIndex where
  byCode : Dict Text (List ReconcilableVariant)
  byIdentity : Dict Identity (List ReconcilableVariant)

def indexGovernment (fold : Text → Text) (government : List ReconcilableVariant) : GovernmentIndex where
  byCode := Dict.groupBy (fun v => (stated v.officialModelCode).getD [])
    (government.filter fun v => (stated v.officialModelCode).isSome)
  byIdentity := Dict.groupBy (ReconcilableVariant.identity fold) government

/-- The candidates of a group whose years overlap the row's. -/
def overlapping (group : Option (List ReconcilableVariant)) (row : ReconcilableVariant) :
    List ReconcilableVariant :=
  (group.getD []).filter fun v => yearsOverlap v row

/-- `_candidates_for`: the first tier that finds any. -/
def candidatesFor (fold : Text → Text) (index : GovernmentIndex) (aliases : Dict Identity Identity)
    (row : ReconcilableVariant) : List ReconcilableVariant × ReconciliationMethod :=
  let exactly :=
    match stated row.officialModelCode with
    | none => []
    | some code => overlapping (index.byCode.get? code) row
  if exactly ≠ [] then (exactly, .officialModelCode)
  else
    let direct := overlapping (index.byIdentity.get? (row.identity fold)) row
    if direct ≠ [] then (direct, .normalizedIdentityAndYear)
    else
      let byAlias :=
        match aliases.get? (row.identity fold) with
        | none => []
        | some aliased => overlapping (index.byIdentity.get? aliased) row
      if byAlias ≠ [] then (byAlias, .reviewedAlias) else ([], .none)

def legacyOnly (row : ReconcilableVariant) : CatalogResult :=
  { state := .legacyOnly, method := .none
    manufacturer := row.manufacturer, commercialModel := row.commercialModel
    modelYears := row.modelYears
    governmentCandidateIds := [], legacyCandidateIds := [row.candidateId]
    detail := ["the register states no variant this row could be".toList] }

def codeAndTrim (v : ReconcilableVariant) : Text :=
  (stated v.officialModelCode).getD [] ++ '|' :: (stated v.trim).getD []

/-- The match of a row that reached `first` and `rest`. -/
def matchOf (row first : ReconcilableVariant) (rest : List ReconcilableVariant)
    (method : ReconciliationMethod) : CatalogResult :=
  let ids := sortedBy id ((first :: rest).map ReconcilableVariant.candidateId)
  if rest ≠ [] then
    { state := .ambiguous, method
      manufacturer := first.manufacturer, commercialModel := first.commercialModel
      modelYears := row.modelYears
      governmentCandidateIds := ids, legacyCandidateIds := [row.candidateId]
      detail := sortedBy id ((first :: rest).map codeAndTrim) }
  else
    let enrichment := underEnrichment first row
    { state := if enrichment ≠ [] then .underEnriched else .matched, method
      manufacturer := first.manufacturer, commercialModel := first.commercialModel
      modelYears := first.modelYears
      governmentCandidateIds := ids, legacyCandidateIds := [row.candidateId]
      detail := enrichment }

/-- What the loops over both sides gather. -/
structure Comparison where
  catalogMatches : List CatalogResult := []
  gaps : List CatalogResult := []
  reached : List Text := []
  matchedModels : Dict Identity (List ReconcilableVariant) := Dict.empty

/-- One turn of the loop over the legacy side. -/
def placeLegacy (fold : Text → Text) (index : GovernmentIndex) (aliases : Dict Identity Identity)
    (c : Comparison) (row : ReconcilableVariant) : Comparison :=
  match candidatesFor fold index aliases row with
  | ([], _) => { c with gaps := c.gaps ++ [legacyOnly row] }
  | (first :: rest, method) =>
    { c with
      catalogMatches := c.catalogMatches ++ [matchOf row first rest method]
      reached := c.reached ++ (first :: rest).map ReconcilableVariant.candidateId
      matchedModels := Dict.appendTo (fun _ => first.identity fold) c.matchedModels row }

def governmentOnly (v : ReconcilableVariant) : CatalogResult :=
  { state := .governmentOnly, method := .none
    manufacturer := v.manufacturer, commercialModel := v.commercialModel
    modelYears := v.modelYears
    governmentCandidateIds := [v.candidateId], legacyCandidateIds := []
    detail := ["the legacy reference states no variant this row could be".toList] }

/-- The years of a variant that no row of its matched model states. -/
def uncoveredYears (v : ReconcilableVariant) (group : List ReconcilableVariant) : List ℤ :=
  v.modelYears.filter fun year => decide (year ∉ group.flatMap ReconcilableVariant.modelYears)

def missingYears (v : ReconcilableVariant) (group : List ReconcilableVariant) : CatalogResult :=
  { state := .missingYears, method := .normalizedIdentityAndYear
    manufacturer := v.manufacturer, commercialModel := v.commercialModel
    modelYears := uncoveredYears v group
    governmentCandidateIds := [v.candidateId]
    legacyCandidateIds := sortedBy id (group.map ReconcilableVariant.candidateId)
    detail := ["the register states model years the legacy reference does not".toList] }

/-- The gap of a government variant: of every one that no row reached. -/
def governmentGap (fold : Text → Text) (reached : List Text)
    (matchedModels : Dict Identity (List ReconcilableVariant)) (v : ReconcilableVariant) :
    Option CatalogResult :=
  if v.candidateId ∈ reached then none
  else
    match matchedModels.get? (v.identity fold) with
    | some group => if uncoveredYears v group ≠ [] then some (missingYears v group) else some (governmentOnly v)
    | none => some (governmentOnly v)

/-- One turn of the loop over the government side. -/
def placeGovernment (fold : Text → Text) (c : Comparison) (v : ReconcilableVariant) : Comparison :=
  { c with gaps := c.gaps ++ (governmentGap fold c.reached c.matchedModels v).toList }

def reconcileCatalog (fold : Text → Text) (government legacy : List ReconcilableVariant)
    (rules : List AliasRule) : Except CatalogReconciliationError ReconciliationReport :=
  if maxReconciledVariants < government.length ∨ maxReconciledVariants < legacy.length then
    .error .exceedsBound
  else do
    let aliases ← aliasIndex fold rules
    let index := indexGovernment fold government
    let placed := (sortedBy ReconcilableVariant.sortKey legacy).foldl (placeLegacy fold index aliases) {}
    let compared :=
      (sortedBy ReconcilableVariant.sortKey government).foldl (placeGovernment fold) placed
    return {
      catalogMatches := compared.catalogMatches
      gaps := compared.gaps
      governmentVariantCount := government.length
      legacyVariantCount := legacy.length }

/-! ## 4. The loops in closed form -/

section ClosedForm

variable {fold : Text → Text} {government legacy : List ReconcilableVariant}
  {aliases : Dict Identity Identity}

/-- The government candidates a row reaches. -/
def candidatesFound (fold : Text → Text) (government : List ReconcilableVariant) (aliases : Dict Identity Identity)
    (row : ReconcilableVariant) : List ReconcilableVariant :=
  (candidatesFor fold (indexGovernment fold government) aliases row).1

/-- The match a row makes, if it makes one. -/
def rowMatch (fold : Text → Text) (government : List ReconcilableVariant)
    (aliases : Dict Identity Identity) (row : ReconcilableVariant) : Option CatalogResult :=
  match candidatesFor fold (indexGovernment fold government) aliases row with
  | ([], _) => none
  | (first :: rest, method) => some (matchOf row first rest method)

/-- The identity of the first candidate found. -/
def foundIdentity (fold : Text → Text) (government : List ReconcilableVariant)
    (aliases : Dict Identity Identity) (row : ReconcilableVariant) : Identity :=
  ((candidatesFound fold government aliases row).head?.map (ReconcilableVariant.identity fold)).getD ([], [])

def isFound (fold : Text → Text) (government : List ReconcilableVariant)
    (aliases : Dict Identity Identity) (row : ReconcilableVariant) : Bool :=
  decide (candidatesFound fold government aliases row ≠ [])

/-- The gap of a row that finds nothing. -/
def rowGap (fold : Text → Text) (government : List ReconcilableVariant)
    (aliases : Dict Identity Identity) (row : ReconcilableVariant) : Option CatalogResult :=
  if isFound fold government aliases row then none else some (legacyOnly row)

theorem placeLegacy_foldl (rows : List ReconcilableVariant) :
    rows.foldl (placeLegacy fold (indexGovernment fold government) aliases) {} =
      { catalogMatches := rows.filterMap (rowMatch fold government aliases)
        gaps := rows.filterMap (rowGap fold government aliases)
        reached := rows.flatMap fun row =>
          (candidatesFound fold government aliases row).map ReconcilableVariant.candidateId
        matchedModels := Dict.groupBy (foundIdentity fold government aliases)
          (rows.filter (isFound fold government aliases)) } := by
  induction rows using List.reverseRecOn with
  | nil => rfl
  | append_singleton rows row ih =>
    rw [List.foldl_append, ih, List.foldl_cons, List.foldl_nil]
    cases hrow : candidatesFor fold (indexGovernment fold government) aliases row with
    | mk candidates method =>
      cases candidates with
      | nil =>
        simp [placeLegacy, hrow, rowMatch, rowGap, isFound, candidatesFound]
      | cons first rest =>
        simp [placeLegacy, hrow, rowMatch, rowGap, isFound, candidatesFound, Dict.groupBy, Dict.appendTo,
          foundIdentity]

theorem placeGovernment_foldl (c : Comparison) (rows : List ReconcilableVariant) :
    rows.foldl (placeGovernment fold) c =
      { c with gaps := c.gaps ++ rows.filterMap (governmentGap fold c.reached c.matchedModels) } := by
  induction rows using List.reverseRecOn with
  | nil => simp
  | append_singleton rows row ih =>
    rw [List.foldl_append, ih, List.foldl_cons, List.foldl_nil]
    cases hgap : governmentGap fold c.reached c.matchedModels row with
    | none => simp [placeGovernment, hgap]
    | some gap => simp [placeGovernment, hgap]

/-- The candidates that some row reached. -/
def reachedIds (fold : Text → Text) (government legacy : List ReconcilableVariant)
    (aliases : Dict Identity Identity) : List Text :=
  (sortedBy ReconcilableVariant.sortKey legacy).flatMap fun row =>
    (candidatesFound fold government aliases row).map ReconcilableVariant.candidateId

/-- The rows matched to each identity. -/
def matchedRows (fold : Text → Text) (government legacy : List ReconcilableVariant)
    (aliases : Dict Identity Identity) : Dict Identity (List ReconcilableVariant) :=
  Dict.groupBy (foundIdentity fold government aliases)
    ((sortedBy ReconcilableVariant.sortKey legacy).filter (isFound fold government aliases))

/-- The gap of a government variant in the comparison of the two sides. -/
def gapOf (fold : Text → Text) (government legacy : List ReconcilableVariant)
    (aliases : Dict Identity Identity) : ReconcilableVariant → Option CatalogResult :=
  governmentGap fold (reachedIds fold government legacy aliases)
    (matchedRows fold government legacy aliases)

def reportOf (fold : Text → Text) (government legacy : List ReconcilableVariant)
    (aliases : Dict Identity Identity) : ReconciliationReport where
  catalogMatches :=
    (sortedBy ReconcilableVariant.sortKey legacy).filterMap (rowMatch fold government aliases)
  gaps :=
    (sortedBy ReconcilableVariant.sortKey legacy).filterMap (rowGap fold government aliases) ++
      (sortedBy ReconcilableVariant.sortKey government).filterMap
        (gapOf fold government legacy aliases)
  governmentVariantCount := government.length
  legacyVariantCount := legacy.length

theorem reconcileCatalog_eq {rules : List AliasRule} (haliases : aliasIndex fold rules = .ok aliases) :
    reconcileCatalog fold government legacy rules =
      if maxReconciledVariants < government.length ∨ maxReconciledVariants < legacy.length then
        .error .exceedsBound
      else .ok (reportOf fold government legacy aliases) := by
  rw [reconcileCatalog]
  split
  · rfl
  · rw [haliases]
    show Except.ok _ = Except.ok _
    rw [placeGovernment_foldl, placeLegacy_foldl]
    rfl

end ClosedForm

end Milo.Catalog
