import Milo.Catalog.Reconcile

/-!
# ReconcileSets — when the comparison is a function of its two sets

The report reads its lists in order in three places: rows that tie in the sort key, the name of the
first candidate found, and the model a row is grouped under.  It places every variant of either side.
-/

namespace Milo.Catalog

open Milo.Reasoning Milo.Python

variable {fold : Text → Text} {government government' legacy legacy' : List ReconcilableVariant}
  {aliases : Dict Identity Identity}

/-! ## 1. Candidates -/

theorem overlapping_byIdentity (k : Identity) (row : ReconcilableVariant) :
    overlapping ((indexGovernment fold government).byIdentity.get? k) row =
      (government.filter fun v => decide (v.identity fold = k)).filter fun v => yearsOverlap v row := by
  rw [overlapping, indexGovernment, Dict.getD_get?_groupBy]

theorem overlapping_byCode (code : Text) (row : ReconcilableVariant) :
    overlapping ((indexGovernment fold government).byCode.get? code) row =
      ((government.filter fun v => (stated v.officialModelCode).isSome).filter fun v =>
        decide ((stated v.officialModelCode).getD [] = code)).filter fun v => yearsOverlap v row := by
  rw [overlapping, indexGovernment, Dict.getD_get?_groupBy]

/-- The three tiers, each as a filter of the government side. -/
def exactTier (government : List ReconcilableVariant) (row : ReconcilableVariant) :
    List ReconcilableVariant :=
  match stated row.officialModelCode with
  | none => []
  | some code =>
    ((government.filter fun v => (stated v.officialModelCode).isSome).filter fun v =>
      decide ((stated v.officialModelCode).getD [] = code)).filter fun v => yearsOverlap v row

def identityTier (fold : Text → Text) (government : List ReconcilableVariant) (k : Identity)
    (row : ReconcilableVariant) : List ReconcilableVariant :=
  (government.filter fun v => decide (v.identity fold = k)).filter fun v => yearsOverlap v row

def aliasTier (fold : Text → Text) (government : List ReconcilableVariant)
    (aliases : Dict Identity Identity) (row : ReconcilableVariant) : List ReconcilableVariant :=
  match aliases.get? (row.identity fold) with
  | none => []
  | some aliased => identityTier fold government aliased row

theorem candidatesFor_eq (row : ReconcilableVariant) :
    candidatesFor fold (indexGovernment fold government) aliases row =
      if exactTier government row ≠ [] then (exactTier government row, .officialModelCode)
      else if identityTier fold government (row.identity fold) row ≠ [] then
        (identityTier fold government (row.identity fold) row, .normalizedIdentityAndYear)
      else if aliasTier fold government aliases row ≠ [] then
        (aliasTier fold government aliases row, .reviewedAlias)
      else ([], .none) := by
  unfold candidatesFor exactTier aliasTier
  dsimp only
  cases stated row.officialModelCode with
  | none =>
    cases aliases.get? (row.identity fold) with
    | none => simp only [overlapping_byIdentity, identityTier]
    | some aliased =>
      simp only [overlapping_byIdentity, identityTier]
      rfl
  | some code =>
    cases aliases.get? (row.identity fold) with
    | none => simp only [overlapping_byCode, overlapping_byIdentity, identityTier]
    | some aliased =>
      simp only [overlapping_byCode, overlapping_byIdentity, identityTier]
      rfl

theorem exactTier_sublist (row : ReconcilableVariant) : (exactTier government row).Sublist government := by
  rw [exactTier]
  split
  · exact List.nil_sublist _
  · exact (List.filter_sublist.trans List.filter_sublist).trans List.filter_sublist

theorem identityTier_sublist (k : Identity) (row : ReconcilableVariant) :
    (identityTier fold government k row).Sublist government :=
  List.filter_sublist.trans List.filter_sublist

theorem aliasTier_sublist (row : ReconcilableVariant) :
    (aliasTier fold government aliases row).Sublist government := by
  rw [aliasTier]
  split
  · exact List.nil_sublist _
  · exact identityTier_sublist _ row

/-- What a row finds keeps the government side's order. -/
theorem candidatesFound_sublist (row : ReconcilableVariant) :
    (candidatesFound fold government aliases row).Sublist government := by
  rw [candidatesFound, candidatesFor_eq]
  split
  · exact exactTier_sublist row
  split
  · exact identityTier_sublist _ row
  split
  · exact aliasTier_sublist row
  · exact List.nil_sublist _

theorem exactTier_perm (h : government'.Perm government) (row : ReconcilableVariant) :
    (exactTier government' row).Perm (exactTier government row) := by
  rw [exactTier, exactTier]
  split
  · exact List.Perm.refl _
  · exact ((h.filter _).filter _).filter _

theorem identityTier_perm (h : government'.Perm government) (k : Identity) (row : ReconcilableVariant) :
    (identityTier fold government' k row).Perm (identityTier fold government k row) :=
  (h.filter _).filter _

theorem aliasTier_perm (h : government'.Perm government) (row : ReconcilableVariant) :
    (aliasTier fold government' aliases row).Perm (aliasTier fold government aliases row) := by
  rw [aliasTier, aliasTier]
  split
  · exact List.Perm.refl _
  · exact identityTier_perm h _ row

theorem ne_nil_iff_of_perm {α : Type} {l l' : List α} (h : l'.Perm l) : l' ≠ [] ↔ l ≠ [] := by
  rw [not_iff_not]
  constructor
  · intro hnil
    rw [hnil] at h
    exact h.symm.eq_nil
  · intro hnil
    rw [hnil] at h
    exact h.eq_nil

/-- The order of the government side changes only the order of the candidates. -/
theorem candidatesFor_perm (h : government'.Perm government) (row : ReconcilableVariant) :
    (candidatesFor fold (indexGovernment fold government') aliases row).1.Perm
        (candidatesFor fold (indexGovernment fold government) aliases row).1 ∧
      (candidatesFor fold (indexGovernment fold government') aliases row).2 =
        (candidatesFor fold (indexGovernment fold government) aliases row).2 := by
  have hexact := exactTier_perm h row
  have hidentity : (identityTier fold government' (row.identity fold) row).Perm
      (identityTier fold government (row.identity fold) row) := identityTier_perm h _ row
  have halias : (aliasTier fold government' aliases row).Perm
      (aliasTier fold government aliases row) := aliasTier_perm h row
  rw [candidatesFor_eq, candidatesFor_eq]
  by_cases h1 : exactTier government row ≠ []
  · rw [if_pos h1, if_pos ((ne_nil_iff_of_perm hexact).mpr h1)]
    exact ⟨hexact, rfl⟩
  rw [if_neg h1, if_neg fun h => h1 ((ne_nil_iff_of_perm hexact).mp h)]
  by_cases h2 : identityTier fold government (row.identity fold) row ≠ []
  · rw [if_pos h2, if_pos ((ne_nil_iff_of_perm hidentity).mpr h2)]
    exact ⟨hidentity, rfl⟩
  rw [if_neg h2, if_neg fun h => h2 ((ne_nil_iff_of_perm hidentity).mp h)]
  by_cases h3 : aliasTier fold government aliases row ≠ []
  · rw [if_pos h3, if_pos ((ne_nil_iff_of_perm halias).mpr h3)]
    exact ⟨halias, rfl⟩
  rw [if_neg h3, if_neg fun h => h3 ((ne_nil_iff_of_perm halias).mp h)]
  exact ⟨List.Perm.refl _, rfl⟩

theorem candidatesFound_perm (h : government'.Perm government) (row : ReconcilableVariant) :
    (candidatesFound fold government' aliases row).Perm (candidatesFound fold government aliases row) :=
  (candidatesFor_perm h row).1

variable {first row v : ReconcilableVariant} {rest group group' : List ReconcilableVariant} {result : CatalogResult}

/-- A candidate found that leads the government side is found first. -/
theorem head?_candidatesFound (hnodup : (first :: rest).Nodup)
    (h : first ∈ candidatesFound fold (first :: rest) aliases row) :
    (candidatesFound fold (first :: rest) aliases row).head? = some first := by
  have hsub : (candidatesFound fold (first :: rest) aliases row).Sublist (first :: rest) :=
    candidatesFound_sublist row
  generalize candidatesFound fold (first :: rest) aliases row = candidates at h hsub
  cases hsub with
  | cons _ hsub => exact absurd (hsub.subset h) (List.nodup_cons.mp hnodup).1
  | cons_cons _ hsub => rfl

/-! ## 2. What a report says of a row -/

/-- Some row reaches the variant. -/
def IsReached (fold : Text → Text) (government legacy : List ReconcilableVariant)
    (aliases : Dict Identity Identity) (v : ReconcilableVariant) : Prop :=
  ∃ row ∈ legacy, v ∈ candidatesFound fold government aliases row

/-- The candidates a row reaches are written alike. -/
def OneName (fold : Text → Text) (government legacy : List ReconcilableVariant)
    (aliases : Dict Identity Identity) : Prop :=
  ∀ row ∈ legacy, ∀ u ∈ candidatesFound fold government aliases row,
    ∀ v ∈ candidatesFound fold government aliases row,
      u.manufacturer = v.manufacturer ∧ u.commercialModel = v.commercialModel

theorem rowMatch_of_found (h : candidatesFound fold government aliases row = first :: rest) :
    rowMatch fold government aliases row = some (matchOf row first rest
      (candidatesFor fold (indexGovernment fold government) aliases row).2) := by
  rw [candidatesFound] at h
  unfold rowMatch
  cases hrow : candidatesFor fold (indexGovernment fold government) aliases row with
  | mk candidates method =>
    rw [hrow] at h
    dsimp only at h
    rw [h]

theorem rowMatch_of_not_found (h : candidatesFound fold government aliases row = []) :
    rowMatch fold government aliases row = none := by
  rw [candidatesFound] at h
  unfold rowMatch
  cases hrow : candidatesFor fold (indexGovernment fold government) aliases row with
  | mk candidates method =>
    rw [hrow] at h
    dsimp only at h
    rw [h]

theorem isSome_rowMatch (row : ReconcilableVariant) :
    (rowMatch fold government aliases row).isSome = isFound fold government aliases row := by
  cases hfound : candidatesFound fold government aliases row with
  | nil => simp [rowMatch_of_not_found hfound, isFound, hfound]
  | cons first rest => simp [rowMatch_of_found hfound, isFound, hfound]

theorem legacyCandidateIds_matchOf (row first : ReconcilableVariant) (rest : List ReconcilableVariant)
    (method : ReconciliationMethod) :
    (matchOf row first rest method).legacyCandidateIds = [row.candidateId] := by
  unfold matchOf
  dsimp only
  split <;> rfl

theorem legacyCandidateIds_rowMatch (h : rowMatch fold government aliases row = some result) :
    result.legacyCandidateIds = [row.candidateId] := by
  cases hfound : candidatesFound fold government aliases row with
  | nil =>
    rw [rowMatch_of_not_found hfound] at h
    cases h
  | cons first rest =>
    rw [rowMatch_of_found hfound] at h
    cases h
    exact legacyCandidateIds_matchOf _ _ _ _

theorem governmentCandidateIds_rowMatch (h : rowMatch fold government aliases row = some result) :
    result.governmentCandidateIds =
      sortedBy id ((candidatesFound fold government aliases row).map ReconcilableVariant.candidateId) := by
  cases hfound : candidatesFound fold government aliases row with
  | nil =>
    rw [rowMatch_of_not_found hfound] at h
    cases h
  | cons first rest =>
    rw [rowMatch_of_found hfound] at h
    cases h
    unfold matchOf
    dsimp only
    split <;> rfl

theorem mem_reachedIds {id : Text} :
    id ∈ reachedIds fold government legacy aliases ↔
      ∃ v, IsReached fold government legacy aliases v ∧ v.candidateId = id := by
  simp only [reachedIds, List.mem_flatMap, mem_sortedBy, List.mem_map, IsReached]
  constructor
  · rintro ⟨row, hrow, v, hv, hid⟩
    exact ⟨v, ⟨row, hrow, hv⟩, hid⟩
  · rintro ⟨v, ⟨row, hrow, hv⟩, hid⟩
    exact ⟨row, hrow, v, hv, hid⟩

theorem IsReached.mem_government (h : IsReached fold government legacy aliases v) : v ∈ government := by
  obtain ⟨row, -, hv⟩ := h
  exact (candidatesFound_sublist row).subset hv

/-- With distinct ids, an id is reached only if its variant is. -/
theorem mem_reachedIds_iff (hids : (government.map ReconcilableVariant.candidateId).Nodup) (hv : v ∈ government) :
    v.candidateId ∈ reachedIds fold government legacy aliases ↔
      IsReached fold government legacy aliases v := by
  rw [mem_reachedIds]
  constructor
  · rintro ⟨u, hu, hid⟩
    rw [← List.inj_on_of_nodup_map hids hu.mem_government hv hid]
    exact hu
  · exact fun h => ⟨v, h, rfl⟩

/-- The rows of one model. -/
def modelRows (fold : Text → Text) (government legacy : List ReconcilableVariant)
    (aliases : Dict Identity Identity) (k : Identity) : List ReconcilableVariant :=
  ((sortedBy ReconcilableVariant.sortKey legacy).filter (isFound fold government aliases)).filter
    fun row => decide (foundIdentity fold government aliases row = k)

theorem gapOf_eq (v : ReconcilableVariant) :
    gapOf fold government legacy aliases v =
      if v.candidateId ∈ reachedIds fold government legacy aliases then none
      else if uncoveredYears v (modelRows fold government legacy aliases (v.identity fold)) ≠ [] ∧
          modelRows fold government legacy aliases (v.identity fold) ≠ [] then
        some (missingYears v (modelRows fold government legacy aliases (v.identity fold)))
      else some (governmentOnly v) := by
  unfold gapOf governmentGap
  split
  · rfl
  · rw [matchedRows, Dict.get?_groupBy]
    unfold modelRows
    by_cases hnil : (((sortedBy ReconcilableVariant.sortKey legacy).filter
        (isFound fold government aliases)).filter fun row =>
          decide (foundIdentity fold government aliases row = v.identity fold)) = []
    · rw [if_pos hnil, if_neg fun h => h.2 hnil]
    · rw [if_neg hnil]
      simp only [ne_eq, hnil, not_false_eq_true, and_true]

theorem gapOf_cases (h : gapOf fold government legacy aliases v = some result) :
    (result.state = .governmentOnly ∨ result.state = .missingYears) ∧
      result.governmentCandidateIds = [v.candidateId] := by
  rw [gapOf_eq] at h
  split at h
  · cases h
  split at h
  · cases h
    exact ⟨Or.inr rfl, rfl⟩
  · cases h
    exact ⟨Or.inl rfl, rfl⟩

/-- A variant has a gap exactly if no row reaches it. -/
theorem isSome_gapOf (hids : (government.map ReconcilableVariant.candidateId).Nodup) (hv : v ∈ government) :
    (gapOf fold government legacy aliases v).isSome = true ↔ ¬ IsReached fold government legacy aliases v := by
  rw [gapOf_eq, ← mem_reachedIds_iff hids hv]
  split
  · rename_i hreached
    exact ⟨(fun h => by cases h), fun h => absurd hreached h⟩
  rename_i hreached
  split <;> exact ⟨fun _ => hreached, fun _ => rfl⟩

/-! ## 3. Permuted sides -/

theorem isFound_perm (h : government'.Perm government) (row : ReconcilableVariant) :
    isFound fold government' aliases row = isFound fold government aliases row := by
  unfold isFound
  exact decide_eq_decide.mpr (ne_nil_iff_of_perm (candidatesFound_perm h row))

theorem matchOf_congr {first' : ReconcilableVariant} {rest' : List ReconcilableVariant}
    {method : ReconciliationMethod} (hperm : (first' :: rest').Perm (first :: rest))
    (hname : first'.manufacturer = first.manufacturer ∧ first'.commercialModel = first.commercialModel) :
    matchOf row first' rest' method = matchOf row first rest method := by
  have hids := sortedBy_id_eq (hperm.map ReconcilableVariant.candidateId)
  have hdetail := sortedBy_id_eq (hperm.map codeAndTrim)
  cases rest with
  | nil =>
    have hsame := List.perm_singleton.mp hperm
    rw [List.cons.injEq] at hsame
    rw [hsame.1, hsame.2]
  | cons second rest =>
    have hne : rest' ≠ [] := by
      intro hnil
      rw [hnil] at hperm
      exact absurd hperm.length_eq (by simp)
    unfold matchOf
    dsimp only
    rw [if_pos hne, if_pos (List.cons_ne_nil _ _), hids, hdetail, hname.1, hname.2]

theorem rowMatch_perm (hname : OneName fold government legacy aliases) (h : government'.Perm government)
    (hrow : row ∈ legacy) : rowMatch fold government' aliases row = rowMatch fold government aliases row := by
  have hperm : (candidatesFound fold government' aliases row).Perm
      (candidatesFound fold government aliases row) := candidatesFound_perm h row
  have hmethod : (candidatesFor fold (indexGovernment fold government') aliases row).2 =
      (candidatesFor fold (indexGovernment fold government) aliases row).2 :=
    (candidatesFor_perm h row).2
  cases hfound : candidatesFound fold government aliases row with
  | nil =>
    rw [hfound] at hperm
    rw [rowMatch_of_not_found hfound, rowMatch_of_not_found hperm.eq_nil]
  | cons first rest =>
    cases hfound' : candidatesFound fold government' aliases row with
    | nil =>
      rw [hfound, hfound'] at hperm
      exact absurd hperm.symm.eq_nil (List.cons_ne_nil _ _)
    | cons first' rest' =>
      rw [rowMatch_of_found hfound, rowMatch_of_found hfound', hmethod]
      rw [hfound'] at hperm
      have hfirst' : first' ∈ candidatesFound fold government aliases row :=
        hperm.mem_iff.mp List.mem_cons_self
      have hfirst : first ∈ candidatesFound fold government aliases row := by simp [hfound]
      rw [hfound] at hperm
      rw [matchOf_congr hperm (hname row hrow first' hfirst' first hfirst)]

theorem foundIdentity_eq (hname : OneName fold government legacy aliases) {u : ReconcilableVariant}
    (hrow : row ∈ legacy) (hu : u ∈ candidatesFound fold government aliases row) :
    foundIdentity fold government aliases row = u.identity fold := by
  cases hfound : candidatesFound fold government aliases row with
  | nil =>
    rw [hfound] at hu
    cases hu
  | cons first rest =>
    have hfirst : first ∈ candidatesFound fold government aliases row := by simp [hfound]
    have hsame := hname row hrow first hfirst u hu
    rw [foundIdentity, hfound]
    show first.identity fold = u.identity fold
    rw [ReconcilableVariant.identity, ReconcilableVariant.identity, hsame.1, hsame.2]

theorem oneName_perm (hname : OneName fold government legacy aliases)
    (h : government'.Perm government) : OneName fold government' legacy aliases := by
  intro row hrow u hu v hv
  exact hname row hrow u ((candidatesFound_perm h row).mem_iff.mp hu) v
    ((candidatesFound_perm h row).mem_iff.mp hv)

theorem foundIdentity_perm (hname : OneName fold government legacy aliases) (h : government'.Perm government)
    (hrow : row ∈ legacy) (hfound : isFound fold government aliases row = true) :
    foundIdentity fold government' aliases row = foundIdentity fold government aliases row := by
  obtain ⟨u, hu⟩ := List.exists_mem_of_ne_nil _ (of_decide_eq_true hfound)
  rw [foundIdentity_eq hname hrow hu,
    foundIdentity_eq (oneName_perm hname h) hrow ((candidatesFound_perm h row).mem_iff.mpr hu)]

theorem modelRows_perm (hname : OneName fold government legacy aliases)
    (hg : government'.Perm government) (hl : legacy'.Perm legacy) (k : Identity) :
    (modelRows fold government' legacy' aliases k).Perm (modelRows fold government legacy aliases k) := by
  have hrows : (sortedBy ReconcilableVariant.sortKey legacy').Perm
      (sortedBy ReconcilableVariant.sortKey legacy) :=
    ((perm_sortedBy _ legacy').trans hl).trans (perm_sortedBy _ legacy).symm
  unfold modelRows
  rw [List.filter_filter, List.filter_filter]
  refine ((hrows.filter _).trans (List.Perm.of_eq ?_))
  apply List.filter_congr
  intro row hrow
  rw [isFound_perm hg]
  by_cases hfound : isFound fold government aliases row = true
  · rw [foundIdentity_perm hname hg (mem_sortedBy.mp hrow) hfound]
  · rw [Bool.not_eq_true] at hfound
    rw [hfound, Bool.and_false, Bool.and_false]

theorem isReached_perm (hg : government'.Perm government) (hl : legacy'.Perm legacy)
    (v : ReconcilableVariant) :
    IsReached fold government' legacy' aliases v ↔ IsReached fold government legacy aliases v := by
  constructor
  · rintro ⟨row, hrow, hv⟩
    exact ⟨row, hl.mem_iff.mp hrow, (candidatesFound_perm hg row).mem_iff.mp hv⟩
  · rintro ⟨row, hrow, hv⟩
    exact ⟨row, hl.mem_iff.mpr hrow, (candidatesFound_perm hg row).mem_iff.mpr hv⟩

theorem uncoveredYears_perm (h : group'.Perm group) : uncoveredYears v group' = uncoveredYears v group := by
  unfold uncoveredYears
  apply List.filter_congr
  intro year _
  rw [decide_eq_decide, (h.flatMap_right _).mem_iff]

theorem missingYears_perm (h : group'.Perm group) : missingYears v group' = missingYears v group := by
  unfold missingYears
  rw [uncoveredYears_perm h, sortedBy_id_eq (h.map ReconcilableVariant.candidateId)]

/-- The gap of a variant does not see the order of either side. -/
theorem gapOf_perm (hname : OneName fold government legacy aliases)
    (hg : government'.Perm government) (hl : legacy'.Perm legacy) (v : ReconcilableVariant) :
    gapOf fold government' legacy' aliases v = gapOf fold government legacy aliases v := by
  have hreached : v.candidateId ∈ reachedIds fold government' legacy' aliases ↔
      v.candidateId ∈ reachedIds fold government legacy aliases := by
    rw [mem_reachedIds, mem_reachedIds]
    simp only [isReached_perm hg hl]
  have hrows := modelRows_perm hname hg hl (v.identity fold)
  rw [gapOf_eq, gapOf_eq, uncoveredYears_perm hrows, missingYears_perm hrows]
  have hnil : modelRows fold government' legacy' aliases (v.identity fold) = [] ↔
      modelRows fold government legacy aliases (v.identity fold) = [] :=
    not_iff_not.mp (ne_nil_iff_of_perm hrows)
  simp only [hreached, ne_eq, hnil]

/-! ## 4. A function of the two sets -/

/-- The report is the same for every order of the two sides, and places every variant. -/
structure ComparesSets (fold : Text → Text) (government legacy : List ReconcilableVariant)
    (rules : List AliasRule) (report : ReconciliationReport) : Prop where
  permuted : ∀ government' legacy', government'.Perm government → legacy'.Perm legacy →
    reconcileCatalog fold government' legacy' rules = .ok report
  legacyOnce : ∀ row ∈ legacy,
    (report.catalogMatches.countP fun result => decide (row.candidateId ∈ result.legacyCandidateIds)) +
      (report.gaps.countP fun result => decide (result.state = .legacyOnly ∧
        row.candidateId ∈ result.legacyCandidateIds)) = 1
  governmentOnce : ∀ v ∈ government,
    (∃ result ∈ report.catalogMatches, v.candidateId ∈ result.governmentCandidateIds) ∨
      (report.gaps.countP fun result => decide
        ((result.state = .governmentOnly ∨ result.state = .missingYears) ∧
          v.candidateId ∈ result.governmentCandidateIds)) = 1
  several : ∀ aliases, aliasIndex fold rules = .ok aliases → ∀ row ∈ legacy,
    2 ≤ (candidatesFound fold government aliases row).length →
      ∃ result ∈ report.catalogMatches, result.state = .ambiguous ∧
        result.legacyCandidateIds = [row.candidateId] ∧
          result.governmentCandidateIds.Perm
            ((candidatesFound fold government aliases row).map ReconcilableVariant.candidateId)

/-- What the two sides must be like for that: neither is too long; the candidates a row reaches are
written alike; rows that find something do not tie, nor do rows that find nothing, nor do government
variants that no row reaches. -/
structure OrderFree (fold : Text → Text) (government legacy : List ReconcilableVariant)
    (aliases : Dict Identity Identity) : Prop where
  bounded : government.length ≤ maxReconciledVariants ∧ legacy.length ≤ maxReconciledVariants
  oneName : OneName fold government legacy aliases
  legacyApart : ∀ a ∈ legacy, ∀ b ∈ legacy, a.sortKey = b.sortKey →
    isFound fold government aliases a = isFound fold government aliases b → a = b
  governmentApart : ∀ a ∈ government, ∀ b ∈ government, a.sortKey = b.sortKey →
    ¬ IsReached fold government legacy aliases a → ¬ IsReached fold government legacy aliases b → a = b

theorem nodup_of_ids {side : List ReconcilableVariant}
    (h : (side.map ReconcilableVariant.candidateId).Nodup) :
    (sortedBy ReconcilableVariant.sortKey side).Nodup :=
  (perm_sortedBy _ side).nodup_iff.mpr h.of_map

theorem countP_rowMatch (hids : (legacy.map ReconcilableVariant.candidateId).Nodup) (hrow : row ∈ legacy) :
    (reportOf fold government legacy aliases).catalogMatches.countP
        (fun result => decide (row.candidateId ∈ result.legacyCandidateIds)) =
      if isFound fold government aliases row then 1 else 0 := by
  rw [← isSome_rowMatch]
  refine countP_filterMap_of_unique (nodup_of_ids hids) (mem_sortedBy.mpr hrow) ?_
  intro other hother result hresult
  rw [legacyCandidateIds_rowMatch hresult, decide_eq_true_eq, List.mem_singleton]
  exact ⟨fun h => (List.inj_on_of_nodup_map hids hrow (mem_sortedBy.mp hother) h).symm,
    fun h => h ▸ rfl⟩

theorem rowGap_eq_some (h : rowGap fold government aliases row = some result) : result = legacyOnly row := by
  unfold rowGap at h
  split at h
  · cases h
  · cases h
    rfl

theorem isSome_rowGap (row : ReconcilableVariant) :
    (rowGap fold government aliases row).isSome = !isFound fold government aliases row := by
  unfold rowGap
  cases isFound fold government aliases row <;> rfl

theorem countP_rowGap (hids : (legacy.map ReconcilableVariant.candidateId).Nodup) (hrow : row ∈ legacy) :
    (reportOf fold government legacy aliases).gaps.countP
        (fun result => decide (result.state = .legacyOnly ∧
          row.candidateId ∈ result.legacyCandidateIds)) =
      if isFound fold government aliases row then 0 else 1 := by
  rw [reportOf, List.countP_append]
  have hsecond : ((sortedBy ReconcilableVariant.sortKey government).filterMap
      (gapOf fold government legacy aliases)).countP (fun result => decide
        (result.state = .legacyOnly ∧ row.candidateId ∈ result.legacyCandidateIds)) = 0 := by
    rw [List.countP_eq_zero]
    intro result hresult
    obtain ⟨v, -, hv⟩ := List.mem_filterMap.mp hresult
    rcases (gapOf_cases hv).1 with hstate | hstate <;> simp [hstate]
  rw [hsecond, Nat.add_zero, countP_filterMap_of_unique (nodup_of_ids hids) (mem_sortedBy.mpr hrow),
    isSome_rowGap]
  · cases isFound fold government aliases row <;> rfl
  · intro other hother result hresult
    rw [rowGap_eq_some hresult]
    simp only [legacyOnly, true_and, List.mem_singleton, decide_eq_true_eq]
    exact ⟨fun h => (List.inj_on_of_nodup_map hids hrow (mem_sortedBy.mp hother) h).symm,
      fun h => h ▸ rfl⟩

theorem countP_gapOf (hids : (government.map ReconcilableVariant.candidateId).Nodup) (hv : v ∈ government) :
    (reportOf fold government legacy aliases).gaps.countP
        (fun result => decide ((result.state = .governmentOnly ∨ result.state = .missingYears) ∧
          v.candidateId ∈ result.governmentCandidateIds)) =
      if (gapOf fold government legacy aliases v).isSome then 1 else 0 := by
  rw [reportOf, List.countP_append]
  have hfirst : ((sortedBy ReconcilableVariant.sortKey legacy).filterMap
      (rowGap fold government aliases)).countP (fun result => decide
        ((result.state = .governmentOnly ∨ result.state = .missingYears) ∧
          v.candidateId ∈ result.governmentCandidateIds)) = 0 := by
    rw [List.countP_eq_zero]
    intro result hresult
    obtain ⟨row, -, hrow⟩ := List.mem_filterMap.mp hresult
    rw [rowGap_eq_some hrow]
    simp [legacyOnly]
  rw [hfirst, Nat.zero_add]
  refine countP_filterMap_of_unique (nodup_of_ids hids) (mem_sortedBy.mpr hv) ?_
  intro other hother result hresult
  obtain ⟨hstate, hid⟩ := gapOf_cases hresult
  rw [hid, decide_eq_true_eq, List.mem_singleton]
  exact ⟨fun h => (List.inj_on_of_nodup_map hids hv (mem_sortedBy.mp hother) h.2).symm,
    fun h => ⟨hstate, h ▸ rfl⟩⟩

theorem named_iff (hids : (government.map ReconcilableVariant.candidateId).Nodup) (hv : v ∈ government) :
    (∃ result ∈ (reportOf fold government legacy aliases).catalogMatches,
        v.candidateId ∈ result.governmentCandidateIds) ↔
      IsReached fold government legacy aliases v := by
  rw [← mem_reachedIds_iff hids hv]
  simp only [reportOf, List.mem_filterMap, mem_sortedBy, reachedIds, List.mem_flatMap]
  constructor
  · rintro ⟨result, ⟨row, hrow, hresult⟩, hid⟩
    rw [governmentCandidateIds_rowMatch hresult, mem_sortedBy] at hid
    exact ⟨row, hrow, hid⟩
  · rintro ⟨row, hrow, hid⟩
    cases hfound : candidatesFound fold government aliases row with
    | nil =>
      rw [hfound] at hid
      cases hid
    | cons first rest =>
      have hmatch := rowMatch_of_found hfound
      refine ⟨_, ⟨row, hrow, hmatch⟩, ?_⟩
      rw [governmentCandidateIds_rowMatch hmatch, mem_sortedBy]
      exact hid

theorem several_reportOf (hrow : row ∈ legacy) (hlen : 2 ≤ (candidatesFound fold government aliases row).length) :
    ∃ result ∈ (reportOf fold government legacy aliases).catalogMatches,
      result.state = .ambiguous ∧ result.legacyCandidateIds = [row.candidateId] ∧
        result.governmentCandidateIds.Perm
          ((candidatesFound fold government aliases row).map ReconcilableVariant.candidateId) := by
  cases hfound : candidatesFound fold government aliases row with
  | nil =>
    rw [hfound] at hlen
    exact absurd hlen (by simp)
  | cons first rest =>
    have hrest : rest ≠ [] := by
      intro hnil
      rw [hfound, hnil] at hlen
      exact absurd hlen (by simp)
    have hmatch := rowMatch_of_found hfound
    refine ⟨_, List.mem_filterMap.mpr ⟨row, mem_sortedBy.mpr hrow, hmatch⟩, ?_,
      legacyCandidateIds_rowMatch hmatch, ?_⟩
    · unfold matchOf
      dsimp only
      rw [if_pos hrest]
    · rw [governmentCandidateIds_rowMatch hmatch, hfound]
      exact perm_sortedBy _ _

section

variable {rules : List AliasRule} {report : ReconciliationReport}

theorem reportOf_perm (h : OrderFree fold government legacy aliases)
    (hids : (government.map ReconcilableVariant.candidateId).Nodup) (hg : government'.Perm government)
    (hl : legacy'.Perm legacy) :
    reportOf fold government' legacy' aliases = reportOf fold government legacy aliases := by
  have hmatches : (sortedBy ReconcilableVariant.sortKey legacy').filterMap
        (rowMatch fold government' aliases) =
      (sortedBy ReconcilableVariant.sortKey legacy).filterMap (rowMatch fold government aliases) := by
    refine filterMap_sortedBy_eq hl (fun row hrow => rowMatch_perm h.oneName hg hrow) ?_
    intro a ha b hb hfa hfb htie
    rw [isSome_rowMatch] at hfa hfb
    exact h.legacyApart a ha b hb htie (hfa.trans hfb.symm)
  have hrowGaps : (sortedBy ReconcilableVariant.sortKey legacy').filterMap
        (rowGap fold government' aliases) =
      (sortedBy ReconcilableVariant.sortKey legacy).filterMap (rowGap fold government aliases) := by
    refine filterMap_sortedBy_eq hl (fun row _ => ?_) ?_
    · rw [rowGap, rowGap, isFound_perm hg]
    · intro a ha b hb hfa hfb htie
      rw [isSome_rowGap, Bool.not_eq_true'] at hfa hfb
      exact h.legacyApart a ha b hb htie (hfa.trans hfb.symm)
  have hgaps : (sortedBy ReconcilableVariant.sortKey government').filterMap
        (gapOf fold government' legacy' aliases) =
      (sortedBy ReconcilableVariant.sortKey government).filterMap
        (gapOf fold government legacy aliases) := by
    refine filterMap_sortedBy_eq hg (fun v _ => gapOf_perm h.oneName hg hl v) ?_
    intro a ha b hb hfa hfb htie
    exact h.governmentApart a ha b hb htie ((isSome_gapOf hids ha).mp hfa) ((isSome_gapOf hids hb).mp hfb)
  rw [reportOf, reportOf, hmatches, hrowGaps, hgaps, hg.length_eq, hl.length_eq]

theorem comparesSets_reportOf (haliases : aliasIndex fold rules = .ok aliases)
    (hg : (government.map ReconcilableVariant.candidateId).Nodup)
    (hl : (legacy.map ReconcilableVariant.candidateId).Nodup)
    (h : OrderFree fold government legacy aliases) :
    ComparesSets fold government legacy rules (reportOf fold government legacy aliases) where
  permuted := by
    intro government' legacy' hpg hpl
    have hbound := h.bounded
    rw [reconcileCatalog_eq haliases, if_neg, reportOf_perm h hg hpg hpl]
    rw [hpg.length_eq, hpl.length_eq]
    omega
  legacyOnce := by
    intro row hrow
    rw [countP_rowMatch hl hrow, countP_rowGap hl hrow]
    cases isFound fold government aliases row <;> rfl
  governmentOnce := by
    intro v hv
    by_cases hreached : IsReached fold government legacy aliases v
    · exact Or.inl ((named_iff hg hv).mpr hreached)
    · right
      rw [countP_gapOf hg hv, if_pos ((isSome_gapOf hg hv).mpr hreached)]
  several := by
    intro aliases' haliases' row hrow hlen
    have hsame : aliases' = aliases := by
      rw [haliases] at haliases'
      exact (Except.ok.inj haliases').symm
    rw [hsame] at hlen ⊢
    exact several_reportOf hrow hlen

/-! ## 5. Nothing less will do -/

theorem ComparesSets.bounded (haliases : aliasIndex fold rules = .ok aliases)
    (h : ComparesSets fold government legacy rules report) :
    government.length ≤ maxReconciledVariants ∧ legacy.length ≤ maxReconciledVariants := by
  have hself := h.permuted government legacy (List.Perm.refl _) (List.Perm.refl _)
  rw [reconcileCatalog_eq haliases] at hself
  split at hself
  · cases hself
  · omega

theorem ComparesSets.reportOf_eq (haliases : aliasIndex fold rules = .ok aliases)
    (h : ComparesSets fold government legacy rules report) (hg : government'.Perm government)
    (hl : legacy'.Perm legacy) : reportOf fold government' legacy' aliases = report := by
  have hbound := h.bounded haliases
  have hrun := h.permuted government' legacy' hg hl
  rw [reconcileCatalog_eq haliases, if_neg (by rw [hg.length_eq, hl.length_eq]; omega)] at hrun
  exact Except.ok.inj hrun

/-- Moved to the front, a candidate gives its name to the match. -/
theorem rowMatch_front {u row : ReconcilableVariant} {rest : List ReconcilableVariant}
    (hnodup : (u :: rest).Nodup) (hu : u ∈ candidatesFound fold (u :: rest) aliases row) :
    ∃ result, rowMatch fold (u :: rest) aliases row = some result ∧
      result.manufacturer = u.manufacturer ∧ result.commercialModel = u.commercialModel := by
  have hhead := head?_candidatesFound hnodup hu
  cases hfound : candidatesFound fold (u :: rest) aliases row with
  | nil =>
    rw [hfound] at hhead
    cases hhead
  | cons first others =>
    rw [hfound] at hhead
    cases hhead
    refine ⟨_, rowMatch_of_found hfound, ?_⟩
    unfold matchOf
    dsimp only
    split <;> exact ⟨rfl, rfl⟩

theorem ComparesSets.oneName (haliases : aliasIndex fold rules = .ok aliases)
    (hg : (government.map ReconcilableVariant.candidateId).Nodup)
    (hl : (legacy.map ReconcilableVariant.candidateId).Nodup)
    (h : ComparesSets fold government legacy rules report) :
    OneName fold government legacy aliases := by
  intro row hrow u hu v hv
  -- the match of the row when `w` leads the government side
  have hlead : ∀ w ∈ candidatesFound fold government aliases row,
      ∃ result ∈ report.catalogMatches, result.legacyCandidateIds = [row.candidateId] ∧
        result.manufacturer = w.manufacturer ∧ result.commercialModel = w.commercialModel ∧
        ∃ government', government'.Perm government ∧ rowMatch fold government' aliases row =
          some result := by
    intro w hw
    have hmem : w ∈ government := (candidatesFound_sublist row).subset hw
    have hperm : (w :: government.erase w).Perm government := (List.perm_cons_erase hmem).symm
    have hnodup : (w :: government.erase w).Nodup := hperm.nodup_iff.mpr hg.of_map
    have hfront : w ∈ candidatesFound fold (w :: government.erase w) aliases row :=
      (candidatesFound_perm hperm row).mem_iff.mpr hw
    obtain ⟨result, hresult, hname⟩ := rowMatch_front hnodup hfront
    refine ⟨result, ?_, legacyCandidateIds_rowMatch hresult, hname.1, hname.2, _, hperm, hresult⟩
    rw [← h.reportOf_eq haliases hperm (List.Perm.refl legacy)]
    exact List.mem_filterMap.mpr ⟨row, mem_sortedBy.mpr hrow, hresult⟩
  obtain ⟨first, -, -, hman, hmodel, government', hperm, hfirst⟩ := hlead u hu
  obtain ⟨second, hsecond, hids, hman', hmodel', -⟩ := hlead v hv
  -- both are the one match that names the row
  have hsame : second = first := by
    rw [← h.reportOf_eq haliases hperm (List.Perm.refl legacy)] at hsecond
    obtain ⟨other, hother, hmatch⟩ := List.mem_filterMap.mp hsecond
    rw [legacyCandidateIds_rowMatch hmatch, List.cons.injEq] at hids
    have hrows := List.inj_on_of_nodup_map hl (mem_sortedBy.mp hother) hrow hids.1
    rw [hrows, hfirst] at hmatch
    exact (Option.some.inj hmatch).symm
  rw [← hman, ← hmodel, ← hman', ← hmodel', hsame]
  exact ⟨rfl, rfl⟩

theorem ComparesSets.legacyApart (haliases : aliasIndex fold rules = .ok aliases)
    (hl : (legacy.map ReconcilableVariant.candidateId).Nodup)
    (h : ComparesSets fold government legacy rules report) {a b : ReconcilableVariant}
    (ha : a ∈ legacy) (hb : b ∈ legacy) (htie : a.sortKey = b.sortKey)
    (hsame : isFound fold government aliases a = isFound fold government aliases b) : a = b := by
  cases hfound : isFound fold government aliases a with
  | true =>
    have hout : ∀ legacy', legacy'.Perm legacy →
        ((sortedBy ReconcilableVariant.sortKey legacy').filter fun row =>
          (rowMatch fold government aliases row).isSome).map ReconcilableVariant.candidateId =
        report.catalogMatches.flatMap CatalogResult.legacyCandidateIds := by
      intro legacy' hperm
      rw [← h.reportOf_eq haliases (List.Perm.refl _) hperm]
      exact (flatMap_filterMap_eq _ fun row _ result hresult =>
        legacyCandidateIds_rowMatch hresult).symm
    exact apart_of_sortedBy hout hl ha hb (by rw [isSome_rowMatch, hfound])
      (by rw [isSome_rowMatch, ← hsame, hfound]) htie
  | false =>
    have hout : ∀ legacy', legacy'.Perm legacy →
        ((sortedBy ReconcilableVariant.sortKey legacy').filter fun row =>
          (rowGap fold government aliases row).isSome).map ReconcilableVariant.candidateId =
        (report.gaps.filter fun result => decide (result.state = .legacyOnly)).flatMap
          CatalogResult.legacyCandidateIds := by
      intro legacy' hperm
      have hfirst : ((sortedBy ReconcilableVariant.sortKey legacy').filterMap
          (rowGap fold government aliases)).filter (fun result => decide (result.state = .legacyOnly)) =
          (sortedBy ReconcilableVariant.sortKey legacy').filterMap (rowGap fold government aliases) := by
        rw [List.filter_eq_self]
        intro result hresult
        obtain ⟨row, -, hrow⟩ := List.mem_filterMap.mp hresult
        rw [rowGap_eq_some hrow]
        rfl
      -- the other gaps are the government side's
      have hsecond : ((sortedBy ReconcilableVariant.sortKey government).filterMap
          (gapOf fold government legacy' aliases)).filter
            (fun result => decide (result.state = .legacyOnly)) = [] := by
        rw [List.filter_eq_nil_iff]
        intro result hresult
        obtain ⟨v, -, hv⟩ := List.mem_filterMap.mp hresult
        rcases (gapOf_cases hv).1 with hstate | hstate <;> simp [hstate]
      rw [← h.reportOf_eq haliases (List.Perm.refl _) hperm]
      show _ = List.flatMap _ (List.filter _ (_ ++ _))
      rw [List.filter_append, hfirst, hsecond, List.append_nil]
      refine (flatMap_filterMap_eq _ fun row _ result hresult => ?_).symm
      rw [rowGap_eq_some hresult]
      rfl
    exact apart_of_sortedBy hout hl ha hb (by rw [isSome_rowGap, hfound]; rfl)
      (by rw [isSome_rowGap, ← hsame, hfound]; rfl) htie

theorem ComparesSets.governmentApart (haliases : aliasIndex fold rules = .ok aliases)
    (hg : (government.map ReconcilableVariant.candidateId).Nodup)
    (hl : (legacy.map ReconcilableVariant.candidateId).Nodup)
    (h : ComparesSets fold government legacy rules report) {a b : ReconcilableVariant}
    (ha : a ∈ government) (hb : b ∈ government) (htie : a.sortKey = b.sortKey)
    (hra : ¬ IsReached fold government legacy aliases a)
    (hrb : ¬ IsReached fold government legacy aliases b) : a = b := by
  have hname := h.oneName haliases hg hl
  have hout : ∀ government', government'.Perm government →
      ((sortedBy ReconcilableVariant.sortKey government').filter fun v =>
        (gapOf fold government legacy aliases v).isSome).map ReconcilableVariant.candidateId =
      report.gaps.flatMap CatalogResult.governmentCandidateIds := by
    intro government' hperm
    have hfirst : ((sortedBy ReconcilableVariant.sortKey legacy).filterMap
        (rowGap fold government' aliases)).flatMap CatalogResult.governmentCandidateIds = [] := by
      rw [List.flatMap_eq_nil_iff]
      intro result hresult
      obtain ⟨row, -, hrow⟩ := List.mem_filterMap.mp hresult
      rw [rowGap_eq_some hrow]
      rfl
    have hsecond : (sortedBy ReconcilableVariant.sortKey government').filterMap
        (gapOf fold government' legacy aliases) =
        (sortedBy ReconcilableVariant.sortKey government').filterMap
          (gapOf fold government legacy aliases) :=
      List.filterMap_congr fun v _ => gapOf_perm hname hperm (List.Perm.refl legacy) v
    rw [← h.reportOf_eq haliases hperm (List.Perm.refl _)]
    show _ = List.flatMap _ (_ ++ _)
    rw [List.flatMap_append, hfirst, List.nil_append, hsecond]
    exact (flatMap_filterMap_eq _ fun v _ result hresult => (gapOf_cases hresult).2).symm
  exact apart_of_sortedBy hout hg ha hb ((isSome_gapOf hg ha).mpr hra) ((isSome_gapOf hg hb).mpr hrb) htie

/-- The comparison is a function of its two sets, and places every variant, exactly when the sides are
    free of order. -/
theorem comparesSets_iff (haliases : aliasIndex fold rules = .ok aliases)
    (hg : (government.map ReconcilableVariant.candidateId).Nodup)
    (hl : (legacy.map ReconcilableVariant.candidateId).Nodup) :
    (∃ report, ComparesSets fold government legacy rules report) ↔
      OrderFree fold government legacy aliases := by
  constructor
  · rintro ⟨report, h⟩
    exact {
      bounded := h.bounded haliases
      oneName := h.oneName haliases hg hl
      legacyApart := fun a ha b hb => h.legacyApart haliases hl ha hb
      governmentApart := fun a ha b hb => h.governmentApart haliases hg hl ha hb }
  · exact fun h => ⟨_, comparesSets_reportOf haliases hg hl h⟩

end

/-! ## 6. Two sides that are not -/

/-- A variant of 2022 under a code. -/
def variantOf (candidateId model code : String) : ReconcilableVariant where
  candidateId := candidateId.toList
  candidateKey := ("cc1." ++ candidateId).toList
  manufacturer := "toyota".toList
  commercialModel := model.toList
  modelYearStart := 2022
  modelYearEnd := 2022
  officialModelCode := some code.toList

/-- One code, under two names. -/
def sharedCode : List ReconcilableVariant := [variantOf "g1" "rav4" "a", variantOf "g2" "rav4 hev" "a"]

def legacyRav4 : List ReconcilableVariant := [variantOf "l1" "rav4" "a"]

theorem comparesSets_iff_rav4 :
    ∃ report, ComparesSets id [variantOf "g1" "rav4" "a"] legacyRav4 [] report :=
  (comparesSets_iff rfl (by decide) (by decide)).mpr {
    bounded := by decide
    oneName := by unfold OneName; decide +kernel
    legacyApart := by decide +kernel
    governmentApart := by unfold IsReached; decide +kernel }

/-- With one code under two names the match is named by whichever comes first. -/
theorem not_comparesSets_sharedCode : ¬ ∃ report, ComparesSets id sharedCode legacyRav4 [] report := by
  have haliases : aliasIndex id [] = .ok Dict.empty := rfl
  rintro ⟨report, h⟩
  have hname := h.oneName haliases (by decide) (by decide) (variantOf "l1" "rav4" "a")
    (by decide) (variantOf "g1" "rav4" "a") (by decide +kernel) (variantOf "g2" "rav4 hev" "a")
      (by decide +kernel)
  exact absurd hname.2 (by decide)

end Milo.Catalog
