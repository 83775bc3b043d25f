import Milo.Catalog.Resolution
import Milo.Reasoning.Earliest
import Milo.Reasoning.StableSort

/-!
# SnapshotDiff — what changed between two captures

Two captures are compared by the identities their candidates state.  An identity of one side is added or
removed; one of both is changed if the first rows that state it differ in their status.  A capture that
states an identity with two statuses differs from itself read in another order.
-/

namespace Milo.Catalog

open Milo.Reasoning

/-! ## 1. Identities -/

/-- One candidate of a capture. -/
structure DiffCandidate where
  reading : CandidateReading
  status : Option Text
  upstreamRecordId : Option Text

/-- The complete stated identity, its dimensions sorted. -/
structure CandidateIdentity where
  manufacturer : Option Text
  commercialModel : Option Text
  modelYearStart : Option ℤ
  modelYearEnd : Option ℤ
  officialModelCode : Option Text
  trim : Option Text
  dimensions : List (Text × Text)
  deriving DecidableEq

/-- `sorted((str(key), str(item)) for key, item in dimensions.items())`. -/
def identityPairs (dimensions : Dict String Text) : List (Text × Text) :=
  sortedBy (fun e : Text × Text => toLex e) (dimensions.entries.map fun e => (e.1.toList, e.2))

/-- `candidate_identity`. -/
def candidateIdentity (row : DiffCandidate) : CandidateIdentity where
  manufacturer := row.reading.manufacturer
  commercialModel := row.reading.commercialModel
  modelYearStart := row.reading.modelYearStart
  modelYearEnd := row.reading.modelYearEnd
  officialModelCode := row.reading.officialModelCode
  trim := row.reading.trim
  dimensions := identityPairs row.reading.identityDimensions

/-! ## 2. Delta rows -/

inductive DiffState
  | added
  | removed
  | changed
  deriving DecidableEq

def DiffState.text : DiffState → Text
  | added => "added".toList
  | removed => "removed".toList
  | changed => "changed".toList

/-- The columns of a delta row. -/
structure DiffDelta where
  state : DiffState
  manufacturer : Option Text
  commercialModel : Option Text
  modelYearStart : Option ℤ
  modelYearEnd : Option ℤ
  officialModelCode : Option Text
  trim : Option Text
  changedFields : List Text
  upstreamRecordId : Text
  deriving DecidableEq

structure DiffCounts where
  added : ℕ
  changed : ℕ
  removed : ℕ
  deriving DecidableEq

/-- A row of the answer; without a delta it is the count row. -/
abbrev DiffRow := Option DiffDelta × DiffCounts

abbrev DiffKey := Text ×ₗ Text ×ₗ Text ×ₗ ℤ ×ₗ ℤ ×ₗ Text ×ₗ Text ×ₗ Text

/-- `diff_sort_key`. -/
def diffSortKey (delta : DiffDelta) : DiffKey :=
  toLex (delta.state.text, toLex (delta.manufacturer.getD [], toLex (delta.commercialModel.getD [],
    toLex (delta.modelYearStart.getD 0, toLex (delta.modelYearEnd.getD 0, toLex (delta.officialModelCode.getD [],
      toLex (delta.trim.getD [], delta.upstreamRecordId)))))))

def changedField : Text := "status".toList

/-- `_delta`; only a changed row names a field. -/
def diffDelta (state : DiffState) (row : DiffCandidate) : DiffDelta where
  state := state
  manufacturer := row.reading.manufacturer
  commercialModel := row.reading.commercialModel
  modelYearStart := row.reading.modelYearStart
  modelYearEnd := row.reading.modelYearEnd
  officialModelCode := row.reading.officialModelCode
  trim := row.reading.trim
  changedFields := if state = .changed then [changedField] else []
  upstreamRecordId := row.upstreamRecordId.getD []

/-! ## 3. The comparison -/

/-- The order in which a set gives its items. -/
structure SetOrder (α : Type) where
  order : List α → List α
  perm : ∀ items, (order items).Perm items

/-- `_reduce`. -/
def reduceRows (rows : List DiffCandidate) : Dict CandidateIdentity DiffCandidate := firstBy candidateIdentity rows

section Items

variable (iteration : SetOrder CandidateIdentity) (before after : Dict CandidateIdentity DiffCandidate)

/-- The items of the keys of one side only. -/
def oneSided (state : DiffState) : List DiffDelta :=
  (iteration.order (after.keys.filter fun key => decide (key ∉ before.keys))).filterMap fun key =>
    (after.get? key).map (diffDelta state)

/-- The two sides read an identity of both differently. -/
def readsDiffer (key : CandidateIdentity) : Bool :=
  decide ((before.get? key).map DiffCandidate.status ≠ (after.get? key).map DiffCandidate.status)

def changedItems : List DiffDelta :=
  ((iteration.order (before.keys.filter fun key => decide (key ∈ after.keys))).filter
    (readsDiffer before after)).filterMap fun key => (after.get? key).map (diffDelta .changed)

def diffItems : List DiffDelta :=
  oneSided iteration before after .added ++ oneSided iteration after before .removed ++
    changedItems iteration before after

end Items

def countState (items : List DiffDelta) (state : DiffState) : ℕ := items.countP fun item => decide (item.state = state)

def diffCounts (items : List DiffDelta) : DiffCounts :=
  ⟨countState items .added, countState items .changed, countState items .removed⟩

/-- `diff_rows`. -/
def diffRows (iteration : SetOrder CandidateIdentity) (previous current : List DiffCandidate) (limit : ℤ) :
    List DiffRow :=
  let bound := (max 0 limit).toNat
  let items := diffItems iteration (reduceRows previous) (reduceRows current)
  let counts := diffCounts items
  if items = [] ∨ bound < items.length then [(none, counts)]
  else (sortedBy diffSortKey items).map fun item => (some item, counts)

/-! ## 4. The sides of a stored comparison -/

structure StoredReading where
  snapshotId : Text
  rawRecordId : Text
  candidateKey : Text
  reading : CandidateReading
  status : Option Text

/-- `_variant_page_key`. -/
def variantPageKey (row : StoredReading) : Text ×ₗ Text ×ₗ ℤ ×ₗ ℤ ×ₗ Text ×ₗ Text ×ₗ Text :=
  toLex (row.reading.manufacturer.getD [], toLex (row.reading.commercialModel.getD [],
    toLex (row.reading.modelYearStart.getD 0, toLex (row.reading.modelYearEnd.getD 0,
      toLex (row.reading.officialModelCode.getD [], toLex (row.reading.trim.getD [], row.candidateKey))))))

/-- `_diff_side`: the candidates of a snapshot in page order, with the ids of their captured rows. -/
def diffSide (records : Dict Text Text) (candidates : List StoredReading) (snapshotId : Option Text) :
    List DiffCandidate :=
  snapshotId.elim [] fun snapshotId =>
    (sortedBy variantPageKey (candidates.filter fun row => decide (row.snapshotId = snapshotId))).map fun row =>
      ⟨row.reading, row.status, some ((records.get? row.rawRecordId).getD [])⟩

def maxDiffItems : ℤ := 100

/-- `catalog_snapshot_candidate_diff` of readable snapshots. -/
def catalogSnapshotCandidateDiff (iteration : SetOrder CandidateIdentity) (records : Dict Text Text)
    (candidates : List StoredReading) (previous : Option Text) (snapshot : Text) (limit : ℤ) : List DiffRow :=
  diffRows iteration (diffSide records candidates previous) (diffSide records candidates (some snapshot))
    (min limit maxDiffItems)

/-! ## 5. What is counted -/

section Counts

variable {iteration iteration' : SetOrder CandidateIdentity} {before after : Dict CandidateIdentity DiffCandidate}
  {previous current rows rows' : List DiffCandidate} {state : DiffState} {keys : List CandidateIdentity}

/-- The identities a capture states. -/
def identities (rows : List DiffCandidate) : Finset CandidateIdentity := (rows.map candidateIdentity).toFinset

theorem mem_identities {key : CandidateIdentity} : key ∈ identities rows ↔ key ∈ (reduceRows rows).keys := by
  unfold identities reduceRows
  rw [List.mem_toFinset, mem_keys_firstBy]

/-- The items of keys that are there, one for each key. -/
theorem length_filterMap_get? (state : DiffState) (h : ∀ key ∈ keys, key ∈ after.keys) :
    (keys.filterMap fun key => (after.get? key).map (diffDelta state)).length = keys.length := by
  induction keys with
  | nil => rfl
  | cons key keys ih =>
    rw [List.forall_mem_cons] at h
    obtain ⟨row, hrow⟩ := Dict.mem_keys_iff.mp h.1
    have hsome : (after.get? key).map (diffDelta state) = some (diffDelta state row) := by
      rw [hrow]
      rfl
    have hcons : (key :: keys).filterMap (fun key => (after.get? key).map (diffDelta state)) =
        diffDelta state row :: keys.filterMap fun key => (after.get? key).map (diffDelta state) :=
      List.filterMap_cons_some hsome
    rw [hcons, List.length_cons, List.length_cons, ih h.2]

theorem state_of_mem_filterMap {item : DiffDelta}
    (h : item ∈ keys.filterMap fun key => (after.get? key).map (diffDelta state)) :
    ∃ key ∈ keys, ∃ row, after.get? key = some row ∧ item = diffDelta state row := by
  obtain ⟨key, hkey, hitem⟩ := List.mem_filterMap.mp h
  obtain ⟨row, hrow, heq⟩ := Option.map_eq_some_iff.mp hitem
  exact ⟨key, hkey, row, hrow, heq.symm⟩

theorem countState_filterMap {state' : DiffState} (h : ∀ key ∈ keys, key ∈ after.keys) :
    countState (keys.filterMap fun key => (after.get? key).map (diffDelta state)) state' =
      if state = state' then keys.length else 0 := by
  have hstate : ∀ item ∈ keys.filterMap fun key => (after.get? key).map (diffDelta state), item.state = state := by
    intro item hitem
    obtain ⟨_, _, row, _, rfl⟩ := state_of_mem_filterMap hitem
    rfl
  unfold countState
  split
  · rename_i hsame
    rw [List.countP_eq_length.mpr fun item hitem => decide_eq_true ((hstate item hitem).trans hsame),
      length_filterMap_get? state h]
  · rename_i hother
    exact List.countP_eq_zero.mpr fun item hitem hfalse =>
      hother ((hstate item hitem).symm.trans (of_decide_eq_true hfalse))

/-- The identities of both sides whose first readings differ. -/
def changedIdentities (previous current : List DiffCandidate) : Finset CandidateIdentity :=
  (identities previous ∩ identities current).filter fun key =>
    readsDiffer (reduceRows previous) (reduceRows current) key = true

theorem length_order_filter (p : CandidateIdentity → Bool) (rows : List DiffCandidate) :
    (iteration.order ((reduceRows rows).keys.filter p)).length = ((identities rows).filter fun key => p key = true).card := by
  have hnodup : ((reduceRows rows).keys.filter p).Nodup := (reduceRows rows).keys_nodup.filter _
  rw [(iteration.perm _).length_eq, ← List.toFinset_card_of_nodup hnodup]
  congr 1
  ext key
  rw [List.mem_toFinset, List.mem_filter, Finset.mem_filter, mem_identities]

theorem counted (previous current : List DiffCandidate) :
    diffCounts (diffItems iteration (reduceRows previous) (reduceRows current)) =
      ⟨(identities current \ identities previous).card, (changedIdentities previous current).card,
        (identities previous \ identities current).card⟩ := by
  have hside : ∀ rows others : List DiffCandidate, ∀ key ∈ iteration.order
      ((reduceRows rows).keys.filter fun key => decide (key ∉ (reduceRows others).keys)), key ∈ (reduceRows rows).keys :=
    fun rows others key hkey => List.mem_of_mem_filter ((iteration.perm _).mem_iff.mp hkey)
  have hboth : ∀ key ∈ (iteration.order ((reduceRows previous).keys.filter fun key =>
      decide (key ∈ (reduceRows current).keys))).filter (readsDiffer (reduceRows previous) (reduceRows current)),
      key ∈ (reduceRows current).keys := by
    intro key hkey
    have hmem := (iteration.perm _).mem_iff.mp (List.mem_of_mem_filter hkey)
    exact of_decide_eq_true (List.mem_filter.mp hmem).2
  have hcount : ∀ state, countState (diffItems iteration (reduceRows previous) (reduceRows current)) state =
      (if DiffState.added = state then (iteration.order ((reduceRows current).keys.filter fun key =>
          decide (key ∉ (reduceRows previous).keys))).length else 0) +
        (if DiffState.removed = state then (iteration.order ((reduceRows previous).keys.filter fun key =>
          decide (key ∉ (reduceRows current).keys))).length else 0) +
        if DiffState.changed = state then ((iteration.order ((reduceRows previous).keys.filter fun key =>
          decide (key ∈ (reduceRows current).keys))).filter
            (readsDiffer (reduceRows previous) (reduceRows current))).length else 0 := by
    intro state
    rw [← countState_filterMap (hside current previous), ← countState_filterMap (hside previous current),
      ← countState_filterMap hboth]
    unfold countState diffItems oneSided changedItems
    rw [List.countP_append, List.countP_append]
  have hdiff : ∀ rows others : List DiffCandidate, (iteration.order ((reduceRows rows).keys.filter fun key =>
      decide (key ∉ (reduceRows others).keys))).length = (identities rows \ identities others).card := by
    intro rows others
    rw [length_order_filter]
    congr 1
    ext key
    have hother : key ∈ identities others ↔ key ∈ (reduceRows others).keys := mem_identities
    rw [Finset.mem_filter, Finset.mem_sdiff, decide_eq_true_eq, hother]
  have hchanged : ((iteration.order ((reduceRows previous).keys.filter fun key =>
      decide (key ∈ (reduceRows current).keys))).filter
        (readsDiffer (reduceRows previous) (reduceRows current))).length = (changedIdentities previous current).card := by
    rw [((iteration.perm _).filter _).length_eq, List.filter_filter,
      ← List.toFinset_card_of_nodup ((reduceRows previous).keys_nodup.filter _)]
    congr 1
    ext key
    unfold changedIdentities
    rw [List.mem_toFinset, List.mem_filter, Bool.and_eq_true, decide_eq_true_eq, Finset.mem_filter, Finset.mem_inter,
      mem_identities, mem_identities]
    tauto
  unfold diffCounts
  rw [hcount, hcount, hcount, hdiff, hdiff, hchanged]
  simp

theorem length_eq_counts (items : List DiffDelta) :
    items.length = (diffCounts items).added + (diffCounts items).changed + (diffCounts items).removed := by
  unfold diffCounts countState
  dsimp only
  induction items with
  | nil => rfl
  | cons item items ih =>
    rw [List.length_cons, List.countP_cons, List.countP_cons, List.countP_cons, ih]
    cases item.state <;> simp <;> omega

/-- How many differences there are between two captures. -/
def differences (previous current : List DiffCandidate) : ℕ :=
  (identities current \ identities previous).card + (changedIdentities previous current).card +
    (identities previous \ identities current).card

theorem length_diffItems (previous current : List DiffCandidate) :
    (diffItems iteration (reduceRows previous) (reduceRows current)).length = differences previous current := by
  rw [length_eq_counts, counted]
  rfl

/-- No difference: of every identity the first rows of both sides agree. -/
theorem differences_eq_zero_iff : differences previous current = 0 ↔
    ∀ key, ((reduceRows current).get? key).map DiffCandidate.status =
      ((reduceRows previous).get? key).map DiffCandidate.status := by
  unfold differences
  rw [Nat.add_eq_zero_iff, Nat.add_eq_zero_iff, Finset.card_eq_zero, Finset.card_eq_zero, Finset.card_eq_zero,
    Finset.sdiff_eq_empty_iff_subset, Finset.sdiff_eq_empty_iff_subset]
  constructor
  · rintro ⟨⟨hadded, hchanged⟩, hremoved⟩ key
    by_cases hkey : key ∈ identities previous
    · by_contra hdiffer
      have hmem : key ∈ changedIdentities previous current :=
        Finset.mem_filter.mpr ⟨Finset.mem_inter.mpr ⟨hkey, hremoved hkey⟩, decide_eq_true (Ne.symm hdiffer)⟩
      rw [hchanged] at hmem
      cases hmem
    · have habsent : key ∉ identities current := fun h => hkey (hadded h)
      rw [mem_identities] at hkey habsent
      rw [Dict.get?_eq_none.mpr hkey, Dict.get?_eq_none.mpr habsent]
  · intro h
    have hmem : ∀ key, key ∈ identities current ↔ key ∈ identities previous := by
      intro key
      have hsome := congrArg Option.isSome (h key)
      rw [Option.isSome_map, Option.isSome_map, Bool.eq_iff_iff, Option.isSome_iff_exists, Option.isSome_iff_exists] at hsome
      rw [mem_identities, mem_identities, Dict.mem_keys_iff, Dict.mem_keys_iff]
      exact hsome
    refine ⟨⟨fun key hkey => (hmem key).mp hkey, ?_⟩, fun key hkey => (hmem key).mpr hkey⟩
    rw [Finset.eq_empty_iff_forall_notMem]
    intro key hkey
    exact of_decide_eq_true (Finset.mem_filter.mp hkey).2 (h key).symm

end Counts

/-! ## 6. The answer -/

section Answer

variable {iteration iteration' : SetOrder CandidateIdentity} {previous current : List DiffCandidate} {limit limit' : ℤ}

/-- The three counts of two captures. -/
def countsOf (previous current : List DiffCandidate) : DiffCounts :=
  ⟨(identities current \ identities previous).card, (changedIdentities previous current).card,
    (identities previous \ identities current).card⟩

theorem diffRows_eq : diffRows iteration previous current limit =
    if differences previous current = 0 ∨ limit.toNat < differences previous current then
      [(none, countsOf previous current)]
    else (sortedBy diffSortKey (diffItems iteration (reduceRows previous) (reduceRows current))).map
      fun item => (some item, countsOf previous current) := by
  have hbound : (max 0 limit).toNat = limit.toNat := by omega
  have hempty : diffItems iteration (reduceRows previous) (reduceRows current) = [] ↔
      differences previous current = 0 := by
    rw [← List.length_eq_zero_iff, length_diffItems]
  unfold diffRows
  dsimp only
  simp only [hbound, hempty, length_diffItems, counted]
  rfl

theorem snd_of_mem_diffRows {row : DiffRow} (h : row ∈ diffRows iteration previous current limit) :
    row.2 = countsOf previous current := by
  rw [diffRows_eq] at h
  split at h
  · rw [List.mem_singleton.mp h]
  · obtain ⟨item, _, rfl⟩ := List.mem_map.mp h
    rfl

/-- The answer of nothing changed. -/
def noChange : List DiffRow := [(none, ⟨0, 0, 0⟩)]

theorem diffRows_eq_noChange_iff :
    diffRows iteration previous current limit = noChange ↔ differences previous current = 0 := by
  constructor
  · intro h
    have hcounts : (⟨0, 0, 0⟩ : DiffCounts) = countsOf previous current := by
      have hmem : ((none, ⟨0, 0, 0⟩) : DiffRow) ∈ diffRows iteration previous current limit := by
        rw [h]
        exact List.mem_singleton.mpr rfl
      exact snd_of_mem_diffRows hmem
    obtain ⟨hadded, hchanged, hremoved⟩ := DiffCounts.mk.inj hcounts
    unfold differences
    omega
  · intro h
    have hcounts : countsOf previous current = ⟨0, 0, 0⟩ := by
      unfold differences at h
      unfold countsOf
      rw [DiffCounts.mk.injEq]
      omega
    rw [diffRows_eq, if_pos (Or.inl h), hcounts]
    rfl

theorem changedIdentities_comm (previous current : List DiffCandidate) :
    changedIdentities current previous = changedIdentities previous current := by
  unfold changedIdentities
  rw [Finset.inter_comm]
  apply Finset.filter_congr
  intro key _
  unfold readsDiffer
  rw [decide_eq_true_eq, decide_eq_true_eq]
  exact ne_comm

/-- What the table of candidates admits: an optional text is absent or says something, a year is no zero. -/
structure CandidateReading.Exact (reading : CandidateReading) : Prop where
  manufacturer : reading.manufacturer ≠ some []
  commercialModel : reading.commercialModel ≠ some []
  modelYearStart : reading.modelYearStart ≠ some 0
  modelYearEnd : reading.modelYearEnd ≠ some 0
  officialModelCode : reading.officialModelCode ≠ some []
  trim : reading.trim ≠ some []

theorem getD_inj {α : Type} {a b : Option α} {d : α} (ha : a ≠ some d) (hb : b ≠ some d) (h : a.getD d = b.getD d) :
    a = b := by
  cases a with
  | none =>
    cases b with
    | none => rfl
    | some b =>
      have heq : d = b := h
      exact absurd (congrArg some heq.symm) hb
  | some a =>
    cases b with
    | none =>
      have heq : a = d := h
      exact absurd (congrArg some heq) ha
    | some b =>
      have heq : a = b := h
      rw [heq]

theorem DiffState.text_injective : Function.Injective DiffState.text := by
  intro a b h
  cases a <;> cases b <;> first
    | rfl
    | exact absurd h (by decide)

/-- Where readings are exact, a delta is known by its key. -/
theorem diffDelta_eq_of_key {state state' : DiffState} {row row' : DiffCandidate} (hrow : row.reading.Exact)
    (hrow' : row'.reading.Exact) (h : diffSortKey (diffDelta state row) = diffSortKey (diffDelta state' row')) :
    diffDelta state row = diffDelta state' row' := by
  unfold diffSortKey at h
  simp only [toLex_inj, Prod.mk.injEq] at h
  obtain ⟨hstate, hmanufacturer, hmodel, hstart, hend, hcode, htrim, hupstream⟩ := h
  have hstate := DiffState.text_injective hstate
  have hmanufacturer := getD_inj hrow.manufacturer hrow'.manufacturer hmanufacturer
  have hmodel := getD_inj hrow.commercialModel hrow'.commercialModel hmodel
  have hstart := getD_inj hrow.modelYearStart hrow'.modelYearStart hstart
  have hend := getD_inj hrow.modelYearEnd hrow'.modelYearEnd hend
  have hcode := getD_inj hrow.officialModelCode hrow'.officialModelCode hcode
  have htrim := getD_inj hrow.trim hrow'.trim htrim
  have hstate : state = state' := hstate
  have hupstream : row.upstreamRecordId.getD [] = row'.upstreamRecordId.getD [] := hupstream
  unfold diffDelta
  rw [hstate, hmanufacturer, hmodel, hstart, hend, hcode, htrim, hupstream]

theorem perm_diffItems (previous current : List DiffCandidate) :
    (diffItems iteration (reduceRows previous) (reduceRows current)).Perm
      (diffItems iteration' (reduceRows previous) (reduceRows current)) := by
  have horder : ∀ keys, (iteration.order keys).Perm (iteration'.order keys) :=
    fun keys => (iteration.perm keys).trans (iteration'.perm keys).symm
  exact (((horder _).filterMap _).append ((horder _).filterMap _)).append (((horder _).filter _).filterMap _)

theorem mem_diffItems {item : DiffDelta} (h : item ∈ diffItems iteration (reduceRows previous) (reduceRows current)) :
    ∃ state, ∃ row ∈ previous ++ current, item = diffDelta state row := by
  have hrow : ∀ {state : DiffState} {keys : List CandidateIdentity} {rows : List DiffCandidate},
      item ∈ keys.filterMap (fun key => ((reduceRows rows).get? key).map (diffDelta state)) →
        ∃ row ∈ rows, item = diffDelta state row := by
    intro state keys rows hitem
    obtain ⟨_, _, row, hget, heq⟩ := state_of_mem_filterMap hitem
    exact ⟨row, (of_get?_firstBy hget).1, heq⟩
  unfold diffItems oneSided changedItems at h
  rcases List.mem_append.mp h with hsides | hchanged
  · rcases List.mem_append.mp hsides with hadded | hremoved
    · obtain ⟨row, hmem, heq⟩ := hrow hadded
      exact ⟨_, row, List.mem_append_right _ hmem, heq⟩
    · obtain ⟨row, hmem, heq⟩ := hrow hremoved
      exact ⟨_, row, List.mem_append_left _ hmem, heq⟩
  · obtain ⟨row, hmem, heq⟩ := hrow hchanged
    exact ⟨_, row, List.mem_append_right _ hmem, heq⟩

/-- The answer does not show in which order a set gave its items. -/
theorem diffRows_iteration (h : ∀ row ∈ previous ++ current, row.reading.Exact) :
    diffRows iteration previous current limit = diffRows iteration' previous current limit := by
  have hsorted : sortedBy diffSortKey (diffItems iteration (reduceRows previous) (reduceRows current)) =
      sortedBy diffSortKey (diffItems iteration' (reduceRows previous) (reduceRows current)) := by
    refine List.Perm.eq_of_pairwise ?_ (pairwise_sortedBy _ _) (pairwise_sortedBy _ _)
      (((perm_sortedBy _ _).trans (perm_diffItems _ _)).trans (perm_sortedBy _ _).symm)
    intro a b ha hb hab hba
    obtain ⟨state, row, hrow, rfl⟩ := mem_diffItems (mem_sortedBy.mp ha)
    obtain ⟨state', row', hrow', rfl⟩ := mem_diffItems (mem_sortedBy.mp hb)
    exact diffDelta_eq_of_key (h row hrow) (h row' hrow') (le_antisymm hab hba)
  rw [diffRows_eq, diffRows_eq, hsorted]

end Answer

/-! ## 7. Identities do not see the order of dimensions -/

/-- Two readings state the same identity. -/
structure CandidateReading.StatesSame (a b : CandidateReading) : Prop where
  manufacturer : a.manufacturer = b.manufacturer
  commercialModel : a.commercialModel = b.commercialModel
  modelYearStart : a.modelYearStart = b.modelYearStart
  modelYearEnd : a.modelYearEnd = b.modelYearEnd
  officialModelCode : a.officialModelCode = b.officialModelCode
  trim : a.trim = b.trim
  dimensions : ∀ name, a.identityDimensions.get? name = b.identityDimensions.get? name

theorem identityPairs_eq_iff {d e : Dict String Text} :
    identityPairs d = identityPairs e ↔ ∀ name, d.get? name = e.get? name := by
  have hinj : Function.Injective fun e : String × Text => (e.1.toList, e.2) := by
    intro a b hab
    obtain ⟨hname, hvalue⟩ := Prod.mk.inj hab
    exact Prod.ext (String.toList_inj.mp hname) hvalue
  have hmem : ∀ d : Dict String Text, ∀ name value, d.get? name = some value ↔
      (name.toList, value) ∈ identityPairs d := by
    intro d name value
    unfold identityPairs
    rw [mem_sortedBy, Dict.get?_eq_some]
    constructor
    · exact fun h => List.mem_map.mpr ⟨(name, value), h, rfl⟩
    · intro h
      obtain ⟨entry, hentry, heq⟩ := List.mem_map.mp h
      have hsame : entry = (name, value) := hinj heq
      rw [← hsame]
      exact hentry
  constructor
  · intro h name
    ext value
    rw [hmem, hmem, h]
  · intro h
    have hperm : d.entries.Perm e.entries := by
      refine (List.perm_ext_iff_of_nodup (List.Nodup.of_map _ d.nodup) (List.Nodup.of_map _ e.nodup)).mpr ?_
      rintro ⟨name, value⟩
      rw [← Dict.get?_eq_some, ← Dict.get?_eq_some, h]
    refine List.Perm.eq_of_pairwise (fun a b _ _ hab hba => toLex_inj.mp (le_antisymm hab hba))
      (pairwise_sortedBy _ _) (pairwise_sortedBy _ _) ?_
    exact ((perm_sortedBy _ _).trans (hperm.map _)).trans (perm_sortedBy _ _).symm

theorem candidateIdentity_eq_iff {a b : DiffCandidate} :
    candidateIdentity a = candidateIdentity b ↔ a.reading.StatesSame b.reading := by
  unfold candidateIdentity
  rw [CandidateIdentity.mk.injEq, identityPairs_eq_iff]
  constructor
  · rintro ⟨hmanufacturer, hmodel, hstart, hend, hcode, htrim, hdimensions⟩
    exact ⟨hmanufacturer, hmodel, hstart, hend, hcode, htrim, hdimensions⟩
  · exact fun h => ⟨h.manufacturer, h.commercialModel, h.modelYearStart, h.modelYearEnd, h.officialModelCode, h.trim,
      h.dimensions⟩

/-! ## 8. The comparison of two captures -/

/-- What a capture states: of each row its identity and its status. -/
def statements (rows : List DiffCandidate) : Multiset (CandidateIdentity × Option Text) :=
  rows.map fun row => (candidateIdentity row, row.status)

/-- What the comparison of a capture with others tells, and when it is blind to the order they were read in. -/
structure SnapshotDiff (previous : List DiffCandidate) : Prop where
  identity : ∀ a ∈ previous, ∀ b, candidateIdentity a = candidateIdentity b ↔ a.reading.StatesSame b.reading
  same : (∀ rows', statements rows' = statements previous →
      ∀ iteration limit, diffRows iteration previous rows' limit = noChange) ↔
    ∀ a ∈ previous, ∀ b ∈ previous, candidateIdentity a = candidateIdentity b → a.status = b.status
  counts : ∀ iteration current limit, ∀ row ∈ diffRows iteration previous current limit,
    row.2.added = (identities current \ identities previous).card ∧
      row.2.removed = (identities previous \ identities current).card
  swapped : ∀ iteration iteration' current limit limit',
    ∀ row ∈ diffRows iteration previous current limit, ∀ row' ∈ diffRows iteration' current previous limit',
      row'.2 = ⟨row.2.removed, row.2.changed, row.2.added⟩
  counted : ∀ iteration current limit,
    differences previous current = 0 ∨ limit.toNat < differences previous current →
      diffRows iteration previous current limit = [(none, countsOf previous current)]
  listed : ∀ iteration current limit,
    ¬(differences previous current = 0 ∨ limit.toNat < differences previous current) →
      ∃ deltas : List DiffDelta, diffRows iteration previous current limit = deltas.map (fun delta =>
          (some delta, countsOf previous current)) ∧
        deltas.Perm (diffItems iteration (reduceRows previous) (reduceRows current)) ∧
        deltas.length = differences previous current ∧ deltas.Pairwise fun a b => diffSortKey a ≤ diffSortKey b
  ordered : ∀ iteration iteration' current limit, (∀ row ∈ previous ++ current, row.reading.Exact) →
    diffRows iteration previous current limit = diffRows iteration' previous current limit

theorem snapshotDiff (previous : List DiffCandidate) : SnapshotDiff previous where
  identity := fun _ _ _ => candidateIdentity_eq_iff
  same := by
    have hstable := @firstBy_stable_iff _ _ _ _ candidateIdentity previous DiffCandidate.status
    rw [← hstable]
    refine forall_congr' fun rows' => ?_
    have hperm : statements rows' = statements previous ↔ (rows'.map fun row => (candidateIdentity row, row.status)).Perm
        (previous.map fun row => (candidateIdentity row, row.status)) := Multiset.coe_eq_coe
    rw [hperm]
    refine imp_congr_right fun _ => ?_
    constructor
    · intro h
      have hnone := diffRows_eq_noChange_iff.mp (h ⟨id, fun _ => List.Perm.refl _⟩ 0)
      exact differences_eq_zero_iff.mp hnone
    · exact fun h _ _ => diffRows_eq_noChange_iff.mpr (differences_eq_zero_iff.mpr h)
  counts := by
    intro iteration current limit row hrow
    rw [snd_of_mem_diffRows hrow]
    exact ⟨rfl, rfl⟩
  swapped := by
    intro iteration iteration' current limit limit' row hrow row' hrow'
    rw [snd_of_mem_diffRows hrow, snd_of_mem_diffRows hrow']
    unfold countsOf
    rw [changedIdentities_comm]
  counted := by
    intro iteration current limit h
    rw [diffRows_eq, if_pos h]
  listed := by
    intro iteration current limit h
    refine ⟨_, ?_, perm_sortedBy _ _, ?_, pairwise_sortedBy _ _⟩
    · rw [diffRows_eq, if_neg h]
    · rw [(perm_sortedBy _ _).length_eq, length_diffItems]
  ordered := fun _ _ _ _ h => diffRows_iteration h

/-- Two captures of the same two rows: one vehicle, read completely once and once left open. -/
def twiceStated (firstKey secondKey : Text) (snapshotId : Text) : List StoredReading :=
  [⟨snapshotId, "row 1".toList, firstKey, { manufacturer := some "Toyota".toList, commercialModel := some "RAV4".toList },
      some "candidate".toList⟩,
    ⟨snapshotId, "row 2".toList, secondKey, { manufacturer := some "Toyota".toList, commercialModel := some "RAV4".toList },
      some "ambiguous".toList⟩]

/-- A re-capture whose candidate keys fall in the other order reports a change. -/
theorem twiceStated_changed : ¬∀ previous current : List DiffCandidate, statements previous = statements current →
    ∀ iteration limit, diffRows iteration previous current limit = noChange := by
  intro h
  have hsame : statements (diffSide Dict.empty (twiceStated "a".toList "b".toList "s1".toList) (some "s1".toList)) =
      statements (diffSide Dict.empty (twiceStated "b".toList "a".toList "s2".toList) (some "s2".toList)) := by
    decide +kernel
  have hchanged := h _ _ hsame ⟨id, fun _ => List.Perm.refl _⟩ 100
  exact absurd hchanged (by decide +kernel)

end Milo.Catalog
