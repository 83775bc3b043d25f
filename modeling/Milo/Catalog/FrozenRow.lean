import Milo.Catalog.PromotionSound

/-!
# FrozenRow — a canonical row and the first revisions of its fields

The row of a variant is what its first promotion stated, and the two are compared when the variant is
inserted.  A later promotion that states a dimension the row does not gives that field a first
revision the row knows nothing of.
-/

namespace Milo.Catalog

open Milo.Python Milo.Reasoning Milo.Swarm

theorem sameValue_comm (a b : Option Jsonb) : Python.sameValue a b = Python.sameValue b a := by
  cases a with
  | none => cases b <;> rfl
  | some a =>
    cases b with
    | none => rfl
    | some b => exact a.same_comm b

theorem sameFields_comm (a b : List (Text × Jsonb)) : sameFields a b = sameFields b a := by
  unfold sameFields
  rw [List.all_append, List.all_append, Bool.and_comm]
  simp only [sameValue_comm (a.lookup _)]

/-- The names of the dimensions an object states. -/
def dimensionNames (dimensions : Jsonb) : List Text := (objectMembers dimensions).map Prod.fst

theorem mem_statedFields {first last : ℤ} {code trim : Option Text} {dimensions : Jsonb}
    {key : Text} : key ∈ (catalogCanonicalStatedFields first last code trim dimensions).map Prod.fst ↔
      key = "model_year_start".toList ∨ key = "model_year_end".toList ∨
        (key = "official_model_code".toList ∧ code.isSome = true) ∨
        (key = "trim".toList ∧ trim.isSome = true) ∨
        ∃ name ∈ dimensionNames dimensions, key = dimensionPrefix ++ name := by
  unfold catalogCanonicalStatedFields dimensionNames
  cases code <;> cases trim <;> simp [eq_comm]

theorem dimension_ne {field : Text} (h : field.take 20 ≠ dimensionPrefix) (name : Text) :
    dimensionPrefix ++ name ≠ field := by
  rintro rfl
  exact h (List.take_left' rfl)

theorem dimension_mem_statedFields {first last : ℤ} {code trim : Option Text} {dimensions : Jsonb}
    {name : Text} : dimensionPrefix ++ name ∈
      (catalogCanonicalStatedFields first last code trim dimensions).map Prod.fst ↔
        name ∈ dimensionNames dimensions := by
  rw [mem_statedFields]
  constructor
  · rintro (h | h | ⟨h, -⟩ | ⟨h, -⟩ | ⟨other, hother, h⟩)
    · exact absurd h (dimension_ne (by decide) name)
    · exact absurd h (dimension_ne (by decide) name)
    · exact absurd h (dimension_ne (by decide) name)
    · exact absurd h (dimension_ne (by decide) name)
    · rw [List.append_cancel_left h]
      exact hother
  · intro hname
    exact .inr (.inr (.inr (.inr ⟨name, hname, rfl⟩)))

namespace PromotionStore

variable {db : PromotionDatabase} {s s' : PromotionStore}

/-! ## 1. The rows and the first revisions -/

/-- The first revisions of every variant are what its row states. -/
def RowsAgree (s : PromotionStore) : Prop :=
  ∀ v ∈ s.variants, sameFields v.stated (s.firstRevisions v.id) = true

instance (s : PromotionStore) : Decidable s.RowsAgree :=
  inferInstanceAs (Decidable (∀ v ∈ s.variants, sameFields v.stated (s.firstRevisions v.id) = true))

/-- A promotion of a variant that is there states no dimension the variant's row does not. -/
def StatesOnlyTheRow (db : PromotionDatabase) (s : PromotionStore) (e : PromotionEvent) : Prop :=
  ∀ r v, Promotes db s e r → s.variantByKey? r.canonicalKey = some v →
    ∀ name ∈ dimensionNames r.identityDimensions, name ∈ dimensionNames v.identityDimensions

theorem mem_firstRevisions {id key : Text} : key ∈ (s.firstRevisions id).map Prod.fst ↔
    ∃ p ∈ s.provenance, p.variantId = id ∧ p.fieldKey = key ∧ p.revision = 1 := by
  unfold firstRevisions
  simp only [List.map_reverse, List.mem_reverse, List.map_map, List.mem_map, List.mem_filter,
    Bool.and_eq_true, decide_eq_true_eq]
  constructor
  · rintro ⟨p, ⟨hp, hof, hrevision⟩, hfield⟩
    exact ⟨p, hp, hof, hfield, hrevision⟩
  · rintro ⟨p, hp, hof, hfield, hrevision⟩
    exact ⟨p, ⟨hp, hof, hrevision⟩, hfield⟩

theorem Numbered.first (h : s.Numbered) {p : FieldProvenanceRow} (hp : p ∈ s.provenance) :
    p.fieldKey ∈ (s.firstRevisions p.variantId).map Prod.fst := by
  have hmem : p ∈ s.history p.variantId p.fieldKey := List.mem_filter.mpr ⟨hp, by simp⟩
  have hlength : 0 < (s.history p.variantId p.fieldKey).length := List.length_pos_of_mem hmem
  have hone : 1 ∈ (s.history p.variantId p.fieldKey).map FieldProvenanceRow.revision := by
    rw [h.revisions, List.mem_range'_1]
    omega
  obtain ⟨first, hfirst, hrevision⟩ := List.mem_map.mp hone
  obtain ⟨hstored, hplace⟩ := List.mem_filter.mp hfirst
  simp only [Bool.and_eq_true, decide_eq_true_eq] at hplace
  exact mem_firstRevisions.mpr ⟨first, hstored, hplace.1, hplace.2, hrevision⟩

variable {rows : List FieldProvenanceRow} {r : PromotionReading} {v : ModelVariantRow}

/-- A field that had a history gets no other first revision. -/
theorem Numbered.not_first (h : s'.Numbered) (hrows : s'.provenance = s.provenance ++ rows) {p : FieldProvenanceRow}
    (hp : p ∈ rows) (hcovered : p.fieldKey ∈ (s.firstRevisions p.variantId).map Prod.fst) : p.revision ≠ 1 := by
  intro hrevision
  obtain ⟨first, hfirst, hof, hfield, hone⟩ := mem_firstRevisions.mp hcovered
  have hdistinct : ((s'.history p.variantId p.fieldKey).map FieldProvenanceRow.revision).Nodup := by
    rw [h.revisions]
    exact List.nodup_range'
  unfold history at hdistinct
  rw [hrows, List.filter_append, List.map_append, List.nodup_append] at hdistinct
  refine hdistinct.2.2 1 (List.mem_map.mpr ⟨first, ?_, hone⟩) 1
    (List.mem_map.mpr ⟨p, ?_, hrevision⟩) rfl
  · exact List.mem_filter.mpr ⟨hfirst, by simp [hof, hfield]⟩
  · exact List.mem_filter.mpr ⟨hp, by simp⟩

theorem firstRevisions_append {id : Text} (hrows : s'.provenance = s.provenance ++ rows)
    (hnone : ∀ p ∈ rows, p.variantId = id → p.revision ≠ 1) : s'.firstRevisions id = s.firstRevisions id := by
  unfold firstRevisions
  have hnew : rows.filter (fun p => decide (p.variantId = id) && decide (p.revision = 1)) = [] := by
    refine List.filter_eq_nil_iff.mpr fun p hp => ?_
    simpa using hnone p hp
  rw [hrows, List.filter_append, hnew, List.append_nil]

/-! ## 2. One promotion -/

theorem mem_requestedFields {fields : List PromotedField} {key : Text} :
    key ∈ (requestedFields fields).map Prod.fst ↔ ∃ field ∈ fields, field.fieldKey = key := by
  unfold requestedFields
  simp

/-- The keys of the rows a promotion writes are those its document states. -/
theorem mem_rows_iff_stated {p : Jsonb} {candidate : CapturedCandidate} {fields : List PromotedField}
    (haccepted : Accepted db s p r candidate fields)
    (hmap : rows.map (fun row => (row.fieldKey, row.fieldValue)) =
      (sortedBy PromotedField.fieldKey fields).map fun field =>
        (field.fieldKey, field.value.getD .null)) (key : Text) :
    (∃ row ∈ rows, row.fieldKey = key) ↔ key ∈ r.stated.map Prod.fst := by
  have hkeys : rows.map FieldProvenanceRow.fieldKey =
      (sortedBy PromotedField.fieldKey fields).map PromotedField.fieldKey := by
    simpa [List.map_map, Function.comp_def] using congrArg (List.map Prod.fst) hmap
  have hrow : (∃ row ∈ rows, row.fieldKey = key) ↔ ∃ field ∈ fields, field.fieldKey = key := by
    rw [← List.mem_map, hkeys, List.mem_map]
    simp
  rw [hrow, ← mem_requestedFields]
  constructor
  · exact mem_keys_of_sameFields haccepted.stated
  · exact mem_keys_of_sameFields (by rw [sameFields_comm]; exact haccepted.stated)

/-- The row of a variant and a promotion of the same identity differ in their dimensions at most. -/
theorem stated_subset_iff (hcode : v.officialModelCode = r.officialModelCode) (htrim : v.trim = r.trim) :
    (∀ key ∈ r.stated.map Prod.fst, key ∈ v.stated.map Prod.fst) ↔
      ∀ name ∈ dimensionNames r.identityDimensions, name ∈ dimensionNames v.identityDimensions := by
  constructor
  · intro h name hname
    exact dimension_mem_statedFields.mp (h _ (dimension_mem_statedFields.mpr hname))
  · intro h key hkey
    rcases mem_statedFields.mp hkey with h' | h' | ⟨h', hsome⟩ | ⟨h', hsome⟩ | ⟨name, hname, h'⟩
    · exact mem_statedFields.mpr (.inl h')
    · exact mem_statedFields.mpr (.inr (.inl h'))
    · exact mem_statedFields.mpr (.inr (.inr (.inl ⟨h', by rw [hcode]; exact hsome⟩)))
    · exact mem_statedFields.mpr (.inr (.inr (.inr (.inl ⟨h', by rw [htrim]; exact hsome⟩))))
    · rw [h']
      exact dimension_mem_statedFields.mpr (h name hname)

/-- A revision of a variant that is there keeps the rows in agreement exactly when it states nothing
    the row does not. -/
theorem rowsAgree_revised {candidateId : Text} (hs : s.Sound) (hs' : s'.Sound) (hagree : s.RowsAgree)
    (hv : v ∈ s.variants) (hvariants : s'.variants = s.variants) (hrows : s'.provenance = s.provenance ++ rows)
    (hof : ∀ row ∈ rows, row.candidateId = candidateId ∧ row.variantId = v.id)
    (hkeys : ∀ key, (∃ row ∈ rows, row.fieldKey = key) ↔ key ∈ r.stated.map Prod.fst) :
    s'.RowsAgree ↔ ∀ key ∈ r.stated.map Prod.fst, key ∈ v.stated.map Prod.fst := by
  constructor
  · intro h key hkey
    obtain ⟨row, hrow, rfl⟩ := (hkeys key).mpr hkey
    have hfirst := hs'.numbered.first (hrows ▸ List.mem_append_right s.provenance hrow)
    rw [(hof row hrow).2] at hfirst
    have hsame := h v (by rw [hvariants]; exact hv)
    rw [sameFields_comm] at hsame
    exact mem_keys_of_sameFields hsame hfirst
  · intro h other hother
    rw [hvariants] at hother
    rw [firstRevisions_append hrows ?_]
    · exact hagree other hother
    · intro row hrow hid
      refine hs'.numbered.not_first hrows hrow ?_
      -- the field is stated by the row, so it has had a first revision since the row was inserted
      have hstated := h _ ((hkeys row.fieldKey).mp ⟨row, hrow, rfl⟩)
      obtain ⟨p, hp, hpof, hfield, hone⟩ := hs.covered v hv _ hstated
      exact mem_firstRevisions.mpr ⟨p, hp, hpof.trans (hof row hrow).2.symm, hfield, hone⟩

theorem rowsAgree_created {candidateId : Text} (hagree : s.RowsAgree)
    (hnovel : ∀ other ∈ s.variants, other.id ≠ v.id) (hvariants : s'.variants = s.variants ++ [v])
    (hrows : s'.provenance = s.provenance ++ rows)
    (hof : ∀ row ∈ rows, row.candidateId = candidateId ∧ row.variantId = v.id)
    (hfirst : sameFields v.stated (s'.firstRevisions v.id) = true) : s'.RowsAgree := by
  intro other hother
  rw [hvariants] at hother
  rcases List.mem_append.mp hother with hother | hother
  · rw [firstRevisions_append hrows fun row hrow hid =>
      absurd (hid.symm.trans (hof row hrow).2) (hnovel other hother)]
    exact hagree other hother
  · rw [List.mem_singleton.mp hother]
    exact hfirst

theorem rowsAgree_step {e : PromotionEvent} (hs : s.Sound) (hagree : s.RowsAgree)
    (h : Change db s e s') : s'.RowsAgree ↔ StatesOnlyTheRow db s e := by
  have hs' := h.sound hs
  cases h with
  | kept e s' hsilent hmodels hvariants hprovenance hready =>
    have hstill : s'.RowsAgree := by
      intro v hv
      rw [hvariants] at hv
      unfold firstRevisions
      rw [hprovenance]
      exact hagree v hv
    exact ⟨fun _ r v hpromotes _ => absurd hpromotes (hsilent r), fun _ => hstill⟩
  | written call ids p r candidate fields s' v hanswer haccepted hfresh hwritten =>
    have hcondition : StatesOnlyTheRow db s (.promote call ids p) ↔
        ∀ w, s.variantByKey? r.canonicalKey = some w →
          ∀ name ∈ dimensionNames r.identityDimensions,
            name ∈ dimensionNames w.identityDimensions := by
      constructor
      · intro h w
        exact h r w ⟨call, ids, p, _, rfl, hanswer, haccepted.read, hfresh⟩
      · rintro h r' w ⟨call', ids', p', answer, heq, -, hread, -⟩
        cases heq
        rw [haccepted.read] at hread
        cases hread
        exact h w
    rw [hcondition]
    cases hwritten with
    | revised models variant rows s' hfound hidentity hrows =>
      have hof := hrows.ofAct
      have hkeys := mem_rows_iff_stated haccepted hrows.map_fields
      have hprovenance := congrArg PromotionStore.provenance hrows.eq
      have hvariants := congrArg PromotionStore.variants hrows.eq
      have hv := (mem_of_find?_id ModelVariantRow.canonicalKey hfound).1
      rw [rowsAgree_revised hs hs' hagree hv hvariants hprovenance
        (fun row hrow => ⟨(hof row hrow).1, (hof row hrow).2.1⟩) hkeys,
        stated_subset_iff hidentity.2.2.1 hidentity.2.2.2]
      constructor
      · intro h w hw
        rw [hfound] at hw
        cases hw
        exact h
      · exact fun h => h v hfound
    | created models variant rows s' hstated hkey hnovel hrows hfirst =>
      have hof := hrows.ofAct
      have hprovenance := congrArg PromotionStore.provenance hrows.eq
      have hvariants := congrArg PromotionStore.variants hrows.eq
      have hclash : ∀ other ∈ s.variants, other.id ≠ v.id ∧ other.canonicalKey ≠ v.canonicalKey := by
        intro other hother
        have hclash := hnovel other hother
        simp only [ModelVariantRow.clashes, Bool.or_eq_false_iff, decide_eq_false_iff_not] at hclash
        exact ⟨fun heq => hclash.1.1 heq.symm, fun heq => hclash.1.2 heq.symm⟩
      have hagree' : s'.RowsAgree := rowsAgree_created hagree (fun other hother =>
        (hclash other hother).1) hvariants hprovenance
        (fun row hrow => ⟨(hof row hrow).1, (hof row hrow).2.1⟩) hfirst
      refine ⟨fun _ w hw => ?_, fun _ => hagree'⟩
      have hfound := mem_of_find?_id ModelVariantRow.canonicalKey hw
      exact absurd (hfound.2.trans hkey.symm) (hclash w hfound.1).2

/-! ## 3. Every run -/

variable {hist : List (PromotionStore × PromotionEvent)} {start : PromotionStore}

/-- The rows agree with the first revisions in every store of a run exactly when no promotion of a
    stored variant states a dimension the variant's row does not. -/
theorem rowsAgree_iff (hvariants : start.variants = []) (hprovenance : start.provenance = [])
    (hrun : Run (PromotionStep db) start hist s) :
    Throughout RowsAgree hist s ↔ ∀ e ∈ hist, StatesOnlyTheRow db e.1 e.2 := by
  have hempty : Run (PromotionStep db) start [] start := Run.nil
  have hsound : start.Sound := run_sound hvariants hprovenance hempty
  refine hrun.throughout_iff hsound (by simp [RowsAgree, hvariants]) ?_ ?_
  · rintro m e m' hm ⟨hallowed, rfl⟩
    exact (change_perform hallowed).sound hm
  · rintro m e m' hm hagree ⟨hallowed, rfl⟩
    exact rowsAgree_step hm hagree (change_perform hallowed)

open CaptureStore (callOf textMember)

theorem run_vehicle (promotions : List (WorkerCall × NewIds × Jsonb)) :
    Run (PromotionStep vehicleDatabase) verifiedVehicle
      (performed (perform vehicleDatabase) verifiedVehicle
        (promotions.map fun p => .promote p.1 p.2.1 p.2.2))
      ((promotions.map fun p => PromotionEvent.promote p.1 p.2.1 p.2.2).foldl
        (perform vehicleDatabase) verifiedVehicle) :=
  run_performed _ verifiedVehicle fun e he => by
    obtain ⟨p, -, h⟩ := List.mem_map.mp (mem_of_mem_performed he)
    rw [← h]
    trivial

/-- Two promotions of the vehicle that both state its years alone. -/
def yearsTwice : List (WorkerCall × NewIds × Jsonb) :=
  [(callOf "a" 1, ⟨"m".toList, "v".toList⟩, yearsPromotion),
    (callOf "a" 2, ⟨"m2".toList, "v2".toList⟩,
      vehiclePromotion "cp1.1123456789abcdef0123456789abcdef" [] [])]

theorem rowsAgree_iff_yearsTwice :
    ∃ (hist : List (PromotionStore × PromotionEvent)) (s : PromotionStore),
      (∀ e ∈ hist, StatesOnlyTheRow vehicleDatabase e.1 e.2) ∧
      hist.length = 2 ∧ s.provenance.map FieldProvenanceRow.revision = [1, 1, 2, 2] := by
  have hrun := run_vehicle yearsTwice
  exact ⟨_, _, (rowsAgree_iff rfl rfl hrun).mp ⟨by decide +kernel, by decide +kernel⟩, rfl,
    show (((yearsTwice.map fun p => PromotionEvent.promote p.1 p.2.1 p.2.2).foldl
      (perform vehicleDatabase) verifiedVehicle).provenance.map FieldProvenanceRow.revision) =
        [1, 1, 2, 2] by decide +kernel⟩

/-- The vehicle is promoted with its years, and then with its fuel type too. -/
def fuelTypeLater : List (WorkerCall × NewIds × Jsonb) :=
  [(callOf "a" 1, ⟨"m".toList, "v".toList⟩, yearsPromotion),
    (callOf "a" 2, ⟨"m2".toList, "v2".toList⟩,
      vehiclePromotion "cp1.1123456789abcdef0123456789abcdef" [textMember "fuel_type" "petrol"]
        [promotedEntry fuelType (.str "petrol".toList)])]

theorem not_rowsAgree_fuelTypeLater :
    ¬ ∀ hist s, Run (PromotionStep vehicleDatabase) verifiedVehicle hist s →
      Throughout RowsAgree hist s := by
  intro h
  have hagree := (h _ _ (run_vehicle fuelTypeLater)).2
  exact absurd hagree (by decide +kernel)

end PromotionStore

end Milo.Catalog
