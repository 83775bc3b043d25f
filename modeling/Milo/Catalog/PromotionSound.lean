import Milo.Catalog.CaptureProtocol
import Milo.Catalog.PromotionRuns

/-!
# PromotionSound — canonical variants in every reachable store

Whatever is promoted, and whatever happens to the evidence in between, the facts stay numbered and of
one scope, a variant has a fact for every field it states, and a promotion made once is answered with
the same variant from then on.
-/

namespace Milo.Catalog

open Milo.Python Milo.Reasoning Milo.Swarm

/-! ## 1. Members of an object -/

/-- An object does not depend on the order its members come in. -/
theorem lookup_eq_of_perm {α β : Type} [BEq α] [LawfulBEq α] {l l' : List (α × β)} (hperm : l.Perm l')
    (hnodup : (l.map Prod.fst).Nodup) (key : α) : l.lookup key = l'.lookup key := by
  refine Option.ext fun value => ?_
  rw [Dict.lookup_eq_some_iff_mem hnodup, Dict.lookup_eq_some_iff_mem ((hperm.map _).nodup_iff.mp hnodup),
    hperm.mem_iff]

theorem sameFields_of_perm {a b : List (Text × Jsonb)} (hperm : a.Perm b)
    (hnodup : (a.map Prod.fst).Nodup) : sameFields a b = true := by
  unfold sameFields
  refine List.all_eq_true.mpr fun key _ => ?_
  rw [lookup_eq_of_perm hperm hnodup]
  exact sameValue_self _

theorem lookup_isSome_iff_mem {α β : Type} [BEq α] [LawfulBEq α] {l : List (α × β)} {key : α} :
    (l.lookup key).isSome = true ↔ key ∈ l.map Prod.fst := by
  rw [List.lookup_isSome_iff, List.mem_map]
  constructor
  · rintro ⟨p, hp, hkey⟩
    exact ⟨p, hp, (beq_iff_eq.mp hkey).symm⟩
  · rintro ⟨p, hp, hkey⟩
    exact ⟨p, hp, beq_iff_eq.mpr hkey.symm⟩

theorem mem_keys_of_sameFields {a b : List (Text × Jsonb)} (h : sameFields a b = true) {key : Text}
    (hkey : key ∈ a.map Prod.fst) : key ∈ b.map Prod.fst := by
  have hsame := List.all_eq_true.mp h key (List.mem_append_left _ hkey)
  obtain ⟨value, hvalue⟩ := Option.isSome_iff_exists.mp (lookup_isSome_iff_mem.mpr hkey)
  rw [← lookup_isSome_iff_mem]
  rw [hvalue] at hsame
  cases hother : b.lookup key with
  | none =>
    rw [hother] at hsame
    cases hsame
  | some other => rfl

namespace PromotionStore

variable {db : PromotionDatabase} {s s' : PromotionStore}

/-! ## 2. The invariant -/

/-- A fact that a variant's first revision states. -/
def Covers (s : PromotionStore) (v : ModelVariantRow) (key : Text) : Prop :=
  ∃ p ∈ s.provenance, p.variantId = v.id ∧ p.fieldKey = key ∧ p.revision = 1

structure Sound (s : PromotionStore) : Prop where
  numbered : s.Numbered
  ids : (s.variants.map ModelVariantRow.id).Nodup
  homes : ∀ p ∈ s.provenance, ∃ v ∈ s.variants, v.id = p.variantId
  covered : ∀ v ∈ s.variants, ∀ key ∈ v.stated.map Prod.fst, s.Covers v key

variable {v : ModelVariantRow} {fields : List PromotedField} {rows : List FieldProvenanceRow} {call : WorkerCall}
  {candidateId : Text} {r : PromotionReading} {e : PromotionEvent} {p : Jsonb}

theorem covers_of_sameFields (h : sameFields v.stated (s.firstRevisions v.id) = true) :
    ∀ key ∈ v.stated.map Prod.fst, s.Covers v key := by
  intro key hkey
  have hfirst := mem_keys_of_sameFields h hkey
  unfold firstRevisions at hfirst
  simp only [List.map_reverse, List.mem_reverse, List.map_map, List.mem_map, List.mem_filter,
    Bool.and_eq_true, decide_eq_true_eq] at hfirst
  obtain ⟨p, ⟨hp, hof, hrevision⟩, hfield⟩ := hfirst
  exact ⟨p, hp, hof, hfield, hrevision⟩

theorem Covers.append {key : Text} (h : s.Covers v key) (hrows : s.provenance <+: s'.provenance) :
    s'.Covers v key := by
  obtain ⟨p, hp, hof⟩ := h
  exact ⟨p, hrows.subset hp, hof⟩

theorem numbered_of_inserted {act : PromotionAct} (h : Inserted db act s fields rows s') (hs : s.Numbered) :
    s'.Numbered :=
  h.invariant hs fun _ _ _ hm hfact => numbered_insert hm hfact

theorem Written.sound (h : Written db s call r candidateId fields s' v) (hs : s.Sound) :
    s'.Sound ∧ v ∈ s'.variants := by
  cases h with
  | revised models variant rows s' hfound hidentity hrows =>
    have hvariant := (mem_of_find?_id ModelVariantRow.canonicalKey hfound).1
    have hnumbered : s'.Numbered :=
      numbered_of_inserted hrows ⟨hs.numbered.revisions, hs.numbered.oneScope, hs.numbered.oneAct⟩
    have hof := hrows.ofAct
    obtain rfl := hrows.eq
    refine ⟨⟨hnumbered, hs.ids, ?_, ?_⟩, hvariant⟩
    · intro p hp
      rcases List.mem_append.mp hp with hp | hp
      · exact hs.homes p hp
      · exact ⟨v, hvariant, (hof p hp).2.1.symm⟩
    · intro v hv key hmem
      exact (hs.covered v hv key hmem).append (List.prefix_append _ _)
  | created models variant rows s' hstated hkey hnovel hrows hfirst =>
    have hnumbered : s'.Numbered :=
      numbered_of_inserted hrows ⟨hs.numbered.revisions, hs.numbered.oneScope, hs.numbered.oneAct⟩
    have hof := hrows.ofAct
    obtain rfl := hrows.eq
    refine ⟨⟨hnumbered, ?_, ?_, ?_⟩, List.mem_append_right _ (List.mem_singleton_self v)⟩
    · show ((s.variants ++ [v]).map ModelVariantRow.id).Nodup
      rw [List.map_append, List.nodup_append]
      refine ⟨hs.ids, List.nodup_singleton _, ?_⟩
      intro id hid id' hid' heq
      obtain ⟨other, hother, rfl⟩ := List.mem_map.mp hid
      rw [List.map_singleton, List.mem_singleton] at hid'
      have hclash := hnovel other hother
      simp [ModelVariantRow.clashes, heq, hid'] at hclash
    · intro p hp
      rcases List.mem_append.mp hp with hp | hp
      · obtain ⟨home, hhome, hid⟩ := hs.homes p hp
        exact ⟨home, List.mem_append_left _ hhome, hid⟩
      · exact ⟨v, List.mem_append_right _ (List.mem_singleton_self v), (hof p hp).2.1.symm⟩
    · intro other hother key hmem
      rcases List.mem_append.mp hother with hother | hother
      · exact (hs.covered other hother key hmem).append (List.prefix_append _ _)
      · rw [List.mem_singleton.mp hother] at hmem ⊢
        exact covers_of_sameFields hfirst key hmem

theorem Sound.of_eq (hs : s.Sound) (hvariants : s'.variants = s.variants)
    (hprovenance : s'.provenance = s.provenance) : s'.Sound := by
  cases s
  cases s'
  cases hvariants
  cases hprovenance
  exact ⟨⟨hs.numbered.revisions, hs.numbered.oneScope, hs.numbered.oneAct⟩, hs.ids, hs.homes,
    hs.covered⟩

theorem Change.sound (h : Change db s e s') (hs : s.Sound) : s'.Sound := by
  cases h with
  | kept e s' hsilent hmodels hvariants hprovenance hready => exact hs.of_eq hvariants hprovenance
  | written call ids p r candidate fields s' v hanswer haccepted hfresh hwritten =>
    exact (hwritten.sound hs).1

/-! ## 3. A promotion that is stored -/

/-- The store holds the promotion: a repeated call is answered with the variant. -/
def Answered (db : PromotionDatabase) (s : PromotionStore) (p : Jsonb) (v : ModelVariantRow) : Prop :=
  ∃ r candidate fields, Accepted db s p r candidate fields ∧ s.promoted r.promotionKey ≠ [] ∧
    s.replayPromotion r candidate.id fields = .ok v

theorem Answered.promote (h : Answered db s p v) (hlease : s.capture.assertWorkerLease call = .ok ()) (ids : NewIds) :
    s.promoteCatalogVariantGuarded db call ids p = .ok (s, v) := by
  obtain ⟨r, candidate, fields, haccepted, hstored, hreplay⟩ := h
  refine promote_eq_ok.mpr ⟨hlease, r, candidate, fields, haccepted, ?_⟩
  rw [if_neg hstored]
  exact except_bind_eq_ok.mpr ⟨v, hreplay, rfl⟩

theorem replayPromotion_eq_ok :
    s.replayPromotion r candidateId fields = .ok v ↔
      sameFields (s.storedFields r.promotionKey) (requestedFields fields) = true ∧
      (s.promoted r.promotionKey).head?.bind (fun p => s.variant? p.variantId) = some v ∧
      v.canonicalKey = r.canonicalKey ∧
      ∀ p ∈ s.promoted r.promotionKey, p.candidateId = candidateId := by
  unfold replayPromotion
  simp only [except_bind_eq_ok, required_eq_ok, refuseIf_eq_ok, exists_const, not_or, not_not,
    not_exists, not_and, Bool.not_eq_false]
  constructor
  · rintro ⟨hsame, variant, hvariant, ⟨hkey, hcandidates⟩, h⟩
    cases h
    exact ⟨hsame, hvariant, hkey, hcandidates⟩
  · rintro ⟨hsame, hvariant, hkey, hcandidates⟩
    exact ⟨hsame, v, hvariant, ⟨hkey, hcandidates⟩, rfl⟩

theorem find?_of_prefix {α : Type} {p : α → Bool} {l l' : List α} {a : α} (hpre : l <+: l')
    (h : l.find? p = some a) : l'.find? p = some a := by
  obtain ⟨more, rfl⟩ := hpre
  rw [List.find?_append, h]
  rfl

/-- A stored promotion stays stored as long as its facts do and no row before it goes. -/
theorem Answered.of_prefix (h : Answered db s p v) (hready : s.KeepsReady s')
    (hvariants : s.variants <+: s'.variants)
    (hpromoted : ∀ key, s.promoted key ≠ [] → s'.promoted key = s.promoted key) : Answered db s' p v := by
  obtain ⟨r, candidate, fields, haccepted, hstored, hreplay⟩ := h
  have hsame := hpromoted r.promotionKey hstored
  have hfound : (rendered (p.member? "candidate_id".toList)).bind s'.candidate? = some candidate := by
    obtain ⟨id, hid, hcandidate⟩ := Option.bind_eq_some_iff.mp haccepted.found
    exact Option.bind_eq_some_iff.mpr ⟨id, hid, hready id candidate hcandidate haccepted.ready⟩
  have haccepted' : Accepted db s' p r candidate fields :=
    ⟨haccepted.safe, haccepted.read, hfound, haccepted.ready, haccepted.identity,
      haccepted.entries, haccepted.dimensions, haccepted.stated⟩
  refine ⟨r, candidate, fields, haccepted', by rw [hsame]; exact hstored, ?_⟩
  obtain ⟨hfields, hvariant, hkey, hids⟩ := replayPromotion_eq_ok.mp hreplay
  refine replayPromotion_eq_ok.mpr ⟨?_, ?_, hkey, by rwa [hsame]⟩
  · unfold storedFields
    rw [hsame]
    exact hfields
  · rw [hsame]
    obtain ⟨first, hfirst, hof⟩ := Option.bind_eq_some_iff.mp hvariant
    exact Option.bind_eq_some_iff.mpr ⟨first, hfirst, find?_of_prefix hvariants hof⟩

/-- What a promotion wrote: its facts, after those there were. -/
theorem Written.facts {call : WorkerCall} {r : PromotionReading} {candidateId : Text}
    {fields : List PromotedField} {v : ModelVariantRow}
    (h : Written db s call r candidateId fields s' v) :
    s'.capture = s.capture ∧ s.variants <+: s'.variants ∧ v.canonicalKey = r.canonicalKey ∧
      ∃ rows, s'.provenance = s.provenance ++ rows ∧
        (∀ row ∈ rows, row.candidateId = candidateId ∧ row.variantId = v.id ∧
          row.runId = call.runId ∧ row.promotionKey = r.promotionKey) ∧
        (∀ row ∈ rows, ∃ chain, Rests db s' row chain) ∧
        rows.map (fun row => (row.fieldKey, row.fieldValue)) =
          (sortedBy PromotedField.fieldKey fields).map fun field =>
            (field.fieldKey, field.value.getD .null) := by
  cases h with
  | revised models variant rows s' hfound hidentity hrows =>
    have hkey := (mem_of_find?_id ModelVariantRow.canonicalKey hfound).2
    have hof := hrows.ofAct
    have hrests := hrows.rests
    obtain rfl := hrows.eq
    exact ⟨rfl, List.prefix_refl _, hkey, rows, rfl, hof, hrests, hrows.map_fields⟩
  | created models variant rows s' hstated hkey hnovel hrows hfirst =>
    have hof := hrows.ofAct
    have hrests := hrows.rests
    obtain rfl := hrows.eq
    exact ⟨rfl, List.prefix_append _ _, hkey, rows, rfl, hof, hrests, hrows.map_fields⟩

theorem promoted_append {key : Text} (hrows : s'.provenance = s.provenance ++ rows) :
    s'.promoted key = s.promoted key ++ rows.filter fun p => decide (p.promotionKey = key) := by
  unfold promoted
  rw [hrows, List.filter_append]

theorem Written.promoted_other (h : Written db s call r candidateId fields s' v)
    (hfresh : s.promoted r.promotionKey = []) {key : Text} (hstored : s.promoted key ≠ []) :
    s'.promoted key = s.promoted key := by
  obtain ⟨-, -, -, rows, hrows, hof, -, -⟩ := h.facts
  have hother : rows.filter (fun p => decide (p.promotionKey = key)) = [] := by
    refine List.filter_eq_nil_iff.mpr fun row hrow => ?_
    have hkey : r.promotionKey ≠ key := by
      rintro rfl
      exact hstored hfresh
    simpa [(hof row hrow).2.2.2] using hkey
  rw [promoted_append hrows, hother, List.append_nil]

theorem readPromotion_fields (h : readPromotion p = .ok r) : r.fields ≠ [] := by
  unfold readPromotion at h
  simp only [except_bind_eq_ok, required_eq_ok, refuseIf_eq_ok, exists_const] at h
  obtain ⟨_, -, _, -, _, -, _, -, _, -, _, -, _, -, fields, -, hfields, h⟩ := h
  cases h
  exact hfields

theorem variant?_of_mem (hids : (s.variants.map ModelVariantRow.id).Nodup) (hv : v ∈ s.variants) :
    s.variant? v.id = some v := by
  unfold variant?
  cases hfound : s.variants.find? fun other => decide (other.id = v.id) with
  | none =>
    have hnot := List.find?_eq_none.mp hfound v hv
    simp at hnot
  | some other =>
    have hother := mem_of_find?_id ModelVariantRow.id hfound
    rw [List.inj_on_of_nodup_map hids hother.1 hv hother.2]

theorem Written.answered {candidate : CapturedCandidate} (h : Written db s call r candidate.id fields s' v)
    (hs : s.Sound) (haccepted : Accepted db s p r candidate fields) (hfresh : s.promoted r.promotionKey = []) :
    Answered db s' p v := by
  obtain ⟨hs', hv⟩ := h.sound hs
  obtain ⟨hcapture, -, hkey, rows, hrows, hof, -, hmap⟩ := h.facts
  have hpromoted : s'.promoted r.promotionKey = rows := by
    rw [promoted_append hrows, hfresh, List.nil_append]
    exact List.filter_eq_self.mpr fun row hrow => decide_eq_true (hof row hrow).2.2.2
  have hfound : (rendered (p.member? "candidate_id".toList)).bind s'.candidate? = some candidate := by
    unfold candidate?
    rw [hcapture]
    exact haccepted.found
  have haccepted' : Accepted db s' p r candidate fields :=
    ⟨haccepted.safe, haccepted.read, hfound, haccepted.ready, haccepted.identity,
      haccepted.entries, haccepted.dimensions, haccepted.stated⟩
  have hnonempty : rows ≠ [] := by
    have hlength := congrArg List.length hmap
    rw [List.length_map, List.length_map, (perm_sortedBy _ _).length_eq,
      ← (forall₂_of_mapM haccepted.entries).length_eq] at hlength
    intro hnil
    rw [hnil] at hlength
    exact readPromotion_fields haccepted.read (List.length_eq_zero_iff.mp hlength.symm)
  -- the stored fields are the requested ones in another order, and no two are of one key
  have hkeys : (rows.map FieldProvenanceRow.fieldKey).Nodup := by
    have hpairs : rows.Pairwise fun p q => p.fieldKey ≠ q.fieldKey := by
      have hall := hs'.numbered.oneAct.sublist (show rows.Sublist s'.provenance by
        rw [hrows]
        exact List.sublist_append_right _ _)
      refine hall.imp_of_mem fun hp hq hact => (hact ?_).2.2
      rw [(hof _ hp).2.2.2, (hof _ hq).2.2.2]
    exact List.pairwise_map.mpr hpairs
  have hstored : sameFields (s'.storedFields r.promotionKey) (requestedFields fields) = true := by
    unfold storedFields requestedFields
    rw [hpromoted]
    refine sameFields_of_perm ?_ ?_
    · refine ((List.reverse_perm _).trans ?_).trans (List.reverse_perm _).symm
      rw [hmap]
      exact (perm_sortedBy _ _).map _
    · rw [List.map_reverse, List.nodup_reverse, List.map_map]
      exact hkeys
  obtain ⟨first, more, rfl⟩ := List.exists_cons_of_ne_nil hnonempty
  refine ⟨r, candidate, fields, haccepted', by rw [hpromoted]; exact hnonempty, ?_⟩
  refine replayPromotion_eq_ok.mpr ⟨hstored, ?_, hkey, ?_⟩
  · rw [hpromoted, List.head?_cons, Option.bind_some, (hof first List.mem_cons_self).2.1]
    exact variant?_of_mem hs'.ids hv
  · rw [hpromoted]
    exact fun row hrow => (hof row hrow).1

theorem Change.answered (h : Change db s e s') (hanswered : Answered db s p v) : Answered db s' p v := by
  cases h with
  | kept e s' hsilent hmodels hvariants hprovenance hready =>
    have hstill : s.variants <+: s'.variants := hvariants ▸ List.prefix_refl _
    refine hanswered.of_prefix hready hstill fun key _ => ?_
    unfold promoted
    rw [hprovenance]
  | written call ids p' r candidate fields s' w hanswer haccepted hfresh hwritten =>
    obtain ⟨hcapture, hvariants, -⟩ := hwritten.facts
    refine hanswered.of_prefix (KeepsReady.of_eq s hcapture) hvariants fun key hstored => ?_
    exact hwritten.promoted_other hfresh hstored

/-- An accepted promotion is stored afterwards, whether it was before or not. -/
theorem answered_of_accepted {ids : NewIds} {answer : PromotionStore × ModelVariantRow} (hs : s.Sound)
    (h : s.promoteCatalogVariantGuarded db call ids p = .ok answer) : Answered db answer.1 p answer.2 := by
  obtain ⟨-, r, candidate, fields, haccepted, hanswer⟩ := promote_eq_ok.mp h
  by_cases hfresh : s.promoted r.promotionKey = []
  · rw [if_pos hfresh] at hanswer
    exact (written_of_writePromotion hanswer).answered hs haccepted hfresh
  · rw [if_neg hfresh] at hanswer
    obtain ⟨variant, hreplay, hanswer⟩ := except_bind_eq_ok.mp hanswer
    cases hanswer
    exact ⟨r, candidate, fields, haccepted, hfresh, hreplay⟩

/-! ## 4. Every run -/

/-- The step added the row. -/
def Writes (db : PromotionDatabase) (e : PromotionStore × PromotionEvent)
    (row : FieldProvenanceRow) : Prop :=
  ∃ rows, (e.1.perform db e.2).provenance = e.1.provenance ++ rows ∧ row ∈ rows

/-- The row was added by a promotion of its candidate by its run, and on a whole chain. -/
def Grounded (db : PromotionDatabase) (hist : List (PromotionStore × PromotionEvent))
    (row : FieldProvenanceRow) : Prop :=
  ∃ e ∈ hist, Writes db e row ∧ (∃ chain, Rests db (e.1.perform db e.2) row chain) ∧
    ∃ call ids p, e.2 = .promote call ids p ∧ row.runId = call.runId ∧
      rendered (p.member? "candidate_id".toList) = some row.candidateId

/-- Canonical promotion is sound, atomic and replayable. -/
structure PromotionHolds (db : PromotionDatabase) (hist : List (PromotionStore × PromotionEvent))
    (s : PromotionStore) : Prop where
  grounded : ∀ row ∈ s.provenance, Grounded db hist row
  oneScope : ∀ p ∈ s.provenance, ∀ q ∈ s.provenance, p.variantId = q.variantId →
    p.scope.same q.scope = true
  revisions : ∀ variantId fieldKey, (s.history variantId fieldKey).map FieldProvenanceRow.revision =
    List.range' 1 (s.history variantId fieldKey).length
  covered : ∀ v ∈ s.variants, ∀ key ∈ v.stated.map Prod.fst, s.Covers v key
  refused : ∀ e ∈ hist, ∀ call ids p message, e.2 = .promote call ids p →
    e.1.promoteCatalogVariantGuarded db call ids p = .error message →
    (e.1.perform db e.2).models = e.1.models ∧ (e.1.perform db e.2).variants = e.1.variants ∧
      (e.1.perform db e.2).provenance = e.1.provenance
  replayed : ∀ e ∈ hist, ∀ call ids p answer, e.2 = .promote call ids p →
    e.1.promoteCatalogVariantGuarded db call ids p = .ok answer →
    ∀ call' ids', s.capture.assertWorkerLease call' = .ok () →
      s.promoteCatalogVariantGuarded db call' ids' p = .ok (s, answer.2)

theorem Grounded.mono {hist hist' : List (PromotionStore × PromotionEvent)}
    {row : FieldProvenanceRow} (h : Grounded db hist row) (hsub : hist ⊆ hist') :
    Grounded db hist' row := by
  obtain ⟨e, he, hrow⟩ := h
  exact ⟨e, hsub he, hrow⟩

/-- Every row after a step was there before, or the step added it on a whole chain. -/
theorem Change.grounded (h : Change db s e (s.perform db e)) :
    ∀ row ∈ (s.perform db e).provenance, row ∈ s.provenance ∨ Grounded db [(s, e)] row := by
  generalize hs' : s.perform db e = s' at h
  cases h with
  | kept e s' hsilent hmodels hvariants hprovenance hready =>
    intro row hrow
    rw [hprovenance] at hrow
    exact .inl hrow
  | written call ids p r candidate fields s' v hanswer haccepted hfresh hwritten =>
    obtain ⟨-, -, -, rows, hrows, hof, hrests, -⟩ := hwritten.facts
    intro row hrow
    rw [hrows] at hrow
    rcases List.mem_append.mp hrow with hrow | hrow
    · exact .inl hrow
    · obtain ⟨id, hid, hcandidate⟩ := Option.bind_eq_some_iff.mp haccepted.found
      have hof' := hof row hrow
      refine .inr ⟨(s, .promote call ids p), List.mem_singleton_self _, ⟨rows, ?_, hrow⟩, ?_, call,
        ids, p, rfl, hof'.2.2.1, ?_⟩
      · rw [hs', hrows]
      · rw [hs']
        exact hrests row hrow
      · rw [hid, hof'.1, (mem_of_find?_id CapturedCandidate.id hcandidate).2]

variable {hist : List (PromotionStore × PromotionEvent)} {start : PromotionStore}

theorem run_sound (hvariants : start.variants = []) (hprovenance : start.provenance = [])
    (hrun : Run (PromotionStep db) start hist s) : s.Sound := by
  refine hrun.invariant ⟨⟨?_, ?_, ?_⟩, ?_, ?_, ?_⟩ fun m e m' hm hstep => ?_
  · simp [history, hprovenance]
  · simp [hprovenance]
  · simp [hprovenance]
  · simp [hvariants]
  · simp [hprovenance]
  · simp [hvariants]
  · obtain ⟨hallowed, rfl⟩ := hstep
    exact (change_perform hallowed).sound hm

theorem run_grounded (hprovenance : start.provenance = [])
    (hrun : Run (PromotionStep db) start hist s) : ∀ row ∈ s.provenance, Grounded db hist row := by
  refine hrun.history_invariant (J := fun hist m => ∀ row ∈ m.provenance, Grounded db hist row)
    (by simp [hprovenance]) ?_
  rintro hist m e m' - ih ⟨hallowed, rfl⟩ row hrow
  rcases (change_perform hallowed).grounded row hrow with hold | hnew
  · exact (ih row hold).mono (List.subset_append_left _ _)
  · exact hnew.mono (List.subset_append_right _ _)

theorem run_answered (hvariants : start.variants = []) (hprovenance : start.provenance = [])
    (hrun : Run (PromotionStep db) start hist s) :
    ∀ e ∈ hist, ∀ call ids p answer, e.2 = .promote call ids p →
      e.1.promoteCatalogVariantGuarded db call ids p = .ok answer → Answered db s p answer.2 := by
  refine hrun.history_invariant (J := fun hist m => ∀ e ∈ hist, ∀ call ids p answer,
    e.2 = .promote call ids p → e.1.promoteCatalogVariantGuarded db call ids p = .ok answer →
      Answered db m p answer.2) (fun e he => absurd he List.not_mem_nil) ?_
  rintro hist m e m' hpre ih ⟨hallowed, rfl⟩ e' he' call ids p answer hpromote hanswer
  rcases List.mem_append.mp he' with he' | he'
  · exact (change_perform hallowed).answered (ih e' he' call ids p answer hpromote hanswer)
  · cases List.mem_singleton.mp he'
    cases hpromote
    have hstored := answered_of_accepted (run_sound hvariants hprovenance hpre) hanswer
    rw [perform_of_promoted db m hanswer]
    exact hstored

/-- Whatever is promoted from an empty catalog, in whatever order with other writes, rests on whole
    chains, is numbered, complete and replayable. -/
theorem promotion_holds (hvariants : start.variants = []) (hprovenance : start.provenance = [])
    (hrun : Run (PromotionStep db) start hist s) : PromotionHolds db hist s where
  grounded := run_grounded hprovenance hrun
  oneScope := (run_sound hvariants hprovenance hrun).numbered.sameScope
  revisions := (run_sound hvariants hprovenance hrun).numbered.revisions
  covered := (run_sound hvariants hprovenance hrun).covered
  refused := by
    rintro ⟨m, e⟩ - call ids p message hpromote hrefused
    cases hpromote
    rw [perform_of_refused db m hrefused]
    exact ⟨rfl, rfl, rfl⟩
  replayed := by
    intro e he call ids p answer hpromote hanswer call' ids' hlease
    exact (run_answered hvariants hprovenance hrun e he call ids p answer hpromote hanswer).promote
      hlease ids'

/-! ### A promotion, and the same promotion after its evidence was withdrawn -/

open CaptureStore (registerDatabase captureRun callOf textMember)

def yearLocator : Text :=
  "[\"record_field\", \"cs1.0123456789abcdef0123456789abcdef:7\", [\"YEAR\"], null, null, null]".toList

def scalarColumn : Json → Jsonb
  | .int n => .number n 0
  | .str text => .str text
  | .bool b => .bool b
  | _ => .null

def vehicleDatabase : PromotionDatabase where
  toCaptureDatabase := registerDatabase
  column
    | .obj members => .obj (members.map fun member => (member.1, scalarColumn member.2))
    | value => scalarColumn value
  normalizedScopeText text := text
  canonicalLocator locator :=
    if locator = yearLocator then
      some ["record_field".toList, "cs1.0123456789abcdef0123456789abcdef:7".toList] else none

def vehicleSnapshot : SnapshotRow where
  createdByRunId := "a".toList
  retrieval := ⟨"government".toList, "cars".toList, "2026-09".toList, "dataset_version".toList, [], 1⟩
  trustState := "evidence".toList
  retrievedAt := 0
  retrievalMetadata := .obj []
  storedRecordCount := 1
  validationState := .complete
  activatedAt := some 1
  snapshotKey := "cs1.0123456789abcdef0123456789abcdef".toList

def vehicleRecord : RawRecordRow where
  id := "r1".toList
  snapshotId := "s".toList
  resourceId := "cars".toList
  upstreamRecordId := "7".toList
  payload := .obj []
  payloadSha256 := []
  recordKey := []
  sourceLocator := .null

def vehicleCandidate : CapturedCandidate where
  id := "c1".toList
  snapshotId := "s".toList
  rawRecordId := "r1".toList
  manufacturer := "Mazda".toList
  commercialModel := "3".toList
  modelYearStart := some 2026
  modelYearEnd := some 2026
  officialModelCode := none
  trim := none
  identityDimensions := .obj [textMember "fuel_type" "petrol"]
  status := readyForReview
  candidateKey := []

/-- A claim about the vehicle, by the name of its field. -/
def vehicleClaim (field : String) (value : Json) : ClaimRecord where
  reference :=
    { claimId := 'c' :: field.toList
      sourceId := "src".toList
      runId := "a".toList
      taskId := "t".toList
      entity := "cm1.0123456789abcdef0123456789abcdef:2026".toList
      field := field.toList
      geography := some "IL".toList
      market := some "IL".toList
      timeScope := [("model_year".toList, .int 2026)]
      value := value
      unit := none
      locator := some yearLocator
      sourceVersion := none
      identity := []
      confidence := ⟨false, 1, 0, PyFloat.normal_one⟩
      supported := true
      named := List.cons_ne_nil _ _ }
  status := "active".toList
  canonicalScopeHash := none
  scopeNormalizationVersion := none

def vehicleVerdict (field : String) (verdict : VerdictValue) (now : ℤ) : VerdictRecord where
  id := 'v' :: field.toList ++ verdict.text.toList
  runId := "a".toList
  claimId := 'c' :: field.toList
  evidenceKey := []
  verdict := verdict
  reason := ""
  mode := .deterministicStructured
  contractVersion := "1"
  createdAt := now
  supports := [⟨"f".toList, [], none⟩]

def vehicleLink (field : String) : EvidenceLinkRow where
  id := 'l' :: field.toList
  candidateId := "c1".toList
  snapshotId := "s".toList
  runId := "a".toList
  sourceId := "src".toList
  claimId := some ('c' :: field.toList)
  verdictId := some ('v' :: field.toList ++ VerdictValue.verified.text.toList)
  recordLocator := yearLocator
  sourceVersion := "2026-09".toList
  sourceVersionKind := "dataset_version".toList

def yearStart : String := "model_year_start"
def yearEnd : String := "model_year_end"
def fuelType : String := "identity_dimensions.fuel_type"

/-- A run with verified evidence for three fields of one vehicle, and nothing promoted. -/
def verifiedVehicle : PromotionStore where
  capture :=
    { runs := ⟨[("a".toList, captureRun .running "a" 90)], by decide⟩
      snapshots := ⟨[("s".toList, vehicleSnapshot)], by decide⟩
      rawRecords := [vehicleRecord]
      candidates := [vehicleCandidate]
      adoptions := [] }
  evidence :=
    { claims := [vehicleClaim yearStart (.int 2026), vehicleClaim yearEnd (.int 2026),
        vehicleClaim fuelType (.str "petrol".toList)]
      sources := [⟨"src".toList, "a".toList, "t".toList⟩]
      fragments := []
      verdicts := [vehicleVerdict yearStart .verified 1, vehicleVerdict yearEnd .verified 1,
        vehicleVerdict fuelType .verified 1]
      conflicts := []
      resolutions := [] }
  links := [vehicleLink yearStart, vehicleLink yearEnd, vehicleLink fuelType]
  models := []
  variants := []
  provenance := []

def promotedEntry (field : String) (value : Jsonb) : Jsonb :=
  .obj [textMember "field_key" field, ("value".toList, value),
    ("evidence_link_id".toList, .str ('l' :: field.toList))]

/-- The promotion of the vehicle under a key, with the dimensions it states. -/
def vehiclePromotion (promotionKey : String) (dimensions : List (Text × Jsonb))
    (more : List Jsonb) : Jsonb :=
  .obj [textMember "candidate_id" "c1", textMember "promotion_key" promotionKey,
    textMember "canonical_key" "cv1.0123456789abcdef0123456789abcdef",
    textMember "model_canonical_key" "cm1.0123456789abcdef0123456789abcdef",
    textMember "manufacturer" "Mazda", textMember "commercial_model" "3",
    ("model_year_start".toList, .number 2026 0), ("model_year_end".toList, .number 2026 0),
    ("identity_dimensions".toList, .obj dimensions),
    ("fields".toList, .arr (promotedEntry yearStart (.number 2026 0) ::
      promotedEntry yearEnd (.number 2026 0) :: more))]

def yearsPromotion : Jsonb := vehiclePromotion "cp1.0123456789abcdef0123456789abcdef" [] []

/-- The promotion is made, a verifier rejects one of its claims, and the promotion is repeated. -/
def repeatedPromotion : List PromotionEvent :=
  [.promote (callOf "a" 1) ⟨"m".toList, "v".toList⟩ yearsPromotion,
    .evidence { verifiedVehicle.evidence with
      verdicts := vehicleVerdict yearStart .rejected 2 :: verifiedVehicle.evidence.verdicts },
    .promote (callOf "a" 3) ⟨"m2".toList, "v2".toList⟩ yearsPromotion]

theorem promotion_holds_repeatedPromotion :
    ∃ hist s, PromotionHolds vehicleDatabase hist s ∧ hist.map Prod.snd = repeatedPromotion ∧
      s.provenance.length = 2 ∧ s.variants.length = 1 := by
  have hrun : Run (PromotionStep vehicleDatabase) verifiedVehicle _ _ :=
    run_performed repeatedPromotion verifiedVehicle fun e he => by
      have hmem := mem_of_mem_performed he
      simp only [repeatedPromotion, List.mem_cons, List.not_mem_nil, or_false] at hmem
      rcases hmem with h | h | h <;> rw [h] <;> trivial
  exact ⟨_, _, promotion_holds rfl rfl hrun, rfl, by decide +kernel, by decide +kernel⟩

end PromotionStore

end Milo.Catalog
