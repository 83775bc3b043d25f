import Milo.Swarm.OneMeaning
import Milo.Swarm.Structured

/-!
# FactNames — a structured comparison and the names of its facts

Of several facts that state one quantity for the claim's scope the one with the smallest `fact_id` is
compared.  The names do not show as long as facts of one identity compare alike, which they do unless a
string shares its identity with the value it spells.
-/

namespace Milo.Swarm

open Milo.Python Milo.Reasoning

/-! ## 1. Facts of one identity -/

section OneIdentity

variable {u : Unicode} {c v w : Json} {claimUnit unit unit' : Option (List Char)}

variable {left right : Option (List Char)} {family : String}

theorem compareNumbers_ne_notComparable : compareNumbers v left w right ≠ .valueNotComparable := by
  unfold compareNumbers
  split
  · decide
  · dsimp only
    split
    · decide
    · split <;> decide

theorem compareOthers_ne_notComparable : compareOthers u v left w right ≠ .valueNotComparable := by
  unfold compareOthers
  split
  · decide
  · split <;> split <;> decide

/-- Numbers in units of one family are compared in its base unit. -/
theorem compareNumbers_in_base {factor factor' : ℚ} (hleft : unitFactor left = some (family, factor))
    (hright : unitFactor right = some (family, factor')) :
    compareNumbers v left w right =
      if exactValue v * factor = exactValue w * factor' then .structuredMatch else .valueMismatch := by
  have hpresent : ¬(left = none ∨ right = none) := by
    intro h
    rcases h with h | h
    · rw [h] at hleft
      cases hleft
    · rw [h] at hright
      cases hright
  unfold compareNumbers
  rw [if_neg hpresent]
  by_cases hunit : left = right
  · -- one unit, so one factor, which cancels
    have hfactor : factor = factor' := by
      rw [hunit, hright, Option.some.injEq, Prod.mk.injEq] at hleft
      exact hleft.2.symm
    have hpositive := unitFactor_pos hright
    rw [if_neg (not_not.mpr hunit), hfactor]
    simp only [mul_one, mul_left_inj' hpositive.ne']
  · rw [if_pos hunit, hleft, hright]
    simp

/-- A number in a unit of another family, or of none, does not convert. -/
theorem compareNumbers_foreign {factor : ℚ} (hpresent : left ≠ none)
    (hright : unitFactor right = some (family, factor)) (hforeign : ∀ k, unitFactor left ≠ some (family, k)) :
    compareNumbers v left w right = .unitNotConvertible := by
  have hunits : ¬(left = none ∨ right = none) := by
    intro h
    rcases h with h | h
    · exact hpresent h
    · rw [h] at hright
      cases hright
  have hne : left ≠ right := by
    intro heq
    exact hforeign factor (heq ▸ hright)
  unfold compareNumbers
  rw [if_neg hunits, if_pos hne, hright]
  cases hleft : unitFactor left with
  | none => rfl
  | some rule =>
    have hfamily : rule.1 ≠ family := fun heq => hforeign rule.2 (by rw [hleft, ← heq])
    simp [hfamily]

theorem compareNumbers_unitMissing : compareNumbers v none w right = .unitMissing := by
  unfold compareNumbers
  rw [if_pos (Or.inl rfl)]

/-- Quantities that are the same statement compare alike to any number. -/
theorem compareNumbers_congr {normalized : Option (List Char)} {family' : String} {factor factor' : ℚ}
    (hv : unitFactor (normalizeUnit u unit) = some (family, factor))
    (hw : unitFactor (normalizeUnit u unit') = some (family', factor')) (hfamily : family = family')
    (hbase : exactValue v * factor = exactValue w * factor') :
    compareNumbers c normalized v (normalizeUnit u unit) =
      compareNumbers c normalized w (normalizeUnit u unit') := by
  subst hfamily
  by_cases hpresent : normalized = none
  · rw [hpresent, compareNumbers_unitMissing, compareNumbers_unitMissing]
  · by_cases hfactor : ∃ k, unitFactor normalized = some (family, k)
    · obtain ⟨k, hk⟩ := hfactor
      rw [compareNumbers_in_base hk hv, compareNumbers_in_base hk hw, hbase]
    · rw [not_exists] at hfactor
      rw [compareNumbers_foreign hpresent hv hfactor, compareNumbers_foreign hpresent hw hfactor]

theorem compareOthers_of_units (hne : left ≠ right) : compareOthers u v left w right = .unitNotConvertible := by
  unfold compareOthers
  rw [if_pos hne]

theorem compareOthers_or (hunit : left = right) :
    compareOthers u v left w right = .structuredMatch ∨ compareOthers u v left w right = .valueMismatch := by
  unfold compareOthers
  rw [if_neg (not_not.mpr hunit)]
  split <;> split <;> simp

/-- What is not a number is compared by its unit, its text and whether it is a string. -/
theorem compareOthers_congr
    (h : (opaqueText u c = opaqueText u v ∧ ((∃ s, c = .str s) ↔ ∃ s, v = .str s)) ↔
      opaqueText u c = opaqueText u w ∧ ((∃ s, c = .str s) ↔ ∃ s, w = .str s)) :
    compareOthers u c left v right = compareOthers u c left w right := by
  by_cases hunit : left = right
  · have hv : compareOthers u c left v right = .structuredMatch ↔ _ := compareOthers_iff
    have hw : compareOthers u c left w right = .structuredMatch ↔ _ := compareOthers_iff
    have hsame := hv.trans (((and_congr_right fun _ => h)).trans hw.symm)
    by_cases hmatch : compareOthers u c left v right = .structuredMatch
    · rw [hmatch, hsame.mp hmatch]
    · rw [(compareOthers_or hunit).resolve_left hmatch,
        (compareOthers_or hunit).resolve_left fun hmatch' => hmatch (hsame.mpr hmatch')]
  · rw [compareOthers_of_units hunit, compareOthers_of_units hunit]

/-- Statements of one identity are both quantities or neither is. -/
theorem isQuantity_iff (h : valueIdentity u v unit = valueIdentity u w unit') :
    IsQuantity u v unit ↔ IsQuantity u w unit' := by
  constructor
  · intro hv
    by_contra hw
    exact (quantity_apart hv hw).1 h
  · intro hw
    by_contra hv
    exact (apart_quantity hv hw).1 h

theorem IsQuantity.compare_eq (hv : IsQuantity u v unit) (hw : IsQuantity u w unit')
    (h : valueIdentity u v unit = valueIdentity u w unit') :
    compareValues u c claimUnit v unit = compareValues u c claimUnit w unit' := by
  cases hc : c.isNumber with
  | false =>
    rw [compareValues_mixed (by rw [hc, hv.1]; decide), compareValues_mixed (by rw [hc, hw.1]; decide)]
  | true =>
    obtain ⟨family, factor, hfactor⟩ := hv.factor
    obtain ⟨family', factor', hfactor'⟩ := hw.factor
    rw [valueIdentity_quantity hv.1 hfactor, valueIdentity_quantity hw.1 hfactor',
      QuantityIdentity.mk.injEq, fractionText_inj, String.toList_inj] at h
    rw [compareValues_numbers hc hv.1, compareValues_numbers hc hw.1]
    exact compareNumbers_congr hfactor hfactor' h.2.1 h.2.2

/-- A claim that is not a number states an opaque identity exactly in its unit and with its text. -/
theorem identity_eq_iff (hc : c.isNumber = false) (hv : ¬IsQuantity u v unit) :
    valueIdentity u c claimUnit = valueIdentity u v unit ↔
      normalizeUnit u claimUnit = normalizeUnit u unit ∧ opaqueText u c = opaqueText u v := by
  apply opaque_identities _ hv
  intro hquantity
  have hnumber := hquantity.1
  rw [hc] at hnumber
  cases hnumber

/-- Opaque statements of one identity compare alike, if they are strings or are not, or if neither is a
    number and the claim states something else. -/
theorem opaque_compare_eq (hv : ¬IsQuantity u v unit) (hw : ¬IsQuantity u w unit')
    (h : valueIdentity u v unit = valueIdentity u w unit')
    (hkinds : ((∃ s, v = .str s) ↔ ∃ s, w = .str s) ∨
      v.isNumber = false ∧ w.isNumber = false ∧
        valueIdentity u c claimUnit ≠ valueIdentity u v unit) :
    compareValues u c claimUnit v unit = compareValues u c claimUnit w unit' := by
  have hsame := (opaque_identities hv hw).mp h
  have hnumbers : v.isNumber = w.isNumber := by
    rcases hkinds with hkind | ⟨hvn, hwn, _⟩
    · exact isNumber_of_opaqueText hkind hsame.2
    · rw [hvn, hwn]
  by_cases hc : c.isNumber = v.isNumber
  · cases hnumber : v.isNumber with
    | true =>
      have hwn : w.isNumber = true := hnumbers ▸ hnumber
      rw [compareValues_numbers (hc.trans hnumber) hnumber, compareValues_numbers (hc.trans hnumber) hwn,
        hsame.1, eq_of_opaqueText hnumber hwn hsame.2]
    | false =>
      have hcn : c.isNumber = false := hc.trans hnumber
      rw [compareValues_others hcn hnumber, compareValues_others hcn (hnumbers ▸ hnumber), hsame.1]
      rcases hkinds with hkind | ⟨_, _, hapart⟩
      · apply compareOthers_congr
        rw [hsame.2, hkind]
      · -- the claim has another unit or another text
        by_cases hunit : normalizeUnit u claimUnit = normalizeUnit u unit
        · have htext : opaqueText u c ≠ opaqueText u v := by
            intro htext
            exact hapart ((identity_eq_iff hcn hv).mpr ⟨hunit, htext⟩)
          apply compareOthers_congr
          rw [← hsame.2]
          exact iff_of_false (fun heq => htext heq.1) (fun heq => htext heq.1)
        · rw [← hsame.1, compareOthers_of_units hunit, compareOthers_of_units hunit]
  · rw [compareValues_mixed hc, compareValues_mixed (hnumbers ▸ hc)]

/-- A string and a value that is not one share an identity, and the claim tells them apart: the value is
    a number, or the claim states that identity. -/
def ToldApart (u : Unicode) (c : Json) (claimUnit : Option (List Char)) (v : Json)
    (unit : Option (List Char)) (w : Json) : Prop :=
  (∃ s, v = .str s) ∧ (∀ s, w ≠ .str s) ∧
    (w.isNumber = true ∨ valueIdentity u c claimUnit = valueIdentity u v unit)

theorem plain_of_not_toldApart (hv : ∃ s, v = .str s) (hw : ∀ s, w ≠ .str s)
    (h : ¬ToldApart u c claimUnit v unit w) :
    v.isNumber = false ∧ w.isNumber = false ∧ valueIdentity u c claimUnit ≠ valueIdentity u v unit := by
  obtain ⟨s, rfl⟩ := hv
  refine ⟨rfl, ?_, ?_⟩
  · by_contra hnumber
    rw [Bool.not_eq_false] at hnumber
    exact h ⟨⟨s, rfl⟩, hw, Or.inl hnumber⟩
  · exact fun heq => h ⟨⟨s, rfl⟩, hw, Or.inr heq⟩

/-- Statements of one identity compare alike to a claim that does not tell them apart. -/
theorem compareValues_eq_of_identity (h : valueIdentity u v unit = valueIdentity u w unit')
    (hapart : ¬ToldApart u c claimUnit v unit w) (hapart' : ¬ToldApart u c claimUnit w unit' v) :
    compareValues u c claimUnit v unit = compareValues u c claimUnit w unit' := by
  by_cases hv : IsQuantity u v unit
  · exact hv.compare_eq ((isQuantity_iff h).mp hv) h
  · apply opaque_compare_eq hv (fun hw => hv ((isQuantity_iff h).mpr hw)) h
    by_cases hvs : ∃ s, v = .str s <;> by_cases hws : ∃ s, w = .str s
    · exact Or.inl (iff_of_true hvs hws)
    · exact Or.inr (plain_of_not_toldApart hvs (fun s hs => hws ⟨s, hs⟩) hapart)
    · have hplain := plain_of_not_toldApart hws (fun s hs => hvs ⟨s, hs⟩) hapart'
      rw [h]
      exact Or.inr ⟨hplain.2.1, hplain.1, hplain.2.2⟩
    · exact Or.inl (iff_of_false hvs hws)

/-- A claim that tells two statements of one identity apart compares differently to them. -/
theorem compareValues_ne_of_toldApart (h : valueIdentity u v unit = valueIdentity u w unit')
    (hapart : ToldApart u c claimUnit v unit w) :
    compareValues u c claimUnit v unit ≠ compareValues u c claimUnit w unit' := by
  obtain ⟨⟨s, rfl⟩, hplain, hor⟩ := hapart
  have hw : ¬IsQuantity u w unit' := fun hw => string_is_opaque ((isQuantity_iff h).mpr hw)
  have hsame := (opaque_identities string_is_opaque hw).mp h
  by_cases hnumber : w.isNumber = true
  · have hs : (Json.str s).isNumber = false := rfl
    cases hc : c.isNumber with
    | true =>
      have hmixed : c.isNumber ≠ (Json.str s).isNumber := by rw [hc, hs]; decide
      rw [compareValues_mixed hmixed, compareValues_numbers hc hnumber]
      exact fun heq => compareNumbers_ne_notComparable heq.symm
    | false =>
      have hmixed : c.isNumber ≠ w.isNumber := by rw [hc, hnumber]; decide
      rw [compareValues_mixed hmixed, compareValues_others hc hs]
      exact compareOthers_ne_notComparable
  · rw [Bool.not_eq_true] at hnumber
    have hidentity := hor.resolve_left (by rw [hnumber]; decide)
    have hc : c.isNumber = false := by
      by_contra hc
      rw [Bool.not_eq_false] at hc
      have hcq : ¬IsQuantity u c claimUnit := fun hq => string_is_opaque ((isQuantity_iff hidentity).mp hq)
      have htext := ((opaque_identities hcq hw).mp (hidentity.trans h)).2
      rw [opaqueText_of_not_string (not_string_of_number hc), opaqueText_of_not_string hplain] at htext
      have hkind := (same_kind_of_dumps htext).1
      rw [hc, hnumber] at hkind
      cases hkind
    have hstated := (identity_eq_iff hc string_is_opaque).mp hidentity
    rw [compareValues_others hc rfl, compareValues_others hc hnumber, ← hsame.1, ← hstated.1]
    intro heq
    -- a string claim matches the string, another claim the other value
    by_cases hcs : ∃ t, c = .str t
    · have hmatch : compareOthers u c (normalizeUnit u claimUnit) (.str s) (normalizeUnit u claimUnit) =
          .structuredMatch := compareOthers_iff.mpr ⟨rfl, hstated.2, iff_of_true hcs ⟨s, rfl⟩⟩
      rw [heq] at hmatch
      obtain ⟨t, ht⟩ := (compareOthers_iff.mp hmatch).2.2.mp hcs
      exact hplain t ht
    · have hnone : ¬∃ t, w = .str t := fun ⟨t, ht⟩ => hplain t ht
      have hmatch : compareOthers u c (normalizeUnit u claimUnit) w (normalizeUnit u claimUnit) =
          .structuredMatch :=
        compareOthers_iff.mpr ⟨rfl, hstated.2.trans hsame.2, iff_of_false hcs hnone⟩
      rw [← heq] at hmatch
      exact hcs ((compareOthers_iff.mp hmatch).2.2.mpr ⟨s, rfl⟩)

end OneIdentity

/-! ## 2. The facts that are compared -/

section Facts

/-- The located facts of the claim's complete scope. -/
def exactFacts (u : Unicode) (reference : EvidenceReference) (facts : List StructuredSourceFact) :
    List StructuredSourceFact :=
  facts.filter fun fact => fact.located && decide (fact.scopeIdentity u = referenceIdentity u reference)

/-- The outcome and the reason of a comparison. -/
def comparisonAnswer (u : Unicode) (reference : EvidenceReference) (facts : List StructuredSourceFact)
    (claimSourceVersion sourceVersion : Option Text) : Outcome × ComparisonReason :=
  ((compareStructured u reference facts claimSourceVersion sourceVersion).outcome,
    (compareStructured u reference facts claimSourceVersion sourceVersion).reason)

/-- Other names for facts. -/
structure FactNaming where
  name : Text → Text
  injective : Function.Injective name
  stated : ∀ factId, factId ≠ [] → name factId ≠ []

def FactNaming.rename (naming : FactNaming) (fact : StructuredSourceFact) : StructuredSourceFact :=
  { fact with
    factId := naming.name fact.factId
    named := ⟨naming.stated _ fact.named.1, fact.named.2⟩ }

/-- The answer depends neither on the order of the facts nor on their names, and of several facts that
    share the claim's scope and one quantity any gives it. -/
structure NameFree (u : Unicode) (reference : EvidenceReference) (facts : List StructuredSourceFact)
    (claimSourceVersion sourceVersion : Option Text) : Prop where
  ordered : ∀ others, facts.Perm others →
    comparisonAnswer u reference others claimSourceVersion sourceVersion =
      comparisonAnswer u reference facts claimSourceVersion sourceVersion
  renamed : ∀ naming : FactNaming,
    comparisonAnswer u reference (facts.map naming.rename) claimSourceVersion sourceVersion =
      comparisonAnswer u reference facts claimSourceVersion sourceVersion
  whichever : (∀ f ∈ exactFacts u reference facts, ∀ g ∈ exactFacts u reference facts,
      f.statedValue u = g.statedValue u) → ∀ fact ∈ exactFacts u reference facts,
    comparisonAnswer u reference [fact] claimSourceVersion sourceVersion =
      comparisonAnswer u reference facts claimSourceVersion sourceVersion

/-- No string among the facts of one quantity stands beside a number, or beside another value if the claim
    states that quantity. -/
def StringsApart (u : Unicode) (reference : EvidenceReference) (facts : List StructuredSourceFact) : Prop :=
  (∀ f ∈ exactFacts u reference facts, ∀ g ∈ exactFacts u reference facts,
      f.statedValue u = g.statedValue u) →
    ∀ f ∈ exactFacts u reference facts, ∀ g ∈ exactFacts u reference facts,
      ¬ToldApart u reference.value reference.unit f.value f.unit g.value

variable {u : Unicode} {reference : EvidenceReference} {facts others : List StructuredSourceFact}
  {fact : StructuredSourceFact} {claimSourceVersion sourceVersion : Option Text}

theorem mem_exactFacts : fact ∈ exactFacts u reference facts ↔
    fact ∈ facts ∧ fact.located = true ∧ fact.scopeIdentity u = referenceIdentity u reference := by
  unfold exactFacts
  rw [List.mem_filter, Bool.and_eq_true, decide_eq_true_eq]

theorem candidates_eq (facts : List StructuredSourceFact) :
    ((facts.filter StructuredSourceFact.located).filter fun fact =>
        decide ((fact.scopeIdentity u).scope.field = (referenceIdentity u reference).scope.field)).filter
      (fun fact => decide (fact.scopeIdentity u = referenceIdentity u reference)) =
    exactFacts u reference facts := by
  unfold exactFacts
  rw [List.filter_filter, List.filter_filter]
  apply List.filter_congr
  intro fact _
  by_cases hscope : fact.scopeIdentity u = referenceIdentity u reference <;> simp [hscope]

theorem answer_stale (hversion : claimSourceVersion ≠ none ∧ claimSourceVersion ≠ sourceVersion)
    (facts : List StructuredSourceFact) :
    comparisonAnswer u reference facts claimSourceVersion sourceVersion =
      (.mismatch, .sourceVersionMismatch) := by
  unfold comparisonAnswer compareStructured
  rw [if_pos hversion]

theorem compareStructured_exact (hversion : ¬(claimSourceVersion ≠ none ∧ claimSourceVersion ≠ sourceVersion))
    (hexact : exactFacts u reference facts ≠ []) :
    compareStructured u reference facts claimSourceVersion sourceVersion =
      compareCandidates u reference (exactFacts u reference facts) := by
  obtain ⟨fact, hfact⟩ := List.exists_mem_of_ne_nil _ hexact
  have hmem := mem_exactFacts.mp hfact
  have hlocated : facts.filter StructuredSourceFact.located ≠ [] :=
    List.ne_nil_of_mem (List.mem_filter.mpr ⟨hmem.1, hmem.2.1⟩)
  have hfield : ((facts.filter StructuredSourceFact.located).filter fun fact =>
      decide ((fact.scopeIdentity u).scope.field = (referenceIdentity u reference).scope.field)) ≠ [] := by
    apply List.ne_nil_of_mem (a := fact)
    rw [List.mem_filter, hmem.2.2]
    exact ⟨List.mem_filter.mpr ⟨hmem.1, hmem.2.1⟩, decide_eq_true rfl⟩
  unfold compareStructured
  dsimp only
  rw [if_neg hversion, if_neg hlocated, if_neg hfield, candidates_eq, if_neg hexact]

/-- Two quantities for one scope are ambiguous, whatever the claim states. -/
theorem answer_ambiguous (h : ¬∀ f ∈ facts, ∀ g ∈ facts, f.statedValue u = g.statedValue u) :
    compareCandidates u reference facts = ⟨.ambiguous, .ambiguousSourceFact, none⟩ := by
  have hlength : 1 < (facts.map fun fact => fact.statedValue u).dedup.length := by
    push Not at h
    obtain ⟨f, hf, g, hg, hne⟩ := h
    exact one_lt_length_dedup.mpr ⟨_, List.mem_map_of_mem hf, _, List.mem_map_of_mem hg, hne⟩
  unfold compareCandidates
  rw [if_pos hlength]

def decided (reason : ComparisonReason) : Outcome × ComparisonReason :=
  (if reason = .structuredMatch then .match else .mismatch, reason)

theorem answer_one (reference : EvidenceReference)
    (h : ∀ f ∈ facts, ∀ g ∈ facts, f.statedValue u = g.statedValue u) (hne : facts ≠ []) :
    ∃ fact ∈ facts,
      ((compareCandidates u reference facts).outcome, (compareCandidates u reference facts).reason) =
        decided (compareValues u reference.value reference.unit fact.value fact.unit) := by
  have hlength : ¬1 < (facts.map fun fact => fact.statedValue u).dedup.length := by
    intro hlong
    obtain ⟨a, ha, b, hb, hne⟩ := one_lt_length_dedup.mp hlong
    obtain ⟨f, hf, rfl⟩ := List.mem_map.mp ha
    obtain ⟨g, hg, rfl⟩ := List.mem_map.mp hb
    exact hne (h f hf g hg)
  cases hhead : (sortOn StructuredSourceFact.factId facts).head? with
  | none =>
    rw [List.head?_eq_none_iff] at hhead
    have hperm := perm_sortOn StructuredSourceFact.factId facts
    rw [hhead] at hperm
    exact absurd hperm.symm.eq_nil hne
  | some fact =>
    refine ⟨fact, mem_sortOn.mp (List.mem_of_mem_head? hhead), ?_⟩
    unfold compareCandidates
    rw [if_neg hlength, hhead]
    rfl

/-- Facts that differ in no more than their name, source and task. -/
structure Alike (u : Unicode) (f g : StructuredSourceFact) : Prop where
  located : g.located = f.located
  scope : g.scopeIdentity u = f.scopeIdentity u
  value : g.value = f.value
  unit : g.unit = f.unit

/-- Two lists state the same facts. -/
structure Restates (u : Unicode) (facts others : List StructuredSourceFact) : Prop where
  forth : ∀ f ∈ facts, ∃ g ∈ others, Alike u f g
  back : ∀ g ∈ others, ∃ f ∈ facts, Alike u f g

theorem Alike.refl (u : Unicode) (f : StructuredSourceFact) : Alike u f f := ⟨rfl, rfl, rfl, rfl⟩

theorem restates_perm (hperm : facts.Perm others) : Restates u facts others where
  forth := fun f hf => ⟨f, hperm.mem_iff.mp hf, Alike.refl u f⟩
  back := fun f hf => ⟨f, hperm.mem_iff.mpr hf, Alike.refl u f⟩

theorem restates_rename (naming : FactNaming) : Restates u facts (facts.map naming.rename) where
  forth := fun f hf => ⟨naming.rename f, List.mem_map_of_mem hf, ⟨rfl, rfl, rfl, rfl⟩⟩
  back := by
    intro g hg
    obtain ⟨f, hf, rfl⟩ := List.mem_map.mp hg
    exact ⟨f, hf, ⟨rfl, rfl, rfl, rfl⟩⟩

theorem Restates.exact (h : Restates u facts others) (reference : EvidenceReference) :
    Restates u (exactFacts u reference facts) (exactFacts u reference others) where
  forth := by
    intro f hf
    have hmem := mem_exactFacts.mp hf
    obtain ⟨g, hg, halike⟩ := h.forth f hmem.1
    exact ⟨g, mem_exactFacts.mpr ⟨hg, halike.located.trans hmem.2.1, halike.scope.trans hmem.2.2⟩, halike⟩
  back := by
    intro g hg
    have hmem := mem_exactFacts.mp hg
    obtain ⟨f, hf, halike⟩ := h.back g hmem.1
    exact ⟨f, mem_exactFacts.mpr
      ⟨hf, halike.located.symm.trans hmem.2.1, halike.scope.symm.trans hmem.2.2⟩, halike⟩

theorem Restates.located (h : Restates u facts others) :
    Restates u (facts.filter StructuredSourceFact.located) (others.filter StructuredSourceFact.located) where
  forth := by
    intro f hf
    have hmem := List.mem_filter.mp hf
    obtain ⟨g, hg, halike⟩ := h.forth f hmem.1
    exact ⟨g, List.mem_filter.mpr ⟨hg, halike.located.trans hmem.2⟩, halike⟩
  back := by
    intro g hg
    have hmem := List.mem_filter.mp hg
    obtain ⟨f, hf, halike⟩ := h.back g hmem.1
    exact ⟨f, List.mem_filter.mpr ⟨hf, halike.located.symm.trans hmem.2⟩, halike⟩

theorem Restates.scoped (h : Restates u facts others) (p : ScopeIdentity → Bool) :
    Restates u (facts.filter fun fact => p (fact.scopeIdentity u))
      (others.filter fun fact => p (fact.scopeIdentity u)) where
  forth := by
    intro f hf
    have hmem := List.mem_filter.mp hf
    obtain ⟨g, hg, halike⟩ := h.forth f hmem.1
    exact ⟨g, List.mem_filter.mpr ⟨hg, halike.scope ▸ hmem.2⟩, halike⟩
  back := by
    intro g hg
    have hmem := List.mem_filter.mp hg
    obtain ⟨f, hf, halike⟩ := h.back g hmem.1
    exact ⟨f, List.mem_filter.mpr ⟨hf, halike.scope ▸ hmem.2⟩, halike⟩

theorem Restates.eq_nil_iff (h : Restates u facts others) : facts = [] ↔ others = [] := by
  constructor
  · intro hnil
    apply List.eq_nil_iff_forall_not_mem.mpr
    intro g hg
    obtain ⟨f, hf, _⟩ := h.back g hg
    rw [hnil] at hf
    cases hf
  · intro hnil
    apply List.eq_nil_iff_forall_not_mem.mpr
    intro f hf
    obtain ⟨g, hg, _⟩ := h.forth f hf
    rw [hnil] at hg
    cases hg

theorem Restates.any_eq (h : Restates u facts others) (p : ScopeIdentity → Bool) :
    (facts.any fun fact => p (fact.scopeIdentity u)) = others.any fun fact => p (fact.scopeIdentity u) := by
  rw [Bool.eq_iff_iff, List.any_eq_true, List.any_eq_true]
  constructor
  · rintro ⟨f, hf, hp⟩
    obtain ⟨g, hg, halike⟩ := h.forth f hf
    exact ⟨g, hg, halike.scope ▸ hp⟩
  · rintro ⟨g, hg, hp⟩
    obtain ⟨f, hf, halike⟩ := h.back g hg
    exact ⟨f, hf, halike.scope ▸ hp⟩

theorem Restates.share (h : Restates u facts others)
    (hshare : ∀ f ∈ facts, ∀ g ∈ facts, f.statedValue u = g.statedValue u) :
    ∀ f ∈ others, ∀ g ∈ others, f.statedValue u = g.statedValue u := by
  intro f hf g hg
  obtain ⟨f', hf', halike⟩ := h.back f hf
  obtain ⟨g', hg', halike'⟩ := h.back g hg
  have hsame := hshare f' hf' g' hg'
  unfold StructuredSourceFact.statedValue at hsame ⊢
  rw [halike.value, halike.unit, halike'.value, halike'.unit, hsame]

theorem Restates.symm (h : Restates u facts others) : Restates u others facts where
  forth := fun g hg => by
    obtain ⟨f, hf, halike⟩ := h.back g hg
    exact ⟨f, hf, ⟨halike.located.symm, halike.scope.symm, halike.value.symm, halike.unit.symm⟩⟩
  back := fun f hf => by
    obtain ⟨g, hg, halike⟩ := h.forth f hf
    exact ⟨g, hg, ⟨halike.located.symm, halike.scope.symm, halike.value.symm, halike.unit.symm⟩⟩

/-- Without an exact fact only the scopes of the facts are read. -/
theorem answer_inexact (h : Restates u facts others) (hnone : exactFacts u reference facts = []) :
    comparisonAnswer u reference others claimSourceVersion sourceVersion =
      comparisonAnswer u reference facts claimSourceVersion sourceVersion := by
  have hnone' := (h.exact reference).eq_nil_iff.mp hnone
  have hfield := h.located.scoped fun scope =>
    decide (scope.scope.field = (referenceIdentity u reference).scope.field)
  have hany := hfield.any_eq fun scope => decide (scope.scope = (referenceIdentity u reference).scope)
  unfold comparisonAnswer compareStructured
  dsimp only
  rw [candidates_eq, candidates_eq, hnone, hnone', ← hany]
  simp only [← h.located.eq_nil_iff, ← hfield.eq_nil_iff]

/-- Where strings stand apart any exact fact gives the answer. -/
theorem answer_exact (hversion : ¬(claimSourceVersion ≠ none ∧ claimSourceVersion ≠ sourceVersion))
    (hapart : StringsApart u reference facts)
    (hshare : ∀ f ∈ exactFacts u reference facts, ∀ g ∈ exactFacts u reference facts,
      f.statedValue u = g.statedValue u) (hfact : fact ∈ exactFacts u reference facts) :
    comparisonAnswer u reference facts claimSourceVersion sourceVersion =
      decided (compareValues u reference.value reference.unit fact.value fact.unit) := by
  have hne := List.ne_nil_of_mem hfact
  obtain ⟨other, hother, hdecides⟩ := answer_one reference hshare hne
  unfold comparisonAnswer
  rw [compareStructured_exact hversion hne, hdecides]
  congr 1
  exact compareValues_eq_of_identity (hshare other hother fact hfact) (hapart hshare other hother fact hfact)
    (hapart hshare fact hfact other hother)

theorem StringsApart.congr (hapart : StringsApart u reference facts) (h : Restates u facts others) :
    StringsApart u reference others := by
  have hexact := h.exact reference
  intro hshare f hf g hg
  obtain ⟨f', hf', halike⟩ := hexact.back f hf
  obtain ⟨g', hg', halike'⟩ := hexact.back g hg
  have htold := hapart (hexact.symm.share hshare) f' hf' g' hg'
  rw [← halike.value, ← halike.unit, ← halike'.value] at htold
  exact htold

theorem answer_congr (hapart : StringsApart u reference facts) (h : Restates u facts others) :
    comparisonAnswer u reference others claimSourceVersion sourceVersion =
      comparisonAnswer u reference facts claimSourceVersion sourceVersion := by
  by_cases hversion : claimSourceVersion ≠ none ∧ claimSourceVersion ≠ sourceVersion
  · rw [answer_stale hversion, answer_stale hversion]
  · by_cases hnone : exactFacts u reference facts = []
    · exact answer_inexact h hnone
    · have hexact := h.exact reference
      obtain ⟨fact, hfact⟩ := List.exists_mem_of_ne_nil _ hnone
      obtain ⟨other, hother, halike⟩ := hexact.forth fact hfact
      by_cases hshare : ∀ f ∈ exactFacts u reference facts, ∀ g ∈ exactFacts u reference facts,
          f.statedValue u = g.statedValue u
      · rw [answer_exact hversion hapart hshare hfact,
          answer_exact hversion (hapart.congr h) (hexact.share hshare) hother, halike.value, halike.unit]
      · have hshare' : ¬∀ f ∈ exactFacts u reference others, ∀ g ∈ exactFacts u reference others,
            f.statedValue u = g.statedValue u := fun hall => hshare (hexact.symm.share hall)
        unfold comparisonAnswer
        rw [compareStructured_exact hversion hnone,
          compareStructured_exact hversion (List.ne_nil_of_mem hother), answer_ambiguous hshare,
          answer_ambiguous hshare']

theorem exactFacts_singleton (hfact : fact ∈ exactFacts u reference facts) :
    exactFacts u reference [fact] = [fact] := by
  have hmem := mem_exactFacts.mp hfact
  apply List.filter_cons_of_pos
  rw [hmem.2.1, hmem.2.2, Bool.true_and]
  exact decide_eq_true rfl

theorem answer_singleton (hversion : ¬(claimSourceVersion ≠ none ∧ claimSourceVersion ≠ sourceVersion))
    (hfact : fact ∈ exactFacts u reference facts) :
    comparisonAnswer u reference [fact] claimSourceVersion sourceVersion =
      decided (compareValues u reference.value reference.unit fact.value fact.unit) := by
  have halone := exactFacts_singleton hfact
  have hshare : ∀ f ∈ [fact], ∀ g ∈ [fact], f.statedValue u = g.statedValue u := by
    intro f hf g hg
    rw [List.mem_singleton.mp hf, List.mem_singleton.mp hg]
  obtain ⟨other, hother, hdecides⟩ := answer_one reference hshare (List.cons_ne_nil _ _)
  unfold comparisonAnswer
  rw [compareStructured_exact hversion (by rw [halone]; exact List.cons_ne_nil _ _), halone, hdecides,
    List.mem_singleton.mp hother]

/-- The names and the order of the facts do not show exactly if the claim is held to a version the source
    no longer has, or strings stand apart. -/
theorem nameFree_iff (u : Unicode) (reference : EvidenceReference) (facts : List StructuredSourceFact)
    (claimSourceVersion sourceVersion : Option Text) :
    NameFree u reference facts claimSourceVersion sourceVersion ↔
      (claimSourceVersion ≠ none ∧ claimSourceVersion ≠ sourceVersion) ∨
        StringsApart u reference facts := by
  by_cases hversion : claimSourceVersion ≠ none ∧ claimSourceVersion ≠ sourceVersion
  · refine iff_of_true ?_ (Or.inl hversion)
    constructor <;> intros <;> rw [answer_stale hversion, answer_stale hversion]
  · constructor
    · intro h
      right
      intro hshare f hf g hg htold
      have hanswers := (h.whichever hshare f hf).trans (h.whichever hshare g hg).symm
      rw [answer_singleton hversion hf, answer_singleton hversion hg] at hanswers
      exact compareValues_ne_of_toldApart (hshare f hf g hg) htold (congrArg Prod.snd hanswers)
    · intro h
      have hapart := h.resolve_left hversion
      constructor
      · exact fun others hperm => answer_congr hapart (restates_perm hperm)
      · exact fun naming => answer_congr hapart (restates_rename naming)
      · intro hshare fact hfact
        rw [answer_singleton hversion hfact, answer_exact hversion hapart hshare hfact]

/-- A claim about the displacement of a car, stated as a text. -/
def spelledClaim : EvidenceReference where
  claimId := "c".toList
  sourceId := "s".toList
  runId := "r".toList
  taskId := "t".toList
  entity := "car".toList
  field := "displacement".toList
  geography := none
  market := none
  timeScope := []
  value := .str "1600".toList
  unit := none
  locator := none
  sourceVersion := none
  identity := []
  confidence := ⟨false, 1, 0, PyFloat.normal_one⟩
  supported := true
  named := by decide

/-- A fact about it. -/
def spelledFact (factId : Char) (value : Json) : StructuredSourceFact where
  factId := [factId]
  sourceId := "s".toList
  taskId := "t".toList
  field := "displacement".toList
  entity := "car".toList
  value := value
  unit := none
  geography := none
  market := none
  timeScope := none
  identity := []
  locator := some "row".toList
  named := ⟨List.cons_ne_nil _ _, by decide, by decide, by decide⟩

/-- The number before the text that spells it. -/
def numberFirst : List StructuredSourceFact :=
  [spelledFact 'a' (.int 1600), spelledFact 'b' (.str "1600".toList)]

def swapNames : FactNaming where
  name := Equiv.swap ['a'] ['b']
  injective := (Equiv.swap ['a'] ['b']).injective
  stated := by
    intro factId hne
    rw [Equiv.swap_apply_def]
    split
    · exact List.cons_ne_nil _ _
    · split
      · exact List.cons_ne_nil _ _
      · exact hne

/-- With their names exchanged the claim matches. -/
theorem not_nameFree_swapNames :
    ¬∀ u reference facts claimSourceVersion sourceVersion,
      NameFree u reference facts claimSourceVersion sourceVersion := by
  intro h
  have hrenamed := (h asciiUnicode spelledClaim numberFirst none none).renamed swapNames
  have hbefore : comparisonAnswer asciiUnicode spelledClaim numberFirst none none =
      (.mismatch, .valueNotComparable) := by decide +kernel
  have hafter : comparisonAnswer asciiUnicode spelledClaim (numberFirst.map swapNames.rename) none none =
      (.match, .structuredMatch) := by decide +kernel
  rw [hbefore, hafter] at hrenamed
  cases hrenamed

end Facts

end Milo.Swarm
