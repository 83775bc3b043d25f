import Milo.Reasoning.PrefixCode
import Milo.Swarm.Comparison

/-!
# OneMeaning — when the two questions about values agree

`valueIdentity` and `compareValues` are written separately.  They agree on every pair of stated
values except where an opaque identity runs two spellings together: a number beside its other
spelling in a unit the allowlist does not know, and a string beside a value whose text it spells.
-/

namespace Milo.Swarm

open Milo.Python Milo.Reasoning

/-! ## 1. Texts of numbers -/

theorem isDigit_ne_slash {c : Char} (h : c.isDigit = true ∨ c = '-') : c ≠ '/' := by
  rintro rfl
  exact absurd h (by decide)

theorem fractionText_inj {q q' : ℚ} : fractionText q = fractionText q' ↔ q = q' := by
  constructor
  · intro h
    have hfree : ∀ z : ℤ, '/' ∉ intText z := fun z hm => isDigit_ne_slash (mem_intText hm) rfl
    have hparts := append_separator_inj (hfree q.num) (hfree q'.num) h
    exact Rat.ext (intText_injective hparts.1) (natText_injective hparts.2)
  · exact fun h => by rw [h]

theorem floatText_injective {f g : PyFloat} (h : floatText f = floatText g) : f = g := by
  have hvalue : f.value = g.value := by
    rw [← readDecimal_floatText, ← readDecimal_floatText, h]
  rcases PyFloat.eq_or_zero_of_value hvalue with heq | ⟨hf, hg⟩
  · exact heq
  · -- two zeros differ in their sign, which is the first character
    have hexponent : ∀ k : PyFloat, k.coefficient = 0 → k.exponent = 0 := by
      intro k hk
      rcases k.normal with hnormal | hzero
      · rw [hk] at hnormal
        exact absurd rfl hnormal
      · exact hzero.2
    have hfe := hexponent f hf
    have hge := hexponent g hg
    have hsign : f.negative = g.negative := by
      rcases magnitudeText_head f.coefficient f.point with ⟨c, rest, htext, hc⟩
      rcases magnitudeText_head g.coefficient g.point with ⟨d, rest', htext', hd⟩
      unfold floatText PyFloat.digits at h
      rw [htext, htext'] at h
      cases hfn : f.negative <;> cases hgn : g.negative <;>
        simp only [hfn, hgn, Bool.false_eq_true, if_false, if_true] at h
      · rfl
      · rw [(List.cons.inj h).1] at hc
        exact absurd hc (by decide)
      · rw [← (List.cons.inj h).1] at hd
        exact absurd hd (by decide)
      · rfl
    cases f
    cases g
    simp only at hf hg hfe hge hsign
    simp only [PyFloat.mk.injEq]
    exact ⟨hsign, hf.trans hg.symm, hfe.trans hge.symm⟩

theorem dumps_injective_of_numbers {v v' : Json} (hv : v.isNumber = true)
    (hv' : v'.isNumber = true) (h : v.dumps = v'.dumps) : v = v' := by
  cases v with
  | int z =>
    cases v' with
    | int z' => rw [intText_injective h]
    | float f => exact absurd h (intText_ne_floatText z f)
    | _ => cases hv'
  | float f =>
    cases v' with
    | int z => exact absurd h.symm (intText_ne_floatText z f)
    | float g => rw [floatText_injective h]
    | _ => cases hv'
  | _ => cases hv

/-! ## 2. The identity of a statement -/

section Identity

variable {u : Unicode} {v v' : Json} {unit unit' : Option (List Char)}

/-- The text an opaque identity carries. -/
def opaqueText (u : Unicode) : Json → List Char
  | .str text => normalizeFieldKey u text
  | value => canonicalValueKey value

theorem normalizeUnit_ne_empty : normalizeUnit u unit ≠ some [] := by
  intro h
  cases unit with
  | none => cases h
  | some text =>
    change (if u.casefold (strip text) = [] then none else some (u.casefold (strip text))) = some []
      at h
    by_cases hempty : u.casefold (strip text) = []
    · rw [if_pos hempty] at h
      cases h
    · rw [if_neg hempty, Option.some.injEq] at h
      exact hempty h

/-- A missing unit is written as the empty one, which no unit is. -/
theorem opaqueIdentity_inj {text text' : List Char} :
    opaqueIdentity (normalizeUnit u unit) text = opaqueIdentity (normalizeUnit u unit') text' ↔
      normalizeUnit u unit = normalizeUnit u unit' ∧ text = text' := by
  unfold opaqueIdentity
  rw [QuantityIdentity.mk.injEq]
  constructor
  · intro h
    refine ⟨?_, h.2.2⟩
    have hne : normalizeUnit u unit ≠ some [] := normalizeUnit_ne_empty
    have hne' : normalizeUnit u unit' ≠ some [] := normalizeUnit_ne_empty
    have hsame := h.2.1
    cases hn : normalizeUnit u unit <;> cases hn' : normalizeUnit u unit' <;>
      rw [hn] at hsame hne <;> rw [hn'] at hsame hne' <;> simp_all
  · exact fun h => ⟨rfl, by rw [h.1], h.2⟩

variable {family : String} {normalized : Option (List Char)}

theorem valueIdentity_quantity {factor : ℚ} (hnumber : v.isNumber = true)
    (hfactor : unitFactor (normalizeUnit u unit) = some (family, factor)) :
    valueIdentity u v unit =
      ⟨"quantity", family.toList, fractionText (exactValue v * factor)⟩ := by
  unfold valueIdentity
  rw [if_pos hnumber, hfactor]

theorem valueIdentity_factorless
    (h : v.isNumber = true → unitFactor (normalizeUnit u unit) = none) :
    valueIdentity u v unit = opaqueIdentity (normalizeUnit u unit) (opaqueText u v) := by
  cases v with
  | int z =>
    unfold valueIdentity
    simp only [h rfl]
    rfl
  | float f =>
    unfold valueIdentity
    simp only [h rfl]
    rfl
  | _ => rfl

theorem quantity_ne_opaqueIdentity {text value : List Char} :
    (⟨"quantity", family.toList, text⟩ : QuantityIdentity) ≠ opaqueIdentity normalized value := by
  intro h
  have hkind : "quantity" = "opaque" := congrArg QuantityIdentity.kind h
  exact absurd hkind (by decide)

theorem unitFactor_pos {factor : ℚ} (h : unitFactor normalized = some (family, factor)) : 0 < factor := by
  have htable : ∀ e ∈ unitConversions, 0 < e.2.numerator ∧ 0 < e.2.denominator := by decide
  rcases Option.bind_eq_some_iff.mp h with ⟨text, -, hfound⟩
  rcases Option.map_eq_some_iff.mp hfound with ⟨rule, hrule, heq⟩
  have hpositive := htable rule (List.mem_of_find?_eq_some hrule)
  cases heq
  exact div_pos (Nat.cast_pos.mpr hpositive.1) (Nat.cast_pos.mpr hpositive.2)

end Identity

/-! ## 3. The answers of the comparison -/

section Comparing

variable {u : Unicode} {v v' : Json} {unit unit' : Option (List Char)}

theorem compareValues_mixed (h : v.isNumber ≠ v'.isNumber) :
    compareValues u v unit v' unit' = .valueNotComparable := by
  unfold compareValues
  rw [if_pos h]

theorem compareValues_numbers (hv : v.isNumber = true) (hv' : v'.isNumber = true) :
    compareValues u v unit v' unit' =
      compareNumbers v (normalizeUnit u unit) v' (normalizeUnit u unit') := by
  unfold compareValues
  rw [if_neg (by rw [hv, hv']; exact fun h => h rfl), if_pos hv]

theorem compareValues_others (hv : v.isNumber = false) (hv' : v'.isNumber = false) :
    compareValues u v unit v' unit' =
      compareOthers u v (normalizeUnit u unit) v' (normalizeUnit u unit') := by
  unfold compareValues
  rw [if_neg (by rw [hv, hv']; exact fun h => h rfl), if_neg (by rw [hv]; decide)]

theorem compareNumbers_same {normalized : Option (List Char)} (hunit : normalized ≠ none) :
    compareNumbers v normalized v' normalized = .structuredMatch ↔ exactValue v = exactValue v' := by
  unfold compareNumbers
  rw [if_neg (by simpa using hunit), if_neg (by simp)]
  simp only [mul_one]
  by_cases heq : exactValue v = exactValue v' <;> simp [heq]

variable {left right : Option (List Char)}

/-- In two units they are compared in the base unit of their family. -/
theorem compareNumbers_converted {family family' : String} {factor factor' : ℚ} (hne : left ≠ right)
    (hleft : unitFactor left = some (family, factor)) (hright : unitFactor right = some (family', factor')) :
    compareNumbers v left v' right = .structuredMatch ↔
      family = family' ∧ exactValue v * factor = exactValue v' * factor' := by
  have hpresent : ¬(left = none ∨ right = none) := by
    intro h
    rcases h with h | h
    · rw [h] at hleft
      cases hleft
    · rw [h] at hright
      cases hright
  unfold compareNumbers
  rw [if_neg hpresent, if_pos hne, hleft, hright]
  by_cases hfamily : family = family'
  · by_cases heq : exactValue v * factor = exactValue v' * factor' <;> simp [hfamily, heq]
  · simp [hfamily]

/-- Without a factor on both sides two units do not convert. -/
theorem compareNumbers_unconverted (hne : left ≠ right) (h : unitFactor left = none ∨ unitFactor right = none) :
    compareNumbers v left v' right ≠ .structuredMatch := by
  unfold compareNumbers
  rw [if_pos hne]
  split
  · decide
  · rcases h with h | h
    · rw [h]
      exact fun heq => by cases heq
    · rw [h]
      cases unitFactor left <;> exact fun heq => by cases heq

/-- Values of one kind are compared by the text of their identity, and kinds never mix. -/
theorem compareOthers_iff :
    compareOthers u v left v' right = .structuredMatch ↔
      left = right ∧ opaqueText u v = opaqueText u v' ∧
        ((∃ s, v = .str s) ↔ ∃ s, v' = .str s) := by
  unfold compareOthers
  by_cases hunit : left = right
  · rw [if_neg (by simpa using hunit)]
    split
    · rename_i s t
      by_cases hkey : normalizeFieldKey u s = normalizeFieldKey u t <;>
        simp [opaqueText, hunit, hkey]
    · rename_i hstrings
      by_cases hkey : canonicalValueKey v = canonicalValueKey v'
      · have hkind := (same_kind_of_dumps hkey).2
        have hplain : ∀ s, v ≠ .str s := by
          intro s hs
          rcases hkind.mp ⟨s, hs⟩ with ⟨t, ht⟩
          exact hstrings s t hs ht
        have hplain' : ∀ s, v' ≠ .str s := by
          intro s hs
          rcases hkind.mpr ⟨s, hs⟩ with ⟨t, ht⟩
          exact hplain t ht
        rw [if_pos hkey]
        refine ⟨fun _ => ⟨hunit, ?_, hkind⟩, fun _ => rfl⟩
        unfold opaqueText
        cases v <;> cases v' <;> first | exact hkey | exact absurd rfl (hplain _) |
          exact absurd rfl (hplain' _)
      · rw [if_neg hkey]
        refine ⟨(fun h => by cases h), fun h => absurd ?_ hkey⟩
        have hkind := h.2.2
        have htext := h.2.1
        unfold opaqueText at htext
        cases v <;> cases v' <;> first | exact htext | exact absurd rfl (hstrings _ _ rfl) |
          (simp at hkind)
  · rw [if_pos hunit]
    exact ⟨(fun h => by cases h), fun h => absurd h.1 hunit⟩

end Comparing

/-! ## 4. One meaning, and where it fails -/

section Meaning

variable (u : Unicode) (v : Json) (unit : Option (List Char)) (v' : Json)
  (unit' : Option (List Char))

/-- Both values are numbers and a unit is missing on a side. -/
def UnitMissing : Prop :=
  v.isNumber = true ∧ v'.isNumber = true ∧
    (normalizeUnit u unit = none ∨ normalizeUnit u unit' = none)

/-- The two questions have one answer, but for a number without a unit. -/
structure OneMeaning : Prop where
  agree : ¬UnitMissing u v unit v' unit' →
    (valueIdentity u v unit = valueIdentity u v' unit' ↔
      compareValues u v unit v' unit' = .structuredMatch)
  refused : UnitMissing u v unit v' unit' → compareValues u v unit v' unit' = .unitMissing
  shared : v.isNumber = true → v'.isNumber = true → normalizeUnit u unit = none →
    normalizeUnit u unit' = none → exactValue v = exactValue v' →
    valueIdentity u v unit = valueIdentity u v' unit'
  numberApart : v.isNumber = true → ∀ s, v' = .str s →
    valueIdentity u v unit ≠ valueIdentity u v' unit'
  boolApart : ∀ b, v = .bool b → ∀ s, v' = .str s →
    valueIdentity u v unit ≠ valueIdentity u v' unit'

/-- Two spellings of one number, in a unit that has no factor. -/
def TwoSpellings : Prop :=
  v.isNumber = true ∧ v'.isNumber = true ∧ unitFactor (normalizeUnit u unit) = none ∧
    exactValue v = exactValue v' ∧ v ≠ v'

/-- A string that spells the canonical text of a value of another type. -/
def Spells : Prop :=
  (∃ s, v = .str s ∧ normalizeFieldKey u s = canonicalValueKey v') ∧ (∀ t, v' ≠ .str t) ∧
    (v'.isNumber = true → unitFactor (normalizeUnit u unit') = none)

/-- In one unit, neither two spellings of a number nor a string beside the value it spells. -/
def Unambiguous : Prop :=
  normalizeUnit u unit = normalizeUnit u unit' →
    ¬TwoSpellings u v unit v' ∧ ¬Spells u v v' unit' ∧ ¬Spells u v' v unit

end Meaning

/-! ## 5. Quantities -/

section Quantities

variable {u : Unicode} {v v' : Json} {unit unit' : Option (List Char)}

/-- A number in an allowlisted unit. -/
def IsQuantity (u : Unicode) (v : Json) (unit : Option (List Char)) : Prop :=
  v.isNumber = true ∧ unitFactor (normalizeUnit u unit) ≠ none

theorem IsQuantity.factor (h : IsQuantity u v unit) :
    ∃ family factor, unitFactor (normalizeUnit u unit) = some (family, factor) := by
  rcases Option.ne_none_iff_exists'.mp h.2 with ⟨rule, hrule⟩
  exact ⟨rule.1, rule.2, hrule⟩

theorem opaque_of_not_quantity (h : ¬IsQuantity u v unit) :
    v.isNumber = true → unitFactor (normalizeUnit u unit) = none := by
  intro hnumber
  by_contra hfactor
  exact h ⟨hnumber, hfactor⟩

theorem string_is_opaque {s : List Char} : ¬IsQuantity u (.str s) unit :=
  fun h => Bool.false_ne_true h.1

/-- Quantities are the same statement exactly when they match. -/
theorem quantities_agree (h : IsQuantity u v unit) (h' : IsQuantity u v' unit') :
    valueIdentity u v unit = valueIdentity u v' unit' ↔
      compareValues u v unit v' unit' = .structuredMatch := by
  rcases h.factor with ⟨family, factor, hfactor⟩
  rcases h'.factor with ⟨family', factor', hfactor'⟩
  rw [valueIdentity_quantity h.1 hfactor, valueIdentity_quantity h'.1 hfactor',
    compareValues_numbers h.1 h'.1, QuantityIdentity.mk.injEq, fractionText_inj,
    String.toList_inj]
  by_cases hunit : normalizeUnit u unit = normalizeUnit u unit'
  · -- one unit, so one factor, which cancels
    rw [hunit, hfactor', Option.some.injEq, Prod.mk.injEq] at hfactor
    rw [hunit, compareNumbers_same (by intro hnone; rw [hnone] at hfactor'; cases hfactor'),
      ← hfactor.1, ← hfactor.2]
    have hpositive := unitFactor_pos hfactor'
    constructor
    · exact fun heq => mul_right_cancel₀ hpositive.ne' heq.2.2
    · exact fun heq => ⟨rfl, rfl, by rw [heq]⟩
  · rw [compareNumbers_converted hunit hfactor hfactor']
    exact ⟨fun heq => heq.2, fun heq => ⟨rfl, heq⟩⟩

/-- A quantity is never the same statement as anything else, nor does it match. -/
theorem quantity_apart (h : IsQuantity u v unit) (h' : ¬IsQuantity u v' unit') :
    valueIdentity u v unit ≠ valueIdentity u v' unit' ∧
      compareValues u v unit v' unit' ≠ .structuredMatch := by
  rcases h.factor with ⟨family, factor, hfactor⟩
  have hfactorless := opaque_of_not_quantity h'
  constructor
  · rw [valueIdentity_quantity h.1 hfactor, valueIdentity_factorless hfactorless]
    exact quantity_ne_opaqueIdentity
  · by_cases hnumber : v'.isNumber = true
    · rw [compareValues_numbers h.1 hnumber]
      apply compareNumbers_unconverted
      · intro hunit
        rw [hunit, hfactorless hnumber] at hfactor
        cases hfactor
      · exact Or.inr (hfactorless hnumber)
    · rw [compareValues_mixed (fun heq => hnumber (heq.symm.trans h.1))]
      decide

theorem apart_quantity (h : ¬IsQuantity u v unit) (h' : IsQuantity u v' unit') :
    valueIdentity u v unit ≠ valueIdentity u v' unit' ∧
      compareValues u v unit v' unit' ≠ .structuredMatch := by
  rcases h'.factor with ⟨family, factor, hfactor⟩
  have hfactorless := opaque_of_not_quantity h
  constructor
  · exact (quantity_apart h' h).1.symm
  · by_cases hnumber : v.isNumber = true
    · rw [compareValues_numbers hnumber h'.1]
      apply compareNumbers_unconverted
      · intro hunit
        rw [← hunit, hfactorless hnumber] at hfactor
        cases hfactor
      · exact Or.inl (hfactorless hnumber)
    · rw [compareValues_mixed (fun heq => hnumber (heq.trans h'.1))]
      decide

end Quantities

/-! ## 6. Opaque statements -/

section Opaque

variable {u : Unicode} {v v' : Json} {unit unit' : Option (List Char)}

theorem opaque_identities (h : ¬IsQuantity u v unit) (h' : ¬IsQuantity u v' unit') :
    valueIdentity u v unit = valueIdentity u v' unit' ↔
      normalizeUnit u unit = normalizeUnit u unit' ∧ opaqueText u v = opaqueText u v' := by
  rw [valueIdentity_factorless (opaque_of_not_quantity h),
    valueIdentity_factorless (opaque_of_not_quantity h'), opaqueIdentity_inj]

theorem opaqueText_of_not_string (h : ∀ t, v ≠ .str t) : opaqueText u v = canonicalValueKey v := by
  cases v with
  | str t => exact absurd rfl (h t)
  | _ => rfl

/-- A string and a value of another type never match. -/
theorem compareValues_of_kinds (h : ¬((∃ s, v = .str s) ↔ ∃ s, v' = .str s)) :
    compareValues u v unit v' unit' ≠ .structuredMatch := by
  intro hmatch
  have hkinds : v.isNumber = v'.isNumber := by
    by_contra hne
    rw [compareValues_mixed hne] at hmatch
    cases hmatch
  cases hnumber : v.isNumber with
  | true =>
    rw [hnumber] at hkinds
    apply h
    constructor
    · intro hs
      rcases hs with ⟨s, rfl⟩
      cases hnumber
    · intro hs
      rcases hs with ⟨s, rfl⟩
      cases hkinds
  | false =>
    rw [compareValues_others hnumber (hkinds ▸ hnumber)] at hmatch
    exact h (compareOthers_iff.mp hmatch).2.2

/-- An identity shared by values of different kinds is a string spelling the other. -/
theorem kinds_of_unambiguous (hclear : Unambiguous u v unit v' unit')
    (h : ¬IsQuantity u v unit) (h' : ¬IsQuantity u v' unit')
    (hunit : normalizeUnit u unit = normalizeUnit u unit')
    (htext : opaqueText u v = opaqueText u v') : (∃ s, v = .str s) ↔ ∃ s, v' = .str s := by
  have hspells := hclear hunit
  constructor
  · intro hs
    rcases hs with ⟨s, rfl⟩
    by_contra hplain
    have hother : ∀ t, v' ≠ .str t := fun t ht => hplain ⟨t, ht⟩
    rw [opaqueText_of_not_string hother] at htext
    exact hspells.2.1 ⟨⟨s, rfl, htext⟩, hother, opaque_of_not_quantity h'⟩
  · intro hs
    rcases hs with ⟨s, rfl⟩
    by_contra hplain
    have hother : ∀ t, v ≠ .str t := fun t ht => hplain ⟨t, ht⟩
    rw [opaqueText_of_not_string hother] at htext
    exact hspells.2.2 ⟨⟨s, rfl, htext.symm⟩, hother, opaque_of_not_quantity h⟩

theorem not_string_of_number (h : v.isNumber = true) : ∀ t, v ≠ .str t := by
  intro t ht
  rw [ht] at h
  cases h

theorem eq_of_opaqueText (hv : v.isNumber = true) (hv' : v'.isNumber = true)
    (h : opaqueText u v = opaqueText u v') : v = v' := by
  rw [opaqueText_of_not_string (not_string_of_number hv),
    opaqueText_of_not_string (not_string_of_number hv')] at h
  exact dumps_injective_of_numbers hv hv' h

/-- Values of one opaque text and one kind are both numbers or neither is. -/
theorem isNumber_of_opaqueText (hkind : (∃ s, v = .str s) ↔ ∃ s, v' = .str s)
    (h : opaqueText u v = opaqueText u v') : v.isNumber = v'.isNumber := by
  by_cases hstring : ∃ s, v = .str s
  · rcases hstring with ⟨s, rfl⟩
    rcases hkind.mp ⟨s, rfl⟩ with ⟨t, rfl⟩
    rfl
  · have hplain : ∀ t, v ≠ .str t := fun t ht => hstring ⟨t, ht⟩
    have hplain' : ∀ t, v' ≠ .str t := fun t ht => hstring (hkind.mpr ⟨t, ht⟩)
    rw [opaqueText_of_not_string hplain, opaqueText_of_not_string hplain'] at h
    exact (same_kind_of_dumps h).1

theorem eq_of_exactValue (hclear : Unambiguous u v unit v' unit') (hv : v.isNumber = true)
    (hv' : v'.isNumber = true) (h : ¬IsQuantity u v unit)
    (hunit : normalizeUnit u unit = normalizeUnit u unit')
    (hexact : exactValue v = exactValue v') : v = v' := by
  by_contra hne
  exact (hclear hunit).1 ⟨hv, hv', opaque_of_not_quantity h hv, hexact, hne⟩

/-- Opaque statements agree wherever they are unambiguous. -/
theorem opaque_agree (hclear : Unambiguous u v unit v' unit')
    (hunits : ¬UnitMissing u v unit v' unit') (h : ¬IsQuantity u v unit)
    (h' : ¬IsQuantity u v' unit') :
    valueIdentity u v unit = valueIdentity u v' unit' ↔
      compareValues u v unit v' unit' = .structuredMatch := by
  rw [opaque_identities h h']
  constructor
  · intro hsame
    have hkind := kinds_of_unambiguous hclear h h' hsame.1 hsame.2
    have hnumbers := isNumber_of_opaqueText hkind hsame.2
    cases hv : v.isNumber with
    | true =>
      have hv' : v'.isNumber = true := hnumbers ▸ hv
      have hpresent : normalizeUnit u unit ≠ none := fun hnone => hunits ⟨hv, hv', Or.inl hnone⟩
      rw [compareValues_numbers hv hv', ← hsame.1, compareNumbers_same hpresent,
        eq_of_opaqueText hv hv' hsame.2]
    | false =>
      rw [compareValues_others hv (hnumbers ▸ hv), compareOthers_iff]
      exact ⟨hsame.1, hsame.2, hkind⟩
  · intro hmatch
    have hnumbers : v.isNumber = v'.isNumber := by
      by_contra hne
      rw [compareValues_mixed hne] at hmatch
      cases hmatch
    cases hv : v.isNumber with
    | true =>
      have hv' : v'.isNumber = true := hnumbers ▸ hv
      rw [compareValues_numbers hv hv'] at hmatch
      have hunit : normalizeUnit u unit = normalizeUnit u unit' := by
        by_contra hne
        exact compareNumbers_unconverted hne (Or.inl (opaque_of_not_quantity h hv)) hmatch
      have hpresent : normalizeUnit u unit ≠ none := fun hnone => hunits ⟨hv, hv', Or.inl hnone⟩
      rw [← hunit, compareNumbers_same hpresent] at hmatch
      rw [eq_of_exactValue hclear hv hv' h hunit hmatch]
      exact ⟨hunit, rfl⟩
    | false =>
      rw [compareValues_others hv (hnumbers ▸ hv), compareOthers_iff] at hmatch
      exact ⟨hmatch.1, hmatch.2.1⟩

end Opaque

/-! ## 7. Exactly where equality has one meaning -/

section Exactly

variable {u : Unicode} {v v' : Json} {unit unit' : Option (List Char)}

theorem compareValues_unitMissing (h : UnitMissing u v unit v' unit') :
    compareValues u v unit v' unit' = .unitMissing := by
  rw [compareValues_numbers h.1 h.2.1]
  unfold compareNumbers
  rw [if_pos h.2.2]

/-- A string never is the statement of a value of another type. -/
theorem string_apart (hclear : Unambiguous u v unit v' unit') (hplain : ∀ t, v ≠ .str t)
    {s : List Char} (hstring : v' = .str s) :
    valueIdentity u v unit ≠ valueIdentity u v' unit' := by
  rw [hstring] at hclear ⊢
  by_cases h : IsQuantity u v unit
  · exact (quantity_apart h string_is_opaque).1
  · intro heq
    have hsame := (opaque_identities h string_is_opaque).mp heq
    rcases (kinds_of_unambiguous hclear h string_is_opaque hsame.1 hsame.2).mpr ⟨s, rfl⟩
      with ⟨t, ht⟩
    exact hplain t ht

theorem oneMeaning_of_unambiguous (hclear : Unambiguous u v unit v' unit') :
    OneMeaning u v unit v' unit' where
  agree := by
    intro hunits
    by_cases h : IsQuantity u v unit <;> by_cases h' : IsQuantity u v' unit'
    · exact quantities_agree h h'
    · have hapart := quantity_apart h h'
      exact iff_of_false hapart.1 hapart.2
    · have hapart := apart_quantity h h'
      exact iff_of_false hapart.1 hapart.2
    · exact opaque_agree hclear hunits h h'
  refused := compareValues_unitMissing
  shared := by
    intro hv hv' hunit hunit' hexact
    have h : ¬IsQuantity u v unit := fun hq => hq.2 (by rw [hunit]; rfl)
    have heq : normalizeUnit u unit = normalizeUnit u unit' := hunit.trans hunit'.symm
    have hvalue := eq_of_exactValue hclear hv hv' h heq hexact
    unfold valueIdentity
    rw [hvalue, heq]
  numberApart := fun hv _ hs => string_apart hclear (not_string_of_number hv) hs
  boolApart := fun b hb _ hs =>
    string_apart hclear (fun t ht => by rw [hb] at ht; cases ht) hs

/-- Two spellings of a number have two identities, though they match or would share one. -/
theorem not_twoSpellings (h : OneMeaning u v unit v' unit')
    (hunit : normalizeUnit u unit = normalizeUnit u unit') : ¬TwoSpellings u v unit v' := by
  intro htwo
  rcases htwo with ⟨hv, hv', hfactor, hexact, hne⟩
  have hfactorless : ¬IsQuantity u v unit := fun hq => hq.2 hfactor
  have hfactorless' : ¬IsQuantity u v' unit' := fun hq => hq.2 (hunit ▸ hfactor)
  have hsame : valueIdentity u v unit = valueIdentity u v' unit' := by
    by_cases hmissing : normalizeUnit u unit = none
    · exact h.shared hv hv' hmissing (hunit ▸ hmissing) hexact
    · have hpresent : ¬UnitMissing u v unit v' unit' := by
        intro hm
        rcases hm.2.2 with hnone | hnone
        · exact hmissing hnone
        · exact hmissing (hunit.trans hnone)
      apply (h.agree hpresent).mpr
      rw [compareValues_numbers hv hv', ← hunit]
      exact (compareNumbers_same hmissing).mpr hexact
  exact hne (eq_of_opaqueText hv hv' ((opaque_identities hfactorless hfactorless').mp hsame).2)

/-- A string shares the identity of the value it spells, and they never match. -/
theorem not_shared_across_kinds (h : OneMeaning u v unit v' unit')
    (hkinds : ¬((∃ s, v = .str s) ↔ ∃ s, v' = .str s)) :
    valueIdentity u v unit ≠ valueIdentity u v' unit' := by
  intro hsame
  have hpresent : ¬UnitMissing u v unit v' unit' := by
    intro hm
    apply hkinds
    exact iff_of_false (fun hs => not_string_of_number hm.1 _ hs.choose_spec)
      (fun hs => not_string_of_number hm.2.1 _ hs.choose_spec)
  exact compareValues_of_kinds hkinds ((h.agree hpresent).mp hsame)

/-- Value equality has one meaning exactly on the unambiguous pairs. -/
theorem oneMeaning_iff (u : Unicode) (v : Json) (unit : Option (List Char)) (v' : Json)
    (unit' : Option (List Char)) :
    OneMeaning u v unit v' unit' ↔ Unambiguous u v unit v' unit' := by
  constructor
  · intro h hunit
    refine ⟨not_twoSpellings h hunit, ?_, ?_⟩
    · intro hspells
      rcases hspells with ⟨⟨s, rfl, htext⟩, hplain, hfactor⟩
      have hfactorless' : ¬IsQuantity u v' unit' := fun hq => hq.2 (hfactor hq.1)
      apply not_shared_across_kinds h
      · exact fun hiff => absurd (hiff.mp ⟨s, rfl⟩).choose_spec (hplain _)
      · rw [opaque_identities string_is_opaque hfactorless', opaqueText_of_not_string hplain]
        exact ⟨hunit, htext⟩
    · intro hspells
      rcases hspells with ⟨⟨s, rfl, htext⟩, hplain, hfactor⟩
      have hfactorless : ¬IsQuantity u v unit := fun hq => hq.2 (hfactor hq.1)
      apply not_shared_across_kinds h
      · exact fun hiff => absurd (hiff.mpr ⟨s, rfl⟩).choose_spec (hplain _)
      · rw [opaque_identities hfactorless string_is_opaque, opaqueText_of_not_string hplain]
        exact ⟨hunit, htext.symm⟩
  · exact oneMeaning_of_unambiguous

/-- The number five and the string "5" are one statement that does not match itself. -/
theorem oneMeaning_fails_five :
    ¬OneMeaning asciiUnicode (.int 5) none (.str ['5']) none ∧
      valueIdentity asciiUnicode (.int 5) none = valueIdentity asciiUnicode (.str ['5']) none ∧
      compareValues asciiUnicode (.int 5) none (.str ['5']) none = .valueNotComparable := by
  have hsame : valueIdentity asciiUnicode (.int 5) none =
      valueIdentity asciiUnicode (.str ['5']) none := by decide +kernel
  exact ⟨fun h => h.numberApart rfl ['5'] rfl hsame, hsame, rfl⟩

end Exactly

end Milo.Swarm
