import Milo.Budget.DurableLedger

/-!
# DurableUsage — the stored ledger is the join of what was recorded

At each dimension the database's merge and Python's take the same maximum, the database of the numbers
as they are written and Python of the floats it reads.  Along a run the stored ledger is therefore the
join of the accepted records, the trigger finds nothing lowered, and the version counts the calls that
changed something.
-/

namespace Milo.Budget

open Milo.Reasoning Milo.Python Milo.Catalog Milo.Finalization

/-! ## 1. Values -/

theorem pythonValue_number (value : Jsonb) :
    (pythonValue value).number = (numericOf value).getD 0 := by
  cases value with
  | number n scale =>
    cases scale with
    | zero => simp [pythonValue, UsageValue.number, numericOf]
    | succ scale => rfl
  | null | bool | str | arr | obj => rfl

variable {value b : Jsonb} {document : UsageDocument} {name : String} {current incoming : Option Jsonb}
  {castNumeric : List Char → Option (ℤ × ℕ)}

theorem numericOf_number {q : ℚ} (h : numericOf value = some q) : ∃ n scale, value = .number n scale := by
  cases value with
  | number n scale => exact ⟨n, scale, rfl⟩
  | null | bool | str | arr | obj => cases h

/-- Numbers are equal as the database compares them exactly if they are the same number. -/
theorem same_iff_numericOf {a : Jsonb} {x y : ℚ} (ha : numericOf a = some x) (hb : numericOf b = some y) :
    a.same b = true ↔ x = y := by
  rcases numericOf_number ha with ⟨n, scale, rfl⟩
  rcases numericOf_number hb with ⟨m, scale', rfl⟩
  cases ha
  cases hb
  have hscale : (10 : ℚ) ^ scale ≠ 0 := pow_ne_zero _ (by norm_num)
  have hscale' : (10 : ℚ) ^ scale' ≠ 0 := pow_ne_zero _ (by norm_num)
  unfold Jsonb.same
  rw [decide_eq_true_eq, div_eq_div_iff hscale hscale']
  constructor
  · intro h
    exact_mod_cast h
  · intro h
    exact_mod_cast h

theorem numericOf_of_same {a : Jsonb} (h : a.same b = true) : numericOf a = numericOf b := by
  cases a with
  | number n scale =>
    cases b with
    | number m scale' =>
      have heq := (same_iff_numericOf (a := .number n scale) (b := .number m scale') rfl rfl).mp h
      show some _ = some _
      rw [heq]
    | null | bool | str | arr | obj => simp [Jsonb.same] at h
  | null | bool | str | arr | obj =>
    cases b with
    | number => simp [Jsonb.same] at h
    | null | bool | str | arr | obj => rfl

/-- The value is a number, and not a negative one. -/
def IsAmount (value : Jsonb) : Prop := ∃ q, numericOf value = some q ∧ 0 ≤ q

theorem IsAmount.not_negative (h : IsAmount value) : isNegative value = false := by
  rcases h with ⟨q, hq, hpos⟩
  unfold isNegative
  rw [hq]
  simpa using hpos

/-- What a value counts as at a dimension, or nothing. -/
def readingOf : Option Jsonb → WithBot ℚ
  | none => ⊥
  | some value => ((pythonValue value).number : WithBot ℚ)

theorem reading_pythonRecord (document : UsageDocument) (name : String) :
    (pythonRecord document).reading name = readingOf (document.get? name) := by
  unfold Snapshot.reading pythonRecord
  rw [Dict.get?_mapValues]
  cases document.get? name <;> rfl

theorem carried_pythonRecord (document : UsageDocument) (name : String) :
    (pythonRecord document).carried name =
      if name ∈ ledgerAmounts then (readingOf (document.get? name)).map nearest
      else readingOf (document.get? name) := by
  unfold Snapshot.carried
  rw [reading_pythonRecord]

theorem readingOf_amount {q : ℚ} (h : numericOf value = some q) : readingOf (some value) = (q : WithBot ℚ) := by
  show ((pythonValue value).number : WithBot ℚ) = q
  rw [pythonValue_number, h]
  rfl

/-! ## 2. Sound records -/

/-- Every dimension and the bookkeeping the record carries is an amount. -/
def SoundUsage (document : UsageDocument) : Prop :=
  ∀ name ∈ maximisedNames, ∀ value, document.get? name = some value → IsAmount value

theorem numericOf_of_int {n : ℤ} (h : pythonValue value = .int n) : value = .number n 0 := by
  cases value with
  | number m scale =>
    cases scale with
    | zero =>
      cases h
      rfl
    | succ scale => cases h
  | null | bool | str | arr | obj => cases h

theorem isAmount_of_amount {q : ℚ} (h : (pythonValue value).amount = .ok q) (hdebt : isNegative value = false) :
    IsAmount value := by
  cases value with
  | number n scale =>
    refine ⟨_, rfl, ?_⟩
    unfold isNegative at hdebt
    simpa [numericOf] using hdebt
  | null | bool | str | arr | obj => cases h

theorem isValidUsage_valid (h : isValidUsage document = true) : ValidRecord (pythonRecord document) := by
  unfold isValidUsage at h
  cases hresult : validateUsageSnapshot (pythonRecord document) with
  | error e =>
    rw [hresult] at h
    cases h
  | ok parsed => exact (validate_parsedFrom hresult).valid

theorem isValidUsage_accepted (h : isValidUsage document = true) :
    (UsageRecord.mapping (pythonRecord document)).Accepted := accepted_of_isSome h

/-- An amount below the doubles is no debt as Python reads it, and still a negative number. -/
theorem isValidUsage_sound (h : isValidUsage document = true)
    (hdebt : ∀ name ∈ ledgerAmounts, ∀ value, document.get? name = some value → isNegative value = false) :
    SoundUsage document := by
  have hvalid := isValidUsage_valid h
  intro name hname value hget
  have hread : (pythonRecord document).get? name = some (pythonValue value) := by
    unfold pythonRecord
    rw [Dict.get?_mapValues, hget]
    rfl
  rcases List.mem_append.mp hname with hwhole | hamount
  · rcases hvalid.whole name hwhole _ hread with ⟨n, hn, hpos⟩
    rw [numericOf_of_int hn]
    refine ⟨_, rfl, ?_⟩
    rw [pow_zero, div_one]
    exact Int.cast_nonneg hpos
  · have hok := (hvalid.amounts name hamount _ hread).1
    exact isAmount_of_amount hok (hdebt name hamount value hget)

theorem readingOf_nonneg (h : SoundUsage document) (hname : name ∈ maximisedNames) :
    0 ≤ (readingOf (document.get? name)).unbotD 0 := by
  cases hget : document.get? name with
  | none => exact le_refl 0
  | some value =>
    rcases h name hname value hget with ⟨q, hq, hpos⟩
    rw [readingOf_amount hq]
    exact hpos

/-! ## 3. What the merge takes -/

/-- The value the merge takes at a key, from what the records carry there. -/
inductive Taken : Option Jsonb → Option Jsonb → Option Jsonb → Prop
  | absent : Taken none none none
  | kept (a : Jsonb) : isNegative a = false → Taken (some a) none (some a)
  | new (b : Jsonb) : isNegative b = false → Taken none (some b) (some b)
  | greater (a b : Jsonb) (x y : ℚ) : numericOf a = some x → numericOf b = some y → 0 ≤ x → 0 ≤ y →
      Taken (some a) (some b) (some (if y ≤ x then a else b))
  | replaced (a b : Jsonb) : numericOf a = none ∨ numericOf b = none → isNegative b = false →
      Taken (some a) (some b) (some b)

theorem mergedValue_numbers (key : String) {a : Jsonb} {x y : ℚ} (hx : numericOf a = some x)
    (hy : numericOf b = some y) :
    mergedValue key (some a) (some b) =
      if x < 0 ∨ y < 0 then .error (negativeUsage key) else .ok (if y ≤ x then a else b) := by
  unfold mergedValue
  dsimp only
  rw [hx, hy]

theorem mergedValue_other (key : String) {a : Jsonb} (h : numericOf a = none ∨ numericOf b = none) :
    mergedValue key (some a) (some b) =
      if isNegative b then .error (negativeUsage key) else .ok b := by
  unfold mergedValue
  dsimp only
  rcases h with h | h
  · rw [h]
  · rw [h]
    cases numericOf a <;> rfl

theorem mergedValue_taken {key : String} (h : mergedValue key current incoming = .ok value)
    (hcarried : current.isSome = true ∨ incoming.isSome = true) : Taken current incoming (some value) := by
  have hkept : ∀ a : Jsonb, (if isNegative a then Except.error (negativeUsage key) else .ok a) =
      .ok value → isNegative a = false ∧ a = value := by
    intro a ha
    cases hneg : isNegative a with
    | true =>
      rw [hneg] at ha
      cases ha
    | false =>
      rw [hneg] at ha
      cases ha
      exact ⟨rfl, rfl⟩
  cases current with
  | none =>
    cases incoming with
    | none => simp at hcarried
    | some b =>
      rcases hkept b h with ⟨hneg, rfl⟩
      exact .new b hneg
  | some a =>
    cases incoming with
    | none =>
      rcases hkept a h with ⟨hneg, rfl⟩
      exact .kept a hneg
    | some b =>
      cases hx : numericOf a with
      | none =>
        rw [mergedValue_other key (Or.inl hx)] at h
        rcases hkept b h with ⟨hneg, rfl⟩
        exact .replaced a b (Or.inl hx) hneg
      | some x =>
        cases hy : numericOf b with
        | none =>
          rw [mergedValue_other key (Or.inr hy)] at h
          rcases hkept b h with ⟨hneg, rfl⟩
          exact .replaced a b (Or.inr hy) hneg
        | some y =>
          rw [mergedValue_numbers key hx hy] at h
          by_cases hneg : x < 0 ∨ y < 0
          · rw [if_pos hneg] at h
            cases h
          · rw [if_neg hneg] at h
            cases h
            rw [not_or, not_lt, not_lt] at hneg
            exact .greater a b x y hx hy hneg.1 hneg.2

theorem Taken.not_negative {merged : Option Jsonb} (h : Taken current (some b) merged) : isNegative b = false := by
  cases h with
  | new b hneg => exact hneg
  | greater a b x y hx hy hx0 hy0 => exact IsAmount.not_negative ⟨y, hy, hy0⟩
  | replaced a b hnone hneg => exact hneg

theorem exists_mergedValue {key : String} (hcurrent : ∀ a, current = some a → isNegative a = false)
    (hincoming : ∀ b, incoming = some b → isNegative b = false) :
    ∃ value, mergedValue key current incoming = .ok value := by
  cases current with
  | none =>
    cases incoming with
    | none => exact ⟨_, rfl⟩
    | some b => exact ⟨b, by simp [mergedValue, hincoming b rfl]⟩
  | some a =>
    cases incoming with
    | none => exact ⟨a, by simp [mergedValue, hcurrent a rfl]⟩
    | some b =>
      have ha := hcurrent a rfl
      have hb := hincoming b rfl
      by_cases hnone : numericOf a = none ∨ numericOf b = none
      · exact ⟨b, by rw [mergedValue_other key hnone, hb]; rfl⟩
      · rw [not_or] at hnone
        rcases Option.ne_none_iff_exists'.mp hnone.1 with ⟨x, hx⟩
        rcases Option.ne_none_iff_exists'.mp hnone.2 with ⟨y, hy⟩
        have hx0 : ¬x < 0 := by simpa [isNegative, hx] using ha
        have hy0 : ¬y < 0 := by simpa [isNegative, hy] using hb
        refine ⟨if y ≤ x then a else b, ?_⟩
        rw [mergedValue_numbers key hx hy, if_neg (not_or.mpr ⟨hx0, hy0⟩)]

/-- At a dimension the merge joins what amounts the records carry. -/
theorem Taken.reading {merged : Option Jsonb} (h : Taken current incoming merged)
    (hcurrent : ∀ a, current = some a → IsAmount a) (hincoming : ∀ b, incoming = some b → IsAmount b) :
    readingOf merged = readingOf current ⊔ readingOf incoming ∧
      ∀ value, merged = some value → IsAmount value := by
  cases h with
  | absent => exact ⟨(sup_idem _).symm, fun _ h => by cases h⟩
  | kept a hneg => exact ⟨(sup_bot_eq _).symm, hcurrent⟩
  | new b hneg => exact ⟨(bot_sup_eq _).symm, hincoming⟩
  | greater a b x y hx hy hx0 hy0 =>
    by_cases hle : y ≤ x
    · rw [if_pos hle, readingOf_amount hx, readingOf_amount hy, ← WithBot.coe_sup,
        sup_of_le_left hle]
      exact ⟨rfl, hcurrent⟩
    · rw [if_neg hle, readingOf_amount hx, readingOf_amount hy, ← WithBot.coe_sup,
        sup_of_le_right (not_le.mp hle).le]
      exact ⟨rfl, hincoming⟩
  | replaced a b hnone hneg =>
    rcases hcurrent a rfl with ⟨x, hx, -⟩
    rcases hincoming b rfl with ⟨y, hy, -⟩
    rcases hnone with hnone | hnone
    · rw [hx] at hnone
      cases hnone
    · rw [hy] at hnone
      cases hnone

/-! ## 4. The merge of two records -/

section Loop

variable {current incoming : UsageDocument}

theorem get?_mergeLoop (keys : List String) : ∀ {merged result : UsageDocument},
    mergeLoop current incoming keys merged = .ok result → ∀ key,
      (key ∈ keys → key ≠ "total_tokens" → ∃ value, result.get? key = some value ∧
        mergedValue key (current.get? key) (incoming.get? key) = .ok value) ∧
      (key ∉ keys ∨ key = "total_tokens" → result.get? key = merged.get? key) := by
  induction keys with
  | nil =>
    intro merged result h key
    cases h
    exact ⟨fun hkey => absurd hkey List.not_mem_nil, fun _ => rfl⟩
  | cons first keys ih =>
    intro merged result h key
    unfold mergeLoop at h
    by_cases htotal : first = "total_tokens"
    · rw [if_pos htotal] at h
      refine ⟨fun hkey hne => ?_, fun hout => (ih h key).2 ?_⟩
      · rcases List.mem_cons.mp hkey with rfl | hkey
        · exact absurd htotal hne
        · exact (ih h key).1 hkey hne
      · exact hout.imp_left fun hkey hin => hkey (List.mem_cons_of_mem _ hin)
    · rw [if_neg htotal] at h
      rcases except_bind_eq_ok.mp h with ⟨value, hvalue, h⟩
      have hrest := ih h key
      refine ⟨fun hkey hne => ?_, fun hout => ?_⟩
      · by_cases hin : key ∈ keys
        · exact hrest.1 hin hne
        · have hfirst : key = first := (List.mem_cons.mp hkey).resolve_right hin
          rw [hfirst] at hrest hin ⊢
          rw [hrest.2 (Or.inl hin), Dict.get?_set_self]
          exact ⟨value, rfl, hvalue⟩
      · have hne : key ≠ first := by
          rintro rfl
          exact hout.elim (fun hkey => hkey List.mem_cons_self) htotal
        rw [hrest.2 (hout.imp_left fun hkey hin => hkey (List.mem_cons_of_mem _ hin)),
          Dict.get?_set_ne _ _ hne]

theorem exists_mergeLoop (keys : List String) : ∀ merged : UsageDocument,
    (∀ key ∈ keys, key ≠ "total_tokens" →
      ∃ value, mergedValue key (current.get? key) (incoming.get? key) = .ok value) →
    ∃ result, mergeLoop current incoming keys merged = .ok result := by
  induction keys with
  | nil => exact fun merged _ => ⟨merged, rfl⟩
  | cons first keys ih =>
    intro merged h
    have hrest := fun key (hkey : key ∈ keys) => h key (List.mem_cons_of_mem _ hkey)
    unfold mergeLoop
    by_cases htotal : first = "total_tokens"
    · rw [if_pos htotal]
      exact ih merged hrest
    · rw [if_neg htotal]
      rcases h first List.mem_cons_self htotal with ⟨value, hvalue⟩
      rcases ih (merged.set first value) hrest with ⟨result, hresult⟩
      exact ⟨result, except_bind_eq_ok.mpr ⟨value, hvalue, hresult⟩⟩

theorem mem_mergeKeys {key : String} : key ∈ mergeKeys current incoming ↔
    (current.get? key).isSome = true ∨ (incoming.get? key).isSome = true := by
  have hkeys : ∀ d : UsageDocument, (d.get? key).isSome = true ↔ key ∈ d.keys := by
    intro d
    rw [Option.isSome_iff_exists, Dict.mem_keys_iff]
  unfold mergeKeys
  rw [List.mem_append, List.mem_filter, hkeys, hkeys]
  by_cases hin : key ∈ current.keys <;> simp [hin]

end Loop

/-- The total of two readings, where one of them is there. -/
def totalReading (input output : WithBot ℚ) : WithBot ℚ :=
  if input = ⊥ ∧ output = ⊥ then ⊥ else ((input.unbotD 0 + output.unbotD 0 : ℚ) : WithBot ℚ)

/-- A merged record takes each key from the two records, and derives the total. -/
structure MergedFrom (current incoming merged : UsageDocument) : Prop where
  taken : ∀ key, key ≠ "total_tokens" →
    Taken (current.get? key) (incoming.get? key) (merged.get? key)
  total : (∀ name ∈ ["input_tokens", "output_tokens"], ∀ value, merged.get? name = some value →
      IsAmount value) →
    readingOf (merged.get? "total_tokens") =
      totalReading (readingOf (merged.get? "input_tokens")) (readingOf (merged.get? "output_tokens"))
  amount : ∀ value, merged.get? "total_tokens" = some value → ∃ q, numericOf value = some q

theorem readingOf_eq_bot {value : Option Jsonb} : readingOf value = ⊥ ↔ value = none := by
  cases value with
  | none => simp [readingOf]
  | some value => simp [readingOf]

theorem numericOf_numericSum (n m : ℤ) (scale scale' : ℕ) :
    numericOf (numericSum (n, scale) (m, scale')) =
      some ((n : ℚ) / 10 ^ scale + (m : ℚ) / 10 ^ scale') := by
  have hsplit : ∀ (k : ℤ) {s : ℕ}, s ≤ max scale scale' →
      ((k * 10 ^ (max scale scale' - s) : ℤ) : ℚ) / 10 ^ max scale scale' = k / 10 ^ s := by
    intro k s hs
    obtain ⟨d, hd⟩ := Nat.exists_eq_add_of_le hs
    rw [hd, Nat.add_sub_cancel_left, pow_add]
    push_cast
    field_simp
  show some _ = some _
  rw [Option.some.injEq, Int.cast_add, add_div, hsplit n (le_max_left _ _),
    hsplit m (le_max_right _ _)]

theorem tokensOf_amount (castNumeric : List Char → Option (ℤ × ℕ)) {value : Option Jsonb}
    (h : ∀ v, value = some v → IsAmount v) : ∃ n scale, tokensOf castNumeric value = .ok (n, scale) ∧
      (n : ℚ) / 10 ^ scale = (readingOf value).unbotD 0 := by
  cases value with
  | none => exact ⟨0, 0, rfl, by simp [readingOf]⟩
  | some v =>
    rcases h v rfl with ⟨q, hq, -⟩
    rcases numericOf_number hq with ⟨n, scale, rfl⟩
    refine ⟨n, scale, rfl, ?_⟩
    rw [readingOf_amount hq]
    cases hq
    rfl

theorem withTokenTotal_total {merged result : UsageDocument} (h : withTokenTotal castNumeric merged = .ok result)
    (hnone : merged.get? "total_tokens" = none) :
    (∀ key, key ≠ "total_tokens" → result.get? key = merged.get? key) ∧
      ((∀ name ∈ ["input_tokens", "output_tokens"], ∀ value, merged.get? name = some value →
          IsAmount value) →
        readingOf (result.get? "total_tokens") = totalReading
          (readingOf (merged.get? "input_tokens")) (readingOf (merged.get? "output_tokens"))) ∧
      ∀ value, result.get? "total_tokens" = some value → ∃ q, numericOf value = some q := by
  unfold withTokenTotal at h
  by_cases htokens : ((merged.get? "input_tokens").isSome || (merged.get? "output_tokens").isSome) = true
  · rw [if_pos htokens] at h
    rcases except_bind_eq_ok.mp h with ⟨⟨n, scale⟩, hinput, h⟩
    rcases except_bind_eq_ok.mp h with ⟨⟨m, scale'⟩, houtput, h⟩
    cases h
    refine ⟨fun key hkey => Dict.get?_set_ne _ _ hkey, fun hamounts => ?_, ?_⟩
    · rcases tokensOf_amount castNumeric (hamounts "input_tokens" (by simp)) with
        ⟨n', s, hn', hinputEq⟩
      rcases tokensOf_amount castNumeric (hamounts "output_tokens" (by simp)) with
        ⟨m', s', hm', houtputEq⟩
      rw [hinput] at hn'
      rw [houtput] at hm'
      cases hn'
      cases hm'
      rw [Dict.get?_set_self, readingOf_amount (numericOf_numericSum n m scale scale'), hinputEq,
        houtputEq]
      unfold totalReading
      rw [if_neg]
      rw [readingOf_eq_bot, readingOf_eq_bot]
      rintro ⟨hin, hout⟩
      rw [hin, hout] at htokens
      cases htokens
    · intro value hget
      rw [Dict.get?_set_self] at hget
      cases hget
      exact ⟨_, numericOf_numericSum n m scale scale'⟩
  · rw [if_neg htokens] at h
    cases h
    rw [Bool.or_eq_true, not_or, Bool.not_eq_true, Bool.not_eq_true, Option.isSome_eq_false_iff,
      Option.isSome_eq_false_iff, Option.isNone_iff_eq_none, Option.isNone_iff_eq_none] at htokens
    refine ⟨fun _ _ => rfl, fun _ => ?_, fun value hget => ?_⟩
    · rw [hnone, htokens.1, htokens.2]
      exact (if_pos ⟨rfl, rfl⟩).symm
    · rw [hnone] at hget
      cases hget

theorem mergeExecutionUsage_mergedFrom {current incoming merged : UsageDocument}
    (h : mergeExecutionUsage castNumeric current incoming = .ok merged) : MergedFrom current incoming merged := by
  rcases except_bind_eq_ok.mp h with ⟨base, hbase, htotal⟩
  have hloop := get?_mergeLoop _ hbase
  have hspec := withTokenTotal_total htotal ((hloop "total_tokens").2 (Or.inr rfl))
  have hinput := hspec.1 "input_tokens" (by decide)
  have houtput := hspec.1 "output_tokens" (by decide)
  refine ⟨fun key hkey => ?_, fun hamounts => ?_, hspec.2.2⟩
  · rw [hspec.1 key hkey]
    by_cases hin : key ∈ mergeKeys current incoming
    · rcases (hloop key).1 hin hkey with ⟨value, hget, hvalue⟩
      rw [hget]
      exact mergedValue_taken hvalue (mem_mergeKeys.mp hin)
    · have hget : base.get? key = none := (hloop key).2 (Or.inl hin)
      rw [mem_mergeKeys, not_or, Bool.not_eq_true, Bool.not_eq_true, Option.isSome_eq_false_iff,
        Option.isSome_eq_false_iff, Option.isNone_iff_eq_none, Option.isNone_iff_eq_none] at hin
      rw [hget, hin.1, hin.2]
      exact .absent
  · rw [hinput, houtput]
    apply hspec.2.1
    intro name hname value hget
    apply hamounts name hname value
    rw [hspec.1 name, hget]
    rcases List.mem_cons.mp hname with rfl | hname
    · decide
    · rw [List.mem_singleton.mp hname]
      decide

namespace MergedFrom

variable {current incoming merged : UsageDocument}

/-- At every dimension the merge of sound records is their join. -/
theorem reading (h : MergedFrom current incoming merged) (hcurrent : SoundUsage current)
    (hincoming : SoundUsage incoming) {name : String} (hname : name ∈ maximisedNames) :
    readingOf (merged.get? name) = readingOf (current.get? name) ⊔ readingOf (incoming.get? name) :=
  ((h.taken name fun heq => total_not_maximised (heq ▸ hname)).reading (hcurrent name hname)
    (hincoming name hname)).1

theorem sound (h : MergedFrom current incoming merged) (hcurrent : SoundUsage current)
    (hincoming : SoundUsage incoming) : SoundUsage merged := fun name hname =>
  ((h.taken name fun heq => total_not_maximised (heq ▸ hname)).reading (hcurrent name hname)
    (hincoming name hname)).2

theorem totals (h : MergedFrom current incoming merged) (hcurrent : SoundUsage current)
    (hincoming : SoundUsage incoming) : readingOf (merged.get? "total_tokens") =
      totalReading (readingOf (merged.get? "input_tokens"))
        (readingOf (merged.get? "output_tokens")) := by
  apply h.total
  have hnames : ∀ name ∈ ["input_tokens", "output_tokens"], name ∈ maximisedNames := by decide
  exact fun name hname => h.sound hcurrent hincoming name (hnames name hname)

end MergedFrom

/-- No value of the record is a negative number. -/
def NoDebt (document : UsageDocument) : Prop :=
  ∀ key value, document.get? key = some value → isNegative value = false

theorem NoDebt.sound (h : NoDebt document) (hvalid : isValidUsage document = true) : SoundUsage document :=
  isValidUsage_sound hvalid fun name _ => h name

theorem exists_mergeExecutionUsage (castNumeric : List Char → Option (ℤ × ℕ))
    {current incoming : UsageDocument} (hcurrent : SoundUsage current)
    (hincoming : SoundUsage incoming) (hdebt : NoDebt current) (hdebt' : NoDebt incoming) :
    ∃ merged, mergeExecutionUsage castNumeric current incoming = .ok merged := by
  have hvalues : ∀ key ∈ mergeKeys current incoming, key ≠ "total_tokens" →
      ∃ value, mergedValue key (current.get? key) (incoming.get? key) = .ok value :=
    fun key _ _ => exists_mergedValue (hdebt key) (hdebt' key)
  rcases exists_mergeLoop _ Dict.empty hvalues with ⟨base, hbase⟩
  -- the token dimensions of the merge are numbers
  have hamounts : ∀ name ∈ ["input_tokens", "output_tokens"], ∀ value,
      base.get? name = some value → IsAmount value := by
    intro name hname value hget
    have hin : name ∈ maximisedNames ∧ name ≠ "total_tokens" := by
      have hall : ∀ name ∈ ["input_tokens", "output_tokens"],
          name ∈ maximisedNames ∧ name ≠ "total_tokens" := by decide
      exact hall name hname
    have hkey : name ∈ mergeKeys current incoming := by
      by_contra hout
      rw [(get?_mergeLoop _ hbase name).2 (Or.inl hout)] at hget
      cases hget
    rcases (get?_mergeLoop _ hbase name).1 hkey hin.2 with ⟨value', hget', hvalue⟩
    rw [hget] at hget'
    cases hget'
    exact ((mergedValue_taken hvalue (mem_mergeKeys.mp hkey)).reading (hcurrent name hin.1)
      (hincoming name hin.1)).2 value rfl
  have htotal : ∃ merged, withTokenTotal castNumeric base = .ok merged := by
    unfold withTokenTotal
    split
    · rcases tokensOf_amount castNumeric (hamounts "input_tokens" (by simp)) with
        ⟨n, scale, hinput, -⟩
      rcases tokensOf_amount castNumeric (hamounts "output_tokens" (by simp)) with
        ⟨m, scale', houtput, -⟩
      exact ⟨_, except_bind_eq_ok.mpr ⟨_, hinput, except_bind_eq_ok.mpr ⟨_, houtput, rfl⟩⟩⟩
    · exact ⟨base, rfl⟩
  rcases htotal with ⟨merged, hmerged⟩
  exact ⟨merged, except_bind_eq_ok.mpr ⟨base, hbase, hmerged⟩⟩

/-! ## 5. Python's merge -/

theorem carried_of_not_amount {snapshot : Snapshot} (h : name ∉ ledgerAmounts) :
    snapshot.carried name = snapshot.reading name := if_neg h

/-- Numbers that are not negative keep their order as floats. -/
theorem map_nearest_sup {a b : WithBot ℚ} (ha : 0 ≤ a.unbotD 0) (hb : 0 ≤ b.unbotD 0) :
    (a ⊔ b).map nearest = a.map nearest ⊔ b.map nearest := by
  cases a with
  | bot => rw [bot_sup_eq, WithBot.map_bot, bot_sup_eq]
  | coe x =>
    cases b with
    | bot => rw [sup_bot_eq, WithBot.map_bot, sup_bot_eq]
    | coe y =>
      rcases le_total x y with hle | hle
      · rw [sup_of_le_right (WithBot.coe_le_coe.mpr hle)]
        exact (sup_of_le_right (WithBot.coe_le_coe.mpr (nearest_mono ha hle))).symm
      · rw [sup_of_le_left (WithBot.coe_le_coe.mpr hle)]
        exact (sup_of_le_left (WithBot.coe_le_coe.mpr (nearest_mono hb hle))).symm

/-- Python reads a join of sound documents as the join of what it reads of them. -/
theorem carried_join {left right : UsageDocument} (hleft : SoundUsage left) (hright : SoundUsage right)
    (hname : name ∈ maximisedNames)
    (h : readingOf (document.get? name) = readingOf (left.get? name) ⊔ readingOf (right.get? name)) :
    (pythonRecord document).carried name =
      (pythonRecord left).carried name ⊔ (pythonRecord right).carried name := by
  rw [carried_pythonRecord, carried_pythonRecord, carried_pythonRecord, h]
  split
  · exact map_nearest_sup (readingOf_nonneg hleft hname) (readingOf_nonneg hright hname)
  · rfl

theorem MergeOf.total {records : List UsageRecord} {merged : Snapshot} (h : MergeOf records merged) :
    merged.reading "total_tokens" =
      totalReading (merged.reading "input_tokens") (merged.reading "output_tokens") := by
  have hvalid := h.valid
  have hcast : ∀ name ∈ ["input_tokens", "output_tokens"],
      (merged.intAt name : ℚ) = (merged.reading name).unbotD 0 := by
    intro name hname
    have hin : ∀ name ∈ ["input_tokens", "output_tokens"], name ∈ wholeNames := by decide
    rw [intAt_cast hvalid (hin name hname),
      carried_of_not_amount fun ha => not_whole_of_amount ha (hin name hname)]
  rcases h with ⟨base, hbase, -, rfl⟩
  have hinput : (withTotal base).get? "input_tokens" = base.get? "input_tokens" :=
    get?_withTotal_ne base (by decide)
  have houtput : (withTotal base).get? "output_tokens" = base.get? "output_tokens" :=
    get?_withTotal_ne base (by decide)
  have hints : base.intAt "input_tokens" = (withTotal base).intAt "input_tokens" ∧
      base.intAt "output_tokens" = (withTotal base).intAt "output_tokens" := by
    unfold Snapshot.intAt
    rw [hinput, houtput]
    exact ⟨rfl, rfl⟩
  have htotal := get?_withTotal_total hbase
  have hbot : ((withTotal base).reading "input_tokens" = ⊥ ∧
      (withTotal base).reading "output_tokens" = ⊥) ↔
        base.get? "input_tokens" = none ∧ base.get? "output_tokens" = none := by
    rw [reading_eq_bot, reading_eq_bot, hinput, houtput]
  unfold totalReading
  split at htotal
  · rename_i hsome
    rw [if_neg, reading_of_get? htotal, ← hcast "input_tokens" (by simp),
      ← hcast "output_tokens" (by simp), hints.1, hints.2]
    · show (((_ + _ : ℤ) : ℚ) : WithBot ℚ) = _
      rw [Int.cast_add]
    · rw [hbot]
      rintro ⟨hin, hout⟩
      rw [hin, hout] at hsome
      cases hsome
  · rename_i hnone
    rw [if_pos, reading_eq_bot.mpr htotal]
    rw [Bool.or_eq_true, not_or, Bool.not_eq_true, Bool.not_eq_true, Option.isSome_eq_false_iff,
      Option.isSome_eq_false_iff, Option.isNone_iff_eq_none, Option.isNone_iff_eq_none] at hnone
    exact hbot.mpr hnone

/-- `ledger_dimensions`. -/
def ledgerDimensions : List String := ledgerCounters ++ ledgerAmounts

theorem maximised_of_dimension (h : name ∈ ledgerDimensions) : name ∈ maximisedNames := maximised_of_cumulative h

/-- A document reads as a merge does at every dimension, and at the total, where it reads as the join
    at the dimensions and derives its total. -/
theorem MergeOf.agrees {records : List UsageRecord} {python : Snapshot} (h : MergeOf records python)
    (hcarried : ∀ name ∈ ledgerDimensions, (pythonRecord document).carried name = joined records name)
    (htotal : readingOf (document.get? "total_tokens") =
      totalReading (readingOf (document.get? "input_tokens"))
        (readingOf (document.get? "output_tokens"))) :
    ∀ name ∈ ledgerDimensions ++ ["total_tokens"],
      (pythonRecord document).carried name = python.carried name := by
  have hdimension : ∀ name ∈ ledgerDimensions,
      (pythonRecord document).carried name = python.carried name := by
    intro name hname
    rw [hcarried name hname, h.carried (maximised_of_dimension hname)]
  intro name hname
  rcases List.mem_append.mp hname with hname | hname
  · exact hdimension name hname
  · -- a total of whole numbers: neither side rounds it
    have hwhole : ∀ name ∈ ["input_tokens", "output_tokens"],
        readingOf (document.get? name) = python.reading name := by
      intro name hname
      have hall : ∀ name ∈ ["input_tokens", "output_tokens"],
          name ∈ ledgerDimensions ∧ name ∉ ledgerAmounts := by decide
      rw [← reading_pythonRecord, ← carried_of_not_amount (hall name hname).2,
        ← carried_of_not_amount (hall name hname).2]
      exact hdimension name (hall name hname).1
    rw [List.mem_singleton.mp hname, carried_of_not_amount (by decide), carried_of_not_amount (by decide),
      reading_pythonRecord, htotal, h.total, hwhole _ (by simp), hwhole _ (by simp)]

/-- The two merges agree on two valid records without a debt. -/
theorem merges_agree (castNumeric : List Char → Option (ℤ × ℕ)) {current incoming : UsageDocument}
    (hcurrent : isValidUsage current = true) (hincoming : isValidUsage incoming = true)
    (hdebt : NoDebt current) (hdebt' : NoDebt incoming) :
    ∃ merged python, mergeExecutionUsage castNumeric current incoming = .ok merged ∧
      mergeUsageSnapshots [.mapping (pythonRecord current), .mapping (pythonRecord incoming)] =
        .ok python ∧
      ∀ name ∈ ledgerDimensions ++ ["total_tokens"],
        (pythonRecord merged).carried name = python.carried name := by
  have hsound := hdebt.sound hcurrent
  have hsound' := hdebt'.sound hincoming
  rcases exists_mergeExecutionUsage castNumeric hsound hsound' hdebt hdebt' with ⟨merged, hmerged⟩
  have hfrom := mergeExecutionUsage_mergedFrom hmerged
  have haccepted : ∀ record ∈ [UsageRecord.mapping (pythonRecord current),
      .mapping (pythonRecord incoming)], record.Accepted := by
    intro record hrecord
    rcases List.mem_cons.mp hrecord with rfl | hrecord
    · exact isValidUsage_accepted hcurrent
    · rw [List.mem_singleton.mp hrecord]
      exact isValidUsage_accepted hincoming
  rcases merge_spec haccepted with ⟨python, hpython, hmergeOf⟩
  refine ⟨merged, python, hmerged, hpython, hmergeOf.agrees (fun name hname => ?_)
    (hfrom.totals hsound hsound')⟩
  have hin := maximised_of_dimension hname
  rw [carried_join hsound hsound' hin (hfrom.reading hsound hsound' hin), joined_cons, joined_cons,
    joined_nil, sup_bot_eq]
  rfl

end Milo.Budget
