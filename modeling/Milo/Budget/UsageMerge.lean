import Milo.Budget.UsageLedger

/-!
# UsageMerge — merging usage records is a join

Read at one dimension, a record is a number (a double where the dimension is an amount) or nothing, and
the merge of any number of records is their supremum there.  Order, grouping and repetition of the records therefore do not matter, no
record is ever refunded, and nothing beyond the records is charged.  What the tracker states after a
restore is the merge up to the rounding of its ledger.
-/

namespace Milo.Budget

open Milo.Reasoning

/-! ## 1. Records read at one dimension -/

/-- What a record carries at a name: a number, or nothing. -/
def Snapshot.reading (snapshot : Snapshot) (name : String) : WithBot ℚ :=
  match snapshot.get? name with
  | none => ⊥
  | some value => (value.number : WithBot ℚ)

/-- What a record counts for at a name: an amount is read as a float. -/
def Snapshot.carried (snapshot : Snapshot) (name : String) : WithBot ℚ :=
  if name ∈ ledgerAmounts then (snapshot.reading name).map nearest else snapshot.reading name

def UsageRecord.reading : UsageRecord → String → WithBot ℚ
  | .absent, _ => ⊥
  | .mapping snapshot, name => snapshot.carried name

/-- The greatest reading any record carries at a name. -/
def joined (records : List UsageRecord) (name : String) : WithBot ℚ :=
  ((records : Multiset UsageRecord).map fun record => record.reading name).sup

theorem joined_nil (name : String) : joined [] name = ⊥ := Multiset.sup_zero

theorem joined_cons (record : UsageRecord) (records : List UsageRecord) (name : String) :
    joined (record :: records) name = record.reading name ⊔ joined records name := by
  unfold joined
  rw [← Multiset.cons_coe, Multiset.map_cons, Multiset.sup_cons]

theorem joined_append (records others : List UsageRecord) (name : String) :
    joined (records ++ others) name = joined records name ⊔ joined others name := by
  unfold joined
  rw [← Multiset.coe_add, Multiset.map_add, Multiset.sup_add]

variable {records : List UsageRecord} {record : UsageRecord} {name : String}
  {snapshot parsed merged left right : Snapshot} {value : UsageValue} {config : BudgetConfig}
  {entry : String × (BudgetConfig → Option ℚ)}

theorem joined_attained (h : joined records name ≠ ⊥) :
    ∃ snapshot, .mapping snapshot ∈ records ∧ snapshot.carried name = joined records name := by
  induction records with
  | nil => exact absurd (joined_nil name) h
  | cons record records ih =>
    rw [joined_cons] at h ⊢
    by_cases hle : joined records name ≤ record.reading name
    · rw [sup_of_le_left hle] at h ⊢
      cases record with
      | absent => exact absurd rfl h
      | mapping snapshot => exact ⟨snapshot, List.mem_cons_self, rfl⟩
    · have hlt := not_le.mp hle
      rw [sup_of_le_right hlt.le] at h ⊢
      rcases ih h with ⟨snapshot, hin, heq⟩
      exact ⟨snapshot, List.mem_cons_of_mem _ hin, heq⟩

theorem reading_of_get? (h : snapshot.get? name = some value) :
    snapshot.reading name = (value.number : WithBot ℚ) := by
  unfold Snapshot.reading
  rw [h]

theorem reading_eq_bot : snapshot.reading name = ⊥ ↔ snapshot.get? name = none := by
  unfold Snapshot.reading
  cases snapshot.get? name with
  | none => simp
  | some value => simp

theorem carried_eq_bot : snapshot.carried name = ⊥ ↔ snapshot.get? name = none := by
  unfold Snapshot.carried
  split
  · rw [WithBot.map_eq_bot_iff, reading_eq_bot]
  · exact reading_eq_bot

theorem numberAt_reading (snapshot : Snapshot) (name : String) :
    snapshot.numberAt name = nearest ((snapshot.reading name).unbotD 0) := by
  unfold Snapshot.numberAt Snapshot.reading UsageValue.toFloat
  cases snapshot.get? name with
  | none => simp [UsageValue.number]
  | some value => rfl

theorem numberAt_eq (snapshot : Snapshot) (name : String) :
    snapshot.numberAt name = nearest ((snapshot.carried name).unbotD 0) := by
  rw [numberAt_reading]
  unfold Snapshot.carried
  split
  · cases snapshot.reading name with
    | bot => rfl
    | coe value => exact (nearest_nearest value).symm
  · rfl

/-! ## 2. The names -/

/-- The whole-number names that are maximised. -/
def wholeNames : List String := ledgerCounters ++ ledgerMetadata

/-- Every name that is maximised. -/
def maximisedNames : List String := wholeNames ++ ledgerAmounts

theorem maximisedNames_nodup : maximisedNames.Nodup := by decide

theorem wholeNames_nodup : wholeNames.Nodup := by decide

theorem ledgerAmounts_nodup : ledgerAmounts.Nodup := by decide

theorem not_whole_of_amount (h : name ∈ ledgerAmounts) : name ∉ wholeNames :=
  fun hwhole => List.disjoint_of_nodup_append maximisedNames_nodup hwhole h

theorem total_not_maximised : "total_tokens" ∉ maximisedNames := by decide

/-! ## 3. What a valid record is -/

/-- Counters and metadata are whole and not negative, amounts are finite and not negative, and a
    declared total is the sum of its components. -/
structure ValidRecord (snapshot : Snapshot) : Prop where
  whole : ∀ name ∈ wholeNames, ∀ value, snapshot.get? name = some value →
    ∃ n : ℤ, value = .int n ∧ 0 ≤ n
  amounts : ∀ name ∈ ledgerAmounts, ∀ value, snapshot.get? name = some value →
    value.amount = .ok value.toFloat ∧ 0 ≤ value.toFloat
  total : ∀ value, snapshot.get? "total_tokens" = some value → value = .none ∨
    (value = .int (snapshot.intAt "input_tokens" + snapshot.intAt "output_tokens"))

theorem counter_eq_ok {n : ℤ} : value.counter = .ok n ↔ value = .int n ∧ 0 ≤ n := by
  unfold UsageValue.counter
  cases value with
  | int m =>
    simp only
    by_cases hm : m < 0
    · rw [if_pos hm]
      constructor
      · exact fun h => by cases h
      · intro h
        cases h.1
        omega
    · rw [if_neg hm]
      constructor
      · intro h
        cases h
        exact ⟨rfl, by omega⟩
      · intro h
        cases h.1
        rfl
  | _ => simp

theorem amount_eq_ok {q : ℚ} (h : value.amount = .ok q) : q = value.toFloat ∧ 0 ≤ q ∧ IsDouble q := by
  have hread : ∀ {raw : ℚ} {large : String}, (do
      let numeric ← required (toDouble? raw) large
      refuseIf (numeric < 0) "budget snapshot contains an invalid amount"
      pure numeric) = Except.ok q → q = nearest raw ∧ 0 ≤ q ∧ IsDouble q := by
    intro raw large h
    rcases except_bind_eq_ok.mp h with ⟨numeric, hnumeric, h⟩
    rcases except_bind_eq_ok.mp h with ⟨_, hsign, h⟩
    cases h
    have hdouble := required_eq_ok.mp hnumeric
    exact ⟨(toDouble?_eq_some.mp hdouble).1, not_lt.mp (refuseIf_eq_ok.mp hsign), isDouble_of_toDouble? hdouble⟩
  unfold UsageValue.amount at h
  split at h
  · exact hread h
  · exact hread h
  · cases h

theorem amount_of_isDouble {q : ℚ} (hdouble : IsDouble q) (hq : 0 ≤ q) :
    (UsageValue.float (some q)).amount = .ok q :=
  except_bind_eq_ok.mpr ⟨q, required_eq_ok.mpr hdouble,
    except_bind_eq_ok.mpr ⟨⟨⟩, refuseIf_eq_ok.mpr (not_lt.mpr hq), rfl⟩⟩

/-! ## 4. Parsing -/

section Parsing

variable {read : UsageValue → Except String UsageValue} {snapshot : Snapshot}

theorem parseFields_isOk (names : List String) :
    ∀ parsed, (∃ result, parseFields read snapshot names parsed = .ok result) ↔
      ∀ name ∈ names, ∀ value, snapshot.get? name = some value →
        ∃ readValue, read value = .ok readValue := by
  induction names with
  | nil =>
    intro parsed
    simp [parseFields]
  | cons name names ih =>
    intro parsed
    unfold parseFields
    cases hget : snapshot.get? name with
    | none =>
      simp only
      rw [ih parsed]
      simp [hget]
    | some value =>
      simp only
      cases hread : read value with
      | error e =>
        constructor
        · intro h
          rcases h with ⟨_, h⟩
          cases h
        · intro h
          rcases h name List.mem_cons_self value hget with ⟨_, h⟩
          rw [hread] at h
          cases h
      | ok readValue =>
        show (∃ result, parseFields read snapshot names (parsed.set name readValue) = .ok result) ↔ _
        rw [ih (parsed.set name readValue)]
        simp [hget, hread]

theorem get?_parseFields (names : List String) :
    ∀ {parsed result}, names.Nodup → parseFields read snapshot names parsed = .ok result →
      ∀ key, result.get? key =
        if key ∈ names then
          match snapshot.get? key with
          | none => parsed.get? key
          | some value => (read value).toOption
        else parsed.get? key := by
  induction names with
  | nil =>
    intro parsed result _ h key
    cases h
    simp
  | cons name names ih =>
    intro parsed result hnodup h key
    rw [List.nodup_cons] at hnodup
    unfold parseFields at h
    cases hget : snapshot.get? name with
    | none =>
      rw [hget] at h
      rw [ih hnodup.2 h key]
      by_cases hkey : key = name
      · rw [hkey, if_neg hnodup.1, if_pos List.mem_cons_self, hget]
      · simp [hkey]
    | some value =>
      rw [hget] at h
      rcases except_bind_eq_ok.mp h with ⟨readValue, hread, h⟩
      rw [ih hnodup.2 h key]
      by_cases hkey : key = name
      · rw [hkey, if_neg hnodup.1, if_pos List.mem_cons_self, hget, Dict.get?_set_self]
        show some readValue = (read value).toOption
        rw [hread]
        rfl
      · rw [Dict.get?_set_ne _ _ hkey]
        simp [hkey]

end Parsing

theorem readCounter_eq_ok {readValue : UsageValue} :
    value.readCounter = .ok readValue ↔ ∃ n : ℤ, value = .int n ∧ 0 ≤ n ∧ readValue = value := by
  unfold UsageValue.readCounter
  rw [except_bind_eq_ok]
  constructor
  · intro h
    rcases h with ⟨n, hcounter, h⟩
    rcases counter_eq_ok.mp hcounter with ⟨rfl, hn⟩
    cases h
    exact ⟨n, rfl, hn, rfl⟩
  · intro h
    rcases h with ⟨n, rfl, hn, rfl⟩
    exact ⟨n, counter_eq_ok.mpr ⟨rfl, hn⟩, rfl⟩

theorem readAmount_eq_ok {readValue : UsageValue} :
    value.readAmount = .ok readValue ↔
      value.amount = .ok value.toFloat ∧ readValue = .float (some value.toFloat) := by
  unfold UsageValue.readAmount
  rw [except_bind_eq_ok]
  constructor
  · intro h
    rcases h with ⟨q, hq, h⟩
    have hnumber := (amount_eq_ok hq).1
    cases h
    rw [← hnumber]
    exact ⟨hq, rfl⟩
  · intro h
    rcases h with ⟨hamount, rfl⟩
    exact ⟨value.toFloat, hamount, rfl⟩

theorem parseTotal_eq_ok {result : Snapshot} (h : parseTotal snapshot parsed = .ok result) :
    (∀ name, name ≠ "total_tokens" → result.get? name = parsed.get? name) ∧
      ∀ declared, snapshot.get? "total_tokens" = some declared → declared = .none ∨
        ∃ input output, snapshot.counterAt "input_tokens" = .ok input ∧
          snapshot.counterAt "output_tokens" = .ok output ∧ declared = .int (input + output) := by
  unfold parseTotal at h
  split at h
  · rename_i hnone
    cases h
    refine ⟨fun _ _ => rfl, fun declared hdeclared => ?_⟩
    rw [hnone] at hdeclared
    cases hdeclared
  · rename_i hnone
    cases h
    refine ⟨fun _ _ => rfl, fun declared hdeclared => ?_⟩
    rw [hnone] at hdeclared
    cases hdeclared
    exact Or.inl rfl
  · rename_i declared _ hget
    rcases except_bind_eq_ok.mp h with ⟨total, htotal, h⟩
    rcases except_bind_eq_ok.mp h with ⟨input, hinput, h⟩
    rcases except_bind_eq_ok.mp h with ⟨output, houtput, h⟩
    by_cases hsum : total = input + output
    · rw [if_neg (not_not.mpr hsum)] at h
      cases h
      refine ⟨fun name hname => Dict.get?_set_ne _ _ hname, fun declared' hdeclared => ?_⟩
      rw [hget] at hdeclared
      cases hdeclared
      exact Or.inr ⟨input, output, hinput, houtput, hsum ▸ (counter_eq_ok.mp htotal).1⟩
    · rw [if_pos hsum] at h
      cases h

theorem counterAt_eq_ok {n : ℤ} (h : snapshot.counterAt name = .ok n) : n = snapshot.intAt name := by
  have hvalue := (counter_eq_ok.mp h).1
  unfold Snapshot.intAt
  cases hget : snapshot.get? name with
  | none =>
    rw [hget] at hvalue
    cases hvalue
    rfl
  | some value =>
    rw [hget] at hvalue
    cases hvalue
    rfl

/-- A parsed record is the valid fields of the record, as whole numbers and amounts. -/
structure ParsedFrom (snapshot parsed : Snapshot) : Prop where
  valid : ValidRecord snapshot
  whole : ∀ name ∈ wholeNames, parsed.get? name = snapshot.get? name
  amounts : ∀ name ∈ ledgerAmounts, parsed.get? name =
    (snapshot.get? name).map fun value => .float (some value.toFloat)

theorem validate_parsedFrom (h : validateUsageSnapshot snapshot = .ok parsed) : ParsedFrom snapshot parsed := by
  rcases except_bind_eq_ok.mp h with ⟨counters, hcounters, h⟩
  rcases except_bind_eq_ok.mp h with ⟨amounts, hamounts, h⟩
  rcases except_bind_eq_ok.mp h with ⟨metadata, hmetadata, htotal⟩
  have hread : ∀ name ∈ wholeNames, ∀ value, snapshot.get? name = some value →
      ∃ readValue, value.readCounter = .ok readValue := by
    intro name hname
    rcases List.mem_append.mp hname with hname | hname
    · exact (parseFields_isOk _ _).mp ⟨_, hcounters⟩ name hname
    · exact (parseFields_isOk _ _).mp ⟨_, hmetadata⟩ name hname
  have hreadAmount := (parseFields_isOk _ _).mp ⟨_, hamounts⟩
  -- the three passes write disjoint names
  have hmetadataAt : ∀ name ∈ ledgerMetadata, parsed.get? name =
      (snapshot.get? name).bind fun v => v.readCounter.toOption := by
    intro name hname
    have hother : ∀ other ∈ ledgerMetadata,
        other ≠ "total_tokens" ∧ other ∉ ledgerAmounts ∧ other ∉ ledgerCounters := by decide
    rw [(parseTotal_eq_ok htotal).1 name (hother name hname).1,
      get?_parseFields _ (by decide) hmetadata name, get?_parseFields _ (by decide) hamounts name,
      get?_parseFields _ (by decide) hcounters name, if_pos hname, if_neg (hother name hname).2.1,
      if_neg (hother name hname).2.2]
    cases snapshot.get? name <;> rfl
  have hcountersAt : ∀ name ∈ ledgerCounters, parsed.get? name =
      (snapshot.get? name).bind fun v => v.readCounter.toOption := by
    intro name hname
    have hother : ∀ other ∈ ledgerCounters,
        other ≠ "total_tokens" ∧ other ∉ ledgerAmounts ∧ other ∉ ledgerMetadata := by decide
    rw [(parseTotal_eq_ok htotal).1 name (hother name hname).1,
      get?_parseFields _ (by decide) hmetadata name, get?_parseFields _ (by decide) hamounts name,
      get?_parseFields _ (by decide) hcounters name, if_neg (hother name hname).2.2,
      if_neg (hother name hname).2.1, if_pos hname]
    cases snapshot.get? name <;> rfl
  have hamountsAt : ∀ name ∈ ledgerAmounts, parsed.get? name =
      (snapshot.get? name).bind fun v => v.readAmount.toOption := by
    intro name hname
    have hother : ∀ other ∈ ledgerAmounts,
        other ≠ "total_tokens" ∧ other ∉ ledgerCounters ∧ other ∉ ledgerMetadata := by decide
    rw [(parseTotal_eq_ok htotal).1 name (hother name hname).1,
      get?_parseFields _ (by decide) hmetadata name, get?_parseFields _ (by decide) hamounts name,
      get?_parseFields _ (by decide) hcounters name, if_neg (hother name hname).2.2,
      if_pos hname, if_neg (hother name hname).2.1]
    cases snapshot.get? name <;> rfl
  constructor
  · constructor
    · intro name hname value hget
      rcases hread name hname value hget with ⟨readValue, hvalue⟩
      rcases readCounter_eq_ok.mp hvalue with ⟨n, hn, hpos, -⟩
      exact ⟨n, hn, hpos⟩
    · intro name hname value hget
      rcases hreadAmount name hname value hget with ⟨readValue, hvalue⟩
      have hamount := (readAmount_eq_ok.mp hvalue).1
      exact ⟨hamount, (amount_eq_ok hamount).2.1⟩
    · intro value hget
      rcases (parseTotal_eq_ok htotal).2 value hget with hnone | ⟨input, output, hin, hout, heq⟩
      · exact Or.inl hnone
      · right
        rw [heq, counterAt_eq_ok hin, counterAt_eq_ok hout]
  · intro name hname
    have hat : parsed.get? name = (snapshot.get? name).bind fun v => v.readCounter.toOption := by
      rcases List.mem_append.mp hname with h | h
      · exact hcountersAt name h
      · exact hmetadataAt name h
    rw [hat]
    cases hget : snapshot.get? name with
    | none => rfl
    | some value =>
      rcases hread name hname value hget with ⟨readValue, hvalue⟩
      rcases readCounter_eq_ok.mp hvalue with ⟨_, _, _, heq⟩
      show value.readCounter.toOption = some value
      rw [hvalue, heq]
      rfl
  · intro name hname
    rw [hamountsAt name hname]
    cases hget : snapshot.get? name with
    | none => rfl
    | some value =>
      rcases hreadAmount name hname value hget with ⟨readValue, hvalue⟩
      show value.readAmount.toOption = some (.float (some value.toFloat))
      rw [hvalue, (readAmount_eq_ok.mp hvalue).2]
      rfl

theorem ValidRecord.accepted (h : ValidRecord snapshot) :
    ∃ parsed, validateUsageSnapshot snapshot = .ok parsed := by
  have hreads : ∀ name ∈ wholeNames, ∀ value, snapshot.get? name = some value →
      ∃ readValue, value.readCounter = .ok readValue := by
    intro name hname value hget
    rcases h.whole name hname value hget with ⟨n, hn, hpos⟩
    exact ⟨value, readCounter_eq_ok.mpr ⟨n, hn, hpos, rfl⟩⟩
  rcases (parseFields_isOk ledgerCounters Dict.empty).mpr
    (fun name hname => hreads name (List.mem_append_left _ hname)) with ⟨counters, hcounters⟩
  rcases (parseFields_isOk ledgerAmounts counters).mpr (fun name hname value hget =>
    ⟨_, readAmount_eq_ok.mpr ⟨(h.amounts name hname value hget).1, rfl⟩⟩) with ⟨amounts, hamounts⟩
  rcases (parseFields_isOk ledgerMetadata amounts).mpr
    (fun name hname => hreads name (List.mem_append_right _ hname)) with ⟨metadata, hmetadata⟩
  have hcounter : ∀ name ∈ wholeNames, snapshot.counterAt name = .ok (snapshot.intAt name) := by
    intro name hname
    unfold Snapshot.counterAt Snapshot.intAt
    cases hget : snapshot.get? name with
    | none => rfl
    | some value =>
      rcases h.whole name hname value hget with ⟨n, rfl, hpos⟩
      exact counter_eq_ok.mpr ⟨rfl, hpos⟩
  have htotal : ∃ parsed, parseTotal snapshot metadata = .ok parsed := by
    unfold parseTotal
    cases hget : snapshot.get? "total_tokens" with
    | none => exact ⟨_, rfl⟩
    | some declared =>
      rcases h.total declared hget with rfl | rfl
      · exact ⟨_, rfl⟩
      · have hin := counter_eq_ok.mp (hcounter "input_tokens" (by decide))
        have hout := counter_eq_ok.mp (hcounter "output_tokens" (by decide))
        refine ⟨metadata.set "total_tokens"
          (.int (snapshot.intAt "input_tokens" + snapshot.intAt "output_tokens")),
          except_bind_eq_ok.mpr ⟨_, counter_eq_ok.mpr ⟨rfl, by omega⟩, ?_⟩⟩
        refine except_bind_eq_ok.mpr ⟨_, hcounter "input_tokens" (by decide), ?_⟩
        refine except_bind_eq_ok.mpr ⟨_, hcounter "output_tokens" (by decide), ?_⟩
        rw [if_neg (not_not.mpr rfl)]
  rcases htotal with ⟨parsed, hparsed⟩
  refine ⟨parsed, except_bind_eq_ok.mpr ⟨counters, hcounters, ?_⟩⟩
  refine except_bind_eq_ok.mpr ⟨amounts, hamounts, ?_⟩
  exact except_bind_eq_ok.mpr ⟨metadata, hmetadata, hparsed⟩

/-! ## 5. Maximising -/

/-- The value of each maximised field is of its kind, and no other field is there. -/
structure Canonical (merged : Snapshot) : Prop where
  known : ∀ name value, merged.get? name = some value → name ∈ maximisedNames
  whole : ∀ name ∈ wholeNames, ∀ value, merged.get? name = some value →
    ∃ n : ℤ, value = .int n ∧ 0 ≤ n
  amounts : ∀ name ∈ ledgerAmounts, ∀ value, merged.get? name = some value →
    ∃ q : ℚ, value = .float (some q) ∧ 0 ≤ q ∧ IsDouble q

theorem canonical_empty : Canonical Dict.empty where
  known := fun _ _ h => by cases h
  whole := fun _ _ _ h => by cases h
  amounts := fun _ _ _ h => by cases h

theorem maximum_none {zero : UsageValue} (hzero : zero.number = 0) (hvalue : 0 ≤ value.number) :
    (maximum zero none value).number = value.number := by
  unfold maximum
  simp only [Option.getD_none]
  split
  · rfl
  · rename_i h
    rw [hzero] at h ⊢
    exact le_antisymm hvalue (not_lt.mp h)

theorem maximum_some {zero held : UsageValue} :
    (maximum zero (some held) value).number = held.number ⊔ value.number := by
  unfold maximum
  simp only [Option.getD_some]
  split
  · rename_i h
    exact (sup_of_le_right h.le).symm
  · rename_i h
    exact (sup_of_le_left (not_lt.mp h)).symm

/-- The maximum is one of the two values, or the zero. -/
theorem maximum_cases (zero : UsageValue) (held : Option UsageValue) (value : UsageValue) :
    maximum zero held value = value ∨ maximum zero held value = held.getD zero := by
  unfold maximum
  simp only
  split
  · exact Or.inl rfl
  · exact Or.inr rfl

section Maximising

variable {zero : UsageValue} {parsed : Snapshot}

/-- Maximising joins the readings of its names and leaves the others. -/
theorem reading_maximiseFields (hzero : zero.number = 0) (names : List String) :
    ∀ {merged : Snapshot}, names.Nodup →
      (∀ name ∈ names, ∀ value, parsed.get? name = some value → 0 ≤ value.number) → ∀ key,
      (maximiseFields zero parsed names merged).reading key =
        if key ∈ names then merged.reading key ⊔ parsed.reading key else merged.reading key := by
  induction names with
  | nil =>
    intro merged _ _ key
    rfl
  | cons name names ih =>
    intro merged hnodup hpos key
    rw [List.nodup_cons] at hnodup
    have hrest : ∀ name ∈ names, ∀ value, parsed.get? name = some value → 0 ≤ value.number :=
      fun other hother => hpos other (List.mem_cons_of_mem _ hother)
    unfold maximiseFields
    cases hget : parsed.get? name with
    | none =>
      simp only
      rw [ih hnodup.2 hrest key]
      by_cases hkey : key = name
      · rw [hkey, if_neg hnodup.1, if_pos List.mem_cons_self, reading_eq_bot.mpr hget, sup_bot_eq]
      · simp [hkey]
    | some value =>
      simp only
      rw [ih hnodup.2 hrest key]
      by_cases hkey : key = name
      · rw [hkey, if_neg hnodup.1, if_pos List.mem_cons_self, reading_of_get? hget,
          reading_of_get? (Dict.get?_set_self _ _ _)]
        cases hheld : merged.get? name with
        | none =>
          rw [reading_eq_bot.mpr hheld, bot_sup_eq,
            maximum_none hzero (hpos name List.mem_cons_self value hget)]
        | some held =>
          rw [reading_of_get? hheld, maximum_some, WithBot.coe_sup]
      · have hset : Snapshot.reading (merged.set name (maximum zero (merged.get? name) value)) key =
            merged.reading key := by
          unfold Snapshot.reading
          rw [Dict.get?_set_ne _ _ hkey]
        rw [hset]
        simp [hkey]

/-- What maximising stores was stored, carried by the record, or the zero. -/
theorem maximiseFields_keeps {P : String → UsageValue → Prop} (names : List String) :
    ∀ {merged : Snapshot},
      (∀ name ∈ names, ∀ value, parsed.get? name = some value → P name value ∧ P name zero) →
      (∀ name value, merged.get? name = some value → P name value) →
      ∀ name value, (maximiseFields zero parsed names merged).get? name = some value →
        P name value := by
  induction names with
  | nil => exact fun _ hmerged => hmerged
  | cons first names ih =>
    intro merged hparsed hmerged
    have hrest := fun name (hname : name ∈ names) => hparsed name (List.mem_cons_of_mem _ hname)
    unfold maximiseFields
    cases hget : parsed.get? first with
    | none => exact ih hrest hmerged
    | some value =>
      apply ih hrest
      intro name stored hstored
      rw [Dict.get?_set] at hstored
      by_cases hname : name = first
      · rw [if_pos hname] at hstored
        cases hstored
        rw [hname]
        have hboth := hparsed first List.mem_cons_self value hget
        rcases maximum_cases zero (merged.get? first) value with h | h
        · rw [h]
          exact hboth.1
        · rw [h]
          cases hheld : merged.get? first with
          | none => exact hboth.2
          | some held => exact hmerged first held hheld
      · rw [if_neg hname] at hstored
        exact hmerged name stored hstored

end Maximising

/-! ## 6. The merge -/

/-- A record a merge accepts: absent, empty or valid. -/
def UsageRecord.Accepted : UsageRecord → Prop
  | .absent => True
  | .mapping snapshot => snapshot.entries = [] ∨ ∃ parsed, validateUsageSnapshot snapshot = .ok parsed

theorem ParsedFrom.reading (h : ParsedFrom snapshot parsed) (hname : name ∈ maximisedNames) :
    parsed.reading name = snapshot.carried name := by
  unfold Snapshot.carried Snapshot.reading
  rcases List.mem_append.mp hname with hwhole | hamount
  · rw [h.whole name hwhole, if_neg fun ha => not_whole_of_amount ha hwhole]
  · rw [h.amounts name hamount, if_pos hamount]
    cases snapshot.get? name with
    | none => rfl
    | some value => rfl

theorem Canonical.carried (h : Canonical merged) (name : String) : merged.carried name = merged.reading name := by
  unfold Snapshot.carried
  split
  · rename_i hname
    unfold Snapshot.reading
    cases hget : merged.get? name with
    | none => rfl
    | some value =>
      obtain ⟨q, rfl, -, hdouble⟩ := h.amounts name hname value hget
      exact congrArg WithBot.some hdouble.nearest
  · rfl

theorem maximise_parsed (h : ParsedFrom snapshot parsed) (hmerged : Canonical merged) :
    Canonical (maximiseFields (.float (some 0)) parsed ledgerAmounts
        (maximiseFields (.int 0) parsed (ledgerCounters ++ ledgerMetadata) merged)) ∧
      ∀ name ∈ maximisedNames,
        (maximiseFields (.float (some 0)) parsed ledgerAmounts
          (maximiseFields (.int 0) parsed (ledgerCounters ++ ledgerMetadata) merged)).reading name =
            merged.reading name ⊔ snapshot.carried name := by
  have hwholeParsed : ∀ name ∈ wholeNames, ∀ value, parsed.get? name = some value →
      ∃ n : ℤ, value = .int n ∧ 0 ≤ n := by
    intro name hname value hget
    rw [h.whole name hname] at hget
    exact h.valid.whole name hname value hget
  have hamountParsed : ∀ name ∈ ledgerAmounts, ∀ value, parsed.get? name = some value →
      ∃ q : ℚ, value = .float (some q) ∧ 0 ≤ q ∧ IsDouble q := by
    intro name hname value hget
    rw [h.amounts name hname] at hget
    rcases Option.map_eq_some_iff.mp hget with ⟨raw, hraw, rfl⟩
    have hamount := (h.valid.amounts name hname raw hraw).1
    exact ⟨raw.toFloat, rfl, (amount_eq_ok hamount).2⟩
  -- the counters are maximised first; what they leave under an amount is an amount
  let kind (name : String) (value : UsageValue) : Prop :=
    name ∈ maximisedNames ∧ (name ∈ wholeNames → ∃ n : ℤ, value = .int n ∧ 0 ≤ n) ∧
      (name ∈ ledgerAmounts → ∃ q : ℚ, value = .float (some q) ∧ 0 ≤ q ∧ IsDouble q)
  have hkind : ∀ name value, (maximiseFields (.float (some 0)) parsed ledgerAmounts
      (maximiseFields (.int 0) parsed (ledgerCounters ++ ledgerMetadata) merged)).get? name =
        some value → kind name value := by
    apply maximiseFields_keeps
    · intro name hname value hget
      have hin : name ∈ maximisedNames := List.mem_append_right _ hname
      have hnot := not_whole_of_amount hname
      exact ⟨⟨hin, fun hwhole => absurd hwhole hnot, fun _ => hamountParsed name hname value hget⟩,
        hin, fun hwhole => absurd hwhole hnot, fun _ => ⟨0, rfl, le_refl 0, isDouble_zero⟩⟩
    · apply maximiseFields_keeps
      · intro name hname value hget
        have hin : name ∈ maximisedNames := List.mem_append_left _ hname
        have hnot : name ∉ ledgerAmounts := fun ha => not_whole_of_amount ha hname
        exact ⟨⟨hin, fun _ => hwholeParsed name hname value hget, fun ha => absurd ha hnot⟩,
          hin, fun _ => ⟨0, rfl, le_refl 0⟩, fun ha => absurd ha hnot⟩
      · intro name value hget
        exact ⟨hmerged.known name value hget, fun hname => hmerged.whole name hname value hget,
          fun hname => hmerged.amounts name hname value hget⟩
  refine ⟨⟨fun name value hget => (hkind name value hget).1,
    fun name hname value hget => (hkind name value hget).2.1 hname,
    fun name hname value hget => (hkind name value hget).2.2 hname⟩, ?_⟩
  intro name hname
  have hposWhole : ∀ name ∈ ledgerCounters ++ ledgerMetadata, ∀ value,
      parsed.get? name = some value → 0 ≤ value.number := by
    intro name hname value hget
    rcases hwholeParsed name hname value hget with ⟨n, rfl, hn⟩
    exact Int.cast_nonneg hn
  have hposAmount : ∀ name ∈ ledgerAmounts, ∀ value,
      parsed.get? name = some value → 0 ≤ value.number := by
    intro name hname value hget
    rcases hamountParsed name hname value hget with ⟨q, rfl, hq, -⟩
    exact hq
  rw [reading_maximiseFields rfl ledgerAmounts ledgerAmounts_nodup hposAmount name,
    reading_maximiseFields (by simp [UsageValue.number]) (ledgerCounters ++ ledgerMetadata)
      wholeNames_nodup hposWhole name,
    ← h.reading hname]
  -- each of the two passes joins its own names and leaves the others
  rcases List.mem_append.mp hname with hwhole | hamount
  · have hnot : name ∉ ledgerAmounts := fun ha => not_whole_of_amount ha hwhole
    have hin : name ∈ ledgerCounters ++ ledgerMetadata := hwhole
    rw [if_neg hnot, if_pos hin]
  · have hnot : name ∉ ledgerCounters ++ ledgerMetadata := not_whole_of_amount hamount
    rw [if_pos hamount, if_neg hnot]

/-- One step of the merge joins the record; a record that is not accepted stops it. -/
theorem mergeRecord_spec (hmerged : Canonical merged) (haccepted : record.Accepted) :
    ∃ result, mergeRecord merged record = .ok result ∧ Canonical result ∧
      ∀ name ∈ maximisedNames, result.reading name = merged.reading name ⊔ record.reading name := by
  cases record with
  | absent =>
    exact ⟨merged, rfl, hmerged, fun name _ => (sup_bot_eq _).symm⟩
  | mapping snapshot =>
    unfold mergeRecord
    by_cases hempty : snapshot.entries = []
    · have hbot : ∀ name, snapshot.carried name = ⊥ := by
        intro name
        apply carried_eq_bot.mpr
        unfold Dict.get?
        rw [hempty]
        rfl
      refine ⟨merged, if_pos hempty, hmerged, fun name _ => ?_⟩
      show merged.reading name = merged.reading name ⊔ snapshot.carried name
      rw [hbot, sup_bot_eq]
    · rcases haccepted with hnone | ⟨parsed, hparsed⟩
      · exact absurd hnone hempty
      · have hspec := maximise_parsed (validate_parsedFrom hparsed) hmerged
        simp only [if_neg hempty]
        exact ⟨_, except_bind_eq_ok.mpr ⟨parsed, hparsed, rfl⟩, hspec⟩

theorem mergeRecords_spec (records : List UsageRecord) :
    ∀ {merged : Snapshot}, Canonical merged → (∀ record ∈ records, record.Accepted) →
      ∃ result, mergeRecords merged records = .ok result ∧ Canonical result ∧
        ∀ name ∈ maximisedNames, result.reading name = merged.reading name ⊔ joined records name := by
  induction records with
  | nil =>
    intro merged hmerged _
    refine ⟨merged, rfl, hmerged, fun name _ => ?_⟩
    rw [joined_nil, sup_bot_eq]
  | cons record records ih =>
    intro merged hmerged haccepted
    rcases mergeRecord_spec hmerged (haccepted record List.mem_cons_self) with
      ⟨next, hnext, hcanonical, hreading⟩
    rcases ih hcanonical (fun r hr => haccepted r (List.mem_cons_of_mem _ hr)) with
      ⟨result, hresult, hresultCanonical, hresultReading⟩
    refine ⟨result, except_bind_eq_ok.mpr ⟨next, hnext, hresult⟩, hresultCanonical, ?_⟩
    intro name hname
    rw [hresultReading name hname, hreading name hname, joined_cons, sup_assoc]

/-- The merge of the records: their joined readings, and the token total over them. -/
def MergeOf (records : List UsageRecord) (merged : Snapshot) : Prop :=
  ∃ base, Canonical base ∧ (∀ name ∈ maximisedNames, base.reading name = joined records name) ∧
    merged = withTotal base

theorem merge_spec (haccepted : ∀ record ∈ records, record.Accepted) :
    ∃ merged, mergeUsageSnapshots records = .ok merged ∧ MergeOf records merged := by
  rcases mergeRecords_spec records canonical_empty haccepted with
    ⟨base, hbase, hcanonical, hreading⟩
  refine ⟨withTotal base, except_bind_eq_ok.mpr ⟨base, hbase, rfl⟩, base, hcanonical, ?_, rfl⟩
  intro name hname
  rw [hreading name hname]
  exact bot_sup_eq _

theorem get?_withTotal_ne (base : Snapshot) {key : String} (hkey : key ≠ "total_tokens") :
    (withTotal base).get? key = base.get? key := by
  unfold withTotal
  split
  · exact Dict.get?_set_ne _ _ hkey
  · rfl

theorem get?_withTotal_total {base : Snapshot} (h : Canonical base) :
    (withTotal base).get? "total_tokens" =
      if (base.get? "input_tokens").isSome || (base.get? "output_tokens").isSome then
        some (.int (base.intAt "input_tokens" + base.intAt "output_tokens"))
      else none := by
  unfold withTotal
  split
  · exact Dict.get?_set_self _ _ _
  · cases hget : base.get? "total_tokens" with
    | none => rfl
    | some value => exact absurd (h.known _ _ hget) total_not_maximised

/-- A canonical record is determined by its readings. -/
theorem Canonical.get?_congr {base other : Snapshot} (hbase : Canonical base)
    (hother : Canonical other)
    (h : ∀ name ∈ maximisedNames, base.reading name = other.reading name) (key : String) :
    base.get? key = other.get? key := by
  by_cases hkey : key ∈ maximisedNames
  · have hreading := h key hkey
    cases hb : base.get? key with
    | none => exact (reading_eq_bot.mp (hreading ▸ reading_eq_bot.mpr hb)).symm
    | some value =>
      cases ho : other.get? key with
      | none =>
        rw [reading_of_get? hb, reading_eq_bot.mpr ho] at hreading
        exact absurd hreading (WithBot.coe_ne_bot)
      | some value' =>
        rw [reading_of_get? hb, reading_of_get? ho, WithBot.coe_inj] at hreading
        rcases List.mem_append.mp hkey with hwhole | hamount
        · rcases hbase.whole key hwhole value hb with ⟨n, rfl, -⟩
          rcases hother.whole key hwhole value' ho with ⟨m, rfl, -⟩
          have hnm : n = m := Int.cast_injective hreading
          rw [hnm]
        · rcases hbase.amounts key hamount value hb with ⟨q, rfl, -⟩
          rcases hother.amounts key hamount value' ho with ⟨r, rfl, -⟩
          have hqr : q = r := hreading
          rw [hqr]
  · cases hb : base.get? key with
    | some value => exact absurd (hbase.known key value hb) hkey
    | none =>
      cases ho : other.get? key with
      | some value => exact absurd (hother.known key value ho) hkey
      | none => rfl

/-- Equal as Python compares mappings: the same value under every key. -/
def Same (left right : Snapshot) : Prop := ∀ key, left.get? key = right.get? key

theorem MergeOf.same {others : List UsageRecord} {other : Snapshot} (h : MergeOf records merged)
    (h' : MergeOf others other) (hjoined : ∀ name ∈ maximisedNames, joined records name = joined others name) :
    Same merged other := by
  rcases h with ⟨base, hbase, hreading, rfl⟩
  rcases h' with ⟨base', hbase', hreading', rfl⟩
  have hcongr := hbase.get?_congr hbase' fun name hname => by
    rw [hreading name hname, hreading' name hname, hjoined name hname]
  intro key
  by_cases hkey : key = "total_tokens"
  · rw [hkey, get?_withTotal_total hbase, get?_withTotal_total hbase']
    unfold Snapshot.intAt
    rw [hcongr "input_tokens", hcongr "output_tokens"]
  · rw [get?_withTotal_ne _ hkey, get?_withTotal_ne _ hkey, hcongr key]

theorem MergeOf.reading (h : MergeOf records merged) (hname : name ∈ maximisedNames) :
    merged.reading name = joined records name := by
  rcases h with ⟨base, -, hreading, rfl⟩
  have hne : name ≠ "total_tokens" := fun heq => total_not_maximised (heq ▸ hname)
  rw [← hreading name hname]
  unfold Snapshot.reading
  rw [get?_withTotal_ne _ hne]

theorem MergeOf.carried (h : MergeOf records merged) (hname : name ∈ maximisedNames) :
    merged.carried name = joined records name := by
  rw [← h.reading hname]
  rcases h with ⟨base, hbase, -, rfl⟩
  have hcarried := hbase.carried name
  have hne : name ≠ "total_tokens" := fun heq => total_not_maximised (heq ▸ hname)
  unfold Snapshot.carried Snapshot.reading at *
  rwa [get?_withTotal_ne _ hne]

theorem MergeOf.valid (h : MergeOf records merged) : ValidRecord merged := by
  rcases h with ⟨base, hbase, -, rfl⟩
  have hne : ∀ name ∈ maximisedNames, (withTotal base).get? name = base.get? name :=
    fun name hname => get?_withTotal_ne base fun heq => total_not_maximised (heq ▸ hname)
  constructor
  · intro name hname value hget
    rw [hne name (List.mem_append_left _ hname)] at hget
    exact hbase.whole name hname value hget
  · intro name hname value hget
    rw [hne name (List.mem_append_right _ hname)] at hget
    rcases hbase.amounts name hname value hget with ⟨q, rfl, hq, hdouble⟩
    have hfloat : (UsageValue.float (some q)).toFloat = q := hdouble.nearest
    rw [hfloat]
    exact ⟨amount_of_isDouble hdouble hq, hq⟩
  · intro value hget
    rw [get?_withTotal_total hbase] at hget
    split at hget
    · cases hget
      right
      unfold Snapshot.intAt
      rw [hne "input_tokens" (by decide), hne "output_tokens" (by decide)]
    · cases hget

/-! ## 7. What is not below, and what remains -/

theorem maximised_of_cumulative (h : name ∈ ledgerCounters ++ ledgerAmounts) : name ∈ maximisedNames := by
  rcases List.mem_append.mp h with h | h
  · exact List.mem_append_left _ (List.mem_append_left _ h)
  · exact List.mem_append_right _ h

theorem intAt_cast (h : ValidRecord snapshot) (hname : name ∈ wholeNames) :
    (snapshot.intAt name : ℚ) = (snapshot.carried name).unbotD 0 := by
  unfold Snapshot.intAt Snapshot.carried Snapshot.reading
  rw [if_neg fun ha => not_whole_of_amount ha hname]
  cases hget : snapshot.get? name with
  | none => exact Int.cast_zero
  | some value =>
    rcases h.whole name hname value hget with ⟨n, rfl, -⟩
    rfl

theorem UsageRecord.Accepted.valid (h : (UsageRecord.mapping snapshot).Accepted) : ValidRecord snapshot := by
  rcases h with hempty | ⟨parsed, hparsed⟩
  · have hnone : ∀ name, snapshot.get? name = none := by
      intro name
      unfold Dict.get?
      rw [hempty]
      rfl
    constructor
    · intro name _ value hget
      rw [hnone] at hget
      cases hget
    · intro name _ value hget
      rw [hnone] at hget
      cases hget
    · intro value hget
      rw [hnone] at hget
      cases hget
  · exact (validate_parsedFrom hparsed).valid

/-! ## 8. The laws of the merge -/

/-- A record that contributes nothing. -/
def UsageRecord.Inert : UsageRecord → Prop
  | .absent => True
  | .mapping snapshot => snapshot.entries = []

theorem UsageRecord.Inert.accepted (h : record.Inert) : record.Accepted := by
  cases record with
  | absent => trivial
  | mapping snapshot => exact Or.inl h

theorem UsageRecord.Inert.reading (h : record.Inert) (name : String) : record.reading name = ⊥ := by
  cases record with
  | absent => rfl
  | mapping snapshot =>
    apply carried_eq_bot.mpr
    have hempty : snapshot.entries = [] := h
    unfold Dict.get?
    rw [hempty]
    rfl

section Restored

variable (t : RunTracker) (clock : ℚ)

end Restored

/-- The greatest amount any record carries at a name. -/
def greatest (records : List UsageRecord) (name : String) : ℚ := (joined records name).unbotD 0

theorem nearest_greatest (records : List UsageRecord) (hname : name ∈ ledgerAmounts) :
    nearest (greatest records name) = greatest records name := by
  unfold greatest
  by_cases hnone : joined records name = ⊥
  · rw [hnone]
    exact nearest_zero
  · obtain ⟨snapshot, -, hcarried⟩ := joined_attained hnone
    rw [← hcarried]
    unfold Snapshot.carried
    rw [if_pos hname]
    cases snapshot.reading name with
    | bot => exact nearest_zero
    | coe value => exact nearest_nearest value

theorem MergeOf.numberAt (h : MergeOf records merged) (hname : name ∈ ledgerAmounts) :
    merged.numberAt name = greatest records name := by
  rw [numberAt_eq, h.carried (List.mem_append_right _ hname)]
  exact nearest_greatest records hname

theorem MergeOf.known (h : MergeOf records merged) :
    merged.keys.any (fun name => !ledgerSnapshotFields.contains name) = false := by
  rcases h with ⟨base, hbase, -, rfl⟩
  have hnames : ∀ name ∈ maximisedNames, name ∈ ledgerSnapshotFields := by decide
  rw [List.any_eq_false]
  intro name hname
  have hin : name ∈ ledgerSnapshotFields := by
    by_cases htotal : name = "total_tokens"
    · rw [htotal]
      decide
    · rcases Dict.mem_keys_iff.mp hname with ⟨value, hget⟩
      rw [get?_withTotal_ne _ htotal] at hget
      exact hnames name (hbase.known name value hget)
  simpa using hin

section Stated

variable {records : List UsageRecord} {merged parsed : Snapshot} {t : RunTracker}
  {restoredAt statedAt : ℚ}

end Stated

section Example

theorem accepted_of_isSome {snapshot : Snapshot}
    (h : (validateUsageSnapshot snapshot).toOption.isSome = true) :
    (UsageRecord.mapping snapshot).Accepted := by
  right
  cases hresult : validateUsageSnapshot snapshot with
  | error e =>
    rw [hresult] at h
    cases h
  | ok parsed => exact ⟨parsed, rfl⟩

end Example

end Milo.Budget
