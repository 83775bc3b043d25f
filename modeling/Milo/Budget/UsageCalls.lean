import Milo.Budget.DurableUsage

/-!
# UsageCalls — the ledger over the calls of successive leaseholders

What one recorded call does to the row is one inversion; every result on runs is read off it.  A key
outside the ledger fields is where the merge and the trigger part: the merge takes what the newer
record has, and the trigger keeps a number a number.
-/

namespace Milo.Budget

open Milo.Reasoning Milo.Python Milo.Catalog Milo.Finalization

/-! ## 1. What a state keeps -/

/-- The row states its version and schema, and its total is that of its token dimensions. -/
structure SoundRow (row : UsageRow) : Prop where
  sound : SoundUsage row.ledger
  total : readingOf (row.ledger.get? "total_tokens") =
    totalReading (readingOf (row.ledger.get? "input_tokens"))
      (readingOf (row.ledger.get? "output_tokens"))
  amount : ∀ value, row.ledger.get? "total_tokens" = some value → ∃ q, numericOf value = some q
  positive : 0 < row.version
  version : row.ledger.get? "ledger_version" = some (.number row.version 0)
  schema : row.ledger.get? "schema_version" = some (.number row.schemaVersion 0)
  atLeast : 1 ≤ row.schemaVersion

/-- The usage of the run shows at least the public part of the ledger. -/
def ShowsLedger (usage ledger : UsageDocument) : Prop :=
  ∀ name ∈ publicUsageFields, readingOf ((publicProjection ledger).get? name) ≤
    readingOf (usage.get? name)

structure SoundState (s : UsageState) : Prop where
  usage : SoundUsage s.run.usage
  row : ∀ row, s.row = some row → SoundRow row ∧ ShowsLedger s.run.usage row.ledger ∧
    readingOf (s.run.usage.get? "total_tokens") =
      totalReading (readingOf (s.run.usage.get? "input_tokens"))
        (readingOf (s.run.usage.get? "output_tokens"))

theorem soundUsage_empty : SoundUsage Dict.empty := fun _ _ _ h => by cases h

theorem SoundState.ledger {s : UsageState} (h : SoundState s) : SoundUsage s.ledger := by
  unfold UsageState.ledger
  cases hrow : s.row with
  | none => exact soundUsage_empty
  | some row => exact (h.row row hrow).1.sound

/-! ## 2. Comparing records -/

theorem isDistinct_eq_false {a b : UsageDocument} :
    isDistinct a b = false ↔ ∀ key, sameValue (a.get? key) (b.get? key) = true := by
  unfold isDistinct
  rw [List.any_eq_false]
  constructor
  · intro h key
    by_cases hkey : key ∈ a.keys ++ b.keys
    · simpa using h key hkey
    · rw [List.mem_append, not_or] at hkey
      rw [Dict.get?_eq_none.mpr hkey.1, Dict.get?_eq_none.mpr hkey.2]
      rfl
  · intro h key _
    rw [h key]
    decide

theorem isDistinct_self (a : UsageDocument) : isDistinct a a = false :=
  isDistinct_eq_false.mpr fun key => sameValue_self (a.get? key)

theorem readingOf_of_sameValue {a b : Option Jsonb} (h : sameValue a b = true) :
    readingOf a = readingOf b := by
  cases a with
  | none =>
    cases b with
    | none => rfl
    | some b => cases h
  | some a =>
    cases b with
    | none => cases h
    | some b =>
      show ((pythonValue a).number : WithBot ℚ) = ((pythonValue b).number : WithBot ℚ)
      rw [pythonValue_number, pythonValue_number, numericOf_of_same h]

theorem sameValue_of_readingOf {a b : Option Jsonb} (h : readingOf a = readingOf b)
    (ha : ∀ v, a = some v → ∃ q, numericOf v = some q)
    (hb : ∀ v, b = some v → ∃ q, numericOf v = some q) : sameValue a b = true := by
  cases a with
  | none =>
    rw [readingOf_eq_bot.mp h.symm]
    rfl
  | some a =>
    cases b with
    | none => exact absurd (readingOf_eq_bot.mp h) (by simp)
    | some b =>
      rcases ha a rfl with ⟨x, hx⟩
      rcases hb b rfl with ⟨y, hy⟩
      rw [readingOf_amount hx, readingOf_amount hy, WithBot.coe_inj] at h
      exact (same_iff_numericOf hx hy).mpr h

theorem totalReading_mono {a b a' b' : WithBot ℚ} (ha : a ≤ a') (hb : b ≤ b')
    (ha' : 0 ≤ a'.unbotD 0) (hb' : 0 ≤ b'.unbotD 0) : totalReading a b ≤ totalReading a' b' := by
  have hpart : ∀ {x x' : WithBot ℚ}, x ≤ x' → 0 ≤ x'.unbotD 0 → x.unbotD 0 ≤ x'.unbotD 0 := by
    intro x x' hle hpos
    cases x with
    | bot => exact hpos
    | coe x =>
      cases x' with
      | bot => exact absurd hle (WithBot.not_coe_le_bot x)
      | coe x' => exact WithBot.coe_le_coe.mp hle
  unfold totalReading
  by_cases hbot : a = ⊥ ∧ b = ⊥
  · rw [if_pos hbot]
    exact bot_le
  · rw [if_neg hbot, if_neg]
    · exact WithBot.coe_le_coe.mpr (add_le_add (hpart ha ha') (hpart hb hb'))
    · rintro ⟨rfl, rfl⟩
      exact hbot ⟨le_bot_iff.mp ha, le_bot_iff.mp hb⟩

/-! ## 3. One recorded call -/

section Recorded

variable {castNumeric : List Char → Option (ℤ × ℕ)} {s s' : UsageState} {lease : WorkerLease}
  {record : UsageDocument} {r : Recording}

theorem schemaOf_atLeast {incoming : UsageDocument} {schema : ℤ}
    (h : schemaOf incoming = .ok schema) : 1 ≤ schema := by
  unfold schemaOf at h
  split at h
  · cases h
    exact le_refl 1
  · rcases except_bind_eq_ok.mp h with ⟨n, -, h⟩
    cases h
    exact le_max_left _ _

theorem existing_ledger (s : UsageState) (lease : WorkerLease) (schema : ℤ) :
    (s.existing lease schema).ledger = s.ledger ∧ (s.existing lease schema).version = s.version := by
  unfold UsageState.existing UsageState.ledger UsageState.version
  cases s.row <;> exact ⟨rfl, rfl⟩

structure RecordingOf (s : UsageState) (lease : WorkerLease) (record : UsageDocument)
    (r : Recording) : Prop where
  existing : r.existing = s.existing lease r.schema
  schema : 1 ≤ r.schema
  merged : MergedFrom s.ledger (record.erase "ledger_version") r.merged

theorem recording_spec (h : s.recording castNumeric lease record = .ok r) :
    RecordingOf s lease record r := by
  rcases except_bind_eq_ok.mp h with ⟨schema, hschema, h⟩
  rcases except_bind_eq_ok.mp h with ⟨merged, hmerged, h⟩
  cases h
  refine ⟨rfl, schemaOf_atLeast hschema, ?_⟩
  rw [(existing_ledger s lease schema).1] at hmerged
  exact mergeExecutionUsage_mergedFrom hmerged

/-- A valid record that was merged is sound: the merge takes no negative number in. -/
theorem RecordingOf.sound (h : RecordingOf s lease record r) (hvalid : isValidUsage record = true) :
    SoundUsage record := by
  apply isValidUsage_sound hvalid
  intro name hname value hget
  have hother : ∀ name ∈ ledgerAmounts, name ≠ "total_tokens" ∧ name ≠ "ledger_version" := by decide
  have htaken := h.merged.taken name (hother name hname).1
  rw [Dict.get?_erase_ne _ (hother name hname).2, hget] at htaken
  exact htaken.not_negative

theorem RecordingOf.ledger (h : RecordingOf s lease record r) : r.existing.ledger = s.ledger := by
  rw [h.existing, (existing_ledger s lease r.schema).1]

theorem RecordingOf.version (h : RecordingOf s lease record r) : r.existing.version = s.version := by
  rw [h.existing, (existing_ledger s lease r.schema).2]

/-- What an accepted call leaves: the row written past the trigger, or the row that was there. -/
inductive Recorded (castNumeric : List Char → Option (ℤ × ℕ)) (s : UsageState) (lease : WorkerLease)
    (record : UsageDocument) : UsageState → Prop
  | changed (r : Recording) (usage : UsageDocument) :
      s.recording castNumeric lease record = .ok r → r.changes = true →
      MergedFrom s.run.usage (publicProjection (r.written lease).ledger) usage →
      Recorded castNumeric s lease record
        { s with run := { s.run with usage }, row := some (r.written lease) }
  | replayed (r : Recording) (row : UsageRow) (usage : UsageDocument) :
      s.recording castNumeric lease record = .ok r → r.changes = false → s.row = some row →
      isDistinct r.merged row.ledger = false →
      MergedFrom s.run.usage (publicProjection row.ledger) usage →
      Recorded castNumeric s lease record { s with run := { s.run with usage } }

theorem Recorded.sound (h : Recorded castNumeric s lease record s')
    (hvalid : isValidUsage record = true) : SoundUsage record := by
  cases h with
  | changed r usage hr hchanges husage => exact (recording_spec hr).sound hvalid
  | replayed r row usage hr hchanges hrow hdistinct husage => exact (recording_spec hr).sound hvalid

theorem recordRunUsage_recorded {now : ℤ}
    (h : recordRunUsage castNumeric s now lease record = .ok s') :
    Recorded castNumeric s lease record s' := by
  rcases except_bind_eq_ok.mp h with ⟨-, -, h⟩
  rcases except_bind_eq_ok.mp h with ⟨r, hr, h⟩
  rcases except_bind_eq_ok.mp h with ⟨row, hrow, h⟩
  rcases except_bind_eq_ok.mp h with ⟨usage, husage, h⟩
  cases h
  have hspec := recording_spec hr
  unfold Recording.stored at hrow
  cases hchanges : r.changes with
  | true =>
    rw [if_pos hchanges] at hrow
    rcases except_bind_eq_ok.mp hrow with ⟨-, -, hrow⟩
    cases hrow
    exact .changed r usage hr hchanges (mergeExecutionUsage_mergedFrom husage)
  | false =>
    rw [if_neg (by rw [hchanges]; decide)] at hrow
    cases hrow
    have hboth := hchanges
    unfold Recording.changes at hboth
    rw [Bool.or_eq_false_iff, decide_eq_false_iff_not] at hboth
    have hexisting := hspec.existing
    unfold UsageState.existing at hexisting
    cases hsrow : s.row with
    | none =>
      rw [hsrow] at hexisting
      exact absurd (by rw [hexisting]; rfl) hboth.2
    | some row =>
      rw [hsrow] at hexisting
      rw [Option.getD_some] at hexisting
      have hstate : ({ s with run := { s.run with usage }, row := some r.existing } : UsageState) =
          { s with run := { s.run with usage } } := by
        rw [hexisting, ← hsrow]
      rw [hstate]
      rw [hexisting] at hboth husage
      exact .replayed r row usage hr hchanges hsrow hboth.1 (mergeExecutionUsage_mergedFrom husage)

/-! ## 4. The row after a call -/

theorem written_get? (r : Recording) (lease : WorkerLease) {key : String}
    (hversion : key ≠ "ledger_version") (hschema : key ≠ "schema_version") :
    (r.written lease).ledger.get? key = r.merged.get? key := by
  show Dict.get? (Dict.set (Dict.set r.merged _ _) _ _) key = _
  rw [Dict.get?_set_ne _ _ hschema, Dict.get?_set_ne _ _ hversion]

theorem written_version (r : Recording) (lease : WorkerLease) :
    (r.written lease).ledger.get? "ledger_version" = some (.number (r.existing.version + 1) 0) := by
  show Dict.get? (Dict.set (Dict.set r.merged _ _) _ _) _ = _
  rw [Dict.get?_set_ne _ _ (by decide), Dict.get?_set_self]

theorem written_schema (r : Recording) (lease : WorkerLease) :
    (r.written lease).ledger.get? "schema_version" =
      some (.number (max r.schema r.existing.schemaVersion) 0) :=
  Dict.get?_set_self _ _ _

theorem get?_sent {key : String} (h : key ≠ "ledger_version") :
    (record.erase "ledger_version").get? key = record.get? key := Dict.get?_erase_ne _ h

theorem sound_sent (h : SoundUsage record) : SoundUsage (record.erase "ledger_version") := by
  intro name hname value hget
  by_cases hversion : name = "ledger_version"
  · rw [hversion, Dict.get?_erase_self] at hget
    cases hget
  · rw [get?_sent hversion] at hget
    exact h name hname value hget

theorem isAmount_number {n : ℤ} (h : 0 ≤ n) : IsAmount (.number n 0) := by
  refine ⟨_, rfl, ?_⟩
  rw [pow_zero, div_one]
  exact Int.cast_nonneg h

theorem RecordingOf.soundRow (h : RecordingOf s lease record r) (hs : SoundUsage s.ledger)
    (hrecord : SoundUsage record) : SoundRow (r.written lease) := by
  have hsent := sound_sent hrecord
  have hnames : ∀ name ∈ ["total_tokens", "input_tokens", "output_tokens"],
      (r.written lease).ledger.get? name = r.merged.get? name := by
    intro name hname
    have hother : ∀ name ∈ ["total_tokens", "input_tokens", "output_tokens"],
        name ≠ "ledger_version" ∧ name ≠ "schema_version" := by decide
    exact written_get? r lease (hother name hname).1 (hother name hname).2
  have hatLeast : 1 ≤ max r.schema r.existing.schemaVersion := le_max_of_le_left h.schema
  constructor
  · intro name hname value hget
    by_cases hversion : name = "ledger_version"
    · rw [hversion, written_version] at hget
      cases hget
      exact isAmount_number (by omega)
    by_cases hschema : name = "schema_version"
    · rw [hschema, written_schema] at hget
      cases hget
      exact isAmount_number (by omega)
    · rw [written_get? r lease hversion hschema] at hget
      exact h.merged.sound hs hsent name hname value hget
  · rw [hnames _ (by simp), hnames _ (by simp), hnames _ (by simp)]
    exact h.merged.totals hs hsent
  · rw [hnames _ (by simp)]
    exact h.merged.amount
  · exact Nat.succ_pos _
  · rw [written_version]
    show _ = some (Jsonb.number ((r.existing.version + 1 : ℕ) : ℤ) 0)
    rw [Nat.cast_add, Nat.cast_one]
  · exact written_schema r lease
  · exact hatLeast

/-- At every dimension the stored ledger joins the record. -/
theorem Recorded.reading (h : Recorded castNumeric s lease record s') (hs : SoundUsage s.ledger)
    (hrecord : SoundUsage record) {name : String} (hname : name ∈ ledgerDimensions) :
    readingOf (s'.ledger.get? name) =
      readingOf (s.ledger.get? name) ⊔ readingOf (record.get? name) := by
  have hother : ∀ name ∈ ledgerDimensions, name ≠ "ledger_version" ∧ name ≠ "schema_version" := by
    decide
  have hmerged : ∀ r : Recording, RecordingOf s lease record r → readingOf (r.merged.get? name) =
      readingOf (s.ledger.get? name) ⊔ readingOf (record.get? name) := by
    intro r hr
    rw [hr.merged.reading hs (sound_sent hrecord) (maximised_of_dimension hname),
      get?_sent (hother name hname).1]
  cases h with
  | changed r usage hr hchanges husage =>
    show readingOf ((r.written lease).ledger.get? name) = _
    rw [written_get? r lease (hother name hname).1 (hother name hname).2]
    exact hmerged r (recording_spec hr)
  | replayed r row usage hr hchanges hrow hdistinct husage =>
    rw [← hmerged r (recording_spec hr)]
    have hledger : s.ledger = row.ledger := by
      unfold UsageState.ledger
      rw [hrow]
      rfl
    show readingOf (s.ledger.get? name) = _
    rw [hledger]
    exact (readingOf_of_sameValue (isDistinct_eq_false.mp hdistinct name)).symm

end Recorded

/-! ## 5. The usage of the run -/

theorem get?_publicProjection (ledger : UsageDocument) {name : String}
    (h : name ∈ publicUsageFields) : (publicProjection ledger).get? name = ledger.get? name := by
  unfold publicProjection
  rw [Dict.get?_filter]
  have hcontains : publicUsageFields.contains name = true := List.contains_iff_mem.mpr h
  rw [hcontains]
  cases ledger.get? name <;> rfl

theorem sound_publicProjection {ledger : UsageDocument} (h : SoundUsage ledger) :
    SoundUsage (publicProjection ledger) := by
  intro name hname value hget
  have hledger : ledger.get? name = some value := by
    unfold publicProjection at hget
    rw [Dict.get?_filter] at hget
    exact (Option.filter_eq_some_iff.mp hget).1
  exact h name hname value hledger

theorem maximised_of_public {name : String} (h : name ∈ publicUsageFields)
    (hne : name ≠ "total_tokens") : name ∈ maximisedNames := by
  have hall : ∀ name ∈ publicUsageFields, name ∈ maximisedNames ∨ name = "total_tokens" := by decide
  exact (hall name h).resolve_right hne

section Usage

variable {usage incoming merged ledger : UsageDocument}

/-- A usage that reads no less than the ledger at every maximised public field, and derives its total,
    shows the ledger. -/
theorem showsLedger_of_readings (hmerged : SoundUsage merged)
    (hreading : ∀ name ∈ publicUsageFields, name ≠ "total_tokens" →
      readingOf (ledger.get? name) ≤ readingOf (merged.get? name))
    (htotal : readingOf (ledger.get? "total_tokens") =
      totalReading (readingOf (ledger.get? "input_tokens"))
        (readingOf (ledger.get? "output_tokens")))
    (htotal' : readingOf (merged.get? "total_tokens") =
      totalReading (readingOf (merged.get? "input_tokens"))
        (readingOf (merged.get? "output_tokens"))) : ShowsLedger merged ledger := by
  intro name hname
  rw [get?_publicProjection ledger hname]
  by_cases hne : name = "total_tokens"
  · rw [hne, htotal, htotal']
    exact totalReading_mono (hreading _ (by decide) (by decide)) (hreading _ (by decide) (by decide))
      (readingOf_nonneg hmerged (by decide)) (readingOf_nonneg hmerged (by decide))
  · exact hreading name hname hne

/-- The merge of the projection shows the ledger it projects. -/
theorem shows_projected {row : UsageRow} (hrow : SoundRow row) (husage : SoundUsage usage)
    (h : MergedFrom usage (publicProjection row.ledger) merged) : ShowsLedger merged row.ledger := by
  have hprojection := sound_publicProjection hrow.sound
  apply showsLedger_of_readings (h.sound husage hprojection) _ hrow.total
    (h.totals husage hprojection)
  intro name hname hne
  rw [h.reading husage hprojection (maximised_of_public hname hne), get?_publicProjection _ hname]
  exact le_sup_right

/-- A usage that shows the ledger still does after a merge. -/
theorem shows_merged {row : UsageRow} (hrow : SoundRow row) (husage : SoundUsage usage)
    (hincoming : SoundUsage incoming) (h : MergedFrom usage incoming merged)
    (hshows : ShowsLedger usage row.ledger) : ShowsLedger merged row.ledger := by
  apply showsLedger_of_readings (h.sound husage hincoming) _ hrow.total
    (h.totals husage hincoming)
  intro name hname hne
  rw [h.reading husage hincoming (maximised_of_public hname hne)]
  have hle := hshows name hname
  rw [get?_publicProjection _ hname] at hle
  exact le_sup_of_le_left hle

end Usage

variable {castNumeric : List Char → Option (ℤ × ℕ)}

theorem SoundState.recorded {s s' : UsageState} {lease : WorkerLease} {record : UsageDocument} (hs : SoundState s)
    (hrecord : SoundUsage record) (h : Recorded castNumeric s lease record s') : SoundState s' := by
  cases h with
  | changed r usage hr hchanges husage =>
    have hrow := (recording_spec hr).soundRow hs.ledger hrecord
    have hprojection := sound_publicProjection hrow.sound
    refine ⟨husage.sound hs.usage hprojection, fun row heq => ?_⟩
    cases heq
    exact ⟨hrow, shows_projected hrow hs.usage husage, husage.totals hs.usage hprojection⟩
  | replayed r row usage hr hchanges hsrow hdistinct husage =>
    have hrow := (hs.row row hsrow).1
    have hprojection := sound_publicProjection hrow.sound
    refine ⟨husage.sound hs.usage hprojection, fun row' heq => ?_⟩
    have hsame : row' = row := Option.some.inj (heq.symm.trans hsrow)
    rw [hsame]
    exact ⟨hrow, shows_projected hrow hs.usage husage, husage.totals hs.usage hprojection⟩

theorem SoundState.updated {s s' : UsageState} {now : ℤ} {owner : Ownership} {usage : UsageDocument}
    (hs : SoundState s) (hvalid : isValidUsage usage = true)
    (h : updateRunUsage castNumeric s now owner usage = .ok s') : SoundState s' ∧ s'.row = s.row := by
  rcases except_bind_eq_ok.mp h with ⟨-, -, h⟩
  rcases except_bind_eq_ok.mp h with ⟨merged, hmerged, h⟩
  cases h
  have hfrom := mergeExecutionUsage_mergedFrom hmerged
  have husage : SoundUsage usage := by
    apply isValidUsage_sound hvalid
    intro name hname value hget
    have hother : ∀ name ∈ ledgerAmounts, name ≠ "total_tokens" := by decide
    have htaken := hfrom.taken name (hother name hname)
    rw [hget] at htaken
    exact htaken.not_negative
  refine ⟨⟨hfrom.sound hs.usage husage, fun row hrow => ?_⟩, rfl⟩
  have hold := hs.row row hrow
  exact ⟨hold.1, shows_merged hold.1 hs.usage husage hfrom hold.2.1, hfrom.totals hs.usage husage⟩

/-! ## 6. The trigger, and the records that change nothing -/

/-- No key outside the ledger fields goes from a number to something else. -/
def KeepsNumbers (stored record : UsageDocument) : Prop :=
  ∀ key ∉ ledgerSnapshotFields, ∀ held value, stored.get? key = some held →
    record.get? key = some value → (numericOf held).isSome = true → (numericOf value).isSome = true

/-- What the record has at a key adds nothing to what is held there. -/
def CoveredBy (held value : Jsonb) : Prop :=
  match numericOf held, numericOf value with
  | some x, some y => y ≤ x
  | _, _ => held.same value = true

/-- Every key of the record but the derived ones is covered by what is stored. -/
def Covered (stored record : UsageDocument) : Prop :=
  ∀ key, key ≠ "total_tokens" → key ≠ "ledger_version" → ∀ value, record.get? key = some value →
    ∃ held, stored.get? key = some held ∧ CoveredBy held value

theorem isLowered_eq_false {old new : UsageDocument} {key : String} :
    isLowered old new key = false ↔ key = "total_tokens" ∨
      ∀ held, old.get? key = some held → ∀ x, numericOf held = some x →
        ∃ stored y, new.get? key = some stored ∧ numericOf stored = some y ∧ x ≤ y := by
  unfold isLowered
  by_cases htotal : key = "total_tokens"
  · simp [htotal]
  rw [decide_eq_true htotal, Bool.true_and, or_iff_right htotal]
  cases hold : old.get? key with
  | none => simp
  | some held =>
    cases hheld : numericOf held with
    | none => simp [hheld]
    | some x =>
      cases hnew : new.get? key with
      | none => simp [hheld]
      | some stored =>
        cases hstored : numericOf stored with
        | none => simp [hheld, hstored]
        | some y => simp [hheld, hstored]

theorem enforceMonotonic_eq_ok {old new : UsageRow} (hversion : old.version < new.version) :
    enforceMonotonic old new = .ok ⟨⟩ ↔ ∀ key, isLowered old.ledger new.ledger key = false := by
  unfold enforceMonotonic
  cases hfind : old.ledger.keys.find? (isLowered old.ledger new.ledger) with
  | some key =>
    constructor
    · intro h
      cases h
    · intro h
      have hlowered := List.find?_some hfind
      rw [h key] at hlowered
      cases hlowered
  | none =>
    constructor
    · intro _ key
      by_cases hkey : key ∈ old.ledger.keys
      · simpa using List.find?_eq_none.mp hfind key hkey
      · rw [isLowered_eq_false]
        right
        intro held hget
        exact absurd (Dict.mem_keys_iff.mpr ⟨held, hget⟩) hkey
    · intro _
      refine except_bind_eq_ok.mpr ⟨⟨⟩, ?_, ?_⟩
      · rw [refuseIf_eq_ok]
        omega
      · rw [refuseIf_eq_ok]
        omega

section Compared

variable {s : UsageState} {lease : WorkerLease} {record : UsageDocument} {r : Recording}

theorem bookkeeping_kept (hs : SoundState s) (h : RecordingOf s lease record r) {key : String}
    (hkey : key = "ledger_version" ∨ key = "schema_version") :
    isLowered r.existing.ledger (r.written lease).ledger key = false := by
  rw [isLowered_eq_false, h.ledger]
  right
  intro held hget x hx
  cases hrow : s.row with
  | none =>
    unfold UsageState.ledger at hget
    rw [hrow] at hget
    cases hget
  | some row =>
    have hsound := (hs.row row hrow).1
    have hexisting : r.existing = row := by
      rw [h.existing]
      unfold UsageState.existing
      rw [hrow]
      rfl
    have hledger : s.ledger = row.ledger := by
      unfold UsageState.ledger
      rw [hrow]
      rfl
    rw [hledger] at hget
    rcases hkey with rfl | rfl
    · rw [hsound.version] at hget
      cases hget
      cases hx
      refine ⟨_, _, written_version r lease, rfl, ?_⟩
      rw [hexisting]
      simp
    · rw [hsound.schema] at hget
      cases hget
      cases hx
      refine ⟨_, _, written_schema r lease, rfl, ?_⟩
      rw [hexisting]
      simp

/-- The trigger lets the call's own write pass exactly if no number outside the ledger fields is
    replaced by something else. -/
theorem trigger_passes_iff (hs : SoundState s) (hrecord : SoundUsage record)
    (h : RecordingOf s lease record r) :
    enforceMonotonic r.existing (r.written lease) = .ok ⟨⟩ ↔ KeepsNumbers s.ledger record := by
  rw [enforceMonotonic_eq_ok (Nat.lt_succ_self _)]
  have hfields : ∀ name ∈ ledgerSnapshotFields, name ∈ maximisedNames ∨ name = "total_tokens" := by
    decide
  constructor
  · intro hall key hkey held value hheld hvalue hnumber
    have hne : ∀ name ∈ ledgerSnapshotFields, key ≠ name := by
      rintro name hname rfl
      exact hkey hname
    rcases Option.isSome_iff_exists.mp hnumber with ⟨x, hx⟩
    -- the row the trigger admits holds a number where the old one did
    rcases isLowered_eq_false.mp (hall key) with htotal | hkept
    · exact absurd htotal (hne _ (by decide))
    rcases hkept held (by rw [h.ledger, hheld]) x hx with ⟨stored, y, hstored, hy, -⟩
    rw [written_get? r lease (hne _ (by decide)) (hne _ (by decide))] at hstored
    have htaken := h.merged.taken key (hne _ (by decide))
    rw [hheld, get?_sent (hne _ (by decide)), hvalue, hstored] at htaken
    cases htaken with
    | greater a b x' y' hx' hy' hx0 hy0 =>
      rw [hy']
      rfl
    | replaced a b hnone hneg =>
      rw [hy]
      rfl
  · intro hkeeps key
    -- version and schema are written by the RPC itself, the total is never compared
    by_cases hbook : key = "ledger_version" ∨ key = "schema_version"
    · exact bookkeeping_kept hs h hbook
    rw [not_or] at hbook
    rw [isLowered_eq_false]
    by_cases htotal : key = "total_tokens"
    · exact Or.inl htotal
    right
    intro held hheld x hx
    rw [h.ledger] at hheld
    rw [written_get? r lease hbook.1 hbook.2]
    have htaken := h.merged.taken key htotal
    rw [hheld, get?_sent hbook.1] at htaken
    cases hvalue : record.get? key with
    | none =>
      rw [hvalue] at htaken
      generalize r.merged.get? key = merged at htaken
      cases htaken with
      | kept a hneg => exact ⟨held, x, rfl, hx, le_refl x⟩
    | some value =>
      -- inside the ledger fields every value is a number, outside the condition says so
      have hnumber : (numericOf value).isSome = true := by
        by_cases hin : key ∈ ledgerSnapshotFields
        · rcases hrecord key ((hfields key hin).resolve_right htotal) value hvalue with ⟨q, hq, -⟩
          rw [hq]
          rfl
        · exact hkeeps key hin held value hheld hvalue (by rw [hx]; rfl)
      rcases Option.isSome_iff_exists.mp hnumber with ⟨y, hy⟩
      rw [hvalue] at htaken
      generalize r.merged.get? key = merged at htaken
      cases htaken with
      | greater a b x' y' hx' hy' hx0 hy0 =>
        rw [hx] at hx'
        cases hx'
        by_cases hle : y' ≤ x
        · rw [if_pos hle]
          exact ⟨held, x, rfl, hx, le_refl x⟩
        · rw [if_neg hle]
          exact ⟨value, y', rfl, hy', (not_le.mp hle).le⟩
      | replaced a b hnone hneg =>
        rcases hnone with hnone | hnone
        · rw [hx] at hnone
          cases hnone
        · rw [hy] at hnone
          cases hnone

theorem coveredBy_of_none {held value : Jsonb} (h : numericOf held = none ∨ numericOf value = none) :
    CoveredBy held value ↔ held.same value = true := by
  unfold CoveredBy
  rcases h with h | h
  · rw [h]
  · rw [h]
    cases numericOf held <;> rfl

theorem coveredBy_of_numbers {held value : Jsonb} {x y : ℚ} (hx : numericOf held = some x)
    (hy : numericOf value = some y) : CoveredBy held value ↔ y ≤ x := by
  unfold CoveredBy
  rw [hx, hy]

/-- What the merge takes is what is stored exactly where the record is covered. -/
theorem Taken.same_iff {current incoming merged : Option Jsonb} (h : Taken current incoming merged) :
    sameValue merged current = true ↔
      ∀ value, incoming = some value → ∃ held, current = some held ∧ CoveredBy held value := by
  cases h with
  | absent => simp [sameValue]
  | kept a hneg => simp [sameValue]
  | new b hneg => simp [sameValue]
  | greater a b x y hx hy hx0 hy0 =>
    have hcovered : CoveredBy a b ↔ y ≤ x := coveredBy_of_numbers hx hy
    by_cases hle : y ≤ x
    · simp [sameValue, hle, hcovered]
    · have hne : ¬b.same a = true := fun hsame =>
        hle ((same_iff_numericOf hy hx).mp hsame).le
      simp [sameValue, hle, hcovered, hne]
  | replaced a b hnone hneg =>
    simp [sameValue, coveredBy_of_none hnone, Jsonb.same_comm b a]

/-- A call finds the row unchanged exactly if the record is covered by it. -/
theorem unchanged_iff_covered (hs : SoundState s) (hrecord : SoundUsage record)
    (h : RecordingOf s lease record r) {row : UsageRow} (hrow : s.row = some row) :
    isDistinct r.merged s.ledger = false ↔ Covered s.ledger record := by
  have hledger : s.ledger = row.ledger := by
    unfold UsageState.ledger
    rw [hrow]
    rfl
  have hsound := (hs.row row hrow).1
  rw [isDistinct_eq_false]
  constructor
  · intro hall key htotal hversion value hvalue
    have htaken := h.merged.taken key htotal
    rw [get?_sent hversion] at htaken
    exact htaken.same_iff.mp (hall key) value hvalue
  · intro hcovered
    have hother : ∀ key, key ≠ "total_tokens" →
        sameValue (r.merged.get? key) (s.ledger.get? key) = true := by
      intro key htotal
      apply (h.merged.taken key htotal).same_iff.mpr
      intro value hvalue
      by_cases hversion : key = "ledger_version"
      · rw [hversion, Dict.get?_erase_self] at hvalue
        cases hvalue
      · rw [get?_sent hversion] at hvalue
        exact hcovered key htotal hversion value hvalue
    intro key
    by_cases htotal : key = "total_tokens"
    · -- both totals are derived from the token dimensions
      rw [htotal]
      apply sameValue_of_readingOf _ h.merged.amount (hledger ▸ hsound.amount)
      rw [h.merged.totals hs.ledger (sound_sent hrecord),
        readingOf_of_sameValue (hother "input_tokens" (by decide)),
        readingOf_of_sameValue (hother "output_tokens" (by decide)), hledger, hsound.total]
    · exact hother key htotal

end Compared

/-! ## 7. Runs -/

abbrev UsageHistory := List (UsageState × UsageEvent)

section Runs

variable (castNumeric : List Char → Option (ℤ × ℕ))

/-- The record of a call that was accepted. -/
def acceptedRecord (e : UsageState × UsageEvent) : Option UsageRecord :=
  match e.2 with
  | .record now lease record =>
    if (recordRunUsage castNumeric e.1 now lease record).toOption.isSome then
      some (.mapping (pythonRecord record))
    else none
  | _ => none

def acceptedRecords (hist : UsageHistory) : List UsageRecord :=
  hist.filterMap (acceptedRecord castNumeric)

/-- How many calls changed the stored ledger. -/
def ledgerChanges (hist : UsageHistory) : ℕ :=
  hist.countP fun e => isDistinct (e.1.exec castNumeric e.2).ledger e.1.ledger

/-- A run before its first record. -/
structure FreshUsage (s : UsageState) : Prop where
  row : s.row = none
  usage : isValidUsage s.run.usage = true
  debt : NoDebt s.run.usage

/-- What holds of the ledger after a history. -/
structure LedgerKept (hist : UsageHistory) (s : UsageState) : Prop where
  state : SoundState s
  recorded : ∀ name ∈ ledgerDimensions,
    (pythonRecord s.ledger).carried name = joined (acceptedRecords castNumeric hist) name
  version : s.version = ledgerChanges castNumeric hist

end Runs

section Steps

variable {castNumeric : List Char → Option (ℤ × ℕ)} {start s s' : UsageState}
  {hist : UsageHistory} {event : UsageEvent}

theorem FreshUsage.ledger (h : FreshUsage s) : s.ledger = Dict.empty := by
  unfold UsageState.ledger
  rw [h.row]
  rfl

theorem FreshUsage.sound (h : FreshUsage s) : SoundState s where
  usage := h.debt.sound h.usage
  row := fun row hrow => by
    rw [h.row] at hrow
    cases hrow

theorem FreshUsage.kept (h : FreshUsage s) : LedgerKept castNumeric [] s where
  state := h.sound
  recorded := fun name _ => by
    rw [h.ledger]
    exact (carried_eq_bot.mpr rfl).trans (joined_nil name).symm
  version := by
    unfold UsageState.version
    rw [h.row]
    rfl

theorem exec_of_ok (h : s.call castNumeric event = .ok s') : s.exec castNumeric event = s' := by
  unfold UsageState.exec
  rw [h]
  rfl

/-- A row that was written is not the one that was there: it states its version. -/
theorem written_distinct {lease : WorkerLease} {record : UsageDocument} {r : Recording}
    (hs : SoundState s) (h : RecordingOf s lease record r) :
    isDistinct (r.written lease).ledger s.ledger = true := by
  by_contra hsame
  rw [Bool.not_eq_true] at hsame
  have hversion := isDistinct_eq_false.mp hsame "ledger_version"
  rw [written_version, h.version] at hversion
  unfold UsageState.ledger UsageState.version at hversion
  cases hrow : s.row with
  | none =>
    rw [hrow] at hversion
    cases hversion
  | some row =>
    rw [hrow] at hversion
    have hstored : (some row).map UsageRow.ledger = some row.ledger := rfl
    rw [hstored, Option.getD_some, (hs.row row hrow).1.version] at hversion
    have heq := (same_iff_numericOf (a := .number (row.version + 1) 0)
      (b := .number row.version 0) rfl rfl).mp hversion
    simp at heq

theorem Recorded.version {lease : WorkerLease} {record : UsageDocument} (hs : SoundState s)
    (h : Recorded castNumeric s lease record s') :
    s'.version = s.version + (if isDistinct s'.ledger s.ledger then 1 else 0) := by
  cases h with
  | changed r usage hr hchanges husage =>
    have hspec := recording_spec hr
    have hdistinct := written_distinct hs hspec
    show r.existing.version + 1 =
      s.version + (if isDistinct (r.written lease).ledger s.ledger = true then 1 else 0)
    rw [hdistinct, hspec.version]
    rfl
  | replayed r row usage hr hchanges hrow hsame husage =>
    show s.version = s.version + (if isDistinct s.ledger s.ledger = true then 1 else 0)
    rw [isDistinct_self]
    rfl

theorem acceptedRecords_snoc (hist : UsageHistory) (e : UsageState × UsageEvent) :
    acceptedRecords castNumeric (hist ++ [e]) =
      acceptedRecords castNumeric hist ++ (acceptedRecord castNumeric e).toList := by
  unfold acceptedRecords
  rw [List.filterMap_append]
  cases haccepted : acceptedRecord castNumeric e <;> simp [haccepted]

theorem ledgerChanges_snoc (hist : UsageHistory) (s : UsageState) (event : UsageEvent) :
    ledgerChanges castNumeric (hist ++ [(s, event)]) = ledgerChanges castNumeric hist +
      (if isDistinct (s.exec castNumeric event).ledger s.ledger then 1 else 0) := by
  unfold ledgerChanges
  rw [List.countP_append, List.countP_singleton]

/-- A step that leaves the row and records nothing keeps the laws. -/
theorem LedgerKept.silent (h : LedgerKept castNumeric hist s) (hstate : SoundState s')
    (hexec : s.exec castNumeric event = s') (hrow : s'.row = s.row)
    (hnone : acceptedRecord castNumeric (s, event) = none) :
    LedgerKept castNumeric (hist ++ [(s, event)]) s' := by
  have hledger : s'.ledger = s.ledger := by
    unfold UsageState.ledger
    rw [hrow]
  refine ⟨hstate, fun name hname => ?_, ?_⟩
  · rw [hledger, acceptedRecords_snoc, hnone, Option.toList_none, List.append_nil]
    exact h.recorded name hname
  · rw [ledgerChanges_snoc, hexec, hledger, isDistinct_self, ← h.version]
    unfold UsageState.version
    rw [hrow]
    rfl

theorem LedgerKept.step (h : LedgerKept castNumeric hist s) (hvalid : UsageEvent.Valid s event) :
    LedgerKept castNumeric (hist ++ [(s, event)]) (s.exec castNumeric event) := by
  cases event with
  | leased workerId attempt leaseToken leaseExpiresAt =>
    exact h.silent ⟨h.state.usage, h.state.row⟩ rfl rfl rfl
  | update now owner usage =>
    cases hcall : updateRunUsage castNumeric s now owner usage with
    | error e =>
      have hexec : s.exec castNumeric (.update now owner usage) = s := by
        show (updateRunUsage castNumeric s now owner usage).toOption.getD s = s
        rw [hcall]
        rfl
      rw [hexec]
      exact h.silent h.state hexec rfl rfl
    | ok s' =>
      have hexec : s.exec castNumeric (.update now owner usage) = s' := exec_of_ok hcall
      rw [hexec]
      have hupdated := h.state.updated hvalid hcall
      exact h.silent hupdated.1 hexec hupdated.2 rfl
  | record now lease record =>
    have haccepted : acceptedRecord castNumeric (s, .record now lease record) =
        if (recordRunUsage castNumeric s now lease record).toOption.isSome then
          some (.mapping (pythonRecord record)) else none := rfl
    cases hcall : recordRunUsage castNumeric s now lease record with
    | error e =>
      have hexec : s.exec castNumeric (.record now lease record) = s := by
        show (recordRunUsage castNumeric s now lease record).toOption.getD s = s
        rw [hcall]
        rfl
      rw [hexec]
      exact h.silent h.state hexec rfl (by rw [haccepted, hcall]; rfl)
    | ok s' =>
      have hexec : s.exec castNumeric (.record now lease record) = s' := exec_of_ok hcall
      have hrecorded := recordRunUsage_recorded hcall
      have hsound := hrecorded.sound hvalid
      rw [hexec]
      refine ⟨h.state.recorded hsound hrecorded, fun name hname => ?_, ?_⟩
      · have hrecord : acceptedRecord castNumeric (s, .record now lease record) =
            some (.mapping (pythonRecord record)) := by
          rw [haccepted, hcall]
          rfl
        rw [carried_join h.state.ledger hsound (maximised_of_dimension hname)
          (hrecorded.reading h.state.ledger hsound hname), h.recorded name hname,
          acceptedRecords_snoc, hrecord, joined_append]
        show _ = _ ⊔ joined [UsageRecord.mapping (pythonRecord record)] name
        rw [joined_cons, joined_nil, sup_bot_eq]
        rfl
      · rw [ledgerChanges_snoc, hexec, hrecorded.version h.state, h.version]

theorem ledgerKept_of_run (hstart : FreshUsage start)
    (hrun : Run (Performs UsageEvent.Valid (UsageState.exec castNumeric)) start hist s) :
    LedgerKept castNumeric hist s := by
  apply hrun.history_invariant (J := LedgerKept castNumeric) hstart.kept
  intro hist m event m' _ hkept hstep
  rcases hstep with ⟨hvalid, rfl⟩
  exact hkept.step hvalid

end Steps

/-! ## 8. The ledger is the join of what was recorded -/

section Laws

variable (castNumeric : List Char → Option (ℤ × ℕ))

/-- What holds of a run of calls: the ledger is Python's merge of the accepted records as Python reads
    it, no number of it decreases, the version counts the changes, and the usage of the run shows the
    ledger. -/
structure LedgerLaws (hist : UsageHistory) (s : UsageState) : Prop where
  merged : ∃ python, mergeUsageSnapshots (acceptedRecords castNumeric hist) = .ok python ∧
    ∀ name ∈ ledgerDimensions ++ ["total_tokens"],
      (pythonRecord s.ledger).carried name = python.carried name
  grows : ∀ e ∈ hist, ∀ name ∈ ledgerDimensions ++ ["total_tokens"],
    readingOf (e.1.ledger.get? name) ≤ readingOf ((e.1.exec castNumeric e.2).ledger.get? name)
  trigger : ∀ e ∈ hist, ∀ now lease record r, e.2 = .record now lease record →
    e.1.recording castNumeric lease record = .ok r →
      (enforceMonotonic r.existing (r.written lease) = .ok ⟨⟩ ↔ KeepsNumbers e.1.ledger record)
  version : s.version = ledgerChanges castNumeric hist
  covered : ∀ e ∈ hist, ∀ now lease record s', e.2 = .record now lease record →
    e.1.row.isSome = true → e.1.call castNumeric e.2 = .ok s' →
      (s'.version = e.1.version ↔ Covered e.1.ledger record)
  shown : ∀ name ∈ publicUsageFields,
    readingOf ((publicProjection s.ledger).get? name) ≤ readingOf (s.run.usage.get? name)

end Laws

section Results

variable {castNumeric : List Char → Option (ℤ × ℕ)} {start s s' : UsageState}
  {hist : UsageHistory}

theorem SoundState.totals (h : SoundState s) : readingOf (s.ledger.get? "total_tokens") =
    totalReading (readingOf (s.ledger.get? "input_tokens"))
      (readingOf (s.ledger.get? "output_tokens")) := by
  unfold UsageState.ledger
  cases hrow : s.row with
  | none => rfl
  | some row => exact (h.row row hrow).1.total

theorem SoundState.shown (h : SoundState s) : ShowsLedger s.run.usage s.ledger := by
  unfold UsageState.ledger
  cases hrow : s.row with
  | none => exact fun name _ => bot_le
  | some row => exact (h.row row hrow).2.1

theorem acceptedRecords_accepted (hvalid : ∀ e ∈ hist, UsageEvent.Valid e.1 e.2) :
    ∀ record ∈ acceptedRecords castNumeric hist, record.Accepted := by
  intro record hrecord
  rcases List.mem_filterMap.mp hrecord with ⟨⟨m, event⟩, he, heq⟩
  cases event with
  | leased => cases heq
  | update => cases heq
  | record now lease document =>
    have hdocument : isValidUsage document = true := hvalid _ he
    unfold acceptedRecord at heq
    dsimp only at heq
    split at heq
    · cases heq
      exact isValidUsage_accepted hdocument
    · cases heq

theorem exec_grows (hkept : LedgerKept castNumeric hist s) {event : UsageEvent}
    (hvalid : UsageEvent.Valid s event) {name : String}
    (hname : name ∈ ledgerDimensions ++ ["total_tokens"]) :
    readingOf (s.ledger.get? name) ≤ readingOf ((s.exec castNumeric event).ledger.get? name) := by
  have hnext := hkept.step hvalid
  have hdimension : ∀ name ∈ ledgerDimensions, readingOf (s.ledger.get? name) ≤
      readingOf ((s.exec castNumeric event).ledger.get? name) := by
    intro name hname
    cases hcall : s.call castNumeric event with
    | error e =>
      have hexec : s.exec castNumeric event = s := by
        unfold UsageState.exec
        rw [hcall]
        rfl
      rw [hexec]
    | ok s' =>
      rw [exec_of_ok hcall]
      cases event with
      | leased =>
        cases hcall
        exact le_refl _
      | update =>
        have hrow := (hkept.state.updated hvalid hcall).2
        unfold UsageState.ledger
        rw [hrow]
      | record now lease record =>
        have hrecorded := recordRunUsage_recorded hcall
        rw [hrecorded.reading hkept.state.ledger (hrecorded.sound hvalid) hname]
        exact le_sup_left
  rcases List.mem_append.mp hname with hname | hname
  · exact hdimension name hname
  · rw [List.mem_singleton.mp hname, hkept.state.totals, hnext.state.totals]
    exact totalReading_mono (hdimension _ (by decide)) (hdimension _ (by decide))
      (readingOf_nonneg hnext.state.ledger (by decide))
      (readingOf_nonneg hnext.state.ledger (by decide))

theorem version_kept_iff (hs : SoundState s) {now : ℤ} {lease : WorkerLease}
    {record : UsageDocument} (hrecord : SoundUsage record) (hrow : s.row.isSome = true)
    (hcall : recordRunUsage castNumeric s now lease record = .ok s') :
    s'.version = s.version ↔ Covered s.ledger record := by
  rcases Option.isSome_iff_exists.mp hrow with ⟨row, hrow⟩
  have hrecorded := recordRunUsage_recorded hcall
  have hledger : s.ledger = row.ledger := by
    unfold UsageState.ledger
    rw [hrow]
    rfl
  cases hrecorded with
  | changed r usage hr hchanges husage =>
    have hspec := recording_spec hr
    have hexisting : r.existing = row := by
      rw [hspec.existing]
      unfold UsageState.existing
      rw [hrow]
      rfl
    have hdistinct : isDistinct r.merged s.ledger = true := by
      unfold Recording.changes at hchanges
      rw [Bool.or_eq_true, decide_eq_true_eq, hexisting] at hchanges
      rw [hledger]
      exact hchanges.resolve_right fun hzero =>
        absurd (hs.row row hrow).1.positive (by omega)
    rw [← unchanged_iff_covered hs hrecord hspec hrow, hdistinct]
    constructor
    · intro hversion
      have heq : r.existing.version + 1 = s.version := hversion
      rw [hspec.version] at heq
      omega
    · intro h
      cases h
  | replayed r row' usage hr hchanges hrow' hsame husage =>
    rw [← unchanged_iff_covered hs hrecord (recording_spec hr) hrow, hledger]
    have hrows : row' = row := Option.some.inj (hrow'.symm.trans hrow)
    rw [hrows] at hsame
    exact ⟨fun _ => hsame, fun _ => rfl⟩

theorem ledgerLaws_of_run (hstart : FreshUsage start)
    (hrun : Run (Performs UsageEvent.Valid (UsageState.exec castNumeric)) start hist s) :
    LedgerLaws castNumeric hist s := by
  have hkept := ledgerKept_of_run hstart hrun
  have hvalid : ∀ e ∈ hist, UsageEvent.Valid e.1 e.2 := fun e he => hrun.allowed he
  -- the laws hold already of the run up to each of its steps
  have hbefore : ∀ e ∈ hist, ∃ earlier, LedgerKept castNumeric earlier e.1 := by
    intro e he
    rcases List.append_of_mem he with ⟨earlier, later, hsplit⟩
    exact ⟨earlier, ledgerKept_of_run hstart (hrun.before hsplit)⟩
  rcases merge_spec (acceptedRecords_accepted hvalid) with ⟨python, hpython, hmergeOf⟩
  constructor
  · exact ⟨python, hpython, hmergeOf.agrees hkept.recorded hkept.state.totals⟩
  · intro e he name hname
    rcases hbefore e he with ⟨earlier, hearlier⟩
    exact exec_grows hearlier (hvalid e he) hname
  · rintro ⟨m, event⟩ he now lease record r rfl hr
    rcases hbefore _ he with ⟨earlier, hearlier⟩
    have hspec := recording_spec hr
    exact trigger_passes_iff hearlier.state (hspec.sound (hvalid _ he)) hspec
  · exact hkept.version
  · rintro ⟨m, event⟩ he now lease record s' rfl hrow hcall
    rcases hbefore _ he with ⟨earlier, hearlier⟩
    have hsound := (recordRunUsage_recorded hcall).sound (hvalid _ he)
    exact version_kept_iff hearlier.state hsound hrow hcall
  · intro name hname
    exact hkept.state.shown name hname

end Results

/-- The two merges agree at every dimension, and along every run of calls the stored ledger is the
    join of the accepted records, within the laws above. -/
theorem ledger_joins_records (castNumeric : List Char → Option (ℤ × ℕ)) (start s : UsageState)
    (hist : UsageHistory) (hstart : FreshUsage start)
    (hrun : Run (Performs UsageEvent.Valid (UsageState.exec castNumeric)) start hist s) :
    (∀ current incoming, isValidUsage current = true → isValidUsage incoming = true →
      NoDebt current → NoDebt incoming →
        ∃ merged python, mergeExecutionUsage castNumeric current incoming = .ok merged ∧
          mergeUsageSnapshots [.mapping (pythonRecord current), .mapping (pythonRecord incoming)] =
            .ok python ∧
          ∀ name ∈ ledgerDimensions ++ ["total_tokens"],
            (pythonRecord merged).carried name = python.carried name) ∧
      LedgerLaws castNumeric hist s :=
  ⟨fun _ _ hcurrent hincoming hdebt hdebt' =>
    merges_agree castNumeric hcurrent hincoming hdebt hdebt', ledgerLaws_of_run hstart hrun⟩

/-! ## 9. A key of a later release -/

section Example

/-- `text::numeric` of a whole number. -/
def castWhole (text : List Char) : Option (ℤ × ℕ) := (wholeNumber? text).map fun n => (n, 0)

def heldRun : UsageState where
  run :=
    { status := .running
      launchState := .launched
      runIdentity := none
      workerId := some "worker-1".toList
      leaseToken := some "token-1".toList
      leaseExpiresAt := some 300
      usage := Dict.empty }
  row := none

theorem heldRun_fresh : FreshUsage heldRun where
  row := rfl
  usage := by decide +kernel
  debt := fun _ _ h => by cases h

def heldLease : WorkerLease := ⟨"worker-1".toList, 1, "token-1".toList⟩

/-- A key the ledger does not know: a number first, and a text then. -/
def firstTier : UsageDocument :=
  Dict.ofList [("model_calls", .number 1 0), ("tier", .number 1 0)]

def secondTier : UsageDocument :=
  Dict.ofList [("model_calls", .number 2 0), ("tier", .str "high".toList)]

def retypedCalls : List UsageEvent := [.record 10 heldLease firstTier, .record 20 heldLease secondTier]

theorem valid_performed {start : UsageState} {events : List UsageEvent}
    (h : ∀ event ∈ events, ∀ m, UsageEvent.Valid m event) :
    ∀ e ∈ performed (UsageState.exec castWhole) start events, UsageEvent.Valid e.1 e.2 :=
  fun e he => h e.2 (mem_of_mem_performed he) e.1

/-- The trigger refuses a write of the call itself, under a current lease and with valid records. -/
theorem trigger_refuses_own_write : ∃ hist s,
    Run (Performs UsageEvent.Valid (UsageState.exec castWhole)) heldRun hist s ∧
      ∃ e ∈ hist, ∃ now lease record r, e.2 = .record now lease record ∧
        e.1.run.assertWorkerLease now lease = true ∧
        e.1.recording castWhole lease record = .ok r ∧ r.changes = true ∧
        ∀ passed, enforceMonotonic r.existing (r.written lease) ≠ .ok passed := by
  have hvalid : ∀ event ∈ retypedCalls, ∀ m, UsageEvent.Valid m event := by
    intro event hevent m
    rcases List.mem_cons.mp hevent with rfl | hevent
    · show isValidUsage firstTier = true
      decide +kernel
    · rw [List.mem_singleton.mp hevent]
      show isValidUsage secondTier = true
      decide +kernel
  refine ⟨_, _, run_performed retypedCalls heldRun (valid_performed hvalid), ?_⟩
  let before := heldRun.exec castWhole (.record 10 heldLease firstTier)
  have hrefused : (before.recording castWhole heldLease secondTier).toOption.any (fun r =>
      r.changes && (enforceMonotonic r.existing (r.written heldLease)).toOption.isNone) = true := by
    decide +kernel
  rw [Option.any_eq_true] at hrefused
  rcases hrefused with ⟨r, hr, hboth⟩
  rw [Bool.and_eq_true] at hboth
  refine ⟨(before, .record 20 heldLease secondTier), List.mem_cons_of_mem _ List.mem_cons_self, 20,
    heldLease, secondTier, r, rfl, by decide +kernel, eq_ok_of_toOption hr, hboth.1, ?_⟩
  intro passed hpassed
  rw [hpassed] at hboth
  cases hboth.2

/-- A worker records, its successor is behind and then ahead, and a stale snapshot comes last. -/
def succeedingCalls : List UsageEvent :=
  [.record 10 heldLease (Dict.ofList [("model_calls", .number 2 0), ("input_tokens", .number 700 0)]),
    .leased (some "worker-2".toList) 2 (some "token-2".toList) (some 900),
    .record 400 heldLease (Dict.ofList [("model_calls", .number 9 0)]),
    .record 410 ⟨"worker-2".toList, 2, "token-2".toList⟩ (Dict.ofList [("model_calls", .number 1 0)]),
    .record 420 ⟨"worker-2".toList, 2, "token-2".toList⟩
      (Dict.ofList [("output_tokens", .number 90 0), ("actual_cost", .number 25 2)]),
    .update 430 ⟨"worker-2".toList, none, none⟩ (Dict.ofList [("model_calls", .number 1 0)])]

theorem ledger_joins_records_succeeding : ∃ hist s,
    Run (Performs UsageEvent.Valid (UsageState.exec castWhole)) heldRun hist s ∧ s.version = 2 ∧
      LedgerLaws castWhole hist s := by
  have hvalid : ∀ event ∈ succeedingCalls, ∀ m, UsageEvent.Valid m event := by
    intro event hevent m
    unfold succeedingCalls at hevent
    simp only [List.mem_cons, List.not_mem_nil, or_false] at hevent
    rcases hevent with rfl | rfl | rfl | rfl | rfl | rfl
    · show isValidUsage _ = true
      decide +kernel
    · trivial
    · show isValidUsage _ = true
      decide +kernel
    · show isValidUsage _ = true
      decide +kernel
    · show isValidUsage _ = true
      decide +kernel
    · show isValidUsage _ = true
      decide +kernel
  have hrun : Run (Performs UsageEvent.Valid (UsageState.exec castWhole)) heldRun _ _ :=
    run_performed succeedingCalls heldRun (valid_performed hvalid)
  exact ⟨_, _, hrun, by decide +kernel,
    (ledger_joins_records castWhole heldRun _ _ heldRun_fresh hrun).2⟩

end Example

end Milo.Budget
