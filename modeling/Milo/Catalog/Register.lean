import Milo.Catalog.Runs
import Milo.Python.Jsonb
import Milo.Python.Text
import Milo.Reasoning.Dict

/-!
# Register — one stored register payload as one typed row

A closed field table maps a payload to typed columns.  A value that is blank is null; a value that
does not parse is null with a recorded parse issue, and never a failure of the row.
-/

namespace Milo.Catalog

open Milo.Reasoning Milo.Python

/-- A stored register payload. -/
abbrev Payload := Dict Text Jsonb

/-- A field of a payload. -/
def Payload.field (payload : Payload) (name : String) : Option Jsonb := payload.get? name.toList

/-! ## 1. Parsing -/

inductive FieldKind
  | text
  | int
  | num
  | ind
  deriving DecidableEq, Repr

inductive ParseReason
  | notText
  | tooLong
  | notANumber
  | notAWholeNumber
  | outOfRange
  | notAnIndicator
  deriving DecidableEq, Repr

def ParseReason.code : ParseReason → String
  | notText => "not_text"
  | tooLong => "too_long"
  | notANumber => "not_a_number"
  | notAWholeNumber => "not_a_whole_number"
  | outOfRange => "out_of_range"
  | notAnIndicator => "not_an_indicator"

/-- A typed value; a float that is not finite is none. -/
inductive FieldValue
  | text (t : Text)
  | int (n : ℤ)
  | float (f : Option PyFloat)
  deriving DecidableEq

/-- What a field parses to: nothing stated, a value, or a recorded issue. -/
inductive Parsed
  | blank
  | value (v : FieldValue)
  | issue (reason : ParseReason)
  deriving DecidableEq

namespace Parsed

def value? : Parsed → Option FieldValue
  | value v => some v
  | _ => none

def issue? : Parsed → Option ParseReason
  | issue reason => some reason
  | _ => none

end Parsed

/-- `_blank`. -/
def isBlank : Option Jsonb → Bool
  | none => true
  | some .null => true
  | some (.str s) => decide (strip s = [])
  | _ => false

def maxTextChars : ℕ := 200

def maxSourceChars : ℕ := 80

def maxExactDigits : ℕ := 15

def int32 : ℤ := 2 ^ 31 - 1

/-- `_NUMERIC_TEXT`, and the decimal it names: its digits with the number of them after the point. -/
def readNumericText (text : Text) : Option (ℤ × ℕ) :=
  let negative := decide (text.head? = some '-')
  let unsigned := if text.head? = some '-' ∨ text.head? = some '+' then text.tail else text
  let whole := unsigned.takeWhile Char.isDigit
  let fraction := (unsigned.dropWhile Char.isDigit).tail
  let signed := fun digits : Text =>
    if negative then -(Nat.ofDigitChars 10 digits 0 : ℤ) else (Nat.ofDigitChars 10 digits 0 : ℤ)
  if 1 ≤ whole.length ∧ whole.length ≤ 30 then
    match unsigned.dropWhile Char.isDigit with
    | [] => some (signed whole, 0)
    | point :: _ =>
      if point = '.' ∧ 1 ≤ fraction.length ∧ fraction.length ≤ 30 ∧ fraction.all Char.isDigit = true then
        some (signed (whole ++ fraction), fraction.length)
      else none
  else none

/-- A number as Python has it. -/
inductive PyNumber
  | int (n : ℤ)
  | float (f : PyFloat)
  | decimal (unscaled : ℤ) (scale : ℕ)

/-- `int(number)`, if the number is a whole one. -/
def PyNumber.whole? : PyNumber → Option ℤ
  | .int n => some n
  | .float f => if f.value.den = 1 then some f.value.num else none
  | .decimal unscaled scale =>
    if unscaled % 10 ^ scale = 0 then some (unscaled / 10 ^ scale) else none

section Parse

variable (readFloat : ℤ → ℕ → Option PyFloat)

/-- A number read for a column of the kind; `readFloat` is `float()`. -/
def parseNumber (number : PyNumber) : FieldKind → Parsed
  | .num =>
    match number with
    | .int n => if 10 ^ maxExactDigits ≤ n.natAbs then .issue .outOfRange else .value (.int n)
    | .float f => .value (.float (some f))
    | .decimal unscaled scale => .value (.float (readFloat unscaled scale))
  | .ind =>
    match number.whole? with
    | none => .issue .notAnIndicator
    | some n => if n = 0 ∨ n = 1 then .value (.int n) else .issue .notAnIndicator
  | _ =>
    match number.whole? with
    | none => .issue .notAWholeNumber
    | some n => if -int32 - 1 ≤ n ∧ n ≤ int32 then .value (.int n) else .issue .outOfRange

/-- `_parse`.  Python reads a number without a fraction as an `int` and any other as a `float`. -/
def parse (raw : Option Jsonb) (kind : FieldKind) (limit : ℕ) : Parsed :=
  let unread := if kind = .ind then ParseReason.notAnIndicator else ParseReason.notANumber
  match raw with
  | none => .blank
  | some value =>
    if isBlank raw then .blank
    else if kind = .text then
      match value with
      | .str s => if s.length ≤ limit then .value (.text s) else .issue .tooLong
      | _ => .issue .notText
    else
      match value with
      | .str s =>
        match readNumericText (strip s) with
        | none => .issue unread
        | some (unscaled, scale) =>
          if maxExactDigits < (natText unscaled.natAbs).length then .issue .outOfRange
          else parseNumber readFloat (.decimal unscaled scale) kind
      | .number n 0 => parseNumber readFloat (.int n) kind
      | .number unscaled scale =>
        match readFloat unscaled scale with
        | none => .issue unread
        | some f => parseNumber readFloat (.float f) kind
      | _ => .issue unread

end Parse

/-! ## 2. The field table -/

/-- A column, the register field it is read from, and its kind. -/
structure FieldSpec where
  column : String
  name : String
  kind : FieldKind
  deriving DecidableEq

/-- `LEVEL_1_FIELDS`. -/
def level1Fields : List FieldSpec :=
  [⟨"tozar", "tozar", .text⟩, ⟨"tozeret_cd", "tozeret_cd", .int⟩, ⟨"tozeret_nm", "tozeret_nm", .text⟩,
    ⟨"tozeret_eretz_nm", "tozeret_eretz_nm", .text⟩, ⟨"degem_cd", "degem_cd", .int⟩,
    ⟨"degem_nm", "degem_nm", .text⟩, ⟨"sug_degem", "sug_degem", .text⟩,
    ⟨"kinuy_mishari", "kinuy_mishari", .text⟩, ⟨"shnat_yitzur", "shnat_yitzur", .int⟩,
    ⟨"ramat_gimur", "ramat_gimur", .text⟩, ⟨"delek_cd", "delek_cd", .int⟩,
    ⟨"delek_nm", "delek_nm", .text⟩]

/-- `LEVEL_1_5_FIELDS`. -/
def level15Fields : List FieldSpec :=
  [⟨"nefah_manoa", "nefah_manoa", .int⟩, ⟨"koah_sus", "koah_sus", .int⟩,
    ⟨"hanaa_cd", "hanaa_cd", .int⟩, ⟨"hanaa_nm", "hanaa_nm", .text⟩,
    ⟨"technologiat_hanaa_cd", "technologiat_hanaa_cd", .int⟩,
    ⟨"technologiat_hanaa_nm", "technologiat_hanaa_nm", .text⟩,
    ⟨"automatic_ind", "automatic_ind", .ind⟩,
    ⟨"sug_tkina_cd", "sug_tkina_cd", .int⟩, ⟨"sug_tkina_nm", "sug_tkina_nm", .text⟩,
    ⟨"sug_mamir_cd", "sug_mamir_cd", .int⟩, ⟨"sug_mamir_nm", "sug_mamir_nm", .text⟩,
    ⟨"merkav", "merkav", .text⟩, ⟨"mispar_dlatot", "mispar_dlatot", .int⟩,
    ⟨"mispar_moshavim", "mispar_moshavim", .int⟩, ⟨"mishkal_kolel", "mishkal_kolel", .int⟩,
    ⟨"kosher_grira_im_blamim", "kosher_grira_im_blamim", .int⟩,
    ⟨"kosher_grira_bli_blamim", "kosher_grira_bli_blamim", .int⟩,
    ⟨"kamut_co2_city", "kamut_CO2_city", .num⟩, ⟨"kamut_co2_hway", "kamut_CO2_hway", .num⟩,
    ⟨"co2_wltp", "CO2_WLTP", .num⟩, ⟨"nox_wltp", "NOX_WLTP", .num⟩, ⟨"co_wltp", "CO_WLTP", .num⟩,
    ⟨"hc_wltp", "HC_WLTP", .num⟩, ⟨"kvutzat_zihum", "kvutzat_zihum", .int⟩,
    ⟨"madad_yarok", "madad_yarok", .num⟩, ⟨"nikud_betihut", "nikud_betihut", .num⟩,
    ⟨"ramat_eivzur_betihuty", "ramat_eivzur_betihuty", .int⟩,
    ⟨"mispar_kariot_avir", "mispar_kariot_avir", .int⟩, ⟨"abs_ind", "abs_ind", .ind⟩,
    ⟨"bakarat_yatzivut_ind", "bakarat_yatzivut_ind", .ind⟩]

def fieldTable : List FieldSpec := level1Fields ++ level15Fields

/-- `EQUIPMENT_INDICATORS`. -/
def equipmentIndicators : List String :=
  ["bakarat_mehirut_isa", "bakarat_shyut_adaptivit_ind", "bakarat_stiya_activ_s",
    "bakarat_stiya_menativ_ind", "blima_otomatit_nesia_leahor",
    "blimat_hirum_lifnei_holhei_regel_ofanaim", "hayshaney_hagorot_ind",
    "hayshaney_lahatz_avir_batzmigim_ind", "hitnagshut_cad_shetah_met", "maarechet_ezer_labalam_ind",
    "matzlemat_reverse_ind", "nitur_merhak_milfanim_ind", "shlita_automatit_beorot_gvohim_ind",
    "teura_automatit_benesiya_kadima_ind", "zihuy_beshetah_nistar_ind", "zihuy_holchey_regel_ind",
    "zihuy_matzav_hitkarvut_mesukenet_ind", "zihuy_rechev_do_galgali", "zihuy_tamrurey_tnua_ind"]

/-- `EQUIPMENT_SOURCES`. -/
def equipmentSources : List String :=
  ["bakarat_stiya_menativ_makor_hatkana", "nitur_merhak_milfanim_makor_hatkana",
    "shlita_automatit_beorot_gvohim_makor_hatkana", "zihuy_holchey_regel_makor_hatkana",
    "zihuy_tamrurey_tnua_makor_hatkana"]

def equipmentFields : List String := equipmentIndicators ++ equipmentSources

/-! ## 3. The typed row -/

inductive VariantReason
  | equipmentKeyUnknown
  | recordInvalid
  deriving DecidableEq, Repr

def VariantReason.code : VariantReason → String
  | equipmentKeyUnknown => "CATALOG_VARIANT_EQUIPMENT_KEY_UNKNOWN"
  | recordInvalid => "CATALOG_VARIANT_RECORD_INVALID"

/-- `SEGMENT_BY_SUG_DEGEM`. -/
def vehicleSegment (sugDegem : Option FieldValue) : String :=
  if sugDegem = some (.text "P".toList) then "private"
  else if sugDegem = some (.text "M".toList) then "commercial"
  else "unknown"

/-- `DECLARED_UNKNOWN_LABEL`. -/
def isDeclaredUnknown (label : Option FieldValue) : Bool :=
  match label with
  | some (.text t) =>
    let label := "לא ידוע קוד".toList
    let rest := (strip t).drop label.length
    decide ((strip t).take label.length = label) &&
      (rest.isEmpty || decide (rest.head? = some ' ') && !rest.tail.isEmpty && rest.tail.all Char.isDigit)
  | _ => false

structure VariantRow where
  upstreamRecordId : Text
  columns : Dict String (Option FieldValue)
  equipment : Dict String FieldValue
  parseIssues : List (String × ParseReason)
  normalised : Dict String (Option Text)
  vehicleSegment : String

/-- A column of the row; a column that is not there is null. -/
def VariantRow.column (row : VariantRow) (name : String) : Option FieldValue :=
  (row.columns.get? name).join

section MapRecord

variable (readFloat : ℤ → ℕ → Option PyFloat) (str : Jsonb → Text)
  (normalise : Payload → Dict String (Option Text)) (payload : Payload)

def parsedField (spec : FieldSpec) : Parsed :=
  parse readFloat (payload.field spec.name) spec.kind maxTextChars

def parsedEquipment (name : String) : Parsed :=
  parse readFloat (payload.field name) (if name ∈ equipmentSources then .text else .ind) maxSourceChars

theorem fieldTable_columns_nodup : (fieldTable.map FieldSpec.column).Nodup := by decide +kernel

/-- Every mapped field, typed. -/
def parsedColumns : Dict String (Option FieldValue) where
  entries := fieldTable.map fun spec => (spec.column, (parsedField readFloat payload spec).value?)
  nodup := by
    rw [List.map_map]
    exact fieldTable_columns_nodup

/-- The register states no converter type under code 0. -/
def dropUnknownConverter (columns : Dict String (Option FieldValue)) : Dict String (Option FieldValue) :=
  if (columns.get? "sug_mamir_cd").join = some (.int 0) ∨
      isDeclaredUnknown (columns.get? "sug_mamir_nm").join = true then
    (columns.set "sug_mamir_cd" none).set "sug_mamir_nm" none
  else columns

theorem equipmentFields_nodup : equipmentFields.Nodup := by decide +kernel

/-- The equipment the record states. -/
def parsedEquipments : Dict String FieldValue where
  entries := equipmentFields.filterMap fun name =>
    (parsedEquipment readFloat payload name).value?.map fun v => (name, v)
  nodup := by
    apply List.Nodup.sublist _ equipmentFields_nodup
    rw [List.map_filterMap]
    have hself : ∀ names : List String,
        (names.filterMap fun name =>
          (((parsedEquipment readFloat payload name).value?.map fun v => (name, v)).map Prod.fst)).Sublist
          names := by
      intro names
      induction names with
      | nil => exact List.Sublist.slnil
      | cons name names ih =>
        rw [List.filterMap_cons]
        cases (parsedEquipment readFloat payload name).value? with
        | none => exact ih.cons _
        | some v => exact ih.cons_cons _
    exact hself equipmentFields

/-- `check_equipment`. -/
def checkEquipment (document : Dict String FieldValue) : Except VariantReason (Dict String FieldValue) :=
  if document.entries.all fun e =>
    if e.1 ∈ equipmentSources then
      match e.2 with
      | .text t => decide (1 ≤ t.length) && decide (t.length ≤ maxSourceChars)
      | _ => false
    else decide (e.1 ∈ equipmentFields) && decide (e.2 = .int 0 ∨ e.2 = .int 1)
  then .ok document
  else .error .equipmentKeyUnknown

/-- Every issue, in the order of the fields. -/
def parseIssues : List (String × ParseReason) :=
  (fieldTable.filterMap fun spec =>
    (parsedField readFloat payload spec).issue?.map fun reason => (spec.name, reason)) ++
  equipmentFields.filterMap fun name =>
    (parsedEquipment readFloat payload name).issue?.map fun reason => (name, reason)

/-- `map_record`; `str` is `str()`, and `normalise` the reviewed normalization. -/
def mapRecord : Except VariantReason VariantRow :=
  match payload.field "_id" with
  | none => .error .recordInvalid
  | some id =>
    if isBlank (some id) then .error .recordInvalid
    else
      match checkEquipment (parsedEquipments readFloat payload) with
      | .error reason => .error reason
      | .ok equipment =>
        let columns := dropUnknownConverter (parsedColumns readFloat payload)
        .ok
          { upstreamRecordId := str id
            columns := columns
            equipment := equipment
            parseIssues := parseIssues readFloat payload
            normalised := normalise payload
            vehicleSegment := vehicleSegment (columns.get? "sug_degem").join }

end MapRecord

/-! ## 4. What a field parses to -/

section Parsed

variable {readFloat : ℤ → ℕ → Option PyFloat} {raw : Option Jsonb} {limit : ℕ}

theorem parse_text (readFloat : ℤ → ℕ → Option PyFloat) (raw : Option Jsonb) (limit : ℕ) :
    isBlank raw = true ∧ parse readFloat raw .text limit = .blank ∨
    (∃ s, raw = some (.str s) ∧ strip s ≠ [] ∧ s.length ≤ limit ∧
      parse readFloat raw .text limit = .value (.text s)) ∨
    (∃ s, raw = some (.str s) ∧ strip s ≠ [] ∧ limit < s.length ∧
      parse readFloat raw .text limit = .issue .tooLong) ∨
    isBlank raw = false ∧ (∀ s, raw ≠ some (.str s)) ∧
      parse readFloat raw .text limit = .issue .notText := by
  cases raw with
  | none => exact Or.inl ⟨rfl, rfl⟩
  | some value =>
    cases value with
    | null => exact Or.inl ⟨rfl, rfl⟩
    | str s =>
      by_cases hblank : strip s = []
      · have hraw : isBlank (some (.str s)) = true := decide_eq_true hblank
        exact Or.inl ⟨hraw, if_pos hraw⟩
      · have hraw : ¬ isBlank (some (.str s)) = true := by
          simpa [isBlank] using hblank
        right
        by_cases hlength : s.length ≤ limit
        · refine Or.inl ⟨s, rfl, hblank, hlength, ?_⟩
          simp only [parse, if_neg hraw, if_pos hlength, if_true]
        · refine Or.inr (Or.inl ⟨s, rfl, hblank, by omega, ?_⟩)
          simp only [parse, if_neg hraw, if_neg hlength, if_true]
    | bool b => exact Or.inr (Or.inr (Or.inr ⟨rfl, by simp, rfl⟩))
    | number unscaled scale => exact Or.inr (Or.inr (Or.inr ⟨rfl, by simp, rfl⟩))
    | arr items => exact Or.inr (Or.inr (Or.inr ⟨rfl, by simp, rfl⟩))
    | obj members => exact Or.inr (Or.inr (Or.inr ⟨rfl, by simp, rfl⟩))

theorem parseNumber_ind {number : PyNumber} {v : FieldValue}
    (h : parseNumber readFloat number .ind = .value v) : v = .int 0 ∨ v = .int 1 := by
  unfold parseNumber at h
  simp only at h
  cases hwhole : number.whole? with
  | none =>
    rw [hwhole] at h
    cases h
  | some n =>
    rw [hwhole] at h
    simp only at h
    by_cases hind : n = 0 ∨ n = 1
    · rw [if_pos hind] at h
      cases h
      rcases hind with hzero | hone
      · exact Or.inl (by rw [hzero])
      · exact Or.inr (by rw [hone])
    · rw [if_neg hind] at h
      cases h

theorem parse_number {kind : FieldKind} (hkind : kind ≠ .text) {v : FieldValue}
    (h : parse readFloat raw kind limit = .value v) :
    ∃ number, parseNumber readFloat number kind = .value v := by
  unfold parse at h
  cases raw with
  | none => cases h
  | some value =>
    simp only [if_neg hkind] at h
    by_cases hblank : isBlank (some value) = true
    · rw [if_pos hblank] at h
      cases h
    · rw [if_neg hblank] at h
      split at h
      · rename_i s
        cases hread : readNumericText (strip s) with
        | none =>
          simp only [hread] at h
          cases h
        | some number =>
          simp only [hread] at h
          by_cases hdigits : maxExactDigits < (natText number.1.natAbs).length
          · rw [if_pos hdigits] at h
            cases h
          · rw [if_neg hdigits] at h
            exact ⟨_, h⟩
      · exact ⟨_, h⟩
      · rename_i unscaled scale _
        cases hread : readFloat unscaled scale with
        | none =>
          simp only [hread] at h
          cases h
        | some f =>
          simp only [hread] at h
          exact ⟨_, h⟩
      · cases h

theorem parse_int {v : FieldValue} (h : parse readFloat raw .int limit = .value v) :
    ∃ n, v = .int n := by
  rcases parse_number (by decide) h with ⟨number, hnumber⟩
  unfold parseNumber at hnumber
  cases hwhole : number.whole? with
  | none =>
    simp only [hwhole] at hnumber
    cases hnumber
  | some n =>
    simp only [hwhole] at hnumber
    by_cases hrange : -int32 - 1 ≤ n ∧ n ≤ int32
    · rw [if_pos hrange] at hnumber
      cases hnumber
      exact ⟨n, rfl⟩
    · rw [if_neg hrange] at hnumber
      cases hnumber

/-- An integer column is blank exactly when its field is. -/
theorem parse_int_blank : parse readFloat raw .int limit = .blank ↔ isBlank raw = true := by
  have hnumber : ∀ number, parseNumber readFloat number .int ≠ .blank := by
    intro number
    unfold parseNumber
    cases number.whole? with
    | none => exact fun h => by cases h
    | some n => exact fun h => by simp only at h; split at h <;> cases h
  apply Iff.intro
  · intro h
    by_contra hblank
    cases raw with
    | none => exact hblank rfl
    | some value =>
      unfold parse at h
      simp only [if_neg hblank, reduceCtorEq, if_false] at h
      split at h
      · split at h
        · cases h
        · split at h
          · cases h
          · exact hnumber _ h
      · exact hnumber _ h
      · split at h
        · cases h
        · exact hnumber _ h
      · cases h
  · intro h
    cases raw with
    | none => rfl
    | some value => exact if_pos h

end Parsed

/-! ## 5. What a row holds -/

section Row

variable {readFloat : ℤ → ℕ → Option PyFloat} {str : Jsonb → Text}
  {normalise : Payload → Dict String (Option Text)} {payload : Payload}

variable {spec : FieldSpec}

theorem get?_parsedColumns (h : spec ∈ fieldTable) :
    (parsedColumns readFloat payload).get? spec.column =
      some (parsedField readFloat payload spec).value? :=
  Dict.get?_eq_some.mpr (List.mem_map_of_mem h)

/-- A column of the table holds what its field parses to; the converter type may be dropped. -/
theorem column_dropUnknownConverter (h : spec ∈ fieldTable) (hcd : spec.column ≠ "sug_mamir_cd")
    (hnm : spec.column ≠ "sug_mamir_nm") :
    ((dropUnknownConverter (parsedColumns readFloat payload)).get? spec.column).join =
      (parsedField readFloat payload spec).value? := by
  unfold dropUnknownConverter
  split
  · rw [Dict.get?_set_ne _ _ hnm, Dict.get?_set_ne _ _ hcd, get?_parsedColumns h]
    rfl
  · rw [get?_parsedColumns h]
    rfl

theorem fieldTable_names_nodup : (fieldTable.map FieldSpec.name).Nodup := by decide +kernel

/-- A mapped field has an issue exactly when it parses to one. -/
theorem mem_parseIssues_fields (h : spec ∈ fieldTable) (hname : spec.name ∉ equipmentFields) :
    spec.name ∈ (parseIssues readFloat payload).map Prod.fst ↔
      ((parsedField readFloat payload spec).issue?).isSome = true := by
  unfold parseIssues
  rw [List.map_append, List.mem_append]
  simp only [List.mem_map, List.mem_filterMap, Option.map_eq_some_iff]
  apply Iff.intro
  · intro hmem
    rcases hmem with ⟨e, ⟨other, hother, reason, hreason, he⟩, hfst⟩ | ⟨e, ⟨name, hin, reason, -, he⟩, hfst⟩
    · have hnames : other.name = spec.name := by
        rw [← hfst, ← he]
      have hsame : other = spec :=
        List.inj_on_of_nodup_map fieldTable_names_nodup hother h hnames
      rw [← hsame, hreason]
      rfl
    · rw [← he] at hfst
      rw [← hfst] at hname
      exact absurd hin hname
  · intro hissue
    rcases Option.isSome_iff_exists.mp hissue with ⟨reason, hreason⟩
    exact Or.inl ⟨(spec.name, reason), ⟨spec, h, reason, hreason, rfl⟩, rfl⟩

/-- What the equipment of a record parses to is always in the closed list. -/
theorem checkEquipment_parsedEquipments (readFloat : ℤ → ℕ → Option PyFloat) (payload : Payload) :
    checkEquipment (parsedEquipments readFloat payload) = .ok (parsedEquipments readFloat payload) := by
  unfold checkEquipment
  rw [if_pos]
  rw [List.all_eq_true]
  intro e he
  rcases List.mem_filterMap.mp he with ⟨name, hname, hvalue⟩
  rcases Option.map_eq_some_iff.mp hvalue with ⟨v, hparsed, heq⟩
  rw [← heq]
  have hv : parsedEquipment readFloat payload name = .value v := by
    cases hp : parsedEquipment readFloat payload name with
    | value w =>
      rw [hp] at hparsed
      rw [← Option.some.inj hparsed]
    | blank =>
      rw [hp] at hparsed
      cases hparsed
    | issue reason =>
      rw [hp] at hparsed
      cases hparsed
  unfold parsedEquipment at hv
  by_cases hsource : name ∈ equipmentSources
  · rw [if_pos hsource] at hv
    simp only [if_pos hsource]
    rcases parse_text readFloat (payload.field name) maxSourceChars with
      ⟨-, hblank⟩ | ⟨t, -, hstrip, hlength, htext⟩ | ⟨t, -, -, -, hlong⟩ | ⟨-, -, hnot⟩
    · rw [hblank] at hv
      cases hv
    · rw [htext] at hv
      cases hv
      have hpos : 1 ≤ t.length := by
        apply List.length_pos_iff.mpr
        intro hnil
        rw [hnil] at hstrip
        exact hstrip rfl
      simp [hpos, hlength]
    · rw [hlong] at hv
      cases hv
    · rw [hnot] at hv
      cases hv
  · rw [if_neg hsource] at hv
    simp only [if_neg hsource]
    rcases parse_number (by decide) hv with ⟨number, hnumber⟩
    simp [hname, parseNumber_ind hnumber]

theorem mapRecord_eq_ok {row : VariantRow} :
    mapRecord readFloat str normalise payload = .ok row ↔
      ∃ id, payload.field "_id" = some id ∧ isBlank (some id) = false ∧
        row = { upstreamRecordId := str id
                columns := dropUnknownConverter (parsedColumns readFloat payload)
                equipment := parsedEquipments readFloat payload
                parseIssues := parseIssues readFloat payload
                normalised := normalise payload
                vehicleSegment := vehicleSegment
                  ((dropUnknownConverter (parsedColumns readFloat payload)).get? "sug_degem").join } := by
  unfold mapRecord
  rw [checkEquipment_parsedEquipments]
  cases hid : payload.field "_id" with
  | none => simp
  | some id =>
    cases hblank : isBlank (some id) with
    | true => simp [hblank]
    | false =>
      simp only [hblank, Bool.false_eq_true, if_false, Except.ok.injEq, Option.some.injEq,
        exists_eq_left', true_and]
      exact eq_comm

end Row

end Milo.Catalog
