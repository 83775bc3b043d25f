import Milo.Catalog.Register

/-!
# Compaction — a typed row that answers for its payload

Before a payload is removed, the database checks that the typed row reads as it does.  The readers of
the payload and of the typed row, and the check between them, are three descriptions of one record.
-/

namespace Milo.Catalog

open Milo.Reasoning Milo.Python

/-! ## 1. Reading a payload -/

/-- The JSON type a reviewed field is read with. -/
inductive FieldType
  | str
  | int
  deriving DecidableEq, Repr

def FieldType.kind : FieldType → FieldKind
  | str => .text
  | int => .int

/-- `IDENTITY_RECORD_FIELD_TYPES`. -/
def identityRecordFieldTypes : List (String × FieldType) :=
  [("tozar", .str), ("kinuy_mishari", .str), ("shnat_yitzur", .int), ("degem_nm", .str),
    ("ramat_gimur", .str), ("delek_cd", .int), ("delek_nm", .str)]

/-- `REGISTER_CODE_FIELDS`: the filter's name, and the register field. -/
def registerCodeFields : List (String × String) :=
  [("register_manufacturer_code", "tozeret_cd"), ("register_model_code", "degem_cd"),
    ("vehicle_type_code", "sug_degem")]

/-- The fields that state a value, in their order. -/
def collect (fields : List (String × Option FieldValue)) : Dict String FieldValue :=
  fields.foldl
    (fun projected field =>
      match field.2 with
      | some v => projected.set field.1 v
      | none => projected)
    Dict.empty

/-- `format(Decimal(repr(value)), "f")`. -/
def plainText (f : PyFloat) : Text :=
  let magnitude :=
    if 16 < f.point then f.digits ++ List.replicate (f.point - f.digits.length).toNat '0'
    else fixedText f.digits f.point
  if f.negative then '-' :: magnitude else magnitude

/-- The value a field states, if it is of the type expected. -/
def statedValue (raw : Option Jsonb) : FieldType → Option FieldValue
  | .str =>
    match raw with
    | some (.str s) => if strip s = [] then none else some (.text s)
    | _ => none
  | .int =>
    match raw with
    | some (.number n 0) => some (.int n)
    | _ => none

/-- The field is missing, null, or a string that is empty after trimming. -/
def isUnstated : Option Jsonb → Bool
  | none => true
  | some .null => true
  | some (.str s) => decide (strip s = [])
  | _ => false

section Payloads

variable (readFloat : ℤ → ℕ → Option PyFloat) (payload : Payload)

/-- `register_code`. -/
def registerCode (name : String) : Except String (Option Text) :=
  match payload.field name with
  | none => .ok none
  | some .null => .ok none
  | some (.str s) => .ok (some s)
  | some (.bool b) => .ok (some (if b then "true".toList else "false".toList))
  | some (.number n 0) => .ok (some (intText n))
  | some (.number unscaled scale) =>
    match readFloat unscaled scale with
    | some f => .ok (some (plainText f))
    | none => .error "a register identity code is a JSON scalar"
  | some _ => .error "a register identity code is a JSON scalar"

/-- A code that is no JSON scalar is dropped. -/
def statedCode (name : String) : Option FieldValue :=
  match registerCode readFloat payload name with
  | .ok code => code.map .text
  | .error _ => none

/-- `identity_projection`. -/
def identityProjection : Dict String FieldValue :=
  collect
    ((identityRecordFieldTypes.map fun field =>
      (field.1, statedValue (payload.field field.1) field.2)) ++
    registerCodeFields.map fun field => (field.2, statedCode readFloat payload field.2))

/-- `unstated_fields`. -/
def unstatedFields : List String :=
  (identityRecordFieldTypes.map Prod.fst).filter fun name => isUnstated (payload.field name)

end Payloads

/-! ## 2. Reading a typed row -/

/-- A row of `catalog_variants`. -/
structure CatalogVariant extends VariantRow where
  contentSha256 : Text
  mapperVersion : Text

/-- `column::text`. -/
def columnText : Option FieldValue → Option Text
  | some (.text t) => some t
  | some (.int n) => some (intText n)
  | _ => none

/-- One compacted row's typed reading. -/
structure Reading where
  upstreamRecordId : Text
  mapperVersion : Text
  contentSha256 : Text
  fields : Dict String (Option FieldValue)
  parseIssueFields : List String

namespace CatalogVariant

variable (variant : CatalogVariant)

def issueFields : List String := variant.parseIssues.map Prod.fst

/-- `catalog_compacted_record_reading`. -/
def reading : Reading where
  upstreamRecordId := variant.upstreamRecordId
  mapperVersion := variant.mapperVersion
  contentSha256 := variant.contentSha256
  fields :=
    ⟨[("tozar", variant.column "tozar"), ("kinuy_mishari", variant.column "kinuy_mishari"),
      ("shnat_yitzur", variant.column "shnat_yitzur"), ("degem_nm", variant.column "degem_nm"),
      ("ramat_gimur", variant.column "ramat_gimur"), ("delek_cd", variant.column "delek_cd"),
      ("delek_nm", variant.column "delek_nm"),
      ("tozeret_cd", (columnText (variant.column "tozeret_cd")).map .text),
      ("degem_cd", (columnText (variant.column "degem_cd")).map .text),
      ("sug_degem", variant.column "sug_degem")],
    by simp⟩
  parseIssueFields := variant.issueFields.dedup

end CatalogVariant

namespace Reading

variable (reading : Reading)

def field (name : String) : Option FieldValue := (reading.fields.get? name).join

/-- A field of the type expected. -/
def typed (value : Option FieldValue) : FieldType → Option FieldValue
  | .str =>
    match value with
    | some (.text t) => some (.text t)
    | _ => none
  | .int =>
    match value with
    | some (.int n) => some (.int n)
    | _ => none

/-- `reading_projection`. -/
def projection : Dict String FieldValue :=
  collect
    ((identityRecordFieldTypes.map fun field => (field.1, typed (reading.field field.1) field.2)) ++
    registerCodeFields.map fun field => (field.2, typed (reading.field field.2) .str))

/-- `reading_unstated`. -/
def unstated : List String :=
  (identityRecordFieldTypes.map Prod.fst).filter fun name =>
    decide (reading.field name = none) && decide (name ∉ reading.parseIssueFields)

/-- A register code of the reading. -/
def code (name : String) : Option Text :=
  match reading.field name with
  | some (.text t) => some t
  | _ => none

end Reading

/-! ## 3. The check -/

/-- Whether the value is a JSON number that is written whole. -/
def isWholeNumber : Jsonb → Bool
  | .number unscaled scale => isWholeText (numericText unscaled scale)
  | _ => false

def isString : Jsonb → Bool
  | .str _ => true
  | _ => false

section Check

variable (isSpaceClass : Char → Bool)

/-- `catalog_variant_field_reads_as`; `isSpaceClass` is the class `[[:space:]]`. -/
def fieldReadsAs (raw : Option Jsonb) (value : Option Text) (issue whole : Bool) : Bool :=
  match raw with
  | none => value.isNone
  | some .null => value.isNone
  | some raw =>
    match value with
    | some text =>
      if whole then isWholeNumber raw && decide (raw.text = text)
      else isString raw && decide (rendered (some raw) = some text)
    | none =>
      if isString raw && ((rendered (some raw)).getD []).all isSpaceClass then !issue
      else issue && !(whole && isWholeNumber raw) && !(!whole && isString raw)

/-- The register codes the check compares with `payload->>field`. -/
def checkedCodes : List String := ["tozeret_cd", "degem_cd", "sug_degem"]

/-- The identity fields the check reads, and whether each is a whole one. -/
def checkedFields : List (String × Bool) :=
  [("tozar", false), ("kinuy_mishari", false), ("shnat_yitzur", true), ("degem_nm", false),
    ("ramat_gimur", false), ("delek_cd", true), ("delek_nm", false)]

/-- `catalog_variant_reads_as_payload`; `contentSha256` is the hash of a payload's content. -/
def readsAsPayload (contentSha256 : Payload → Text) (payload : Payload) (variant : CatalogVariant) :
    Bool :=
  decide (variant.contentSha256 = contentSha256 payload) &&
    (checkedCodes.all fun name =>
      decide (columnText (variant.column name) = rendered (payload.field name))) &&
    checkedFields.all fun field =>
      fieldReadsAs isSpaceClass (payload.field field.1) (columnText (variant.column field.1))
        (variant.issueFields.contains field.1) field.2

end Check

/-! ## 4. One field -/

theorem isUnstated_eq_isBlank (raw : Option Jsonb) : isUnstated raw = isBlank raw := by
  cases raw with
  | none => rfl
  | some value => cases value <;> rfl

section Field

variable {readFloat : ℤ → ℕ → Option PyFloat} {isSpaceClass : Char → Bool} {raw : Option Jsonb}

variable {parsed : Parsed}

/-- A text column the check admits holds what the payload states. -/
theorem text_reads (hparsed : parse readFloat raw .text maxTextChars = parsed)
    (hreads : fieldReadsAs isSpaceClass raw (columnText parsed.value?) parsed.issue?.isSome false = true) :
    Reading.typed parsed.value? .str = statedValue raw .str ∧
      (decide (parsed.value? = none) && !parsed.issue?.isSome) = isBlank raw := by
  rcases parse_text readFloat raw maxTextChars with
    ⟨hblank, heq⟩ | ⟨s, hraw, hstrip, -, heq⟩ | ⟨s, hraw, hstrip, -, heq⟩ | ⟨hblank, hnot, heq⟩ <;>
    rw [← hparsed, heq] at hreads ⊢
  · rw [hblank]
    refine ⟨?_, rfl⟩
    cases raw with
    | none => rfl
    | some value =>
      cases value with
      | str s =>
        have hstrip : strip s = [] := of_decide_eq_true hblank
        simp only [Parsed.value?, Reading.typed, statedValue, hstrip, if_true]
      | _ => rfl
  · rw [hraw]
    simp [Parsed.value?, Parsed.issue?, Reading.typed, statedValue, isBlank, hstrip]
  · -- a string too long is stated, and the check refuses it
    rw [hraw] at hreads
    have hfalse : fieldReadsAs isSpaceClass (some (.str s)) none true false = false := by
      simp [fieldReadsAs, isString]
    exact absurd (hfalse.symm.trans hreads) (by decide)
  · rw [hblank]
    refine ⟨?_, rfl⟩
    unfold statedValue
    cases raw with
    | none => rfl
    | some value =>
      cases value with
      | str s => exact absurd rfl (hnot s)
      | _ => rfl

/-- The check admits an integer column only if the field is that integer. -/
theorem number_of_reads {n : ℤ} {issue : Bool}
    (hreads : fieldReadsAs isSpaceClass raw (some (intText n)) issue true = true) :
    ∃ m, raw = some (.number m 0) := by
  cases raw with
  | none => cases hreads
  | some value =>
    cases value with
    | number unscaled scale =>
      cases scale with
      | zero => exact ⟨unscaled, rfl⟩
      | succ scale =>
        have hwhole : isWholeNumber (.number unscaled (scale + 1)) = false :=
          isWholeText_numericText unscaled scale
        simp [fieldReadsAs, hwhole] at hreads
    | _ => cases hreads

/-- The check admits an issue only if the field is no integer. -/
theorem not_number_of_reads (hreads : fieldReadsAs isSpaceClass raw none true true = true) (m : ℤ) :
    raw ≠ some (.number m 0) := by
  intro hraw
  have hwhole : isWholeNumber (.number m 0) = true := isWholeText_intText m
  rw [hraw] at hreads
  simp [fieldReadsAs, hwhole, isString] at hreads

/-- An integer column the check admits holds what the payload states. -/
theorem int_reads (hparsed : parse readFloat raw .int maxTextChars = parsed)
    (hreads : fieldReadsAs isSpaceClass raw (columnText parsed.value?) parsed.issue?.isSome true = true) :
    Reading.typed parsed.value? .int = statedValue raw .int ∧
      (decide (parsed.value? = none) && !parsed.issue?.isSome) = isBlank raw := by
  cases parsed with
  | blank =>
    have hblank := parse_int_blank.mp hparsed
    rw [hblank]
    refine ⟨?_, rfl⟩
    cases raw with
    | none => rfl
    | some value =>
      cases value with
      | number unscaled scale => cases hblank
      | _ => rfl
  | value v =>
    rcases parse_int hparsed with ⟨n, hn⟩
    rw [hn] at hparsed hreads ⊢
    rcases number_of_reads hreads with ⟨m, hm⟩
    rw [hm] at hparsed ⊢
    have hnumber : parseNumber readFloat (.int m) .int = .value (.int n) := hparsed
    unfold parseNumber PyNumber.whole? at hnumber
    simp only at hnumber
    by_cases hrange : -int32 - 1 ≤ m ∧ m ≤ int32
    · rw [if_pos hrange] at hnumber
      cases hnumber
      exact ⟨rfl, rfl⟩
    · rw [if_neg hrange] at hnumber
      cases hnumber
  | issue reason =>
    have hblank : isBlank raw = false := by
      by_contra h
      rw [Bool.not_eq_false] at h
      rw [parse_int_blank.mpr h] at hparsed
      cases hparsed
    rw [hblank]
    refine ⟨?_, rfl⟩
    have hnot := not_number_of_reads hreads
    have hstated : statedValue raw .int = none := by
      cases raw with
      | none => rfl
      | some value =>
        cases value with
        | number unscaled scale =>
          cases scale with
          | zero => exact absurd rfl (hnot unscaled)
          | succ scale => rfl
        | _ => rfl
    rw [hstated]
    rfl

/-- A field the check admits reads as the payload does. -/
theorem field_reads {type : FieldType} (hparsed : parse readFloat raw type.kind maxTextChars = parsed)
    (hreads : fieldReadsAs isSpaceClass raw (columnText parsed.value?) parsed.issue?.isSome
      (decide (type = .int)) = true) :
    Reading.typed parsed.value? type = statedValue raw type ∧
      (decide (parsed.value? = none) && !parsed.issue?.isSome) = isBlank raw := by
  cases type with
  | str => exact text_reads hparsed hreads
  | int => exact int_reads hparsed hreads

end Field

/-! ## 5. One record -/

/-- The check compares the fields that the projection reads, each with its type. -/
theorem checkedFields_eq :
    checkedFields = identityRecordFieldTypes.map fun field => (field.1, decide (field.2 = .int)) := rfl

theorem checkedCodes_eq : checkedCodes = registerCodeFields.map Prod.snd := rfl

theorem identityField_spec : ∀ field ∈ identityRecordFieldTypes,
    (⟨field.1, field.1, field.2.kind⟩ : FieldSpec) ∈ fieldTable ∧ field.1 ∉ equipmentFields ∧
      field.1 ≠ "sug_mamir_cd" ∧ field.1 ≠ "sug_mamir_nm" := by
  decide +kernel

section Record

variable {readFloat : ℤ → ℕ → Option PyFloat} {str : Jsonb → Text}
  {normalise : Payload → Dict String (Option Text)} {contentSha256 : Payload → Text}
  {isSpaceClass : Char → Bool} {payload : Payload} {variant : CatalogVariant}

/-- The variant is the typed row of the payload, and the check admits it. -/
structure Admitted (readFloat : ℤ → ℕ → Option PyFloat) (str : Jsonb → Text)
    (normalise : Payload → Dict String (Option Text)) (contentSha256 : Payload → Text)
    (isSpaceClass : Char → Bool) (payload : Payload) (variant : CatalogVariant) : Prop where
  mapped : mapRecord readFloat str normalise payload = .ok variant.toVariantRow
  reads : readsAsPayload isSpaceClass contentSha256 payload variant = true

theorem column_mapped (h : mapRecord readFloat str normalise payload = .ok variant.toVariantRow)
    {spec : FieldSpec} (hspec : spec ∈ fieldTable) (hname : spec.name ∉ equipmentFields)
    (hcd : spec.column ≠ "sug_mamir_cd") (hnm : spec.column ≠ "sug_mamir_nm") :
    variant.column spec.column = (parsedField readFloat payload spec).value? ∧
      variant.issueFields.contains spec.name =
        (parsedField readFloat payload spec).issue?.isSome := by
  rcases mapRecord_eq_ok.mp h with ⟨id, -, -, hrow⟩
  apply And.intro
  · unfold VariantRow.column
    rw [hrow]
    exact column_dropUnknownConverter hspec hcd hnm
  · unfold CatalogVariant.issueFields
    rw [hrow, Bool.eq_iff_iff, List.contains_iff_mem]
    exact mem_parseIssues_fields hspec hname

theorem reading_field {field : String × FieldType} (h : field ∈ identityRecordFieldTypes) :
    variant.reading.field field.1 = variant.column field.1 := by
  have hmem : (field.1, variant.column field.1) ∈ variant.reading.fields.entries := by
    simp only [identityRecordFieldTypes, List.mem_cons, List.not_mem_nil, or_false] at h
    rcases h with heq | heq | heq | heq | heq | heq | heq <;> rw [heq] <;>
      simp [CatalogVariant.reading]
  unfold Reading.field
  rw [Dict.get?_eq_some.mpr hmem]
  rfl

/-- What an identity field reads as, before and after. -/
theorem Admitted.field_reads
    (h : Admitted readFloat str normalise contentSha256 isSpaceClass payload variant)
    {field : String × FieldType} (hfield : field ∈ identityRecordFieldTypes) :
    Reading.typed (variant.reading.field field.1) field.2 =
        statedValue (payload.field field.1) field.2 ∧
      (decide (variant.reading.field field.1 = none) &&
          decide (field.1 ∉ variant.reading.parseIssueFields)) =
        isUnstated (payload.field field.1) := by
  rcases identityField_spec field hfield with ⟨hspec, hname, hcd, hnm⟩
  have hmapped := column_mapped h.mapped hspec hname hcd hnm
  have hall := (Bool.and_eq_true _ _ ▸ h.reads).2
  have hreads := List.all_eq_true.mp hall (field.1, decide (field.2 = .int))
    (by rw [checkedFields_eq]; exact List.mem_map_of_mem hfield)
  simp only at hmapped hreads
  rw [hmapped.1, hmapped.2] at hreads
  have hfinal := Milo.Catalog.field_reads rfl hreads
  rw [reading_field hfield, hmapped.1]
  refine ⟨hfinal.1, ?_⟩
  rw [isUnstated_eq_isBlank, ← hfinal.2]
  congr 1
  have hissue : (parse readFloat (payload.field field.1) field.2.kind maxTextChars).issue?.isSome =
      variant.issueFields.contains field.1 := hmapped.2.symm
  show decide (field.1 ∉ variant.issueFields.dedup) = _
  rw [hissue]
  simp

theorem Admitted.unstated
    (h : Admitted readFloat str normalise contentSha256 isSpaceClass payload variant) :
    variant.reading.unstated = unstatedFields payload := by
  unfold Reading.unstated unstatedFields
  apply List.filter_congr
  intro name hname
  rcases List.mem_map.mp hname with ⟨field, hfield, heq⟩
  rw [← heq]
  exact (h.field_reads hfield).2

variable {name : String}

theorem registerCode_of_rendered_none (h : rendered (payload.field name) = none) :
    registerCode readFloat payload name = .ok none := by
  unfold registerCode
  cases hraw : payload.field name with
  | none => rfl
  | some value =>
    rw [hraw] at h
    cases value with
    | null => rfl
    | _ => cases h

/-- A code column that is rendered as the payload's field is its register code. -/
theorem registerCode_of_int {n : ℤ} (h : rendered (payload.field name) = some (intText n)) :
    registerCode readFloat payload name = .ok (some (intText n)) := by
  unfold registerCode
  cases hraw : payload.field name with
  | none =>
    rw [hraw] at h
    cases h
  | some value =>
    rw [hraw] at h
    rcases of_rendered_eq_intText h with heq | ⟨m, heq, htext⟩
    · rw [heq]
    · rw [heq]
      exact congrArg (fun t => Except.ok (some t)) htext

theorem codeField_spec : ∀ name ∈ checkedCodes,
    (⟨name, name, if name = "sug_degem" then .text else .int⟩ : FieldSpec) ∈ fieldTable ∧
      name ∉ equipmentFields ∧ name ≠ "sug_mamir_cd" ∧ name ≠ "sug_mamir_nm" := by
  decide +kernel

/-- A code column is null, an integer, or the text of its field. -/
theorem codeColumn_cases (h : mapRecord readFloat str normalise payload = .ok variant.toVariantRow)
    (hname : name ∈ checkedCodes) :
    variant.column name = none ∨
      (∃ n, variant.column name = some (.int n) ∧ name ≠ "sug_degem") ∨
      ∃ t, variant.column name = some (.text t) ∧ payload.field name = some (.str t) := by
  rcases codeField_spec name hname with ⟨hspec, hequipment, hcd, hnm⟩
  have hcolumn := (column_mapped h hspec hequipment hcd hnm).1
  simp only [parsedField] at hcolumn
  by_cases htext : name = "sug_degem"
  · rw [if_pos htext] at hcolumn
    rcases parse_text readFloat (payload.field name) maxTextChars with
      ⟨-, heq⟩ | ⟨s, hraw, -, -, heq⟩ | ⟨s, -, -, -, heq⟩ | ⟨-, -, heq⟩ <;> rw [heq] at hcolumn
    · exact Or.inl hcolumn
    · exact Or.inr (Or.inr ⟨s, hcolumn, hraw⟩)
    · exact Or.inl hcolumn
    · exact Or.inl hcolumn
  · rw [if_neg htext] at hcolumn
    cases hparsed : parse readFloat (payload.field name) .int maxTextChars with
    | blank =>
      rw [hparsed] at hcolumn
      exact Or.inl hcolumn
    | issue reason =>
      rw [hparsed] at hcolumn
      exact Or.inl hcolumn
    | value v =>
      rw [hparsed] at hcolumn
      rcases parse_int hparsed with ⟨n, hn⟩
      rw [hn] at hcolumn
      exact Or.inr (Or.inl ⟨n, hcolumn, htext⟩)

/-- The codes of a reading are the code columns as text. -/
theorem reading_code_field (hname : name ∈ checkedCodes) :
    variant.reading.field name =
      if name = "sug_degem" then variant.column name
      else (columnText (variant.column name)).map .text := by
  have hmem : (name, if name = "sug_degem" then variant.column name
      else (columnText (variant.column name)).map .text) ∈ variant.reading.fields.entries := by
    simp only [checkedCodes, List.mem_cons, List.not_mem_nil, or_false] at hname
    rcases hname with heq | heq | heq <;> rw [heq] <;> simp [CatalogVariant.reading]
  unfold Reading.field
  rw [Dict.get?_eq_some.mpr hmem]
  rfl

/-- The code of a reading is the register code of the payload. -/
theorem Admitted.code (h : Admitted readFloat str normalise contentSha256 isSpaceClass payload variant)
    (hname : name ∈ checkedCodes) :
    registerCode readFloat payload name = .ok (variant.reading.code name) ∧
      Reading.typed (variant.reading.field name) .str = (variant.reading.code name).map .text := by
  have hchecks := (Bool.and_eq_true _ _ ▸ h.reads).1
  have hcodes := List.all_eq_true.mp (Bool.and_eq_true _ _ ▸ hchecks).2 name hname
  have hrendered := of_decide_eq_true hcodes
  unfold Reading.code
  rw [reading_code_field hname]
  rcases codeColumn_cases h.mapped hname with hnone | ⟨n, hint, hname'⟩ | ⟨t, htext, hraw⟩
  · have hfield : (if name = "sug_degem" then (none : Option FieldValue)
        else (columnText none).map .text) = none := by
      split <;> rfl
    rw [hnone] at hrendered ⊢
    rw [registerCode_of_rendered_none hrendered.symm, hfield]
    exact ⟨rfl, rfl⟩
  · rw [hint] at hrendered ⊢
    rw [if_neg hname', registerCode_of_int hrendered.symm]
    exact ⟨rfl, rfl⟩
  · have hcode : registerCode readFloat payload name = .ok (some t) := by
      unfold registerCode
      rw [hraw]
    have hfield : (if name = "sug_degem" then some (.text t)
        else (columnText (some (.text t))).map .text) = some (FieldValue.text t) := by
      split <;> rfl
    rw [htext, hcode, hfield]
    exact ⟨rfl, rfl⟩

theorem Admitted.statedCode (h : Admitted readFloat str normalise contentSha256 isSpaceClass payload variant)
    (hname : name ∈ checkedCodes) :
    Reading.typed (variant.reading.field name) .str = statedCode readFloat payload name := by
  have hcode := h.code hname
  unfold Milo.Catalog.statedCode
  rw [hcode.1]
  exact hcode.2

theorem Admitted.projection
    (h : Admitted readFloat str normalise contentSha256 isSpaceClass payload variant) :
    variant.reading.projection = identityProjection readFloat payload := by
  have hfields : (identityRecordFieldTypes.map fun field =>
      (field.1, Reading.typed (variant.reading.field field.1) field.2)) =
      identityRecordFieldTypes.map fun field =>
        (field.1, statedValue (payload.field field.1) field.2) := by
    apply List.map_congr_left
    intro field hfield
    rw [(h.field_reads hfield).1]
  have hcodes : (registerCodeFields.map fun field =>
      (field.2, Reading.typed (variant.reading.field field.2) .str)) =
      registerCodeFields.map fun field => (field.2, Milo.Catalog.statedCode readFloat payload field.2) := by
    apply List.map_congr_left
    intro field hfield
    rw [h.statedCode (by rw [checkedCodes_eq]; exact List.mem_map_of_mem hfield)]
  unfold Reading.projection identityProjection
  rw [hfields, hcodes]

end Record

end Milo.Catalog
