import Milo.Python.PyValue
import Milo.Python.Text
import Milo.Reasoning.Decides
import Milo.Reasoning.StableSort

/-!
# OutputSchema — the schema language of a task's output

One schema is read three times: `normalize_output_schema` drops the keywords nothing enforces,
`validate_output_schema` judges it when a plan is made, and `validate_json_schema` holds an output to it when the
task has run.
-/

namespace Milo.Tools

open Milo.Python Milo.Reasoning

/-- The members of a mapping. -/
abbrev Members := List (List Char × PyValue)

/-! ## 1. The keywords -/

inductive SchemaType
  | object
  | array
  | string
  | integer
  | number
  | boolean
  | null
  deriving DecidableEq

namespace SchemaType

def text : SchemaType → List Char
  | object => "object".toList
  | array => "array".toList
  | string => "string".toList
  | integer => "integer".toList
  | number => "number".toList
  | boolean => "boolean".toList
  | null => "null".toList

def all : List SchemaType := [object, array, string, integer, number, boolean, null]

/-- The type a `type` keyword names. -/
def read (value : PyValue) : Option SchemaType :=
  value.str?.bind fun name => all.find? fun expected => decide (expected.text = name)

end SchemaType

/-- `OUTPUT_SCHEMA_STRIPPED_KEYWORDS`. -/
def strippedKeywords : List (List Char) :=
  ["title".toList, "default".toList, "examples".toList, "format".toList, "pattern".toList, "$schema".toList,
    "$id".toList, "$comment".toList, "readOnly".toList, "writeOnly".toList, "deprecated".toList]

/-- `OUTPUT_SCHEMA_CONSTRAINT_KEYWORDS`. -/
def constraintKeywords : SchemaType → List (List Char)
  | .integer => ["minimum".toList, "maximum".toList]
  | .number => ["minimum".toList, "maximum".toList]
  | .string => ["minLength".toList, "maxLength".toList]
  | .array => ["minItems".toList]
  | _ => []

/-- `MAX_OUTPUT_SCHEMA_DEPTH`. -/
def maxOutputSchemaDepth : ℕ := 8

/-- `MAX_OUTPUT_SCHEMA_ITEMS`. -/
def maxOutputSchemaItems : ℕ := 200

/-! ## 2. Normalization -/

inductive SchemaTooLarge
  | depth
  | size
  deriving DecidableEq

/-- What is left of a node, and the names of the keywords removed from it. -/
abbrev Stripped (α : Type) := α × List (List Char)

/-- The properties of an object node; `below` is the walk one level below. -/
def walkProperties (below : PyValue → Except SchemaTooLarge (Stripped PyValue)) (properties : Members) :
    Except SchemaTooLarge (List (Stripped (List Char × PyValue))) := do
  refuseIf (properties.length > maxOutputSchemaItems) .size
  properties.mapM fun property => do
    let nested ← below property.2
    pure ((property.1, nested.1), nested.2)

/-- One member of a node. -/
def walkMember (below : PyValue → Except SchemaTooLarge (Stripped PyValue)) (member : List Char × PyValue) :
    Except SchemaTooLarge (Stripped Members) :=
  if member.1 ∈ strippedKeywords then .ok ([], [member.1])
  else if member.1 = "properties".toList then
    match member.2 with
    | .dict properties => do
      let nested ← walkProperties below properties
      pure ([(member.1, .dict (nested.map Prod.fst))], (nested.map Prod.snd).flatten)
    | _ => .ok ([member], [])
  else if member.1 = "items".toList then do
    let nested ← below member.2
    pure ([(member.1, nested.1)], nested.2)
  else .ok ([member], [])

/-- `walk`, with the number of levels a mapping may still stand on. -/
def walk : ℕ → PyValue → Except SchemaTooLarge (Stripped PyValue)
  | 0, .dict _ => .error .depth
  | levels + 1, .dict members => do
    refuseIf (members.length > maxOutputSchemaItems) .size
    let walked ← members.mapM (walkMember (walk levels))
    pure (.dict (walked.map Prod.fst).flatten, (walked.map Prod.snd).flatten)
  | _, node => .ok (node, [])

/-- `normalize_output_schema`. -/
def normalizeOutputSchema (schema : PyValue) : Except SchemaTooLarge (Stripped PyValue) := do
  let walked ← walk (maxOutputSchemaDepth + 1) schema
  pure (walked.1, sortedBy id walked.2.dedup)

/-! ## 3. The parts both validators read -/

/-- `_bound`. -/
def isBound (integer : Bool) : PyValue → Bool
  | .int z => !integer || decide (0 ≤ z)
  | .float (.finite _) => !integer
  | _ => false

/-- What a bound amounts to. -/
def boundAmount : PyValue → ℚ
  | .int z => z
  | .float (.finite amount) => amount
  | _ => 0

def FloatValue.below : FloatValue → ℚ → Bool
  | .finite amount, bound => decide (amount < bound)
  | .infinite negative, _ => negative
  | .nan, _ => false

def FloatValue.above : FloatValue → ℚ → Bool
  | .finite amount, bound => decide (bound < amount)
  | .infinite negative, _ => !negative
  | .nan, _ => false

/-- The keywords of a type's lower and upper bound, and whether they count. -/
structure BoundNames where
  low : List Char
  high : Option (List Char)
  integer : Bool

def BoundNames.names (bounds : BoundNames) : List (List Char) := bounds.low :: bounds.high.toList

/-- The values of the type an enumeration may list. -/
def enumKind (expected : SchemaType) (value : PyValue) : Bool :=
  match expected, value with
  | .string, .str _ => true
  | .integer, .int _ => true
  | .number, .int _ => true
  | .number, .float _ => true
  | .boolean, .bool _ => true
  | _, _ => false

/-- `_enum_values_valid`. -/
def enumValuesValid (expected : SchemaType) (values : PyValue) : Bool :=
  values.items?.any fun items =>
    !items.isEmpty && items.all (enumKind expected) && decide (items.Pairwise fun a b => PyValue.same a b = false)

/-! ## 4. The check of a plan -/

inductive SchemaRefusal
  | notObject
  | unsupportedType
  | propertiesNotObject
  | openObject
  | requiredNotTexts
  | requiredNotUnique
  | unnamedProperty
  | noItems
  | maxItemsNotCount
  | boundNotValid
  | boundsCrossed
  | descriptionNotText
  | enumNotValid
  | unsupportedKeywords
  deriving DecidableEq

/-- What `_check_constraints` reads of a type. -/
def checkedBounds : SchemaType → Option BoundNames
  | .integer => some ⟨"minimum".toList, some "maximum".toList, false⟩
  | .number => some ⟨"minimum".toList, some "maximum".toList, false⟩
  | .string => some ⟨"minLength".toList, some "maxLength".toList, true⟩
  | .array => some ⟨"minItems".toList, some "maxItems".toList, true⟩
  | _ => none

/-- The bounds a schema states are usable and do not cross. -/
def checkBounds (members : Members) (bounds : BoundNames) : Except SchemaRefusal Unit := do
  bounds.names.forM fun key => refuseIf ((members.lookup key).any (fun bound => !isBound bounds.integer bound) = true)
    .boundNotValid
  refuseIf (∃ low ∈ members.lookup bounds.low, ∃ high ∈ bounds.high.bind fun high => members.lookup high,
    boundAmount high < boundAmount low) .boundsCrossed

/-- `_check_constraints`. -/
def checkConstraints (members : Members) (expected : SchemaType) : Except SchemaRefusal Unit :=
  match checkedBounds expected with
  | none => pure ()
  | some bounds => checkBounds members bounds

/-- The texts of a list of texts. -/
def texts? (value : PyValue) : Option (List (List Char)) := value.items?.bind fun items => items.mapM PyValue.str?

def allowedKeys (annotations : Bool) (expected : SchemaType) : List (List Char) :=
  ["type".toList] ++
    (if expected = .object then ["properties".toList, "required".toList, "additionalProperties".toList] else []) ++
    (if expected = .array then ["items".toList, "maxItems".toList] else []) ++
    if annotations then constraintKeywords expected ++ ["description".toList, "enum".toList] else []

/-- `value is False`. -/
def isFalse : PyValue → Bool
  | .bool false => true
  | _ => false

/-- The closed shape of an object schema. -/
def checkObject (members : Members) : Except SchemaRefusal Members := do
  let properties ← required (PyValue.get members "properties").members? .propertiesNotObject
  refuseIf (isFalse (PyValue.get members "additionalProperties") = false) .openObject
  let names ← required (texts? (PyValue.get members "required")) .requiredNotTexts
  refuseIf (¬(names.Nodup ∧ ∀ name ∈ names, name ∈ properties.map Prod.fst)) .requiredNotUnique
  pure properties

/-- An integer that is no bool. -/
def int? : PyValue → Option ℤ
  | .int z => some z
  | _ => none

/-- `maxItems` is a count. -/
def checkMaxItems (members : Members) : Except SchemaRefusal Unit :=
  refuseIf ((members.lookup "maxItems".toList).any (fun value => !(int? value).any fun z => decide (0 ≤ z)) = true)
    .maxItemsNotCount

/-- The annotations an output schema may carry. -/
def checkAnnotations (expected : SchemaType) (members : Members) : Except SchemaRefusal Unit := do
  checkConstraints members expected
  refuseIf ((members.lookup "description".toList).any (fun value => value.str?.isNone) = true) .descriptionNotText
  refuseIf ((members.lookup "enum".toList).any (fun value => !enumValuesValid expected value) = true) .enumNotValid

/-- What stands beside the structure of a schema. -/
def checkKeywords (annotations : Bool) (expected : SchemaType) (members : Members) : Except SchemaRefusal Unit := do
  (if annotations then checkAnnotations expected members else pure ())
  refuseIf (∃ member ∈ members, member.1 ∉ allowedKeys annotations expected) .unsupportedKeywords

def propertiesOf (members : Members) : Members := (PyValue.get members "properties").members?.getD []

theorem mem_of_lookup_eq_some {members : Members} {key : List Char} {value : PyValue}
    (h : members.lookup key = some value) : (key, value) ∈ members := by
  obtain ⟨before, after, hsplit, -⟩ := List.lookup_eq_some_iff.mp h
  rw [hsplit]
  exact List.mem_append_right _ List.mem_cons_self

theorem sizeOf_get_lt (members : Members) (key : String) : sizeOf (PyValue.get members key) < sizeOf (PyValue.dict members) := by
  unfold PyValue.get
  cases hlookup : members.lookup key.toList with
  | none =>
    show sizeOf PyValue.none < _
    simp only [PyValue.dict.sizeOf_spec, PyValue.none.sizeOf_spec]
    have hpos : 0 < sizeOf members := by cases members <;> simp
    omega
  | some value =>
    show sizeOf value < _
    have hmem := mem_of_lookup_eq_some hlookup
    have hlt := List.sizeOf_lt_of_mem hmem
    simp only [PyValue.dict.sizeOf_spec, Prod.mk.sizeOf_spec] at hlt ⊢
    omega

theorem sizeOf_property_lt {members : Members} {property : List Char × PyValue} (h : property ∈ propertiesOf members) :
    sizeOf property.2 < sizeOf (PyValue.dict members) := by
  have hget := sizeOf_get_lt members "properties"
  unfold propertiesOf at h
  cases hproperties : PyValue.get members "properties" with
  | dict properties =>
    rw [hproperties] at h hget
    have hlt := List.sizeOf_lt_of_mem (show property ∈ properties from h)
    simp only [PyValue.dict.sizeOf_spec] at hget ⊢
    have hproperty : sizeOf property = 1 + sizeOf property.1 + sizeOf property.2 := rfl
    omega
  | _ =>
    rw [hproperties] at h
    exact absurd h List.not_mem_nil

/-- `_check_schema`. -/
def checkSchema (annotations : Bool) (schema : PyValue) : Except SchemaRefusal Unit :=
  match schema with
  | .dict members =>
    match SchemaType.read (PyValue.get members "type") with
    | none => .error .unsupportedType
    | some .object => do
      let _ ← checkObject members
      (propertiesOf members).attach.forM fun property => do
        refuseIf (property.1.1 = []) .unnamedProperty
        checkSchema annotations property.1.2
      checkKeywords annotations .object members
    | some .array => do
      refuseIf ((members.lookup "items".toList).isNone = true) .noItems
      checkSchema annotations (PyValue.get members "items")
      checkMaxItems members
      checkKeywords annotations .array members
    | some expected => checkKeywords annotations expected members
  | _ => .error .notObject
termination_by sizeOf schema
decreasing_by
  · exact sizeOf_property_lt property.2
  · exact sizeOf_get_lt members "items"

/-- `validate_output_schema`. -/
def validateOutputSchema (schema : PyValue) : Except SchemaRefusal Unit := checkSchema true schema

/-! ## 5. The check of an output -/

/-- What can be wrong with a schema at run time. -/
inductive SchemaDefect
  | notObject
  | unsupportedType
  | invalidEnum
  | invalidBound
  | openObject
  | requiredNotTexts
  | noItems
  | invalidMaxItems
  deriving DecidableEq

/-- What can be wrong with a value. -/
inductive ValueFault
  | wrongType
  | notAllowed
  | outOfBounds
  | missingRequired
  | unknownProperties
  | tooManyItems
  deriving DecidableEq

inductive SchemaFailure
  | schema (defect : SchemaDefect)
  | value (fault : ValueFault)
  deriving DecidableEq

/-- `isinstance(value, types[expected])`, no bool being a number. -/
def holdsType : SchemaType → PyValue → Bool
  | .object, .dict _ => true
  | .array, .list _ => true
  | .string, .str _ => true
  | .integer, .int _ => true
  | .number, .int _ => true
  | .number, .float _ => true
  | .boolean, .bool _ => true
  | .null, .none => true
  | _, _ => false

def isBool : PyValue → Bool
  | .bool _ => true
  | _ => false

/-- `value == item and isinstance(value, bool) == isinstance(item, bool)`. -/
def matchesItem (value item : PyValue) : Bool := value.same item && decide (isBool value = isBool item)

def enforceEnum (members : Members) (expected : SchemaType) (value : PyValue) : Except SchemaFailure Unit :=
  (members.lookup "enum".toList).toList.forM fun allowed => do
    refuseIf (enumValuesValid expected allowed = false) (.schema .invalidEnum)
    refuseIf ((allowed.items?.getD []).any (matchesItem value) = false) (.value .notAllowed)

/-- What `_enforce_constraints` reads of a type. -/
def enforcedBounds : SchemaType → Option BoundNames
  | .integer => some ⟨"minimum".toList, some "maximum".toList, false⟩
  | .number => some ⟨"minimum".toList, some "maximum".toList, false⟩
  | .string => some ⟨"minLength".toList, some "maxLength".toList, true⟩
  | .array => some ⟨"minItems".toList, none, true⟩
  | _ => none

/-- What the bounds of a type bound. -/
def measureOf : PyValue → FloatValue
  | .int z => .finite z
  | .float f => f
  | .str s => .finite s.length
  | .list items => .finite items.length
  | _ => .finite 0

/-- A measure is held to the bounds a schema states. -/
def enforceBounds (members : Members) (bounds : BoundNames) (measure : FloatValue) : Except SchemaFailure Unit := do
  (members.lookup bounds.low).toList.forM fun bound => do
    refuseIf (isBound bounds.integer bound = false) (.schema .invalidBound)
    refuseIf (FloatValue.below measure (boundAmount bound) = true) (.value .outOfBounds)
  (bounds.high.bind fun high => members.lookup high).toList.forM fun bound => do
    refuseIf (isBound bounds.integer bound = false) (.schema .invalidBound)
    refuseIf (FloatValue.above measure (boundAmount bound) = true) (.value .outOfBounds)

/-- `_enforce_constraints`. -/
def enforceConstraints (members : Members) (expected : SchemaType) (value : PyValue) : Except SchemaFailure Unit :=
  match enforcedBounds expected with
  | none => pure ()
  | some bounds => enforceBounds members bounds (measureOf value)

/-- The checks of a value that look at nothing inside it. -/
def validateNode (members : Members) (value : PyValue) : Except SchemaFailure Unit := do
  let expected ← required (SchemaType.read (PyValue.get members "type")) (.schema .unsupportedType)
  refuseIf (holdsType expected value = false) (.value .wrongType)
  enforceEnum members expected value
  enforceConstraints members expected value

/-- The checks of an object's keys. -/
def validateKeys (members properties : Members) (fields : List (List Char × PyValue)) : Except SchemaFailure Unit := do
  refuseIf (isFalse (PyValue.get members "additionalProperties") = false) (.schema .openObject)
  let names ← required (texts? ((members.lookup "required".toList).getD (.list []))) (.schema .requiredNotTexts)
  refuseIf (∃ name ∈ names, name ∉ fields.map Prod.fst) (.value .missingRequired)
  refuseIf (∃ field ∈ fields, field.1 ∉ properties.map Prod.fst) (.value .unknownProperties)

/-- The check of an array's length. -/
def validateLength (members : Members) (length : ℕ) : Except SchemaFailure Unit :=
  (members.lookup "maxItems".toList).toList.forM fun bound => do
    let most ← required (int? bound) (.schema .invalidMaxItems)
    refuseIf (most < (length : ℤ)) (.value .tooManyItems)

mutual

/-- `validate_json_schema`. -/
def validateJsonSchema (schema : PyValue) : PyValue → Except SchemaFailure Unit
  | .dict fields => do
    let members ← required schema.members? (.schema .notObject)
    validateNode members (.dict fields)
    let properties ← required (PyValue.get members "properties").members? (.schema .openObject)
    validateKeys members properties fields
    validateFields properties fields
  | .list items => do
    let members ← required schema.members? (.schema .notObject)
    validateNode members (.list items)
    let nested ← required (members.lookup "items".toList) (.schema .noItems)
    validateLength members items.length
    validateItems nested items
  | value => do
    let members ← required schema.members? (.schema .notObject)
    validateNode members value

def validateFields (properties : Members) : List (List Char × PyValue) → Except SchemaFailure Unit
  | [] => pure ()
  | (key, value) :: fields => do
    validateJsonSchema ((properties.lookup key).getD .none) value
    validateFields properties fields

def validateItems (nested : PyValue) : List PyValue → Except SchemaFailure Unit
  | [] => pure ()
  | item :: items => do
    validateJsonSchema nested item
    validateItems nested items

end

/-! ## 6. What the walk leaves -/

section Walk

variable {levels : ℕ} {schema kept : PyValue} {members : Members} {names : List (List Char)} {key : List Char}
  {value : PyValue} {below : PyValue → Except SchemaTooLarge (Stripped PyValue)} {left : Stripped Members}
  {walked : List (Stripped Members)} {properties : Members}
  {nested : List (Stripped (List Char × PyValue))}

/-- One property of a node and what is left of it. -/
def WalkedProperty (below : PyValue → Except SchemaTooLarge (Stripped PyValue)) (property : List Char × PyValue)
    (left : Stripped (List Char × PyValue)) : Prop :=
  left.1.1 = property.1 ∧ below property.2 = .ok (left.1.2, left.2)

/-- What is left of a member: nothing of a stripped keyword, the structure walked, the rest as it is. -/
inductive WalkedMember (below : PyValue → Except SchemaTooLarge (Stripped PyValue)) :
    List Char × PyValue → Stripped Members → Prop
  | stripped {key : List Char} {value : PyValue} (h : key ∈ strippedKeywords) : WalkedMember below (key, value) ([], [key])
  | properties {properties : Members} {nested : List (Stripped (List Char × PyValue))}
      (hlength : properties.length ≤ maxOutputSchemaItems) (h : List.Forall₂ (WalkedProperty below) properties nested) :
      WalkedMember below ("properties".toList, .dict properties)
        ([("properties".toList, .dict (nested.map Prod.fst))], (nested.map Prod.snd).flatten)
  | items {value : PyValue} {nested : Stripped PyValue} (h : below value = .ok nested) :
      WalkedMember below ("items".toList, value) ([("items".toList, nested.1)], nested.2)
  | other {key : List Char} {value : PyValue} (hkey : key ∉ strippedKeywords)
      (hproperties : key = "properties".toList → value.members? = none) (hitems : key ≠ "items".toList) :
      WalkedMember below (key, value) ([(key, value)], [])

theorem walkProperties_eq_ok : walkProperties below properties = .ok nested ↔
    properties.length ≤ maxOutputSchemaItems ∧ List.Forall₂ (WalkedProperty below) properties nested := by
  unfold walkProperties
  constructor
  · intro h
    rcases except_bind_eq_ok.mp h with ⟨_, hlength, h⟩
    refine ⟨not_lt.mp (refuseIf_eq_ok.mp hlength), (forall₂_of_mapM h).imp ?_⟩
    intro property left hleft
    rcases except_bind_eq_ok.mp hleft with ⟨walked, hwalked, h⟩
    cases h
    exact ⟨rfl, hwalked⟩
  · rintro ⟨hlength, h⟩
    refine except_bind_eq_ok.mpr ⟨(), refuseIf_eq_ok.mpr (not_lt.mpr hlength), ?_⟩
    clear hlength
    induction h with
    | nil => rfl
    | @cons property left properties nested hfirst hrest ih =>
      rw [List.mapM_cons]
      refine except_bind_eq_ok.mpr ⟨left, except_bind_eq_ok.mpr ⟨_, hfirst.2, ?_⟩, ?_⟩
      · rw [← hfirst.1]
        rfl
      · exact except_bind_eq_ok.mpr ⟨nested, ih, rfl⟩

theorem properties_notMem_strippedKeywords : "properties".toList ∉ strippedKeywords := by decide

theorem items_notMem_strippedKeywords : "items".toList ∉ strippedKeywords := by decide

theorem items_ne_properties : "items".toList ≠ "properties".toList := by decide

variable {member : List Char × PyValue}

theorem walkedMember_of_walkMember (h : walkMember below member = .ok left) : WalkedMember below member left := by
  obtain ⟨key, value⟩ := member
  unfold walkMember at h
  dsimp only at h
  split at h
  · rename_i hstripped
    cases h
    exact .stripped hstripped
  · rename_i hkey
    split at h
    · rename_i hproperties
      cases hproperties
      cases value with
      | dict properties =>
        dsimp only at h
        rcases except_bind_eq_ok.mp h with ⟨nested, hnested, h⟩
        cases h
        obtain ⟨hlength, hall⟩ := walkProperties_eq_ok.mp hnested
        exact .properties hlength hall
      | _ =>
        cases h
        exact .other hkey (fun _ => rfl) items_ne_properties.symm
    · rename_i hproperties
      split at h
      · rename_i hitems
        cases hitems
        rcases except_bind_eq_ok.mp h with ⟨nested, hnested, h⟩
        cases h
        exact .items hnested
      · rename_i hitems
        cases h
        exact .other hkey (fun heq => absurd heq hproperties) hitems

theorem walkMember_of_walkedMember (h : WalkedMember below member left) : walkMember below member = .ok left := by
  unfold walkMember
  cases h with
  | stripped h => exact if_pos h
  | properties hlength h =>
    refine (if_neg properties_notMem_strippedKeywords).trans ((if_pos rfl).trans ?_)
    exact except_bind_eq_ok.mpr ⟨_, walkProperties_eq_ok.mpr ⟨hlength, h⟩, rfl⟩
  | items h =>
    refine (if_neg items_notMem_strippedKeywords).trans ((if_neg items_ne_properties).trans ((if_pos rfl).trans ?_))
    exact except_bind_eq_ok.mpr ⟨_, h, rfl⟩
  | @other key value hkey hproperties hitems =>
    refine (if_neg hkey).trans ?_
    by_cases heq : key = "properties".toList
    · refine (if_pos heq).trans ?_
      have hnone := hproperties heq
      cases value with
      | dict properties => cases hnone
      | _ => rfl
    · exact (if_neg heq).trans (if_neg hitems)

/-- A mapping is walked one level below the level it stands on. -/
theorem walk_dict_eq_ok : walk levels (.dict members) = .ok (kept, names) ↔ ∃ below walked, levels = below + 1 ∧
    members.length ≤ maxOutputSchemaItems ∧ List.Forall₂ (WalkedMember (walk below)) members walked ∧
    kept = .dict (walked.map Prod.fst).flatten ∧ names = (walked.map Prod.snd).flatten := by
  cases levels with
  | zero =>
    constructor
    · intro h
      cases h
    · rintro ⟨below, walked, h, -⟩
      cases h
  | succ levels =>
    constructor
    · intro h
      rcases except_bind_eq_ok.mp h with ⟨_, hlength, h⟩
      rcases except_bind_eq_ok.mp h with ⟨walked, hwalked, h⟩
      cases h
      refine ⟨levels, walked, rfl, not_lt.mp (refuseIf_eq_ok.mp hlength), ?_, rfl, rfl⟩
      exact (forall₂_of_mapM hwalked).imp fun _ _ => walkedMember_of_walkMember
    · rintro ⟨below, walked, hlevels, hlength, hwalked, rfl, rfl⟩
      cases hlevels
      refine except_bind_eq_ok.mpr ⟨(), refuseIf_eq_ok.mpr (not_lt.mpr hlength), ?_⟩
      refine except_bind_eq_ok.mpr ⟨walked, ?_, rfl⟩
      clear hlength
      induction hwalked with
      | nil => rfl
      | @cons member left members walked hfirst hrest ih =>
        rw [List.mapM_cons]
        refine except_bind_eq_ok.mpr ⟨left, walkMember_of_walkedMember hfirst, ?_⟩
        exact except_bind_eq_ok.mpr ⟨walked, ih, rfl⟩

theorem walk_of_not_dict (h : schema.members? = none) : walk levels schema = .ok (schema, []) := by
  cases schema with
  | dict members => cases h
  | _ => cases levels <;> rfl

theorem WalkedMember.cases_kept (h : WalkedMember below member left) :
    left.1 = [] ∧ member.1 ∈ strippedKeywords ∨ ∃ value, left.1 = [(member.1, value)] ∧ member.1 ∉ strippedKeywords := by
  cases h with
  | stripped h => exact Or.inl ⟨rfl, h⟩
  | properties hlength h => exact Or.inr ⟨_, rfl, properties_notMem_strippedKeywords⟩
  | items h => exact Or.inr ⟨_, rfl, items_notMem_strippedKeywords⟩
  | other hkey => exact Or.inr ⟨_, rfl, hkey⟩

/-- What is left of a member is left as it is by a second walk. -/
theorem WalkedMember.again
    (hbelow : ∀ schema kept names, below schema = .ok (kept, names) → below kept = .ok (kept, []))
    (h : WalkedMember below member left) : ∀ entry ∈ left.1, WalkedMember below entry ([entry], []) := by
  intro entry hentry
  cases h with
  | stripped h => exact absurd hentry List.not_mem_nil
  | @properties properties nested hlength h =>
    rw [List.mem_singleton.mp hentry]
    have hagain : List.Forall₂ (WalkedProperty below) (nested.map Prod.fst) (nested.map fun left => (left.1, [])) := by
      clear hlength hentry
      induction h with
      | nil => exact .nil
      | @cons property left properties nested hfirst hrest ih => exact .cons ⟨rfl, hbelow _ _ _ hfirst.2⟩ ih
    have hkept := WalkedMember.properties (by rw [List.length_map, ← h.length_eq]; exact hlength) hagain
    rw [List.map_map, List.map_map] at hkept
    have hnames : (nested.map (Prod.snd ∘ fun left => (left.1, ([] : List (List Char))))).flatten = [] := by
      rw [List.flatten_eq_nil_iff]
      intro names hnames
      obtain ⟨_, _, rfl⟩ := List.mem_map.mp hnames
      rfl
    rw [hnames] at hkept
    exact hkept
  | items h =>
    rw [List.mem_singleton.mp hentry]
    exact .items (hbelow _ _ _ h)
  | other hkey hproperties hitems =>
    rw [List.mem_singleton.mp hentry]
    exact .other hkey hproperties hitems

/-- What a walk leaves a second walk leaves as it is. -/
theorem walk_again (h : walk levels schema = .ok (kept, names)) : walk levels kept = .ok (kept, []) := by
  induction levels generalizing schema kept names with
  | zero =>
    cases hmembers : schema.members? with
    | none =>
      have hsame : walk 0 schema = .ok (schema, []) := walk_of_not_dict hmembers
      rw [h] at hsame
      cases hsame
      exact walk_of_not_dict hmembers
    | some members =>
      cases schema with
      | dict members => cases h
      | _ => cases hmembers
  | succ levels ih =>
    cases schema with
    | dict members =>
      obtain ⟨below, walked, hlevels, hlength, hwalked, rfl, -⟩ := walk_dict_eq_ok.mp h
      cases hlevels
      have hkept : ((walked.map Prod.fst).flatten).length ≤ members.length ∧
          ∀ entry ∈ (walked.map Prod.fst).flatten, WalkedMember (walk levels) entry ([entry], []) := by
        clear h hlength
        induction hwalked with
        | nil => exact ⟨le_rfl, fun _ hentry => absurd hentry List.not_mem_nil⟩
        | @cons member left members walked hfirst hrest ihrest =>
          rw [List.map_cons, List.flatten_cons, List.length_append, List.length_cons]
          constructor
          · have hone : left.1.length ≤ 1 := by
              rcases hfirst.cases_kept with ⟨hleft, -⟩ | ⟨value, hleft, -⟩
              · rw [hleft]
                exact Nat.zero_le _
              · rw [hleft, List.length_singleton]
            have hlen := ihrest.1
            omega
          · intro entry hentry
            rcases List.mem_append.mp hentry with hentry | hentry
            · exact hfirst.again (fun _ _ _ => ih) entry hentry
            · exact ihrest.2 entry hentry
      refine walk_dict_eq_ok.mpr ⟨levels, ((walked.map Prod.fst).flatten).map (fun entry => ([entry], [])), rfl,
        hkept.1.trans hlength, ?_, ?_, ?_⟩
      · rw [List.forall₂_map_right_iff, List.forall₂_same]
        exact hkept.2
      · rw [List.map_map]
        exact congrArg PyValue.dict (List.flatMap_def.symm.trans (List.flatMap_singleton' _)).symm
      · rw [List.map_map]
        symm
        rw [List.flatten_eq_nil_iff]
        intro names hnames
        obtain ⟨_, _, rfl⟩ := List.mem_map.mp hnames
        rfl
    | _ =>
      cases h
      rfl

/-- What is left under a key that is not stripped is what the walk made of its value. -/
theorem lookup_walked (hkey : key ∉ strippedKeywords) (h : List.Forall₂ (WalkedMember below) members walked) :
    members.lookup key = none ∧ ((walked.map Prod.fst).flatten).lookup key = none ∨
      ∃ value value' names, members.lookup key = some value ∧ WalkedMember below (key, value) ([(key, value')], names) ∧
        ((walked.map Prod.fst).flatten).lookup key = some value' := by
  induction h with
  | nil => exact Or.inl ⟨rfl, rfl⟩
  | @cons member left members walked hfirst hrest ih =>
    obtain ⟨found, value⟩ := member
    rw [List.map_cons, List.flatten_cons]
    by_cases hfound : key = found
    · subst hfound
      rcases hfirst.cases_kept with ⟨-, hstripped⟩ | ⟨value', hleft, -⟩
      · exact absurd hstripped hkey
      · refine Or.inr ⟨value, value', left.2, List.lookup_cons_self, ?_, ?_⟩
        · have hpair : ([(key, value')], left.2) = left := Prod.ext hleft.symm rfl
          rw [hpair]
          exact hfirst
        · rw [hleft]
          exact List.lookup_cons_self
    · have hne : (key == found) = false := beq_false_of_ne hfound
      have hleft : left.1.lookup key = none := by
        rcases hfirst.cases_kept with ⟨hleft, -⟩ | ⟨value', hleft, -⟩
        · rw [hleft]
          rfl
        · rw [hleft, List.lookup_cons, hne]
          rfl
      rw [List.lookup_cons, hne, List.lookup_append, hleft, Option.none_or]
      exact ih

/-- A keyword that is neither stripped nor structural is read as before. -/
theorem lookup_walked_other (hkey : key ∉ strippedKeywords) (hproperties : key ≠ "properties".toList)
    (hitems : key ≠ "items".toList) (h : List.Forall₂ (WalkedMember below) members walked) :
    ((walked.map Prod.fst).flatten).lookup key = members.lookup key := by
  rcases lookup_walked hkey h with ⟨hbefore, hafter⟩ | ⟨value, value', names, hbefore, hmember, hafter⟩
  · rw [hbefore, hafter]
  · rw [hbefore, hafter]
    cases hmember with
    | properties => exact absurd rfl hproperties
    | items => exact absurd rfl hitems
    | other => rfl

theorem lookup_walkedProperties (h : List.Forall₂ (WalkedProperty below) properties nested) (name : List Char) :
    properties.lookup name = none ∧ (nested.map Prod.fst).lookup name = none ∨
      ∃ value value' names, properties.lookup name = some value ∧ below value = .ok (value', names) ∧
        (nested.map Prod.fst).lookup name = some value' := by
  induction h with
  | nil => exact Or.inl ⟨rfl, rfl⟩
  | @cons property left properties nested hfirst hrest ih =>
    obtain ⟨found, value⟩ := property
    obtain ⟨⟨found', value'⟩, names⟩ := left
    obtain ⟨rfl, hbelow⟩ := hfirst
    rw [List.map_cons]
    by_cases hfound : name = found'
    · subst hfound
      exact Or.inr ⟨value, value', names, List.lookup_cons_self, hbelow, List.lookup_cons_self⟩
    · have hne : (name == found') = false := beq_false_of_ne hfound
      rw [List.lookup_cons, List.lookup_cons, hne]
      exact ih

theorem keys_walkedProperties (h : List.Forall₂ (WalkedProperty below) properties nested) :
    (nested.map Prod.fst).map Prod.fst = properties.map Prod.fst := by
  induction h with
  | nil => rfl
  | cons hfirst hrest ih =>
    rw [List.map_cons, List.map_cons, List.map_cons, hfirst.1, ih]

end Walk

/-! ## 7. A normalized schema means what it meant -/

section Normalized

variable {levels : ℕ} {schema kept : PyValue} {members : Members} {names : List (List Char)} {value : PyValue}
  {below : PyValue → Except SchemaTooLarge (Stripped PyValue)} {walked : List (Stripped Members)}

theorem get_walked_other {name : String} (hkey : name.toList ∉ strippedKeywords)
    (hproperties : name.toList ≠ "properties".toList) (hitems : name.toList ≠ "items".toList)
    (h : List.Forall₂ (WalkedMember below) members walked) :
    PyValue.get ((walked.map Prod.fst).flatten) name = PyValue.get members name := by
  unfold PyValue.get
  rw [lookup_walked_other hkey hproperties hitems h]

/-- The keywords of a type's bounds are neither stripped nor structural. -/
theorem names_enforcedBounds {expected : SchemaType} {bounds : BoundNames} (h : enforcedBounds expected = some bounds) :
    ∀ key ∈ bounds.names, key ∉ strippedKeywords ∧ key ≠ "properties".toList ∧ key ≠ "items".toList := by
  cases expected with
  | integer =>
    cases h
    decide
  | number =>
    cases h
    decide
  | string =>
    cases h
    decide
  | array =>
    cases h
    decide
  | _ => cases h

theorem enforceConstraints_walked {expected : SchemaType} (h : List.Forall₂ (WalkedMember below) members walked) :
    enforceConstraints ((walked.map Prod.fst).flatten) expected value = enforceConstraints members expected value := by
  unfold enforceConstraints
  cases hfound : enforcedBounds expected with
  | none => rfl
  | some bounds =>
    have hall := names_enforcedBounds hfound
    have hlookup : ∀ key ∈ bounds.names, ((walked.map Prod.fst).flatten).lookup key = members.lookup key := by
      intro key hkey
      obtain ⟨hstripped, hproperties, hitems⟩ := hall key hkey
      exact lookup_walked_other hstripped hproperties hitems h
    have hhigh : (bounds.high.bind fun high => ((walked.map Prod.fst).flatten).lookup high) =
        bounds.high.bind fun high => members.lookup high := by
      cases hnames : bounds.high with
      | none => rfl
      | some high =>
        refine hlookup high (List.mem_cons_of_mem _ ?_)
        rw [hnames]
        exact List.mem_singleton_self high
    dsimp only
    unfold enforceBounds
    rw [hlookup bounds.low List.mem_cons_self, hhigh]

theorem validateNode_walked (h : List.Forall₂ (WalkedMember below) members walked) :
    validateNode ((walked.map Prod.fst).flatten) value = validateNode members value := by
  have henum : ∀ expected, enforceEnum ((walked.map Prod.fst).flatten) expected value = enforceEnum members expected value := by
    intro expected
    unfold enforceEnum
    rw [lookup_walked_other (by decide) (by decide) (by decide) h]
  unfold validateNode
  rw [get_walked_other (by decide) (by decide) (by decide) h]
  simp only [henum, enforceConstraints_walked h]

theorem validateLength_walked {length : ℕ} (h : List.Forall₂ (WalkedMember below) members walked) :
    validateLength ((walked.map Prod.fst).flatten) length = validateLength members length := by
  unfold validateLength
  rw [lookup_walked_other (by decide) (by decide) (by decide) h]

theorem validateKeys_walked {fields properties properties' : Members}
    (hkeys : properties'.map Prod.fst = properties.map Prod.fst) (h : List.Forall₂ (WalkedMember below) members walked) :
    validateKeys ((walked.map Prod.fst).flatten) properties' fields = validateKeys members properties fields := by
  unfold validateKeys
  rw [get_walked_other (by decide) (by decide) (by decide) h, lookup_walked_other (by decide) (by decide) (by decide) h,
    hkeys]

theorem validateFields_congr {properties properties' : Members} {fields : List (List Char × PyValue)}
    (h : ∀ field ∈ fields, validateJsonSchema ((properties'.lookup field.1).getD .none) field.2 =
      validateJsonSchema ((properties.lookup field.1).getD .none) field.2) :
    validateFields properties' fields = validateFields properties fields := by
  induction fields with
  | nil => rfl
  | cons field fields ih =>
    obtain ⟨key, value⟩ := field
    rw [validateFields, validateFields, h (key, value) List.mem_cons_self,
      ih fun other hother => h other (List.mem_cons_of_mem _ hother)]

theorem validateItems_congr {nested nested' : PyValue} {items : List PyValue}
    (h : ∀ item ∈ items, validateJsonSchema nested' item = validateJsonSchema nested item) :
    validateItems nested' items = validateItems nested items := by
  induction items with
  | nil => rfl
  | cons item items ih =>
    rw [validateItems, validateItems, h item List.mem_cons_self,
      ih fun other hother => h other (List.mem_cons_of_mem _ hother)]

theorem validateJsonSchema_walked (h : walk levels schema = .ok (kept, names)) :
    validateJsonSchema kept value = validateJsonSchema schema value := by
  induction hsize : sizeOf value using Nat.strong_induction_on generalizing levels schema kept names value with
  | _ size ih =>
    cases schema with
    | dict members =>
      obtain ⟨below, walked, -, -, hwalked, rfl, -⟩ := walk_dict_eq_ok.mp h
      cases value with
      | dict fields =>
        rw [validateJsonSchema, validateJsonSchema]
        show (validateNode _ _ >>= fun _ => _) = (validateNode _ _ >>= fun _ => _)
        rw [validateNode_walked hwalked]
        refine congrArg _ (funext fun _ => ?_)
        rcases lookup_walked properties_notMem_strippedKeywords hwalked with ⟨hbefore, hafter⟩ |
          ⟨found, found', _, hbefore, hmember, hafter⟩
        · unfold PyValue.get
          rw [hbefore, hafter]
          rfl
        · unfold PyValue.get
          rw [hbefore, hafter]
          cases hmember with
          | @properties properties nested hlength hnested =>
            show (validateKeys _ _ _ >>= fun _ => _) = (validateKeys _ _ _ >>= fun _ => _)
            rw [validateKeys_walked (keys_walkedProperties hnested) hwalked]
            refine congrArg _ (funext fun _ => validateFields_congr fun field hfield => ?_)
            rcases lookup_walkedProperties hnested field.1 with ⟨hbefore, hafter⟩ | ⟨found, found', _, hbefore, hwalk, hafter⟩
            · rw [hbefore, hafter]
            · rw [hbefore, hafter]
              refine ih _ ?_ hwalk rfl
              have hlt := List.sizeOf_lt_of_mem hfield
              rw [← hsize, PyValue.dict.sizeOf_spec]
              have hpair : sizeOf field = 1 + sizeOf field.1 + sizeOf field.2 := rfl
              omega
          | other _ hnone _ =>
            have hnone := hnone rfl
            rw [Option.getD_some, hnone]
            rfl
      | list items =>
        rw [validateJsonSchema, validateJsonSchema]
        show (validateNode _ _ >>= fun _ => _) = (validateNode _ _ >>= fun _ => _)
        rw [validateNode_walked hwalked]
        refine congrArg _ (funext fun _ => ?_)
        rcases lookup_walked items_notMem_strippedKeywords hwalked with ⟨hbefore, hafter⟩ |
          ⟨found, found', _, hbefore, hmember, hafter⟩
        · rw [hbefore, hafter]
          rfl
        · rw [hbefore, hafter]
          cases hmember with
          | @items value nested hnested =>
            show (validateLength _ _ >>= fun _ => _) = (validateLength _ _ >>= fun _ => _)
            rw [validateLength_walked hwalked]
            refine congrArg _ (funext fun _ => validateItems_congr fun item hitem => ?_)
            refine ih _ ?_ hnested rfl
            have hlt := List.sizeOf_lt_of_mem hitem
            rw [← hsize, PyValue.list.sizeOf_spec]
            omega
          | other _ _ hitems => exact absurd rfl hitems
      | _ => exact validateNode_walked hwalked
    | _ =>
      rw [walk_of_not_dict rfl] at h
      cases h
      rfl

end Normalized

/-! ## 8. The grammar of an accepted schema -/

/-- The value is one of those a schema lists, if it lists any. -/
def Allowed (members : Members) (value : PyValue) : Prop :=
  ∀ items, members.lookup "enum".toList = some (.list items) → ∃ item ∈ items, matchesItem value item = true

/-- The measure is neither below the one bound nor above the other, where they are stated. -/
def Within (members : Members) (low high : String) (measure : FloatValue) : Prop :=
  (∀ bound ∈ members.lookup low.toList, FloatValue.below measure (boundAmount bound) = false) ∧
    ∀ bound ∈ members.lookup high.toList, FloatValue.above measure (boundAmount bound) = false

/-- What a schema says about a value, read as a grammar. -/
inductive Conforms : PyValue → PyValue → Prop
  | null {members : Members} (htype : PyValue.get members "type" = .str "null".toList) : Conforms (.dict members) .none
  | boolean {members : Members} {b : Bool} (htype : PyValue.get members "type" = .str "boolean".toList)
      (hallowed : Allowed members (.bool b)) : Conforms (.dict members) (.bool b)
  | integer {members : Members} {z : ℤ} (htype : PyValue.get members "type" = .str "integer".toList)
      (hallowed : Allowed members (.int z)) (hwithin : Within members "minimum" "maximum" (.finite z)) :
      Conforms (.dict members) (.int z)
  | whole {members : Members} {z : ℤ} (htype : PyValue.get members "type" = .str "number".toList)
      (hallowed : Allowed members (.int z)) (hwithin : Within members "minimum" "maximum" (.finite z)) :
      Conforms (.dict members) (.int z)
  | number {members : Members} {f : FloatValue} (htype : PyValue.get members "type" = .str "number".toList)
      (hallowed : Allowed members (.float f)) (hwithin : Within members "minimum" "maximum" f) :
      Conforms (.dict members) (.float f)
  | string {members : Members} {text : List Char} (htype : PyValue.get members "type" = .str "string".toList)
      (hallowed : Allowed members (.str text)) (hwithin : Within members "minLength" "maxLength" (.finite text.length)) :
      Conforms (.dict members) (.str text)
  | array {members : Members} {nested : PyValue} {items : List PyValue}
      (htype : PyValue.get members "type" = .str "array".toList) (hitems : members.lookup "items".toList = some nested)
      (hwithin : Within members "minItems" "maxItems" (.finite items.length)) (h : ∀ item ∈ items, Conforms nested item) :
      Conforms (.dict members) (.list items)
  | object {members properties fields : Members} {names : List (List Char)}
      (htype : PyValue.get members "type" = .str "object".toList)
      (hproperties : PyValue.get members "properties" = .dict properties)
      (hrequired : members.lookup "required".toList = some (.list (names.map .str)))
      (hnames : ∀ name ∈ names, name ∈ fields.map Prod.fst)
      (hknown : ∀ field ∈ fields, field.1 ∈ properties.map Prod.fst)
      (h : ∀ field ∈ fields, ∀ nested, properties.lookup field.1 = some nested → Conforms nested field.2) :
      Conforms (.dict members) (.dict fields)

/-- The failure is one of the value, not of the schema. -/
def AboutValue (failure : SchemaFailure) : Prop := ∃ fault, failure = .value fault

/-- What the check of a plan says about one node of a schema. -/
structure Accepted (members : Members) (expected : SchemaType) : Prop where
  type : SchemaType.read (PyValue.get members "type") = some expected
  bounds : ∀ bounds, checkedBounds expected = some bounds → ∀ key ∈ bounds.names, ∀ bound ∈ members.lookup key,
    isBound bounds.integer bound = true
  enum : ∀ value ∈ members.lookup "enum".toList, enumValuesValid expected value = true
  object : expected = .object → ∃ (properties : Members) (names : List (List Char)), PyValue.get members "properties" = .dict properties ∧
    isFalse (PyValue.get members "additionalProperties") = true ∧
    members.lookup "required".toList = some (.list (names.map .str)) ∧
    ∀ property ∈ properties, checkSchema true property.2 = .ok ()
  array : expected = .array → ∃ nested, members.lookup "items".toList = some nested ∧ checkSchema true nested = .ok () ∧
    ∀ bound ∈ members.lookup "maxItems".toList, ∃ z : ℤ, bound = .int z

section Accepted

variable {schema value : PyValue} {members : Members} {expected : SchemaType}

theorem texts?_eq_some {names : List (List Char)} : texts? value = some names ↔ value = .list (names.map .str) :=
  PyValue.items?_bind_mapM_eq_some fun _ _ => PyValue.str?_eq_some

theorem checkBounds_bounds {bounds : BoundNames} (h : checkBounds members bounds = .ok ()) :
    ∀ key ∈ bounds.names, ∀ bound ∈ members.lookup key, isBound bounds.integer bound = true := by
  intro key hkey bound hbound
  rcases except_bind_eq_ok.mp h with ⟨_, hall, -⟩
  have hrefused := refuseIf_eq_ok.mp (forM_eq_ok.mp hall key hkey)
  rw [Option.mem_def.mp hbound, Option.any_some, Bool.not_eq_true, Bool.not_eq_false'] at hrefused
  exact hrefused

theorem checkKeywords_eq_ok (h : checkKeywords true expected members = .ok ()) :
    (∀ bounds, checkedBounds expected = some bounds → ∀ key ∈ bounds.names, ∀ bound ∈ members.lookup key,
      isBound bounds.integer bound = true) ∧
      ∀ value ∈ members.lookup "enum".toList, enumValuesValid expected value = true := by
  rcases except_bind_eq_ok.mp h with ⟨_, hannotations, -⟩
  rw [if_pos rfl] at hannotations
  rcases except_bind_eq_ok.mp hannotations with ⟨_, hconstraints, h⟩
  rcases except_bind_eq_ok.mp h with ⟨_, -, henum⟩
  constructor
  · intro bounds hbounds
    unfold checkConstraints at hconstraints
    rw [hbounds] at hconstraints
    exact checkBounds_bounds hconstraints
  · intro value hvalue
    have hrefused := refuseIf_eq_ok.mp henum
    rw [Option.mem_def.mp hvalue, Option.any_some, Bool.not_eq_true, Bool.not_eq_false'] at hrefused
    exact hrefused

theorem accepted_of_checkSchema (h : checkSchema true schema = .ok ()) :
    ∃ members expected, schema = .dict members ∧ Accepted members expected := by
  rw [checkSchema.eq_def] at h
  cases schema with
  | dict members =>
    dsimp only at h
    refine ⟨members, ?_⟩
    cases hread : SchemaType.read (PyValue.get members "type") with
    | none =>
      rw [hread] at h
      cases h
    | some expected =>
      rw [hread] at h
      refine ⟨expected, rfl, ?_⟩
      cases expected with
      | object =>
        dsimp only at h
        rcases except_bind_eq_ok.mp h with ⟨properties, hobject, h⟩
        rcases except_bind_eq_ok.mp h with ⟨_, hnested, hkeywords⟩
        obtain ⟨hbounds, henum⟩ := checkKeywords_eq_ok hkeywords
        refine ⟨hread, hbounds, henum, fun _ => ?_, fun h => by cases h⟩
        rcases except_bind_eq_ok.mp hobject with ⟨found, hproperties, hobject⟩
        rcases except_bind_eq_ok.mp hobject with ⟨_, hclosed, hobject⟩
        rcases except_bind_eq_ok.mp hobject with ⟨names, hnames, hobject⟩
        have hproperties := PyValue.members?_eq_some.mp (required_eq_ok.mp hproperties)
        have hlist := texts?_eq_some.mp (required_eq_ok.mp hnames)
        refine ⟨found, names, hproperties, ?_, ?_, ?_⟩
        · exact Bool.eq_true_of_not_eq_false (refuseIf_eq_ok.mp hclosed)
        · unfold PyValue.get at hlist
          cases hlookup : members.lookup "required".toList with
          | none =>
            rw [hlookup] at hlist
            cases hlist
          | some value =>
            rw [hlookup] at hlist
            exact congrArg some hlist
        · intro property hproperty
          have hmem : property ∈ propertiesOf members := by
            unfold propertiesOf
            rw [hproperties]
            exact hproperty
          have hchecked := forM_eq_ok.mp hnested ⟨property, hmem⟩ (List.mem_attach _ _)
          rcases except_bind_eq_ok.mp hchecked with ⟨_, -, hchecked⟩
          exact hchecked
      | array =>
        dsimp only at h
        rcases except_bind_eq_ok.mp h with ⟨_, hsome, h⟩
        rcases except_bind_eq_ok.mp h with ⟨_, hnested, h⟩
        rcases except_bind_eq_ok.mp h with ⟨_, hmost, hkeywords⟩
        obtain ⟨hbounds, henum⟩ := checkKeywords_eq_ok hkeywords
        refine ⟨hread, hbounds, henum, (fun h => by cases h), fun _ => ?_⟩
        cases hitems : members.lookup "items".toList with
        | none =>
          rw [hitems] at hsome
          exact absurd rfl (refuseIf_eq_ok.mp hsome)
        | some nested =>
          refine ⟨nested, rfl, ?_, ?_⟩
          · unfold PyValue.get at hnested
            rw [hitems] at hnested
            exact hnested
          · intro bound hbound
            have hrefused := refuseIf_eq_ok.mp hmost
            rw [Option.mem_def.mp hbound, Option.any_some, Bool.not_eq_true, Bool.not_eq_false'] at hrefused
            cases bound with
            | int z => exact ⟨z, rfl⟩
            | _ => cases hrefused
      | _ =>
        obtain ⟨hbounds, henum⟩ := checkKeywords_eq_ok h
        exact ⟨hread, hbounds, henum, (fun h => by cases h), (fun h => by cases h)⟩
  | _ => cases h

end Accepted

/-! ## 9. An accepted schema is enforced -/

/-- The bounds a type is held to. -/
def WithinType (members : Members) : SchemaType → FloatValue → Prop
  | .integer, measure => Within members "minimum" "maximum" measure
  | .number, measure => Within members "minimum" "maximum" measure
  | .string, measure => Within members "minLength" "maxLength" measure
  | .array, measure => ∀ bound ∈ members.lookup "minItems".toList, FloatValue.below measure (boundAmount bound) = false
  | _, _ => True

section Enforced

variable {schema value : PyValue} {members : Members} {expected : SchemaType} {measure : FloatValue}

theorem aboutValue (fault : ValueFault) : AboutValue (.value fault) := ⟨fault, rfl⟩

theorem find?_schemaType (expected : SchemaType) :
    SchemaType.all.find? (fun other => decide (other.text = expected.text)) = some expected := by
  cases expected <;> decide

theorem read_eq_some : SchemaType.read value = some expected ↔ value = .str expected.text := by
  unfold SchemaType.read
  constructor
  · intro h
    rcases Option.bind_eq_some_iff.mp h with ⟨name, hname, hfind⟩
    have hfound := List.find?_some hfind
    cases value with
    | str s =>
      have hs : s = name := Option.some.inj hname
      rw [hs, of_decide_eq_true hfound]
    | _ => cases hname
  · rintro rfl
    exact find?_schemaType expected

/-- An enumeration the plan's check took is no defect later. -/
theorem enforceEnum_decides (h : Accepted members expected) :
    Decides AboutValue (Allowed members value) (enforceEnum members expected value) := by
  have hlisted : Decides AboutValue (∀ allowed ∈ members.lookup "enum".toList,
      ¬(allowed.items?.getD []).any (matchesItem value) = false) (enforceEnum members expected value) := by
    refine Decides.option fun allowed hfound => Decides.skip ?_ (Decides.refuse (aboutValue _))
    rw [h.enum allowed hfound]
    exact Bool.true_eq_false_eq_False
  refine hlisted.congr ⟨?_, ?_⟩
  · intro hall items hitems
    exact List.any_eq_true.mp (Bool.eq_true_of_not_eq_false (hall _ hitems))
  · intro hallowed allowed hfound
    have hvalid := h.enum allowed hfound
    cases allowed with
    | list items =>
      rw [Bool.not_eq_false]
      exact List.any_eq_true.mpr (hallowed items hfound)
    | _ => cases hvalid

theorem enforceBound_decides {integer outside : Bool} {bound : PyValue} (h : isBound integer bound = true) :
    Decides AboutValue (outside = false) (refuseIf (isBound integer bound = false) (.schema .invalidBound) >>=
      fun _ => refuseIf (outside = true) (.value .outOfBounds)) := by
  refine Decides.skip ?_ ((Decides.refuse (aboutValue _)).congr (iff_of_eq (Bool.not_eq_true _)))
  rw [h]
  exact Bool.true_eq_false_eq_False

/-- A bound the plan's check took is no defect later. -/
theorem enforceBounds_decides {bounds : BoundNames}
    (h : ∀ key ∈ bounds.names, ∀ bound ∈ members.lookup key, isBound bounds.integer bound = true) :
    Decides AboutValue ((∀ bound ∈ members.lookup bounds.low, FloatValue.below measure (boundAmount bound) = false) ∧
      ∀ high ∈ bounds.high, ∀ bound ∈ members.lookup high, FloatValue.above measure (boundAmount bound) = false)
      (enforceBounds members bounds measure) := by
  have hlow : ∀ bound ∈ members.lookup bounds.low, isBound bounds.integer bound = true := h _ List.mem_cons_self
  have hhigh : ∀ bound ∈ bounds.high.bind fun high => members.lookup high, isBound bounds.integer bound = true := by
    intro bound hbound
    obtain ⟨high, hhigh, hfound⟩ := Option.bind_eq_some_iff.mp hbound
    exact h high (List.mem_cons_of_mem _ (Option.mem_toList.mpr hhigh)) bound hfound
  refine ((Decides.option fun bound hbound => enforceBound_decides (hlow bound hbound)).seq fun _ =>
    Decides.option fun bound hbound => enforceBound_decides (hhigh bound hbound)).congr (and_congr_right fun _ => ?_)
  simp only [Option.mem_def, Option.bind_eq_some_iff]
  exact ⟨fun hall high hhigh bound hbound => hall bound ⟨high, hhigh, hbound⟩,
    fun hall bound hbound => hbound.elim fun high hboth => hall high hboth.1 bound hboth.2⟩

/-- What is enforced at run time the plan's check has looked at. -/
theorem exists_checkedBounds {bounds : BoundNames} (h : enforcedBounds expected = some bounds) :
    ∃ checked, checkedBounds expected = some checked ∧ checked.integer = bounds.integer ∧
      ∀ key ∈ bounds.names, key ∈ checked.names := by
  cases expected with
  | integer => exact ⟨_, rfl, by cases h; rfl, by cases h; exact fun _ hkey => hkey⟩
  | number => exact ⟨_, rfl, by cases h; rfl, by cases h; exact fun _ hkey => hkey⟩
  | string => exact ⟨_, rfl, by cases h; rfl, by cases h; exact fun _ hkey => hkey⟩
  | array =>
    refine ⟨_, rfl, by cases h; rfl, ?_⟩
    cases h
    intro key hkey
    rw [List.mem_singleton.mp hkey]
    exact List.mem_cons_self
  | _ => cases h

theorem enforceConstraints_decides (h : Accepted members expected) :
    Decides AboutValue (WithinType members expected (measureOf value)) (enforceConstraints members expected value) := by
  have hbounds : ∀ bounds, enforcedBounds expected = some bounds →
      ∀ key ∈ bounds.names, ∀ bound ∈ members.lookup key, isBound bounds.integer bound = true := by
    intro bounds hfound key hkey bound hbound
    obtain ⟨checked, hchecked, hinteger, hnames⟩ := exists_checkedBounds hfound
    rw [← hinteger]
    exact h.bounds checked hchecked key (hnames key hkey) bound hbound
  have hpair : ∀ low high : String, (∀ bound ∈ members.lookup low.toList, FloatValue.below (measureOf value)
      (boundAmount bound) = false) ∧ (∀ name ∈ some high.toList, ∀ bound ∈ members.lookup name,
      FloatValue.above (measureOf value) (boundAmount bound) = false) ↔ Within members low high (measureOf value) := by
    intro low high
    refine and_congr_right fun _ => ?_
    exact ⟨fun hall => hall _ rfl, fun hall name hname => by rw [← Option.some.inj hname]; exact hall⟩
  cases expected with
  | integer => exact (enforceBounds_decides (hbounds _ rfl)).congr (hpair "minimum" "maximum")
  | number => exact (enforceBounds_decides (hbounds _ rfl)).congr (hpair "minimum" "maximum")
  | string => exact (enforceBounds_decides (hbounds _ rfl)).congr (hpair "minLength" "maxLength")
  | array =>
    refine (enforceBounds_decides (hbounds _ rfl)).congr ⟨fun hboth => hboth.1, fun hlow => ⟨hlow, ?_⟩⟩
    intro _ hnone
    cases hnone
  | _ => exact Decides.pass

theorem validateNode_decides (h : Accepted members expected) :
    Decides AboutValue (holdsType expected value = true ∧ Allowed members value ∧
      WithinType members expected (measureOf value)) (validateNode members value) := by
  refine Decides.found h.type (Decides.seq ?_ fun _ => (enforceEnum_decides h).seq fun _ => enforceConstraints_decides h)
  exact (Decides.refuse (aboutValue _)).congr (iff_of_eq (Bool.not_eq_false _))

variable {properties : Members}

theorem validateFields_eq_forM {fields : List (List Char × PyValue)} :
    validateFields properties fields =
      fields.forM fun field => validateJsonSchema ((properties.lookup field.1).getD .none) field.2 := by
  induction fields with
  | nil => exact validateFields.eq_1 _
  | cons field fields ih =>
    rw [validateFields, ih]
    rfl

theorem validateItems_eq_forM {nested : PyValue} {items : List PyValue} :
    validateItems nested items = items.forM (validateJsonSchema nested) := by
  induction items with
  | nil => exact validateItems.eq_1 _
  | cons item items ih =>
    rw [validateItems, ih]
    rfl

/-- The keys of an object, once its schema is accepted. -/
theorem validateKeys_decides {fields : Members} {names : List (List Char)}
    (hclosed : isFalse (PyValue.get members "additionalProperties") = true)
    (hrequired : members.lookup "required".toList = some (.list (names.map .str))) :
    Decides AboutValue ((∀ name ∈ names, name ∈ fields.map Prod.fst) ∧ ∀ field ∈ fields, field.1 ∈ properties.map Prod.fst)
      (validateKeys members properties fields) := by
  refine Decides.skip ?_ (Decides.found (a := names) ?_ ?_)
  · rw [hclosed]
    exact Bool.true_eq_false_eq_False
  · rw [hrequired]
    exact texts?_eq_some.mpr rfl
  · refine ((Decides.refuse (aboutValue _)).seq fun _ => Decides.refuse (aboutValue _)).congr ?_
    push Not
    exact Iff.rfl

/-- The length of an array, once its schema is accepted. -/
theorem validateLength_decides {length : ℕ} (h : ∀ bound ∈ members.lookup "maxItems".toList, ∃ z : ℤ, bound = .int z) :
    Decides AboutValue
      (∀ bound ∈ members.lookup "maxItems".toList, FloatValue.above (.finite length) (boundAmount bound) = false)
      (validateLength members length) := by
  refine Decides.option fun bound hbound => ?_
  obtain ⟨z, rfl⟩ := h bound hbound
  refine Decides.found (a := z) rfl ((Decides.refuse (aboutValue _)).congr ?_)
  have habove : FloatValue.above (.finite length) (boundAmount (.int z)) = decide ((z : ℚ) < (length : ℚ)) := rfl
  rw [habove, decide_eq_false_iff_not]
  exact_mod_cast Iff.rfl

theorem mem_keys_iff_lookup {name : List Char} :
    name ∈ properties.map Prod.fst ↔ ∃ nested, properties.lookup name = some nested := by
  rw [← Option.isSome_iff_exists, List.lookup_isSome_iff, List.mem_map]
  constructor
  · rintro ⟨e, he, rfl⟩
    exact ⟨e, he, beq_self_eq_true _⟩
  · rintro ⟨e, he, hkey⟩
    exact ⟨e, he, (beq_iff_eq.mp hkey).symm⟩

/-- No enumeration stands on a type that has no scalar values. -/
theorem Accepted.allowed (h : Accepted members expected) (hkind : ∀ item, enumKind expected item = false) :
    Allowed members value := by
  intro items hitems
  have hvalid : ((!items.isEmpty && items.all (enumKind expected)) && _) = true := h.enum _ hitems
  rw [Bool.and_eq_true, Bool.and_eq_true] at hvalid
  cases items with
  | nil => cases hvalid.1.1
  | cons item items =>
    have hall := List.all_eq_true.mp hvalid.1.2 item List.mem_cons_self
    rw [hkind item] at hall
    cases hall

theorem Accepted.eq_of_type (h : Accepted members expected) (other : SchemaType)
    (hother : PyValue.get members "type" = .str other.text) : other = expected := by
  have hread := read_eq_some.mpr hother
  rw [h.type] at hread
  exact (Option.some.inj hread).symm

/-- What an accepted node asks of a value with nothing inside; a case for each kind of value. -/
theorem conforms_leaf_iff (h : Accepted members expected) (hitems : value.items? = none)
    (hmembers : value.members? = none) :
    holdsType expected value = true ∧ Allowed members value ∧ WithinType members expected (measureOf value) ↔
      Conforms (.dict members) value := by
  have htype := read_eq_some.mp h.type
  cases value with
  | none =>
    constructor
    · rintro ⟨hholds, -, -⟩
      cases expected with
      | null => exact .null htype
      | _ => cases hholds
    · intro hconforms
      cases hconforms with
      | null hnull =>
        cases h.eq_of_type .null hnull
        exact ⟨rfl, h.allowed fun _ => rfl, trivial⟩
  | bool b =>
    constructor
    · rintro ⟨hholds, hallowed, -⟩
      cases expected with
      | boolean => exact .boolean htype hallowed
      | _ => cases hholds
    · intro hconforms
      cases hconforms with
      | boolean hboolean hallowed =>
        cases h.eq_of_type .boolean hboolean
        exact ⟨rfl, hallowed, trivial⟩
  | int z =>
    constructor
    · rintro ⟨hholds, hallowed, hwithin⟩
      cases expected with
      | integer => exact .integer htype hallowed hwithin
      | number => exact .whole htype hallowed hwithin
      | _ => cases hholds
    · intro hconforms
      cases hconforms with
      | integer hinteger hallowed hwithin =>
        cases h.eq_of_type .integer hinteger
        exact ⟨rfl, hallowed, hwithin⟩
      | whole hnumber hallowed hwithin =>
        cases h.eq_of_type .number hnumber
        exact ⟨rfl, hallowed, hwithin⟩
  | float f =>
    constructor
    · rintro ⟨hholds, hallowed, hwithin⟩
      cases expected with
      | number => exact .number htype hallowed hwithin
      | _ => cases hholds
    · intro hconforms
      cases hconforms with
      | number hnumber hallowed hwithin =>
        cases h.eq_of_type .number hnumber
        exact ⟨rfl, hallowed, hwithin⟩
  | str text =>
    constructor
    · rintro ⟨hholds, hallowed, hwithin⟩
      cases expected with
      | string => exact .string htype hallowed hwithin
      | _ => cases hholds
    · intro hconforms
      cases hconforms with
      | string hstring hallowed hwithin =>
        cases h.eq_of_type .string hstring
        exact ⟨rfl, hallowed, hwithin⟩
  | list items => cases hitems
  | dict fields => cases hmembers

theorem validateItems_decides {nested : PyValue} {items : List PyValue}
    (ih : ∀ item ∈ items, Decides AboutValue (Conforms nested item) (validateJsonSchema nested item)) :
    Decides AboutValue (∀ item ∈ items, Conforms nested item) (validateItems nested items) := by
  rw [validateItems_eq_forM]
  exact Decides.forM ih

theorem validateFields_decides {fields : Members} (hknown : ∀ field ∈ fields, field.1 ∈ properties.map Prod.fst)
    (ih : ∀ field ∈ fields, ∀ nested, properties.lookup field.1 = some nested →
      Decides AboutValue (Conforms nested field.2) (validateJsonSchema nested field.2)) :
    Decides AboutValue (∀ field ∈ fields, ∀ nested, properties.lookup field.1 = some nested → Conforms nested field.2)
      (validateFields properties fields) := by
  rw [validateFields_eq_forM]
  refine Decides.forM fun field hmem => ?_
  obtain ⟨nested, hlookup⟩ := mem_keys_iff_lookup.mp (hknown field hmem)
  rw [hlookup]
  refine Decides.congr (ih field hmem nested hlookup) ?_
  exact ⟨fun h other hother => Option.some.inj hother ▸ h, fun h => h nested rfl⟩

theorem validateJsonSchema_decides (h : checkSchema true schema = .ok ()) :
    Decides AboutValue (Conforms schema value) (validateJsonSchema schema value) := by
  induction hsize : sizeOf value using Nat.strong_induction_on generalizing schema value with
  | _ size ih =>
    -- induction on the size of the value: an item is smaller, whatever schema it is read with
    obtain ⟨members, expected, rfl, haccepted⟩ := accepted_of_checkSchema h
    have hnode : Decides AboutValue _ (validateNode members value) := validateNode_decides haccepted
    have htype := read_eq_some.mp haccepted.type
    cases value with
    | list items =>
      rw [validateJsonSchema]
      cases expected with
      | array =>
        obtain ⟨nested, hstated, hcheck, hmost⟩ := haccepted.array rfl
        have hitems : ∀ item ∈ items, Decides AboutValue (Conforms nested item) (validateJsonSchema nested item) := by
          intro item hmem
          refine ih _ ?_ hcheck rfl
          have hlt := List.sizeOf_lt_of_mem hmem
          rw [← hsize, PyValue.list.sizeOf_spec]
          omega
        refine Decides.found rfl ((hnode.seq fun _ => Decides.found hstated
          ((validateLength_decides hmost).seq fun _ => validateItems_decides hitems)).congr ⟨?_, ?_⟩)
        · rintro ⟨⟨-, -, hlow⟩, hhigh, hall⟩
          exact .array htype hstated ⟨hlow, hhigh⟩ hall
        · intro hconforms
          cases hconforms with
          | array _ hfound hwithin hall =>
            cases hstated.symm.trans hfound
            exact ⟨⟨rfl, haccepted.allowed fun _ => rfl, hwithin.1⟩, hwithin.2, hall⟩
      | _ =>
        -- the type is refused before anything inside the value is read
        refine Decides.found rfl ((hnode.seq (Q := False) fun h => by cases h.1).congr ⟨fun h => h.2.elim, ?_⟩)
        intro hconforms
        cases hconforms with
        | array harray => cases haccepted.eq_of_type .array harray
    | dict fields =>
      rw [validateJsonSchema]
      cases expected with
      | object =>
        obtain ⟨properties, names, hstated, hclosed, hrequired, hcheck⟩ := haccepted.object rfl
        have hfields : ∀ field ∈ fields, ∀ nested, properties.lookup field.1 = some nested →
            Decides AboutValue (Conforms nested field.2) (validateJsonSchema nested field.2) := by
          intro field hmem nested hlookup
          refine ih _ ?_ (hcheck _ (mem_of_lookup_eq_some hlookup)) rfl
          have hlt := List.sizeOf_lt_of_mem hmem
          have hpair : sizeOf field = 1 + sizeOf field.1 + sizeOf field.2 := rfl
          rw [← hsize, PyValue.dict.sizeOf_spec]
          omega
        have hproperties : (PyValue.get members "properties").members? = some properties := congrArg PyValue.members? hstated
        refine Decides.found rfl ((hnode.seq fun _ => Decides.found hproperties
          ((validateKeys_decides hclosed hrequired).seq fun hkeys => validateFields_decides hkeys.2 hfields)).congr
            ⟨?_, ?_⟩)
        · rintro ⟨-, ⟨hnames, hknown⟩, hall⟩
          exact .object htype hstated hrequired hnames hknown hall
        · intro hconforms
          cases hconforms with
          | object _ hproperties hlisted hnames hknown hall =>
            cases hstated.symm.trans hproperties
            have hsame := PyValue.list.inj (Option.some.inj (hrequired.symm.trans hlisted))
            cases List.map_injective_iff.mpr (fun _ _ => PyValue.str.inj) hsame
            exact ⟨⟨rfl, haccepted.allowed fun _ => rfl, trivial⟩, ⟨hnames, hknown⟩, hall⟩
      | _ =>
        refine Decides.found rfl ((hnode.seq (Q := False) fun h => by cases h.1).congr ⟨fun h => h.2.elim, ?_⟩)
        intro hconforms
        cases hconforms with
        | object hobject => cases haccepted.eq_of_type .object hobject
    | _ => exact hnode.congr (conforms_leaf_iff haccepted rfl rfl)

/-- An accepted schema takes the values it describes, and refuses the others for what they are. -/
theorem validateJsonSchema_spec (h : checkSchema true schema = .ok ()) :
    (validateJsonSchema schema value = .ok () ↔ Conforms schema value) ∧
      RaisesOnly AboutValue (validateJsonSchema schema value) :=
  ⟨(validateJsonSchema_decides h).passes, (validateJsonSchema_decides h).raises⟩

end Enforced

/-! ## 10. One language read three times -/

/-- How the three readings of a schema agree. -/
structure SchemaReadings (schema : PyValue) : Prop where
  normalized : ∀ kept names, normalizeOutputSchema schema = .ok (kept, names) →
    normalizeOutputSchema kept = .ok (kept, []) ∧
      ∀ value, validateJsonSchema kept value = .ok () ↔ validateJsonSchema schema value = .ok ()
  enforced : validateOutputSchema schema = .ok () → ∀ value,
    (validateJsonSchema schema value = .ok () ↔ Conforms schema value) ∧
      ∀ failure, validateJsonSchema schema value = .error failure → AboutValue failure

theorem schemaReadings (schema : PyValue) : SchemaReadings schema where
  normalized := by
    intro kept names h
    rcases except_bind_eq_ok.mp h with ⟨walked, hwalked, hkept⟩
    cases hkept
    have hagain := walk_again hwalked
    refine ⟨?_, fun value => by rw [validateJsonSchema_walked hwalked]⟩
    exact except_bind_eq_ok.mpr ⟨_, hagain, rfl⟩
  enforced := fun h _ => validateJsonSchema_spec h

end Milo.Tools
