import Milo.Python.JsonReader
import Milo.Reasoning.Dict
import Milo.Reasoning.Spelling

/-!
# Contract — the one canonical work scope

What a mapping plan intends: its units in order, its model years, its limit and its batch size.  A scope
is built from fields by one constructor, written as one text, and read back from that text only.
-/

namespace Milo.Scope

open Milo.Python Milo.Reasoning

abbrev Text := List Char

/-! ## 1. The scope -/

/-- The keys of `DIRECTORY`, in its order. -/
def directoryKeys : List Text :=
    ["alfa_romeo", "audi", "bmw", "byd", "chery", "chevrolet", "citroen", "cupra", "dacia", "ds", "fiat",
      "ford", "geely", "genesis", "honda", "hyundai", "isuzu", "jaguar", "jeep", "kia", "land_rover",
      "lexus", "mazda", "mercedes_benz", "mitsubishi", "nissan", "opel", "peugeot", "porsche", "renault",
      "seat", "skoda", "ssangyong", "subaru", "suzuki", "tesla", "toyota", "volkswagen", "volvo"].map String.toList

def directoryVersion : Text := "milo-manufacturer-directory/1".toList

def maxUnits : ℕ := directoryKeys.length

def minModelYear : ℤ := 1900

def maxModelYear : ℤ := 2100

def maxWorkScopeItems : ℤ := 2000

def maxBatchSize : ℤ := 20

def defaultMaxItems : ℤ := 100

def defaultBatchSize : ℤ := 10

def maxScopeTextChars : ℕ := 4000

/-- The static refusals. -/
inductive WorkScopeReason
  | fieldsInvalid
  | unitsInvalid
  | yearsInvalid
  | maxItemsInvalid
  | batchSizeInvalid
  | recordInvalid
  deriving DecidableEq, Repr

/-- A whole number within bounds. -/
structure Within (low high : ℤ) where
  value : ℤ
  within : low ≤ value ∧ value ≤ high
  deriving DecidableEq

/-- A key that names an entry of the directory. -/
abbrev DirectoryKey := {key : Text // key ∈ directoryKeys}

/-- Units of the directory, each once; their order is the priority. -/
structure ScopeUnits where
  keys : List DirectoryKey
  stated : 1 ≤ keys.length ∧ keys.length ≤ maxUnits
  distinct : keys.Nodup
  deriving DecidableEq

/-- The first model year not after the last. -/
structure ModelYears where
  first : Option (Within minModelYear maxModelYear)
  last : Option (Within minModelYear maxModelYear)
  ordered : ∀ a ∈ first, ∀ b ∈ last, a.value ≤ b.value
  deriving DecidableEq

/-- One validated plan; its version is kept by code points, as it may come from a text. -/
structure WorkScope where
  units : ScopeUnits
  modelYears : ModelYears
  maxItems : Within 1 maxWorkScopeItems
  batchSize : Within 1 maxBatchSize
  directoryVersion : List ℕ
  includeUnresolved : Bool
  deriving DecidableEq

/-! ## 2. From fields -/

def fieldKeys : List Text :=
  ["units".toList, "model_year_from".toList, "model_year_to".toList, "max_items".toList, "batch_size".toList]

def includeUnresolvedKey : Text := "include_unresolved".toList

/-- `entry_for`. -/
def entryFor (codes : List ℕ) : Option DirectoryKey :=
  directoryKeys.attach.find? fun key => decide (points key.val = codes)

/-- `_whole`, within bounds. -/
def within? (low high : ℤ) (value : JsonDoc) : Option (Within low high) :=
  (integerOf? value).bind fun z => if h : low ≤ z ∧ z ≤ high then some ⟨z, h⟩ else none

/-- `_units`. -/
def units? (value : JsonDoc) : Option ScopeUnits := do
  let items ← elementsOf? value
  let keys ← items.mapM fun item => (stringOf? item).bind entryFor
  if h : (1 ≤ keys.length ∧ keys.length ≤ maxUnits) ∧ keys.Nodup then some ⟨keys, h.1, h.2⟩ else none

/-- `_year`. -/
def year? (value : JsonDoc) : Option (Option (Within minModelYear maxModelYear)) :=
  match value with
  | .null => some none
  | value => (within? minModelYear maxModelYear value).map some

def modelYears? (first last : Option (Within minModelYear maxModelYear)) : Option ModelYears :=
  if h : ∀ a ∈ first, ∀ b ∈ last, a.value ≤ b.value then some ⟨first, last, h⟩ else none

def boolOf? : JsonDoc → Option Bool
  | .bool b => some b
  | _ => none

/-- `scope_from_fields`, the only constructor of a scope. -/
def scopeFromFields (fields : Dict Text JsonDoc) : Except WorkScopeReason WorkScope := do
  refuseIf (¬((∀ key ∈ fieldKeys, key ∈ fields.keys) ∧
    ∀ key ∈ fields.keys, key ∈ fieldKeys ∨ key = includeUnresolvedKey)) .fieldsInvalid
  let includeUnresolved ← required
    (boolOf? ((fields.get? includeUnresolvedKey).getD (.bool false))) .fieldsInvalid
  let units ← required ((fields.get? "units".toList).bind units?) .unitsInvalid
  let first ← required ((fields.get? "model_year_from".toList).bind year?) .yearsInvalid
  let last ← required ((fields.get? "model_year_to".toList).bind year?) .yearsInvalid
  let modelYears ← required (modelYears? first last) .yearsInvalid
  let maxItems ← required ((fields.get? "max_items".toList).bind (within? 1 maxWorkScopeItems)) .maxItemsInvalid
  let batchSize ← required ((fields.get? "batch_size".toList).bind (within? 1 maxBatchSize)) .batchSizeInvalid
  pure ⟨units, modelYears, maxItems, batchSize, points directoryVersion, includeUnresolved⟩

/-- The five fields every edit states. -/
def fieldsOf (units first last maxItems batchSize : JsonDoc) : Dict Text JsonDoc where
  entries :=
    [("units".toList, units), ("model_year_from".toList, first), ("model_year_to".toList, last),
      ("max_items".toList, maxItems), ("batch_size".toList, batchSize)]
  nodup := by
    show fieldKeys.Nodup
    decide

/-! ## 3. The canonical text -/

def workScopeContract : Text := "milo-work-scope/1".toList

/-- `WORK_SCOPE_SOURCE`. -/
def workScopeSource : List (Text × Text) :=
  [("family".toList, "government".toList), ("package_id".toList, "degem-rechev-wltp".toList),
    ("resource_id".toList, "142afde2-6228-49f9-8a29-9b6c3a0cbe40".toList)]

def wholeDoc (z : ℤ) : JsonDoc := .number (intLiteral z)

def textDoc (text : Text) : JsonDoc := .str (points text)

def yearDoc (year : Option (Within minModelYear maxModelYear)) : JsonDoc :=
  year.elim .null fun year => wholeDoc year.value

def member (key : String) (value : JsonDoc) : List ℕ × JsonDoc := (points key.toList, value)

namespace WorkScope

variable (scope : WorkScope)

def yearsDoc : JsonDoc :=
  .obj [member "from" (yearDoc scope.modelYears.first), member "to" (yearDoc scope.modelYears.last)]

def sourceDoc : JsonDoc := .obj (workScopeSource.map fun entry => (points entry.1, textDoc entry.2))

def unitsDoc : JsonDoc := .arr (scope.units.keys.map fun key => textDoc key.val)

def asRecord : JsonDoc :=
  .obj ([member "batch_size" (wholeDoc scope.batchSize.value), member "contract" (textDoc workScopeContract),
    member "directory_version" (.str scope.directoryVersion), member "max_items" (wholeDoc scope.maxItems.value),
    member "model_years" scope.yearsDoc, member "source" sourceDoc, member "units" scope.unitsDoc] ++
    if scope.includeUnresolved then [(points includeUnresolvedKey, .bool true)] else [])

/-- `canonical_text`. -/
def canonicalText : Text := scope.asRecord.dumps

end WorkScope

/-! ## 4. Reading a stored text -/

def recordKeys : List Text :=
  ["batch_size".toList, "contract".toList, "directory_version".toList, "max_items".toList,
    "model_years".toList, "source".toList, "units".toList]

/-- `_record_keys_valid`: the closed key set, and the optional key only as `true`. -/
def recordKeysValid (record : List (List ℕ × JsonDoc)) : Bool :=
  hasKeys (record.filter fun entry => decide (entry.1 ≠ points includeUnresolvedKey)) recordKeys &&
    (lastMember record includeUnresolvedKey).all isTrue

/-- `value == dict(WORK_SCOPE_SOURCE)`. -/
def isSource (value : JsonDoc) : Bool :=
  match value with
  | .obj members =>
    hasKeys members (workScopeSource.map Prod.fst) &&
      workScopeSource.all fun entry => (lastMember members entry.1).any (isText entry.2)
  | _ => false

def yearKeys : List Text := ["from".toList, "to".toList]

/-- `record[key]`, the key being there. -/
def item (record : List (List ℕ × JsonDoc)) (key : String) : JsonDoc := (lastMember record key.toList).getD .null

/-- `scope_from_text` before it compares, of a text `json.loads` has room for. -/
def decodeScopeText (text : Text) : Except WorkScopeReason WorkScope := do
  refuseIf (¬(0 < text.length ∧ text.length ≤ maxScopeTextChars)) .recordInvalid
  let record ← required ((loads text).bind membersOf?) .recordInvalid
  refuseIf (recordKeysValid record = false) .recordInvalid
  refuseIf (isText workScopeContract (item record "contract") = false ∨ isSource (item record "source") = false)
    .recordInvalid
  let years ← required (membersOf? (item record "model_years")) .recordInvalid
  refuseIf (hasKeys years yearKeys = false) .recordInvalid
  let version ← required (stringOf? (item record "directory_version")) .recordInvalid
  refuseIf (version = []) .recordInvalid
  let scope ← (scopeFromFields (fieldsOf (item record "units") (item years "from") (item years "to")
    (item record "max_items") (item record "batch_size"))).mapError fun _ => .recordInvalid
  pure { scope with
    directoryVersion := version
    includeUnresolved := (lastMember record includeUnresolvedKey).any isTrue }

def readScopeText : Text → Except WorkScopeReason WorkScope :=
  checkedRead WorkScope.canonicalText decodeScopeText .recordInvalid

/-- What `scope_from_text` raises: its `WorkScopeError`, or the `RecursionError` of `json.loads`, which is no
    `ValueError`. -/
inductive ScopeTextFault
  | refused (reason : WorkScopeReason)
  | recursion
  deriving DecidableEq

/-- The length `scope_from_text` reads at all. -/
def IsScopeLength (text : Text) : Prop := 0 < text.length ∧ text.length ≤ maxScopeTextChars

instance (text : Text) : Decidable (IsScopeLength text) := inferInstanceAs (Decidable (_ ∧ _))

/-- `scope_from_text`, where `json.loads` can open `depth` lists and objects in one another. -/
def scopeFromText (depth : ℕ) (text : Text) : Except ScopeTextFault WorkScope :=
  if IsScopeLength text ∧ depth < nesting text then .error .recursion
  else (readScopeText text).mapError .refused

/-! ## 5. The fields of a scope are accepted again -/

theorem entryFor_points (key : DirectoryKey) : entryFor (points key.val) = some key := by
  have hfind : ∃ found, entryFor (points key.val) = some found := by
    unfold entryFor
    rw [← Option.isSome_iff_exists, List.find?_isSome]
    exact ⟨key, List.mem_attach _ _, decide_eq_true rfl⟩
  obtain ⟨found, hfound⟩ := hfind
  have hsame := List.find?_some hfound
  have hkey : found = key := Subtype.ext (points_injective (of_decide_eq_true hsame))
  rw [hfound, hkey]

theorem within?_wholeDoc {low high : ℤ} (bounded : Within low high) :
    within? low high (wholeDoc bounded.value) = some bounded := by
  unfold within? wholeDoc
  rw [integerOf?_intLiteral]
  exact dif_pos bounded.within

theorem year?_yearDoc (year : Option (Within minModelYear maxModelYear)) : year? (yearDoc year) = some year := by
  cases year with
  | none => rfl
  | some year =>
    show (within? minModelYear maxModelYear (wholeDoc year.value)).map some = _
    rw [within?_wholeDoc]
    rfl

theorem units?_unitsDoc (scope : WorkScope) : units? scope.unitsDoc = some scope.units := by
  have hkeys : ∀ keys : List DirectoryKey, (keys.map fun key => textDoc key.val).mapM
      (fun item => (stringOf? item).bind entryFor) = some keys := by
    intro keys
    induction keys with
    | nil => rfl
    | cons key keys ih =>
      have hkey : (stringOf? (textDoc key.val)).bind entryFor = some key := entryFor_points key
      rw [List.map_cons, List.mapM_cons, hkey, ih]
      rfl
  unfold units?
  refine Option.bind_eq_some_iff.mpr ⟨_, rfl, ?_⟩
  refine Option.bind_eq_some_iff.mpr ⟨_, hkeys scope.units.keys, ?_⟩
  exact dif_pos ⟨scope.units.stated, scope.units.distinct⟩

theorem modelYears?_self (years : ModelYears) : modelYears? years.first years.last = some years :=
  dif_pos years.ordered

/-- The stated values of a scope give the scope, at the directory in force. -/
theorem scopeFromFields_stated (scope : WorkScope) :
    scopeFromFields (fieldsOf scope.unitsDoc (yearDoc scope.modelYears.first) (yearDoc scope.modelYears.last)
      (wholeDoc scope.maxItems.value) (wholeDoc scope.batchSize.value)) =
        .ok { scope with directoryVersion := points directoryVersion, includeUnresolved := false } := by
  unfold scopeFromFields
  refine except_bind_eq_ok.mpr ⟨(), refuseIf_eq_ok.mpr ?_, ?_⟩
  · rw [not_not]
    exact ⟨fun key hkey => hkey, fun key hkey => Or.inl hkey⟩
  refine except_bind_eq_ok.mpr ⟨false, rfl, ?_⟩
  refine except_bind_eq_ok.mpr ⟨scope.units, required_eq_ok.mpr (units?_unitsDoc scope), ?_⟩
  refine except_bind_eq_ok.mpr ⟨_, required_eq_ok.mpr (year?_yearDoc scope.modelYears.first), ?_⟩
  refine except_bind_eq_ok.mpr ⟨_, required_eq_ok.mpr (year?_yearDoc scope.modelYears.last), ?_⟩
  refine except_bind_eq_ok.mpr ⟨_, required_eq_ok.mpr (modelYears?_self scope.modelYears), ?_⟩
  refine except_bind_eq_ok.mpr ⟨_, required_eq_ok.mpr (within?_wholeDoc scope.maxItems), ?_⟩
  exact except_bind_eq_ok.mpr ⟨_, required_eq_ok.mpr (within?_wholeDoc scope.batchSize), rfl⟩

/-! ## 6. The canonical text is read back -/

namespace WorkScope

variable (scope : WorkScope)

/-- The record in the order of its keys, with a version of its own. -/
def sortedRecord (version : List ℕ) : List (List ℕ × JsonDoc) :=
  [member "batch_size" (wholeDoc scope.batchSize.value), member "contract" (textDoc workScopeContract),
    member "directory_version" (.str version)] ++
  (if scope.includeUnresolved then [(points includeUnresolvedKey, .bool true)] else []) ++
  [member "max_items" (wholeDoc scope.maxItems.value), member "model_years" scope.yearsDoc,
    member "source" sourceDoc, member "units" scope.unitsDoc]

theorem canonicalText_eq : scope.canonicalText = sortedText (scope.sortedRecord scope.directoryVersion) := by
  obtain ⟨units, years, maxItems, batchSize, version, includeUnresolved⟩ := scope
  cases includeUnresolved <;> rfl

/-- The version as it is read back. -/
def rereadVersion : List ℕ := joinUnits (scope.directoryVersion.flatMap unitsOf)

end WorkScope

theorem reads_wholeDoc (z : ℤ) : Reads (wholeDoc z).dumps (wholeDoc z) := by
  unfold wholeDoc JsonDoc.dumps
  rw [literalText_intLiteral]
  exact reads_int z

theorem reads_textDoc (text : Text) : Reads (textDoc text).dumps (textDoc text) := reads_str (readsPoints_points text)

theorem reads_yearDoc (year : Option (Within minModelYear maxModelYear)) :
    Reads (yearDoc year).dumps (yearDoc year) := by
  cases year with
  | none => exact reads_null
  | some year => exact reads_wholeDoc year.value

theorem reads_yearsDoc (scope : WorkScope) : Reads scope.yearsDoc.dumps scope.yearsDoc := by
  have hsorted : [points "from".toList, points "to".toList].Pairwise (· ≤ ·) := by decide
  have htext : scope.yearsDoc.dumps =
      sortedText [member "from" (yearDoc scope.modelYears.first), member "to" (yearDoc scope.modelYears.last)] :=
    dumps_obj_of_sorted (by exact hsorted)
  rw [htext]
  exact reads_sortedText (.cons ⟨readsPoints_points _, reads_yearDoc _⟩
    (.cons ⟨readsPoints_points _, reads_yearDoc _⟩ .nil))

theorem reads_sourceDoc : Reads WorkScope.sourceDoc.dumps WorkScope.sourceDoc := by
  have hsorted : (workScopeSource.map fun entry => points entry.1).Pairwise (· ≤ ·) := by decide
  have hmembers : ∀ entries : List (Text × Text), List.Forall₂ RereadsAs
      (entries.map fun entry => (points entry.1, textDoc entry.2))
      (entries.map fun entry => (points entry.1, textDoc entry.2)) := by
    intro entries
    rw [List.forall₂_map_left_iff, List.forall₂_map_right_iff]
    exact List.forall₂_same.mpr fun entry _ => ⟨readsPoints_points _, reads_textDoc _⟩
  unfold WorkScope.sourceDoc
  rw [dumps_obj_of_sorted (by rw [List.map_map]; exact hsorted)]
  exact reads_sortedText (hmembers workScopeSource)

theorem reads_unitsDoc (scope : WorkScope) : Reads scope.unitsDoc.dumps scope.unitsDoc := by
  apply reads_docs
  rw [List.forall₂_map_left_iff, List.forall₂_map_right_iff]
  exact List.forall₂_same.mpr fun key _ => reads_textDoc key.val

section Reread

variable {scope : WorkScope}

theorem loads_canonicalText (hcodes : ∀ code ∈ scope.directoryVersion, code < 1114112) :
    loads scope.canonicalText = some (.obj (scope.sortedRecord scope.rereadVersion)) := by
  rw [scope.canonicalText_eq]
  apply Reads.loads
  apply reads_sortedText
  have hversion : Reads (JsonDoc.str scope.directoryVersion).dumps (.str scope.rereadVersion) := reads_codes hcodes
  have hoptional : List.Forall₂ RereadsAs
      (if scope.includeUnresolved then [(points includeUnresolvedKey, .bool true)] else [])
      (if scope.includeUnresolved then [(points includeUnresolvedKey, .bool true)] else []) := by
    split
    · exact .cons ⟨readsPoints_points _, reads_true⟩ .nil
    · exact .nil
  have hfirst : List.Forall₂ RereadsAs
      [member "batch_size" (wholeDoc scope.batchSize.value), member "contract" (textDoc workScopeContract),
        member "directory_version" (.str scope.directoryVersion)]
      [member "batch_size" (wholeDoc scope.batchSize.value), member "contract" (textDoc workScopeContract),
        member "directory_version" (.str scope.rereadVersion)] :=
    .cons ⟨readsPoints_points _, reads_wholeDoc _⟩ (.cons ⟨readsPoints_points _, reads_textDoc _⟩
      (.cons ⟨readsPoints_points _, hversion⟩ .nil))
  have hlast : List.Forall₂ RereadsAs
      [member "max_items" (wholeDoc scope.maxItems.value), member "model_years" scope.yearsDoc,
        member "source" WorkScope.sourceDoc, member "units" scope.unitsDoc]
      [member "max_items" (wholeDoc scope.maxItems.value), member "model_years" scope.yearsDoc,
        member "source" WorkScope.sourceDoc, member "units" scope.unitsDoc] :=
    .cons ⟨readsPoints_points _, reads_wholeDoc _⟩ (.cons ⟨readsPoints_points _, reads_yearsDoc _⟩
      (.cons ⟨readsPoints_points _, reads_sourceDoc⟩ (.cons ⟨readsPoints_points _, reads_unitsDoc _⟩ .nil)))
  exact List.rel_append (List.rel_append hfirst hoptional) hlast

/-- What the reader finds in the record of a scope. -/
structure RecordOf (scope : WorkScope) (version : List ℕ) (record : List (List ℕ × JsonDoc)) : Prop where
  keys : recordKeysValid record = true
  contract : item record "contract" = textDoc workScopeContract
  source : item record "source" = WorkScope.sourceDoc
  years : item record "model_years" = scope.yearsDoc
  version : item record "directory_version" = .str version
  units : item record "units" = scope.unitsDoc
  maxItems : item record "max_items" = wholeDoc scope.maxItems.value
  batchSize : item record "batch_size" = wholeDoc scope.batchSize.value
  unresolved : (lastMember record includeUnresolvedKey).any isTrue = scope.includeUnresolved

theorem recordOf_sortedRecord (scope : WorkScope) (version : List ℕ) :
    RecordOf scope version (scope.sortedRecord version) := by
  obtain ⟨units, years, maxItems, batchSize, current, includeUnresolved⟩ := scope
  cases includeUnresolved <;>
    exact
      { keys := rfl
        contract := rfl
        source := rfl
        years := rfl
        version := rfl
        units := rfl
        maxItems := rfl
        batchSize := rfl
        unresolved := rfl }

theorem isSource_sourceDoc : isSource WorkScope.sourceDoc = true := by decide

theorem decodeScopeText_canonicalText (hcodes : ∀ code ∈ scope.directoryVersion, code < 1114112)
    (hstated : scope.rereadVersion ≠ [])
    (hlength : 0 < scope.canonicalText.length ∧ scope.canonicalText.length ≤ maxScopeTextChars) :
    decodeScopeText scope.canonicalText = .ok { scope with directoryVersion := scope.rereadVersion } := by
  have hrecord := recordOf_sortedRecord scope scope.rereadVersion
  generalize hmembers : scope.sortedRecord scope.rereadVersion = record at hrecord
  unfold decodeScopeText
  refine except_bind_eq_ok.mpr ⟨(), refuseIf_eq_ok.mpr (not_not.mpr hlength), ?_⟩
  refine except_bind_eq_ok.mpr ⟨record, required_eq_ok.mpr ?_, ?_⟩
  · rw [loads_canonicalText hcodes, hmembers]
    rfl
  refine except_bind_eq_ok.mpr ⟨(), refuseIf_eq_ok.mpr ?_, ?_⟩
  · rw [hrecord.keys]
    decide
  refine except_bind_eq_ok.mpr ⟨(), refuseIf_eq_ok.mpr ?_, ?_⟩
  · rw [hrecord.contract, hrecord.source, isSource_sourceDoc]
    decide
  rw [hrecord.years, hrecord.version, hrecord.units, hrecord.maxItems, hrecord.batchSize, hrecord.unresolved]
  refine except_bind_eq_ok.mpr ⟨_, rfl, ?_⟩
  refine except_bind_eq_ok.mpr ⟨(), rfl, ?_⟩
  refine except_bind_eq_ok.mpr ⟨scope.rereadVersion, rfl, ?_⟩
  refine except_bind_eq_ok.mpr ⟨(), refuseIf_eq_ok.mpr hstated, ?_⟩
  refine except_bind_eq_ok.mpr
    ⟨{ scope with directoryVersion := points directoryVersion, includeUnresolved := false }, ?_, rfl⟩
  show (scopeFromFields (fieldsOf scope.unitsDoc (yearDoc scope.modelYears.first) (yearDoc scope.modelYears.last)
    (wholeDoc scope.maxItems.value) (wholeDoc scope.batchSize.value))).mapError _ = _
  rw [scopeFromFields_stated]
  rfl

end Reread

/-! ## 7. The text is short enough -/

section Length

theorem length_joinWith_le (separator : Char) (texts : List (List Char)) :
    (joinWith separator texts).length ≤ (texts.map fun text => text.length + 1).sum := by
  cases texts with
  | nil => exact Nat.zero_le _
  | cons first texts =>
    have htail : ∀ texts : List (List Char), (texts.flatMap fun text => separator :: text).length =
        (texts.map fun text => text.length + 1).sum := by
      intro texts
      rw [List.length_flatMap]
      rfl
    rw [joinWith_cons, List.length_append, htail, List.map_cons, List.sum_cons]
    omega

theorem length_unitEscape (n : ℕ) : (unitEscape n).length = 6 := rfl

theorem length_escapePoint_le (code : ℕ) : (escapePoint code).length ≤ 12 := by
  unfold escapePoint
  split
  · unfold escapeChar
    repeat' split
    all_goals first
      | decide
      | rw [length_unitEscape]; decide
      | rw [List.length_append, length_unitEscape, length_unitEscape]
      | exact Nat.le_add_left 1 11
  · rw [length_unitEscape]
    decide

theorem length_codes_le (codes : List ℕ) : (codes.flatMap escapePoint).length ≤ 12 * codes.length := by
  induction codes with
  | nil => exact Nat.le_refl _
  | cons code codes ih =>
    have hcode := length_escapePoint_le code
    rw [List.flatMap_cons, List.length_append, List.length_cons]
    omega

/-- A bounded number has at most as many digits as its bound. -/
theorem length_wholeDoc_le {low high : ℤ} (hlow : 0 ≤ low) (hhigh : high < 10000) (bounded : Within low high) :
    (wholeDoc bounded.value).dumps.length ≤ 4 := by
  obtain ⟨n, hn⟩ := Int.eq_ofNat_of_zero_le (hlow.trans bounded.within.1)
  have hsmall : n < 10 ^ 4 := by
    have := bounded.within.2
    omega
  unfold wholeDoc JsonDoc.dumps
  rw [literalText_intLiteral, hn]
  exact (Nat.length_toDigits_le_iff (by decide) (by decide)).mpr hsmall

theorem length_yearDoc_le (year : Option (Within minModelYear maxModelYear)) : (yearDoc year).dumps.length ≤ 4 := by
  cases year with
  | none => decide
  | some year => exact length_wholeDoc_le (by decide) (by decide) year

/-- Every unit takes at most sixteen letters, its separator included. -/
theorem length_unit_le (key : DirectoryKey) : (textDoc key.val).dumps.length + 1 ≤ 16 := by
  have hall : ∀ key ∈ directoryKeys, (textDoc key).dumps.length + 1 ≤ 16 := by decide +kernel
  exact hall key.val key.property

theorem length_unitsDoc_le (scope : WorkScope) : scope.unitsDoc.dumps.length ≤ 16 * maxUnits + 2 := by
  have hsum : ∀ keys : List DirectoryKey,
      ((docTexts (keys.map fun key => textDoc key.val)).map fun text => text.length + 1).sum ≤ 16 * keys.length := by
    intro keys
    induction keys with
    | nil => exact Nat.le_refl _
    | cons key keys ih =>
      have hkey := length_unit_le key
      rw [List.map_cons, docTexts, List.map_cons, List.sum_cons, List.length_cons]
      omega
  have hjoined := length_joinWith_le ',' (docTexts (scope.units.keys.map fun key => textDoc key.val))
  have htotal := hsum scope.units.keys
  have hcount := scope.units.stated.2
  unfold WorkScope.unitsDoc JsonDoc.dumps
  rw [List.length_cons, List.length_append, List.length_singleton]
  omega

/-- What a member adds to the text of an object at most. -/
def memberLength (entry : List ℕ × JsonDoc) : ℕ :=
  (entry.1.flatMap escapePoint).length + entry.2.dumps.length + 4

theorem length_sortedText_le (members : List (List ℕ × JsonDoc)) :
    (sortedText members).length ≤ (members.map memberLength).sum + 2 := by
  have hjoined := length_joinWith_le ','
    ((docEntries members).map fun entry => memberText (entry.1.flatMap escapePoint, entry.2))
  have hsum : (((docEntries members).map fun entry => memberText (entry.1.flatMap escapePoint, entry.2)).map
      fun text => text.length + 1).sum = (members.map memberLength).sum := by
    rw [docEntries_eq_map, List.map_map, List.map_map]
    congr 1
    apply List.map_congr_left
    intro entry _
    show (memberText (entry.1.flatMap escapePoint, entry.2.dumps)).length + 1 = memberLength entry
    unfold memberText memberLength
    simp only [List.length_append, List.length_cons, List.length_nil]
    omega
  unfold sortedText
  rw [List.length_cons, List.length_append, List.length_singleton]
  omega

theorem length_yearsDoc_le (scope : WorkScope) : scope.yearsDoc.dumps.length ≤ 40 := by
  have hsorted : [points "from".toList, points "to".toList].Pairwise (· ≤ ·) := by decide
  have htext : scope.yearsDoc.dumps =
      sortedText [member "from" (yearDoc scope.modelYears.first), member "to" (yearDoc scope.modelYears.last)] :=
    dumps_obj_of_sorted (by exact hsorted)
  have hbound := length_sortedText_le
    [member "from" (yearDoc scope.modelYears.first), member "to" (yearDoc scope.modelYears.last)]
  have hkeys : ((points "from".toList).flatMap escapePoint).length = 4 ∧
      ((points "to".toList).flatMap escapePoint).length = 2 := by decide +kernel
  have hfirst := length_yearDoc_le scope.modelYears.first
  have hlast := length_yearDoc_le scope.modelYears.last
  rw [htext]
  unfold memberLength member at hbound
  simp only [List.map_cons, List.map_nil, List.sum_cons, List.sum_nil, hkeys.1, hkeys.2] at hbound
  unfold member
  omega

/-- The keys of a record, the optional one included, are short. -/
theorem length_recordKey_le {key : Text} (h : key ∈ includeUnresolvedKey :: recordKeys) :
    ((points key).flatMap escapePoint).length ≤ 18 := by
  have hall : ∀ key ∈ includeUnresolvedKey :: recordKeys, ((points key).flatMap escapePoint).length ≤ 18 := by
    decide +kernel
  exact hall key h

theorem length_canonicalText {scope : WorkScope} (h : scope.directoryVersion.length ≤ 80) :
    0 < scope.canonicalText.length ∧ scope.canonicalText.length ≤ maxScopeTextChars := by
  have hconstants : (textDoc workScopeContract).dumps.length = 19 ∧ WorkScope.sourceDoc.dumps.length ≤ 140 ∧
      (JsonDoc.bool true).dumps.length = 4 := by decide +kernel
  have hversion := length_codes_le scope.directoryVersion
  have hbatch := length_wholeDoc_le (by decide) (by decide) scope.batchSize
  have hmax := length_wholeDoc_le (by decide) (by decide) scope.maxItems
  have hyears := length_yearsDoc_le scope
  have hunits := length_unitsDoc_le scope
  have hkeys : ∀ key ∈ includeUnresolvedKey :: recordKeys, ((points key).flatMap escapePoint).length ≤ 18 :=
    fun key hkey => length_recordKey_le hkey
  have hmember : ∀ (key : String) {value : JsonDoc} {n : ℕ}, key.toList ∈ recordKeys → value.dumps.length ≤ n →
      memberLength (member key value) ≤ n + 22 := by
    intro key value n hkey hvalue
    have hshort := length_recordKey_le (List.mem_cons_of_mem _ hkey)
    unfold memberLength member
    dsimp only
    omega
  have htext : (JsonDoc.str scope.directoryVersion).dumps.length ≤ 962 := by
    unfold JsonDoc.dumps
    rw [List.length_cons, List.length_append, List.length_singleton]
    omega
  have hoptional : ((if scope.includeUnresolved then [(points includeUnresolvedKey, JsonDoc.bool true)] else []).map
      memberLength).sum ≤ 26 := by
    split
    · have hkey := hkeys includeUnresolvedKey List.mem_cons_self
      unfold memberLength
      simp only [List.map_cons, List.map_nil, List.sum_cons, List.sum_nil, hconstants.2.2]
      omega
    · exact Nat.zero_le _
  have hbatch := hmember "batch_size" (by decide) hbatch
  have hcontract := hmember "contract" (by decide) hconstants.1.le
  have hversion := hmember "directory_version" (by decide) htext
  have hmax := hmember "max_items" (by decide) hmax
  have hyears := hmember "model_years" (by decide) hyears
  have hsource := hmember "source" (by decide) hconstants.2.1
  have hunits := hmember "units" (by decide) hunits
  have hbound := length_sortedText_le (scope.sortedRecord scope.directoryVersion)
  have hcount : maxUnits = 39 := by decide
  rw [scope.canonicalText_eq]
  refine ⟨Nat.succ_pos _, hbound.trans ?_⟩
  unfold WorkScope.sortedRecord maxScopeTextChars
  rw [List.map_append, List.map_append, List.sum_append, List.sum_append]
  simp only [List.map_cons, List.map_nil, List.sum_cons, List.sum_nil]
  omega

end Length

/-! ## 8. One spelling -/

/-- The version has as many characters as a stored version may have. -/
def VersionStated (version : List ℕ) : Prop :=
  (1 ≤ version.length ∧ version.length ≤ 80) ∧ ∀ code ∈ version, code < 1114112

theorem rereadVersion_ne_nil {scope : WorkScope} (h : VersionStated scope.directoryVersion) :
    scope.rereadVersion ≠ [] := by
  obtain ⟨code, codes, hcodes⟩ := List.exists_cons_of_length_pos h.1.1
  unfold WorkScope.rereadVersion
  rw [hcodes, List.flatMap_cons]
  obtain ⟨unit, units, hunits⟩ := List.exists_cons_of_ne_nil (unitsOf_ne_nil code)
  rw [hunits, List.cons_append]
  exact joinUnits_ne_nil unit _

/-- A scope is read back from its text exactly if no half of a pair stands before the other in its version. -/
theorem readScopeText_canonicalText_iff {scope : WorkScope} (h : VersionStated scope.directoryVersion) :
    readScopeText scope.canonicalText = .ok scope ↔ NoSplitPair scope.directoryVersion := by
  have hdecode := decodeScopeText_canonicalText h.2 (rereadVersion_ne_nil h) (length_canonicalText h.1.2)
  have hversion := joinUnits_codes_iff h.2
  unfold readScopeText
  rw [checkedRead_eq_ok, hdecode, ← hversion]
  constructor
  · rintro ⟨hok, _⟩
    have hscope := Except.ok.inj hok
    exact congrArg WorkScope.directoryVersion hscope
  · intro hsame
    have hscope : ({ scope with directoryVersion := scope.rereadVersion } : WorkScope) = scope := by
      unfold WorkScope.rereadVersion
      rw [hsame]
    rw [hscope]
    exact ⟨rfl, rfl⟩

end Milo.Scope
