import Milo.Python.JsonReader
import Milo.Reasoning.Spelling
import Milo.Swarm.Grounding

/-!
# EvidenceKeys — the durable keys of locators and source versions

A locator is written as a JSON list of six elements, a source version as its kind and its identifier.
Both readers rebuild the value under the rules it was made under, and compare its key with the text.
-/

namespace Milo.Swarm

open Milo.Python Milo.Reasoning

/-- The static reasons of a contract failure. -/
inductive EvidenceContractReason
  | contractInvalid
  | factIdentityInvalid
  | factUnitRequired
  | fragmentHashMismatch
  | fragmentTextInvalid
  | limitExceeded
  | locatorInvalid
  | locatorOutOfScope
  | sourceVersionInvalid
  | valueInvalid
  deriving DecidableEq, Repr

/-- A first character, then at most `most` others. -/
def isIdentifier (first other : Char → Bool) (most : ℕ) : Text → Bool
  | [] => false
  | c :: rest => first c && rest.all other && decide (rest.length ≤ most)

/-! ## 1. Source versions -/

inductive VersionKind
  | contentSha256
  | datasetVersion
  | documentRevision
  | gitCommit
  deriving DecidableEq, Repr

namespace VersionKind

def text : VersionKind → Text
  | contentSha256 => "content_sha256".toList
  | datasetVersion => "dataset_version".toList
  | documentRevision => "document_revision".toList
  | gitCommit => "git_commit".toList

def ofText? (kind : Text) : Option VersionKind :=
  [contentSha256, datasetVersion, documentRevision, gitCommit].find? fun k => decide (k.text = kind)

/-- `_VERSION_PATTERNS[kind]`. -/
def accepts : VersionKind → Text → Bool
  | contentSha256, identifier => decide (identifier.length = 64) && identifier.all isHexDigit
  | gitCommit, identifier => decide (7 ≤ identifier.length ∧ identifier.length ≤ 64) && identifier.all isHexDigit
  | _, identifier => isIdentifier Char.isAlphanum (fun c => c.isAlphanum || "._:+-".toList.contains c) 127 identifier

theorem ofText?_text (kind : VersionKind) : ofText? kind.text = some kind := by
  cases kind <;> decide

theorem colon_notMem_text (kind : VersionKind) : ':' ∉ kind.text := by
  cases kind <;> decide

theorem length_text_le (kind : VersionKind) : kind.text.length ≤ 17 := by
  cases kind <;> decide

end VersionKind

def maxSourceVersionChars : ℕ := 128

def maxSourceVersionKeyChars : ℕ := maxSourceVersionChars + 32

/-- What the contract asks of an identifier of this kind. -/
def versionShape (kind : VersionKind) (identifier : Text) : Except EvidenceContractReason Unit := do
  refuseIf (¬(1 ≤ identifier.length ∧ identifier.length ≤ maxSourceVersionChars)) .contractInvalid
  refuseIf (kind.accepts identifier = false) .sourceVersionInvalid

structure SourceVersion where
  kind : VersionKind
  identifier : Text
  valid : versionShape kind identifier = .ok ()

namespace SourceVersion

/-- `SourceVersion(kind=kind, identifier=identifier)`. -/
def make (kind : VersionKind) (identifier : Text) : Except EvidenceContractReason SourceVersion :=
  match h : versionShape kind identifier with
  | .ok () => .ok ⟨kind, identifier, h⟩
  | .error e => .error e

theorem make_self (version : SourceVersion) : make version.kind version.identifier = .ok version := by
  unfold make
  split
  · rfl
  · rename_i e he
    rw [version.valid] at he
    cases he

/-- `version_key`. -/
def versionKey (version : SourceVersion) : Text := version.kind.text ++ ':' :: version.identifier

theorem length_identifier (version : SourceVersion) :
    1 ≤ version.identifier.length ∧ version.identifier.length ≤ maxSourceVersionChars := by
  rcases except_bind_eq_ok.mp version.valid with ⟨_, hbounds, _⟩
  exact not_not.mp (refuseIf_eq_ok.mp hbounds)

end SourceVersion

/-- `parse_version_key` before it compares. -/
def decodeVersionKey (value : Text) : Except EvidenceContractReason SourceVersion := do
  refuseIf (¬(1 ≤ value.length ∧ value.length ≤ maxSourceVersionKeyChars)) .sourceVersionInvalid
  let kind := value.takeWhile fun c => decide (c ≠ ':')
  let identifier := (value.dropWhile fun c => decide (c ≠ ':')).tail
  refuseIf (':' ∉ value ∨ identifier = []) .sourceVersionInvalid
  let kind ← required (VersionKind.ofText? kind) .sourceVersionInvalid
  SourceVersion.make kind identifier

def parseVersionKey : Text → Except EvidenceContractReason SourceVersion :=
  checkedRead SourceVersion.versionKey decodeVersionKey .sourceVersionInvalid

theorem decodeVersionKey_versionKey (version : SourceVersion) :
    decodeVersionKey version.versionKey = .ok version := by
  have hfree : ∀ c ∈ version.kind.text, decide (c ≠ ':') = true := by
    intro c hc
    apply decide_eq_true
    rintro rfl
    exact version.kind.colon_notMem_text hc
  have htake : version.versionKey.takeWhile (fun c => decide (c ≠ ':')) = version.kind.text := by
    unfold SourceVersion.versionKey
    rw [List.takeWhile_append_of_pos hfree, List.takeWhile_cons_of_neg (by decide), List.append_nil]
  have hdrop : version.versionKey.dropWhile (fun c => decide (c ≠ ':')) = ':' :: version.identifier := by
    unfold SourceVersion.versionKey
    rw [List.dropWhile_append_of_pos hfree, List.dropWhile_cons_of_neg (by decide)]
  have hlength : version.versionKey.length = version.kind.text.length + (version.identifier.length + 1) := by
    unfold SourceVersion.versionKey
    rw [List.length_append, List.length_cons]
  have hidentifier := version.length_identifier
  have hkind := version.kind.length_text_le
  have hbounds : 1 ≤ version.versionKey.length ∧ version.versionKey.length ≤ maxSourceVersionKeyChars := by
    unfold maxSourceVersionKeyChars
    unfold maxSourceVersionChars at *
    omega
  have hparts : ¬(':' ∉ version.versionKey ∨ version.identifier = []) := by
    rintro (hnone | hempty)
    · exact hnone (List.mem_append_right _ List.mem_cons_self)
    · rw [hempty] at hidentifier
      exact absurd hidentifier.1 (by decide)
  unfold decodeVersionKey
  rw [htake, hdrop, List.tail_cons]
  apply except_bind_eq_ok.mpr ⟨(), refuseIf_eq_ok.mpr (not_not.mpr hbounds), ?_⟩
  apply except_bind_eq_ok.mpr ⟨(), refuseIf_eq_ok.mpr hparts, ?_⟩
  exact except_bind_eq_ok.mpr ⟨version.kind, required_eq_ok.mpr version.kind.ofText?_text, version.make_self⟩

/-! ## 2. Locators -/

inductive LocatorKind
  | documentSpan
  | recordField
  deriving DecidableEq, Repr

namespace LocatorKind

def text : LocatorKind → Text
  | documentSpan => "document_span".toList
  | recordField => "record_field".toList

def ofText? (kind : Text) : Option LocatorKind :=
  [documentSpan, recordField].find? fun k => decide (k.text = kind)

theorem ofText?_text (kind : LocatorKind) : ofText? kind.text = some kind := by
  cases kind <;> decide

end LocatorKind

def maxLocatorRecordIdChars : ℕ := 128

def maxLocatorPathSegments : ℕ := 6

def maxLocatorSectionChars : ℕ := 120

def maxDocumentOffset : ℤ := 1000000

def isNameStart (c : Char) : Bool := c.isAlphanum || c == '_'

/-- `LOCATOR_SEGMENT_PATTERN`. -/
def isLocatorSegment : Text → Bool :=
  isIdentifier isNameStart (fun c => isNameStart c || ".-".toList.contains c) 63

/-- `LOCATOR_RECORD_ID_PATTERN`. -/
def isRecordId : Text → Bool :=
  isIdentifier isNameStart (fun c => isNameStart c || ".:@-".toList.contains c) 127

/-- `normalize_fragment_text`; `printable` is `str.isprintable` of a character. -/
def normalizeFragmentText (printable : Char → Bool) (value : Text) : Text :=
  joinWords (words (value.flatMap fun c => if printable c then [c] else if isSpace c then [' '] else []))

structure LocatorFields where
  kind : LocatorKind
  recordId : Text
  fieldPath : List Text
  sectionText : Option Text
  charStart : Option ℤ
  charEnd : Option ℤ
  deriving DecidableEq

namespace LocatorFields

def json (fields : LocatorFields) : Json :=
  .arr [.str fields.kind.text, .str fields.recordId, .arr (fields.fieldPath.map Json.str),
    fields.sectionText.elim .null Json.str, fields.charStart.elim .null Json.int, fields.charEnd.elim .null Json.int]

/-- `locator_key`. -/
def locatorKey (fields : LocatorFields) : Text := fields.json.dumpsUnicode

/-- The rules of a record field. -/
def checkField (fields : LocatorFields) : Except EvidenceContractReason Unit := do
  refuseIf (¬(1 ≤ fields.fieldPath.length ∧ fields.fieldPath.length ≤ maxLocatorPathSegments)) .locatorInvalid
  refuseIf (∃ segment ∈ fields.fieldPath, isLocatorSegment segment = false) .locatorInvalid
  refuseIf (fields.charStart ≠ none ∨ fields.charEnd ≠ none ∨ fields.sectionText ≠ none) .locatorInvalid

/-- The rules of a document span. -/
def checkSpan (fields : LocatorFields) : Except EvidenceContractReason Unit := do
  refuseIf (fields.fieldPath ≠ []) .locatorInvalid
  let start ← required fields.charStart .locatorInvalid
  let stop ← required fields.charEnd .locatorInvalid
  refuseIf (¬(0 ≤ start ∧ start < stop ∧ stop ≤ maxDocumentOffset)) .locatorInvalid
  refuseIf ((maxFragmentChars : ℤ) < stop - start) .limitExceeded

def checkKind (fields : LocatorFields) : Except EvidenceContractReason Unit :=
  match fields.kind with
  | .recordField => fields.checkField
  | .documentSpan => fields.checkSpan

/-- The bounds of the fields, then `_shape`. -/
def check (printable : Char → Bool) (fields : LocatorFields) : Except EvidenceContractReason Unit := do
  refuseIf (¬(1 ≤ fields.recordId.length ∧ fields.recordId.length ≤ maxLocatorRecordIdChars)) .contractInvalid
  refuseIf (∃ heading ∈ fields.sectionText, maxLocatorSectionChars < heading.length) .contractInvalid
  refuseIf (isRecordId fields.recordId = false) .locatorInvalid
  refuseIf (∃ heading ∈ fields.sectionText, heading = [] ∨ normalizeFragmentText printable heading ≠ heading)
    .locatorInvalid
  fields.checkKind
  refuseIf (maxLocatorKeyChars < fields.locatorKey.length) .limitExceeded

end LocatorFields

/-- A locator that satisfies its contract. -/
structure EvidenceLocator (printable : Char → Bool) where
  fields : LocatorFields
  valid : fields.check printable = .ok ()

variable {printable : Char → Bool}

namespace EvidenceLocator

def make (printable : Char → Bool) (fields : LocatorFields) : Except EvidenceContractReason (EvidenceLocator printable) :=
  match h : fields.check printable with
  | .ok () => .ok ⟨fields, h⟩
  | .error e => .error e

theorem make_self (locator : EvidenceLocator printable) : make printable locator.fields = .ok locator := by
  unfold make
  split
  · rfl
  · rename_i e he
    rw [locator.valid] at he
    cases he

def locatorKey (locator : EvidenceLocator printable) : Text := locator.fields.locatorKey

theorem length_locatorKey (locator : EvidenceLocator printable) :
    locator.locatorKey.length ≤ maxLocatorKeyChars := by
  rcases except_bind_eq_ok.mp locator.valid with ⟨_, _, h⟩
  rcases except_bind_eq_ok.mp h with ⟨_, _, h⟩
  rcases except_bind_eq_ok.mp h with ⟨_, _, h⟩
  rcases except_bind_eq_ok.mp h with ⟨_, _, h⟩
  rcases except_bind_eq_ok.mp h with ⟨_, _, h⟩
  exact not_lt.mp (refuseIf_eq_ok.mp h)

end EvidenceLocator

/-! ## 3. Reading a locator key -/

/-- Nothing, or what `read` finds. -/
def optional? {α : Type} (read : JsonDoc → Option α) : JsonDoc → Option (Option α)
  | .null => some none
  | doc => (read doc).map some

/-- The six elements, each of its type; the codes of a text may still be no text. -/
structure LocatorParts where
  kind : LocatorKind
  recordId : List ℕ
  fieldPath : List (List ℕ)
  sectionText : Option (List ℕ)
  charStart : Option ℤ
  charEnd : Option ℤ

def locatorParts : List JsonDoc → Option LocatorParts
  | [kind, recordId, fieldPath, heading, charStart, charEnd] => do
    let kind ← ((stringOf? kind).bind textOf?).bind LocatorKind.ofText?
    let recordId ← stringOf? recordId
    let fieldPath ← (elementsOf? fieldPath).bind fun items => items.mapM stringOf?
    let heading ← optional? stringOf? heading
    let charStart ← optional? integerOf? charStart
    let charEnd ← optional? integerOf? charEnd
    some ⟨kind, recordId, fieldPath, heading, charStart, charEnd⟩
  | _ => none

/-- The fields of a locator, if every text of them is one. -/
def LocatorParts.fields (parts : LocatorParts) : Option LocatorFields := do
  let recordId ← textOf? parts.recordId
  let fieldPath ← parts.fieldPath.mapM textOf?
  let heading ← parts.sectionText.mapM textOf?
  some ⟨parts.kind, recordId, fieldPath, heading, parts.charStart, parts.charEnd⟩

/-- `parse_locator_key` before it compares; a constant fits none of the six places. -/
def decodeLocatorKey (printable : Char → Bool) (value : Text) :
    Except EvidenceContractReason (EvidenceLocator printable) := do
  refuseIf (¬(1 ≤ value.length ∧ value.length ≤ maxLocatorKeyChars)) .locatorInvalid
  let parsed ← required ((loads value).bind elementsOf?) .locatorInvalid
  let parts ← required (locatorParts parsed) .locatorInvalid
  let fields ← required parts.fields .contractInvalid
  EvidenceLocator.make printable fields

def parseLocatorKey (printable : Char → Bool) : Text → Except EvidenceContractReason (EvidenceLocator printable) :=
  checkedRead EvidenceLocator.locatorKey (decodeLocatorKey printable) .locatorInvalid

/-- The document of a locator key. -/
def LocatorFields.elements (fields : LocatorFields) : List JsonDoc :=
  [.str (points fields.kind.text), .str (points fields.recordId),
    .arr (fields.fieldPath.map fun segment => .str (points segment)),
    fields.sectionText.elim .null fun heading => .str (points heading),
    fields.charStart.elim .null fun z => .number (intLiteral z),
    fields.charEnd.elim .null fun z => .number (intLiteral z)]

theorem mapM_eq_some_map {α β γ : Type} {f : β → Option γ} {g : α → β} {k : α → γ}
    (h : ∀ a, f (g a) = some (k a)) (items : List α) : (items.map g).mapM f = some (items.map k) := by
  induction items with
  | nil => rfl
  | cons a rest ih =>
    rw [List.map_cons, List.mapM_cons, h, ih]
    rfl

theorem locatorParts_elements (fields : LocatorFields) :
    locatorParts fields.elements = some ⟨fields.kind, points fields.recordId, fields.fieldPath.map points,
      fields.sectionText.map points, fields.charStart, fields.charEnd⟩ := by
  have hkind : ((stringOf? (.str (points fields.kind.text))).bind textOf?).bind LocatorKind.ofText? =
      some fields.kind := by
    show (textOf? (points fields.kind.text)).bind LocatorKind.ofText? = _
    rw [textOf?_points]
    exact fields.kind.ofText?_text
  have hpath : (fields.fieldPath.map fun segment => JsonDoc.str (points segment)).mapM stringOf? =
      some (fields.fieldPath.map points) :=
    mapM_eq_some_map (f := stringOf?) (g := fun segment => JsonDoc.str (points segment)) (fun _ => rfl) _
  have hheading : optional? stringOf? (fields.sectionText.elim .null fun heading => .str (points heading)) =
      some (fields.sectionText.map points) := by
    cases fields.sectionText <;> rfl
  have hoffset : ∀ offset : Option ℤ,
      optional? integerOf? (offset.elim .null fun z => .number (intLiteral z)) = some offset := by
    intro offset
    cases offset with
    | none => rfl
    | some z =>
      show (integerOf? (.number (intLiteral z))).map some = _
      rw [integerOf?_intLiteral]
      rfl
  refine Option.bind_eq_some_iff.mpr ⟨_, hkind, ?_⟩
  refine Option.bind_eq_some_iff.mpr ⟨points fields.recordId, rfl, ?_⟩
  refine Option.bind_eq_some_iff.mpr ⟨_, hpath, ?_⟩
  refine Option.bind_eq_some_iff.mpr ⟨_, hheading, ?_⟩
  refine Option.bind_eq_some_iff.mpr ⟨_, hoffset fields.charStart, ?_⟩
  exact Option.bind_eq_some_iff.mpr ⟨_, hoffset fields.charEnd, rfl⟩

theorem fields_parts (fields : LocatorFields) :
    LocatorParts.fields ⟨fields.kind, points fields.recordId, fields.fieldPath.map points,
      fields.sectionText.map points, fields.charStart, fields.charEnd⟩ = some fields := by
  have hpath : (fields.fieldPath.map points).mapM textOf? = some fields.fieldPath := by
    rw [mapM_eq_some_map textOf?_points, List.map_id']
  have hheading : (fields.sectionText.map points).mapM textOf? = some fields.sectionText := by
    cases fields.sectionText with
    | none => rfl
    | some heading =>
      show (textOf? (points heading)).map some = _
      rw [textOf?_points]
      rfl
  unfold LocatorParts.fields
  rw [textOf?_points, hpath, hheading]
  rfl

theorem unicodeItems_eq_map (items : List Json) : unicodeItems items = items.map Json.dumpsUnicode := by
  induction items with
  | nil => rfl
  | cons item items ih => rw [unicodeItems, ih, List.map_cons]

theorem loads_locatorKey (fields : LocatorFields) : loads fields.locatorKey = some (.arr fields.elements) := by
  have hpath : List.Forall₂ Reads ((fields.fieldPath.map Json.str).map Json.dumpsUnicode)
      (fields.fieldPath.map fun segment => .str (points segment)) := by
    rw [List.map_map, List.forall₂_map_left_iff, List.forall₂_map_right_iff]
    exact List.forall₂_same.mpr fun segment _ => reads_jsonbQuoted segment
  have hheading : Reads (fields.sectionText.elim Json.null Json.str).dumpsUnicode
      (fields.sectionText.elim .null fun heading => .str (points heading)) := by
    cases fields.sectionText with
    | none => exact reads_null
    | some heading => exact reads_jsonbQuoted heading
  have hoffset : ∀ offset : Option ℤ, Reads (offset.elim Json.null Json.int).dumpsUnicode
      (offset.elim .null fun z => .number (intLiteral z)) := by
    intro offset
    cases offset with
    | none => exact reads_null
    | some z => exact reads_int z
  have hlist : Reads (Json.arr (fields.fieldPath.map Json.str)).dumpsUnicode
      (.arr (fields.fieldPath.map fun segment => .str (points segment))) := by
    unfold Json.dumpsUnicode
    rw [unicodeItems_eq_map]
    exact reads_arr hpath
  have hall : Reads fields.locatorKey (.arr fields.elements) := by
    unfold LocatorFields.locatorKey LocatorFields.json
    unfold Json.dumpsUnicode
    rw [unicodeItems_eq_map]
    apply reads_arr
    exact .cons (reads_jsonbQuoted _) (.cons (reads_jsonbQuoted _) (.cons hlist
      (.cons hheading (.cons (hoffset _) (.cons (hoffset _) .nil)))))
  exact hall.loads

theorem decodeLocatorKey_locatorKey (locator : EvidenceLocator printable) :
    decodeLocatorKey printable locator.locatorKey = .ok locator := by
  have hparsed := loads_locatorKey locator.fields
  have hbounds : 1 ≤ locator.locatorKey.length ∧ locator.locatorKey.length ≤ maxLocatorKeyChars := by
    refine ⟨?_, locator.length_locatorKey⟩
    show 1 ≤ (locator.fields.json.dumpsUnicode).length
    unfold LocatorFields.json Json.dumpsUnicode
    rw [List.length_cons]
    omega
  unfold decodeLocatorKey
  apply except_bind_eq_ok.mpr ⟨(), refuseIf_eq_ok.mpr (not_not.mpr hbounds), ?_⟩
  apply except_bind_eq_ok.mpr ⟨locator.fields.elements, ?_, ?_⟩
  · show required ((loads locator.fields.locatorKey).bind elementsOf?) _ = _
    rw [hparsed]
    rfl
  · apply except_bind_eq_ok.mpr ⟨_, required_eq_ok.mpr (locatorParts_elements locator.fields), ?_⟩
    exact except_bind_eq_ok.mpr ⟨_, required_eq_ok.mpr (fields_parts locator.fields), locator.make_self⟩

/-- Locators and source versions have one durable spelling each. -/
theorem evidenceKeys_spelling (printable : Char → Bool) :
    OneSpelling (@EvidenceLocator.locatorKey printable) (parseLocatorKey printable) ∧
      OneSpelling SourceVersion.versionKey parseVersionKey :=
  ⟨oneSpelling_checkedRead decodeLocatorKey_locatorKey, oneSpelling_checkedRead decodeVersionKey_versionKey⟩

example : (parseLocatorKey (fun _ => true) "[\"document_span\",\"d:1\",[],\"Model 2024\",0,40]".toList).toOption.map
    EvidenceLocator.fields = some ⟨.documentSpan, "d:1".toList, [], some "Model 2024".toList, some 0, some 40⟩ := by
  decide +kernel

end Milo.Swarm
