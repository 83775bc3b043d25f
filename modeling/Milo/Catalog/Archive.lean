import Milo.Catalog.Runs
import Milo.Python.JsonLines
import Milo.Python.JsonReader
import Milo.Reasoning.Action

/-!
# Archive — the immutable archive of a captured snapshot

One object for each snapshot: its records in capture order, one canonical line each.  The reader
splits the decoded text at every line break Python knows, so a record whose strings hold one that
JSON does not escape is read as several lines.
-/

namespace Milo.Catalog

open Milo.Python Milo.Reasoning

/-! ## 1. Writing -/

/-- One register record, as the members of its JSON object. -/
abbrev ArchivedRecord := List (Text × Json)

/-- Everything that fails while an object is read. -/
inductive ArchiveFault
  | unreadable
  deriving DecidableEq, Repr

/-- gzip over UTF-8 with its inverse, and what is recorded of an object's bytes. -/
structure ArchiveFormat (D : Type) where
  encode : Text → D
  decode : D → Except ArchiveFault Text
  decode_encode : ∀ text, decode (encode text) = .ok text
  byteSize : D → ℕ
  sha256 : D → Text

structure ArchiveObject (D : Type) where
  data : D
  sha256 : Text
  byteSize : ℕ
  lineCount : ℕ

def canonicalLine (record : ArchivedRecord) : Text := (Json.obj record).dumpsUnicode ++ ['\n']

section Format

variable {D : Type} (format : ArchiveFormat D)

/-- The deterministic object for records given in capture order. -/
def build (records : List ArchivedRecord) : ArchiveObject D :=
  let data := format.encode (records.flatMap canonicalLine)
  { data := data
    sha256 := format.sha256 data
    byteSize := format.byteSize data
    lineCount := records.length }

/-! ## 2. Reading -/

variable (loads : Text → Except ArchiveFault Json)

/-- Every record of an archive object, in line order. -/
def readLines (data : D) : Except ArchiveFault (List Json) := do
  let text ← format.decode data
  (splitlines text).mapM loads

/-- What the database recorded of an archive. -/
structure RecordedArchive where
  gcsUri : Text
  byteSize : ℕ
  sha256 : Text
  lineCount : ℕ

/-- A bucket, under a name the client accepts, and its objects. -/
structure ArchiveReader (D : Type) where
  bucket : Text
  get : Text → Except ArchiveFault D
  bucket_plain : '/' ∉ bucket

def gcsUri (bucket name : Text) : Text := "gs://".toList ++ bucket ++ '/' :: name

/-- `uri.removeprefix("gs://").partition("/")`, without the separator. -/
def bucketAndName (uri : Text) : Text × Text :=
  let path := if "gs://".toList.isPrefixOf uri then uri.drop 5 else uri
  (path.takeWhile (· ≠ '/'), (path.dropWhile (· ≠ '/')).tail)

inductive CompactionCode
  | archiveUnverified
  | archiveUnreadable
  | archiveLineMismatch
  deriving DecidableEq, Repr

def CompactionCode.text : CompactionCode → String
  | archiveUnverified => "CATALOG_COMPACTION_ARCHIVE_UNVERIFIED"
  | archiveUnreadable => "CATALOG_ARCHIVE_UNREADABLE"
  | archiveLineMismatch => "CATALOG_ARCHIVE_LINE_MISMATCH"

/-- The object's bytes and how many lines they hold; any failure leaves it unverified. -/
def readBack (reader : ArchiveReader D) (name : Text) : Except CompactionCode (D × ℕ) :=
  match reader.get name with
  | .error _ => .error .archiveUnverified
  | .ok data =>
    match readLines format loads data with
    | .error _ => .error .archiveUnverified
    | .ok lines => .ok (data, lines.length)

/-- `verified_archive`: the object read back, exactly as its record says. -/
def verifiedArchive (recorded : Option RecordedArchive) (reader : Option (ArchiveReader D)) :
    Except CompactionCode (Text × D) := do
  let archive ← required recorded .archiveUnverified
  let (bucket, name) := bucketAndName archive.gcsUri
  let reader ← required reader .archiveUnverified
  refuseIf (reader.bucket ≠ bucket) .archiveUnverified
  let (data, lines) ← readBack format loads reader name
  refuseIf (format.byteSize data ≠ archive.byteSize ∨ format.sha256 data ≠ archive.sha256 ∨
    lines ≠ archive.lineCount) .archiveUnverified
  pure (format.sha256 data, data)

end Format

/-- What the database says of one row of a snapshot whose rows are still stored. -/
structure ArchivedRow where
  captureIndex : Option ℤ
  /-- The digest of a line is the row's `payload_sha256`. -/
  payloadMatches : Text → Bool

/-- `source_record` for a stored row: its archive line, checked against the row. -/
def sourceRecord (row : Option ArchivedRow) (lines : List Json) :
    Except CompactionCode ArchivedRecord := do
  let row ← required row .archiveUnreadable
  let index ← required row.captureIndex .archiveUnreadable
  refuseIf (¬(0 ≤ index ∧ index < lines.length)) .archiveLineMismatch
  match lines[index.toNat]? with
  | some (.obj record) => do
    refuseIf (row.payloadMatches (canonicalLine record) = false) .archiveLineMismatch
    pure record
  | _ => .error .archiveUnreadable

/-! ## 3. What is read back -/

/-- Two values with one canonical text: a dict compares without the order of its keys. -/
def SameValue (a b : Json) : Prop := a.dumpsUnicode = b.dumpsUnicode

/-- No string of the record holds a line break that JSON writes as it is. -/
def OneLine (record : ArchivedRecord) : Prop :=
  ∀ s ∈ (Json.obj record).strings, ∀ c ∈ s, isUnescapedBreak c = false

theorem oneLine_iff (record : ArchivedRecord) :
    OneLine record ↔ ∀ c ∈ (Json.obj record).dumpsUnicode, isLineBreak c = false := by
  have hiff := break_mem_dumpsUnicode_iff (.obj record)
  constructor
  · intro hone c hc
    by_contra hbreak
    rw [Bool.not_eq_false] at hbreak
    rcases hiff.mp ⟨c, hc, hbreak⟩ with ⟨s, hs, d, hd, hunescaped⟩
    rw [hone s hs d hd] at hunescaped
    cases hunescaped
  · intro hall s hs c hc
    by_contra hunescaped
    rw [Bool.not_eq_false] at hunescaped
    rcases hiff.mpr ⟨s, hs, c, hc, hunescaped⟩ with ⟨d, hd, hbreak⟩
    rw [hall d hd] at hbreak
    cases hbreak

section Format

variable {D : Type} (format : ArchiveFormat D) (loads : Text → Except ArchiveFault Json)

/-- What the database records of an object that was put under a name of a bucket. -/
def recordOf (bucket name : Text) (object : ArchiveObject D) : RecordedArchive :=
  ⟨gcsUri bucket name, object.byteSize, object.sha256, object.lineCount⟩

/-- The archive of the records is read back: line by line the records, verified against what is
    recorded of it, and each row's record from its line. -/
structure ReadsBack (records : List ArchivedRecord) : Prop where
  lines : ∃ lines, readLines format loads (build format records).data = .ok lines ∧
    List.Forall₂ (fun line record => SameValue line (.obj record)) lines records ∧
    lines.length = (build format records).lineCount
  verified : ∀ (reader : ArchiveReader D) (name : Text),
    reader.get name = .ok (build format records).data →
      verifiedArchive format loads (some (recordOf reader.bucket name (build format records)))
        (some reader) = .ok ((build format records).sha256, (build format records).data)
  cited : ∀ lines, readLines format loads (build format records).data = .ok lines →
    ∀ (i : ℕ) (record : ArchivedRecord) (row : ArchivedRow), records[i]? = some record →
      row.captureIndex = some (i : ℤ) → row.payloadMatches (canonicalLine record) = true →
        ∃ read, sourceRecord (some row) lines = .ok read ∧ SameValue (.obj read) (.obj record)

theorem build_text (records : List ArchivedRecord) :
    records.flatMap canonicalLine =
      (records.map fun record => (Json.obj record).dumpsUnicode).flatMap
        fun body => body ++ ['\n'] := by
  rw [List.flatMap_map]
  rfl

theorem readLines_build (records : List ArchivedRecord) :
    readLines format loads (build format records).data =
      (splitlines (records.flatMap canonicalLine)).mapM loads := by
  unfold readLines build
  rw [format.decode_encode]
  rfl

/-- Under the name it was put, the object of a bucket is found again. -/
theorem bucketAndName_gcsUri {bucket : Text} (name : Text) (h : '/' ∉ bucket) :
    bucketAndName (gcsUri bucket name) = (bucket, name) := by
  have hpath : (if "gs://".toList.isPrefixOf (gcsUri bucket name) then (gcsUri bucket name).drop 5
      else gcsUri bucket name) = bucket ++ '/' :: name := rfl
  have hbucket : ∀ c ∈ bucket, decide (c ≠ '/') = true := by
    intro c hc
    rw [decide_eq_true_eq]
    rintro rfl
    exact h hc
  unfold bucketAndName
  rw [hpath]
  dsimp only
  rw [List.takeWhile_append_of_pos hbucket, List.dropWhile_append_of_pos hbucket]
  show (bucket ++ [], name) = _
  rw [List.append_nil]

theorem SameValue.of_obj {line : Json} {record : ArchivedRecord}
    (h : SameValue line (.obj record)) : ∃ members, line = .obj members := by
  have hhead : line.dumpsUnicode.head? = some '{' := by
    rw [h]
    rfl
  have hnumber : ∀ {text : List Char},
      (∃ c rest, text = c :: rest ∧ (c.isDigit = true ∨ c = '-')) → text.head? ≠ some '{' := by
    rintro text ⟨c, rest, rfl, hc⟩ heq
    cases heq
    exact absurd hc (by decide)
  cases line with
  | null => cases hhead
  | bool b => cases b <;> cases hhead
  | int z => exact absurd hhead (hnumber (intText_head z))
  | float f => exact absurd hhead (hnumber (floatText_head f))
  | str s => cases hhead
  | arr items => cases hhead
  | obj members => exact ⟨members, rfl⟩

/-- A record whose line is cited by its row is read from that line. -/
theorem sourceRecord_cited {lines : List Json} {records : List ArchivedRecord}
    (hlines : List.Forall₂ (fun line record => SameValue line (.obj record)) lines records)
    {i : ℕ} {record : ArchivedRecord} {row : ArchivedRow} (hrecord : records[i]? = some record)
    (hindex : row.captureIndex = some (i : ℤ))
    (hmatches : row.payloadMatches (canonicalLine record) = true) :
    ∃ read, sourceRecord (some row) lines = .ok read ∧ SameValue (.obj read) (.obj record) := by
  rcases List.getElem?_eq_some_iff.mp hrecord with ⟨hi, hget⟩
  have hlength := hlines.length_eq
  have hlt : i < lines.length := by omega
  have hsame := hlines.get hlt hi
  rw [List.get_eq_getElem, List.get_eq_getElem, hget] at hsame
  rcases hsame.of_obj with ⟨read, hread⟩
  rw [hread] at hsame
  have hline : canonicalLine read = canonicalLine record := congrArg (fun t => t ++ ['\n']) hsame
  have hfound : lines[(i : ℤ).toNat]? = some (.obj read) := by
    rw [Int.toNat_natCast, List.getElem?_eq_getElem hlt, hread]
  refine ⟨read, ?_, hsame⟩
  unfold sourceRecord
  simp only [required, hindex, Except.bind, bind, refuseIf, hfound, hline, hmatches]
  rw [if_neg (by omega)]
  rfl

/-- A break in a record is read as the end of a line too many. -/
theorem oneLine_of_readsBack {records : List ArchivedRecord}
    (h : ReadsBack format loads records) : ∀ record ∈ records, OneLine record := by
  rcases h.lines with ⟨lines, hlines, -, hlength⟩
  rw [readLines_build] at hlines
  have hread := (forall₂_of_mapM hlines).length_eq
  intro record hrecord
  rw [oneLine_iff]
  intro c hc
  by_contra hbreak
  rw [Bool.not_eq_false] at hbreak
  have hreturn : ∀ body ∈ records.map fun record => (Json.obj record).dumpsUnicode,
      ∀ d ∈ body, d ≠ '\r' := by
    intro body hbody d hd heq
    rcases List.mem_map.mp hbody with ⟨other, _, rfl⟩
    have hvisible := visible_dumpsUnicode hd
    rw [heq] at hvisible
    exact absurd hvisible (by decide)
  have hlonger := length_lt_splitlines hreturn (List.mem_map_of_mem hrecord) hc hbreak
  rw [← build_text, List.length_map] at hlonger
  have hcount : (build format records).lineCount = records.length := rfl
  omega

/-- The archive of any records is read back exactly when each of them is one line. -/
theorem readsBack_iff (records : List ArchivedRecord)
    (hloads : ∀ record ∈ records, ∃ value, loads (Json.obj record).dumpsUnicode = .ok value ∧
      SameValue value (.obj record)) :
    ReadsBack format loads records ↔ ∀ record ∈ records, OneLine record := by
  constructor
  · exact oneLine_of_readsBack format loads
  · intro hone
    have hsplit : splitlines (records.flatMap canonicalLine) =
        records.map fun record => (Json.obj record).dumpsUnicode := by
      rw [build_text]
      apply splitlines_flatMap
      intro body hbody
      rcases List.mem_map.mp hbody with ⟨record, hrecord, rfl⟩
      exact (oneLine_iff record).mp (hone record hrecord)
    have hread : ∃ lines, readLines format loads (build format records).data = .ok lines ∧
        List.Forall₂ (fun line record => SameValue line (.obj record)) lines records := by
      rw [readLines_build, hsplit]
      rcases exists_mapM (f := loads ∘ fun record : ArchivedRecord =>
        (Json.obj record).dumpsUnicode) hloads with ⟨lines, hlines, hsame⟩
      exact ⟨lines, by rw [List.mapM_map]; exact hlines, hsame⟩
    rcases hread with ⟨lines, hlines, hsame⟩
    have hlength : lines.length = (build format records).lineCount := hsame.length_eq
    refine ⟨⟨lines, hlines, hsame, hlength⟩, ?_, ?_⟩
    · intro reader name hget
      have hback : readBack format loads reader name =
          .ok ((build format records).data, lines.length) := by
        unfold readBack
        rw [hget]
        dsimp only
        rw [hlines]
      unfold verifiedArchive
      simp only [required, Except.bind, bind, recordOf, bucketAndName_gcsUri name reader.bucket_plain,
        refuseIf, ne_eq, not_true_eq_false, if_false, hback, hlength, or_self, build]
      rfl
    · intro read hread i record row hrecord hindex hmatches
      rw [hlines] at hread
      cases hread
      exact sourceRecord_cited hsame hrecord hindex hmatches

end Format

/-- A record of one string. -/
def noteRecord (note : Text) : ArchivedRecord := [("note".toList, .str note)]

/-- An object kept as its text. -/
def plainFormat : ArchiveFormat Text where
  encode := id
  decode := .ok
  decode_encode := fun _ => rfl
  byteSize := List.length
  sha256 := id

/-- `json.loads`, of objects of one string. -/
def loadsNote (text : Text) : Except ArchiveFault Json :=
  match Milo.Python.loads text with
  | some (.obj [(key, .str note)]) => .ok (.obj [(key.map Char.ofNat, .str (note.map Char.ofNat))])
  | _ => .error .unreadable

/-- Two notes on one line each are read back. -/
theorem readsBack_iff_note :
    ReadsBack plainFormat loadsNote [noteRecord "one line".toList, noteRecord "\"another\"".toList] ↔
      ∀ record ∈ [noteRecord "one line".toList, noteRecord "\"another\"".toList], OneLine record := by
  apply readsBack_iff
  intro record hrecord
  refine ⟨.obj record, ?_, rfl⟩
  rcases List.mem_pair.mp hrecord with rfl | rfl
  · rfl
  · rfl

/-- A line separator in a string is lost, however the lines are read. -/
theorem not_readsBack_separator :
    ¬∃ loads : Text → Except ArchiveFault Json,
      ReadsBack plainFormat loads [noteRecord ['a', Char.ofNat 0x2028, 'b']] := by
  intro hreads
  obtain ⟨loads, h⟩ := hreads
  have hone := oneLine_of_readsBack plainFormat loads h _ List.mem_cons_self
  have hfree := hone ['a', Char.ofNat 0x2028, 'b'] (by decide) (Char.ofNat 0x2028) (by decide)
  exact absurd hfree (by decide)

end Milo.Catalog
