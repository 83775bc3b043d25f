import Milo.Scope.StoredRecord

/-!
# StoredText — one text of a plan, and who accepts it

The check in Python is the database's check of a record whose whole numbers are spelled as such.  What
the readers make of a text decides the rest: each refuses some texts the other reads.
-/

namespace Milo.Scope

open Milo.Python Milo.Reasoning

/-! ## 1. Spelling of whole numbers -/

theorem integerOf?_eq (value : JsonDoc) : integerOf? value = if isPlain value then keptInteger? value else none := by
  cases value with
  | number literal =>
    obtain ⟨negative, whole, fraction, exponent⟩ := literal
    cases fraction with
    | some digits => rfl
    | none =>
      cases exponent with
      | some exponent => rfl
      | none =>
        -- Without a point and an exponent nothing is shifted.
        have hmagnitude : whole * 10 ^ 0 = whole := Nat.mul_one whole
        show some (if negative then -(whole : ℤ) else whole) =
          some (if negative then -((whole * 10 ^ 0 : ℕ) : ℤ) else ((whole * 10 ^ 0 : ℕ) : ℤ))
        rw [hmagnitude]
  | _ => rfl

theorem numberStored_eq (low high : ℤ) (value : JsonDoc) :
    numberStored integerOf? low high value = (numberStored keptInteger? low high value && isPlain value) := by
  unfold numberStored
  rw [integerOf?_eq]
  cases isPlain value with
  | true => rw [if_pos rfl, Bool.and_true]
  | false => rw [if_neg Bool.false_ne_true, Option.any_none, Bool.and_false]

theorem yearStored?_eq (value : JsonDoc) :
    yearStored? integerOf? value = if isPlain value then yearStored? keptInteger? value else none := by
  cases value with
  | null => rfl
  | number literal =>
    show ((integerOf? (.number literal)).filter _).map some = if isPlain (.number literal) then
      ((keptInteger? (.number literal)).filter _).map some else none
    rw [integerOf?_eq]
    cases isPlain (.number literal) with
    | true => rfl
    | false => rfl
  | bool b => cases b <;> rfl
  | _ => rfl

theorem yearsStored_eq (value : JsonDoc) :
    yearsStored integerOf? value = (yearsStored keptInteger? value &&
      (membersOf? value).all fun years => isPlain (item years "from") && isPlain (item years "to")) := by
  cases value with
  | obj years =>
    show (hasKeys years yearKeys &&
        inOrder (yearStored? integerOf? (item years "from")) (yearStored? integerOf? (item years "to"))) =
      ((hasKeys years yearKeys &&
        inOrder (yearStored? keptInteger? (item years "from")) (yearStored? keptInteger? (item years "to"))) &&
        (isPlain (item years "from") && isPlain (item years "to")))
    rw [yearStored?_eq, yearStored?_eq]
    cases isPlain (item years "from") with
    | false =>
      rw [if_neg Bool.false_ne_true, Bool.false_and, Bool.and_false]
      exact Bool.and_false _
    | true =>
      cases isPlain (item years "to") with
      | true => rw [if_pos rfl, Bool.and_true, Bool.and_true, if_pos rfl]
      | false =>
        rw [if_pos rfl, if_neg Bool.false_ne_true, Bool.and_false, Bool.and_false]
        have hnone : inOrder (yearStored? keptInteger? (item years "from")) none = false := by
          unfold inOrder
          cases yearStored? keptInteger? (item years "from") <;> rfl
        rw [hnone, Bool.and_false]
  | _ => rfl

/-- No whole number of the record is spelled with a fraction or an exponent. -/
def spelledPlainly (record : JsonDoc) : Bool :=
  (membersOf? record).all fun members =>
    isPlain (item members "batch_size") && isPlain (item members "max_items") &&
      (membersOf? (item members "model_years")).all fun years =>
        isPlain (item years "from") && isPlain (item years "to")

theorem storedRecordValid_eq (record : JsonDoc) :
    storedRecordValid record = (recordShape keptInteger? record && spelledPlainly record) := by
  cases record with
  | obj members =>
    show (_ && _ && _ && _ && numberStored integerOf? _ _ _ && numberStored integerOf? _ _ _ && _ &&
      yearsStored integerOf? _) = _
    rw [numberStored_eq, numberStored_eq, yearsStored_eq]
    show _ = ((_ && _ && _ && _ && numberStored keptInteger? 1 maxBatchSize (item members "batch_size") &&
      numberStored keptInteger? 1 maxWorkScopeItems (item members "max_items") && _ &&
      yearsStored keptInteger? (item members "model_years")) &&
      (isPlain (item members "batch_size") && isPlain (item members "max_items") && _))
    ac_rfl
  | _ => rfl

/-! ## 2. The readers -/

/-- The most digits `int` takes from a text. -/
def maxIntDigits : ℕ := 4300

/-- `json.loads` makes an `int` of the literal, or has no need to. -/
def NumberLiteral.isInteger (literal : NumberLiteral) : Bool :=
  literal.fraction.isSome || literal.exponent.isSome || decide ((natText literal.whole).length ≤ maxIntDigits)

/-- `json.loads` makes a number of every literal. -/
def isParsable (doc : JsonDoc) : Bool := doc.every NumberLiteral.isInteger (fun _ => true) true

/-- `stored_record_valid` of the text as `json.loads` reads it, which opens `depth` lists and objects in one another. -/
def acceptedInPython (depth : ℕ) (text : Text) : Bool :=
  decide (nesting text ≤ depth) && (loads text).any fun doc => isParsable doc && storedRecordValid doc

/-- `catalog_work_scope_record_valid` of the text as the database reads it, within its stack depth limit. -/
def acceptedInDatabase (stack : ℕ) (text : Text) : Bool :=
  decide (nesting text ≤ stack) && ((loads text).bind JsonDoc.readJsonb).any catalogWorkScopeRecordValid

/-- No `NaN` and no `Infinity`. -/
def noConstants (doc : JsonDoc) : Bool := doc.every (fun _ => true) (fun _ => true) false

/-- No NUL and no half of a pair in a key or a text. -/
def onlyCharacters (doc : JsonDoc) : Bool := doc.every (fun _ => true) isStorable true

/-- `numeric` has room for every number. -/
def numbersHaveRoom (doc : JsonDoc) : Bool := doc.every NumberLiteral.hasRoom (fun _ => true) true

theorem isReadable_eq (doc : JsonDoc) :
    doc.isReadable = (noConstants doc && (onlyCharacters doc && numbersHaveRoom doc)) := by
  unfold noConstants onlyCharacters numbersHaveRoom
  rw [← JsonDoc.every_and, ← JsonDoc.every_and]
  simp only [Bool.true_and, Bool.and_true]
  rfl

/-- Python takes the whole numbers of the record for such, and reads every number and all of the nesting. -/
structure PlainText (depth : ℕ) (text : Text) (doc : JsonDoc) : Prop where
  plain : spelledPlainly doc = true
  digits : isParsable doc = true
  nested : nesting text ≤ depth

/-- The database has a value for every constant, character and number of the text, and reads all of the nesting. -/
structure StorableText (stack : ℕ) (text : Text) (doc : JsonDoc) : Prop where
  constants : noConstants doc = true
  characters : onlyCharacters doc = true
  numbers : numbersHaveRoom doc = true
  nested : nesting text ≤ stack

/-- A text that is a record of the checked shape (whole numbers by value) is plain exactly if it is storable. -/
def PlainAsStorable (depth stack : ℕ) (text : Text) : Prop :=
  ∀ doc ∈ loads text, recordShape keptInteger? doc = true → (PlainText depth text doc ↔ StorableText stack text doc)

variable {text : Text}

theorem acceptedInPython_iff_plain {depth : ℕ} {doc : JsonDoc} (h : loads text = some doc) :
    acceptedInPython depth text = true ↔ recordShape keptInteger? doc = true ∧ PlainText depth text doc := by
  unfold acceptedInPython
  rw [h, Option.any_some, storedRecordValid_eq]
  simp only [Bool.and_eq_true, decide_eq_true_eq]
  constructor
  · rintro ⟨hnested, hdigits, hshape, hplain⟩
    exact ⟨hshape, hplain, hdigits, hnested⟩
  · rintro ⟨hshape, hplain, hdigits, hnested⟩
    exact ⟨hnested, hdigits, hshape, hplain⟩

theorem acceptedInDatabase_iff_storable {stack : ℕ} {doc : JsonDoc} (h : loads text = some doc) :
    acceptedInDatabase stack text = true ↔ recordShape keptInteger? doc = true ∧ StorableText stack text doc := by
  have hread : (doc.readJsonb).any catalogWorkScopeRecordValid = (doc.isReadable && recordShape keptInteger? doc) := by
    unfold JsonDoc.readJsonb
    cases hreadable : doc.isReadable with
    | false => rfl
    | true =>
      rw [if_pos rfl, Bool.true_and]
      exact catalogWorkScopeRecordValid_toJsonb hreadable
  unfold acceptedInDatabase
  rw [h, Option.bind_some, hread, isReadable_eq]
  simp only [Bool.and_eq_true, decide_eq_true_eq]
  constructor
  · rintro ⟨hnested, ⟨hconstants, hcharacters, hnumbers⟩, hshape⟩
    exact ⟨hshape, hconstants, hcharacters, hnumbers, hnested⟩
  · rintro ⟨hshape, hconstants, hcharacters, hnumbers, hnested⟩
    exact ⟨hnested, ⟨hconstants, hcharacters, hnumbers⟩, hshape⟩

theorem accepted_iff (depth stack : ℕ) (text : Text) :
    acceptedInPython depth text = acceptedInDatabase stack text ↔ PlainAsStorable depth stack text := by
  unfold PlainAsStorable
  cases hloads : loads text with
  | none =>
    have hpython : acceptedInPython depth text = false := by
      unfold acceptedInPython
      rw [hloads, Option.any_none, Bool.and_false]
    have hdatabase : acceptedInDatabase stack text = false := by
      unfold acceptedInDatabase
      rw [hloads, Option.bind_none, Option.any_none, Bool.and_false]
    rw [hpython, hdatabase]
    refine iff_of_true rfl ?_
    intro doc hdoc
    cases hdoc
  | some doc =>
    rw [Bool.eq_iff_iff, acceptedInPython_iff_plain hloads, acceptedInDatabase_iff_storable hloads]
    constructor
    · intro h found hfound hshape
      cases hfound
      constructor
      · exact fun hplain => (h.mp ⟨hshape, hplain⟩).2
      · exact fun hstorable => (h.mpr ⟨hshape, hstorable⟩).2
    · intro h
      exact and_congr_right fun hshape => h doc rfl hshape

/-! ## 3. The texts that are read -/

section Read

variable {text : Text} {scope : WorkScope}

/-- What was read of a text names its version, and the version is a text of code points. -/
theorem exists_record_of_decode (h : decodeScopeText text = .ok scope) :
    ∃ record, loads text = some (.obj record) ∧ item record "directory_version" = .str scope.directoryVersion ∧
      scope.directoryVersion ≠ [] := by
  unfold decodeScopeText at h
  rcases except_bind_eq_ok.mp h with ⟨_, _, h⟩
  rcases except_bind_eq_ok.mp h with ⟨record, hrecord, h⟩
  rcases except_bind_eq_ok.mp h with ⟨_, _, h⟩
  rcases except_bind_eq_ok.mp h with ⟨_, _, h⟩
  rcases except_bind_eq_ok.mp h with ⟨years, _, h⟩
  rcases except_bind_eq_ok.mp h with ⟨_, _, h⟩
  rcases except_bind_eq_ok.mp h with ⟨version, hversion, h⟩
  rcases except_bind_eq_ok.mp h with ⟨_, hstated, h⟩
  rcases except_bind_eq_ok.mp h with ⟨read, _, h⟩
  cases h
  refine ⟨record, ?_, ?_, refuseIf_eq_ok.mp hstated⟩
  · rcases Option.bind_eq_some_iff.mp (required_eq_ok.mp hrecord) with ⟨doc, hdoc, hmembers⟩
    rw [hdoc]
    cases doc with
    | obj members =>
      cases hmembers
      rfl
    | _ => cases hmembers
  · have hstring := required_eq_ok.mp hversion
    show item record "directory_version" = .str version
    cases hvalue : item record "directory_version" with
    | str codes =>
      rw [hvalue] at hstring
      cases hstring
      rfl
    | _ =>
      rw [hvalue] at hstring
      cases hstring

/-- The text read is the canonical text of what was read, and holds its version as it stands. -/
theorem loads_of_readScopeText (h : readScopeText text = .ok scope) :
    loads text = some (.obj (scope.sortedRecord scope.directoryVersion)) ∧ scope.directoryVersion ≠ [] := by
  obtain ⟨hdecode, rfl⟩ := checkedRead_eq_ok.mp h
  obtain ⟨record, hloads, hversion, hstated⟩ := exists_record_of_decode hdecode
  have hcodes : ∀ code ∈ scope.directoryVersion, code < 1114112 := by
    have hcoded := (loads_sound hloads).1
    unfold JsonDoc.isCoded JsonDoc.every at hcoded
    rw [everyMember_eq_all, List.all_eq_true] at hcoded
    unfold item lastMember at hversion
    cases hlookup : record.reverse.lookup (points "directory_version".toList) with
    | none =>
      rw [hlookup] at hversion
      cases hversion
    | some value =>
      rw [hlookup, Option.getD_some] at hversion
      subst hversion
      obtain ⟨before, after, hsplit, _⟩ := List.lookup_eq_some_iff.mp hlookup
      have hmem : (points "directory_version".toList, JsonDoc.str scope.directoryVersion) ∈ record := by
        rw [← List.mem_reverse, hsplit]
        exact List.mem_append_right _ List.mem_cons_self
      have hentry := ((Bool.and_eq_true _ _).mp (hcoded _ hmem)).2
      have hall : areCodes scope.directoryVersion = true := hentry
      unfold areCodes at hall
      exact fun code hcode => of_decide_eq_true (List.all_eq_true.mp hall code hcode)
  have hsorted := loads_canonicalText hcodes
  rw [hloads] at hsorted
  have hrecord : record = scope.sortedRecord scope.rereadVersion := JsonDoc.obj.inj (Option.some.inj hsorted)
  have hreread := (recordOf_sortedRecord scope scope.rereadVersion).version
  rw [← hrecord, hversion] at hreread
  have hsame : scope.directoryVersion = scope.rereadVersion := JsonDoc.str.inj hreread
  rw [hloads, hrecord, ← hsame]
  exact ⟨rfl, hstated⟩

theorem numberStored_wholeDoc {low high : ℤ} (bounded : Within low high) :
    numberStored integerOf? low high (wholeDoc bounded.value) = true := by
  unfold numberStored wholeDoc
  rw [integerOf?_intLiteral]
  exact decide_eq_true bounded.within

theorem yearStored?_yearDoc (year : Option (Within minModelYear maxModelYear)) :
    yearStored? integerOf? (yearDoc year) = some (year.map Within.value) := by
  cases year with
  | none => rfl
  | some year =>
    show ((integerOf? (wholeDoc year.value)).filter _).map some = some (some year.value)
    unfold wholeDoc
    rw [integerOf?_intLiteral, Option.filter_some, if_pos (decide_eq_true year.within)]
    rfl

/-- Every key of the directory has the shape the database asks for. -/
theorem isUnitKey_directoryKey (key : DirectoryKey) : isUnitKey key.val = true := by
  have hall : ∀ key ∈ directoryKeys, isUnitKey key = true := by decide
  exact hall key.val key.property

theorem unitsStored_unitsDoc (scope : WorkScope) : unitsStored scope.unitsDoc = true := by
  have hstrings : (scope.units.keys.map fun key => textDoc key.val).mapM stringOf? =
      some (scope.units.keys.map fun key => points key.val) := by
    have hmap := mapM_stringOf?_map (scope.units.keys.map fun key => points key.val)
    rw [List.map_map] at hmap
    exact hmap
  have hdistinct : (scope.units.keys.map fun key => points key.val).Nodup := by
    refine scope.units.distinct.map ?_
    intro a b hab
    exact Subtype.ext (points_injective hab)
  have hshape : (scope.units.keys.map fun key => points key.val).all
      (fun codes => (textOf? codes).any isUnitKey) = true := by
    rw [List.all_map, List.all_eq_true]
    intro key _
    show ((textOf? (points key.val)).any isUnitKey) = true
    rw [textOf?_points]
    exact isUnitKey_directoryKey key
  have hcount := scope.units.stated
  have hmax : maxUnits ≤ maxStoredUnits := by decide
  show (decide (1 ≤ (scope.units.keys.map fun key => textDoc key.val).length ∧ _ ≤ maxStoredUnits) &&
    ((scope.units.keys.map fun key => textDoc key.val).mapM stringOf?).any _) = true
  rw [hstrings, Option.any_some, hshape, decide_eq_true hdistinct, List.length_map]
  exact (Bool.and_eq_true _ _).mpr ⟨decide_eq_true ⟨hcount.1, hcount.2.trans hmax⟩, rfl⟩

theorem yearsStored_yearsDoc (scope : WorkScope) : yearsStored integerOf? scope.yearsDoc = true := by
  have hvalid : yearsStored integerOf? scope.yearsDoc =
      inOrder (yearStored? integerOf? (yearDoc scope.modelYears.first))
        (yearStored? integerOf? (yearDoc scope.modelYears.last)) := rfl
  rw [hvalid, yearStored?_yearDoc, yearStored?_yearDoc]
  apply decide_eq_true
  intro a ha b hb
  obtain ⟨first, hfirst, rfl⟩ := Option.map_eq_some_iff.mp ha
  obtain ⟨last, hlast, rfl⟩ := Option.map_eq_some_iff.mp hb
  exact scope.modelYears.ordered first hfirst last hlast

/-- Of the record of a scope only the version can be too long. -/
theorem storedRecordValid_sortedRecord {version : List ℕ} (h : version ≠ []) :
    storedRecordValid (.obj (scope.sortedRecord version)) = true ↔ version.length ≤ maxVersionChars := by
  have hrecord := recordOf_sortedRecord scope version
  have hstated : 1 ≤ version.length := List.length_pos_iff.mpr h
  show (recordKeysValid _ && _ && _ && versionStored _ && _ && _ && _ && _) = true ↔ _
  rw [hrecord.keys, hrecord.contract, hrecord.source, hrecord.version, hrecord.batchSize, hrecord.maxItems,
    hrecord.units, hrecord.years, isSource_sourceDoc, numberStored_wholeDoc, numberStored_wholeDoc,
    unitsStored_unitsDoc, yearsStored_yearsDoc]
  have hcontract : isText workScopeContract (textDoc workScopeContract) = true := by decide
  have hversion : versionStored (.str version) =
      decide (1 ≤ version.length ∧ version.length ≤ maxVersionChars) := rfl
  rw [hcontract, hversion]
  simp only [Bool.and_true, Bool.true_and, decide_eq_true_eq]
  exact and_iff_right hstated

theorem isParsable_obj (members : List (List ℕ × JsonDoc)) :
    isParsable (.obj members) = members.all fun entry => isParsable entry.2 := by
  show everyMember _ _ _ members = _
  rw [everyMember_eq_all]
  rfl

theorem isParsable_wholeDoc {low high : ℤ} (hlow : 0 ≤ low) (hhigh : high < 10000) (bounded : Within low high) :
    isParsable (wholeDoc bounded.value) = true := by
  have hdigits : (natText bounded.value.natAbs).length ≤ 4 := by
    refine (Nat.length_toDigits_le_iff (by decide) (by decide)).mpr ?_
    have hwithin := bounded.within
    omega
  have hmost : (natText bounded.value.natAbs).length ≤ maxIntDigits := hdigits.trans (by decide)
  show (false || false || decide _) = true
  exact decide_eq_true hmost

theorem isParsable_yearDoc (year : Option (Within minModelYear maxModelYear)) : isParsable (yearDoc year) = true := by
  cases year with
  | none => rfl
  | some year => exact isParsable_wholeDoc (by decide) (by decide) year

theorem isParsable_sortedRecord (scope : WorkScope) (version : List ℕ) :
    isParsable (.obj (scope.sortedRecord version)) = true := by
  have hyears : isParsable scope.yearsDoc = true := by
    unfold WorkScope.yearsDoc
    rw [isParsable_obj]
    show (isParsable (yearDoc _) && (isParsable (yearDoc _) && true)) = true
    rw [isParsable_yearDoc, isParsable_yearDoc]
    rfl
  have hunits : isParsable scope.unitsDoc = true := by
    show everyItem _ _ _ (scope.units.keys.map fun key => textDoc key.val) = true
    rw [everyItem_eq_all, List.all_map, List.all_eq_true]
    exact fun _ _ => rfl
  have hbatch := isParsable_wholeDoc (by decide) (by decide) scope.batchSize
  have hmax := isParsable_wholeDoc (by decide) (by decide) scope.maxItems
  rw [isParsable_obj, List.all_eq_true]
  intro entry hentry
  unfold WorkScope.sortedRecord at hentry
  rcases List.mem_append.mp hentry with hentry | hlast
  · rcases List.mem_append.mp hentry with hfirst | hoptional
    · rcases List.mem_cons.mp hfirst with rfl | hfirst
      · exact hbatch
      · rcases List.mem_cons.mp hfirst with rfl | hfirst
        · rfl
        · rw [List.mem_singleton.mp hfirst]
          rfl
    · split at hoptional
      · rw [List.mem_singleton.mp hoptional]
        rfl
      · cases hoptional
  · rcases List.mem_cons.mp hlast with rfl | hlast
    · exact hmax
    · rcases List.mem_cons.mp hlast with rfl | hlast
      · exact hyears
      · rcases List.mem_cons.mp hlast with rfl | hlast
        · rfl
        · rw [List.mem_singleton.mp hlast]
          exact hunits

/-- The record of a scope nests its years, its source and its units. -/
theorem depth_sortedRecord (scope : WorkScope) (version : List ℕ) :
    (JsonDoc.obj (scope.sortedRecord version)).depth = 2 := by
  have hunits : scope.unitsDoc.depth = 1 := by
    have hkeys : ∀ keys : List DirectoryKey, itemsDepth (keys.map fun key => textDoc key.val) = 0 := by
      intro keys
      induction keys with
      | nil => rfl
      | cons key keys ih =>
        rw [List.map_cons, itemsDepth, ih]
        rfl
    show itemsDepth _ + 1 = 1
    rw [hkeys]
  have hyear : ∀ year : Option (Within minModelYear maxModelYear), (yearDoc year).depth = 0 := by
    intro year
    cases year with
    | none => rfl
    | some year => rfl
  have hyears : scope.yearsDoc.depth = 1 := by
    show max (yearDoc _).depth (max (yearDoc _).depth 0) + 1 = 1
    rw [hyear, hyear]
    rfl
  unfold WorkScope.sortedRecord
  cases scope.includeUnresolved with
  | false =>
    show max 0 (max 0 (max 0 (max 0 (max scope.yearsDoc.depth (max 1 (max scope.unitsDoc.depth 0)))))) + 1 = 2
    rw [hyears, hunits]
    rfl
  | true =>
    show max 0 (max 0 (max 0 (max 0 (max 0 (max scope.yearsDoc.depth (max 1 (max scope.unitsDoc.depth 0))))))) + 1 = 2
    rw [hyears, hunits]
    rfl

theorem nesting_of_readScopeText (h : readScopeText text = .ok scope) : nesting text = 2 := by
  rw [(loads_sound (loads_of_readScopeText h).1).2]
  exact depth_sortedRecord scope _

theorem scopeFromText_eq_ok {depth : ℕ} :
    scopeFromText depth text = .ok scope ↔ readScopeText text = .ok scope ∧ 2 ≤ depth := by
  have hmap : (readScopeText text).mapError ScopeTextFault.refused = .ok scope ↔ readScopeText text = .ok scope := by
    cases readScopeText text with
    | ok read => exact ⟨fun h => congrArg _ (Except.ok.inj h), fun h => congrArg _ (Except.ok.inj h)⟩
    | error reason =>
      constructor
      · intro h
        cases h
      · intro h
        cases h
  unfold scopeFromText
  constructor
  · intro h
    split at h
    · cases h
    · rename_i hroom
      have hread := hmap.mp h
      have hlength : IsScopeLength text := by
        rcases except_bind_eq_ok.mp (checkedRead_eq_ok.mp hread).1 with ⟨_, hchecked, _⟩
        exact not_not.mp (refuseIf_eq_ok.mp hchecked)
      refine ⟨hread, ?_⟩
      rw [← nesting_of_readScopeText hread]
      exact not_lt.mp fun hdeep => hroom ⟨hlength, hdeep⟩
  · rintro ⟨hread, hdepth⟩
    rw [if_neg, hmap]
    · exact hread
    · rintro ⟨_, hdeep⟩
      rw [nesting_of_readScopeText hread] at hdeep
      exact absurd hdepth (not_le.mpr hdeep)

theorem acceptedInPython_iff {depth : ℕ} (h : scopeFromText depth text = .ok scope) :
    acceptedInPython depth text = true ↔ scope.directoryVersion.length ≤ maxVersionChars := by
  obtain ⟨hread, hdepth⟩ := scopeFromText_eq_ok.mp h
  obtain ⟨hloads, hstated⟩ := loads_of_readScopeText hread
  unfold acceptedInPython
  rw [nesting_of_readScopeText hread, decide_eq_true hdepth, Bool.true_and, hloads, Option.any_some,
    isParsable_sortedRecord, Bool.true_and]
  exact storedRecordValid_sortedRecord hstated

end Read

/-! ## 4. Refusals -/

theorem readScopeText_refusal :
    RaisesOnly (fun reason => reason = WorkScopeReason.recordInvalid) (readScopeText text) := by
  have hdecode : RaisesOnly (fun reason => reason = WorkScopeReason.recordInvalid) (decodeScopeText text) := by
    unfold decodeScopeText
    refine RaisesOnly.bind (raisesOnly_refuseIf fun _ => rfl) fun _ _ => ?_
    refine RaisesOnly.bind (raisesOnly_required fun _ => rfl) fun record _ => ?_
    refine RaisesOnly.bind (raisesOnly_refuseIf fun _ => rfl) fun _ _ => ?_
    refine RaisesOnly.bind (raisesOnly_refuseIf fun _ => rfl) fun _ _ => ?_
    refine RaisesOnly.bind (raisesOnly_required fun _ => rfl) fun years _ => ?_
    refine RaisesOnly.bind (raisesOnly_refuseIf fun _ => rfl) fun _ _ => ?_
    refine RaisesOnly.bind (raisesOnly_required fun _ => rfl) fun version _ => ?_
    refine RaisesOnly.bind (raisesOnly_refuseIf fun _ => rfl) fun _ _ => ?_
    refine RaisesOnly.bind ?_ fun scope _ => RaisesOnly.ok _
    intro reason hreason
    cases hscope : scopeFromFields (fieldsOf (item record "units") (item years "from") (item years "to")
      (item record "max_items") (item record "batch_size")) with
    | ok scope =>
      rw [hscope] at hreason
      cases hreason
    | error e =>
      rw [hscope] at hreason
      cases hreason
      rfl
  intro reason hreason
  unfold readScopeText checkedRead at hreason
  cases hread : decodeScopeText text with
  | error e =>
    rw [hread] at hreason
    cases hreason
    exact hdecode _ hread
  | ok scope =>
    rw [hread] at hreason
    dsimp only at hreason
    split at hreason
    · cases hreason
    · cases hreason
      rfl

/-- Besides its refusal only the recursion of its reader leaves `scope_from_text`. -/
theorem scopeFromText_refusal {depth : ℕ} {reason : WorkScopeReason}
    (h : scopeFromText depth text = .error (.refused reason)) : reason = .recordInvalid := by
  unfold scopeFromText at h
  split at h
  · cases h
  · cases hread : readScopeText text with
    | ok scope =>
      rw [hread] at h
      cases h
    | error refused =>
      rw [hread] at h
      cases h
      exact readScopeText_refusal _ hread

theorem scopeFromText_recursion {depth : ℕ} :
    scopeFromText depth text = .error .recursion ↔ IsScopeLength text ∧ depth < nesting text := by
  unfold scopeFromText
  constructor
  · intro h
    split at h
    · assumption
    · cases hread : readScopeText text with
      | ok scope =>
        rw [hread] at h
        cases h
      | error refused =>
        rw [hread] at h
        cases h
  · exact fun h => if_pos h

/-! ## 5. One spelling, and its validators -/

/-- When a stored plan has one spelling, and when the two checks of a text agree: Python opens `depth` lists and
    objects in one another, the database `stack`. -/
structure StoredPlan (depth stack : ℕ) (text : Text) : Prop where
  reread : ∀ fields scope version, scopeFromFields fields = .ok scope → VersionStated version →
    (scopeFromText depth { scope with directoryVersion := version }.canonicalText =
      .ok { scope with directoryVersion := version } ↔ NoSplitPair version ∧ 2 ≤ depth)
  canonical : ∀ scope, scopeFromText depth text = .ok scope → scope.canonicalText = text
  digest : ∀ {D : Type} (digest : Text → D) (text' : Text) (scope scope' : WorkScope),
    scopeFromText depth text = .ok scope → scopeFromText depth text' = .ok scope' →
      (digest text = digest text' → text = text') → (digest text = digest text' ↔ scope = scope')
  stored : ∀ scope, scopeFromText depth text = .ok scope →
    (acceptedInPython depth text = true ↔ scope.directoryVersion.length ≤ maxVersionChars)
  agree : acceptedInPython depth text = acceptedInDatabase stack text ↔ PlainAsStorable depth stack text
  refusal : ∀ reason, scopeFromText depth text = .error (.refused reason) → reason = .recordInvalid
  recursion : scopeFromText depth text = .error .recursion ↔ IsScopeLength text ∧ depth < nesting text

theorem storedPlan (depth stack : ℕ) (text : Text) : StoredPlan depth stack text where
  reread := fun _ _ _ _ hversion => scopeFromText_eq_ok.trans (and_congr_left' (readScopeText_canonicalText_iff hversion))
  canonical := fun _ h => (checkedRead_eq_ok.mp (scopeFromText_eq_ok.mp h).1).2
  digest := by
    intro D digest text' scope scope' h h' hcollide
    constructor
    · intro hdigest
      have hsame := hcollide hdigest
      subst hsame
      rw [h] at h'
      exact Except.ok.inj h'
    · intro hscope
      rw [← (checkedRead_eq_ok.mp (scopeFromText_eq_ok.mp h).1).2,
        ← (checkedRead_eq_ok.mp (scopeFromText_eq_ok.mp h').1).2, hscope]
  stored := fun _ h => acceptedInPython_iff h
  agree := accepted_iff depth stack text
  refusal := fun _ h => scopeFromText_refusal h
  recursion := scopeFromText_recursion

/-- A plan whose batch size is spelled with an exponent. -/
def exponentText : Text :=
  "\x7b\"batch_size\":1e1,\"contract\":\"milo-work-scope/1\",\"directory_version\":\"v1\",\"max_items\":100,".toList ++
    "\"model_years\":\x7b\"from\":null,\"to\":null\x7d,\"source\":\x7b\"family\":\"government\",".toList ++
    "\"package_id\":\"degem-rechev-wltp\",\"resource_id\":\"142afde2-6228-49f9-8a29-9b6c3a0cbe40\"\x7d,".toList ++
    "\"units\":[\"bmw\"]\x7d".toList

/-- The database takes the number as ten, Python as no whole number, whatever their limits. -/
theorem exponentText_accepted :
    ¬∃ depth stack, 2 ≤ depth ∧ 2 ≤ stack ∧
      ∀ text, (acceptedInPython depth text = true ↔ acceptedInDatabase stack text = true) := by
  rintro ⟨depth, stack, _, hstack, h⟩
  have hnesting : nesting exponentText = 2 := by decide +kernel
  have hread : ((loads exponentText).bind JsonDoc.readJsonb).any catalogWorkScopeRecordValid = true := by decide +kernel
  have hrefused : ((loads exponentText).any fun doc => isParsable doc && storedRecordValid doc) = false := by
    decide +kernel
  have hdatabase : acceptedInDatabase stack exponentText = true := by
    unfold acceptedInDatabase
    rw [hnesting, decide_eq_true hstack, hread]
    rfl
  have hpython := (h exponentText).mpr hdatabase
  unfold acceptedInPython at hpython
  rw [hrefused, Bool.and_false] at hpython
  cases hpython

end Milo.Scope
