import Milo.Python.JsonbReader
import Milo.Scope.Contract

/-!
# StoredRecord — the two checks of a stored plan

`stored_record_valid` reads a record as `json.loads` gives it, `catalog_work_scope_record_valid` as the
database keeps it.  Both ask for the same shape and differ in what they take for a whole number: Python
looks at the spelling, the database at the number.
-/

namespace Milo.Scope

open Milo.Python Milo.Reasoning

/-! ## 1. The check in Python -/

def maxStoredUnits : ℕ := 64

def maxVersionChars : ℕ := 80

/-- `[a-z][a-z0-9_]{0,39}`. -/
def isUnitKey : Text → Bool
  | [] => false
  | c :: rest => c.isLower && rest.all (fun c => c.isLower || c.isDigit || c == '_') && decide (rest.length ≤ 39)

def versionStored (value : JsonDoc) : Bool :=
  (stringOf? value).any fun codes => decide (1 ≤ codes.length ∧ codes.length ≤ maxVersionChars)

section Shape

variable (whole : JsonDoc → Option ℤ)

def numberStored (low high : ℤ) (value : JsonDoc) : Bool :=
  (whole value).any fun z => decide (low ≤ z ∧ z ≤ high)

def unitsStored (value : JsonDoc) : Bool :=
  (elementsOf? value).any fun items =>
    decide (1 ≤ items.length ∧ items.length ≤ maxStoredUnits) &&
      (items.mapM stringOf?).any fun keys => keys.all (fun codes => (textOf? codes).any isUnitKey) && decide keys.Nodup

/-- A year, or nothing for null. -/
def yearStored? (value : JsonDoc) : Option (Option ℤ) :=
  match value with
  | .null => some none
  | value => ((whole value).filter fun z => decide (minModelYear ≤ z ∧ z ≤ maxModelYear)).map some

/-- The first year is not after the last. -/
def inOrder (first last : Option (Option ℤ)) : Bool :=
  first.any fun first => last.any fun last => decide (∀ a ∈ first, ∀ b ∈ last, a ≤ b)

def yearsStored (value : JsonDoc) : Bool :=
  (membersOf? value).any fun years =>
    hasKeys years yearKeys && inOrder (yearStored? whole (item years "from")) (yearStored? whole (item years "to"))

/-- The shape and the hard bounds of a record, its whole numbers read by `whole`. -/
def recordShape (record : JsonDoc) : Bool :=
  (membersOf? record).any fun members =>
    recordKeysValid members && isText workScopeContract (item members "contract") &&
      isSource (item members "source") && versionStored (item members "directory_version") &&
      numberStored whole 1 maxBatchSize (item members "batch_size") &&
      numberStored whole 1 maxWorkScopeItems (item members "max_items") &&
      unitsStored (item members "units") && yearsStored whole (item members "model_years")

end Shape

/-- `stored_record_valid`. -/
def storedRecordValid (record : JsonDoc) : Bool := recordShape integerOf? record

/-! ## 2. The check in the database -/

def isNumber : Jsonb → Bool
  | .number _ _ => true
  | _ => false

def isString : Jsonb → Bool
  | .str _ => true
  | _ => false

/-- `text ~ '^[0-9]{least,most}$'`. -/
def isDigits (least most : ℕ) (text : Text) : Bool :=
  decide (least ≤ text.length ∧ text.length ≤ most) && text.all Char.isDigit

def sourceObject : Jsonb := .obj (workScopeSource.map fun entry => (entry.1, .str entry.2))

/-- A number of so many digits, within bounds. -/
def numberHeld (least most : ℕ) (low high : ℤ) (value : Option Jsonb) : Bool :=
  value.any isNumber && (rendered value).any fun text =>
    isDigits least most text && decide (low ≤ (decimalValue text : ℤ) ∧ (decimalValue text : ℤ) ≤ high)

def versionHeld (value : Option Jsonb) : Bool :=
  value.any isString &&
    (rendered value).any fun text => decide (1 ≤ text.length ∧ text.length ≤ maxVersionChars)

/-- `count(distinct value)`. -/
def distinctCount (items : List Jsonb) : ℕ := (items.pwFilter fun a b => a.same b = false).length

def unitsHeld (value : Option Jsonb) : Bool :=
  (value.bind Jsonb.elements?).any fun items =>
    decide (1 ≤ items.length ∧ items.length ≤ maxStoredUnits) &&
      items.all (fun item => isString item && (rendered (some item)).any isUnitKey) &&
      decide (distinctCount items = items.length)

def yearHeld? (value : Option Jsonb) : Option (Option ℤ) :=
  match value with
  | some .null => some none
  | value => if numberHeld 4 4 minModelYear maxModelYear value then
      (rendered value).map fun text => some (decimalValue text : ℤ)
    else none

def yearsHeld (value : Option Jsonb) : Bool :=
  value.any fun years => years.isObject && keysAre years.objectKeys yearKeys &&
    inOrder (yearHeld? (years.member? "from".toList)) (yearHeld? (years.member? "to".toList))

/-- `catalog_work_scope_record_valid`. -/
def catalogWorkScopeRecordValid (scope : Jsonb) : Bool :=
  scope.isObject && keysAre (scope.objectKeys.filter fun key => decide (key ≠ includeUnresolvedKey)) recordKeys &&
    (scope.member? includeUnresolvedKey).all (fun value => value.same (.bool true)) &&
    decide (rendered (scope.member? "contract".toList) = some workScopeContract) &&
    sameValue (scope.member? "source".toList) (some sourceObject) &&
    versionHeld (scope.member? "directory_version".toList) &&
    numberHeld 1 4 1 maxBatchSize (scope.member? "batch_size".toList) &&
    numberHeld 1 6 1 maxWorkScopeItems (scope.member? "max_items".toList) &&
    unitsHeld (scope.member? "units".toList) && yearsHeld (scope.member? "model_years".toList)

/-! ## 3. Whole numbers -/

/-- The number as the database keeps it, if it has no decimals. -/
def keptInteger? : JsonDoc → Option ℤ
  | .number literal => if literal.numeric.2 = 0 then some literal.numeric.1 else none
  | _ => none

/-- A number spelled without a fraction and an exponent; what is no number is not spelled at all. -/
def isPlain : JsonDoc → Bool
  | .number ⟨_, _, none, none⟩ => true
  | .number _ => false
  | _ => true

theorem decimalValue_intText (n : ℕ) : decimalValue (intText n) = n := by
  have hfold : ∀ digits : List Char, (∀ c ∈ digits, c.isDigit = true) → ∀ m : ℕ,
      digits.foldl (fun n c => n * 10 + (c.toNat - '0'.toNat)) m = Nat.ofDigitChars 10 digits m := by
    intro digits
    induction digits with
    | nil => exact fun _ _ => rfl
    | cons c digits ih =>
      intro h m
      rw [List.forall_mem_cons] at h
      rw [List.foldl_cons, ih h.2, Nat.ofDigitChars_cons, Nat.mul_comm]
  show (natText n).foldl _ 0 = n
  rw [hfold _ fun c hc => isDigit_of_mem_natText hc]
  exact Nat.ofDigitChars_toDigits (by decide) (by decide)

/-- A whole number within bounds has as many digits as its bounds. -/
theorem isDigits_natText {least most n : ℕ} (hmost : 0 < most) (hlow : 1 < least → 10 ^ (least - 1) ≤ n)
    (hleast : least ≤ 1 ∨ 1 < least) (hhigh : n < 10 ^ most) : isDigits least most (natText n) = true := by
  have hdigits : (natText n).all Char.isDigit = true :=
    List.all_eq_true.mpr fun c hc => isDigit_of_mem_natText hc
  have hle : (natText n).length ≤ most := (Nat.length_toDigits_le_iff (by decide) hmost).mpr hhigh
  have hge : least ≤ (natText n).length := by
    rcases hleast with hone | hmore
    · exact hone.trans (List.length_pos_of_ne_nil (natText_ne_nil n))
    · by_contra hshort
      have hlt := (Nat.length_toDigits_le_iff (n := n) (k := least - 1) (by decide) (by omega)).mp
        (show (natText n).length ≤ least - 1 by omega)
      exact absurd (hlow hmore) (not_le.mpr hlt)
  unfold isDigits
  rw [hdigits, Bool.and_true]
  exact decide_eq_true ⟨hge, hle⟩

/-- The bounds of a number fit its digits. -/
structure FitsDigits (least most : ℕ) (low high : ℤ) : Prop where
  positive : 0 < low
  some_digit : 0 < most
  low : 1 < least → (10 : ℤ) ^ (least - 1) ≤ low
  high : high < 10 ^ most

theorem numberHeld_toJsonb {least most : ℕ} {low high : ℤ} (h : FitsDigits least most low high) (value : JsonDoc) :
    numberHeld least most low high (some value.toJsonb) = numberStored keptInteger? low high value := by
  cases value with
  | number literal =>
    have hkept : keptInteger? (.number literal) = if literal.numeric.2 = 0 then some literal.numeric.1 else none := rfl
    have hjsonb : (JsonDoc.number literal).toJsonb = .number literal.numeric.1 literal.numeric.2 := rfl
    unfold numberStored
    rw [hkept, hjsonb]
    generalize literal.numeric.1 = unscaled
    cases literal.numeric.2 with
    | succ scale =>
      have hpoint : (numericText unscaled (scale + 1)).all Char.isDigit = false := by
        rw [List.all_eq_false]
        exact ⟨'.', point_mem_numericText unscaled scale, by decide⟩
      show (isDigits least most (numericText unscaled (scale + 1)) && _) = false
      unfold isDigits
      rw [hpoint, Bool.and_false, Bool.false_and]
    | zero =>
      show (isDigits least most (intText unscaled) && _) = decide (low ≤ unscaled ∧ unscaled ≤ high)
      cases unscaled with
      | negSucc n =>
        have hsign : (intText (Int.negSucc n)).all Char.isDigit = false :=
          List.all_eq_false.mpr ⟨'-', List.mem_cons_self, by decide⟩
        have hbelow : ¬(low ≤ Int.negSucc n ∧ Int.negSucc n ≤ high) := by
          have hneg := Int.negSucc_lt_zero n
          have hpos := h.positive
          omega
        unfold isDigits
        rw [hsign, Bool.and_false, Bool.false_and, decide_eq_false hbelow]
      | ofNat n =>
        have hvalue : decimalValue (Jsonb.number (Int.ofNat n) 0).text = n := decimalValue_intText n
        rw [hvalue]
        by_cases hbounds : low ≤ (n : ℤ) ∧ (n : ℤ) ≤ high
        · have hdigits : isDigits least most (natText n) = true := by
            refine isDigits_natText h.some_digit ?_ (by omega) ?_
            · intro hmore
              have hlow := (h.low hmore).trans hbounds.1
              exact_mod_cast hlow
            · have hhigh := lt_of_le_of_lt hbounds.2 h.high
              exact_mod_cast hhigh
          show (isDigits least most (natText n) && decide _) = decide (low ≤ (n : ℤ) ∧ (n : ℤ) ≤ high)
          rw [hdigits, Bool.true_and]
        · show (_ && decide (low ≤ (n : ℤ) ∧ (n : ℤ) ≤ high)) = decide (low ≤ (n : ℤ) ∧ (n : ℤ) ≤ high)
          rw [decide_eq_false hbounds, Bool.and_false]
  | bool b => cases b <;> rfl
  | _ => rfl

theorem fits_batchSize : FitsDigits 1 4 1 maxBatchSize := ⟨by decide, by decide, by decide, by decide⟩

theorem fits_maxItems : FitsDigits 1 6 1 maxWorkScopeItems := ⟨by decide, by decide, by decide, by decide⟩

theorem fits_year : FitsDigits 4 4 minModelYear maxModelYear := ⟨by decide, by decide, by decide, by decide⟩

/-- What is written with digits only is a number without a sign and a scale. -/
theorem decimalValue_of_isDigits {least most : ℕ} {unscaled : ℤ} {scale : ℕ}
    (h : isDigits least most (numericText unscaled scale) = true) :
    scale = 0 ∧ (decimalValue (numericText unscaled scale) : ℤ) = unscaled := by
  unfold isDigits at h
  rw [Bool.and_eq_true, List.all_eq_true] at h
  cases scale with
  | succ scale => exact absurd (h.2 '.' (point_mem_numericText unscaled scale)) (by decide)
  | zero =>
    cases unscaled with
    | negSucc n => exact absurd (h.2 '-' List.mem_cons_self) (by decide)
    | ofNat n => exact ⟨rfl, congrArg Nat.cast (decimalValue_intText n)⟩

variable {value : JsonDoc}

theorem yearHeld?_toJsonb (h : value.isReadable = true) :
    yearHeld? (some value.toJsonb) = yearStored? keptInteger? value := by
  cases value with
  | number literal =>
    have hheld := numberHeld_toJsonb fits_year (.number literal)
    have hkept : keptInteger? (.number literal) = if literal.numeric.2 = 0 then some literal.numeric.1 else none := rfl
    have hjsonb : (JsonDoc.number literal).toJsonb = .number literal.numeric.1 literal.numeric.2 := rfl
    have hstored : yearStored? keptInteger? (.number literal) =
        ((keptInteger? (.number literal)).filter fun z => decide (minModelYear ≤ z ∧ z ≤ maxModelYear)).map some := rfl
    unfold numberStored at hheld
    rw [hstored, hkept]
    rw [hkept, hjsonb] at hheld
    rw [hjsonb]
    generalize literal.numeric.1 = unscaled at *
    generalize literal.numeric.2 = scale at *
    show (if numberHeld 4 4 minModelYear maxModelYear (some (.number unscaled scale)) = true then
      some (some (decimalValue (numericText unscaled scale) : ℤ)) else none) = _
    by_cases hyes : numberHeld 4 4 minModelYear maxModelYear (some (.number unscaled scale)) = true
    · have hboth : (isDigits 4 4 (numericText unscaled scale) && _) = true := hyes
      have hdigits : isDigits 4 4 (numericText unscaled scale) = true := ((Bool.and_eq_true _ _).mp hboth).1
      obtain ⟨rfl, hvalue⟩ := decimalValue_of_isDigits hdigits
      rw [hheld] at hyes
      have hbounds : decide (minModelYear ≤ unscaled ∧ unscaled ≤ maxModelYear) = true := hyes
      rw [hheld, if_pos hyes, hvalue, if_pos rfl, Option.filter_some, if_pos hbounds]
      rfl
    · rw [if_neg hyes]
      rw [hheld] at hyes
      by_cases hscale : scale = 0
      · rw [if_pos hscale] at hyes ⊢
        rw [Option.filter_some, if_neg (show ¬decide (minModelYear ≤ unscaled ∧ unscaled ≤ maxModelYear) = true from hyes)]
        rfl
      · rw [if_neg hscale]
        rfl
  | constant => cases h
  | bool b => cases b <;> rfl
  | _ => rfl

/-! ## 4. Texts and lists -/

theorem versionHeld_toJsonb (value : JsonDoc) : versionHeld (some value.toJsonb) = versionStored value := by
  cases value with
  | str codes =>
    show decide (1 ≤ (charsOf codes).length ∧ (charsOf codes).length ≤ maxVersionChars) =
      decide (1 ≤ codes.length ∧ codes.length ≤ maxVersionChars)
    unfold charsOf
    rw [List.length_map]
  | bool b => cases b <;> rfl
  | _ => rfl

theorem not_letter_of_mem_numericText {unscaled : ℤ} {scale : ℕ} {c : Char} (h : c ∈ numericText unscaled scale) :
    c.isDigit = true ∨ c = '-' ∨ c = '.' := by
  cases scale with
  | zero =>
    rcases mem_intText h with hdigit | hsign
    · exact Or.inl hdigit
    · exact Or.inr (Or.inl hsign)
  | succ scale =>
    have hpadded : ∀ d ∈ paddedDigits unscaled.natAbs (scale + 1), d.isDigit = true := by
      intro d hd
      rcases List.mem_append.mp hd with hzero | hdigit
      · rw [(List.mem_replicate.mp hzero).2]
        decide
      · exact isDigit_of_mem_natText hdigit
    unfold numericText at h
    rcases List.mem_append.mp h with hsign | hbody
    · split at hsign
      · exact Or.inr (Or.inl (List.mem_singleton.mp hsign))
      · cases hsign
    · rcases List.mem_append.mp hbody with hwhole | hfraction
      · exact Or.inl (hpadded c (List.mem_of_mem_take hwhole))
      · rcases List.mem_cons.mp hfraction with hpoint | hrest
        · exact Or.inr (Or.inr hpoint)
        · exact Or.inl (hpadded c (List.mem_of_mem_drop hrest))

/-- Only a string is rendered as a text that is no other value's. -/
theorem rendered_toJsonb (h : value.isReadable = true) :
    decide (rendered (some value.toJsonb) = some workScopeContract) = isText workScopeContract value := by
  cases value with
  | str codes =>
    show decide (some (charsOf codes) = some workScopeContract) = decide (codes = points workScopeContract)
    rw [decide_eq_decide, Option.some.injEq]
    exact charsOf_eq_iff h
  | number literal =>
    have hne : rendered (some (JsonDoc.number literal).toJsonb) ≠ some workScopeContract := by
      intro heq
      have htext : numericText literal.numeric.1 literal.numeric.2 = workScopeContract := Option.some.inj heq
      have hletter : 'm' ∈ numericText literal.numeric.1 literal.numeric.2 := by
        rw [htext]
        decide
      exact absurd (not_letter_of_mem_numericText hletter) (by decide)
    exact decide_eq_false hne
  | bool b => cases b <;> decide
  | null => rfl
  | constant => rfl
  | arr items =>
    apply decide_eq_false
    intro heq
    exact absurd (List.cons.inj (Option.some.inj heq)).1 (by decide)
  | obj members =>
    apply decide_eq_false
    intro heq
    exact absurd (List.cons.inj (Option.some.inj heq)).1 (by decide)

theorem toJsonb_arr (items : List JsonDoc) : (JsonDoc.arr items).toJsonb = .arr (items.map JsonDoc.toJsonb) := by
  show Jsonb.arr (itemsToJsonb items) = _
  rw [itemsToJsonb_eq_map]

theorem readable_of_mem_arr {items : List JsonDoc} (h : (JsonDoc.arr items).isReadable = true) {item : JsonDoc}
    (hitem : item ∈ items) : item.isReadable = true := by
  have hall : everyItem NumberLiteral.hasRoom isStorable false items = true := h
  rw [everyItem_eq_all, List.all_eq_true] at hall
  exact hall item hitem

/-- A list of documents is a list of strings, or holds something else. -/
theorem strings_or_other (items : List JsonDoc) :
    (∃ keys : List (List ℕ), items = keys.map JsonDoc.str) ∨
      ∃ item ∈ items, stringOf? item = none ∧ isString item.toJsonb = false := by
  induction items with
  | nil => exact Or.inl ⟨[], rfl⟩
  | cons item items ih =>
    have hother : (∃ codes, item = .str codes) ∨ (stringOf? item = none ∧ isString item.toJsonb = false) := by
      cases item with
      | str codes => exact Or.inl ⟨codes, rfl⟩
      | bool b => cases b <;> exact Or.inr ⟨rfl, rfl⟩
      | _ => exact Or.inr ⟨rfl, rfl⟩
    rcases hother with ⟨codes, rfl⟩ | hother
    · rcases ih with ⟨keys, rfl⟩ | ⟨found, hfound, hnone⟩
      · exact Or.inl ⟨codes :: keys, rfl⟩
      · exact Or.inr ⟨found, List.mem_cons_of_mem _ hfound, hnone⟩
    · exact Or.inr ⟨item, List.mem_cons_self, hother⟩

theorem mapM_stringOf?_map (keys : List (List ℕ)) : (keys.map JsonDoc.str).mapM stringOf? = some keys := by
  induction keys with
  | nil => rfl
  | cons codes keys ih =>
    rw [List.map_cons, List.mapM_cons, ih]
    rfl

theorem mapM_stringOf?_none {items : List JsonDoc} {item : JsonDoc} (hitem : item ∈ items)
    (hnone : stringOf? item = none) : items.mapM stringOf? = none := by
  induction items with
  | nil => cases hitem
  | cons first items ih =>
    rw [List.mapM_cons]
    rcases List.mem_cons.mp hitem with rfl | hrest
    · rw [hnone]
      rfl
    · rw [ih hrest]
      cases stringOf? first <;> rfl

theorem textOf?_of_isStorable {codes : List ℕ} (h : isStorable codes = true) :
    textOf? codes = some (charsOf codes) := by
  have hvalid : (codes.all fun code => decide (Nat.isValidChar code)) = true := by
    rw [List.all_eq_true]
    intro code hcode
    have hboth := of_decide_eq_true (List.all_eq_true.mp h code hcode)
    exact decide_eq_true hboth.1
  unfold textOf?
  rw [if_pos hvalid]
  rfl

/-- Strings are distinct values exactly if their codes are. -/
theorem distinctCount_strings {keys : List (List ℕ)} (h : ∀ codes ∈ keys, isStorable codes = true) :
    distinctCount (keys.map fun codes => (JsonDoc.str codes).toJsonb) =
      (keys.map fun codes => (JsonDoc.str codes).toJsonb).length ↔ keys.Nodup := by
  have hlength : ∀ items : List Jsonb,
      distinctCount items = items.length ↔ items.Pairwise fun a b => a.same b = false := by
    intro items
    unfold distinctCount
    rw [← List.pwFilter_eq_self]
    constructor
    · exact (List.pwFilter_sublist items).eq_of_length
    · intro heq
      rw [heq]
  rw [hlength, List.pairwise_map]
  unfold List.Nodup
  constructor
  · intro hpair
    refine hpair.imp_of_mem ?_
    intro a b ha hb hsame heq
    have hdiffer : decide (charsOf a = charsOf b) = false := hsame
    exact (of_decide_eq_false hdiffer) (congrArg charsOf heq)
  · intro hpair
    refine hpair.imp_of_mem ?_
    intro a b ha hb hne
    show decide (charsOf a = charsOf b) = false
    apply decide_eq_false
    intro heq
    apply hne
    rw [← points_charsOf (h a ha), heq, points_charsOf (h b hb)]

theorem unitsHeld_toJsonb (h : value.isReadable = true) : unitsHeld (some value.toJsonb) = unitsStored value := by
  cases value with
  | arr items =>
    rw [toJsonb_arr]
    show (decide (1 ≤ (items.map JsonDoc.toJsonb).length ∧ (items.map JsonDoc.toJsonb).length ≤ maxStoredUnits) &&
      (items.map JsonDoc.toJsonb).all (fun item => isString item && (rendered (some item)).any isUnitKey) &&
      decide (distinctCount (items.map JsonDoc.toJsonb) = (items.map JsonDoc.toJsonb).length)) =
      (decide (1 ≤ items.length ∧ items.length ≤ maxStoredUnits) &&
        (items.mapM stringOf?).any fun keys =>
          keys.all (fun codes => (textOf? codes).any isUnitKey) && decide keys.Nodup)
    rcases strings_or_other items with ⟨keys, rfl⟩ | ⟨item, hitem, hnone, hstring⟩
    · have hstorable : ∀ codes ∈ keys, isStorable codes = true := fun codes hcodes =>
        readable_of_mem_arr h (List.mem_map_of_mem hcodes)
      have hall : (keys.map JsonDoc.str |>.map JsonDoc.toJsonb).all
          (fun item => isString item && (rendered (some item)).any isUnitKey) =
            keys.all fun codes => (textOf? codes).any isUnitKey := by
        rw [List.map_map, List.all_map]
        apply Bool.eq_iff_iff.mpr
        rw [List.all_eq_true, List.all_eq_true]
        refine forall₂_congr fun codes hcodes => ?_
        rw [textOf?_of_isStorable (hstorable codes hcodes)]
        rfl
      have hcount := distinctCount_strings hstorable
      rw [mapM_stringOf?_map, hall, List.map_map, List.length_map, List.length_map]
      rw [List.length_map] at hcount
      show _ = (decide _ && (keys.all _ && decide keys.Nodup))
      rw [← Bool.and_assoc]
      congr 1
      exact decide_eq_decide.mpr hcount
    · have hfalse : (items.map JsonDoc.toJsonb).all
          (fun item => isString item && (rendered (some item)).any isUnitKey) = false := by
        rw [List.all_eq_false]
        refine ⟨item.toJsonb, List.mem_map_of_mem hitem, ?_⟩
        rw [hstring, Bool.false_and]
        decide
      rw [mapM_stringOf?_none hitem hnone, hfalse, Bool.and_false, Bool.false_and, Option.any_none, Bool.and_false]
  | bool b => cases b <;> rfl
  | _ => rfl

/-! ## 5. Objects -/

section Objects

variable {members : List (List ℕ × JsonDoc)}

theorem exists_lastMember {key : Text} (h : points key ∈ members.map Prod.fst) :
    ∃ value, lastMember members key = some value := by
  unfold lastMember
  rw [← Option.isSome_iff_exists, List.lookup_isSome_iff]
  obtain ⟨entry, hentry, heq⟩ := List.mem_map.mp h
  exact ⟨entry, List.mem_reverse.mpr hentry, beq_iff_eq.mpr heq.symm⟩

theorem exists_of_hasKeys {keys : List Text} (h : hasKeys members keys = true) {key : Text} (hkey : key ∈ keys) :
    ∃ value, lastMember members key = some value := by
  unfold hasKeys at h
  exact exists_lastMember ((of_decide_eq_true h).1 key hkey)

theorem keysAre_toJsonb (h : (JsonDoc.obj members).isReadable = true) {keys : List Text} (hkeys : keys.Nodup)
    (hsorted : keys.Pairwise fun a b => keyLE a b = true) :
    keysAre (JsonDoc.obj members).toJsonb.objectKeys keys = hasKeys members keys := by
  apply Bool.eq_iff_iff.mpr
  rw [keysAre_iff (nodup_objectKeys _) hkeys hsorted, hasKeys_iff fun codes => exists_text_of_key h]
  exact forall_congr' fun key => by rw [mem_objectKeys h]

theorem keysAre_filter (h : (JsonDoc.obj members).isReadable = true) :
    keysAre ((JsonDoc.obj members).toJsonb.objectKeys.filter fun key => decide (key ≠ includeUnresolvedKey))
        recordKeys =
      hasKeys (members.filter fun entry => decide (entry.1 ≠ points includeUnresolvedKey)) recordKeys := by
  have htexts : ∀ codes ∈ (members.filter fun entry => decide (entry.1 ≠ points includeUnresolvedKey)).map Prod.fst,
      ∃ text, codes = points text := by
    intro codes hcodes
    obtain ⟨entry, hentry, rfl⟩ := List.mem_map.mp hcodes
    exact exists_text_of_key h (List.mem_map_of_mem (List.mem_of_mem_filter hentry))
  apply Bool.eq_iff_iff.mpr
  rw [keysAre_iff ((nodup_objectKeys _).filter _) (by decide) (by decide), hasKeys_iff htexts]
  refine forall_congr' fun key => ?_
  rw [List.mem_filter, mem_objectKeys h, decide_eq_true_eq]
  have hfilter : points key ∈ (members.filter fun entry => decide (entry.1 ≠ points includeUnresolvedKey)).map Prod.fst ↔
      points key ∈ members.map Prod.fst ∧ key ≠ includeUnresolvedKey := by
    constructor
    · intro hmem
      obtain ⟨entry, hentry, heq⟩ := List.mem_map.mp hmem
      rw [List.mem_filter, decide_eq_true_eq] at hentry
      refine ⟨List.mem_map.mpr ⟨entry, hentry.1, heq⟩, ?_⟩
      rintro rfl
      exact hentry.2 heq
    · rintro ⟨hmem, hne⟩
      obtain ⟨entry, hentry, heq⟩ := List.mem_map.mp hmem
      refine List.mem_map.mpr ⟨entry, List.mem_filter.mpr ⟨hentry, decide_eq_true ?_⟩, heq⟩
      rw [heq]
      exact fun hsame => hne (points_injective hsame)
  rw [hfilter]

theorem same_true (value : JsonDoc) : value.toJsonb.same (.bool true) = isTrue value := by
  cases value with
  | bool b => cases b <;> rfl
  | _ => rfl

variable {value : JsonDoc}

theorem yearsHeld_toJsonb (h : value.isReadable = true) :
    yearsHeld (some value.toJsonb) = yearsStored keptInteger? value := by
  cases value with
  | obj years =>
    show (true && keysAre (JsonDoc.obj years).toJsonb.objectKeys yearKeys &&
      inOrder (yearHeld? ((JsonDoc.obj years).toJsonb.member? "from".toList))
        (yearHeld? ((JsonDoc.obj years).toJsonb.member? "to".toList))) =
      (hasKeys years yearKeys &&
        inOrder (yearStored? keptInteger? (item years "from")) (yearStored? keptInteger? (item years "to")))
    rw [Bool.true_and, keysAre_toJsonb h (by decide) (by decide), member?_toJsonb h, member?_toJsonb h]
    cases hkeys : hasKeys years yearKeys with
    | false => rfl
    | true =>
      obtain ⟨first, hfirst⟩ := exists_of_hasKeys hkeys (show "from".toList ∈ yearKeys by decide)
      obtain ⟨last, hlast⟩ := exists_of_hasKeys hkeys (show "to".toList ∈ yearKeys by decide)
      unfold item
      rw [hfirst, hlast, Option.map_some, Option.map_some, yearHeld?_toJsonb (isReadable_lastMember h hfirst),
        yearHeld?_toJsonb (isReadable_lastMember h hlast)]
      rfl
  | bool b => cases b <;> rfl
  | _ => rfl

/-- Only the string itself is the same value as a string. -/
theorem same_str_iff {value : Jsonb} {text : Text} : value.same (.str text) = true ↔ value = .str text := by
  cases value with
  | str s =>
    show decide (s = text) = true ↔ _
    rw [decide_eq_true_eq, Jsonb.str.injEq]
  | bool b =>
    constructor
    · intro h
      cases h
    · intro h
      cases h
  | _ =>
    constructor
    · intro h
      cases h
    · intro h
      cases h

theorem sameMembers_strings_iff {found : List (Text × Jsonb)} {entries : List (Text × Text)} :
    Jsonb.sameMembers found (entries.map fun entry => (entry.1, .str entry.2)) = true ↔
      found = entries.map fun entry => (entry.1, .str entry.2) := by
  induction entries generalizing found with
  | nil =>
    cases found with
    | nil => exact ⟨fun _ => rfl, fun _ => rfl⟩
    | cons entry found =>
      constructor
      · intro h
        cases h
      · intro h
        cases h
  | cons entry entries ih =>
    cases found with
    | nil =>
      constructor
      · intro h
        cases h
      · intro h
        cases h
    | cons first found =>
      obtain ⟨key, value⟩ := first
      rw [List.map_cons, List.cons.injEq, Prod.mk.injEq, ← ih, ← same_str_iff]
      show (decide (key = entry.1) && value.same (.str entry.2) && Jsonb.sameMembers found _) = true ↔ _
      rw [Bool.and_eq_true, Bool.and_eq_true, decide_eq_true_eq]

/-- Lists of the same distinct keys with the same values are the same. -/
theorem eq_of_lookup {l l' : List (Text × Jsonb)} (hkeys : l.map Prod.fst = l'.map Prod.fst)
    (hnodup : (l.map Prod.fst).Nodup) (h : ∀ key ∈ l.map Prod.fst, l.lookup key = l'.lookup key) : l = l' := by
  have hsub : ∀ entry ∈ l, entry ∈ l' := by
    intro entry hentry
    have hfound := (Dict.lookup_eq_some_iff_mem hnodup).mpr hentry
    rw [h entry.1 (List.mem_map_of_mem hentry)] at hfound
    exact (Dict.lookup_eq_some_iff_mem (hkeys ▸ hnodup)).mp hfound
  clear h
  induction l generalizing l' with
  | nil =>
    cases l' with
    | nil => rfl
    | cons entry l' => cases hkeys
  | cons entry l ih =>
    cases l' with
    | nil => cases hkeys
    | cons entry' l' =>
      rw [List.map_cons, List.map_cons, List.cons.injEq] at hkeys
      have hnodup' := hnodup
      rw [List.map_cons, List.nodup_cons] at hnodup
      have hhead : entry = entry' := by
        rcases List.mem_cons.mp (hsub entry List.mem_cons_self) with heq | hrest
        · exact heq
        · have hkey : entry.1 ∈ l.map Prod.fst := by
            rw [hkeys.2]
            exact List.mem_map_of_mem hrest
          exact absurd hkey hnodup.1
      subst hhead
      congr 1
      refine ih hkeys.2 hnodup.2 ?_
      intro found hfound
      rcases List.mem_cons.mp (hsub found (List.mem_cons_of_mem _ hfound)) with heq | hrest
      · exact absurd (heq ▸ List.mem_map_of_mem hfound) hnodup.1
      · exact hrest

theorem isText_iff (h : value.isReadable = true) {text : Text} :
    isText text value = true ↔ value.toJsonb = .str text := by
  cases value with
  | str codes =>
    show decide (codes = points text) = true ↔ Jsonb.str (charsOf codes) = .str text
    rw [decide_eq_true_eq, Jsonb.str.injEq]
    exact (charsOf_eq_iff h).symm
  | bool b =>
    constructor
    · intro h
      cases h
    · intro h
      cases b <;> cases h
  | _ =>
    constructor
    · intro h
      cases h
    · intro h
      cases h

/-- The kept members are the entries exactly if the keys are theirs and each key has its text. -/
theorem keptMembers_eq_source (h : (JsonDoc.obj members).isReadable = true) :
    keptMembers (membersToJsonb members) = workScopeSource.map (fun entry => (entry.1, .str entry.2)) ↔
      isSource (.obj members) = true := by
  have hlookup : ∀ key, (keptMembers (membersToJsonb members)).lookup key =
      (lastMember members key).map JsonDoc.toJsonb := fun key => member?_toJsonb h
  have hmem : ∀ key, key ∈ (keptMembers (membersToJsonb members)).map Prod.fst ↔ points key ∈ members.map Prod.fst :=
    fun key => mem_objectKeys h
  have htarget : ∀ entry ∈ workScopeSource, (workScopeSource.map fun entry : Text × Text =>
      (entry.1, Jsonb.str entry.2)).lookup entry.1 = some (.str entry.2) := by
    intro entry hentry
    have hnodup : ((workScopeSource.map fun entry : Text × Text => (entry.1, Jsonb.str entry.2)).map Prod.fst).Nodup := by
      rw [List.map_map]
      show (workScopeSource.map Prod.fst).Nodup
      decide
    exact (Dict.lookup_eq_some_iff_mem hnodup).mpr (List.mem_map_of_mem hentry)
  have hkeysOf : (workScopeSource.map fun entry : Text × Text => (entry.1, Jsonb.str entry.2)).map Prod.fst =
      workScopeSource.map Prod.fst := by
    rw [List.map_map]
    rfl
  unfold isSource
  rw [Bool.and_eq_true, hasKeys_iff fun codes => exists_text_of_key h, List.all_eq_true]
  constructor
  · intro heq
    have hkeys : ∀ key, points key ∈ members.map Prod.fst ↔ key ∈ workScopeSource.map Prod.fst := by
      intro key
      rw [← hmem key, heq, hkeysOf]
    refine ⟨hkeys, ?_⟩
    intro entry hentry
    obtain ⟨value, hvalue⟩ := exists_lastMember ((hkeys entry.1).mpr (List.mem_map_of_mem hentry))
    have hfound := hlookup entry.1
    rw [heq, htarget entry hentry, hvalue, Option.map_some, Option.some.injEq] at hfound
    rw [hvalue]
    exact (isText_iff (isReadable_lastMember h hvalue)).mpr hfound.symm
  · rintro ⟨hkeys, htexts⟩
    have hperm := List.perm_insertionSort (fun a b : Text × Jsonb => jsonbKeyLE a.1 b.1 = true)
      (Dict.ofList (membersToJsonb members)).entries
    -- Both lists hold the same distinct keys in the one order of keys.
    have hsorted : ((keptMembers (membersToJsonb members)).map Prod.fst).Pairwise fun a b => jsonbKeyLE a b = true := by
      have htotal : Std.Total fun a b : Text × Jsonb => jsonbKeyLE a.1 b.1 = true :=
        ⟨fun a b => jsonbKeyLE_total a.1 b.1⟩
      have htrans : IsTrans (Text × Jsonb) fun a b => jsonbKeyLE a.1 b.1 = true :=
        ⟨fun _ _ _ hab hbc => jsonbKeyLE_trans hab hbc⟩
      rw [List.pairwise_map]
      exact List.pairwise_insertionSort _ _
    have hsame : (keptMembers (membersToJsonb members)).map Prod.fst = workScopeSource.map Prod.fst := by
      have hall : ∀ key, key ∈ (keptMembers (membersToJsonb members)).map Prod.fst ↔
          key ∈ workScopeSource.map Prod.fst := fun key => (hmem key).trans (hkeys key)
      have hnodup : (workScopeSource.map Prod.fst).Nodup := by decide
      have hsource : (workScopeSource.map Prod.fst).Pairwise fun a b => jsonbKeyLE a b = true := by decide
      exact ((List.perm_ext_iff_of_nodup (nodup_kept _) hnodup).mpr hall).eq_of_pairwise
        (fun a b _ _ hab hba => jsonbKeyLE_antisymm hab hba) hsorted hsource
    apply eq_of_lookup (hsame.trans hkeysOf.symm) (nodup_kept _)
    intro key hkey
    rw [hsame] at hkey
    obtain ⟨entry, hentry, rfl⟩ := List.mem_map.mp hkey
    obtain ⟨value, hvalue⟩ := exists_lastMember ((hkeys entry.1).mpr (List.mem_map_of_mem hentry))
    have htext := htexts entry hentry
    rw [hvalue] at htext
    rw [hlookup, hvalue, Option.map_some, (isText_iff (isReadable_lastMember h hvalue)).mp htext, htarget entry hentry]

theorem sameValue_source (h : value.isReadable = true) :
    sameValue (some value.toJsonb) (some sourceObject) = isSource value := by
  cases value with
  | obj members =>
    apply Bool.eq_iff_iff.mpr
    rw [← keptMembers_eq_source h, ← sameMembers_strings_iff]
    rfl
  | bool b => cases b <;> rfl
  | _ => rfl

end Objects

/-! ## 6. The two checks -/

/-- The database checks the shape, its whole numbers read by value. -/
theorem catalogWorkScopeRecordValid_toJsonb {doc : JsonDoc} (h : doc.isReadable = true) :
    catalogWorkScopeRecordValid doc.toJsonb = recordShape keptInteger? doc := by
  cases doc with
  | obj members =>
    show (true && keysAre _ recordKeys && ((JsonDoc.obj members).toJsonb.member? includeUnresolvedKey).all _ && _ &&
      _ && _ && _ && _ && _ && _) = (recordKeysValid members && _ && _ && _ && _ && _ && _ && _)
    rw [Bool.true_and, keysAre_filter h]
    have hoptional : ((JsonDoc.obj members).toJsonb.member? includeUnresolvedKey).all
        (fun value => value.same (.bool true)) = (lastMember members includeUnresolvedKey).all isTrue := by
      rw [member?_toJsonb h]
      cases lastMember members includeUnresolvedKey with
      | none => rfl
      | some value => exact same_true value
    rw [hoptional]
    cases hkeys : recordKeysValid members with
    | false =>
      unfold recordKeysValid at hkeys
      rw [hkeys]
      simp only [Bool.false_and]
    | true =>
      have hvalid := hkeys
      unfold recordKeysValid at hvalid
      rw [hvalid]
      have hhas := ((Bool.and_eq_true _ _).mp hvalid).1
      have hread : ∀ key : String, key.toList ∈ recordKeys →
          (JsonDoc.obj members).toJsonb.member? key.toList = some (item members key).toJsonb ∧
            (item members key).isReadable = true := by
        intro key hkey
        unfold hasKeys at hhas
        obtain ⟨entry, hentry, heq⟩ := List.mem_map.mp ((of_decide_eq_true hhas).1 key.toList hkey)
        obtain ⟨value, hvalue⟩ := exists_lastMember
          (List.mem_map.mpr ⟨entry, List.mem_of_mem_filter hentry, heq⟩ : points key.toList ∈ members.map Prod.fst)
        have hitem : item members key = value := by
          unfold item
          rw [hvalue]
          rfl
        rw [member?_toJsonb h, hvalue, hitem]
        exact ⟨rfl, isReadable_lastMember h hvalue⟩
      have hcontract := hread "contract" (by decide)
      have hsource := hread "source" (by decide)
      have hversion := hread "directory_version" (by decide)
      have hbatch := hread "batch_size" (by decide)
      have hmax := hread "max_items" (by decide)
      have hunits := hread "units" (by decide)
      have hyears := hread "model_years" (by decide)
      rw [hcontract.1, hsource.1, hversion.1, hbatch.1, hmax.1, hunits.1, hyears.1, rendered_toJsonb hcontract.2,
        sameValue_source hsource.2, versionHeld_toJsonb, numberHeld_toJsonb fits_batchSize,
        numberHeld_toJsonb fits_maxItems, unitsHeld_toJsonb hunits.2, yearsHeld_toJsonb hyears.2]
  | bool b => cases b <;> rfl
  | _ => rfl

end Milo.Scope
