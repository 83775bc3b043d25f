import Milo.Python.Documents
import Milo.Python.JsonReader
import Milo.Reasoning.Grouping

/-!
# JsonbReader — what the database makes of a JSON document

`text::jsonb` refuses a document that holds a NUL, half of a pair, or a number it has no room for.  Of
two members of one key it keeps the last, and it keeps the members in an order of its own; a number
keeps its value and its scale, not its spelling.
-/

namespace Milo.Python

open Milo.Reasoning

/-! ## 1. Numbers -/

/-- The digits of a number without its point. -/
def NumberLiteral.mantissa (literal : NumberLiteral) : ℕ :=
  Nat.ofDigitChars 10 (literal.fraction.getD []) literal.whole

/-- How far the point stands to the left of the last digit, its exponent counted in. -/
def NumberLiteral.shift (literal : NumberLiteral) : ℤ :=
  (literal.fraction.getD []).length - literal.exponent.getD 0

/-- The number as `numeric` keeps it: unscaled, and its scale. -/
def NumberLiteral.numeric (literal : NumberLiteral) : ℤ × ℕ :=
  let magnitude : ℕ := literal.mantissa * 10 ^ (-literal.shift).toNat
  (if literal.negative then -(magnitude : ℤ) else magnitude, literal.shift.toNat)

/-- `numeric` has room for 131072 digits before the point and 16383 after it. -/
def NumberLiteral.hasRoom (literal : NumberLiteral) : Bool :=
  decide (literal.shift ≤ 16383) &&
    decide (literal.mantissa = 0 ∨ ((natText literal.mantissa).length : ℤ) - literal.shift ≤ 131072)

/-! ## 2. Documents -/

/-- No NUL and no half of a pair. -/
def isStorable (codes : List ℕ) : Bool := codes.all fun code => decide (Nat.isValidChar code ∧ code ≠ 0)

/-- The text of codes that are characters. -/
def charsOf (codes : List ℕ) : List Char := codes.map Char.ofNat

/-- `text::jsonb` does not raise. -/
def JsonDoc.isReadable (doc : JsonDoc) : Bool := doc.every NumberLiteral.hasRoom isStorable false

/-- The order in which an object keeps its keys: shorter ones first, in bytes. -/
def jsonbKeyLE (a b : List Char) : Bool :=
  let bytes : List Char → ℕ := fun key => (key.map Char.utf8Size).sum
  decide (bytes a < bytes b) || (decide (bytes a = bytes b) && keyLE a b)

/-- The members of an object: of each key the last value. -/
def keptMembers (members : List (List Char × Jsonb)) : List (List Char × Jsonb) :=
  (Dict.ofList members).entries.insertionSort fun a b => jsonbKeyLE a.1 b.1

mutual

def JsonDoc.toJsonb : JsonDoc → Jsonb
  | .null => .null
  | .bool b => .bool b
  | .constant => .null
  | .number literal => .number literal.numeric.1 literal.numeric.2
  | .str codes => .str (charsOf codes)
  | .arr items => .arr (itemsToJsonb items)
  | .obj members => .obj (keptMembers (membersToJsonb members))

def itemsToJsonb : List JsonDoc → List Jsonb
  | [] => []
  | item :: items => item.toJsonb :: itemsToJsonb items

def membersToJsonb : List (List ℕ × JsonDoc) → List (List Char × Jsonb)
  | [] => []
  | (key, value) :: members => (charsOf key, value.toJsonb) :: membersToJsonb members

end

/-- `text::jsonb` of the document of a text. -/
def JsonDoc.readJsonb (doc : JsonDoc) : Option Jsonb := if doc.isReadable then some doc.toJsonb else none

/-- `jsonb_object_keys`. -/
def Jsonb.objectKeys : Jsonb → List (List Char)
  | .obj members => members.map Prod.fst
  | _ => []

/-! ## 3. Members and keys -/

theorem itemsToJsonb_eq_map (items : List JsonDoc) : itemsToJsonb items = items.map JsonDoc.toJsonb := by
  induction items with
  | nil => rfl
  | cons item items ih => rw [itemsToJsonb, ih, List.map_cons]

theorem membersToJsonb_eq_map (members : List (List ℕ × JsonDoc)) :
    membersToJsonb members = members.map fun entry => (charsOf entry.1, entry.2.toJsonb) := by
  induction members with
  | nil => rfl
  | cons entry members ih => rw [membersToJsonb, ih, List.map_cons]

theorem jsonbKeyLE_total (a b : List Char) : jsonbKeyLE a b = true ∨ jsonbKeyLE b a = true := by
  unfold jsonbKeyLE
  simp only [Bool.or_eq_true, Bool.and_eq_true, decide_eq_true_eq]
  rcases lt_trichotomy (a.map Char.utf8Size).sum (b.map Char.utf8Size).sum with h | h | h
  · exact Or.inl (Or.inl h)
  · rcases keyLE_total a b with hle | hle
    · exact Or.inl (Or.inr ⟨h, hle⟩)
    · exact Or.inr (Or.inr ⟨h.symm, hle⟩)
  · exact Or.inr (Or.inl h)

theorem jsonbKeyLE_trans {a b c : List Char} (hab : jsonbKeyLE a b = true) (hbc : jsonbKeyLE b c = true) :
    jsonbKeyLE a c = true := by
  unfold jsonbKeyLE at *
  simp only [Bool.or_eq_true, Bool.and_eq_true, decide_eq_true_eq] at *
  rcases hab with hab | ⟨hab, hle⟩
  · rcases hbc with hbc | ⟨hbc, _⟩
    · exact Or.inl (hab.trans hbc)
    · exact Or.inl (hbc ▸ hab)
  · rcases hbc with hbc | ⟨hbc, hle'⟩
    · exact Or.inl (hab ▸ hbc)
    · exact Or.inr ⟨hab.trans hbc, keyLE_trans hle hle'⟩

theorem jsonbKeyLE_antisymm {a b : List Char} (hab : jsonbKeyLE a b = true) (hba : jsonbKeyLE b a = true) :
    a = b := by
  unfold jsonbKeyLE at *
  simp only [Bool.or_eq_true, Bool.and_eq_true, decide_eq_true_eq] at *
  rcases hab with hab | ⟨heq, hle⟩
  · rcases hba with hba | ⟨hba, _⟩
    · exact absurd (hab.trans hba) (lt_irrefl _)
    · exact absurd hab (hba ▸ lt_irrefl _)
  · rcases hba with hba | ⟨_, hle'⟩
    · exact absurd hba (heq ▸ lt_irrefl _)
    · exact keyLE_antisymm hle hle'

/-- A list of distinct items, sorted, is the sorted list of the same items. -/
theorem insertionSort_eq_iff {α : Type} {le : α → α → Bool} (htotal : ∀ a b, le a b = true ∨ le b a = true)
    (htrans : ∀ a b c, le a b = true → le b c = true → le a c = true)
    (hantisymm : ∀ a b, le a b = true → le b a = true → a = b) {items target : List α} (hitems : items.Nodup)
    (htarget : target.Nodup) (hsorted : target.Pairwise fun a b => le a b = true) :
    items.insertionSort (fun a b => le a b = true) = target ↔ ∀ a, a ∈ items ↔ a ∈ target := by
  have htotal' : Std.Total fun a b => le a b = true := ⟨htotal⟩
  have htrans' : IsTrans α fun a b => le a b = true := ⟨htrans⟩
  have hperm := List.perm_insertionSort (fun a b => le a b = true) items
  constructor
  · intro heq a
    rw [← heq]
    exact hperm.mem_iff.symm
  · intro hmem
    have hsame : items.Perm target := (List.perm_ext_iff_of_nodup hitems htarget).mpr hmem
    exact (hperm.trans hsame).eq_of_pairwise (fun a b _ _ hab hba => hantisymm a b hab hba)
      (List.pairwise_insertionSort _ items) hsorted

theorem get?_setAll {pairs : List (List Char × Jsonb)} (d : Dict (List Char) Jsonb) (key : List Char) :
    (d.setAll pairs).get? key = (pairs.reverse.lookup key).or (d.get? key) := by
  induction pairs generalizing d with
  | nil => rfl
  | cons entry pairs ih =>
    show ((d.set entry.1 entry.2).setAll pairs).get? key = _
    rw [ih, List.reverse_cons, List.lookup_append, Option.or_assoc]
    congr 1
    obtain ⟨key', value⟩ := entry
    by_cases hkey : key = key'
    · subst hkey
      rw [Dict.get?_set_self, List.lookup_cons_self]
      rfl
    · rw [Dict.get?_set_ne d value hkey, List.lookup_cons, beq_false_of_ne hkey]
      rfl

theorem nodup_kept (members : List (List Char × Jsonb)) : ((keptMembers members).map Prod.fst).Nodup := by
  have hperm := List.perm_insertionSort (fun a b : List Char × Jsonb => jsonbKeyLE a.1 b.1 = true)
    (Dict.ofList members).entries
  exact (hperm.map Prod.fst).nodup_iff.mpr (Dict.ofList members).nodup

theorem lookup_keptMembers (members : List (List Char × Jsonb)) (key : List Char) :
    (keptMembers members).lookup key = members.reverse.lookup key := by
  have hperm := List.perm_insertionSort (fun a b : List Char × Jsonb => jsonbKeyLE a.1 b.1 = true)
    (Dict.ofList members).entries
  have hsame : (keptMembers members).lookup key = (Dict.ofList members).get? key := by
    ext value
    rw [Dict.get?_eq_some, Dict.lookup_eq_some_iff_mem (nodup_kept members)]
    exact hperm.mem_iff
  rw [hsame]
  unfold Dict.ofList
  rw [get?_setAll, Dict.get?_empty, Option.or_none]

theorem mem_keys_keptMembers {members : List (List Char × Jsonb)} {key : List Char} :
    key ∈ (keptMembers members).map Prod.fst ↔ key ∈ members.map Prod.fst := by
  have hperm := List.perm_insertionSort (fun a b : List Char × Jsonb => jsonbKeyLE a.1 b.1 = true)
    (Dict.ofList members).entries
  have hkeys : key ∈ (keptMembers members).map Prod.fst ↔ key ∈ (Dict.ofList members).keys :=
    (hperm.map Prod.fst).mem_iff
  rw [hkeys]
  unfold Dict.ofList
  rw [Dict.mem_keys_setAll]
  exact or_iff_left List.not_mem_nil

/-! ## 4. Reading a document as Python and as the database -/

theorem charsOf_points (text : List Char) : charsOf (points text) = text := by
  unfold charsOf points
  rw [List.map_map]
  have hid : Char.ofNat ∘ Char.toNat = id := funext Char.ofNat_toNat
  rw [hid, List.map_id]

theorem points_charsOf {codes : List ℕ} (h : isStorable codes = true) : points (charsOf codes) = codes := by
  unfold isStorable at h
  unfold points charsOf
  rw [List.map_map]
  nth_rewrite 2 [← List.map_id codes]
  apply List.map_congr_left
  intro code hcode
  have hvalid := of_decide_eq_true (List.all_eq_true.mp h code hcode)
  show (Char.ofNat code).toNat = code
  rw [Char.toNat_ofNat, if_pos hvalid.1]

theorem charsOf_eq_iff {codes : List ℕ} (h : isStorable codes = true) {text : List Char} :
    charsOf codes = text ↔ codes = points text := by
  constructor
  · intro heq
    rw [← heq, points_charsOf h]
  · intro heq
    rw [heq, charsOf_points]

section Readable

variable {members : List (List ℕ × JsonDoc)} {key : List Char}

theorem storable_of_mem (h : (JsonDoc.obj members).isReadable = true) {entry : List ℕ × JsonDoc}
    (hentry : entry ∈ members) : isStorable entry.1 = true ∧ entry.2.isReadable = true := by
  have hall : everyMember NumberLiteral.hasRoom isStorable false members = true := h
  rw [everyMember_eq_all, List.all_eq_true] at hall
  have hboth := hall entry hentry
  rw [Bool.and_eq_true] at hboth
  exact hboth

theorem lookup_toJsonb {entries : List (List ℕ × JsonDoc)}
    (h : ∀ entry ∈ entries, isStorable entry.1 = true) :
    (entries.map fun entry => (charsOf entry.1, entry.2.toJsonb)).lookup key =
      (entries.lookup (points key)).map JsonDoc.toJsonb := by
  induction entries with
  | nil => rfl
  | cons entry entries ih =>
    obtain ⟨codes, value⟩ := entry
    rw [List.forall_mem_cons] at h
    rw [List.map_cons, List.lookup_cons, List.lookup_cons, ih h.2]
    by_cases hkey : codes = points key
    · have hchars : key = charsOf codes := ((charsOf_eq_iff h.1).mpr hkey).symm
      rw [beq_iff_eq.mpr hchars, beq_iff_eq.mpr hkey.symm]
      rfl
    · have hchars : key ≠ charsOf codes := fun heq => hkey ((charsOf_eq_iff h.1).mp heq.symm)
      rw [beq_false_of_ne hchars, beq_false_of_ne (Ne.symm hkey)]

theorem member?_toJsonb (h : (JsonDoc.obj members).isReadable = true) :
    (JsonDoc.obj members).toJsonb.member? key = (lastMember members key).map JsonDoc.toJsonb := by
  show (keptMembers (membersToJsonb members)).lookup key = _
  rw [lookup_keptMembers, membersToJsonb_eq_map, ← List.map_reverse]
  apply lookup_toJsonb
  intro entry hentry
  exact (storable_of_mem h (List.mem_reverse.mp hentry)).1

theorem isReadable_lastMember (h : (JsonDoc.obj members).isReadable = true) {value : JsonDoc}
    (hvalue : lastMember members key = some value) : value.isReadable = true := by
  have hmem : (points key, value) ∈ members.reverse := by
    obtain ⟨before, after, heq, _⟩ := List.lookup_eq_some_iff.mp hvalue
    rw [heq]
    exact List.mem_append_right _ List.mem_cons_self
  exact (storable_of_mem h (List.mem_reverse.mp hmem)).2

theorem mem_objectKeys (h : (JsonDoc.obj members).isReadable = true) :
    key ∈ (JsonDoc.obj members).toJsonb.objectKeys ↔ points key ∈ members.map Prod.fst := by
  show key ∈ (keptMembers (membersToJsonb members)).map Prod.fst ↔ _
  rw [mem_keys_keptMembers, membersToJsonb_eq_map, List.map_map]
  constructor
  · intro hkey
    obtain ⟨entry, hentry, heq⟩ := List.mem_map.mp hkey
    have hcodes := (charsOf_eq_iff (storable_of_mem h hentry).1).mp heq
    exact List.mem_map.mpr ⟨entry, hentry, hcodes⟩
  · intro hkey
    obtain ⟨entry, hentry, heq⟩ := List.mem_map.mp hkey
    have hchars := (charsOf_eq_iff (storable_of_mem h hentry).1).mpr heq
    exact List.mem_map.mpr ⟨entry, hentry, hchars⟩

theorem nodup_objectKeys (doc : JsonDoc) : doc.toJsonb.objectKeys.Nodup := by
  cases doc with
  | obj members => exact nodup_kept _
  | _ => exact List.nodup_nil

theorem exists_text_of_key (h : (JsonDoc.obj members).isReadable = true) {codes : List ℕ}
    (hcodes : codes ∈ members.map Prod.fst) : ∃ text, codes = points text := by
  obtain ⟨entry, hentry, rfl⟩ := List.mem_map.mp hcodes
  exact ⟨charsOf entry.1, (points_charsOf (storable_of_mem h hentry).1).symm⟩

/-- `array_agg(key order by key collate "C") = keys`, for keys in that order. -/
def keysAre (found keys : List (List Char)) : Bool :=
  decide (found.insertionSort (fun a b => keyLE a b = true) = keys)

theorem keysAre_iff {found keys : List (List Char)} (hfound : found.Nodup) (hkeys : keys.Nodup)
    (hsorted : keys.Pairwise fun a b => keyLE a b = true) :
    keysAre found keys = true ↔ ∀ key, key ∈ found ↔ key ∈ keys := by
  unfold keysAre
  rw [decide_eq_true_eq]
  exact insertionSort_eq_iff keyLE_total (fun _ _ _ hab hbc => keyLE_trans hab hbc)
    (fun _ _ hab hba => keyLE_antisymm hab hba) hfound hkeys hsorted

theorem hasKeys_iff {keys : List (List Char)} (htexts : ∀ codes ∈ members.map Prod.fst, ∃ text, codes = points text) :
    hasKeys members keys = true ↔ ∀ key, points key ∈ members.map Prod.fst ↔ key ∈ keys := by
  unfold hasKeys
  rw [decide_eq_true_eq]
  constructor
  · rintro ⟨hall, hknown⟩ key
    refine ⟨?_, hall key⟩
    intro hkey
    obtain ⟨key', hkey', heq⟩ := List.mem_map.mp (hknown _ hkey)
    rw [← points_injective heq]
    exact hkey'
  · intro h
    refine ⟨fun key hkey => (h key).mpr hkey, ?_⟩
    intro codes hcodes
    obtain ⟨text, rfl⟩ := htexts codes hcodes
    exact List.mem_map_of_mem ((h text).mp hcodes)

end Readable

end Milo.Python
