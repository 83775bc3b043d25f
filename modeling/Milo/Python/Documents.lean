import Milo.Python.Jsonb
import Milo.Python.Text

/-!
# Documents — reading the JSON document a database function is given

`member?` is the operator `->`, `statedText` is `nullif(payload ->> field, '')`, and `sameValue` is
`is not distinct from`: numbers are compared by value, whatever their scales.
-/

namespace Milo.Python

namespace Jsonb

def member? : Jsonb → List Char → Option Jsonb
  | .obj members, field => members.lookup field
  | _, _ => none

/-- `payload ? field`, for a document. -/
def states (value : Jsonb) (field : List Char) : Bool := (value.member? field).isSome

/-- `jsonb_typeof(value) = 'object'`. -/
def isObject : Jsonb → Bool
  | .obj _ => true
  | _ => false

/-- `jsonb_array_elements`, of an array. -/
def elements? : Jsonb → Option (List Jsonb)
  | .arr items => some items
  | _ => none

/-- `nullif(payload ->> field, '')`. -/
def statedText (value : Jsonb) (field : List Char) : Option (List Char) :=
  (rendered (value.member? field)).filter fun text => decide (text ≠ [])

mutual

/-- The equality of `jsonb`. -/
def same : Jsonb → Jsonb → Bool
  | .null, .null => true
  | .bool a, .bool b => decide (a = b)
  | .number n scale, .number m scale' => decide (n * 10 ^ scale' = m * 10 ^ scale)
  | .str s, .str t => decide (s = t)
  | .arr items, .arr items' => sameItems items items'
  | .obj members, .obj members' => sameMembers members members'
  | _, _ => false

def sameItems : List Jsonb → List Jsonb → Bool
  | [], [] => true
  | item :: items, item' :: items' => same item item' && sameItems items items'
  | _, _ => false

def sameMembers : List (List Char × Jsonb) → List (List Char × Jsonb) → Bool
  | [], [] => true
  | (key, value) :: members, (key', value') :: members' =>
    decide (key = key') && same value value' && sameMembers members members'
  | _, _ => false

end

end Jsonb

/-- `a is not distinct from b`; a missing value is not a JSON null. -/
def sameValue : Option Jsonb → Option Jsonb → Bool
  | none, none => true
  | some a, some b => a.same b
  | _, _ => false

namespace Jsonb

mutual

@[simp] theorem same_self : ∀ value : Jsonb, value.same value = true
  | .null => by simp [same]
  | .bool b => by simp [same]
  | .number n scale => by simp [same]
  | .str text => by simp [same]
  | .arr items => by simp [same, sameItems_self items]
  | .obj members => by simp [same, sameMembers_self members]

theorem sameItems_self : ∀ items : List Jsonb, sameItems items items = true
  | [] => by simp [sameItems]
  | item :: items => by simp [sameItems, same_self item, sameItems_self items]

theorem sameMembers_self : ∀ members : List (List Char × Jsonb), sameMembers members members = true
  | [] => by simp [sameMembers]
  | (key, value) :: members => by simp [sameMembers, same_self value, sameMembers_self members]

end

mutual

theorem same_comm : ∀ a b : Jsonb, a.same b = b.same a
  | .null, b => by cases b <;> simp [same]
  | .bool x, b => by cases b <;> simp [same, eq_comm]
  | .number n scale, b => by cases b <;> simp [same, eq_comm]
  | .str text, b => by cases b <;> simp [same, eq_comm]
  | .arr items, b => by
    cases b with
    | arr items' => simp [same, sameItems_comm items items']
    | null | bool | number | str | obj => simp [same]
  | .obj members, b => by
    cases b with
    | obj members' => simp [same, sameMembers_comm members members']
    | null | bool | number | str | arr => simp [same]

theorem sameItems_comm : ∀ items items' : List Jsonb, sameItems items items' = sameItems items' items
  | [], [] => rfl
  | [], _ :: _ => by simp [sameItems]
  | _ :: _, [] => by simp [sameItems]
  | item :: items, item' :: items' => by
    simp only [sameItems, same_comm item item', sameItems_comm items items']

theorem sameMembers_comm : ∀ members members' : List (List Char × Jsonb),
    sameMembers members members' = sameMembers members' members
  | [], [] => rfl
  | [], (_, _) :: _ => by simp [sameMembers]
  | (_, _) :: _, [] => by simp [sameMembers]
  | (key, value) :: members, (key', value') :: members' => by
    simp only [sameMembers, same_comm value value', sameMembers_comm members members',
      eq_comm (a := key)]

end

end Jsonb

@[simp] theorem sameValue_self : ∀ value : Option Jsonb, sameValue value value = true
  | none => rfl
  | some value => value.same_self

/-- The value of a run of decimal digits. -/
def decimalValue (digits : List Char) : ℕ :=
  digits.foldl (fun n c => n * 10 + (c.toNat - '0'.toNat)) 0

/-- A text without the blanks `[[:space:]]` at its ends. -/
def trimmed (text : List Char) : List Char :=
  let blank : Char → Bool := fun c => c.isWhitespace || decide (c = Char.ofNat 11) || decide (c = Char.ofNat 12)
  (text.dropWhile blank).rdropWhile blank

/-- `text ~ '^[[:space:]]*[+-]?[0-9]+[[:space:]]*$'`, and the number it writes. -/
def wholeNumber? (text : List Char) : Option ℤ :=
  match trimmed text with
  | [] => none
  | sign :: rest =>
    let digits := if sign = '+' ∨ sign = '-' then rest else sign :: rest
    if digits.isEmpty || !digits.all Char.isDigit then none
    else if sign = '-' then some (-(decimalValue digits : ℤ))
    else some (decimalValue digits)

/-- `text::integer`, where it does not raise. -/
def castInteger (text : List Char) : Option ℤ :=
  (wholeNumber? text).filter fun n => decide (-2147483648 ≤ n) && decide (n ≤ 2147483647)

end Milo.Python
