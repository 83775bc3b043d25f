import Milo.Python.Decimal

/-!
# Json — JSON values and their canonical text

`json.dumps` with sorted keys, no spaces and ASCII escapes.  Integers and floats are different
values of JSON here, as they are in Python: `5` and `5.0` have different texts.
-/

namespace Milo.Python

inductive Json
  | null
  | bool (b : Bool)
  | int (z : ℤ)
  | float (f : PyFloat)
  | str (s : List Char)
  | arr (items : List Json)
  | obj (members : List (List Char × Json))

/-- What `json.loads` raises: `ValueError` (no JSON, or a number it does not make), or `RecursionError` where the
    text nests deeper than the interpreter recurses. -/
inductive LoadFault
  | value
  | recursion
  deriving DecidableEq, Repr

/-! ## 1. Strings -/

def hexDigit (n : ℕ) : Char := (Nat.toDigits 16 (n % 16)).headD '0'

/-- A four-digit escape of one UTF-16 unit. -/
def unitEscape (n : ℕ) : List Char :=
  ['\\', 'u', hexDigit (n / 4096), hexDigit (n / 256), hexDigit (n / 16), hexDigit n]

def escapeChar (c : Char) : List Char :=
  if c = '"' then ['\\', '"']
  else if c = '\\' then ['\\', '\\']
  else if c = '\n' then ['\\', 'n']
  else if c = '\r' then ['\\', 'r']
  else if c = '\t' then ['\\', 't']
  else if c.toNat = 12 then ['\\', 'f']
  else if c.toNat = 8 then ['\\', 'b']
  else if 32 ≤ c.toNat ∧ c.toNat ≤ 126 then [c]
  else if c.toNat < 65536 then unitEscape c.toNat
  else
    unitEscape (55296 + (c.toNat - 65536) / 1024) ++ unitEscape (56320 + (c.toNat - 65536) % 1024)

def quoted (s : List Char) : List Char := '"' :: (s.flatMap escapeChar ++ ['"'])

/-! ## 2. Canonical text -/

/-- Order of keys by code points. -/
def keyLE : List Char → List Char → Bool
  | [], _ => true
  | _ :: _, [] => false
  | c :: s, d :: t => if c = d then keyLE s t else decide (c.toNat < d.toNat)

theorem keyLE_total (a b : List Char) : keyLE a b = true ∨ keyLE b a = true := by
  induction a generalizing b with
  | nil => exact Or.inl rfl
  | cons c s ih =>
    cases b with
    | nil => exact Or.inr rfl
    | cons d t =>
      unfold keyLE
      by_cases h : c = d
      · rw [if_pos h, if_pos h.symm]
        exact ih t
      · have hne : c.toNat ≠ d.toNat := fun heq => h (Char.toNat_inj.mp heq)
        rw [if_neg h, if_neg fun heq => h heq.symm, decide_eq_true_eq, decide_eq_true_eq]
        omega

theorem keyLE_antisymm {a b : List Char} (h : keyLE a b = true) (h' : keyLE b a = true) : a = b := by
  induction a generalizing b with
  | nil =>
    cases b with
    | nil => rfl
    | cons d t => cases h'
  | cons c s ih =>
    cases b with
    | nil => cases h
    | cons d t =>
      unfold keyLE at h h'
      by_cases heq : c = d
      · rw [if_pos heq] at h
        rw [if_pos heq.symm] at h'
        rw [heq, ih h h']
      · rw [if_neg heq, decide_eq_true_eq] at h
        rw [if_neg fun hs => heq hs.symm, decide_eq_true_eq] at h'
        omega

theorem keyLE_trans {a b e : List Char} (h : keyLE a b = true) (h' : keyLE b e = true) :
    keyLE a e = true := by
  induction a generalizing b e with
  | nil => rfl
  | cons c s ih =>
    cases b with
    | nil => cases h
    | cons d t =>
      cases e with
      | nil => cases h'
      | cons f r =>
        unfold keyLE at h h' ⊢
        by_cases hcd : c = d
        · rw [if_pos hcd] at h
          rw [hcd]
          by_cases hdf : d = f
          · rw [if_pos hdf] at h' ⊢
            exact ih h h'
          · rw [if_neg hdf] at h' ⊢
            exact h'
        · rw [if_neg hcd, decide_eq_true_eq] at h
          by_cases hdf : d = f
          · rw [← hdf, if_neg hcd]
            exact decide_eq_true h
          · rw [if_neg hdf, decide_eq_true_eq] at h'
            have hne : c ≠ f := by
              rintro rfl
              omega
            rw [if_neg hne, decide_eq_true_eq]
            omega

def joinWith (separator : Char) (texts : List (List Char)) : List Char :=
  List.intercalate [separator] texts

mutual

/-- `json.dumps(value, sort_keys=True, separators=(",", ":"), ensure_ascii=True)`. -/
def Json.dumps : Json → List Char
  | .null => ['n', 'u', 'l', 'l']
  | .bool true => ['t', 'r', 'u', 'e']
  | .bool false => ['f', 'a', 'l', 's', 'e']
  | .int z => intText z
  | .float f => floatText f
  | .str s => quoted s
  | .arr items => '[' :: (joinWith ',' (dumpsItems items) ++ [']'])
  | .obj members =>
    '{' :: (joinWith ',' (((dumpsMembers members).insertionSort fun a b => keyLE a.1 b.1).map
      fun m => quoted m.1 ++ ':' :: m.2) ++ ['}'])

def dumpsItems : List Json → List (List Char)
  | [] => []
  | item :: items => item.dumps :: dumpsItems items

def dumpsMembers : List (List Char × Json) → List (List Char × List Char)
  | [] => []
  | (key, value) :: members => (key, value.dumps) :: dumpsMembers members

end

/-- The value is written as a number. -/
def Json.isNumber : Json → Bool
  | .int _ => true
  | .float _ => true
  | _ => false

example : (Json.arr [.null, .bool true, .int (-5)]).dumps = "[null,true,-5]".toList := by
  decide +kernel

/-! ## 3. What the first character tells -/

theorem intText_head (z : ℤ) :
    ∃ c rest, intText z = c :: rest ∧ (c.isDigit = true ∨ c = '-') := by
  cases z with
  | ofNat n =>
    rcases natText_head n with ⟨c, rest, hdigits, hc⟩
    exact ⟨c, rest, hdigits, Or.inl hc⟩
  | negSucc n => exact ⟨'-', _, rfl, Or.inr rfl⟩

theorem floatText_head (f : PyFloat) :
    ∃ c rest, floatText f = c :: rest ∧ (c.isDigit = true ∨ c = '-') := by
  unfold floatText
  split
  · exact ⟨'-', _, rfl, Or.inr rfl⟩
  · rcases magnitudeText_head f.coefficient f.point with ⟨c, rest, htext, hc⟩
    exact ⟨c, rest, htext, Or.inl hc⟩

/-- A number is written from a digit or a sign, and nothing else is. -/
theorem dumps_head (j : Json) : ∃ c rest, j.dumps = c :: rest ∧
    ((c.isDigit = true ∨ c = '-') ↔ j.isNumber = true) ∧
    (c = '"' ↔ ∃ s, j = .str s) := by
  cases j with
  | null => exact ⟨'n', _, rfl, by decide, by simp⟩
  | bool b => cases b <;> exact ⟨_, _, rfl, by decide, by simp⟩
  | int z =>
    rcases intText_head z with ⟨c, rest, htext, hc⟩
    refine ⟨c, rest, htext, by simp [Json.isNumber, hc], ?_⟩
    constructor
    · rintro rfl
      exact absurd hc (by decide)
    · simp
  | float f =>
    rcases floatText_head f with ⟨c, rest, htext, hc⟩
    refine ⟨c, rest, htext, by simp [Json.isNumber, hc], ?_⟩
    constructor
    · rintro rfl
      exact absurd hc (by decide)
    · simp
  | str s => exact ⟨'"', _, rfl, by simp [Json.isNumber], by simp⟩
  | arr items => exact ⟨'[', _, rfl, by simp [Json.isNumber], by simp⟩
  | obj members => exact ⟨'{', _, rfl, by simp [Json.isNumber], by simp⟩

/-- Values with one text are both numbers or neither is, and both strings or neither is. -/
theorem same_kind_of_dumps {j k : Json} (h : j.dumps = k.dumps) :
    j.isNumber = k.isNumber ∧ ((∃ s, j = .str s) ↔ ∃ s, k = .str s) := by
  rcases dumps_head j with ⟨c, rest, hj, hnumber, hstring⟩
  rcases dumps_head k with ⟨d, rest', hk, hnumber', hstring'⟩
  rw [hj, hk] at h
  cases h
  constructor
  · rw [Bool.eq_iff_iff, ← hnumber, ← hnumber']
  · rw [← hstring, ← hstring']

end Milo.Python
