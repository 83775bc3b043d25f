import Milo.Python.Json

/-!
# Jsonb — the database's JSON values

PostgreSQL keeps a number with its scale: `5` and `5.0` are different texts.  `rendered` is the
operator `->>`: the string itself, or the text of any other value, and nothing for JSON null.
-/

namespace Milo.Python

inductive Jsonb
  | null
  | bool (b : Bool)
  | number (unscaled : ℤ) (scale : ℕ)
  | str (s : List Char)
  | arr (items : List Jsonb)
  | obj (members : List (List Char × Jsonb))

/-! ## 1. The text of a value -/

/-- The digits of a number, at least one of them before its point. -/
def paddedDigits (magnitude scale : ℕ) : List Char :=
  List.replicate (scale + 1 - (natText magnitude).length) '0' ++ natText magnitude

/-- The text of a `numeric`. -/
def numericText (unscaled : ℤ) : ℕ → List Char
  | 0 => intText unscaled
  | scale + 1 =>
    let digits := paddedDigits unscaled.natAbs (scale + 1)
    let point := digits.length - (scale + 1)
    (if unscaled < 0 then ['-'] else []) ++ (digits.take point ++ '.' :: digits.drop point)

def jsonbEscape (c : Char) : List Char :=
  if c = '"' then ['\\', '"']
  else if c = '\\' then ['\\', '\\']
  else if c.toNat = 8 then ['\\', 'b']
  else if c.toNat = 12 then ['\\', 'f']
  else if c = '\n' then ['\\', 'n']
  else if c = '\r' then ['\\', 'r']
  else if c = '\t' then ['\\', 't']
  else if c.toNat < 32 then unitEscape c.toNat
  else [c]

def jsonbQuoted (s : List Char) : List Char := '"' :: (s.flatMap jsonbEscape ++ ['"'])

mutual

/-- `value::text`. -/
def Jsonb.text : Jsonb → List Char
  | .null => "null".toList
  | .bool true => "true".toList
  | .bool false => "false".toList
  | .number unscaled scale => numericText unscaled scale
  | .str s => jsonbQuoted s
  | .arr items => '[' :: (List.intercalate [',', ' '] (itemTexts items) ++ [']'])
  | .obj members => '{' :: (List.intercalate [',', ' '] (memberTexts members) ++ ['}'])

def itemTexts : List Jsonb → List (List Char)
  | [] => []
  | item :: items => item.text :: itemTexts items

def memberTexts : List (List Char × Jsonb) → List (List Char)
  | [] => []
  | (key, value) :: members => (jsonbQuoted key ++ ':' :: ' ' :: value.text) :: memberTexts members

end

/-- `payload ->> field`. -/
def rendered : Option Jsonb → Option (List Char)
  | none => none
  | some .null => none
  | some (.str s) => some s
  | some value => some value.text

/-! ## 2. Texts of whole numbers -/

/-- `text ~ '^-?[0-9]+$'`. -/
def isWholeText (text : List Char) : Bool :=
  let digits := if text.head? = some '-' then text.tail else text
  !digits.isEmpty && digits.all Char.isDigit

theorem isWholeText_intText (n : ℤ) : isWholeText (intText n) = true := by
  have hdigits : ∀ m : ℕ, (!(natText m).isEmpty && (natText m).all Char.isDigit) = true := by
    intro m
    have hall : (natText m).all Char.isDigit = true :=
      List.all_eq_true.mpr fun c hc => isDigit_of_mem_natText hc
    rw [hall, Bool.and_true, Bool.not_eq_true', List.isEmpty_eq_false_iff]
    exact natText_ne_nil m
  cases n with
  | ofNat n =>
    have hhead : ¬ (natText n).head? = some '-' := by
      intro h
      have hdigit := isDigit_of_mem_natText (List.mem_of_mem_head? h)
      exact absurd hdigit (by decide)
    have heq : (if (natText n).head? = some '-' then (natText n).tail else natText n) = natText n :=
      if_neg hhead
    show isWholeText (natText n) = true
    unfold isWholeText
    rw [heq]
    exact hdigits n
  | negSucc n => exact hdigits (n + 1)

theorem point_mem_numericText (unscaled : ℤ) (scale : ℕ) :
    '.' ∈ numericText unscaled (scale + 1) := by
  unfold numericText
  simp

/-- A number with a fraction is not written as a whole one. -/
theorem isWholeText_numericText (unscaled : ℤ) (scale : ℕ) :
    isWholeText (numericText unscaled (scale + 1)) = false := by
  by_contra h
  rw [Bool.not_eq_false] at h
  have hmem := point_mem_numericText unscaled scale
  generalize numericText unscaled (scale + 1) = text at h hmem
  unfold isWholeText at h
  have hdigit : '.' ∈ (if text.head? = some '-' then text.tail else text) := by
    split
    · rename_i hsign
      cases text with
      | nil => cases hmem
      | cons c rest =>
        rw [List.head?_cons, Option.some.injEq] at hsign
        rw [hsign] at hmem
        rcases List.mem_cons.mp hmem with heq | hrest
        · exact absurd heq (by decide)
        · exact hrest
    · exact hmem
  rw [Bool.and_eq_true, List.all_eq_true] at h
  exact absurd (h.2 '.' hdigit) (by decide)

/-- Only an integer, or a string, is rendered as an integer is. -/
theorem of_rendered_eq_intText {value : Jsonb} {n : ℤ} (h : rendered (some value) = some (intText n)) :
    value = .str (intText n) ∨ ∃ m, value = .number m 0 ∧ intText m = intText n := by
  have hhead : ∀ c rest, intText n = c :: rest → c.isDigit = true ∨ c = '-' := by
    intro c rest heq
    apply @mem_intText n
    rw [heq]
    exact List.mem_cons_self
  cases value with
  | null => cases h
  | bool b =>
    cases b <;> exact absurd (hhead _ _ (Option.some.inj h).symm) (by decide)
  | number unscaled scale =>
    have heq : numericText unscaled scale = intText n := Option.some.inj h
    cases scale with
    | zero => exact Or.inr ⟨unscaled, rfl, heq⟩
    | succ scale =>
      have hmem := point_mem_numericText unscaled scale
      rw [heq] at hmem
      exact absurd (mem_intText hmem) (by decide)
  | str s =>
    rw [← Option.some.inj h]
    exact Or.inl rfl
  | arr items => exact absurd (hhead _ _ (Option.some.inj h).symm) (by decide)
  | obj members => exact absurd (hhead _ _ (Option.some.inj h).symm) (by decide)

example : (Jsonb.arr [.number 5 0, .number (-50) 1, .str "5".toList]).text =
    "[5, -5.0, \"5\"]".toList := by decide +kernel

end Milo.Python
