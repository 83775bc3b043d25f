import Milo.Python.Text

/-!
# Decimal — the decimal text of Python numbers

`str` and `json.dumps` write an integer as its digits and a finite float as the shortest decimal
that names it.  A float is kept as that decimal in normal form, so that its text is a matter of
layout alone; `readDecimal` reads such a text back as an exact rational, as `Fraction(str(x))` does.
-/

namespace Milo.Python

/-! ## 1. Integers -/

def natText (n : ℕ) : List Char := Nat.toDigits 10 n

def intText : ℤ → List Char
  | .ofNat n => natText n
  | .negSucc n => '-' :: natText (n + 1)

theorem isDigit_of_mem_natText {n : ℕ} {c : Char} (h : c ∈ natText n) : c.isDigit = true :=
  Nat.isDigit_of_mem_toDigits (by decide) (by decide) h

theorem natText_ne_nil (n : ℕ) : natText n ≠ [] := Nat.toDigits_ne_nil

/-! ## 2. Floats -/

/-- A finite float as the decimal that names it, without trailing zeros in the coefficient. -/
structure PyFloat where
  negative : Bool
  coefficient : ℕ
  exponent : ℤ
  normal : coefficient % 10 ≠ 0 ∨ (coefficient = 0 ∧ exponent = 0)
  deriving DecidableEq

namespace PyFloat

theorem normal_zero : 0 % 10 ≠ 0 ∨ (0 = 0 ∧ (0 : ℤ) = 0) := Or.inr ⟨rfl, rfl⟩

theorem normal_one : 1 % 10 ≠ 0 ∨ (1 = 0 ∧ (0 : ℤ) = 0) := Or.inl (by decide)

def magnitude (f : PyFloat) : ℚ := f.coefficient * 10 ^ f.exponent

def value (f : PyFloat) : ℚ := if f.negative then -f.magnitude else f.magnitude

def digits (f : PyFloat) : List Char := natText f.coefficient

/-- Where the decimal point stands, counted from the first digit. -/
def point (f : PyFloat) : ℤ := f.digits.length + f.exponent

end PyFloat

/-- Positional notation; there is always a digit on each side of the point. -/
def fixedText (digits : List Char) (point : ℤ) : List Char :=
  if point ≤ 0 then ['0'] ++ '.' :: (List.replicate (-point).toNat '0' ++ digits)
  else if digits.length ≤ point then
    (digits ++ List.replicate (point - digits.length).toNat '0') ++ '.' :: ['0']
  else digits.take point.toNat ++ '.' :: digits.drop point.toNat

/-- A signed exponent of at least two digits. -/
def exponentText (exponent : ℤ) : List Char :=
  let digits := natText exponent.natAbs
  'e' :: (if exponent < 0 then '-' else '+') :: (if digits.length < 2 then '0' :: digits else digits)

def scientificText (digits : List Char) (point : ℤ) : List Char :=
  if digits.length = 1 then digits ++ exponentText (point - 1)
  else digits.take 1 ++ '.' :: (digits.drop 1 ++ exponentText (point - 1))

def magnitudeText (digits : List Char) (point : ℤ) : List Char :=
  if -4 < point ∧ point ≤ 16 then fixedText digits point else scientificText digits point

/-- `repr` of a finite float. -/
def floatText (f : PyFloat) : List Char :=
  if f.negative then '-' :: magnitudeText f.digits f.point else magnitudeText f.digits f.point

/-! ## 3. Reading a decimal -/

def readExponent : List Char → ℤ
  | 'e' :: '-' :: digits => -(Nat.ofDigitChars 10 digits 0 : ℤ)
  | 'e' :: '+' :: digits => Nat.ofDigitChars 10 digits 0
  | _ => 0

def readMagnitude (text : List Char) : ℚ :=
  let whole := text.takeWhile Char.isDigit
  match text.dropWhile Char.isDigit with
  | '.' :: rest =>
    let fraction := rest.takeWhile Char.isDigit
    Nat.ofDigitChars 10 (whole ++ fraction) 0 *
      10 ^ (readExponent (rest.dropWhile Char.isDigit) - fraction.length)
  | rest => Nat.ofDigitChars 10 whole 0 * 10 ^ readExponent rest

def readDecimal : List Char → ℚ
  | '-' :: text => -readMagnitude text
  | text => readMagnitude text

/-! ## 4. What is read back -/

section Reading

theorem takeWhile_digits {whole tail : List Char} (hwhole : ∀ c ∈ whole, c.isDigit = true)
    (htail : ∀ c rest, tail = c :: rest → c.isDigit = false) :
    (whole ++ tail).takeWhile Char.isDigit = whole ∧
      (whole ++ tail).dropWhile Char.isDigit = tail := by
  rw [List.takeWhile_append_of_pos hwhole, List.dropWhile_append_of_pos hwhole]
  cases tail with
  | nil => simp
  | cons c rest => simp [htail c rest rfl]

theorem readMagnitude_point (whole fraction tail : List Char)
    (hwhole : ∀ c ∈ whole, c.isDigit = true)
    (hfraction : ∀ c ∈ fraction, c.isDigit = true)
    (htail : ∀ c rest, tail = c :: rest → c.isDigit = false) :
    readMagnitude (whole ++ '.' :: (fraction ++ tail)) =
      Nat.ofDigitChars 10 (whole ++ fraction) 0 * 10 ^ (readExponent tail - fraction.length) := by
  have hdot : ∀ c rest, '.' :: (fraction ++ tail) = c :: rest → c.isDigit = false := by
    intro c rest heq
    cases heq
    rfl
  have hfirst := takeWhile_digits hwhole hdot
  have hsecond := takeWhile_digits hfraction htail
  unfold readMagnitude
  simp only [hfirst.1, hfirst.2, hsecond.1, hsecond.2]

theorem readMagnitude_whole (whole tail : List Char) (hwhole : ∀ c ∈ whole, c.isDigit = true)
    (htail : ∀ c rest, tail = c :: rest → c.isDigit = false ∧ c ≠ '.') :
    readMagnitude (whole ++ tail) = Nat.ofDigitChars 10 whole 0 * 10 ^ readExponent tail := by
  have hfirst := takeWhile_digits hwhole fun c rest heq => (htail c rest heq).1
  unfold readMagnitude
  simp only [hfirst.1, hfirst.2]
  cases tail with
  | nil => rfl
  | cons c rest =>
    have hpoint := (htail c rest rfl).2
    split
    · rename_i heq
      cases heq
      exact absurd rfl hpoint
    · rfl

theorem readExponent_exponentText (exponent : ℤ) :
    readExponent (exponentText exponent) = exponent := by
  have hpadded : Nat.ofDigitChars 10 (if (natText exponent.natAbs).length < 2 then
      '0' :: natText exponent.natAbs else natText exponent.natAbs) 0 = exponent.natAbs := by
    split
    · show Nat.ofDigitChars 10 (List.replicate 1 '0' ++ natText exponent.natAbs) 0 = _
      rw [Nat.ofDigitChars_append, Nat.ofDigitChars_replicate_zero, Nat.mul_zero]
      exact Nat.ofDigitChars_ten_toDigits
    · exact Nat.ofDigitChars_ten_toDigits
  unfold exponentText
  by_cases hneg : exponent < 0
  · simp only [if_pos hneg]
    show -((Nat.ofDigitChars 10 _ 0 : ℕ) : ℤ) = exponent
    rw [hpadded]
    omega
  · simp only [if_neg hneg]
    show ((Nat.ofDigitChars 10 _ 0 : ℕ) : ℤ) = exponent
    rw [hpadded]
    omega

theorem exponentText_head (exponent : ℤ) :
    ∀ c rest, exponentText exponent = c :: rest → c.isDigit = false ∧ c ≠ '.' := by
  intro c rest heq
  unfold exponentText at heq
  cases heq
  decide

end Reading

/-! ## 5. Reading back what was written -/

section RoundTrip

variable (n : ℕ) (point : ℤ)

theorem ofDigitChars_natText (zeros : ℕ) :
    Nat.ofDigitChars 10 (List.replicate zeros '0' ++ natText n) 0 = n := by
  rw [Nat.ofDigitChars_append, Nat.ofDigitChars_replicate_zero, Nat.mul_zero]
  exact Nat.ofDigitChars_ten_toDigits

theorem ofDigitChars_natText_append (zeros : ℕ) :
    Nat.ofDigitChars 10 (natText n ++ List.replicate zeros '0') 0 = 10 ^ zeros * n := by
  have hdigits : Nat.ofDigitChars 10 (natText n) 0 = n := Nat.ofDigitChars_ten_toDigits
  rw [Nat.ofDigitChars_append, Nat.ofDigitChars_replicate_zero, hdigits]

theorem isDigit_zeros {n : ℕ} {c : Char} (h : c ∈ List.replicate n '0') :
    c.isDigit = true := by
  rw [List.eq_of_mem_replicate h]
  rfl

theorem no_tail : ∀ c rest, ([] : List Char) = c :: rest → c.isDigit = false := by
  intro c rest heq
  cases heq

theorem readMagnitude_fixedText :
    readMagnitude (fixedText (natText n) point) = n * 10 ^ (point - (natText n).length) := by
  unfold fixedText
  by_cases hsmall : point ≤ 0
  · rw [if_pos hsmall]
    have hread := readMagnitude_point ['0'] (List.replicate (-point).toNat '0' ++ natText n) []
      (fun c hc => isDigit_zeros (n := 1) hc) ?_ no_tail
    · rw [List.append_nil] at hread
      rw [hread, List.singleton_append, ← List.cons_append, ← List.replicate_succ,
        ofDigitChars_natText]
      congr 2
      rw [List.length_append, List.length_replicate]
      show 0 - (((-point).toNat + (natText n).length : ℕ) : ℤ) = _
      omega
    · intro c hc
      rcases List.mem_append.mp hc with hzero | hdigit
      · exact isDigit_zeros hzero
      · exact isDigit_of_mem_natText hdigit
  · rw [if_neg hsmall]
    by_cases hlong : (natText n).length ≤ point
    · rw [if_pos hlong]
      rcases Int.eq_ofNat_of_zero_le (sub_nonneg.mpr hlong) with ⟨zeros, hzeros⟩
      rw [hzeros, Int.toNat_natCast]
      have hread := readMagnitude_point (natText n ++ List.replicate zeros '0') ['0'] [] ?_
        (fun c hc => isDigit_zeros (n := 1) hc) no_tail
      · rw [List.append_nil] at hread
        rw [hread, List.append_assoc, ← List.replicate_succ', ofDigitChars_natText_append]
        -- the last digit written is the one zero behind the point
        show ((10 ^ (zeros + 1) * n : ℕ) : ℚ) * 10 ^ (0 - ((1 : ℕ) : ℤ)) = n * 10 ^ (zeros : ℤ)
        rw [zpow_natCast, zero_sub, zpow_neg, Nat.cast_mul, Nat.cast_pow, pow_succ]
        push_cast
        field_simp
      · intro c hc
        rcases List.mem_append.mp hc with hdigit | hzero
        · exact isDigit_of_mem_natText hdigit
        · exact isDigit_zeros hzero
    · rw [if_neg hlong]
      have hread := readMagnitude_point ((natText n).take point.toNat)
        ((natText n).drop point.toNat) []
        (fun c hc => isDigit_of_mem_natText (List.mem_of_mem_take hc))
        (fun c hc => isDigit_of_mem_natText (List.mem_of_mem_drop hc)) no_tail
      rw [List.append_nil] at hread
      rw [hread, List.take_append_drop]
      have hdigits : Nat.ofDigitChars 10 (natText n) 0 = n := Nat.ofDigitChars_ten_toDigits
      rw [hdigits]
      congr 2
      rw [List.length_drop]
      show 0 - (((natText n).length - point.toNat : ℕ) : ℤ) = _
      omega

theorem readMagnitude_scientificText :
    readMagnitude (scientificText (natText n) point) = n * 10 ^ (point - (natText n).length) := by
  have hdigits : Nat.ofDigitChars 10 (natText n) 0 = n := Nat.ofDigitChars_ten_toDigits
  unfold scientificText
  by_cases hone : (natText n).length = 1
  · rw [if_pos hone, readMagnitude_whole (natText n) (exponentText (point - 1))
      (fun c hc => isDigit_of_mem_natText hc) (exponentText_head _), readExponent_exponentText,
      hdigits, hone]
    rfl
  · rw [if_neg hone, readMagnitude_point ((natText n).take 1) ((natText n).drop 1)
      (exponentText (point - 1)) (fun c hc => isDigit_of_mem_natText (List.mem_of_mem_take hc))
      (fun c hc => isDigit_of_mem_natText (List.mem_of_mem_drop hc))
      (fun c rest heq => (exponentText_head _ c rest heq).1), readExponent_exponentText,
      List.take_append_drop, hdigits, List.length_drop]
    congr 2
    have hpos := List.length_pos_of_ne_nil (natText_ne_nil n)
    omega

theorem readMagnitude_magnitudeText :
    readMagnitude (magnitudeText (natText n) point) = n * 10 ^ (point - (natText n).length) := by
  unfold magnitudeText
  split
  · exact readMagnitude_fixedText n point
  · exact readMagnitude_scientificText n point

end RoundTrip

/-! ## 6. The texts of numbers -/

theorem natText_head (n : ℕ) : ∃ c rest, natText n = c :: rest ∧ c.isDigit = true := by
  cases hdigits : natText n with
  | nil => exact absurd hdigits (natText_ne_nil n)
  | cons c rest =>
    have hc : c ∈ natText n := hdigits ▸ List.mem_cons_self
    exact ⟨c, rest, rfl, isDigit_of_mem_natText hc⟩

theorem magnitudeText_head (n : ℕ) (point : ℤ) :
    ∃ c rest, magnitudeText (natText n) point = c :: rest ∧ c.isDigit = true := by
  rcases natText_head n with ⟨c, rest, hdigits, hc⟩
  unfold magnitudeText fixedText scientificText
  rw [hdigits]
  split
  · split
    · exact ⟨'0', _, rfl, rfl⟩
    · rename_i hpositive
      split
      · exact ⟨c, _, rfl, hc⟩
      · have hone : point.toNat = (point.toNat - 1) + 1 := by omega
        rw [hone, List.take_succ_cons]
        exact ⟨c, _, rfl, hc⟩
  · split
    · exact ⟨c, _, rfl, hc⟩
    · exact ⟨c, _, rfl, hc⟩

theorem readDecimal_of_digit {c : Char} {rest : List Char} (h : c.isDigit = true) :
    readDecimal (c :: rest) = readMagnitude (c :: rest) := by
  unfold readDecimal
  split
  · rename_i heq
    cases heq
    exact absurd h (by decide)
  · rfl

theorem readMagnitude_natText (n : ℕ) : readMagnitude (natText n) = n := by
  have hread := readMagnitude_whole (natText n) [] (fun c hc => isDigit_of_mem_natText hc)
    (by intro c rest heq; cases heq)
  have hdigits : Nat.ofDigitChars 10 (natText n) 0 = n := Nat.ofDigitChars_ten_toDigits
  rw [List.append_nil, hdigits] at hread
  rw [hread]
  exact mul_one _

theorem readDecimal_intText (z : ℤ) : readDecimal (intText z) = z := by
  cases z with
  | ofNat n =>
    rcases natText_head n with ⟨c, rest, hdigits, hc⟩
    show readDecimal (natText n) = _
    rw [hdigits, readDecimal_of_digit hc, ← hdigits, readMagnitude_natText]
    rfl
  | negSucc n =>
    show -readMagnitude (natText (n + 1)) = _
    rw [readMagnitude_natText, Int.cast_negSucc]

theorem intText_injective {z z' : ℤ} (h : intText z = intText z') : z = z' := by
  have hread : (z : ℚ) = z' := by rw [← readDecimal_intText, ← readDecimal_intText, h]
  exact_mod_cast hread

theorem natText_injective {n n' : ℕ} (h : natText n = natText n') : n = n' := by
  have hread : (n : ℚ) = n' := by rw [← readMagnitude_natText, ← readMagnitude_natText, h]
  exact_mod_cast hread

/-- A finite float is read back from its text: `Fraction(str(x))` is the decimal a person wrote. -/
theorem readDecimal_floatText (f : PyFloat) : readDecimal (floatText f) = f.value := by
  have hmagnitude : readMagnitude (magnitudeText f.digits f.point) = f.magnitude := by
    unfold PyFloat.digits PyFloat.point PyFloat.digits PyFloat.magnitude
    rw [readMagnitude_magnitudeText]
    congr 2
    omega
  unfold floatText PyFloat.value
  split
  · show -readMagnitude (magnitudeText f.digits f.point) = _
    rw [hmagnitude]
  · rcases magnitudeText_head f.coefficient f.point with ⟨c, rest, htext, hc⟩
    change magnitudeText f.digits f.point = c :: rest at htext
    rw [htext, readDecimal_of_digit hc, ← htext, hmagnitude]

theorem mem_intText {z : ℤ} {c : Char} (h : c ∈ intText z) : c.isDigit = true ∨ c = '-' := by
  cases z with
  | ofNat n => exact Or.inl (isDigit_of_mem_natText h)
  | negSucc n =>
    rcases List.mem_cons.mp h with rfl | hdigit
    · exact Or.inr rfl
    · exact Or.inl (isDigit_of_mem_natText hdigit)

theorem floatText_marked (f : PyFloat) : '.' ∈ floatText f ∨ 'e' ∈ floatText f := by
  have hmagnitude : ∀ digits point,
      '.' ∈ magnitudeText digits point ∨ 'e' ∈ magnitudeText digits point := by
    intro digits point
    unfold magnitudeText fixedText scientificText exponentText
    split
    · split
      · simp
      · split <;> simp
    · split <;> simp
  unfold floatText
  split
  · rcases hmagnitude f.digits f.point with hpoint | hexponent
    · exact Or.inl (List.mem_cons_of_mem _ hpoint)
    · exact Or.inr (List.mem_cons_of_mem _ hexponent)
  · exact hmagnitude f.digits f.point

theorem intText_ne_floatText (z : ℤ) (f : PyFloat) : intText z ≠ floatText f := by
  intro heq
  rcases floatText_marked f with hpoint | hexponent
  · rw [← heq] at hpoint
    exact absurd (mem_intText hpoint) (by decide)
  · rw [← heq] at hexponent
    exact absurd (mem_intText hexponent) (by decide)

/-! ## 7. One decimal per value -/

theorem coefficient_exponent_unique_of_le {c c' : ℕ} {e e' : ℤ} (hc : c % 10 ≠ 0)
    (hle : e ≤ e') (h : (c : ℚ) * 10 ^ e = c' * 10 ^ e') : c = c' ∧ e = e' := by
  rcases Int.eq_ofNat_of_zero_le (sub_nonneg.mpr hle) with ⟨k, hk⟩
  have hsplit : e' = e + (k : ℤ) := by omega
  have hten : (10 : ℚ) ≠ 0 := by norm_num
  have hshifted : (c : ℚ) = ((c' * 10 ^ k : ℕ) : ℚ) := by
    rw [hsplit, zpow_add₀ hten, zpow_natCast] at h
    have hpower : (10 : ℚ) ^ e ≠ 0 := zpow_ne_zero e hten
    apply mul_right_cancel₀ hpower
    rw [h, Nat.cast_mul, Nat.cast_pow]
    push_cast
    ring
  have hnat : c = c' * 10 ^ k := by exact_mod_cast hshifted
  cases k with
  | zero => exact ⟨by omega, by omega⟩
  | succ k =>
    -- a trailing zero would be left over
    rw [pow_succ, ← mul_assoc] at hnat
    omega

/-- Decimals in normal form name different magnitudes. -/
theorem coefficient_exponent_unique {c c' : ℕ} {e e' : ℤ} (hc : c % 10 ≠ 0) (hc' : c' % 10 ≠ 0)
    (h : (c : ℚ) * 10 ^ e = c' * 10 ^ e') : c = c' ∧ e = e' := by
  rcases le_total e e' with hle | hle
  · exact coefficient_exponent_unique_of_le hc hle h
  · have hswap := coefficient_exponent_unique_of_le hc' hle h.symm
    exact ⟨hswap.1.symm, hswap.2.symm⟩

theorem PyFloat.magnitude_nonneg (f : PyFloat) : 0 ≤ f.magnitude :=
  mul_nonneg (Nat.cast_nonneg _) (zpow_nonneg (by norm_num) _)

theorem PyFloat.magnitude_eq_zero {f : PyFloat} (h : f.magnitude = 0) : f.coefficient = 0 := by
  rcases mul_eq_zero.mp h with hzero | hpower
  · exact_mod_cast hzero
  · exact absurd hpower (zpow_ne_zero _ (by norm_num))

/-- Floats of one value are the same float, but for the sign of zero. -/
theorem PyFloat.eq_or_zero_of_value {f g : PyFloat} (h : f.value = g.value) :
    f = g ∨ (f.coefficient = 0 ∧ g.coefficient = 0) := by
  by_cases hzero : f.magnitude = 0
  · right
    have hg : g.magnitude = 0 := by
      unfold PyFloat.value at h
      rw [hzero] at h
      split at h <;> split at h <;> linarith
    exact ⟨magnitude_eq_zero hzero, magnitude_eq_zero hg⟩
  · left
    have hf := f.magnitude_nonneg
    have hg := g.magnitude_nonneg
    have hpositive : 0 < f.magnitude := lt_of_le_of_ne hf fun heq => hzero heq.symm
    have hsame : f.negative = g.negative ∧ f.magnitude = g.magnitude := by
      unfold PyFloat.value at h
      cases hn : f.negative <;> cases hm : g.negative <;> simp only [hn, hm] at h <;>
        refine ⟨?_, ?_⟩ <;> first | rfl | (simp at h; linarith)
    have hcoefficient : ∀ k : PyFloat, k.magnitude ≠ 0 → k.coefficient % 10 ≠ 0 := by
      intro k hk
      rcases k.normal with hnormal | ⟨hc, -⟩
      · exact hnormal
      · exfalso
        apply hk
        unfold PyFloat.magnitude
        rw [hc, Nat.cast_zero, zero_mul]
    have hunique := coefficient_exponent_unique (hcoefficient f hzero)
      (hcoefficient g (hsame.2 ▸ hzero)) hsame.2
    cases f
    cases g
    simp only at hsame hunique
    simp only [PyFloat.mk.injEq]
    exact ⟨hsame.1, hunique.1, hunique.2⟩

end Milo.Python
