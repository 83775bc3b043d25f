import Mathlib

/-!
# Binary64 — rounding to a double

A finite double is the exact rational it stands for.  `nearest` is the double nearest a rational, a tie going to
the even significand: the value of a decimal literal, of a sum or difference and of a converted integer.  What the
later modules need of it is that it keeps the order and changes no double.
-/

namespace Milo.Reasoning

/-! ## 1. The nearest integer -/

/-- A tie goes to the even neighbour. -/
def roundEven (q : ℚ) : ℤ :=
  let low := ⌊q⌋
  let rest := q - low
  if rest < 1 / 2 then low else if 1 / 2 < rest then low + 1 else if low % 2 = 0 then low else low + 1

theorem floor_le_roundEven (q : ℚ) : ⌊q⌋ ≤ roundEven q := by
  unfold roundEven
  dsimp only
  split_ifs <;> omega

theorem roundEven_le_floor (q : ℚ) : roundEven q ≤ ⌊q⌋ + 1 := by
  unfold roundEven
  dsimp only
  split_ifs <;> omega

@[simp] theorem roundEven_intCast (z : ℤ) : roundEven z = z := by
  unfold roundEven
  dsimp only
  rw [Int.floor_intCast, sub_self]
  exact if_pos (by norm_num)

theorem roundEven_mono {a b : ℚ} (h : a ≤ b) : roundEven a ≤ roundEven b := by
  rcases (Int.floor_mono h).lt_or_eq with hlt | heq
  · have ha := roundEven_le_floor a
    have hb := floor_le_roundEven b
    omega
  · -- one floor: what is left decides, and the tie goes the same way
    have hrest : a - ⌊a⌋ ≤ b - ⌊a⌋ := sub_le_sub_right h _
    unfold roundEven
    rw [← heq]
    dsimp only
    split_ifs <;> first | omega | linarith

theorem roundEven_nonneg {q : ℚ} (h : 0 ≤ q) : 0 ≤ roundEven q :=
  (Int.floor_nonneg.mpr h).trans (floor_le_roundEven q)

/-! ## 2. Multiples of a power of two -/

/-- The multiple of `2 ^ e` nearest to `q`. -/
def snap (e : ℤ) (q : ℚ) : ℚ := roundEven (q / 2 ^ e) * 2 ^ e

section Snap

variable {e : ℤ} {a b q : ℚ}

theorem two_zpow_pos (e : ℤ) : (0 : ℚ) < 2 ^ e := zpow_pos (by norm_num) e

theorem snap_mono (h : a ≤ b) : snap e a ≤ snap e b := by
  apply mul_le_mul_of_nonneg_right _ (two_zpow_pos e).le
  exact_mod_cast roundEven_mono (div_le_div_of_nonneg_right h (two_zpow_pos e).le)

theorem snap_multiple (z : ℤ) : snap e (z * 2 ^ e) = z * 2 ^ e := by
  unfold snap
  rw [mul_div_cancel_right₀ _ (two_zpow_pos e).ne', roundEven_intCast]

theorem snap_of_multiple {f : ℤ} (h : e ≤ f) (z : ℤ) : snap e (z * 2 ^ f) = z * 2 ^ f := by
  have hpow : (z * 2 ^ f : ℚ) = ((z * 2 ^ (f - e).toNat : ℤ) : ℚ) * 2 ^ e := by
    have hnat : ((2 : ℚ) ^ (f - e).toNat) = 2 ^ (f - e) := by
      rw [← zpow_natCast, Int.toNat_of_nonneg (Int.sub_nonneg.mpr h)]
    push_cast
    rw [hnat, mul_assoc, ← zpow_add₀ (by norm_num : (2 : ℚ) ≠ 0), Int.sub_add_cancel]
  rw [hpow, snap_multiple]

theorem snap_two_zpow {f : ℤ} (h : e ≤ f) : snap e (2 ^ f) = 2 ^ f := by
  have hone := snap_of_multiple h 1
  rwa [Int.cast_one, one_mul] at hone

theorem snap_nonneg (h : 0 ≤ q) : 0 ≤ snap e q :=
  mul_nonneg (by exact_mod_cast roundEven_nonneg (div_nonneg h (two_zpow_pos e).le)) (two_zpow_pos e).le

end Snap

/-! ## 3. Doubles -/

/-- The exponent of the last place of a double of that size: 53 bits, and none below `2 ^ -1074`. -/
def lastPlace (q : ℚ) : ℤ := max (-1074) (Int.log 2 |q| - 52)

/-- The double nearest a rational, were there no greatest one. -/
def nearest (q : ℚ) : ℚ := snap (lastPlace q) q

/-- The double nearest a rational, unless that lies beyond the greatest. -/
def toDouble? (q : ℚ) : Option ℚ := if |nearest q| < 2 ^ 1024 then some (nearest q) else none

/-- A finite double. -/
def IsDouble (q : ℚ) : Prop := toDouble? q = some q

/-- A double rounded to decimals, as a double. -/
def roundDecimals (digits : ℕ) (q : ℚ) : ℚ := nearest (roundEven (q * 10 ^ digits) / 10 ^ digits)

section Doubles

variable {a b q : ℚ}

@[simp] theorem nearest_zero : nearest 0 = 0 := by decide +kernel

theorem nearest_nonneg (h : 0 ≤ q) : 0 ≤ nearest q := snap_nonneg h

/-- A larger number has its last place no further to the right. -/
theorem lastPlace_mono (ha : 0 < a) (h : a ≤ b) : lastPlace a ≤ lastPlace b := by
  unfold lastPlace
  rw [abs_of_pos ha, abs_of_pos (ha.trans_le h)]
  have hlog := Int.log_mono_right (b := 2) ha h
  omega

theorem nearest_mono (ha : 0 ≤ a) (h : a ≤ b) : nearest a ≤ nearest b := by
  rcases ha.eq_or_lt with rfl | ha
  · rw [nearest_zero]
    exact nearest_nonneg h
  · have hb := ha.trans_le h
    rcases (lastPlace_mono ha h).eq_or_lt with heq | hlt
    · unfold nearest
      rw [← heq]
      exact snap_mono h
    · -- a power of two stands between them, a multiple of both last places
      have hlog : Int.log 2 a + 1 ≤ Int.log 2 b := by
        unfold lastPlace at hlt
        rw [abs_of_pos ha, abs_of_pos hb] at hlt
        omega
      have hplaces : lastPlace a ≤ Int.log 2 b ∧ lastPlace b ≤ Int.log 2 b := by
        unfold lastPlace at hlt ⊢
        rw [abs_of_pos ha, abs_of_pos hb] at *
        omega
      have hbelow : a ≤ 2 ^ Int.log 2 b := by
        have hlt := Int.lt_zpow_succ_log_self (b := 2) (by norm_num) a
        have hpow := zpow_le_zpow_right₀ (by norm_num : (1 : ℚ) ≤ 2) hlog
        push_cast at hlt
        exact (hlt.trans_le hpow).le
      have habove : (2 : ℚ) ^ Int.log 2 b ≤ b := by
        have hle := Int.zpow_log_le_self (b := 2) (by norm_num) hb
        push_cast at hle
        exact hle
      calc nearest a ≤ snap (lastPlace a) (2 ^ Int.log 2 b) := snap_mono hbelow
        _ = 2 ^ Int.log 2 b := snap_two_zpow hplaces.1
        _ = snap (lastPlace b) (2 ^ Int.log 2 b) := (snap_two_zpow hplaces.2).symm
        _ ≤ nearest b := snap_mono habove

/-- At most 53 bits above the least place make a double. -/
theorem nearest_of_multiple {z e : ℤ} (he : -1074 ≤ e) (hz : |z| ≤ 2 ^ 53) : nearest (z * 2 ^ e) = z * 2 ^ e := by
  rcases eq_or_ne z 0 with rfl | hne
  · rw [Int.cast_zero, zero_mul, nearest_zero]
  · have hpos : (0 : ℚ) < |(z : ℚ) * 2 ^ e| := abs_pos.mpr (mul_ne_zero (Int.cast_ne_zero.mpr hne) (two_zpow_pos e).ne')
    have habs : |(z : ℚ) * 2 ^ e| = ((|z| : ℤ) : ℚ) * 2 ^ e := by
      rw [abs_mul, abs_of_pos (two_zpow_pos e), Int.cast_abs]
    by_cases hplace : lastPlace (z * 2 ^ e) ≤ e
    · exact snap_of_multiple hplace z
    · -- only the power of two above the greatest significand has a last place further left
      have hlog : e + 53 ≤ Int.log 2 |(z : ℚ) * 2 ^ e| := by
        unfold lastPlace at hplace
        omega
      have hsize : (2 : ℚ) ^ (e + 53) ≤ ((|z| : ℤ) : ℚ) * 2 ^ e := by
        have hle := Int.zpow_log_le_self (b := 2) (by norm_num) hpos
        push_cast at hle
        rw [← habs]
        exact (zpow_le_zpow_right₀ (by norm_num) hlog).trans hle
      have hgreatest : |z| = 2 ^ 53 := by
        apply le_antisymm hz
        rw [zpow_add₀ (by norm_num : (2 : ℚ) ≠ 0), mul_comm] at hsize
        have hcast := le_of_mul_le_mul_right hsize (two_zpow_pos e)
        exact_mod_cast hcast
      have hnear : lastPlace (z * 2 ^ e) ≤ e + 53 := by
        have hle := Int.zpow_log_le_self (b := 2) (by norm_num) hpos
        push_cast at hle
        have hpow : |(z : ℚ) * 2 ^ e| = 2 ^ (e + 53) := by
          rw [habs, hgreatest, zpow_add₀ (by norm_num : (2 : ℚ) ≠ 0), mul_comm]
          norm_num
        rw [hpow] at hle
        have hexp := (zpow_le_zpow_iff_right₀ (by norm_num : (1 : ℚ) < 2)).mp hle
        unfold lastPlace
        rw [hpow]
        omega
      have hpower : ∃ s : ℤ, (z : ℚ) * 2 ^ e = s * 2 ^ (e + 53) := by
        rcases abs_eq (by norm_num : (0 : ℤ) ≤ 2 ^ 53) |>.mp hgreatest with rfl | rfl
        · refine ⟨1, ?_⟩
          rw [zpow_add₀ (by norm_num : (2 : ℚ) ≠ 0)]
          push_cast
          ring
        · refine ⟨-1, ?_⟩
          rw [zpow_add₀ (by norm_num : (2 : ℚ) ≠ 0)]
          push_cast
          ring
      obtain ⟨s, hs⟩ := hpower
      unfold nearest
      rw [hs] at hnear ⊢
      exact snap_of_multiple hnear s

@[simp] theorem nearest_nearest (q : ℚ) : nearest (nearest q) = nearest q := by
  have hpos := two_zpow_pos (lastPlace q)
  have hsize : |q / 2 ^ lastPlace q| ≤ 2 ^ 53 := by
    rw [abs_div, abs_of_pos hpos, div_le_iff₀ hpos]
    have hlt := Int.lt_zpow_succ_log_self (b := 2) (by norm_num) |q|
    push_cast at hlt
    have hexp : Int.log 2 |q| + 1 ≤ 53 + lastPlace q := by
      unfold lastPlace
      omega
    have hpow := zpow_le_zpow_right₀ (by norm_num : (1 : ℚ) ≤ 2) hexp
    rw [zpow_add₀ (by norm_num : (2 : ℚ) ≠ 0) 53] at hpow
    exact (hlt.trans_le hpow).le
  have hbits : |roundEven (q / 2 ^ lastPlace q)| ≤ 2 ^ 53 := by
    rw [abs_le] at hsize ⊢
    have hlow := roundEven_mono hsize.1
    have hhigh := roundEven_mono hsize.2
    have hneg : (-2 ^ 53 : ℚ) = ((-2 ^ 53 : ℤ) : ℚ) := by norm_num
    have hpow : (2 ^ 53 : ℚ) = ((2 ^ 53 : ℤ) : ℚ) := by norm_num
    rw [hneg, roundEven_intCast] at hlow
    rw [hpow, roundEven_intCast] at hhigh
    exact ⟨hlow, hhigh⟩
  exact nearest_of_multiple (le_max_left _ _) hbits

theorem toDouble?_eq_some {double : ℚ} : toDouble? q = some double ↔ double = nearest q ∧ |nearest q| < 2 ^ 1024 := by
  unfold toDouble?
  split
  · rename_i hsize
    rw [Option.some.injEq]
    exact ⟨fun h => ⟨h.symm, hsize⟩, fun h => h.1.symm⟩
  · rename_i hsize
    constructor
    · intro h
      cases h
    · exact fun h => absurd h.2 hsize

theorem isDouble_of_toDouble? {double : ℚ} (h : toDouble? q = some double) : IsDouble double := by
  obtain ⟨rfl, hsize⟩ := toDouble?_eq_some.mp h
  exact toDouble?_eq_some.mpr ⟨(nearest_nearest q).symm, by rwa [nearest_nearest]⟩

theorem IsDouble.nearest (h : IsDouble q) : nearest q = q := (toDouble?_eq_some.mp h).1.symm

theorem isDouble_zero : IsDouble 0 := by
  apply toDouble?_eq_some.mpr
  rw [nearest_zero, abs_zero]
  exact ⟨rfl, pow_pos (by norm_num) 1024⟩

end Doubles

/-- A decimal tie is none for the double that is spelled so. -/
example : roundDecimals 6 (nearest (25 / 10000000)) = nearest (3 / 1000000) := by decide +kernel

end Milo.Reasoning
