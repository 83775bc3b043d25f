import Mathlib

/-!
# ModelProfile — the prices a call is reserved at

Prices are dollars per million tokens.  Amounts are exact rationals; `money` rounds a price up to
the quantum the ledger stores.
-/

namespace Milo.Budget

def perMillion : ℚ := 1000000

def moneyQuantum : ℚ := 1 / 100000000

/-- Round up to the money quantum. -/
def money (value : ℚ) : ℚ := ⌈value / moneyQuantum⌉ * moneyQuantum

theorem money_nonneg {value : ℚ} (h : 0 ≤ value) : 0 ≤ money value := by
  have hq : (0 : ℚ) ≤ moneyQuantum := by norm_num [moneyQuantum]
  have hceil : (0 : ℤ) ≤ ⌈value / moneyQuantum⌉ := Int.ceil_nonneg (div_nonneg h hq)
  unfold money
  exact mul_nonneg (by exact_mod_cast hceil) hq

/-- The priced part of a registered model profile; no registered price is negative. -/
structure ModelProfile where
  model : String
  priceInputMiss : ℚ
  priceInputHit : ℚ
  priceCacheWrite5m : Option ℚ
  priceCacheWrite1h : Option ℚ
  priceOutput : ℚ
  miss_nonneg : 0 ≤ priceInputMiss
  output_nonneg : 0 ≤ priceOutput

namespace ModelProfile

/-- The input price a worst-case reservation uses. -/
def reserveInputPrice (p : ModelProfile) : ℚ :=
  match p.priceCacheWrite5m with
  | none => p.priceInputMiss
  | some write => max p.priceInputMiss write

def worstCaseCost (p : ModelProfile) (inputUpperBound maxOutput : ℤ) : ℚ :=
  money (((max 0 inputUpperBound : ℤ) * p.reserveInputPrice
    + (max 0 maxOutput : ℤ) * p.priceOutput) / perMillion)

theorem reserveInputPrice_nonneg (p : ModelProfile) : 0 ≤ p.reserveInputPrice := by
  unfold reserveInputPrice
  split
  · exact p.miss_nonneg
  · exact le_max_of_le_left p.miss_nonneg

theorem worstCaseCost_nonneg (p : ModelProfile) (inputUpperBound maxOutput : ℤ) :
    0 ≤ p.worstCaseCost inputUpperBound maxOutput := by
  have hin : (0 : ℚ) ≤ (max 0 inputUpperBound : ℤ) := by exact_mod_cast le_max_left _ _
  have hout : (0 : ℚ) ≤ (max 0 maxOutput : ℤ) := by exact_mod_cast le_max_left _ _
  have hreserve := mul_nonneg hin p.reserveInputPrice_nonneg
  have houtput := mul_nonneg hout p.output_nonneg
  exact money_nonneg (div_nonneg (add_nonneg hreserve houtput) (by norm_num [perMillion]))

end ModelProfile

def kimiK3 : ModelProfile where
  model := "kimi-k3"
  priceInputMiss := 3
  priceInputHit := 3 / 10
  priceCacheWrite5m := some 3
  priceCacheWrite1h := some 6
  priceOutput := 15
  miss_nonneg := by norm_num
  output_nonneg := by norm_num

def kimiK26 : ModelProfile where
  model := "kimi-k2.6"
  priceInputMiss := 95 / 100
  priceInputHit := 16 / 100
  priceCacheWrite5m := none
  priceCacheWrite1h := none
  priceOutput := 4
  miss_nonneg := by norm_num
  output_nonneg := by norm_num

end Milo.Budget
