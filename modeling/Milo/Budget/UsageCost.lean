import Milo.Budget.ModelProfile
import Milo.Python.Text

/-!
# UsageCost — what a settled call costs against what was reserved for it

`read_usage` and `usage_cost`.  A reservation prices every input token at the dearer of the miss price
and the 5-minute write price, so it covers every split of the prompt but for tokens written at the
1-hour tier; what those may cost beyond it is the surcharge.
-/

namespace Milo.Budget

open Milo.Python

/-! ## 1. The usage of a response -/

def cacheTtl5m : List Char := "5m".toList

def cacheTtl1h : List Char := "1h".toList

/-- The counts `_count` reads from a usage block, and the four places a lifetime may be stated. -/
structure ReportedUsage where
  promptTokens : Option ℕ
  completionTokens : Option ℕ
  detailsCachedTokens : Option ℕ
  usageCachedTokens : Option ℕ
  cacheWriteTokens : Option ℕ
  detailsCacheWriteTtl : Option (List Char)
  detailsCacheTtl : Option (List Char)
  usageCacheWriteTtl : Option (List Char)
  usageCacheTtl : Option (List Char)

/-- The part of a usage breakdown that is priced. -/
structure PricedUsage where
  inputTokens : ℤ
  outputTokens : ℤ
  cachedInputTokens : Option ℤ
  cacheWriteTokens : Option ℤ
  cacheWriteTtl : List Char

/-- `_cache_write_ttl`: the first lifetime stated decides; none is the 5-minute tier. -/
def cacheWriteTtl (usage : ReportedUsage) : List Char :=
  match usage.detailsCacheWriteTtl.or (usage.detailsCacheTtl.or
      (usage.usageCacheWriteTtl.or usage.usageCacheTtl)) with
  | none => cacheTtl5m
  | some value =>
    if (strip value).map Char.toLower ∈ ["5m".toList, "5min".toList, "300".toList, "300s".toList] then
      cacheTtl5m
    else cacheTtl1h

def readUsage (usage : ReportedUsage) : PricedUsage where
  inputTokens := (usage.promptTokens.getD 0 : ℕ)
  outputTokens := (usage.completionTokens.getD 0 : ℕ)
  cachedInputTokens := (usage.detailsCachedTokens.or usage.usageCachedTokens).map Int.ofNat
  cacheWriteTokens := usage.cacheWriteTokens.map Int.ofNat
  cacheWriteTtl := cacheWriteTtl usage

/-! ## 2. Its price -/

namespace PricedUsage

def prompt (u : PricedUsage) : ℤ := max 0 u.inputTokens

def output (u : PricedUsage) : ℤ := max 0 u.outputTokens

def cached (u : PricedUsage) : ℤ := min u.prompt (max 0 (u.cachedInputTokens.getD 0))

def written (u : PricedUsage) : ℤ := min (u.prompt - u.cached) (max 0 (u.cacheWriteTokens.getD 0))

def missed (u : PricedUsage) : ℤ := u.prompt - u.cached - u.written

theorem prompt_nonneg (u : PricedUsage) : 0 ≤ u.prompt := le_max_left _ _

theorem cached_nonneg (u : PricedUsage) : 0 ≤ u.cached := le_min u.prompt_nonneg (le_max_left _ _)

theorem written_nonneg (u : PricedUsage) : 0 ≤ u.written := by
  have hcached : u.cached ≤ u.prompt := min_le_left _ _
  exact le_min (by omega) (le_max_left _ _)

theorem missed_nonneg (u : PricedUsage) : 0 ≤ u.missed := by
  have hwritten : u.written ≤ u.prompt - u.cached := min_le_left _ _
  unfold missed
  omega

end PricedUsage

namespace ModelProfile

/-- The price of a cache-written input token at a lifetime. -/
def cacheWritePrice (p : ModelProfile) (ttl : List Char) : ℚ :=
  (if ttl = cacheTtl5m then p.priceCacheWrite5m else p.priceCacheWrite1h).getD p.priceInputMiss

/-- Price one settled call from its usage breakdown. -/
def usageCost (p : ModelProfile) (u : PricedUsage) : ℚ :=
  money ((u.missed * p.priceInputMiss + u.cached * p.priceInputHit
    + u.written * p.cacheWritePrice u.cacheWriteTtl + u.output * p.priceOutput) / perMillion)

/-- What the written tokens of a call may cost beyond the reserve price. -/
def surcharge (p : ModelProfile) (u : PricedUsage) : ℚ :=
  money (u.written * max 0 (p.cacheWritePrice u.cacheWriteTtl - p.reserveInputPrice) / perMillion)

theorem miss_le_reserve (p : ModelProfile) : p.priceInputMiss ≤ p.reserveInputPrice := by
  unfold reserveInputPrice
  split
  · exact le_rfl
  · exact le_max_left _ _

/-- The reserve price covers a write at the 5-minute tier, and one that is not billed separately. -/
theorem cacheWritePrice_le_reserve (p : ModelProfile) {ttl : List Char}
    (h : ttl = cacheTtl5m ∨ p.priceCacheWrite1h = none) :
    p.cacheWritePrice ttl ≤ p.reserveInputPrice := by
  unfold cacheWritePrice
  split
  · unfold reserveInputPrice
    cases p.priceCacheWrite5m with
    | none => exact le_rfl
    | some write => exact le_max_right _ _
  · rename_i hne
    rw [h.resolve_left hne]
    exact p.miss_le_reserve

theorem surcharge_eq_zero (p : ModelProfile) {u : PricedUsage}
    (h : u.cacheWriteTtl = cacheTtl5m ∨ p.priceCacheWrite1h = none) : p.surcharge u = 0 := by
  have hprice := p.cacheWritePrice_le_reserve h
  have hnone : max 0 (p.cacheWritePrice u.cacheWriteTtl - p.reserveInputPrice) = 0 :=
    max_eq_left (by linarith)
  unfold surcharge money
  rw [hnone, mul_zero, zero_div, zero_div, Int.ceil_zero, Int.cast_zero, zero_mul]

end ModelProfile

theorem money_mono {a b : ℚ} (h : a ≤ b) : money a ≤ money b := by
  have hq : (0 : ℚ) < moneyQuantum := by norm_num [moneyQuantum]
  have hceil : ⌈a / moneyQuantum⌉ ≤ ⌈b / moneyQuantum⌉ :=
    Int.ceil_mono (div_le_div_of_nonneg_right h hq.le)
  unfold money
  exact mul_le_mul_of_nonneg_right (by exact_mod_cast hceil) hq.le

/-- Rounding up a sum gives at most what rounding up its parts gives. -/
theorem money_add_le (a b : ℚ) : money (a + b) ≤ money a + money b := by
  have hq : (0 : ℚ) ≤ moneyQuantum := by norm_num [moneyQuantum]
  have hceil : ⌈a / moneyQuantum + b / moneyQuantum⌉ ≤ ⌈a / moneyQuantum⌉ + ⌈b / moneyQuantum⌉ :=
    Int.ceil_add_le _ _
  have hcast : ((⌈a / moneyQuantum + b / moneyQuantum⌉ : ℤ) : ℚ) ≤
      ⌈a / moneyQuantum⌉ + ⌈b / moneyQuantum⌉ := by exact_mod_cast hceil
  unfold money
  rw [add_div, ← add_mul]
  exact mul_le_mul_of_nonneg_right hcast hq

/-! ## 3. The registry -/

/-- `PROFILES`. -/
def profiles : List ModelProfile := [kimiK3, kimiK26]

theorem hit_le_reserve {p : ModelProfile} (h : p ∈ profiles) : p.priceInputHit ≤ p.reserveInputPrice := by
  have hmiss : p.priceInputHit ≤ p.priceInputMiss := by
    rcases List.mem_cons.mp h with rfl | h
    · norm_num [kimiK3]
    · rw [List.mem_singleton.mp h]
      norm_num [kimiK26]
  exact hmiss.trans p.miss_le_reserve

/-- The price of a prompt exceeds the reserve price of the bound by the surcharge at most. -/
theorem promptPrice_le {p : ModelProfile} (h : p ∈ profiles) {u : PricedUsage} {inputBound : ℤ}
    (hinput : u.inputTokens ≤ inputBound) :
    u.missed * p.priceInputMiss + u.cached * p.priceInputHit
        + u.written * p.cacheWritePrice u.cacheWriteTtl ≤
      (max 0 inputBound : ℤ) * p.reserveInputPrice
        + u.written * max 0 (p.cacheWritePrice u.cacheWriteTtl - p.reserveInputPrice) := by
  have hmissed : (0 : ℚ) ≤ u.missed := by exact_mod_cast u.missed_nonneg
  have hcached : (0 : ℚ) ≤ u.cached := by exact_mod_cast u.cached_nonneg
  have hwritten : (0 : ℚ) ≤ u.written := by exact_mod_cast u.written_nonneg
  have hsplit : (u.missed : ℚ) + u.cached + u.written = u.prompt := by
    have hint : u.missed + u.cached + u.written = u.prompt := by
      unfold PricedUsage.missed
      omega
    exact_mod_cast hint
  have hprompt : (u.prompt : ℚ) ≤ (max 0 inputBound : ℤ) := by
    exact_mod_cast max_le_max le_rfl hinput
  have hmissPrice := mul_le_mul_of_nonneg_left p.miss_le_reserve hmissed
  have hhitPrice := mul_le_mul_of_nonneg_left (hit_le_reserve h) hcached
  have hwritePrice : u.written * p.cacheWritePrice u.cacheWriteTtl ≤
      u.written * p.reserveInputPrice
        + u.written * max 0 (p.cacheWritePrice u.cacheWriteTtl - p.reserveInputPrice) := by
    have hle := le_max_right 0 (p.cacheWritePrice u.cacheWriteTtl - p.reserveInputPrice)
    rw [← mul_add]
    exact mul_le_mul_of_nonneg_left (by linarith) hwritten
  have hreserve := mul_le_mul_of_nonneg_right hprompt p.reserveInputPrice_nonneg
  rw [← hsplit, add_mul, add_mul] at hreserve
  linarith

/-- A call never costs more than was reserved for it and the surcharge of its written tokens, and there
    is none unless the provider reports the dearer tier of a model that bills it. -/
theorem usageCost_le_worstCase {p : ModelProfile} (h : p ∈ profiles) (inputBound maxOutput : ℤ)
    (u : PricedUsage) (hinput : u.inputTokens ≤ inputBound) (houtput : u.outputTokens ≤ maxOutput) :
    p.usageCost u ≤ p.worstCaseCost inputBound maxOutput + p.surcharge u ∧
      (u.cacheWriteTtl = cacheTtl5m ∨ p.priceCacheWrite1h = none →
        p.usageCost u ≤ p.worstCaseCost inputBound maxOutput) := by
  have hprompt := promptPrice_le h hinput
  have hout : (u.output : ℚ) * p.priceOutput ≤ (max 0 maxOutput : ℤ) * p.priceOutput := by
    apply mul_le_mul_of_nonneg_right _ p.output_nonneg
    exact_mod_cast max_le_max le_rfl houtput
  have hmillion : (0 : ℚ) ≤ perMillion := by norm_num [perMillion]
  have hcost : p.usageCost u ≤ p.worstCaseCost inputBound maxOutput + p.surcharge u := by
    unfold ModelProfile.usageCost ModelProfile.worstCaseCost ModelProfile.surcharge
    apply le_trans _ (money_add_le _ _)
    apply money_mono
    rw [← add_div]
    exact div_le_div_of_nonneg_right (by linarith) hmillion
  refine ⟨hcost, ?_⟩
  intro htier
  rw [p.surcharge_eq_zero htier, add_zero] at hcost
  exact hcost

theorem usageCost_le_worstCase_k3 :
    kimiK3.usageCost ⟨10, 5, some 4, some 6, cacheTtl1h⟩ ≤
        kimiK3.worstCaseCost 12 5 + kimiK3.surcharge ⟨10, 5, some 4, some 6, cacheTtl1h⟩ ∧
      (cacheTtl1h = cacheTtl5m ∨ kimiK3.priceCacheWrite1h = none →
        kimiK3.usageCost ⟨10, 5, some 4, some 6, cacheTtl1h⟩ ≤ kimiK3.worstCaseCost 12 5) :=
  usageCost_le_worstCase List.mem_cons_self 12 5 ⟨10, 5, some 4, some 6, cacheTtl1h⟩ (by decide) (by decide)

/-- A thousand tokens written for an hour. -/
def hourWrite : ReportedUsage :=
  ⟨some 1000, none, none, none, some 1000, some "1h".toList, none, none, none⟩

/-- Tokens written for an hour cost twice what was reserved for them. -/
theorem hourWrite_exceeds :
    ¬∀ (p : ModelProfile) (inputBound maxOutput : ℤ) (usage : ReportedUsage), p ∈ profiles →
      (readUsage usage).inputTokens ≤ inputBound → (readUsage usage).outputTokens ≤ maxOutput →
        p.usageCost (readUsage usage) ≤ p.worstCaseCost inputBound maxOutput := by
  intro h
  have hle := h kimiK3 1000 0 hourWrite List.mem_cons_self (by decide) (by decide)
  exact absurd hle (by decide +kernel)

end Milo.Budget
