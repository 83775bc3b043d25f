import Milo.Reasoning.Dict

/-!
# Holds — amounts held for work in flight

Admission control holds an amount for every item in flight, records it under the item's own key
and keeps the running total next to the records.  `Holds f d sum last` is what has to be true of
the pair: the total is the sum of the recorded weights, no weight is negative, and no key is
newer than `last`, so the next key is fresh.  Opening and closing an item keep it, and closing
with a clamp at zero releases exactly what was held.
-/

namespace Milo.Reasoning

universe u v w

variable {κ : Type u} {ν : Type v} {M : Type w}
variable [LinearOrder κ] [AddCommGroup M] [LinearOrder M]

structure Holds (f : ν → M) (d : Dict κ ν) (sum : M) (last : κ) : Prop where
  sum_eq : sum = Dict.total (fun _ v => f v) d
  nonneg : ∀ k v, d.get? k = some v → 0 ≤ f v
  bounded : ∀ k ∈ d.keys, k ≤ last

namespace Holds

variable {f : ν → M} {d : Dict κ ν} {sum : M} {last : κ}

theorem empty (f : ν → M) (last : κ) : Holds f Dict.empty 0 last where
  sum_eq := rfl
  nonneg := by simp
  bounded := by simp

theorem notMem_of_lt (h : Holds f d sum last) {k : κ} (hk : last < k) : k ∉ d.keys :=
  fun hmem => absurd (h.bounded k hmem) (not_le.mpr hk)

theorem erase (h : Holds f d sum last) {k : κ} {v : ν} (hk : d.get? k = some v) :
    Holds f (d.erase k) (sum - f v) last where
  sum_eq := by
    rw [h.sum_eq, Dict.total_eq_add_erase _ hk, add_sub_cancel_left]
  nonneg := by
    intro k' v' hget
    rw [Dict.get?_erase] at hget
    split at hget
    · cases hget
    · exact h.nonneg k' v' hget
  bounded := fun k' hk' => h.bounded k' (Dict.mem_keys_erase.mp hk').2

theorem opened (h : Holds f d sum last) {k : κ} {v : ν} (hlt : last < k) (hv : 0 ≤ f v) :
    Holds f (d.set k v) (sum + f v) k where
  sum_eq := by
    rw [Dict.total_set_of_notMem _ (h.notMem_of_lt hlt), h.sum_eq]
  nonneg := by
    intro k' v' hget
    rw [Dict.get?_set] at hget
    split at hget
    · cases hget
      exact hv
    · exact h.nonneg k' v' hget
  bounded := by
    intro k' hk'
    rcases Dict.mem_keys_set.mp hk' with rfl | hmem
    · exact le_rfl
    · exact (h.bounded k' hmem).trans hlt.le

theorem mono (h : Holds f d sum last) {last' : κ} (hle : last ≤ last') :
    Holds f d sum last' :=
  ⟨h.sum_eq, h.nonneg, fun k hk => (h.bounded k hk).trans hle⟩

variable [IsOrderedAddMonoid M]

theorem sum_nonneg (h : Holds f d sum last) : 0 ≤ sum := by
  rw [h.sum_eq]
  apply List.sum_nonneg
  intro x hx
  obtain ⟨⟨k, v⟩, hkv, rfl⟩ := List.mem_map.mp hx
  exact h.nonneg k v (Dict.get?_eq_some.mpr hkv)

theorem weight_le_sum (h : Holds f d sum last) {k : κ} {v : ν} (hk : d.get? k = some v) :
    f v ≤ sum :=
  sub_nonneg.mp (h.erase hk).sum_nonneg

theorem closed (h : Holds f d sum last) {k : κ} {v : ν} (hk : d.get? k = some v) :
    Holds f (d.erase k) (max 0 (sum - f v)) last := by
  have herase := h.erase hk
  rw [max_eq_right herase.sum_nonneg]
  exact herase

end Holds

end Milo.Reasoning
