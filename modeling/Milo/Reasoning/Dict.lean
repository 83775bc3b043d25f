import Mathlib

/-!
# Dict — insertion-ordered dictionaries

A dictionary is an association list whose keys are pairwise distinct, kept in the order in which
the keys were first set: setting an existing key rewrites its value in place, setting a new key
appends it, and deleting a key keeps the order of the others.  Lookups, key sets and sums over the
stored values are all the later modules need.
-/

namespace Milo.Reasoning

universe u v w

/-- An insertion-ordered dictionary; the field `nodup` keeps every key unique. -/
structure Dict (κ : Type u) (ν : Type v) where
  entries : List (κ × ν)
  nodup : (entries.map Prod.fst).Nodup

namespace Dict

variable {κ : Type u} {ν : Type v}

def keys (d : Dict κ ν) : List κ := d.entries.map Prod.fst

def values (d : Dict κ ν) : List ν := d.entries.map Prod.snd

def empty : Dict κ ν := ⟨[], List.nodup_nil⟩

instance : Inhabited (Dict κ ν) := ⟨empty⟩

variable {d : Dict κ ν} {k k' : κ} {v : ν}

@[ext] theorem ext {e : Dict κ ν} (h : d.entries = e.entries) : d = e := by
  cases d; cases e; cases h; rfl

@[simp] theorem entries_empty : (empty : Dict κ ν).entries = [] := rfl

@[simp] theorem keys_empty : (empty : Dict κ ν).keys = [] := rfl

theorem keys_nodup (d : Dict κ ν) : d.keys.Nodup := d.nodup

theorem mem_keys_of_mem (h : (k, v) ∈ d.entries) : k ∈ d.keys :=
  List.mem_map_of_mem h

theorem exists_of_mem_keys (h : k ∈ d.keys) : ∃ v, (k, v) ∈ d.entries := by
  obtain ⟨⟨k', v⟩, hm, rfl⟩ := List.mem_map.mp h
  exact ⟨v, hm⟩

variable [DecidableEq κ]

instance [DecidableEq ν] : DecidableEq (Dict κ ν) := fun d e =>
  decidable_of_iff (d.entries = e.entries) ⟨ext, fun h => h ▸ rfl⟩

def get? (d : Dict κ ν) (k : κ) : Option ν := d.entries.lookup k

private theorem rewriteKeys (l : List (κ × ν)) (k : κ) (v : ν) :
    (l.map fun e => if e.1 = k then (k, v) else e).map Prod.fst = l.map Prod.fst := by
  rw [List.map_map]
  apply List.map_congr_left
  intro e _
  simp only [Function.comp]
  split
  · rename_i h
    exact h.symm
  · rfl

def set (d : Dict κ ν) (k : κ) (v : ν) : Dict κ ν :=
  if hk : k ∈ d.keys then
    ⟨d.entries.map fun e => if e.1 = k then (k, v) else e, by rw [rewriteKeys]; exact d.nodup⟩
  else
    ⟨d.entries ++ [(k, v)], by
      rw [List.map_append, List.nodup_append]
      refine ⟨d.nodup, List.nodup_singleton _, fun a ha b hb hab => hk ?_⟩
      rw [List.map_singleton, List.mem_singleton] at hb
      have hak : a = k := by rw [hab, hb]
      exact hak ▸ ha⟩

def erase (d : Dict κ ν) (k : κ) : Dict κ ν :=
  ⟨d.entries.filter fun e => decide (e.1 ≠ k),
    d.nodup.sublist (List.Sublist.map _ List.filter_sublist)⟩

/-- Keep the entries `p` accepts, in their order. -/
def filter (d : Dict κ ν) (p : κ → ν → Bool) : Dict κ ν :=
  ⟨d.entries.filter fun e => p e.1 e.2, d.nodup.sublist (List.Sublist.map _ List.filter_sublist)⟩

/-! ## 1. Lookups -/

@[simp] theorem get?_empty (k : κ) : (empty : Dict κ ν).get? k = none := rfl

theorem lookup_eq_some_iff_mem {κ : Type u} {ν : Type v} [BEq κ] [LawfulBEq κ] {l : List (κ × ν)}
    (hn : (l.map Prod.fst).Nodup) {k : κ} {v : ν} : l.lookup k = some v ↔ (k, v) ∈ l := by
  induction l with
  | nil => simp
  | cons e l ih =>
    obtain ⟨k', v'⟩ := e
    rw [List.map_cons, List.nodup_cons] at hn
    by_cases hk : k = k'
    · subst hk
      have hnot : (k, v) ∉ l := fun hw => hn.1 (List.mem_map.mpr ⟨_, hw, rfl⟩)
      simp [hnot, eq_comm]
    · have hne : (k == k') = false := beq_false_of_ne hk
      simp only [List.lookup, hne, List.mem_cons, Prod.mk.injEq, hk, false_and, false_or]
      exact ih hn.2

theorem get?_eq_some : d.get? k = some v ↔ (k, v) ∈ d.entries :=
  lookup_eq_some_iff_mem d.nodup

theorem mem_keys_iff : k ∈ d.keys ↔ ∃ v, d.get? k = some v := by
  constructor
  · intro h
    obtain ⟨v, hv⟩ := exists_of_mem_keys h
    exact ⟨v, get?_eq_some.mpr hv⟩
  · rintro ⟨v, hv⟩
    exact mem_keys_of_mem (get?_eq_some.mp hv)

theorem get?_eq_none : d.get? k = none ↔ k ∉ d.keys := by
  rw [mem_keys_iff]
  cases d.get? k <;> simp

theorem mem_entries_set {v' : ν} :
    (k', v') ∈ (d.set k v).entries ↔ (k' = k ∧ v' = v) ∨ (k' ≠ k ∧ (k', v') ∈ d.entries) := by
  unfold set
  split
  · rename_i hk
    simp only [List.mem_map, Prod.exists]
    constructor
    · rintro ⟨a, b, hab, he⟩
      split at he
      · cases he; exact Or.inl ⟨rfl, rfl⟩
      · rename_i hne
        cases he; exact Or.inr ⟨hne, hab⟩
    · rintro (⟨rfl, rfl⟩ | ⟨hne, hm⟩)
      · obtain ⟨w, hw⟩ := exists_of_mem_keys hk
        exact ⟨_, w, hw, if_pos rfl⟩
      · exact ⟨k', v', hm, if_neg hne⟩
  · rename_i hk
    simp only [List.mem_append, List.mem_singleton, Prod.mk.injEq]
    constructor
    · rintro (hm | he)
      · exact Or.inr ⟨fun h => hk (h ▸ mem_keys_of_mem hm), hm⟩
      · exact Or.inl he
    · rintro (he | ⟨-, hm⟩)
      · exact Or.inr he
      · exact Or.inl hm

theorem mem_entries_erase {v' : ν} : (k', v') ∈ (d.erase k).entries ↔ k' ≠ k ∧ (k', v') ∈ d.entries := by
  simp [erase, and_comm]

omit [DecidableEq κ] in
theorem mem_entries_filter {p : κ → ν → Bool} :
    (k, v) ∈ (d.filter p).entries ↔ (k, v) ∈ d.entries ∧ p k v = true := by
  simp [filter]

theorem get?_filter (d : Dict κ ν) (p : κ → ν → Bool) (k : κ) :
    (d.filter p).get? k = (d.get? k).filter (p k) := by
  ext v
  rw [get?_eq_some, mem_entries_filter, Option.filter_eq_some_iff, get?_eq_some]

omit [DecidableEq κ] in
theorem filter_eq_self {p : κ → ν → Bool} (h : ∀ k v, (k, v) ∈ d.entries → p k v = true) : d.filter p = d := by
  apply ext
  rw [filter, List.filter_eq_self]
  exact fun e he => h e.1 e.2 he

@[simp] theorem get?_set_self (d : Dict κ ν) (k : κ) (v : ν) : (d.set k v).get? k = some v :=
  get?_eq_some.mpr (mem_entries_set.mpr (Or.inl ⟨rfl, rfl⟩))

theorem get?_set_ne (d : Dict κ ν) (v : ν) (h : k' ≠ k) : (d.set k v).get? k' = d.get? k' := by
  ext w
  rw [get?_eq_some, mem_entries_set, get?_eq_some]
  simp [h]

theorem get?_set (d : Dict κ ν) (k k' : κ) (v : ν) :
    (d.set k v).get? k' = if k' = k then some v else d.get? k' := by
  split
  · rename_i h
    rw [h, get?_set_self]
  · rename_i h
    exact get?_set_ne d v h

@[simp] theorem get?_erase_self (d : Dict κ ν) (k : κ) : (d.erase k).get? k = none := by
  rw [get?_eq_none]
  intro h
  obtain ⟨v, hv⟩ := exists_of_mem_keys h
  exact (mem_entries_erase.mp hv).1 rfl

theorem get?_erase_ne (d : Dict κ ν) (h : k' ≠ k) : (d.erase k).get? k' = d.get? k' := by
  ext w
  rw [get?_eq_some, mem_entries_erase, get?_eq_some]
  simp [h]

theorem get?_erase (d : Dict κ ν) (k k' : κ) :
    (d.erase k).get? k' = if k' = k then none else d.get? k' := by
  split
  · rename_i h
    rw [h, get?_erase_self]
  · rename_i h
    exact get?_erase_ne d h

/-! ## 2. Key sets -/

theorem mem_keys_set : k' ∈ (d.set k v).keys ↔ k' = k ∨ k' ∈ d.keys := by
  rw [mem_keys_iff, mem_keys_iff]
  by_cases h : k' = k
  · subst h
    simp
  · simp [get?_set_ne d v h, h]

theorem mem_keys_erase : k' ∈ (d.erase k).keys ↔ k' ≠ k ∧ k' ∈ d.keys := by
  rw [mem_keys_iff, mem_keys_iff]
  by_cases h : k' = k
  · subst h
    simp
  · simp [get?_erase_ne d h, h]

theorem keys_set_of_mem (h : k ∈ d.keys) : (d.set k v).keys = d.keys := by
  unfold set
  rw [dif_pos h]
  exact rewriteKeys _ _ _

theorem entries_set_of_notMem (h : k ∉ d.keys) : (d.set k v).entries = d.entries ++ [(k, v)] := by
  unfold set
  rw [dif_neg h]

theorem keys_set_of_notMem (h : k ∉ d.keys) : (d.set k v).keys = d.keys ++ [k] := by
  simp [keys, entries_set_of_notMem h]

theorem erase_of_notMem (h : k ∉ d.keys) : d.erase k = d := by
  apply ext
  unfold erase
  rw [List.filter_eq_self]
  rintro ⟨k', v⟩ hm
  have hne : k' ≠ k := fun he => h (he ▸ mem_keys_of_mem hm)
  simpa using hne

/-- Every value replaced by what `f` makes of it, under its key. -/
def mapValues {μ : Type w} (f : κ → ν → μ) (d : Dict κ ν) : Dict κ μ where
  entries := d.entries.map fun e => (e.1, f e.1 e.2)
  nodup := by
    rw [List.map_map]
    exact d.nodup

theorem get?_mapValues {μ : Type w} (f : κ → ν → μ) (d : Dict κ ν) (k : κ) :
    (d.mapValues f).get? k = (d.get? k).map (f k) := by
  ext v
  rw [get?_eq_some, Option.map_eq_some_iff]
  unfold mapValues
  simp only [List.mem_map, Prod.mk.injEq, Prod.exists]
  apply Iff.intro
  · intro h
    rcases h with ⟨key, value, hmem, hkey, hvalue⟩
    rw [hkey] at hmem hvalue
    exact ⟨value, get?_eq_some.mpr hmem, hvalue⟩
  · intro h
    rcases h with ⟨value, hget, hvalue⟩
    exact ⟨k, value, get?_eq_some.mp hget, rfl, hvalue⟩

theorem length_keys_erase_le (d : Dict κ ν) (k : κ) : (d.erase k).keys.length ≤ d.keys.length := by
  simpa [keys, erase] using List.length_filter_le _ d.entries

/-! ## 3. Sums over the stored values -/

section Total

variable {M : Type w} [AddCommMonoid M]

/-- The sum of `f key value` over the entries. -/
def total (f : κ → ν → M) (d : Dict κ ν) : M := (d.entries.map fun e => f e.1 e.2).sum

theorem total_set_of_notMem (f : κ → ν → M) {d : Dict κ ν} {k : κ} {v : ν} (h : k ∉ d.keys) :
    total f (d.set k v) = total f d + f k v := by
  simp [total, entries_set_of_notMem h]

private theorem sum_filter_key (f : κ → ν → M) {l : List (κ × ν)} (hn : (l.map Prod.fst).Nodup)
    {k : κ} {v : ν} (h : (k, v) ∈ l) :
    (l.map fun e => f e.1 e.2).sum =
      f k v + ((l.filter fun e => decide (e.1 ≠ k)).map fun e => f e.1 e.2).sum := by
  induction l with
  | nil => cases h
  | cons e l ih =>
    obtain ⟨k', v'⟩ := e
    rw [List.map_cons, List.nodup_cons] at hn
    by_cases hk : k' = k
    · subst hk
      have hv : v = v' := by
        rcases List.mem_cons.mp h with he | hm
        · cases he; rfl
        · exact absurd (List.mem_map_of_mem hm) hn.1
      have hself : (l.filter fun e => decide (e.1 ≠ k')) = l := by
        rw [List.filter_eq_self]
        intro e he
        have hne : e.1 ≠ k' := fun h' => hn.1 (List.mem_map.mpr ⟨e, he, h'⟩)
        simpa using hne
      subst hv
      rw [List.filter_cons_of_neg (by simp), hself, List.map_cons, List.sum_cons]
    · have hm : (k, v) ∈ l := by
        rcases List.mem_cons.mp h with he | hm
        · cases he; exact absurd rfl hk
        · exact hm
      rw [List.filter_cons_of_pos (by simpa using hk), List.map_cons, List.sum_cons,
        List.map_cons, List.sum_cons, ih hn.2 hm]
      exact add_left_comm _ _ _

theorem total_eq_add_erase (f : κ → ν → M) {d : Dict κ ν} {k : κ} {v : ν}
    (h : d.get? k = some v) : total f d = f k v + total f (d.erase k) :=
  sum_filter_key f d.nodup (get?_eq_some.mp h)

theorem total_set_of_get? (f : κ → ν → M) {d : Dict κ ν} {k : κ} {v v' : ν}
    (h : d.get? k = some v') : total f (d.set k v) + f k v' = total f d + f k v := by
  have herase : (d.set k v).erase k = d.erase k := by
    apply ext
    have hk : k ∈ d.keys := mem_keys_iff.mpr ⟨v', h⟩
    show ((d.set k v).entries.filter fun e => decide (e.1 ≠ k)) = _
    unfold set
    rw [dif_pos hk, List.filter_map]
    show List.map _ (List.filter _ d.entries) = List.filter _ d.entries
    have hkeep : ∀ e ∈ d.entries, (decide (((if e.1 = k then (k, v) else e) : κ × ν).1 ≠ k)) =
        decide (e.1 ≠ k) := by
      intro e _
      split
      · rename_i he
        simp [he]
      · rfl
    have hfilter := List.filter_congr hkeep
    simp only [Function.comp_def]
    rw [hfilter]
    have hmap : ∀ e ∈ d.entries.filter fun e => decide (e.1 ≠ k),
        (if e.1 = k then (k, v) else e) = e := by
      intro e he
      have hne : e.1 ≠ k := of_decide_eq_true (List.mem_filter.mp he).2
      exact if_neg hne
    rw [List.map_congr_left hmap, List.map_id']
  have hself : (d.set k v).get? k = some v := by simp
  rw [total_eq_add_erase f hself, herase, total_eq_add_erase f h, add_right_comm,
    add_comm (f k v), add_right_comm]

end Total

end Dict

end Milo.Reasoning
