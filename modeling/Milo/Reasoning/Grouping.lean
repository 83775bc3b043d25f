import Milo.Reasoning.Dict

/-!
# Grouping — dictionaries built from lists

A dictionary is built entry by entry, updated from another one, or grown by appending every item to
the group of its key.  A list names two different values exactly when its set of values has more
than one member.
-/

namespace Milo.Reasoning

universe u v w

namespace Dict

variable {κ : Type u} {ν : Type v} [DecidableEq κ]

/-! ## 1. Building and updating -/

/-- Set every entry of `pairs` in turn. -/
def setAll (d : Dict κ ν) (pairs : List (κ × ν)) : Dict κ ν :=
  pairs.foldl (fun d e => d.set e.1 e.2) d

def ofList (pairs : List (κ × ν)) : Dict κ ν := setAll empty pairs

/-- The union of two dictionaries; the second one wins. -/
def update (d e : Dict κ ν) : Dict κ ν := setAll d e.entries

variable {pairs : List (κ × ν)}

theorem entries_setAll :
    ∀ {d : Dict κ ν}, (pairs.map Prod.fst).Nodup → (∀ e ∈ pairs, e.1 ∉ d.keys) →
      (d.setAll pairs).entries = d.entries ++ pairs := by
  induction pairs with
  | nil => exact fun _ _ => (List.append_nil _).symm
  | cons e pairs ih =>
    intro d hnodup hnew
    rw [List.map_cons, List.nodup_cons] at hnodup
    have hhead : e.1 ∉ d.keys := hnew e List.mem_cons_self
    show ((d.set e.1 e.2).setAll pairs).entries = _
    rw [ih hnodup.2, entries_set_of_notMem hhead, List.append_assoc]
    · rfl
    · intro e' he'
      rw [mem_keys_set]
      intro hmem
      rcases hmem with heq | hold
      · exact hnodup.1 (heq ▸ List.mem_map_of_mem he')
      · exact hnew e' (List.mem_cons_of_mem _ he') hold

/-- Pairs with distinct keys are the entries of the dictionary built from them. -/
theorem entries_ofList (h : (pairs.map Prod.fst).Nodup) : (ofList pairs : Dict κ ν).entries = pairs :=
  entries_setAll h fun _ _ => List.not_mem_nil

theorem get?_setAll_of_notMem :
    ∀ {d : Dict κ ν} {k : κ}, k ∉ pairs.map Prod.fst → (d.setAll pairs).get? k = d.get? k := by
  induction pairs with
  | nil => exact fun _ => rfl
  | cons e pairs ih =>
    intro d k h
    rw [List.map_cons, List.mem_cons, not_or] at h
    show ((d.set e.1 e.2).setAll pairs).get? k = _
    rw [ih h.2, get?_set_ne d e.2 h.1]

theorem get?_setAll_cases :
    ∀ {d : Dict κ ν} {k : κ} {v : ν}, (d.setAll pairs).get? k = some v →
      (k, v) ∈ pairs ∨ (k ∉ pairs.map Prod.fst ∧ d.get? k = some v) := by
  induction pairs with
  | nil => exact fun h => Or.inr ⟨List.not_mem_nil, h⟩
  | cons e pairs ih =>
    intro d k v h
    rcases ih (d := d.set e.1 e.2) h with hin | ⟨hout, hset⟩
    · exact Or.inl (List.mem_cons_of_mem _ hin)
    · rw [get?_set] at hset
      by_cases hk : k = e.1
      · rw [if_pos hk, Option.some.injEq] at hset
        left
        rw [hk, ← hset]
        exact List.mem_cons_self
      · rw [if_neg hk] at hset
        right
        refine ⟨?_, hset⟩
        rw [List.map_cons, List.mem_cons]
        exact fun hmem => hmem.elim hk hout

theorem mem_keys_setAll :
    ∀ {d : Dict κ ν} {k : κ}, k ∈ (d.setAll pairs).keys ↔ k ∈ pairs.map Prod.fst ∨ k ∈ d.keys := by
  induction pairs with
  | nil => exact fun {d k} => ⟨Or.inr, fun h => h.resolve_left List.not_mem_nil⟩
  | cons e pairs ih =>
    intro d k
    show k ∈ ((d.set e.1 e.2).setAll pairs).keys ↔ _
    rw [ih, mem_keys_set, List.map_cons, List.mem_cons]
    tauto

theorem get?_setAll_of_mem (hnodup : (pairs.map Prod.fst).Nodup) {d : Dict κ ν} {k : κ} {v : ν} (h : (k, v) ∈ pairs) :
    (d.setAll pairs).get? k = some v := by
  have hkey : k ∈ pairs.map Prod.fst := List.mem_map_of_mem h
  obtain ⟨v', hv'⟩ := mem_keys_iff.mp (mem_keys_setAll.mpr (Or.inl hkey) : k ∈ (d.setAll pairs).keys)
  rw [hv']
  rcases get?_setAll_cases hv' with hin | ⟨hout, -⟩
  · exact congrArg some (congrArg Prod.snd (List.inj_on_of_nodup_map hnodup hin h rfl))
  · exact absurd hkey hout

/-- The entries after setting pairs of distinct keys: those of the other keys, and the pairs. -/
theorem perm_entries_setAll (hnodup : (pairs.map Prod.fst).Nodup) (d : Dict κ ν) :
    (d.setAll pairs).entries.Perm
      (d.entries.filter (fun e => decide (e.1 ∉ pairs.map Prod.fst)) ++ pairs) := by
  rw [List.perm_ext_iff_of_nodup]
  · rintro ⟨k, v⟩
    rw [← get?_eq_some, List.mem_append, List.mem_filter, decide_eq_true_eq, ← get?_eq_some]
    constructor
    · intro h
      rcases get?_setAll_cases h with hin | ⟨hout, hold⟩
      · exact Or.inr hin
      · exact Or.inl ⟨hold, hout⟩
    · intro h
      rcases h with ⟨hold, hout⟩ | hin
      · rw [get?_setAll_of_notMem hout]
        exact hold
      · exact get?_setAll_of_mem hnodup hin
  · exact List.Nodup.of_map Prod.fst (d.setAll pairs).nodup
  · apply List.Nodup.of_map Prod.fst
    rw [List.map_append, List.nodup_append]
    refine ⟨?_, hnodup, ?_⟩
    · exact d.nodup.sublist (List.filter_sublist.map _)
    · intro k hk k' hk' hsame
      obtain ⟨e, he, rfl⟩ := List.mem_map.mp hk
      exact of_decide_eq_true (List.mem_filter.mp he).2 (hsame ▸ hk')
/-- A union holds what the second dictionary holds, and elsewhere what the first one does. -/
theorem get?_update_cases {d e : Dict κ ν} {k : κ} {v : ν} (h : (d.update e).get? k = some v) :
    e.get? k = some v ∨ (k ∉ e.keys ∧ d.get? k = some v) := by
  rcases get?_setAll_cases h with hin | hout
  · exact Or.inl (get?_eq_some.mpr hin)
  · exact Or.inr hout

theorem mem_keys_update {d e : Dict κ ν} {k : κ} :
    k ∈ (d.update e).keys ↔ k ∈ e.keys ∨ k ∈ d.keys := mem_keys_setAll

/-! ## 2. Groups -/

variable {α : Type w}

/-- `groups.setdefault(key(item), []).append(item)`. -/
def appendTo (key : α → κ) (groups : Dict κ (List α)) (item : α) : Dict κ (List α) :=
  groups.set (key item) ((groups.get? (key item)).getD [] ++ [item])

/-- The items by their key, keys in order of first appearance. -/
def groupBy (key : α → κ) (items : List α) : Dict κ (List α) := items.foldl (appendTo key) empty

/-- The group of a key is the items of that key, in their order. -/
theorem get?_groupBy (key : α → κ) (items : List α) (k : κ) :
    (groupBy key items).get? k =
      if items.filter (fun item => key item = k) = [] then none
      else some (items.filter fun item => key item = k) := by
  induction items using List.reverseRecOn with
  | nil => rfl
  | append_singleton items item ih =>
    have hstep : groupBy key (items ++ [item]) = appendTo key (groupBy key items) item := by
      unfold groupBy
      rw [List.foldl_append]
      rfl
    rw [hstep]
    unfold appendTo
    rw [get?_set, List.filter_append]
    by_cases hk : key item = k
    · have hne : items.filter (fun item => key item = k) ++ [item] ≠ [] := by simp
      rw [if_pos hk.symm, hk, ih, List.filter_cons_of_pos (by simpa using hk), List.filter_nil,
        if_neg hne]
      split
      · rename_i hempty
        rw [hempty]
        rfl
      · rfl
    · rw [if_neg fun h => hk h.symm, ih, List.filter_cons_of_neg (by simpa using hk),
        List.filter_nil, List.append_nil]

theorem getD_get?_groupBy (key : α → κ) (items : List α) (k : κ) :
    ((groupBy key items).get? k).getD [] = items.filter fun item => key item = k := by
  rw [get?_groupBy]
  split
  · rename_i hempty
    rw [hempty]
    rfl
  · rfl

theorem mem_groupBy {key : α → κ} {items : List α} {k : κ} {group : List α} :
    (k, group) ∈ (groupBy key items).entries ↔
      group = items.filter (fun item => key item = k) ∧ group ≠ [] := by
  rw [← get?_eq_some, get?_groupBy]
  split
  · rename_i hempty
    constructor
    · exact fun h => by cases h
    · exact fun h => absurd (h.1.trans hempty) h.2
  · rename_i hne
    rw [Option.some.injEq]
    constructor
    · exact fun h => ⟨h.symm, fun hnil => hne (h.trans hnil)⟩
    · exact fun h => h.1.symm

end Dict

/-! ## 3. Two different values -/

/-- The set of values has more than one member exactly when two of them differ. -/
theorem one_lt_length_dedup {α : Type u} [DecidableEq α] {l : List α} :
    1 < l.dedup.length ↔ ∃ a ∈ l, ∃ b ∈ l, a ≠ b := by
  constructor
  · intro h
    have hnodup := List.nodup_dedup l
    cases hl : l.dedup with
    | nil =>
      rw [hl] at h
      exact absurd h (Nat.not_lt_zero 1)
    | cons a rest =>
      cases rest with
      | nil =>
        rw [hl] at h
        exact absurd h (Nat.lt_irrefl 1)
      | cons b rest =>
        have hmem : ∀ c, c ∈ a :: b :: rest → c ∈ l := fun c hc => List.mem_dedup.mp (hl ▸ hc)
        refine ⟨a, hmem a List.mem_cons_self, b,
          hmem b (List.mem_cons_of_mem _ List.mem_cons_self), ?_⟩
        intro heq
        rw [hl, List.nodup_cons] at hnodup
        exact hnodup.1 (heq ▸ List.mem_cons_self)
  · intro h
    rcases h with ⟨a, ha, b, hb, hne⟩
    by_contra hshort
    have ha' := List.mem_dedup.mpr ha
    have hb' := List.mem_dedup.mpr hb
    cases hl : l.dedup with
    | nil =>
      rw [hl] at ha'
      exact absurd ha' List.not_mem_nil
    | cons c rest =>
      have hrest : rest = [] := by
        rw [hl, List.length_cons] at hshort
        exact List.eq_nil_of_length_eq_zero (by omega)
      rw [hl, hrest, List.mem_singleton] at ha' hb'
      exact hne (ha'.trans hb'.symm)

end Milo.Reasoning
