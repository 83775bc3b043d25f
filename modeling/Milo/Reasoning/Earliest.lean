import Milo.Reasoning.Dict

/-!
# Earliest — one item for each key

Of the items that share a key the first is kept.  What is read of the kept items does not depend on the
order of the items exactly where items of one key do not differ in it.
-/

namespace Milo.Reasoning

universe u v w

variable {α : Type u} {κ : Type v} {β : Type w} [DecidableEq κ]

/-- `d.setdefault(k, v)`. -/
def Dict.setDefault {ν : Type w} (d : Dict κ ν) (k : κ) (v : ν) : Dict κ ν := if k ∈ d.keys then d else d.set k v

/-- The first item of each key. -/
def firstBy (key : α → κ) (items : List α) : Dict κ α :=
  items.foldl (fun d item => d.setDefault (key item) item) Dict.empty

variable {key : α → κ} {items items' : List α} {k : κ} {a b : α}

theorem Dict.get?_setDefault {d : Dict κ α} {v : α} (k' : κ) :
    (d.setDefault k v).get? k' = (d.get? k').or (if k = k' then some v else none) := by
  unfold Dict.setDefault
  split
  · rename_i hmem
    by_cases hkey : k = k'
    · subst hkey
      obtain ⟨old, hold⟩ := Dict.mem_keys_iff.mp hmem
      rw [hold]
      rfl
    · rw [if_neg hkey, Option.or_none]
  · rename_i hmem
    by_cases hkey : k = k'
    · subst hkey
      rw [Dict.get?_set_self, Dict.get?_eq_none.mpr hmem, if_pos rfl]
      rfl
    · rw [Dict.get?_set_ne _ _ (Ne.symm hkey), if_neg hkey, Option.or_none]

theorem get?_firstBy (key : α → κ) (items : List α) (k : κ) :
    (firstBy key items).get? k = items.find? fun a => decide (key a = k) := by
  have hfold : ∀ d : Dict κ α, (items.foldl (fun d item => d.setDefault (key item) item) d).get? k =
      (d.get? k).or (items.find? fun a => decide (key a = k)) := by
    induction items with
    | nil => exact fun d => (Option.or_none).symm
    | cons a rest ih =>
      intro d
      rw [List.foldl_cons, ih, Dict.get?_setDefault, Option.or_assoc]
      by_cases hkey : key a = k
      · have hhead : (a :: rest).find? (fun a => decide (key a = k)) = some a :=
          List.find?_cons_of_pos (decide_eq_true hkey)
        rw [if_pos hkey, hhead]
        rfl
      · have hskip : (a :: rest).find? (fun a => decide (key a = k)) = rest.find? fun a => decide (key a = k) :=
          List.find?_cons_of_neg (Bool.not_eq_true _ ▸ decide_eq_false hkey)
        rw [if_neg hkey, hskip]
        rfl
  exact hfold Dict.empty

theorem mem_keys_firstBy : k ∈ (firstBy key items).keys ↔ k ∈ items.map key := by
  rw [Dict.mem_keys_iff, ← Option.isSome_iff_exists, get?_firstBy, List.find?_isSome, List.mem_map]
  constructor
  · rintro ⟨a, ha, hkey⟩
    exact ⟨a, ha, of_decide_eq_true hkey⟩
  · rintro ⟨a, ha, rfl⟩
    exact ⟨a, ha, decide_eq_true rfl⟩

theorem of_get?_firstBy (h : (firstBy key items).get? k = some a) : a ∈ items ∧ key a = k := by
  rw [get?_firstBy] at h
  have hkey := List.find?_some h
  exact ⟨List.mem_of_find?_eq_some h, of_decide_eq_true hkey⟩

/-- The first items agree with those of every list that states the same, exactly if items of one key agree. -/
theorem firstBy_stable_iff {read : α → β} :
    (∀ items', (items'.map fun a => (key a, read a)).Perm (items.map fun a => (key a, read a)) →
      ∀ k, ((firstBy key items').get? k).map read = ((firstBy key items).get? k).map read) ↔
    ∀ a ∈ items, ∀ b ∈ items, key a = key b → read a = read b := by
  constructor
  · intro h
    -- Every item can be moved to the front, where it is the first of its key.
    have hfirst : ∀ a ∈ items, some (read a) = ((firstBy key items).get? (key a)).map read := by
      intro a ha
      obtain ⟨front, back, rfl⟩ := List.append_of_mem ha
      have hperm : (a :: (front ++ back)).Perm (front ++ a :: back) := List.perm_middle.symm
      have hhead : (a :: (front ++ back)).find? (fun b => decide (key b = key a)) = some a :=
        List.find?_cons_of_pos (decide_eq_true rfl)
      rw [← h (a :: (front ++ back)) (hperm.map _) (key a), get?_firstBy, hhead]
      rfl
    intro a ha b hb hkey
    have heq := hfirst a ha
    rw [hkey, ← hfirst b hb] at heq
    exact Option.some.inj heq
  · intro h items' hperm k
    have hstated : ∀ b ∈ items', ∃ a ∈ items, key a = key b ∧ read a = read b := by
      intro b hb
      obtain ⟨a, ha, heq⟩ := List.mem_map.mp (hperm.mem_iff.mp (List.mem_map_of_mem hb))
      exact ⟨a, ha, (Prod.mk.inj heq).1, (Prod.mk.inj heq).2⟩
    have hkeys : k ∈ items'.map key ↔ k ∈ items.map key := by
      have hfst := (hperm.map Prod.fst).mem_iff (a := k)
      rw [List.map_map, List.map_map] at hfst
      exact hfst
    cases hfound : (firstBy key items').get? k with
    | none =>
      have habsent : k ∉ items.map key := by
        rw [← hkeys, ← mem_keys_firstBy]
        exact Dict.get?_eq_none.mp hfound
      rw [Dict.get?_eq_none.mpr (mem_keys_firstBy.not.mpr habsent)]
    | some b =>
      obtain ⟨hb, rfl⟩ := of_get?_firstBy hfound
      obtain ⟨a, ha, hkey, hread⟩ := hstated b hb
      obtain ⟨first, hsome⟩ := Dict.mem_keys_iff.mp (mem_keys_firstBy.mpr (hkeys.mp (List.mem_map_of_mem hb)))
      obtain ⟨hfirst, hsame⟩ := of_get?_firstBy hsome
      rw [hsome, Option.map_some, Option.map_some, ← hread, h a ha first hfirst (hkey.trans hsame.symm)]

end Milo.Reasoning
