import Milo.Reasoning.Dict

/-!
# Chain — following links until one repeats

Each node of a heap names at most one next node.  `chain` visits the nodes from one on and stops at the
first it has seen; it visits exactly the nodes the links lead to, however they loop.
-/

namespace Milo.Reasoning

universe u v

variable {κ : Type u} {ν : Type v} [DecidableEq κ]

/-- The nodes from `current` on, up to the first that was seen or is not there. -/
def chain (heap : Dict κ ν) (next : ν → Option κ) (seen : List κ) (current : Option κ) : List (κ × ν) :=
  match current with
  | none => []
  | some k =>
    if k ∈ seen then []
    else
      match _hget : heap.get? k with
      | none => []
      | some node => (k, node) :: chain heap next (k :: seen) (next node)
termination_by (heap.keys.filter fun k => decide (k ∉ seen)).length
decreasing_by
  rename_i hnew
  have hkey : k ∈ heap.keys := Dict.mem_keys_iff.mpr ⟨node, _hget⟩
  have hrest : (heap.keys.filter fun x => decide (x ∉ k :: seen)) =
      (heap.keys.filter fun x => decide (x ∉ seen)).filter fun x => decide (x ≠ k) := by
    rw [List.filter_filter]
    apply List.filter_congr
    intro x _
    simp [not_or]
  rw [hrest]
  apply List.length_filter_lt_length_iff_exists.mpr
  exact ⟨k, List.mem_filter.mpr ⟨hkey, by simpa using hnew⟩, by simp⟩

/-- The node that the links lead to from `start`. -/
inductive Linked (heap : Dict κ ν) (next : ν → Option κ) (start : κ) : κ → ν → Prop
  | first {node : ν} : heap.get? start = some node → Linked heap next start start node
  | step {k k' : κ} {node node' : ν} : Linked heap next start k node → next node = some k' →
      heap.get? k' = some node' → Linked heap next start k' node'

theorem Linked.get? {heap : Dict κ ν} {next : ν → Option κ} {start k : κ} {node : ν}
    (h : Linked heap next start k node) : heap.get? k = some node := by
  cases h with
  | first hget => exact hget
  | step _ _ hget => exact hget

section Visits

variable {heap : Dict κ ν} {next : ν → Option κ} {seen : List κ} {current : Option κ} {start : κ}

theorem linked_of_mem_chain {e : κ × ν}
    (hcurrent : ∀ k node, current = some k → heap.get? k = some node → Linked heap next start k node)
    (he : e ∈ chain heap next seen current) : Linked heap next start e.1 e.2 := by
  fun_induction chain heap next seen current with
  | case1 seen => cases he
  | case2 seen k hseen => cases he
  | case3 seen k hnew hget => cases he
  | case4 seen k hnew node hget ih =>
    have hhere : Linked heap next start k node := hcurrent k node rfl hget
    rcases List.mem_cons.mp he with rfl | he
    · exact hhere
    · exact ih (fun k' node' hnext hget' => hhere.step hnext hget') he

/-- The keys of the nodes visited. -/
def visited (heap : Dict κ ν) (next : ν → Option κ) (seen : List κ) (current : Option κ) : List κ :=
  (chain heap next seen current).map Prod.fst

/-- A link from what was seen or is visited leads to what was seen or is visited. -/
theorem visited_closed
    (hclosed : ∀ k ∈ seen, ∀ node k', heap.get? k = some node → next node = some k' →
      k' ∈ seen ∨ current = some k')
    {k k' : κ} {node node' : ν} (hk : k ∈ seen ∨ k ∈ visited heap next seen current)
    (hget : heap.get? k = some node) (hnext : next node = some k') (hget' : heap.get? k' = some node') :
    k' ∈ seen ∨ k' ∈ visited heap next seen current := by
  unfold visited at hk ⊢
  fun_induction chain heap next seen current with
  | case1 seen =>
    have hseen : k ∈ seen := hk.resolve_right (by simp)
    rcases hclosed k hseen node k' hget hnext with h | h
    · exact Or.inl h
    · cases h
  | case2 seen first hfirst =>
    have hseen : k ∈ seen := hk.resolve_right (by simp)
    rcases hclosed k hseen node k' hget hnext with h | h
    · exact Or.inl h
    · rw [← Option.some.inj h]
      exact Or.inl hfirst
  | case3 seen first hnew hnone =>
    have hseen : k ∈ seen := hk.resolve_right (by simp)
    rcases hclosed k hseen node k' hget hnext with h | h
    · exact Or.inl h
    · rw [Option.some.inj h, hget'] at hnone
      cases hnone
  | case4 seen first hnew head hhead ih =>
    have hmove : ∀ x, x ∈ first :: seen ∨ x ∈ (chain heap next (first :: seen) (next head)).map Prod.fst ↔
        x ∈ seen ∨ x ∈ ((first, head) :: chain heap next (first :: seen) (next head)).map Prod.fst := by
      intro x
      rw [List.mem_cons, List.map_cons, List.mem_cons]
      exact ⟨fun h => by tauto, fun h => by tauto⟩
    apply (hmove k').mp
    apply ih
    · intro x hx node k' hget hnext
      rcases List.mem_cons.mp hx with rfl | hx
      · rw [hhead] at hget
        exact Or.inr (Option.some.inj hget ▸ hnext)
      · rcases hclosed x hx node k' hget hnext with h | h
        · exact Or.inl (List.mem_cons_of_mem _ h)
        · rw [Option.some.inj h]
          exact Or.inl List.mem_cons_self
    · exact (hmove k).mpr hk

theorem get?_of_mem_chain {e : κ × ν} (he : e ∈ chain heap next seen current) :
    heap.get? e.1 = some e.2 := by
  fun_induction chain heap next seen current with
  | case1 seen => cases he
  | case2 seen k hseen => cases he
  | case3 seen k hnew hget => cases he
  | case4 seen k hnew node hget ih =>
    rcases List.mem_cons.mp he with rfl | he
    · exact hget
    · exact ih he

/-- From nothing seen, exactly the nodes the links lead to are visited. -/
theorem mem_chain_iff {k : κ} {node : ν} :
    (k, node) ∈ chain heap next [] (some start) ↔ Linked heap next start k node := by
  constructor
  · apply linked_of_mem_chain
    intro k node hk hget
    cases hk
    exact .first hget
  · intro h
    have hvisited : k ∈ visited heap next [] (some start) ∧ heap.get? k = some node := by
      induction h with
      | @first node hget =>
        refine ⟨?_, hget⟩
        unfold visited
        rw [chain]
        simp only [List.not_mem_nil, if_false]
        split
        · rename_i hnone
          rw [hget] at hnone
          cases hnone
        · exact List.mem_cons_self
      | @step _ k' _ _ _ hnext hget' ih =>
        refine ⟨?_, hget'⟩
        have hreached : k' ∈ [] ∨ k' ∈ visited heap next [] (some start) :=
          visited_closed (by simp) (Or.inr ih.1) ih.2 hnext hget'
        exact hreached.resolve_left List.not_mem_nil
    obtain ⟨⟨k', node'⟩, he, rfl⟩ := List.mem_map.mp hvisited.1
    have hsame := (get?_of_mem_chain he).symm.trans hvisited.2
    rw [← Option.some.inj hsame]
    exact he

end Visits

end Milo.Reasoning
