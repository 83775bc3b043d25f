import Milo.Reasoning.Dict

/-!
# Replicas — rows of a table that carry one shared part

A table keeps one row for each key, and a `part` of every row is a copy of the same value.
`Carries` says which value the copies are; a write of one row or of all of them keeps it.
-/

namespace Milo.Reasoning

universe u v w

variable {κ : Type u} {ρ : Type v} {σ : Type w}

/-- Every row's part is `s`. -/
def Carries (part : ρ → σ) (table : Dict κ ρ) (s : σ) : Prop := ∀ row ∈ table.values, part row = s

/-- Any two rows have the same part. -/
def Agree (part : ρ → σ) (table : Dict κ ρ) : Prop :=
  ∀ a ∈ table.values, ∀ b ∈ table.values, part a = part b

variable {part : ρ → σ} {table : Dict κ ρ}

theorem Carries.agree {s : σ} (h : Carries part table s) : Agree part table := by
  intro a ha b hb
  rw [h a ha, h b hb]

/-- A write of every row that makes each part `s'`. -/
theorem Carries.of_mapValues {f : κ → ρ → ρ} {s' : σ} (h : ∀ k, ∀ row ∈ table.values, part (f k row) = s') :
    Carries part (table.mapValues f) s' := by
  intro row hrow
  rw [Dict.values, Dict.mapValues, List.map_map] at hrow
  obtain ⟨e, he, rfl⟩ := List.mem_map.mp hrow
  exact h e.1 e.2 (List.mem_map_of_mem he)

variable [DecidableEq κ]

theorem mem_values_of_get? {k : κ} {row : ρ} (h : table.get? k = some row) : row ∈ table.values :=
  List.mem_map_of_mem (f := Prod.snd) (Dict.get?_eq_some.mp h)

/-- A write of one row that leaves its part `s`. -/
theorem Carries.set {s : σ} (h : Carries part table s) {k : κ} {row : ρ} (hrow : part row = s) :
    Carries part (table.set k row) s := by
  intro a ha
  obtain ⟨⟨k', a'⟩, he, rfl⟩ := List.mem_map.mp ha
  rcases Dict.mem_entries_set.mp he with ⟨-, rfl⟩ | ⟨-, hold⟩
  · exact hrow
  · exact h _ (List.mem_map_of_mem (f := Prod.snd) hold)

end Milo.Reasoning
