import Mathlib

/-!
# ReplayLog — an append-only log that never repeats a key

A write whose key the log already holds leaves the log as it is.  So the log holds, in order, the
writes that brought a key nobody had brought before.
-/

namespace Milo.Reasoning

universe u v

variable {α : Type u} {κ : Type v} [DecidableEq κ]

/-- The log after one more write. -/
def appendNovel (key : α → κ) (log : List α) (a : α) : List α :=
  if key a ∈ log.map key then log else log ++ [a]

/-- The writes of a sequence that brought a key not brought before. -/
def novel (key : α → κ) (writes : List α) : List α := writes.foldl (appendNovel key) []

theorem novel_snoc (key : α → κ) (writes : List α) (a : α) :
    novel key (writes ++ [a]) = appendNovel key (novel key writes) a := by
  unfold novel
  rw [List.foldl_append]
  rfl

variable {key : α → κ} {writes : List α}

/-- The log holds a key exactly if some write brought it. -/
theorem mem_map_novel {k : κ} : k ∈ (novel key writes).map key ↔ k ∈ writes.map key := by
  induction writes using List.reverseRecOn with
  | nil => rfl
  | append_singleton writes a ih =>
    rw [novel_snoc]
    unfold appendNovel
    by_cases hknown : key a ∈ (novel key writes).map key
    · rw [if_pos hknown, List.map_append, List.mem_append]
      constructor
      · exact fun h => Or.inl (ih.mp h)
      · intro h
        rcases h with hold | hnew
        · exact ih.mpr hold
        · rw [List.mem_singleton.mp hnew]
          exact hknown
    · rw [if_neg hknown, List.map_append, List.map_append, List.mem_append, List.mem_append, ih]

theorem mem_of_mem_novel {a : α} (h : a ∈ novel key writes) : a ∈ writes := by
  induction writes using List.reverseRecOn with
  | nil => exact h
  | append_singleton writes b ih =>
    rw [novel_snoc] at h
    unfold appendNovel at h
    split at h
    · exact List.mem_append_left _ (ih h)
    · rcases List.mem_append.mp h with hold | hnew
      · exact List.mem_append_left _ (ih hold)
      · exact List.mem_append_right _ hnew

theorem novel_snoc_of_mem {a : α} (h : key a ∈ writes.map key) : novel key (writes ++ [a]) = novel key writes := by
  rw [novel_snoc]
  exact if_pos (mem_map_novel.mpr h)

theorem novel_snoc_of_notMem {a : α} (h : key a ∉ writes.map key) :
    novel key (writes ++ [a]) = novel key writes ++ [a] := by
  rw [novel_snoc]
  exact if_neg fun hknown => h (mem_map_novel.mp hknown)

/-- In a table of the log's entries a row of a key is found exactly if the key was brought. -/
theorem find?_novel_eq_none {β : Type v} {row : α → β} {p : β → Bool} {k : κ}
    (hp : ∀ a, p (row a) = true ↔ key a = k) :
    ((novel key writes).map row).find? p = none ↔ k ∉ writes.map key := by
  rw [List.find?_eq_none, ← mem_map_novel, List.mem_map]
  constructor
  · rintro h ⟨a, ha, hkey⟩
    exact h (row a) (List.mem_map_of_mem ha) ((hp a).mpr hkey)
  · intro h r hr hfound
    obtain ⟨a, ha, rfl⟩ := List.mem_map.mp hr
    exact h ⟨a, ha, (hp a).mp hfound⟩

/-- Where a key names one write, the log holds every write. -/
theorem mem_novel_iff (hdigest : ∀ a ∈ writes, ∀ b ∈ writes, key a = key b → a = b) {a : α} :
    a ∈ novel key writes ↔ a ∈ writes := by
  constructor
  · exact mem_of_mem_novel
  · intro ha
    have hkey : key a ∈ (novel key writes).map key := mem_map_novel.mpr (List.mem_map_of_mem ha)
    obtain ⟨b, hb, hsame⟩ := List.mem_map.mp hkey
    rw [hdigest a ha b (mem_of_mem_novel hb) hsame.symm]
    exact hb

/-! ## The newest entry -/

/-- In a log whose entries come in rising order, the greatest is the last. -/
theorem argmax_eq_getLast? {β : Type v} [LinearOrder β] {rank : α → β} {log : List α}
    (hrising : log.Pairwise fun a b => rank a < rank b) : log.argmax rank = log.getLast? := by
  induction log using List.reverseRecOn with
  | nil => rfl
  | append_singleton log a ih =>
    rw [List.pairwise_append] at hrising
    rw [List.argmax_concat, List.getLast?_append, ih hrising.1]
    cases hlast : log.getLast? with
    | none => rfl
    | some b =>
      have hlt : rank b < rank a :=
        hrising.2.2 b (List.mem_of_getLast? hlast) a List.mem_cons_self
      show (if rank b < rank a then some a else some b) = some a
      rw [if_pos hlt]

end Milo.Reasoning
