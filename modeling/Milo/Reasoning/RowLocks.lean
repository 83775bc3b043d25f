import Milo.Reasoning.Dict

/-!
# RowLocks — transactions that lock the rows they write

A transaction keeps, for each row it has locked, what it will leave there: a value, or nothing.  It
reads its own rows through these and every other row from the table.  When no two open transactions
hold one row, a property of a row that holds of every version of it, committed or not, is kept by
writing, committing and giving up.
-/

namespace Milo.Reasoning

universe u v w

/-- The rows a transaction has locked, with what it leaves in each. -/
abbrev Overlay (κ : Type u) (ν : Type v) := Dict κ (Option ν)

namespace Overlay

variable {κ : Type u} {ν : Type v} [DecidableEq κ]

/-- A row as the transaction sees it. -/
def view (o : Overlay κ ν) (rows : Dict κ ν) (k : κ) : Option ν :=
  (o.get? k).getD (rows.get? k)

def write (rows : Dict κ ν) (e : κ × Option ν) : Dict κ ν :=
  match e.2 with
  | some v => rows.set e.1 v
  | none => rows.erase e.1

/-- The table once the transaction commits. -/
def commit (o : Overlay κ ν) (rows : Dict κ ν) : Dict κ ν := o.entries.foldl write rows

theorem view_of_held {o : Overlay κ ν} {k : κ} {v : Option ν} (h : o.get? k = some v)
    (rows : Dict κ ν) : o.view rows k = v := by
  unfold view
  rw [h]
  rfl

theorem view_of_notHeld {o : Overlay κ ν} {k : κ} (h : o.get? k = none) (rows : Dict κ ν) :
    o.view rows k = rows.get? k := by
  unfold view
  rw [h]
  rfl

theorem get?_write (rows : Dict κ ν) (e : κ × Option ν) (k : κ) :
    (write rows e).get? k = if k = e.1 then e.2 else rows.get? k := by
  rcases e with ⟨key, left⟩
  unfold write
  cases left with
  | none => rw [Dict.get?_erase]
  | some v => rw [Dict.get?_set]

theorem get?_writes {l : List (κ × Option ν)} (hn : (l.map Prod.fst).Nodup) {k : κ} :
    ∀ rows : Dict κ ν, (l.foldl write rows).get? k = (l.lookup k).getD (rows.get? k) := by
  induction l with
  | nil => exact fun _ => rfl
  | cons e l ih =>
    intro rows
    rw [List.map_cons, List.nodup_cons] at hn
    rw [List.foldl_cons, ih hn.2, get?_write]
    by_cases hk : k = e.1
    · have hlookup : l.lookup k = none := by
        rw [hk, List.lookup_eq_none_iff]
        intro other hother
        have hne : e.1 ≠ other.1 := by
          intro heq
          rw [heq] at hn
          exact hn.1 (List.mem_map_of_mem hother)
        exact bne_iff_ne.mpr hne
      have hfirst : (e :: l).lookup k = some e.2 := by simp [List.lookup, hk]
      rw [if_pos hk, hlookup, hfirst]
      rfl
    · have hrest : (e :: l).lookup k = l.lookup k := by
        simp [List.lookup, beq_false_of_ne hk]
      rw [if_neg hk, hrest]

/-- A commit leaves in each row what the transaction saw there. -/
theorem get?_commit (o : Overlay κ ν) (rows : Dict κ ν) (k : κ) :
    (o.commit rows).get? k = o.view rows k :=
  get?_writes o.nodup rows

end Overlay

/-! ## Every version of a row -/

section Versions

variable {τ : Type w} {κ : Type u} {ν : Type v} [DecidableEq κ]

/-- No row is held by two transactions. -/
def Exclusive (held : τ → Overlay κ ν) : Prop :=
  ∀ t t' k v v', (held t).get? k = some v → (held t').get? k = some v' → t = t'

/-- `P` holds of each row as committed, and as any open transaction leaves it. -/
structure EveryVersion (P : κ → Option ν → Prop) (rows : Dict κ ν) (held : τ → Overlay κ ν) :
    Prop where
  committed : ∀ k, P k (rows.get? k)
  uncommitted : ∀ t k v, (held t).get? k = some v → P k v

variable {P Q : κ → Option ν → Prop} {rows : Dict κ ν} {held : τ → Overlay κ ν}

theorem EveryVersion.view (h : EveryVersion P rows held) (t : τ) (k : κ) :
    P k ((held t).view rows k) := by
  cases hk : (held t).get? k with
  | none =>
    rw [Overlay.view_of_notHeld hk]
    exact h.committed k
  | some v =>
    rw [Overlay.view_of_held hk]
    exact h.uncommitted t k v hk

variable [DecidableEq τ]

theorem Exclusive.set (h : Exclusive held) {t : τ} {k : κ} (left : Option ν)
    (hfree : ∀ t', t' ≠ t → (held t').get? k = none) :
    Exclusive (Function.update held t ((held t).set k left)) := by
  -- a row of the new overlay is an old one, or the row no other transaction holds
  have hrow : ∀ t₁ k₁ v₁, (Function.update held t ((held t).set k left) t₁).get? k₁ = some v₁ →
      (∃ v, (held t₁).get? k₁ = some v) ∨ t₁ = t ∧ k₁ = k := by
    intro t₁ k₁ v₁ hv
    by_cases ht : t₁ = t
    · rw [ht, Function.update_self, Dict.get?_set] at hv
      by_cases hk : k₁ = k
      · exact Or.inr ⟨ht, hk⟩
      · rw [if_neg hk] at hv
        rw [ht]
        exact Or.inl ⟨v₁, hv⟩
    · rw [Function.update_of_ne ht] at hv
      exact Or.inl ⟨v₁, hv⟩
  have hother : ∀ t₁ v, (held t₁).get? k = some v → t₁ = t := by
    intro t₁ v hv
    by_contra hne
    rw [hfree t₁ hne] at hv
    cases hv
  intro t₁ t₂ k₁ v₁ v₂ h₁ h₂
  rcases hrow t₁ k₁ v₁ h₁ with ⟨w₁, hw₁⟩ | ⟨ht₁, hk₁⟩ <;>
    rcases hrow t₂ k₁ v₂ h₂ with ⟨w₂, hw₂⟩ | ⟨ht₂, hk₂⟩
  · exact h t₁ t₂ k₁ w₁ w₂ hw₁ hw₂
  · rw [hk₂] at hw₁
    exact (hother t₁ w₁ hw₁).trans ht₂.symm
  · rw [hk₁] at hw₂
    exact ht₁.trans (hother t₂ w₂ hw₂).symm
  · exact ht₁.trans ht₂.symm

theorem Exclusive.close (h : Exclusive held) (t : τ) :
    Exclusive (Function.update held t Dict.empty) := by
  have hrow : ∀ t₁ k₁ v₁, (Function.update held t Dict.empty t₁).get? k₁ = some v₁ →
      (held t₁).get? k₁ = some v₁ := by
    intro t₁ k₁ v₁ hv
    by_cases ht : t₁ = t
    · rw [ht, Function.update_self] at hv
      cases hv
    · rwa [Function.update_of_ne ht] at hv
  exact fun t₁ t₂ k₁ v₁ v₂ h₁ h₂ => h t₁ t₂ k₁ v₁ v₂ (hrow t₁ k₁ v₁ h₁) (hrow t₂ k₁ v₂ h₂)

theorem EveryVersion.set (h : EveryVersion P rows held) {t : τ} {k : κ} {left : Option ν}
    (hleft : P k left) : EveryVersion P rows (Function.update held t ((held t).set k left)) where
  committed := h.committed
  uncommitted t₁ k₁ v₁ hv := by
    by_cases ht : t₁ = t
    · rw [ht, Function.update_self, Dict.get?_set] at hv
      by_cases hk : k₁ = k
      · rw [if_pos hk] at hv
        rw [hk, ← Option.some.inj hv]
        exact hleft
      · rw [if_neg hk] at hv
        exact h.uncommitted t k₁ v₁ hv
    · rw [Function.update_of_ne ht] at hv
      exact h.uncommitted t₁ k₁ v₁ hv

/-- A transaction that gives up leaves the versions there were. -/
theorem EveryVersion.close (h : EveryVersion P rows held) (t : τ) :
    EveryVersion P rows (Function.update held t Dict.empty) where
  committed := h.committed
  uncommitted t₁ k₁ v₁ hv := by
    by_cases ht : t₁ = t
    · rw [ht, Function.update_self] at hv
      cases hv
    · rw [Function.update_of_ne ht] at hv
      exact h.uncommitted t₁ k₁ v₁ hv

/-- What a transaction commits is a version there was. -/
theorem EveryVersion.commit (h : EveryVersion P rows held) (t : τ) :
    EveryVersion P ((held t).commit rows) (Function.update held t Dict.empty) where
  committed k := by
    rw [Overlay.get?_commit]
    exact h.view t k
  uncommitted := (h.close t).uncommitted

end Versions

end Milo.Reasoning
