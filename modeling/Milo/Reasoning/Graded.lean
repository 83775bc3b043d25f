import Milo.Reasoning.Action

/-!
# Graded — what a computation may spend

A graded relation `R k s s'` says that getting from `s` to `s'` spent at most `k`, whatever is
being counted.  `Spends R k c` says it of every exit of `c`, by returning or by raising, so a bound
on what a long method spends is the sum of the bounds of its parts.
-/

namespace Milo.Reasoning

universe u v w

/-- Standing still is free, what two stretches spend adds up, and a bound may be raised. -/
structure Graded {M : Type w} {σ : Type u} [AddMonoid M] [Preorder M] (R : M → σ → σ → Prop) :
    Prop where
  refl : ∀ s, R 0 s s
  trans : ∀ {k l : M} {a b c : σ}, R k a b → R l b c → R (k + l) a c
  mono : ∀ {k l : M} {a b : σ}, k ≤ l → R k a b → R l a b

/-- A graded relation of what `f` reads of the states. -/
theorem Graded.pull {M : Type w} {σ : Type u} {τ : Type v} [AddMonoid M] [Preorder M]
    {R : M → τ → τ → Prop} (hR : Graded R) (f : σ → τ) :
    Graded fun k s s' => R k (f s) (f s') where
  refl := fun s => hR.refl (f s)
  trans := fun h h' => hR.trans h h'
  mono := fun hle h => hR.mono hle h

namespace Action

variable {σ τ : Type u} {ε ε' : Type v} {α β : Type u} {M : Type w}

/-- The exceptions of `c`, as exceptions of another kind. -/
def mapError (f : ε → ε') (c : Action σ ε α) : Action σ ε' α := fun s =>
  (match (c s).1 with
    | .ok a => .ok a
    | .error e => .error (f e), (c s).2)

/-- Run `c` on a part of the state; the rest of it stays as it is. -/
def zoom (get : σ → τ) (put : τ → σ → σ) (c : Action τ ε α) : Action σ ε α := fun s =>
  ((c (get s)).1, put (c (get s)).2 s)

/-- On every exit `c` has spent at most `k`. -/
def Spends (R : M → σ → σ → Prop) (k : M) (c : Action σ ε α) : Prop := ∀ s, R k s (c.after s)

section Rules

variable [AddMonoid M] [Preorder M] {R : M → σ → σ → Prop} (hR : Graded R) {k l : M}
  {c : Action σ ε α} {f : α → Action σ ε β}

include hR

theorem spends_pure (a : α) : Spends R 0 (Pure.pure a : Action σ ε α) := fun s => hR.refl s

theorem spends_raise (e : ε) : Spends R 0 (raise e : Action σ ε α) := fun s => hR.refl s

theorem spends_ofExcept (r : Except ε α) : Spends R 0 (ofExcept r : Action σ ε α) :=
  fun s => hR.refl s

theorem Spends.mono (hc : Spends R k c) (hle : k ≤ l) : Spends R l c :=
  fun s => hR.mono hle (hc s)

theorem spends_bind (hc : Spends R k c) (hf : ∀ a, Spends R l (f a)) (hle : k ≤ k + l) :
    Spends R (k + l) (c >>= f) := by
  intro s
  rcases after_bind_cases (c := c) (f := f) s with ⟨_, hafter⟩ | ⟨a, _, hafter⟩
  · rw [hafter]
    exact hR.mono hle (hc s)
  · rw [hafter]
    exact hR.trans (hc s) (hf a _)

theorem spends_bind_free (hc : Spends R 0 c) (hf : ∀ a, Spends R l (f a)) (hl : 0 ≤ l) :
    Spends R l (c >>= f) := by
  have h := spends_bind hR hc hf (by rw [zero_add]; exact hl)
  rw [zero_add] at h
  exact h

theorem spends_free_after (hc : Spends R k c) (hf : ∀ a, Spends R 0 (f a)) :
    Spends R k (c >>= f) := by
  have h := spends_bind hR hc hf (by rw [add_zero])
  rw [add_zero] at h
  exact h

end Rules

variable {R : M → σ → σ → Prop} {c : Action σ ε α} {f : α → Action σ ε β}

theorem spends_ite {k : M} {p : Prop} [Decidable p] {d : Action σ ε α} (hc : Spends R k c) (hd : Spends R k d) :
    Spends R k (if p then c else d) := by
  split
  · exact hc
  · exact hd

theorem Spends.attempt {ε α : Type u} {k : M} {c : Action σ ε α} (hc : Spends R k c) :
    Spends R k (Action.attempt c) := hc

theorem Spends.mapError {k : M} (hc : Spends R k c) (f : ε → ε') : Spends R k (Action.mapError f c) := hc

/-! ## Amortized bounds -/

theorem bind_of_error {s : σ} {e : ε} (h : c.result s = .error e) :
    (c >>= f).result s = .error e ∧ (c >>= f).after s = c.after s := by
  unfold result at h
  show (Action.bind c f s).1 = _ ∧ (Action.bind c f s).2 = _
  unfold Action.bind after
  rcases hrun : c s with ⟨r, s'⟩
  rw [hrun] at h
  cases h
  exact ⟨rfl, rfl⟩

/-- A sequence whose first part returned goes on from where that ended. -/
theorem bind_of_ok {s : σ} {a : α} (h : c.result s = .ok a) :
    (c >>= f).result s = (f a).result (c.after s) ∧
      (c >>= f).after s = (f a).after (c.after s) := by
  unfold result at h
  show (Action.bind c f s).1 = _ ∧ (Action.bind c f s).2 = _
  unfold Action.bind after result
  rcases hrun : c s with ⟨r, s'⟩
  rw [hrun] at h
  cases h
  exact ⟨rfl, rfl⟩

/-- Two sequences agree where what follows their first part does. -/
theorem bind_congr {g : α → Action σ ε β} {s : σ} (h : ∀ a, c.result s = .ok a → f a (c.after s) = g a (c.after s)) :
    (c >>= f) s = (c >>= g) s := by
  show Action.bind c f s = Action.bind c g s
  unfold result after at h
  unfold Action.bind
  rcases hrun : c s with ⟨r, s'⟩
  rw [hrun] at h
  cases r with
  | ok a => exact h a rfl
  | error e => rfl

/-- From `s`, `c` is given `n` and its result says how much of it is left. -/
def Pays (R : ℕ → σ → σ → Prop) (c : Action σ ε α) (s : σ) (n : ℕ) (left : α → ℕ) : Prop :=
  c.Ensures s fun r s' =>
    match r with
    | .ok a => ∃ k, R k s s' ∧ k + left a ≤ n
    | .error _ => R n s s'

section Amortized

variable {R : ℕ → σ → σ → Prop} (hR : Graded R) {c : Action σ ε α} {f : α → Action σ ε β} {s : σ}
  {n : ℕ} {left : α → ℕ} {left' : β → ℕ}

include hR

theorem pays_pure {a : α} (h : left a ≤ n) : Pays R (Pure.pure a : Action σ ε α) s n left :=
  ⟨0, hR.refl s, by omega⟩

theorem pays_raise (e : ε) : Pays R (raise e : Action σ ε α) s n left :=
  hR.mono (Nat.zero_le n) (hR.refl s)

/-- A bounded computation pays its bound and leaves the rest. -/
theorem Spends.pays {k m : ℕ} (hc : Spends R k c) (h : k + m ≤ n) :
    Pays R c s n fun _ => m := by
  unfold Pays Ensures
  cases c.result s with
  | ok a => exact ⟨k, hc s, h⟩
  | error e => exact hR.mono (by omega) (hc s)

/-- On every exit no more than what was given is spent. -/
theorem Pays.spent (hc : Pays R c s n left) : R n s (c.after s) := by
  unfold Pays Ensures at hc
  cases hresult : c.result s with
  | ok a =>
    rw [hresult] at hc
    rcases hc with ⟨k, hk, hle⟩
    exact hR.mono (by omega) hk
  | error e =>
    rw [hresult] at hc
    exact hc

theorem Pays.weaken {m : ℕ} (hc : Pays R c s n left) (hle : n ≤ m) : Pays R c s m left := by
  unfold Pays Ensures at hc ⊢
  cases hresult : c.result s with
  | ok a =>
    rw [hresult] at hc
    rcases hc with ⟨k, hk, hleft⟩
    exact ⟨k, hk, Nat.le_trans hleft hle⟩
  | error e =>
    rw [hresult] at hc
    exact hR.mono hle hc

/-- What the first part leaves is what the rest is given. -/
theorem Pays.bind (hc : Pays R c s n left)
    (hf : ∀ a s', c.result s = .ok a → c.after s = s' → Pays R (f a) s' (left a) left') :
    Pays R (c >>= f) s n left' := by
  have hc' := hc
  unfold Pays Ensures at hc'
  cases hresult : c.result s with
  | error e =>
    rw [hresult] at hc'
    have hbind := bind_of_error (f := f) hresult
    unfold Pays Ensures
    rw [hbind.1, hbind.2]
    exact hc'
  | ok a =>
    rw [hresult] at hc'
    rcases hc' with ⟨k, hk, hle⟩
    have hbind := bind_of_ok (f := f) hresult
    have hrest := hf a (c.after s) hresult rfl
    unfold Pays Ensures at hrest ⊢
    rw [hbind.1, hbind.2]
    cases hlast : (f a).result (c.after s) with
    | ok b =>
      rw [hlast] at hrest
      rcases hrest with ⟨l, hl, hle'⟩
      exact ⟨k + l, hR.trans hk hl, by omega⟩
    | error e =>
      rw [hlast] at hrest
      exact hR.mono hle (hR.trans hk hrest)

end Amortized

end Action

end Milo.Reasoning
