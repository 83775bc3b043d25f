import Mathlib

/-!
# Action — computations with a state and exceptions

`Action σ ε α` runs in a state `σ` and either returns an `α` or raises an `ε`; in both cases the
state it has written so far stays written, which is how a method of a mutable object behaves when
it raises half-way.  `Relates R c` says that on every exit the final state is related to the first
one by `R`; its rules follow the way a computation is composed, so a frame condition of a long
method is proved along its text.
-/

namespace Milo.Reasoning

universe u v

/-- A stateful computation that may raise; what it wrote before raising is kept. -/
def Action (σ : Type u) (ε : Type v) (α : Type u) : Type (max u v) := σ → Except ε α × σ

namespace Action

variable {σ : Type u} {ε : Type v} {α β : Type u}

def pure (a : α) : Action σ ε α := fun s => (.ok a, s)

def bind (c : Action σ ε α) (f : α → Action σ ε β) : Action σ ε β := fun s =>
  match c s with
  | (.ok a, s') => f a s'
  | (.error e, s') => (.error e, s')

instance : Monad (Action σ ε) where
  pure := pure
  bind := bind

def raise (e : ε) : Action σ ε α := fun s => (.error e, s)

def ofExcept (r : Except ε α) : Action σ ε α := fun s => (r, s)

def modify (f : σ → σ) : Action σ ε PUnit := fun s => (.ok ⟨⟩, f s)

def get : Action σ ε σ := fun s => (.ok s, s)

/-- Run `c` and hand its exception over as a value, as an `except` clause does. -/
def attempt {ε α : Type u} (c : Action σ ε α) : Action σ ε (Except ε α) := fun s =>
  (.ok (c s).1, (c s).2)

/-- Repeat `body` from the value it hands on until it hands out a result, at most `fuel` times. -/
def loop {γ : Type u} (exhausted : ε) (body : β → Action σ ε (β ⊕ γ)) : ℕ → β → Action σ ε γ
  | 0, _ => raise exhausted
  | fuel + 1, b => bind (body b) fun next =>
    match next with
    | .inl b' => loop exhausted body fuel b'
    | .inr c => pure c

/-- Run a computation of the outer state; the inner state stays as it is. -/
def outside {τ : Type u} (c : Action τ ε α) : Action (σ × τ) ε α := fun s =>
  ((c s.2).1, (s.1, (c s.2).2))

/-- The state `c` leaves behind, whether it returns or raises. -/
def after (c : Action σ ε α) (s : σ) : σ := (c s).2

/-- The value `c` returns, if it returns. -/
def result (c : Action σ ε α) (s : σ) : Except ε α := (c s).1

/-- On every exit of `c` the final state is related to the first one by `R`. -/
def Relates (R : σ → σ → Prop) (c : Action σ ε α) : Prop := ∀ s, R s (c.after s)

variable {R : σ → σ → Prop}

section Rules

variable (hrefl : ∀ s, R s s)

include hrefl

theorem relates_pure (a : α) : Relates R (Pure.pure a : Action σ ε α) := fun s => hrefl s

theorem relates_raise (e : ε) : Relates R (raise e : Action σ ε α) := fun s => hrefl s

theorem relates_ofExcept (r : Except ε α) : Relates R (ofExcept r : Action σ ε α) :=
  fun s => hrefl s

theorem relates_get : Relates R (get : Action σ ε σ) := fun s => hrefl s

end Rules

theorem relates_modify {f : σ → σ} (h : ∀ s, R s (f s)) :
    Relates R (modify f : Action σ ε PUnit) := h

variable {c : Action σ ε α} {f : α → Action σ ε β}

theorem relates_bind (htrans : ∀ a b c, R a b → R b c → R a c) (hc : Relates R c) (hf : ∀ a, Relates R (f a)) :
    Relates R (c >>= f) := by
  intro s
  have hcs := hc s
  change R s (bind c f s).2
  unfold bind
  unfold after at hcs
  split
  · rename_i a s' heq
    rw [heq] at hcs
    exact htrans _ _ _ hcs (hf a s')
  · rename_i e s' heq
    rw [heq] at hcs
    exact hcs

theorem relates_ite {p : Prop} [Decidable p] {d : Action σ ε α} (hc : Relates R c) (hd : Relates R d) :
    Relates R (if p then c else d) := by
  split
  · exact hc
  · exact hd

theorem relates_attempt {ε α : Type u} {c : Action σ ε α} (hc : Relates R c) :
    Relates R (attempt c) := hc

theorem relates_loop (hrefl : ∀ s, R s s) (htrans : ∀ a b c, R a b → R b c → R a c)
    {γ : Type u} {exhausted : ε} {body : α → Action σ ε (α ⊕ γ)}
    (hbody : ∀ a, Relates R (body a)) (fuel : ℕ) :
    ∀ a, Relates R (loop exhausted body fuel a) := by
  induction fuel with
  | zero => exact fun a s => hrefl s
  | succ fuel ih =>
    intro a
    apply relates_bind htrans (hbody a)
    intro next
    cases next with
    | inl a' => exact ih a'
    | inr c => exact fun s => hrefl s

@[simp] theorem after_get_bind (f : σ → Action σ ε β) (s : σ) :
    (get >>= f).after s = (f s).after s := rfl

/-- Either the first part raised and the whole computation ends where it did, or the rest runs
    from the state the first part left. -/
theorem after_bind_cases (s : σ) :
    ((∃ e, c.result s = .error e) ∧ (c >>= f).after s = c.after s) ∨
      ∃ a, c.result s = .ok a ∧ (c >>= f).after s = (f a).after (c.after s) := by
  cases hc : c s with
  | mk r s' =>
    have hafter : c.after s = s' := by simp [after, hc]
    have hresult : c.result s = r := by simp [result, hc]
    cases r with
    | error e => exact Or.inl ⟨⟨e, hresult⟩, by simp [after, Bind.bind, bind, hc]⟩
    | ok a => exact Or.inr ⟨a, hresult, by rw [hafter]; simp [after, Bind.bind, bind, hc]⟩

/-- A computation that starts by writing leaves what the rest leaves from the written state. -/
theorem after_modify_bind (f : σ → σ) (c : PUnit → Action σ ε β) (s : σ) :
    (modify f >>= c).after s = (c ⟨⟩).after (f s) := rfl

/-- A sequence returns exactly if its first part does and the rest does from where it ended. -/
theorem result_bind_eq_ok {s : σ} {b : β} :
    (c >>= f).result s = .ok b ↔
      ∃ a, c.result s = .ok a ∧ (f a).result (c.after s) = .ok b := by
  show (bind c f s).1 = .ok b ↔ _
  unfold bind result after
  cases c s with
  | mk r s' =>
    cases r with
    | ok a => exact ⟨fun h => ⟨a, rfl, h⟩, fun ⟨a', ha, h⟩ => by cases ha; exact h⟩
    | error e => exact ⟨(fun h => by cases h), fun ⟨a', ha, _⟩ => by cases ha⟩

theorem result_ofExcept (r : Except ε α) (s : σ) : (ofExcept r : Action σ ε α).result s = r := rfl

/-- Computations of the outer state keep the inner one. -/
theorem relates_outside {τ : Type u} (c : Action τ ε α) :
    Relates (fun s s' => s'.1 = s.1) (outside c : Action (σ × τ) ε α) := fun _ => rfl

/-! ## Postconditions -/

/-- Run from `s`, the computation ends with an outcome and a state of which `Q` holds. -/
def Ensures (c : Action σ ε α) (s : σ) (Q : Except ε α → σ → Prop) : Prop :=
  Q (c.result s) (c.after s)

section Postconditions

variable {s : σ} {c : Action σ ε α} {f : α → Action σ ε β} {P : Except ε α → σ → Prop}
  {Q : Except ε β → σ → Prop}

theorem Ensures.mono {P' : Except ε α → σ → Prop} (h : c.Ensures s P)
    (himp : ∀ r s', P r s' → P' r s') : c.Ensures s P' := himp _ _ h

theorem ensures_pure {a : α} (h : P (.ok a) s) : (Pure.pure a : Action σ ε α).Ensures s P := h

theorem ensures_raise {e : ε} (h : P (.error e) s) : (raise e : Action σ ε α).Ensures s P := h

/-- The rule of sequencing: the first part ends in `P`, and from there the rest ends in `Q`. -/
theorem Ensures.bind (hc : c.Ensures s P) (hok : ∀ a s', P (.ok a) s' → (f a).Ensures s' Q)
    (hraise : ∀ e s', P (.error e) s' → Q (.error e) s') : (c >>= f).Ensures s Q := by
  cases hrun : c s with
  | mk r s' =>
    have hp : P r s' := by
      unfold Ensures result after at hc
      rw [hrun] at hc
      exact hc
    show Q (Action.bind c f s).1 (Action.bind c f s).2
    unfold Action.bind
    rw [hrun]
    cases r with
    | ok a => exact hok a s' hp
    | error e => exact hraise e s' hp

theorem ensures_modify_bind {g : σ → σ} {k : PUnit → Action σ ε β} (h : (k ⟨⟩).Ensures (g s) Q) :
    (modify g >>= k).Ensures s Q := h

theorem ensures_get_bind {k : σ → Action σ ε β} (h : (k s).Ensures s Q) :
    (get >>= k).Ensures s Q := h

/-- The rule of loops: `I fuel` holds of what each round starts with, and a round that is not the
    last leads to a round with less fuel. -/
theorem Ensures.loop {γ : Type u} {exhausted : ε} {body : α → Action σ ε (α ⊕ γ)}
    {I : ℕ → α → σ → Prop} {Q : Except ε γ → σ → Prop}
    (hexhausted : ∀ a s, I 0 a s → Q (.error exhausted) s)
    (hbody : ∀ fuel a s, I (fuel + 1) a s → (body a).Ensures s fun r s' =>
      match r with
      | .ok (.inl a') => I fuel a' s'
      | .ok (.inr c) => Q (.ok c) s'
      | .error e => Q (.error e) s') :
    ∀ fuel a s, I fuel a s → (Action.loop exhausted body fuel a).Ensures s Q := by
  intro fuel
  induction fuel with
  | zero => exact fun a s h => hexhausted a s h
  | succ fuel ih =>
    intro a s h
    apply (hbody fuel a s h).bind
    · intro next s' hnext
      cases next with
      | inl a' => exact ih a' s' hnext
      | inr c => exact hnext
    · exact fun e s' hraised => hraised

end Postconditions

/-- The rule of `except`: the exception of `c` is a value for what follows. -/
theorem Ensures.attempt_bind {ε α β : Type u} {s : σ} {c : Action σ ε α}
    {k : Except ε α → Action σ ε β} {P : Except ε α → σ → Prop} {Q : Except ε β → σ → Prop}
    (hc : c.Ensures s P) (hk : ∀ r s', P r s' → (k r).Ensures s' Q) :
    (attempt c >>= k).Ensures s Q := hk _ _ hc

end Action

/-! ## Checks that may fail -/

/-- A sequence of checks succeeds exactly if its first part does and the rest does after it. -/
theorem except_bind_eq_ok {ε : Type u} {α β : Type v} {x : Except ε α} {f : α → Except ε β} {b : β} :
    (x >>= f) = .ok b ↔ ∃ a, x = .ok a ∧ f a = .ok b := by
  cases x with
  | error e => simp [Bind.bind, Except.bind]
  | ok a => simp [Bind.bind, Except.bind]

/-- A check applied to every item succeeds item by item. -/
theorem forall₂_of_mapM {ε : Type u} {α β : Type v} {f : α → Except ε β} :
    ∀ {l : List α} {r : List β}, l.mapM f = .ok r → List.Forall₂ (fun a b => f a = .ok b) l r := by
  intro l
  induction l with
  | nil =>
    intro r h
    cases h
    exact List.Forall₂.nil
  | cons a l ih =>
    intro r h
    rw [List.mapM_cons, except_bind_eq_ok] at h
    rcases h with ⟨b, hb, hrest⟩
    rcases except_bind_eq_ok.mp hrest with ⟨r', hr', heq⟩
    cases heq
    exact List.Forall₂.cons hb (ih hr')

theorem exists_of_mem_mapM {ε : Type u} {α β : Type v} {f : α → Except ε β} {l : List α} {r : List β}
    (h : l.mapM f = .ok r) {b : β} (hb : b ∈ r) : ∃ a ∈ l, f a = .ok b := by
  have hall := forall₂_of_mapM h
  clear h
  induction hall with
  | nil => exact absurd hb List.not_mem_nil
  | cons hfirst hrest ih =>
    rcases List.mem_cons.mp hb with rfl | hb
    · exact ⟨_, List.mem_cons_self, hfirst⟩
    · obtain ⟨a, ha, heq⟩ := ih hb
      exact ⟨a, List.mem_cons_of_mem _ ha, heq⟩

theorem mapM_eq_ok_map {ε : Type u} {α β : Type v} {f : α → Except ε β} {g : α → β} {l : List α}
    (h : ∀ a ∈ l, f a = .ok (g a)) : l.mapM f = .ok (l.map g) := by
  induction l with
  | nil => rfl
  | cons a l ih =>
    rw [List.mapM_cons, h a List.mem_cons_self, ih fun b hb => h b (List.mem_cons_of_mem _ hb)]
    rfl

/-- Where every item has an answer, all of them are answered. -/
theorem exists_mapM {ε : Type u} {α β : Type v} {f : α → Except ε β} {R : β → α → Prop} {l : List α}
    (h : ∀ a ∈ l, ∃ b, f a = .ok b ∧ R b a) :
    ∃ bs, l.mapM f = .ok bs ∧ List.Forall₂ R bs l := by
  induction l with
  | nil => exact ⟨[], rfl, List.Forall₂.nil⟩
  | cons a l ih =>
    rcases h a List.mem_cons_self with ⟨b, hb, hR⟩
    rcases ih fun a' ha' => h a' (List.mem_cons_of_mem _ ha') with ⟨bs, hbs, hrest⟩
    refine ⟨b :: bs, ?_, List.Forall₂.cons hR hrest⟩
    rw [List.mapM_cons, hb, hbs]
    rfl

/-- `refuseIf p e` raises `e` when `p` holds. -/
def refuseIf {ε : Type u} (p : Prop) [Decidable p] (e : ε) : Except ε PUnit.{v + 1} :=
  if p then .error e else .ok ⟨⟩

theorem refuseIf_eq_ok {ε : Type u} {p : Prop} [Decidable p] {e : ε} {a : PUnit.{v + 1}} :
    refuseIf p e = .ok a ↔ ¬ p := by
  unfold refuseIf
  split
  · rename_i h
    simp [h]
  · rename_i h
    simp [h]

/-- `required o e` is what `o` holds, and raises `e` when it holds nothing. -/
def required {ε : Type u} {α : Type v} (o : Option α) (e : ε) : Except ε α :=
  match o with
  | none => .error e
  | some a => .ok a

theorem required_eq_ok {ε : Type u} {α : Type v} {o : Option α} {e : ε} {a : α} :
    required o e = .ok a ↔ o = some a := by
  cases o with
  | none => simp [required]
  | some b => simp [required]

theorem eq_ok_of_toOption {ε : Type u} {α : Type v} {x : Except ε α} {a : α} (h : x.toOption = some a) :
    x = .ok a := by
  cases x with
  | error e => cases h
  | ok b => exact congrArg Except.ok (Option.some.inj h)

end Milo.Reasoning
