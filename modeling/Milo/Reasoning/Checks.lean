import Milo.Reasoning.Action

/-!
# Checks — what a sequence of checks can raise, and what it keeps

Rules for computations that raise: a computation raises only what its parts raise, a loop of checks
passes exactly if each of them does, and what each step of a fold keeps the fold keeps.
-/

namespace Milo.Reasoning

universe u v

variable {ε : Type u} {α β σ : Type v} {E : ε → Prop} {x : Except ε α} {e : ε}

/-- Whatever `x` raises satisfies `E`. -/
def RaisesOnly (E : ε → Prop) (x : Except ε α) : Prop := ∀ e, x = .error e → E e

theorem RaisesOnly.ok (a : α) : RaisesOnly E (Except.ok a : Except ε α) := by
  intro e h
  cases h

theorem RaisesOnly.error (h : E e) : RaisesOnly E (Except.error e : Except ε α) := by
  intro e' heq
  cases heq
  exact h

theorem RaisesOnly.bind {f : α → Except ε β} (hx : RaisesOnly E x)
    (hf : ∀ a, x = .ok a → RaisesOnly E (f a)) : RaisesOnly E (x >>= f) := by
  intro e h
  cases hxa : x with
  | error e' =>
    have heq : e' = e := by
      rw [hxa] at h
      exact Except.error.inj h
    rw [← heq]
    exact hx e' hxa
  | ok a =>
    rw [hxa] at h
    exact hf a hxa e h

theorem raisesOnly_refuseIf {p : Prop} [Decidable p] (h : p → E e) :
    RaisesOnly E (refuseIf p e : Except ε PUnit.{v + 1}) := by
  unfold refuseIf
  split
  · rename_i hp
    exact RaisesOnly.error (h hp)
  · exact RaisesOnly.ok _

theorem raisesOnly_required {o : Option α} (h : o = none → E e) : RaisesOnly E (required o e) := by
  cases o with
  | none => exact RaisesOnly.error (h rfl)
  | some a => exact RaisesOnly.ok a

variable {step : σ → α → Except ε σ} {items : List α} {s s' : σ}

/-- Each item of a fold that passes was passed in some state. -/
theorem foldlM_each (h : items.foldlM step s = .ok s') : ∀ a ∈ items, ∃ t t', step t a = .ok t' := by
  induction items generalizing s with
  | nil => exact fun a ha => absurd ha List.not_mem_nil
  | cons a rest ih =>
    rw [List.foldlM_cons] at h
    rcases except_bind_eq_ok.mp h with ⟨s1, hfirst, hrest⟩
    exact List.forall_mem_cons.mpr ⟨⟨s, s1, hfirst⟩, ih hrest⟩

theorem RaisesOnly.foldlM (hstep : ∀ a ∈ items, ∀ s, RaisesOnly E (step s a)) (s : σ) :
    RaisesOnly E (items.foldlM step s) := by
  induction items generalizing s with
  | nil => exact RaisesOnly.ok s
  | cons a rest ih =>
    rw [List.foldlM_cons]
    apply (hstep a List.mem_cons_self s).bind
    intro s1 _
    exact ih (fun b hb => hstep b (List.mem_cons_of_mem _ hb)) s1

theorem RaisesOnly.mapM {f : α → Except ε β} (hf : ∀ a ∈ items, RaisesOnly E (f a)) :
    RaisesOnly E (items.mapM f) := by
  induction items with
  | nil => exact RaisesOnly.ok []
  | cons a rest ih =>
    rw [List.mapM_cons]
    apply (hf a List.mem_cons_self).bind
    intro b _
    apply (ih fun c hc => hf c (List.mem_cons_of_mem _ hc)).bind
    intro bs _
    exact RaisesOnly.ok (b :: bs)

/-- A loop of checks passes exactly if every check does. -/
theorem forM_eq_ok {check : α → Except ε PUnit.{v + 1}} :
    items.forM check = .ok ⟨⟩ ↔ ∀ a ∈ items, check a = .ok ⟨⟩ := by
  induction items with
  | nil => exact ⟨fun _ a ha => absurd ha List.not_mem_nil, fun _ => rfl⟩
  | cons a rest ih =>
    rw [List.forall_mem_cons, ← ih]
    show (check a >>= fun _ => rest.forM check) = .ok ⟨⟩ ↔ _
    rw [except_bind_eq_ok]
    constructor
    · rintro ⟨_, hfirst, hrest⟩
      exact ⟨hfirst, hrest⟩
    · rintro ⟨hfirst, hrest⟩
      exact ⟨_, hfirst, hrest⟩

theorem RaisesOnly.forM {check : α → Except ε PUnit.{v + 1}} (hcheck : ∀ a ∈ items, RaisesOnly E (check a)) :
    RaisesOnly E (items.forM check) := by
  induction items with
  | nil => exact RaisesOnly.ok _
  | cons a rest ih =>
    show RaisesOnly E (check a >>= fun _ => rest.forM check)
    apply (hcheck a List.mem_cons_self).bind
    intro _ _
    exact ih fun b hb => hcheck b (List.mem_cons_of_mem _ hb)

end Milo.Reasoning
