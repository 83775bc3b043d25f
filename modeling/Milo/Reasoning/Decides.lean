import Milo.Reasoning.Checks

/-!
# Decides — what a sequence of checks decides

A check decides a property where it passes exactly if the property holds and fails only for the reasons told
beforehand. The rules below follow the ways checks are put together.
-/

namespace Milo.Reasoning

universe u v

variable {ε : Type u} {α : Type v} {E : ε → Prop} {P Q : Prop} {e : ε} {check : Except ε PUnit.{v + 1}}

/-- The check passes exactly if `P` holds, and whatever it raises satisfies `E`. -/
structure Decides (E : ε → Prop) (P : Prop) (check : Except ε PUnit.{v + 1}) : Prop where
  passes : check = .ok ⟨⟩ ↔ P
  raises : RaisesOnly E check

namespace Decides

theorem pass : Decides E True (pure ⟨⟩ : Except ε PUnit.{v + 1}) := ⟨⟨fun _ => trivial, fun _ => rfl⟩, RaisesOnly.ok _⟩

theorem congr (h : Decides E P check) (hiff : P ↔ Q) : Decides E Q check := ⟨h.passes.trans hiff, h.raises⟩

/-- Of two checks the second is made where the first has passed. -/
theorem seq {next : PUnit.{v + 1} → Except ε PUnit.{v + 1}} (hfirst : Decides E P check)
    (hnext : P → Decides E Q (next ⟨⟩)) : Decides E (P ∧ Q) (check >>= next) := by
  constructor
  · rw [except_bind_eq_ok]
    constructor
    · rintro ⟨_, hcheck, h⟩
      have hP := hfirst.passes.mp hcheck
      exact ⟨hP, (hnext hP).passes.mp h⟩
    · rintro ⟨hP, hQ⟩
      exact ⟨⟨⟩, hfirst.passes.mpr hP, (hnext hP).passes.mpr hQ⟩
  · exact hfirst.raises.bind fun _ hcheck => (hnext (hfirst.passes.mp hcheck)).raises

theorem refuse {p : Prop} [Decidable p] (h : E e) : Decides E (¬p) (refuseIf p e : Except ε PUnit.{v + 1}) :=
  ⟨refuseIf_eq_ok, raisesOnly_refuseIf fun _ => h⟩

theorem skip {p : Prop} [Decidable p] {next : PUnit.{v + 1} → Except ε PUnit.{v + 1}} (hp : ¬p)
    (hnext : Decides E P (next ⟨⟩)) : Decides E P (refuseIf p e >>= next) := by
  have hpass : (refuseIf p e : Except ε PUnit.{v + 1}) = .ok ⟨⟩ := refuseIf_eq_ok.mpr hp
  rw [hpass]
  exact hnext

theorem found {o : Option α} {a : α} {next : α → Except ε PUnit.{v + 1}} (ho : o = some a)
    (hnext : Decides E P (next a)) : Decides E P (required o e >>= next) := by
  rw [required_eq_ok.mpr ho]
  exact hnext

theorem forM {items : List α} {P : α → Prop} {check : α → Except ε PUnit.{v + 1}}
    (h : ∀ a ∈ items, Decides E (P a) (check a)) : Decides E (∀ a ∈ items, P a) (items.forM check) :=
  ⟨forM_eq_ok.trans (forall₂_congr fun a ha => (h a ha).passes), RaisesOnly.forM fun a ha => (h a ha).raises⟩

theorem option {o : Option α} {P : α → Prop} {check : α → Except ε PUnit.{v + 1}}
    (h : ∀ a ∈ o, Decides E (P a) (check a)) : Decides E (∀ a ∈ o, P a) (o.toList.forM check) :=
  (forM fun a ha => h a (Option.mem_toList.mp ha)).congr (forall_congr' fun _ => imp_congr_left Option.mem_toList)

end Decides

end Milo.Reasoning
