import Mathlib

/-!
# Dependency — dependency relations and orders that respect them

`deps a` lists what `a` directly depends on.  `Needs` is its transitive closure, a relation without
cycles is one where nothing needs itself, and an order of items is dependencies-first when no item
stands before one of its own dependencies.
-/

namespace Milo.Reasoning

universe u

variable {α : Type u} {deps : α → List α}

def DependsOn (deps : α → List α) (a b : α) : Prop := b ∈ deps a

/-- `b` is a dependency of `a`, directly or through others. -/
def Needs (deps : α → List α) : α → α → Prop := Relation.TransGen (DependsOn deps)

def Acyclic (deps : α → List α) : Prop := ∀ a, ¬ Needs deps a a

/-- No item of the order stands before one of its own dependencies. -/
def DependenciesFirst (deps : α → List α) (order : List α) : Prop :=
  order.Pairwise fun a later => later ∉ deps a

theorem Acyclic.notMem_self (h : Acyclic deps) (a : α) : a ∉ deps a :=
  fun hmem => h a (Relation.TransGen.single hmem)

/-- A rank that decreases along every dependency rules out cycles. -/
theorem acyclic_of_rank (rank : α → ℕ) (h : ∀ a, ∀ b ∈ deps a, rank b < rank a) :
    Acyclic deps := by
  have hneeds : ∀ a b, Needs deps a b → rank b < rank a := by
    intro a b hab
    induction hab with
    | single hstep => exact h _ _ hstep
    | tail _ hstep ih => exact Nat.lt_trans (h _ _ hstep) ih
  exact fun a haa => Nat.lt_irrefl _ (hneeds a a haa)

/-- A property that passes to every direct dependency passes to everything needed. -/
theorem Needs.closed {P : α → Prop} (h : ∀ a, P a → ∀ b ∈ deps a, P b) {a b : α} (ha : P a)
    (hab : Needs deps a b) : P b := by
  induction hab with
  | single hstep => exact h a ha _ hstep
  | tail _ hstep ih => exact h _ ih _ hstep

end Milo.Reasoning
