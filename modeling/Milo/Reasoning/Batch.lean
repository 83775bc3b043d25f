import Mathlib

/-!
# Batch — writes one after another, ended by the first refusal

Each item of a list is written in turn; what was written before a refusal stays written.
-/

namespace Milo.Reasoning

universe u

variable {σ α β ε : Type u}

/-- What a batch of writes did. -/
structure Batch (σ α β ε : Type u) where
  state : σ
  written : List (α × β)
  refused : Option ε

/-- Write the items in order until one is refused. -/
def writeAll (write : σ → α → Except ε (σ × β)) : List α → σ → Batch σ α β ε
  | [], s => ⟨s, [], none⟩
  | a :: rest, s =>
    match write s a with
    | .error e => ⟨s, [], some e⟩
    | .ok (s', b) =>
      let batch := writeAll write rest s'
      { batch with written := (a, b) :: batch.written }

variable {write : σ → α → Except ε (σ × β)}

theorem writeAll_refused {a : α} {rest : List α} {s : σ} {e : ε} (h : write s a = .error e) :
    writeAll write (a :: rest) s = ⟨s, [], some e⟩ := by
  rw [writeAll, h]

theorem writeAll_accepted {a : α} {rest : List α} {s s' : σ} {b : β} (h : write s a = .ok (s', b)) :
    writeAll write (a :: rest) s =
      { writeAll write rest s' with written := (a, b) :: (writeAll write rest s').written } := by
  rw [writeAll, h]

/-- A property of what is written so far and the state, kept by every accepted write, holds of the
    whole batch. -/
theorem writeAll_invariant {J : List α → σ → Prop}
    (hstep : ∀ done s a s' b, J done s → write s a = .ok (s', b) → J (done ++ [a]) s') (items : List α) :
    ∀ done s, J done s →
      J (done ++ (writeAll write items s).written.map Prod.fst) (writeAll write items s).state := by
  induction items with
  | nil =>
    intro done s h
    show J (done ++ []) s
    rw [List.append_nil]
    exact h
  | cons a rest ih =>
    intro done s h
    cases hwrite : write s a with
    | error e =>
      rw [writeAll_refused hwrite]
      show J (done ++ []) s
      rw [List.append_nil]
      exact h
    | ok answer =>
      rw [writeAll_accepted hwrite]
      have hrest := ih (done ++ [a]) answer.1 (hstep done s a answer.1 answer.2 h hwrite)
      rw [List.append_assoc, List.singleton_append] at hrest
      exact hrest

theorem mem_of_mem_written {items : List α} :
    ∀ {s : σ} {a : α}, a ∈ (writeAll write items s).written.map Prod.fst → a ∈ items := by
  induction items with
  | nil => exact fun h => absurd h List.not_mem_nil
  | cons b rest ih =>
    intro s a h
    cases hwrite : write s b with
    | error e =>
      rw [writeAll_refused hwrite] at h
      exact absurd h List.not_mem_nil
    | ok answer =>
      rw [writeAll_accepted hwrite] at h
      rcases List.mem_cons.mp h with rfl | h
      · exact List.mem_cons_self
      · exact List.mem_cons_of_mem _ (ih h)

/-- Where each write is accepted exactly if its item is good, a batch is written to its end exactly
    if all its items are good. -/
theorem refused_eq_none_iff {I : σ → Prop} {Q : α → Prop} {items : List α}
    (hwrite : ∀ s, I s → ∀ a ∈ items, (Q a ↔ ∃ answer, write s a = .ok answer))
    (hkeep : ∀ s, I s → ∀ a ∈ items, ∀ s' b, write s a = .ok (s', b) → I s') :
    ∀ s, I s → ((writeAll write items s).refused = none ↔ ∀ a ∈ items, Q a) := by
  induction items with
  | nil => exact fun s _ => ⟨fun _ a ha => absurd ha List.not_mem_nil, fun _ => rfl⟩
  | cons a rest ih =>
    intro s hs
    have hrest : ∀ s, I s → ∀ b ∈ rest, (Q b ↔ ∃ answer, write s b = .ok answer) :=
      fun s hs b hb => hwrite s hs b (List.mem_cons_of_mem _ hb)
    have hkeeps : ∀ s, I s → ∀ b ∈ rest, ∀ s' c, write s b = .ok (s', c) → I s' :=
      fun s hs b hb => hkeep s hs b (List.mem_cons_of_mem _ hb)
    rw [List.forall_mem_cons, hwrite s hs a List.mem_cons_self]
    cases hfirst : write s a with
    | error e =>
      rw [writeAll_refused hfirst]
      constructor
      · exact fun h => absurd h (Option.some_ne_none e)
      · rintro ⟨⟨answer, hanswer⟩, -⟩
        cases hanswer
    | ok answer =>
      rw [writeAll_accepted hfirst]
      have hkept := hkeep s hs a List.mem_cons_self answer.1 answer.2 hfirst
      show (writeAll write rest answer.1).refused = none ↔ _
      rw [ih hrest hkeeps answer.1 hkept]
      exact ⟨fun h => ⟨⟨answer, rfl⟩, h⟩, fun h => h.2⟩

/-! ## Rows inserted by one statement -/

/-- Each row is admitted against those stored before it; one that is not raises. -/
def admitAll (accept : List α → α → Except ε PUnit.{u + 1}) (stored : List α) :
    List α → Except ε PUnit.{u + 1}
  | [] => .ok ⟨⟩
  | a :: rest =>
    match accept stored a with
    | .error e => .error e
    | .ok _ => admitAll accept (stored ++ [a]) rest

end Milo.Reasoning
