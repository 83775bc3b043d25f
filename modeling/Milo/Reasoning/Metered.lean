import Mathlib

/-!
# Metered — operations that pay for every question

An operation asks questions one at a time; what it asks next depends on the answers so far, and it may
never come to an end by itself.  A meter charges each question before it is asked.  It carries its own
laws: never more questions than its limit, and none after an answer that stops it.
-/

namespace Milo.Reasoning

variable {ρ β : Type}

/-- What was asked, with the answers; at most `limit` questions, none of them after a stopping answer. -/
structure Meter (ρ : Type) (limit : ℕ) (stops : β → Bool) where
  asked : List (ρ × β)
  bounded : asked.length ≤ limit
  stopped : ∀ earlier later e, asked = earlier ++ e :: later → stops e.2 = true → later = []

/-- Why a meter refuses a question. -/
inductive MeterRefusal
  | stopped
  | exhausted
  deriving DecidableEq, Repr

namespace Meter

variable {limit : ℕ} {stops : β → Bool} (m : Meter ρ limit stops)

def fresh : Meter ρ limit stops where
  asked := []
  bounded := Nat.zero_le _
  stopped := fun earlier later e h => absurd h.symm (by simp)

def remaining : ℕ := limit - m.asked.length

/-- Whether an answer has stopped the meter. -/
def tripped : Bool := m.asked.any fun e => stops e.2

/-- One more question and its answer, where the meter still allows it. -/
def charge (e : ρ × β) (hroom : m.asked.length < limit) (hopen : m.tripped = false) :
    Meter ρ limit stops where
  asked := m.asked ++ [e]
  bounded := by
    rw [List.length_append, List.length_singleton]
    exact hroom
  stopped := by
    intro earlier later e' heq hstops
    rcases List.eq_nil_or_concat later with rfl | ⟨later', last, rfl⟩
    · rfl
    · -- a stopping answer before the last one would have stopped the meter already
      rw [List.concat_eq_append, ← List.cons_append, ← List.append_assoc] at heq
      have hasked := (List.append_inj' heq rfl).1
      unfold tripped at hopen
      rw [List.any_eq_false] at hopen
      exact absurd hstops (hopen e' (by rw [hasked]; simp))

theorem remaining_charge (e : ρ × β) (hroom : m.asked.length < limit) (hopen : m.tripped = false) :
    (m.charge e hroom hopen).remaining + 1 = m.remaining := by
  unfold remaining charge
  rw [List.length_append, List.length_singleton]
  omega

end Meter

/-- An operation by its states: it ends with a result, or asks and goes on with the answer; a refused
    question ends it. -/
structure Operation (ρ β α : Type) where
  State : Type
  start : State
  step : State → α ⊕ (ρ × (β → State))
  refused : State → MeterRefusal → α

namespace Operation

variable {α : Type} {limit : ℕ} {stops : β → Bool}

/-- The operation against an answering environment; it ends because the meter does. -/
def runFrom (op : Operation ρ β α) (answers : List (ρ × β) → ρ → β) (s : op.State)
    (m : Meter ρ limit stops) : α × Meter ρ limit stops :=
  match op.step s with
  | .inl result => (result, m)
  | .inr (question, next) =>
    if hopen : m.tripped = false then
      if hroom : m.asked.length < limit then
        let answer := answers m.asked question
        runFrom op answers (next answer) (m.charge (question, answer) hroom hopen)
      else (op.refused s .exhausted, m)
    else (op.refused s .stopped, m)
termination_by m.remaining
decreasing_by
  have h := m.remaining_charge (question, answers m.asked question) hroom hopen
  omega

def run (op : Operation ρ β α) (answers : List (ρ × β) → ρ → β) (m : Meter ρ limit stops) :
    α × Meter ρ limit stops :=
  op.runFrom answers op.start m

end Operation

end Milo.Reasoning
