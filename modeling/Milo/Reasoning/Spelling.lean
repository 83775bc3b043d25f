import Milo.Reasoning.Checks

/-!
# Spelling — one durable text for a value

A value is written as a text and read back from it.  A reader that decodes a text and then compares it
with what it would write for the value accepts that one text only.
-/

namespace Milo.Reasoning

universe u v w

variable {α : Type u} {β : Type v} {ε : Type w}

/-- Every value is read back from its own text, no other text is read, and no text is shared. -/
structure OneSpelling (write : α → β) (read : β → Except ε α) : Prop where
  read_write : ∀ a, read (write a) = .ok a
  write_of_read : ∀ text a, read text = .ok a → write a = text
  distinct : Function.Injective write

variable [DecidableEq β] {write : α → β} {decode : β → Except ε α} {refusal : ε}

/-- Decode, then compare with what would be written. -/
def checkedRead (write : α → β) (decode : β → Except ε α) (refusal : ε) (text : β) : Except ε α :=
  match decode text with
  | .error e => .error e
  | .ok a => if write a = text then .ok a else .error refusal

theorem checkedRead_eq_ok {text : β} {a : α} :
    checkedRead write decode refusal text = .ok a ↔ decode text = .ok a ∧ write a = text := by
  unfold checkedRead
  cases hdecode : decode text with
  | error e =>
    constructor
    · intro h
      cases h
    · rintro ⟨h, _⟩
      cases h
  | ok b =>
    dsimp only
    constructor
    · intro h
      split at h
      · rename_i hsame
        cases h
        exact ⟨rfl, hsame⟩
      · cases h
    · rintro ⟨h, hsame⟩
      cases h
      rw [if_pos hsame]

/-- A comparing reader reads what its decoder reads from a value's own text, and nothing else. -/
theorem oneSpelling_checkedRead (h : ∀ a, decode (write a) = .ok a) :
    OneSpelling write (checkedRead write decode refusal) where
  read_write := fun a => checkedRead_eq_ok.mpr ⟨h a, rfl⟩
  write_of_read := fun _ _ hread => (checkedRead_eq_ok.mp hread).2
  distinct := by
    intro a b hab
    have ha := h a
    rw [hab, h b] at ha
    exact (Except.ok.inj ha).symm

end Milo.Reasoning
