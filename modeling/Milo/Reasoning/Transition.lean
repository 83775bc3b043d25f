import Mathlib

/-!
# Transition — labelled transition systems and their runs

A system is a relation `step s l s'`: in state `s` the action `l` may lead to `s'`.  A run records
every step it took as the pair of the state the step started in and its label, so a run carries
both the states it visited and anything that is summed over its actions.  The rules below are the
three inductions on runs that every protocol of the development uses.
-/

namespace Milo.Reasoning

universe u v

variable {σ : Type u} {Λ : Type v}

/-- `Run step s hist s'`: the steps of `hist`, in order, lead from `s` to `s'`. -/
inductive Run (step : σ → Λ → σ → Prop) (s : σ) : List (σ × Λ) → σ → Prop
  | nil : Run step s [] s
  | snoc {m s' : σ} {hist : List (σ × Λ)} {l : Λ} :
      Run step s hist m → step m l s' → Run step s (hist ++ [(m, l)]) s'

/-- `P` holds in every state of the run: in each state a step started in and in the last one. -/
def Throughout (P : σ → Prop) (hist : List (σ × Λ)) (s' : σ) : Prop :=
  (∀ e ∈ hist, P e.1) ∧ P s'

namespace Run

variable {step : σ → Λ → σ → Prop} {s s' : σ} {hist : List (σ × Λ)}

theorem single {l : Λ} (h : step s l s') : Run step s [(s, l)] s' :=
  snoc nil h

/-- A property of the history and the state reached, kept by every step, holds of every run. -/
theorem history_invariant {J : List (σ × Λ) → σ → Prop} (h0 : J [] s)
    (hstep : ∀ hist m l m', Run step s hist m → J hist m → step m l m' → J (hist ++ [(m, l)]) m')
    (hrun : Run step s hist s') : J hist s' := by
  induction hrun with
  | nil => exact h0
  | snoc hpre hlast ih => exact hstep _ _ _ _ hpre ih hlast

variable {I : σ → Prop}

/-- The invariant rule. -/
theorem invariant (h0 : I s) (hstep : ∀ m l m', I m → step m l m' → I m') (hrun : Run step s hist s') : I s' :=
  hrun.history_invariant (J := fun _ m => I m) h0 fun _ _ _ _ _ hI h => hstep _ _ _ hI h

/-- An invariant holds in every state of the run, not only in the last one. -/
theorem throughout (h0 : I s) (hstep : ∀ m l m', I m → step m l m' → I m') (hrun : Run step s hist s') :
    Throughout I hist s' := by
  refine hrun.history_invariant (J := Throughout I) ⟨by simp, h0⟩ ?_
  rintro hist m l m' - ⟨hall, hm⟩ h
  refine ⟨fun e he => ?_, hstep m l m' hm h⟩
  rcases List.mem_append.mp he with he | he
  · exact hall e he
  · rw [List.mem_singleton.mp he]
    exact hm

/-- When each step taken from a good state leads to a good state exactly if `Q` held of it, a run
    stays good exactly if `Q` held of all its steps. -/
theorem throughout_iff {P : σ → Prop} {Q : σ → Λ → Prop} (hI0 : I s) (hP0 : P s)
    (hI : ∀ m l m', I m → step m l m' → I m') (hPQ : ∀ m l m', I m → P m → step m l m' → (P m' ↔ Q m l))
    (hrun : Run step s hist s') : Throughout P hist s' ↔ ∀ e ∈ hist, Q e.1 e.2 := by
  refine hrun.history_invariant (J := fun hist m => Throughout P hist m ↔ ∀ e ∈ hist, Q e.1 e.2)
    ⟨by simp, fun _ => ⟨by simp, hP0⟩⟩ ?_
  intro hist m l m' hpre ih h
  have hIm : I m := hpre.invariant hI0 hI
  constructor
  · rintro ⟨hall, hm'⟩ e he
    have hpre : Throughout P hist m :=
      ⟨fun e he => hall e (List.mem_append_left _ he), hall (m, l) (by simp)⟩
    rcases List.mem_append.mp he with he | he
    · exact ih.mp hpre e he
    · rw [List.mem_singleton.mp he]
      exact (hPQ m l m' hIm hpre.2 h).mp hm'
  · intro hall
    have hpre : Throughout P hist m := ih.mpr fun e he => hall e (List.mem_append_left _ he)
    refine ⟨fun e he => ?_, (hPQ m l m' hIm hpre.2 h).mpr (hall (m, l) (by simp))⟩
    rcases List.mem_append.mp he with he | he
    · exact hpre.1 e he
    · rw [List.mem_singleton.mp he]
      exact hpre.2

/-- A run parts at a step: a run to the state the step started in, and one from where it leads. -/
theorem parts {earlier later : List (σ × Λ)} {e : σ × Λ} (hrun : Run step s hist s') :
    hist = earlier ++ e :: later → Run step s earlier e.1 ∧ ∃ m, step e.1 e.2 m ∧ Run step m later s' := by
  induction hrun generalizing later with
  | nil => exact fun heq => absurd heq (by simp)
  | @snoc m _ hist l hpre hlast ih =>
    intro heq
    rcases List.eq_nil_or_concat later with rfl | ⟨later', last, rfl⟩
    · have hsplit := List.append_inj' heq rfl
      rw [← hsplit.1, ← List.head_eq_of_cons_eq hsplit.2]
      exact ⟨hpre, _, hlast, nil⟩
    · rw [List.concat_eq_append, ← List.cons_append, ← List.append_assoc] at heq
      have hsplit := List.append_inj' heq rfl
      obtain ⟨hbefore, m', hfirst, hrest⟩ := ih hsplit.1
      rw [List.concat_eq_append, ← List.head_eq_of_cons_eq hsplit.2]
      exact ⟨hbefore, m', hfirst, snoc hrest hlast⟩

theorem before {earlier later : List (σ × Λ)} {e : σ × Λ} (hrun : Run step s hist s')
    (heq : hist = earlier ++ e :: later) : Run step s earlier e.1 := (hrun.parts heq).1

theorem after {earlier later : List (σ × Λ)} {e : σ × Λ} (hrun : Run step s hist s')
    (heq : hist = earlier ++ e :: later) : ∃ m, step e.1 e.2 m ∧ Run step m later s' := (hrun.parts heq).2

theorem trans {m : σ} {hist' : List (σ × Λ)} (h : Run step s hist m)
    (h' : Run step m hist' s') : Run step s (hist ++ hist') s' := by
  induction h' with
  | nil => simpa using h
  | snoc _ hlast ih =>
    rw [← List.append_assoc]
    exact snoc ih hlast

end Run

/-! ## Deterministic systems -/

/-- A step of a system whose next state is computed: the action is allowed and performed. -/
def Performs (allowed : σ → Λ → Prop) (exec : σ → Λ → σ) (s : σ) (l : Λ) (s' : σ) : Prop :=
  allowed s l ∧ s' = exec s l

variable {exec : σ → Λ → σ}

/-- Every action of a run was allowed in the state it was taken in. -/
theorem Run.allowed {allowed : σ → Λ → Prop} {s s' : σ} {hist : List (σ × Λ)}
    (hrun : Run (Performs allowed exec) s hist s') {e : σ × Λ} (he : e ∈ hist) : allowed e.1 e.2 := by
  induction hrun with
  | nil => exact absurd he List.not_mem_nil
  | snoc hpre hlast ih =>
    rcases List.mem_append.mp he with he | he
    · exact ih he
    · rw [List.mem_singleton.mp he]
      exact hlast.1

/-- The history of performing a list of actions. -/
def performed (exec : σ → Λ → σ) : σ → List Λ → List (σ × Λ)
  | _, [] => []
  | s, l :: ls => (s, l) :: performed exec (exec s l) ls

theorem mem_of_mem_performed {e : σ × Λ} {ls : List Λ} : ∀ {s : σ}, e ∈ performed exec s ls → e.2 ∈ ls := by
  induction ls with
  | nil => exact fun he => absurd he List.not_mem_nil
  | cons l ls ih =>
    intro s he
    rcases List.mem_cons.mp he with rfl | he
    · exact List.mem_cons_self
    · exact List.mem_cons_of_mem _ (ih he)

/-- Two systems that perform the actions alike have one history of them. -/
theorem performed_congr {exec' : σ → Λ → σ} {ls : List Λ} (h : ∀ l ∈ ls, ∀ s, exec s l = exec' s l) :
    ∀ s, performed exec s ls = performed exec' s ls ∧ ls.foldl exec s = ls.foldl exec' s := by
  induction ls with
  | nil => exact fun s => ⟨rfl, rfl⟩
  | cons l ls ih =>
    intro s
    have hrest := ih (fun l' hl' => h l' (List.mem_cons_of_mem _ hl')) (exec' s l)
    rw [performed, performed, List.foldl_cons, List.foldl_cons, h l List.mem_cons_self, hrest.1,
      hrest.2]
    exact ⟨rfl, rfl⟩

theorem run_performed {allowed : σ → Λ → Prop} (ls : List Λ) :
    ∀ s, (∀ e ∈ performed exec s ls, allowed e.1 e.2) →
      Run (Performs allowed exec) s (performed exec s ls) (ls.foldl exec s) := by
  induction ls with
  | nil => exact fun s _ => Run.nil
  | cons l ls ih =>
    intro s hall
    have hfirst : Run (Performs allowed exec) s [(s, l)] (exec s l) :=
      Run.single ⟨hall (s, l) (by simp [performed]), rfl⟩
    exact hfirst.trans (ih _ fun e he => hall e (List.mem_cons_of_mem _ he))

end Milo.Reasoning
