import Mathlib

/-!
# PrefixCode — codes whose words mark their own end

A word of such a code is read off the front of any text that starts with it, so a text made of words
determines them.  A code that also keeps the order of what it codes at the first letter that differs
keeps the lexicographic order of whole texts.
-/

namespace Milo.Reasoning

universe u v w

variable {α : Type u} {β : Type v} {γ : Type w}

/-! ## 1. Reading a word off the front of a text -/

/-- A word of the code and what follows it are told from the text they start. -/
def Delimits (code : α → List β) : Prop :=
  ∀ ⦃a b rest rest'⦄, code a ++ rest = code b ++ rest' → a = b ∧ rest = rest'

/-- Two texts joined by a separator neither first part contains are told apart. -/
theorem append_separator_inj {a b c d : List β} {s : β} (ha : s ∉ a) (hc : s ∉ c)
    (h : a ++ s :: b = c ++ s :: d) : a = c ∧ b = d := by
  induction a generalizing c with
  | nil =>
    cases c with
    | nil => exact ⟨rfl, by simpa using h⟩
    | cons x c =>
      rw [List.nil_append, List.cons_append, List.cons.injEq] at h
      exact absurd (h.1 ▸ List.mem_cons_self) hc
  | cons y a ih =>
    cases c with
    | nil =>
      rw [List.nil_append, List.cons_append, List.cons.injEq] at h
      exact absurd (h.1 ▸ List.mem_cons_self) ha
    | cons x c =>
      rw [List.cons_append, List.cons_append, List.cons.injEq] at h
      have hrest := ih (fun hm => ha (List.mem_cons_of_mem _ hm))
        (fun hm => hc (List.mem_cons_of_mem _ hm)) h.2
      exact ⟨by rw [h.1, hrest.1], hrest.2⟩

namespace Delimits

variable {code : α → List β} {code' : γ → List β}

theorem terminated {s : β} (hinj : Function.Injective code) (hfree : ∀ a, s ∉ code a) :
    Delimits fun a => code a ++ [s] := by
  intro a b rest rest' h
  simp only [List.append_assoc, List.singleton_append] at h
  have hparts := append_separator_inj (hfree a) (hfree b) h
  exact ⟨hinj hparts.1, hparts.2⟩

/-- A text of any letters after a word that tells its length. -/
theorem lengthPrefixed {count : ℕ → List β} (h : Delimits count) :
    Delimits fun text : List β => count text.length ++ text := by
  intro a b rest rest' heq
  simp only [List.append_assoc] at heq
  obtain ⟨hlength, htext⟩ := h heq
  exact List.append_inj htext hlength

/-- A letter that starts no word stands for nothing at all. -/
theorem option (missing : β) (h : Delimits code) (hne : ∀ a, code a ≠ [])
    (hfree : ∀ a, (code a).head? ≠ some missing) :
    Delimits fun a : Option α => a.elim [missing] code := by
  have hstart : ∀ (a : α) (rest rest' : List β), [missing] ++ rest ≠ code a ++ rest' := by
    intro a rest rest' heq
    obtain ⟨letter, letters, hword⟩ := List.exists_cons_of_ne_nil (hne a)
    refine hfree a ?_
    rw [hword] at heq ⊢
    rw [List.cons_append, List.cons_append, List.cons.injEq] at heq
    rw [List.head?_cons, heq.1]
  intro a b rest rest' heq
  cases a with
  | none =>
    cases b with
    | none => exact ⟨rfl, by simpa using heq⟩
    | some b => exact absurd heq (hstart b _ _)
  | some a =>
    cases b with
    | none => exact absurd heq.symm (hstart a _ _)
    | some b =>
      obtain ⟨hword, hrest⟩ := h heq
      exact ⟨by rw [hword], hrest⟩

theorem prefixed (h : Delimits code) (lead : List β) : Delimits fun a => lead ++ code a := by
  intro a b rest rest' heq
  simp only [List.append_assoc, List.append_cancel_left_eq] at heq
  exact h heq

theorem pair (h : Delimits code) (h' : Delimits code') :
    Delimits fun p : α × γ => code p.1 ++ code' p.2 := by
  intro p q rest rest' heq
  simp only [List.append_assoc] at heq
  obtain ⟨hfirst, heq'⟩ := h heq
  obtain ⟨hsecond, hrest⟩ := h' heq'
  exact ⟨Prod.ext hfirst hsecond, hrest⟩

theorem flatMap_append_inj (h : Delimits code) :
    ∀ {l l' : List α} {rest rest' : List β}, l.length = l'.length →
      l.flatMap code ++ rest = l'.flatMap code ++ rest' → l = l' ∧ rest = rest' := by
  intro l
  induction l with
  | nil =>
    intro l' rest rest' hlength heq
    rw [List.length_nil, eq_comm, List.length_eq_zero_iff] at hlength
    rw [hlength] at heq ⊢
    exact ⟨rfl, heq⟩
  | cons a l ih =>
    intro l' rest rest' hlength heq
    cases l' with
    | nil => cases hlength
    | cons b l' =>
      simp only [List.flatMap_cons, List.append_assoc] at heq
      obtain ⟨hfirst, heq'⟩ := h heq
      obtain ⟨hmore, hrest⟩ := ih (Nat.succ.inj hlength) heq'
      exact ⟨by rw [hfirst, hmore], hrest⟩

theorem flatMap_inj (h : Delimits code) (hne : ∀ a, code a ≠ []) :
    ∀ {l l' : List α}, l.flatMap code = l'.flatMap code → l = l' := by
  intro l
  induction l with
  | nil =>
    intro l' heq
    cases l' with
    | nil => rfl
    | cons b l' =>
      rw [List.flatMap_nil, List.flatMap_cons, eq_comm, List.append_eq_nil_iff] at heq
      exact absurd heq.1 (hne b)
  | cons a l ih =>
    intro l' heq
    cases l' with
    | nil =>
      rw [List.flatMap_nil, List.flatMap_cons, List.append_eq_nil_iff] at heq
      exact absurd heq.1 (hne a)
    | cons b l' =>
      simp only [List.flatMap_cons] at heq
      obtain ⟨hfirst, hrest⟩ := h heq
      rw [hfirst, ih hrest]

/-- Words in a row, closed by a letter that starts none. -/
theorem closed {last : β} (h : Delimits code) (hne : ∀ a, code a ≠ [])
    (hfree : ∀ a, (code a).head? ≠ some last) : Delimits fun l : List α => l.flatMap code ++ [last] := by
  have hstart : ∀ (a : α) (rest rest' : List β), last :: rest ≠ code a ++ rest' := by
    intro a rest rest' heq
    obtain ⟨letter, letters, hword⟩ := List.exists_cons_of_ne_nil (hne a)
    refine hfree a ?_
    rw [hword] at heq ⊢
    rw [List.cons_append, List.cons.injEq] at heq
    rw [List.head?_cons, heq.1]
  intro l
  induction l with
  | nil =>
    intro l' rest rest' heq
    cases l' with
    | nil => exact ⟨rfl, (List.cons.inj heq).2⟩
    | cons b l' =>
      simp only [List.flatMap_cons, List.append_assoc] at heq
      exact absurd heq (hstart b rest _)
  | cons a l ih =>
    intro l' rest rest' heq
    cases l' with
    | nil =>
      simp only [List.flatMap_cons, List.append_assoc] at heq
      exact absurd heq.symm (hstart a rest' _)
    | cons b l' =>
      simp only [List.flatMap_cons, List.append_assoc] at heq
      obtain ⟨hfirst, hrest⟩ := h heq
      obtain ⟨hmore, hrest⟩ := ih (by simpa using hrest)
      exact ⟨by rw [hfirst, hmore], hrest⟩

end Delimits

/-- Texts joined by a separator: the first, and each other one after a separator. -/
theorem intercalate_cons_eq_flatMap (separator first : List β) (texts : List (List β)) :
    separator.intercalate (first :: texts) = first ++ texts.flatMap fun text => separator ++ text := by
  induction texts generalizing first with
  | nil => simp
  | cons next texts ih =>
    rw [List.intercalate_cons_cons, ih, List.flatMap_cons]
    simp only [List.append_assoc]

/-! ## 2. Codes that keep the order -/

/-- The words differ first at a letter that is less in the first of them. -/
def FirstLess [LT β] (word word' : List β) : Prop :=
  ∃ common letter letters letter' letters', word = common ++ letter :: letters ∧
    word' = common ++ letter' :: letters' ∧ letter < letter'

variable [LinearOrder β]

theorem firstLess_cons {letter letter' : β} {word word' : List β}
    (h : letter < letter' ∨ letter = letter' ∧ FirstLess word word') :
    FirstLess (letter :: word) (letter' :: word') := by
  rcases h with h | ⟨rfl, common, x, letters, y, letters', rfl, rfl, hxy⟩
  · exact ⟨[], letter, word, letter', word', rfl, rfl, h⟩
  · exact ⟨letter :: common, x, letters, y, letters', rfl, rfl, hxy⟩

theorem lt_of_firstLess {word word' rest rest' : List β} (h : FirstLess word word') :
    word ++ rest < word' ++ rest' := by
  obtain ⟨common, letter, letters, letter', letters', rfl, rfl, hless⟩ := h
  simp only [List.append_assoc, List.cons_append]
  exact List.Lex.append_left _ (List.Lex.rel hless) common

variable [LinearOrder α]

/-- Texts are ordered by their codes as by their letters. -/
theorem flatMap_lt_flatMap {code : α → List β} (hne : ∀ a, code a ≠ [])
    (hless : ∀ a b, a < b → FirstLess (code a) (code b)) {l l' : List α} (h : l < l') :
    l.flatMap code < l'.flatMap code := by
  induction h with
  | nil =>
    rename_i a l'
    rw [List.flatMap_nil, List.flatMap_cons]
    obtain ⟨letter, letters, hword⟩ := List.exists_cons_of_ne_nil (hne a)
    rw [hword]
    exact List.Lex.nil
  | cons _ ih =>
    rw [List.flatMap_cons, List.flatMap_cons]
    exact List.Lex.append_left _ ih _
  | rel hab =>
    rw [List.flatMap_cons, List.flatMap_cons]
    exact lt_of_firstLess (hless _ _ hab)

theorem flatMap_le_flatMap_iff {code : α → List β} (hne : ∀ a, code a ≠ [])
    (hless : ∀ a b, a < b → FirstLess (code a) (code b)) {l l' : List α} :
    l.flatMap code ≤ l'.flatMap code ↔ l ≤ l' := by
  constructor
  · intro h
    by_contra hnot
    exact absurd h (not_le_of_gt (flatMap_lt_flatMap hne hless (not_le.mp hnot)))
  · intro h
    rcases lt_or_eq_of_le h with hlt | rfl
    · exact le_of_lt (flatMap_lt_flatMap hne hless hlt)
    · exact le_refl _

end Milo.Reasoning
