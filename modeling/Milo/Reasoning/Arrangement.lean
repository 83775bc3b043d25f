import Mathlib

/-!
# Arrangement — items named once, in one order

A list of items is read with each item where it is first named.  An arrangement puts some items in front,
lets a list follow, then what is added to it, and leaves some items out; arranging the result by the same
lists again leaves it as it is.
-/

namespace Milo.Reasoning

universe u

variable {α : Type u} [DecidableEq α]

/-! ## 1. Each item once -/

def appendNew (seen : List α) (item : α) : List α := if item ∈ seen then seen else seen ++ [item]

/-- Each item where it is first named. -/
def uniques (items : List α) : List α := items.foldl appendNew []

variable {items others seen : List α} {a : α}

theorem foldl_appendNew (items : List α) : ∀ seen : List α,
    items.foldl appendNew seen = seen ++ (uniques items).filter (fun b => decide (b ∉ seen)) := by
  induction items with
  | nil => exact fun seen => (List.append_nil seen).symm
  | cons a rest ih =>
    intro seen
    have hcons : uniques (a :: rest) = [a] ++ (uniques rest).filter fun b => decide (b ∉ [a]) := ih [a]
    rw [List.foldl_cons, ih, hcons, List.filter_append, List.filter_filter]
    unfold appendNew
    by_cases ha : a ∈ seen
    · -- An item seen before is dropped where it stands, and nowhere else.
      have hdrop : [a].filter (fun b => decide (b ∉ seen)) = [] := by
        rw [List.filter_cons_of_neg (by simpa using ha), List.filter_nil]
      have hrest : (uniques rest).filter (fun b => decide (b ∉ seen) && decide (b ∉ [a])) =
          (uniques rest).filter fun b => decide (b ∉ seen) := by
        apply List.filter_congr
        intro b _
        rw [← Bool.decide_and, decide_eq_decide]
        refine ⟨And.left, fun hb => ⟨hb, ?_⟩⟩
        rw [List.mem_singleton]
        rintro rfl
        exact hb ha
      rw [if_pos ha, hdrop, List.nil_append, hrest]
    · have hkeep : [a].filter (fun b => decide (b ∉ seen)) = [a] := by
        rw [List.filter_cons_of_pos (by simpa using ha), List.filter_nil]
      have hrest : (uniques rest).filter (fun b => decide (b ∉ seen) && decide (b ∉ [a])) =
          (uniques rest).filter fun b => decide (b ∉ seen ++ [a]) := by
        apply List.filter_congr
        intro b _
        rw [← Bool.decide_and, decide_eq_decide, List.mem_append, not_or]
      rw [if_neg ha, hkeep, List.append_assoc, hrest]

@[simp] theorem uniques_nil : uniques ([] : List α) = [] := rfl

theorem uniques_cons (a : α) (items : List α) :
    uniques (a :: items) = a :: (uniques items).filter fun b => decide (b ≠ a) := by
  have hcons : uniques (a :: items) = [a] ++ (uniques items).filter fun b => decide (b ∉ [a]) :=
    foldl_appendNew items [a]
  rw [hcons, List.singleton_append]
  congr 1
  apply List.filter_congr
  intro b _
  rw [decide_eq_decide, List.mem_singleton]

@[simp] theorem mem_uniques : a ∈ uniques items ↔ a ∈ items := by
  induction items with
  | nil => rfl
  | cons b rest ih =>
    rw [uniques_cons, List.mem_cons, List.mem_cons, List.mem_filter, ih, decide_eq_true_eq]
    constructor
    · rintro (h | ⟨h, _⟩)
      · exact Or.inl h
      · exact Or.inr h
    · intro h
      by_cases hab : a = b
      · exact Or.inl hab
      · exact Or.inr ⟨h.resolve_left hab, hab⟩

theorem nodup_uniques (items : List α) : (uniques items).Nodup := by
  induction items with
  | nil => exact List.nodup_nil
  | cons a rest ih =>
    rw [uniques_cons, List.nodup_cons, List.mem_filter]
    refine ⟨?_, ih.filter _⟩
    rintro ⟨_, hne⟩
    exact (of_decide_eq_true hne) rfl

theorem uniques_of_nodup (h : items.Nodup) : uniques items = items := by
  induction items with
  | nil => rfl
  | cons a rest ih =>
    rw [List.nodup_cons] at h
    rw [uniques_cons, ih h.2, List.filter_eq_self.mpr]
    intro b hb
    apply decide_eq_true
    rintro rfl
    exact h.1 hb

theorem uniques_append (items others : List α) :
    uniques (items ++ others) = uniques items ++ (uniques others).filter fun a => decide (a ∉ items) := by
  have hfold : uniques (items ++ others) = others.foldl appendNew (uniques items) := List.foldl_append
  rw [hfold, foldl_appendNew]
  congr 1
  apply List.filter_congr
  intro a _
  rw [decide_eq_decide, mem_uniques]

/-! ## 2. Arranged -/

/-- What goes to the front, then the base with what is added to it, all without what is removed. -/
def arranged (front base added removed : List α) : List α :=
  let units := (uniques (base ++ added)).filter fun a => decide (a ∉ removed)
  let front := front.filter fun a => decide (a ∉ removed)
  front ++ units.filter fun a => decide (a ∉ front)

section Arranged

variable {front base added removed : List α}

theorem mem_arranged : a ∈ arranged front base added removed ↔ (a ∈ front ∨ a ∈ base ∨ a ∈ added) ∧ a ∉ removed := by
  unfold arranged
  simp only [List.mem_append, List.mem_filter, mem_uniques, decide_eq_true_eq]
  tauto

theorem nodup_arranged (hfront : front.Nodup) : (arranged front base added removed).Nodup := by
  unfold arranged
  refine (hfront.filter _).append (((nodup_uniques _).filter _).filter _) ?_
  intro a hfirst hrest
  exact of_decide_eq_true (List.mem_filter.mp hrest).2 hfirst

/-- The three parts of an arrangement, each in its own order. -/
theorem arranged_eq : arranged front base added removed =
    front.filter (fun a => decide (a ∉ removed)) ++
      (uniques base).filter (fun a => decide (a ∉ removed ∧ a ∉ front)) ++
        (uniques added).filter (fun a => decide (a ∉ removed ∧ a ∉ front ∧ a ∉ base)) := by
  unfold arranged
  dsimp only
  rw [uniques_append, List.filter_append, List.filter_append, ← List.append_assoc]
  congr 1
  · congr 1
    rw [List.filter_filter]
    apply List.filter_congr
    intro a _
    rw [← Bool.decide_and, decide_eq_decide, List.mem_filter, decide_eq_true_eq]
    tauto
  · rw [List.filter_filter, List.filter_filter]
    apply List.filter_congr
    intro a _
    rw [← Bool.decide_and, ← Bool.decide_and, decide_eq_decide, List.mem_filter, decide_eq_true_eq]
    tauto

/-- Arranged by the same lists again, an arrangement is as it was. -/
theorem arranged_again (hfront : front.Nodup) :
    arranged front (arranged front base added removed) added removed = arranged front base added removed := by
  have hmem : ∀ a, a ∈ arranged front base added removed ↔ (a ∈ front ∨ a ∈ base ∨ a ∈ added) ∧ a ∉ removed :=
    fun _ => mem_arranged
  have hnodup : (arranged front base added removed).Nodup := nodup_arranged hfront
  have hnew : (uniques added).filter
      (fun a => decide (a ∉ removed ∧ a ∉ front ∧ a ∉ arranged front base added removed)) = [] := by
    rw [List.filter_eq_nil_iff]
    intro a ha hnot
    obtain ⟨hremoved, _, habsent⟩ := of_decide_eq_true hnot
    exact habsent ((hmem a).mpr ⟨Or.inr (Or.inr (mem_uniques.mp ha)), hremoved⟩)
  rw [arranged_eq, hnew, List.append_nil, uniques_of_nodup hnodup]
  conv_rhs => rw [arranged]
  generalize hlist : arranged front base added removed = list at hmem hnodup
  unfold arranged at hlist
  dsimp only at hlist
  rw [← hlist, List.filter_append]
  -- The items in front stand there already, the others are none of them.
  have hfirst : (front.filter fun a => decide (a ∉ removed)).filter (fun a => decide (a ∉ removed ∧ a ∉ front)) = [] := by
    rw [List.filter_eq_nil_iff]
    intro a ha hnot
    exact (of_decide_eq_true hnot).2 (List.mem_of_mem_filter ha)
  rw [hfirst, List.nil_append]
  congr 1
  rw [List.filter_eq_self]
  intro a ha
  rw [List.mem_filter, List.mem_filter, decide_eq_true_eq, decide_eq_true_eq, List.mem_filter, decide_eq_true_eq] at ha
  apply decide_eq_true
  tauto

end Arranged

end Milo.Reasoning
