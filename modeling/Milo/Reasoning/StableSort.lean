import Mathlib

/-!
# StableSort — sorting by a key that may tie

A stable sort keeps the order of items with equal keys, so the result depends on the order of the
input exactly where two items that matter tie.
-/

namespace Milo.Reasoning

universe u v w

variable {α : Type u} {κ : Type v} {β : Type w} [LinearOrder κ]

/-- `sorted(items, key=key)`. -/
def sortedBy (key : α → κ) (items : List α) : List α := items.insertionSort fun a b => key a ≤ key b

theorem perm_sortedBy (key : α → κ) (items : List α) : (sortedBy key items).Perm items :=
  List.perm_insertionSort _ items

variable {items : List α} {key : α → κ} {f : α → Option β}

@[simp] theorem mem_sortedBy {a : α} : a ∈ sortedBy key items ↔ a ∈ items :=
  List.mem_insertionSort _

instance keyTotal (key : α → κ) : Std.Total fun a b : α => key a ≤ key b :=
  ⟨fun a b => le_total (key a) (key b)⟩

instance keyTrans (key : α → κ) : IsTrans α fun a b : α => key a ≤ key b :=
  ⟨fun _ _ _ => le_trans⟩

theorem pairwise_sortedBy (key : α → κ) (items : List α) :
    (sortedBy key items).Pairwise fun a b => key a ≤ key b :=
  List.pairwise_insertionSort _ items

theorem pair_sublist_sortedBy {a b : α} (hle : key a ≤ key b) (h : [a, b].Sublist items) :
    [a, b].Sublist (sortedBy key items) :=
  List.pair_sublist_insertionSort hle h

/-- Where the items that pass `p` do not tie, the order of the input does not show. -/
theorem filter_sortedBy_eq {items' : List α} {p : α → Bool} (hperm : items'.Perm items)
    (hapart : ∀ a ∈ items, ∀ b ∈ items, p a = true → p b = true → key a = key b → a = b) :
    (sortedBy key items').filter p = (sortedBy key items).filter p := by
  have hsame : ((sortedBy key items').filter p).Perm ((sortedBy key items).filter p) :=
    (((perm_sortedBy key items').trans hperm).trans (perm_sortedBy key items).symm).filter p
  refine List.Perm.eq_of_pairwise ?_ ((pairwise_sortedBy key items').filter p)
    ((pairwise_sortedBy key items).filter p) hsame
  intro a b ha hb hab hba
  have ha' := List.mem_filter.mp (hsame.mem_iff.mp ha)
  have hb' := List.mem_filter.mp hb
  exact hapart a (mem_sortedBy.mp ha'.1) b (mem_sortedBy.mp hb'.1) ha'.2 hb'.2 (le_antisymm hab hba)

/-- A sort by the items themselves does not see the order of the input. -/
theorem sortedBy_id_eq {items items' : List κ} (hperm : items'.Perm items) :
    sortedBy id items' = sortedBy id items := by
  refine List.Perm.eq_of_pairwise (fun a b _ _ hab hba => le_antisymm hab hba)
    (pairwise_sortedBy id items') (pairwise_sortedBy id items) ?_
  exact ((perm_sortedBy id items').trans hperm).trans (perm_sortedBy id items).symm

theorem eq_of_pair_sublists {x y : β} {items : List β} (hnodup : items.Nodup)
    (hxy : [x, y].Sublist items) (hyx : [y, x].Sublist items) : x = y := by
  induction items with
  | nil => cases hxy
  | cons z items ih =>
    rw [List.nodup_cons] at hnodup
    cases hxy with
    | cons _ hxy =>
      cases hyx with
      | cons _ hyx => exact ih hnodup.2 hxy hyx
      | cons_cons _ hyx => exact absurd (hxy.subset (by simp)) hnodup.1
    | cons_cons _ hxy =>
      cases hyx with
      | cons _ hyx => exact absurd (hyx.subset (by simp)) hnodup.1
      | cons_cons _ hyx => rfl

theorem exists_perm_front {a b : α} (ha : a ∈ items) (hb : b ∈ items) (hne : a ≠ b) :
    ∃ rest, (a :: b :: rest).Perm items := by
  obtain ⟨front, back, rfl⟩ := List.append_of_mem ha
  have hb' : b ∈ front ++ back := by
    rcases List.mem_append.mp hb with hfront | hback
    · exact List.mem_append_left _ hfront
    · exact List.mem_append_right _ (List.mem_of_ne_of_mem (Ne.symm hne) hback)
  obtain ⟨front', back', hsplit⟩ := List.append_of_mem hb'
  refine ⟨front' ++ back', (List.Perm.cons a ?_).trans List.perm_middle.symm⟩
  rw [hsplit]
  exact List.perm_middle.symm

/-- Where the order of the input never shows in what is read of the items that pass `p`, no two of
    them tie. -/
theorem apart_of_sortedBy {p : α → Bool} {f : α → β} {out : List β}
    (h : ∀ items', items'.Perm items → ((sortedBy key items').filter p).map f = out) (hnodup : (items.map f).Nodup)
    {a b : α} (ha : a ∈ items) (hb : b ∈ items) (hpa : p a = true) (hpb : p b = true) (htie : key a = key b) :
    a = b := by
  by_contra hne
  have hout : out.Nodup := by
    rw [← h items (List.Perm.refl _)]
    have hsub : (((sortedBy key items).filter p).map f).Sublist ((sortedBy key items).map f) :=
      List.filter_sublist.map f
    exact (((perm_sortedBy key items).map f).nodup_iff.mpr hnodup).sublist hsub
  have hpair : ∀ c d, c ∈ items → d ∈ items → p c = true → p d = true → key c ≤ key d → c ≠ d →
      [f c, f d].Sublist out := by
    intro c d hc hd hpc hpd hle hcd
    obtain ⟨rest, hperm⟩ := exists_perm_front hc hd hcd
    rw [← h _ hperm]
    have hsorted : [c, d].Sublist (sortedBy key (c :: d :: rest)) :=
      pair_sublist_sortedBy hle (by simp)
    have hfilter := hsorted.filter p
    rw [List.filter_cons_of_pos hpc, List.filter_cons_of_pos hpd, List.filter_nil] at hfilter
    exact hfilter.map f
  have hsame : f a = f b := eq_of_pair_sublists hout (hpair a b ha hb hpa hpb (le_of_eq htie) hne)
    (hpair b a hb ha hpb hpa (le_of_eq htie.symm) (Ne.symm hne))
  exact hne (List.inj_on_of_nodup_map hnodup ha hb hsame)

/-- What is made of the items that make something, in sorted order. -/
theorem filterMap_sortedBy_eq {items' : List α} {f' : α → Option β} (hperm : items'.Perm items)
    (hf : ∀ a ∈ items, f' a = f a)
    (hapart : ∀ a ∈ items, ∀ b ∈ items, (f a).isSome = true → (f b).isSome = true → key a = key b → a = b) :
    (sortedBy key items').filterMap f' = (sortedBy key items).filterMap f := by
  have hkeep : ∀ l : List α, l.filterMap f = (l.filter fun a => (f a).isSome).filterMap f := by
    intro l
    rw [List.filterMap_filter]
    congr 1
    funext a
    cases f a <;> rfl
  have hcongr : (sortedBy key items').filterMap f' = (sortedBy key items').filterMap f :=
    List.filterMap_congr fun a ha => hf a (hperm.mem_iff.mp (mem_sortedBy.mp ha))
  rw [hcongr, hkeep (sortedBy key items'), hkeep (sortedBy key items), filter_sortedBy_eq hperm hapart]

/-- Reading back, from what was made, the item it was made of. -/
theorem flatMap_filterMap_eq {γ : Type w} {g : β → List γ} {h : α → γ} (items : List α)
    (hg : ∀ a ∈ items, ∀ b, f a = some b → g b = [h a]) :
    (items.filterMap f).flatMap g = (items.filter fun a => (f a).isSome).map h := by
  induction items with
  | nil => rfl
  | cons a items ih =>
    have hrest := ih fun b hb => hg b (List.mem_cons_of_mem _ hb)
    cases hfa : f a with
    | none => rw [List.filterMap_cons_none hfa, List.filter_cons_of_neg (by simp [hfa]), hrest]
    | some b =>
      rw [List.filterMap_cons_some hfa, List.filter_cons_of_pos (by simp [hfa]), List.flatMap_cons,
        hrest, hg a List.mem_cons_self b hfa]
      rfl

/-- What one item of a list contributes, counted by a test that holds of no other item's. -/
theorem countP_filterMap_of_unique {test : β → Bool} {a : α} (hnodup : items.Nodup) (ha : a ∈ items)
    (htest : ∀ b ∈ items, ∀ result, f b = some result → (test result = true ↔ b = a)) :
    (items.filterMap f).countP test = if (f a).isSome then 1 else 0 := by
  have hzero : ∀ rest : List α, a ∉ rest → (∀ b ∈ rest, b ∈ items) →
      (rest.filterMap f).countP test = 0 := by
    intro rest hnot hsub
    rw [List.countP_eq_zero]
    intro result hresult
    obtain ⟨b, hb, hfb⟩ := List.mem_filterMap.mp hresult
    rw [htest b (hsub b hb) result hfb]
    exact fun h => hnot (h ▸ hb)
  obtain ⟨front, back, rfl⟩ := List.append_of_mem ha
  have hsplit := List.nodup_append.mp hnodup
  have hfront : a ∉ front := fun h => hsplit.2.2 a h a List.mem_cons_self rfl
  have hback : a ∉ back := (List.nodup_cons.mp hsplit.2.1).1
  have h1 := hzero front hfront fun b hb => List.mem_append_left _ hb
  have h2 := hzero back hback fun b hb => List.mem_append_right _ (List.mem_cons_of_mem _ hb)
  rw [List.filterMap_append, List.countP_append, h1, Nat.zero_add]
  cases hfa : f a with
  | none => rw [List.filterMap_cons_none hfa, h2]; rfl
  | some result =>
    have hpass : test result = true := (htest a ha result hfa).mpr rfl
    rw [List.filterMap_cons_some hfa, List.countP_cons_of_pos hpass, h2]
    rfl

end Milo.Reasoning
