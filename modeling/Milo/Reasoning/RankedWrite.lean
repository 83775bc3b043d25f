import Mathlib

/-!
# RankedWrite — a cell that a weaker row of the same content never overwrites

Rows are offered to a cell one after the other.  A row of other content replaces what the cell holds;
a row of the same content replaces it unless it ranks lower.  The write is neither commutative nor a
maximum, so what a sequence leaves depends on its order: offering a sequence a second time changes
nothing, and the order is irrelevant exactly if one content is offered and one writer offers the
greatest rank of it.
-/

namespace Milo.Reasoning

universe u v w x

/-- What a write compares of a row. -/
structure Ranking (ρ : Type u) (γ : Type v) where
  content : ρ → γ
  rank : ρ → ℕ

namespace Ranking

variable {ρ : Type u} {γ : Type v} [DecidableEq γ] (R : Ranking ρ γ)

/-! ## 1. Offering rows -/

/-- What the cell holds after a row is offered. -/
def offer (cell : Option ρ) (row : ρ) : ρ :=
  match cell with
  | none => row
  | some held => if R.content held = R.content row ∧ R.rank row < R.rank held then held else row

/-- What the cell holds after a sequence of rows is offered. -/
def offerAll (cell : Option ρ) (rows : List ρ) : Option ρ :=
  rows.foldl (fun cell row => some (R.offer cell row)) cell

@[simp] theorem offerAll_cons (cell : Option ρ) (row : ρ) (rows : List ρ) :
    R.offerAll cell (row :: rows) = R.offerAll (some (R.offer cell row)) rows := rfl

theorem offerAll_append (cell : Option ρ) (first second : List ρ) :
    R.offerAll cell (first ++ second) = R.offerAll (R.offerAll cell first) second :=
  List.foldl_append

theorem offerAll_concat (cell : Option ρ) (rows : List ρ) (row : ρ) :
    R.offerAll cell (rows ++ [row]) = some (R.offer (R.offerAll cell rows) row) := by
  rw [offerAll_append]
  rfl

theorem offer_cases (cell : Option ρ) (row : ρ) :
    (∃ held, cell = some held ∧ R.content held = R.content row ∧ R.rank row < R.rank held ∧
      R.offer cell row = held) ∨
    ((∀ held, cell = some held → R.content held = R.content row → R.rank held ≤ R.rank row) ∧
      R.offer cell row = row) := by
  cases cell with
  | none => exact Or.inr ⟨by simp, rfl⟩
  | some held =>
    by_cases habsorbs : R.content held = R.content row ∧ R.rank row < R.rank held
    · exact Or.inl ⟨held, rfl, habsorbs.1, habsorbs.2, if_pos habsorbs⟩
    · right
      constructor
      · intro other hother hcontent
        cases hother
        by_contra hrank
        exact habsorbs ⟨hcontent, by omega⟩
      · exact if_neg habsorbs

theorem content_offer (cell : Option ρ) (row : ρ) :
    R.content (R.offer cell row) = R.content row := by
  rcases R.offer_cases cell row with ⟨held, -, hcontent, -, heq⟩ | ⟨-, heq⟩
  · rw [heq, hcontent]
  · rw [heq]

theorem rank_le_offer (cell : Option ρ) (row : ρ) : R.rank row ≤ R.rank (R.offer cell row) := by
  rcases R.offer_cases cell row with ⟨held, -, -, hrank, heq⟩ | ⟨-, heq⟩
  · rw [heq]
    omega
  · rw [heq]

/-- An offer of the content the cell holds does not lower its rank. -/
theorem rank_held_le_offer (held row : ρ) (hcontent : R.content held = R.content row) :
    R.rank held ≤ R.rank (R.offer (some held) row) := by
  rcases R.offer_cases (some held) row with ⟨other, hother, -, -, heq⟩ | ⟨hle, heq⟩
  · cases hother
    rw [heq]
  · rw [heq]
    exact hle held rfl hcontent

variable {cell : Option ρ} {rows : List ρ}

/-- A sequence offered leaves a row of the content offered last. -/
theorem content_offerAll_concat {last row : ρ} (h : R.offerAll cell (rows ++ [last]) = some row) :
    R.content row = R.content last := by
  rw [offerAll_concat] at h
  cases h
  exact R.content_offer _ _

theorem mem_of_offerAll {row : ρ} (h : R.offerAll cell rows = some row) : cell = some row ∨ row ∈ rows := by
  induction rows using List.reverseRecOn generalizing row with
  | nil => exact Or.inl h
  | append_singleton rows last ih =>
    rw [offerAll_concat] at h
    rcases R.offer_cases (R.offerAll cell rows) last with ⟨held, hheld, -, -, heq⟩ | ⟨-, heq⟩
    · rw [heq] at h
      cases h
      rcases ih hheld with hcell | hmem
      · exact Or.inl hcell
      · exact Or.inr (List.mem_append_left _ hmem)
    · rw [heq] at h
      cases h
      exact Or.inr (by simp)

/-! ## 2. Replaying a sequence -/

/-- While one content is offered, the rank never decreases. -/
theorem rank_le_offerAll {held : ρ} (hcontent : ∀ row ∈ rows, R.content row = R.content held) :
    ∃ row, R.offerAll (some held) rows = some row ∧ R.content row = R.content held ∧
      R.rank held ≤ R.rank row := by
  induction rows using List.reverseRecOn with
  | nil => exact ⟨held, rfl, rfl, le_refl _⟩
  | append_singleton rows last ih =>
    rcases ih fun row hrow => hcontent row (List.mem_append_left _ hrow) with
      ⟨row, hrow, hsame, hle⟩
    have hlast : R.content last = R.content held := hcontent last (by simp)
    rw [offerAll_concat, hrow]
    refine ⟨_, rfl, ?_, ?_⟩
    · rw [content_offer, hlast]
    · have hrank := R.rank_held_le_offer row last (hsame.trans hlast.symm)
      omega

/-- From any other cell a sequence leaves a row of no greater rank, unless the cell's own outranks
    it. -/
theorem rank_le_of_content_eq {held row other : ρ} (hrow : R.offerAll (some held) rows = some row)
    (hother : R.offerAll cell rows = some other) (hcontent : R.content row = R.content other) :
    R.rank row ≤ max (R.rank held) (R.rank other) := by
  induction rows using List.reverseRecOn generalizing row other with
  | nil =>
    cases hrow
    exact le_max_left _ _
  | append_singleton rows last ih =>
    rw [offerAll_concat] at hrow hother
    cases hrow
    cases hother
    have hge := R.rank_le_offer (R.offerAll cell rows) last
    rcases R.offer_cases (R.offerAll (some held) rows) last with
      ⟨kept, hkept, hsame, -, heq⟩ | ⟨-, heq⟩
    · rw [heq]
      rcases List.eq_nil_or_concat rows with hnil | ⟨before, final, hconcat⟩
      · rw [hnil] at hkept
        cases hkept
        exact le_max_left _ _
      · -- both sequences hold the content offered before, so they are compared there
        rw [List.concat_eq_append] at hconcat
        cases hbefore : R.offerAll cell rows with
        | none =>
          rw [hconcat, offerAll_concat] at hbefore
          cases hbefore
        | some prior =>
          have hprior : R.content kept = R.content prior := by
            rw [hconcat] at hkept hbefore
            rw [R.content_offerAll_concat hkept, R.content_offerAll_concat hbefore]
          have hle := ih hkept hbefore hprior
          have hstay := R.rank_held_le_offer prior last (hprior ▸ hsame)
          omega
    · rw [heq]
      omega

theorem offerAll_replay (cell : Option ρ) (rows : List ρ) :
    R.offerAll (R.offerAll cell rows) rows = R.offerAll cell rows := by
  induction rows using List.reverseRecOn generalizing cell with
  | nil => rfl
  | append_singleton rows last ih =>
    rw [offerAll_concat, offerAll_concat]
    rcases R.offer_cases (R.offerAll cell rows) last with
      ⟨held, hheld, hsame, hrank, heq⟩ | ⟨hover, heq⟩
    · -- the last row was absorbed: the cell is what the others left, and they leave it again
      rw [heq, ← hheld, ih, hheld]
      rcases R.offer_cases (some held) last with ⟨other, hother, -, -, hagain⟩ | ⟨hle, -⟩
      · cases hother
        rw [hagain]
      · exact absurd (hle held rfl hsame) (not_le.mpr hrank)
    · rw [heq]
      congr 1
      rcases R.offer_cases (R.offerAll (some last) rows) last with
        ⟨kept, hkept, hsame, hrank, -⟩ | ⟨-, hagain⟩
      · -- a row that absorbs the last one now would have done so the first time
        exfalso
        rcases List.eq_nil_or_concat rows with hnil | ⟨before, final, hconcat⟩
        · rw [hnil] at hkept
          cases hkept
          omega
        · rw [List.concat_eq_append] at hconcat
          cases hfirst : R.offerAll cell rows with
          | none =>
            rw [hconcat, offerAll_concat] at hfirst
            cases hfirst
          | some prior =>
            have hprior : R.content kept = R.content prior := by
              rw [hconcat] at hkept hfirst
              rw [R.content_offerAll_concat hkept, R.content_offerAll_concat hfirst]
            have hle := R.rank_le_of_content_eq hkept hfirst hprior
            have hprior_rank := hover prior hfirst (hprior ▸ hsame)
            omega
      · exact hagain

/-! ## 3. What one content leaves -/

theorem offerAll_absorbed {held : ρ} (h : ∀ row ∈ rows, R.content held = R.content row ∧ R.rank row < R.rank held) :
    R.offerAll (some held) rows = some held := by
  induction rows with
  | nil => rfl
  | cons row rows ih =>
    have hoffer : R.offer (some held) row = held := if_pos (h row List.mem_cons_self)
    rw [offerAll_cons, hoffer]
    exact ih fun other hother => h other (List.mem_cons_of_mem _ hother)

/-- The last row of the greatest rank is what the cell holds in the end. -/
theorem offerAll_last_top {earlier later : List ρ} {top : ρ}
    (hcell : ∀ held, cell = some held → R.content held = R.content top → R.rank held ≤ R.rank top)
    (hearlier : ∀ row ∈ earlier, R.rank row ≤ R.rank top)
    (hlater : ∀ row ∈ later, R.content top = R.content row ∧ R.rank row < R.rank top) :
    R.offerAll cell (earlier ++ top :: later) = some top := by
  rw [offerAll_append, offerAll_cons]
  have hoffer : R.offer (R.offerAll cell earlier) top = top := by
    rcases R.offer_cases (R.offerAll cell earlier) top with ⟨held, hheld, hsame, hrank, -⟩ | ⟨-, heq⟩
    · rcases R.mem_of_offerAll hheld with hcell' | hmem
      · exact absurd (hcell held hcell' hsame) (not_le.mpr hrank)
      · exact absurd (hearlier held hmem) (not_le.mpr hrank)
    · exact heq
  rw [hoffer]
  exact R.offerAll_absorbed hlater

/-! ## 4. When the order is irrelevant -/

section Order

variable {α : Type w} {ω : Type x} (row? : α → Option ρ) (writer : α → ω)

/-- The item offers a row of the greatest rank. -/
def IsTop (items : List α) (a : α) : Prop :=
  ∃ row, row? a = some row ∧
    ∀ b ∈ items, ∀ other, row? b = some other → R.rank other ≤ R.rank row

/-- One content is offered, and its greatest rank by one writer, unless the cell outranks all. -/
structure OrderFree (cell : Option ρ) (items : List α) : Prop where
  oneContent : ∀ a ∈ items, ∀ b ∈ items, ∀ row other, row? a = some row → row? b = some other →
    R.content row = R.content other
  oneWriter :
    (∃ held, cell = some held ∧ ∀ a ∈ items, ∀ row, row? a = some row →
      R.content held = R.content row ∧ R.rank row < R.rank held) ∨
    ∀ a ∈ items, ∀ b ∈ items, R.IsTop row? items a → R.IsTop row? items b → writer a = writer b

variable (before : α → α → Prop)

/-- The items of one writer are interchangeable in the order, offer one content, and a row names its
    writer. -/
structure Writers (items : List α) : Prop where
  same : ∀ a ∈ items, ∀ b ∈ items, writer a = writer b → before a b
  antisymm : ∀ a ∈ items, ∀ b ∈ items, before a b → before b a → writer a = writer b
  content : ∀ a ∈ items, ∀ b ∈ items, ∀ row other, writer a = writer b → row? a = some row →
    row? b = some other → R.content row = R.content other
  named : ∀ a ∈ items, ∀ b ∈ items, ∀ row, row? a = some row → row? b = some row →
    writer a = writer b

/-- Every order of the items leaves what the same order sorted leaves. -/
def AnyOrder [DecidableRel before] (cell : Option ρ) (items : List α) : Prop :=
  ∀ order : List α, order.Perm items → R.offerAll cell (order.filterMap row?) =
    R.offerAll cell ((order.insertionSort before).filterMap row?)

variable {R row? writer before} {items order : List α} {cell : Option ρ}

omit [DecidableEq γ] in
theorem isTop_perm (hperm : order.Perm items) (a : α) :
    R.IsTop row? order a ↔ R.IsTop row? items a := by
  unfold IsTop
  simp only [hperm.mem_iff]

omit [DecidableEq γ] in
theorem OrderFree.perm (h : R.OrderFree row? writer cell items) (hperm : order.Perm items) :
    R.OrderFree row? writer cell order where
  oneContent := by
    simpa only [hperm.mem_iff] using h.oneContent
  oneWriter := by
    simpa only [hperm.mem_iff, isTop_perm hperm] using h.oneWriter

omit [DecidableEq γ] in
theorem Writers.perm (h : R.Writers row? writer before items) (hperm : order.Perm items) :
    R.Writers row? writer before order where
  same := by simpa only [hperm.mem_iff] using h.same
  antisymm := by simpa only [hperm.mem_iff] using h.antisymm
  content := by simpa only [hperm.mem_iff] using h.content
  named := by simpa only [hperm.mem_iff] using h.named

omit [DecidableEq γ] in
/-- Some item offers a row of the greatest rank, if any offers one. -/
theorem exists_isTop {a : α} (ha : a ∈ items) {row : ρ} (hrow : row? a = some row) :
    ∃ top ∈ items, R.IsTop row? items top := by
  have hmem : row ∈ items.filterMap row? := List.mem_filterMap.mpr ⟨a, ha, hrow⟩
  cases hmax : (items.filterMap row?).argmax R.rank with
  | none =>
    rw [List.argmax_eq_none.mp hmax] at hmem
    exact absurd hmem List.not_mem_nil
  | some greatest =>
    rcases List.mem_filterMap.mp (List.argmax_mem hmax) with ⟨top, htop, hgreatest⟩
    refine ⟨top, htop, greatest, hgreatest, ?_⟩
    intro b hb other hother
    exact List.le_of_mem_argmax (List.mem_filterMap.mpr ⟨b, hb, hother⟩) hmax

theorem exists_last {p : α → Prop} {a : α} (ha : a ∈ items) (hpa : p a) :
    ∃ earlier last later, items = earlier ++ last :: later ∧ p last ∧ ∀ b ∈ later, ¬ p b := by
  induction items using List.reverseRecOn with
  | nil => exact absurd ha List.not_mem_nil
  | append_singleton items final ih =>
    by_cases hfinal : p final
    · exact ⟨items, final, [], rfl, hfinal, by simp⟩
    · have hin : a ∈ items := by
        rcases List.mem_append.mp ha with hin | hlast
        · exact hin
        · rw [List.mem_singleton.mp hlast] at hpa
          exact absurd hpa hfinal
      rcases ih hin with ⟨earlier, last, later, heq, hlast, hnone⟩
      refine ⟨earlier, last, later ++ [final], by rw [heq]; simp, hlast, ?_⟩
      intro b hb
      rcases List.mem_append.mp hb with hlater | hb
      · exact hnone b hlater
      · rw [List.mem_singleton.mp hb]
        exact hfinal

variable [DecidableRel before] [Std.Total before] [IsTrans α before]

/-- In the sorted list the last element of a kind comes after every other of it. -/
theorem exists_sorted_last (before : α → α → Prop) [DecidableRel before] [Std.Total before]
    [IsTrans α before] (p : α → Prop) {a : α} (ha : a ∈ items) (hpa : p a) :
    ∃ earlier last later, items.insertionSort before = earlier ++ last :: later ∧ p last ∧
      (∀ b ∈ later, ¬ p b) ∧ ∀ b ∈ items, p b → b = last ∨ before b last := by
  have hin : a ∈ items.insertionSort before := (List.mem_insertionSort before).mpr ha
  rcases exists_last hin hpa with ⟨earlier, last, later, heq, hlast, hnone⟩
  refine ⟨earlier, last, later, heq, hlast, hnone, ?_⟩
  intro b hb hpb
  have hsorted : (earlier ++ last :: later).Pairwise before :=
    heq ▸ List.pairwise_insertionSort before items
  have hb' : b ∈ earlier ++ last :: later := heq ▸ (List.mem_insertionSort before).mpr hb
  rcases List.mem_append.mp hb' with hearlier | hrest
  · exact Or.inr ((List.pairwise_append.mp hsorted).2.2 b hearlier last List.mem_cons_self)
  · rcases List.mem_cons.mp hrest with heqb | hlater
    · exact Or.inl heqb
    · exact absurd hpb (hnone b hlater)

omit [DecidableEq γ] [DecidableRel before] [Std.Total before] [IsTrans α before] in
/-- The last of a kind in one sorted permutation is the last in another, up to its writer. -/
theorem Writers.last_unique (h : R.Writers row? writer before items) {p : α → Prop} {last other : α}
    (hlast : last ∈ items) (hother : other ∈ items) (hp : p last) (hq : p other)
    (hafter : ∀ b ∈ items, p b → b = last ∨ before b last)
    (hafter' : ∀ b ∈ items, p b → b = other ∨ before b other) : writer last = writer other := by
  rcases hafter other hother hq with heq | hle
  · rw [heq]
  · rcases hafter' last hlast hp with heq | hge
    · rw [heq]
    · exact h.antisymm last hlast other hother hge hle

/-- What a sequence leaves that ends, among the items of the greatest rank, with `top`. -/
theorem offerAll_of_last_top {earlier later : List α} {top : α} {row : ρ}
    (htop : row? top = some row)
    (hcell : ∀ held, cell = some held → R.content held = R.content row → R.rank held ≤ R.rank row)
    (hearlier : ∀ a ∈ earlier, ∀ other, row? a = some other → R.rank other ≤ R.rank row)
    (hlater : ∀ a ∈ later, ∀ other, row? a = some other →
      R.content row = R.content other ∧ R.rank other < R.rank row) :
    R.offerAll cell ((earlier ++ top :: later).filterMap row?) = some row := by
  rw [List.filterMap_append, List.filterMap_cons_some htop]
  apply R.offerAll_last_top hcell
  · intro other hother
    rcases List.mem_filterMap.mp hother with ⟨a, ha, hrow⟩
    exact hearlier a ha other hrow
  · intro other hother
    rcases List.mem_filterMap.mp hother with ⟨a, ha, hrow⟩
    exact hlater a ha other hrow

omit [DecidableEq γ] in
/-- An item whose row does not reach the greatest rank is outranked by those that do. -/
theorem rank_lt_of_not_isTop {a top : α} {row greatest : ρ}
    (hrow : row? a = some row) (hgreatest : row? top = some greatest) (htop : R.IsTop row? items top)
    (hnot : ¬ R.IsTop row? items a) : R.rank row < R.rank greatest := by
  rcases htop with ⟨greatest', hgreatest', hall⟩
  rw [hgreatest] at hgreatest'
  cases hgreatest'
  by_contra hge
  apply hnot
  refine ⟨row, hrow, ?_⟩
  intro b hb other hother
  have hle := hall b hb other hother
  omega

/-- What is left when one content is offered and the cell does not outrank it: the row of the last
    item of the greatest rank. -/
theorem offerAll_eq_of_last {earlier later : List α} {top : α} {row : ρ}
    (hone : ∀ a ∈ items, ∀ b ∈ items, ∀ row other, row? a = some row → row? b = some other →
      R.content row = R.content other)
    (hperm : (earlier ++ top :: later).Perm items) (htop : R.IsTop row? items top)
    (hrow : row? top = some row) (hnone : ∀ a ∈ later, ¬ R.IsTop row? items a)
    (hcell : ∀ held, cell = some held → R.content held = R.content row →
      R.rank held ≤ R.rank row) :
    R.offerAll cell ((earlier ++ top :: later).filterMap row?) = some row := by
  have hin : ∀ a ∈ earlier ++ top :: later, a ∈ items := fun a ha => hperm.mem_iff.mp ha
  apply offerAll_of_last_top hrow hcell
  · intro a ha other hother
    rcases htop with ⟨greatest, hgreatest, hall⟩
    rw [hrow] at hgreatest
    cases hgreatest
    exact hall a (hin a (List.mem_append_left _ ha)) other hother
  · intro a ha other hother
    have hitem : a ∈ items := hin a (by simp [ha])
    have htopitem : top ∈ items := hin top (by simp)
    exact ⟨hone top htopitem a hitem row other hrow hother,
      rank_lt_of_not_isTop hother hrow htop (hnone a ha)⟩

omit [DecidableEq γ] [Std.Total before] [IsTrans α before] in
/-- Sorting does not move the items of one writer past each other. -/
theorem Writers.filter_insertionSort (h : R.Writers row? writer before items) {p : α → Bool}
    (hp : ∀ a ∈ items, ∀ b ∈ items, p a = true → p b = true → writer a = writer b) :
    (items.insertionSort before).filter p = items.filter p := by
  have hpairwise : (items.filter p).Pairwise before := by
    apply List.pairwise_of_forall_mem_list
    intro a ha b hb
    rcases List.mem_filter.mp ha with ⟨ha, hpa⟩
    rcases List.mem_filter.mp hb with ⟨hb, hpb⟩
    exact h.same a ha b hb (hp a ha b hb hpa hpb)
  have hsub := (List.sublist_insertionSort hpairwise List.filter_sublist).filter p
  rw [List.filter_filter] at hsub
  simp only [Bool.and_self] at hsub
  apply (hsub.eq_of_length _).symm
  exact ((List.perm_insertionSort before items).filter p).length_eq.symm

omit [Std.Total before] [IsTrans α before] in
/-- Where one content is offered, and its greatest rank by one writer, sorting changes nothing. -/
theorem OrderFree.offerAll_sort (h : R.OrderFree row? writer cell items)
    (hw : R.Writers row? writer before items) :
    R.offerAll cell (items.filterMap row?) =
      R.offerAll cell ((items.insertionSort before).filterMap row?) := by
  classical
  by_cases hoffers : ∃ a ∈ items, ∃ row, row? a = some row
  · rcases hoffers with ⟨a, ha, row, hrow⟩
    by_cases houtranked : ∃ held, cell = some held ∧ ∀ a ∈ items, ∀ row, row? a = some row →
        R.content held = R.content row ∧ R.rank row < R.rank held
    · rcases houtranked with ⟨held, hcell, hall⟩
      rw [hcell, R.offerAll_absorbed, R.offerAll_absorbed]
      · intro other hother
        rcases List.mem_filterMap.mp hother with ⟨b, hb, hrow'⟩
        exact hall b ((List.mem_insertionSort before).mp hb) other hrow'
      · intro other hother
        rcases List.mem_filterMap.mp hother with ⟨b, hb, hrow'⟩
        exact hall b hb other hrow'
    · have hone := h.oneWriter.resolve_left houtranked
      rcases exists_isTop ha hrow with ⟨top, htopmem, htop⟩
      let p : α → Bool := fun b => decide (R.IsTop row? items b)
      have hfilter : (items.insertionSort before).filter p = items.filter p := by
        apply hw.filter_insertionSort
        intro b hb c hc hpb hpc
        exact hone b hb c hc (of_decide_eq_true hpb) (of_decide_eq_true hpc)
      -- both orders end, among the items of the greatest rank, with the same one
      rcases exists_last (p := fun b => R.IsTop row? items b) htopmem htop with
        ⟨earlier, last, later, hsplit, hlast, hnone⟩
      rcases exists_last (p := fun b => R.IsTop row? items b)
        ((List.mem_insertionSort before).mpr htopmem) htop with
        ⟨earlier', last', later', hsplit', hlast', hnone'⟩
      have hkeep : ∀ {earlier : List α} {last : α} {later : List α}, R.IsTop row? items last →
          (∀ b ∈ later, ¬ R.IsTop row? items b) →
          (earlier ++ last :: later).filter p = earlier.filter p ++ [last] := by
        intro earlier last later hlast hnone
        have hpl : p last = true := decide_eq_true hlast
        have hlater : later.filter p = [] :=
          List.filter_eq_nil_iff.mpr fun b hb => by simpa [p] using hnone b hb
        rw [List.filter_append, List.filter_cons_of_pos hpl, hlater]
      have hsame : last' = last := by
        rw [hsplit', hkeep hlast' hnone', hsplit, hkeep hlast hnone] at hfilter
        exact List.singleton_inj.mp (List.append_inj' hfilter rfl).2
      rcases hlast with ⟨greatest, hgreatest, hall⟩
      have hcell : ∀ held, cell = some held → R.content held = R.content greatest →
          R.rank held ≤ R.rank greatest := by
        intro held hheld hcontent
        by_contra hlt
        apply houtranked
        refine ⟨held, hheld, ?_⟩
        intro b hb other hother
        have hle := hall b hb other hother
        have hlastmem : last ∈ items := by
          rw [hsplit]
          simp
        exact ⟨hcontent.trans (h.oneContent last hlastmem b hb greatest other hgreatest hother),
          by omega⟩
      have hperm := List.perm_insertionSort before items
      rw [hsplit'] at hperm ⊢
      rw [offerAll_eq_of_last h.oneContent hperm hlast' (hsame ▸ hgreatest) hnone' hcell]
      rw [show items.filterMap row? = (earlier ++ last :: later).filterMap row? from
        congrArg (List.filterMap row?) hsplit]
      exact offerAll_eq_of_last h.oneContent (hsplit ▸ List.Perm.refl _)
        ⟨greatest, hgreatest, hall⟩ hgreatest hnone hcell
  · have hnil : ∀ l : List α, (∀ a ∈ l, a ∈ items) → l.filterMap row? = [] := by
      intro l hl
      apply List.filterMap_eq_nil_iff.mpr
      intro a ha
      cases hrow : row? a with
      | none => rfl
      | some row => exact absurd ⟨a, hl a ha, row, hrow⟩ hoffers
    rw [hnil items fun a ha => ha,
      hnil (items.insertionSort before) fun a ha => (List.mem_insertionSort before).mp ha]

theorem perm_erase_concat [DecidableEq α] {a : α} (ha : a ∈ items) :
    (items.erase a ++ [a]).Perm items :=
  (List.perm_append_singleton a (items.erase a)).trans (List.perm_cons_erase ha).symm

theorem Writers.oneContent (hw : R.Writers row? writer before items)
    (hfree : R.AnyOrder row? before cell items) :
    ∀ a ∈ items, ∀ b ∈ items, ∀ row other, row? a = some row → row? b = some other →
      R.content row = R.content other := by
  classical
  intro a ha b hb row other hrow hother
  let p : α → Prop := fun c => ∃ row, row? c = some row
  rcases exists_sorted_last before p ha ⟨row, hrow⟩ with
    ⟨first, last, rest, hsplit, ⟨final, hfinal⟩, -, hafter⟩
  have hlastmem : last ∈ items := by
    rw [← List.mem_insertionSort before, hsplit]
    simp
  -- an item moved to the end decides the content, and sorting puts the last writer there
  have hmoved : ∀ c ∈ items, ∀ row, row? c = some row → R.content row = R.content final := by
    intro c hc row hrow
    have hperm := perm_erase_concat hc
    have heq := hfree _ hperm
    rcases exists_sorted_last before p (hperm.mem_iff.mpr hc) ⟨row, hrow⟩ with
      ⟨earlier', last', later', hsplit', ⟨final', hfinal'⟩, hnone', hafter'⟩
    have hlater : later'.filterMap row? = [] := by
      apply List.filterMap_eq_nil_iff.mpr
      intro d hd
      cases hd' : row? d with
      | none => rfl
      | some row => exact absurd ⟨row, hd'⟩ (hnone' d hd)
    rw [hsplit', List.filterMap_append, List.filterMap_append, List.filterMap_cons_some hrow,
      List.filterMap_cons_some hfinal', hlater, List.filterMap_nil, offerAll_concat,
      offerAll_concat] at heq
    have hcontents : R.content row = R.content final' := by
      have hsame := congrArg R.content (Option.some.inj heq)
      rwa [content_offer, content_offer] at hsame
    have hlastmem' : last' ∈ items := by
      rw [← hperm.mem_iff, ← List.mem_insertionSort before, hsplit']
      simp
    have hwriter := hw.last_unique hlastmem hlastmem' ⟨final, hfinal⟩ ⟨final', hfinal'⟩ hafter
      fun b hb hp => hafter' b (hperm.mem_iff.mpr hb) hp
    rw [hcontents, hw.content last hlastmem last' hlastmem' final final' hwriter hfinal hfinal']
  rw [hmoved a ha row hrow, hmoved b hb other hother]

/-- If no order matters, the greatest rank is of one writer, unless the cell outranks all. -/
theorem Writers.oneWriter (hw : R.Writers row? writer before items)
    (hfree : R.AnyOrder row? before cell items)
    (hnot : ¬ ∃ held, cell = some held ∧ ∀ a ∈ items, ∀ row, row? a = some row →
      R.content held = R.content row ∧ R.rank row < R.rank held) :
    ∀ a ∈ items, ∀ b ∈ items, R.IsTop row? items a → R.IsTop row? items b →
      writer a = writer b := by
  classical
  have hone := hw.oneContent hfree
  have hcell : ∀ c ∈ items, ∀ row, R.IsTop row? items c → row? c = some row →
      ∀ held, cell = some held → R.content held = R.content row → R.rank held ≤ R.rank row := by
    intro c hc row htop hrow held hheld hcontent
    by_contra hlt
    apply hnot
    refine ⟨held, hheld, ?_⟩
    intro d hd other hother
    rcases htop with ⟨greatest, hgreatest, hall⟩
    rw [hrow] at hgreatest
    cases hgreatest
    have hle := hall d hd other hother
    exact ⟨hcontent.trans (hone c hc d hd row other hrow hother), by omega⟩
  intro a ha b hb htopa htopb
  let p : α → Prop := fun c => R.IsTop row? items c
  rcases exists_sorted_last before p ha htopa with
    ⟨first, last, rest, hsplit, hlast, -, hafter⟩
  have hlastmem : last ∈ items := by
    rw [← List.mem_insertionSort before, hsplit]
    simp
  have hmoved : ∀ c ∈ items, R.IsTop row? items c → writer c = writer last := by
    intro c hc htop
    have hperm := perm_erase_concat hc
    have heq := hfree _ hperm
    rcases exists_sorted_last before p (hperm.mem_iff.mpr hc) htop with
      ⟨earlier', last', later', hsplit', hlast', hnone', hafter'⟩
    have hsorted : (earlier' ++ last' :: later').Perm items :=
      hsplit' ▸ (List.perm_insertionSort before _).trans hperm
    have hlastmem' : last' ∈ items := hsorted.mem_iff.mp (by simp)
    rcases htop with ⟨row, hrow, hall⟩
    rcases id hlast' with ⟨final, hfinal, -⟩
    rw [hsplit', offerAll_eq_of_last hone hperm ⟨row, hrow, hall⟩ hrow (by simp)
        (hcell c hc row ⟨row, hrow, hall⟩ hrow),
      offerAll_eq_of_last hone hsorted hlast' hfinal hnone'
        (hcell last' hlastmem' final hlast' hfinal)] at heq
    rw [hw.named c hc last' hlastmem' row hrow (Option.some.inj heq ▸ hfinal)]
    exact (hw.last_unique hlastmem hlastmem' hlast hlast' hafter
      fun b hb hp => hafter' b (hperm.mem_iff.mpr hb) hp).symm
  rw [hmoved a ha htopa, hmoved b hb htopb]

/-- Every order leaves what the sorted order leaves exactly if one content is offered, and its
    greatest rank by one writer, unless the cell outranks all. -/
theorem Writers.orderFree_iff (hw : R.Writers row? writer before items) :
    R.AnyOrder row? before cell items ↔ R.OrderFree row? writer cell items := by
  apply Iff.intro
  · intro hfree
    refine ⟨hw.oneContent hfree, ?_⟩
    by_cases hnot : ∃ held, cell = some held ∧ ∀ a ∈ items, ∀ row, row? a = some row →
        R.content held = R.content row ∧ R.rank row < R.rank held
    · exact Or.inl hnot
    · exact Or.inr (hw.oneWriter hfree hnot)
  · intro h order hperm
    exact (h.perm hperm).offerAll_sort (hw.perm hperm)

end Order

end Ranking

end Milo.Reasoning
