import Mathlib

/-!
# Pages — a listing read in parts

A page is a slice of a listing.  The pages of one size at the multiples of that size follow each other
without a gap, and a loop that reads them until one comes back short reads the listing whole.
-/

namespace Milo.Reasoning

universe u v

variable {α : Type u} {β : Type v}

/-! ## Slices -/

/-- `items[offset:offset + limit]`. -/
def page (items : List α) (limit offset : ℕ) : List α := (items.drop offset).take limit

theorem page_sublist (items : List α) (limit offset : ℕ) : (page items limit offset).Sublist items :=
  (List.take_sublist limit _).trans (List.drop_sublist offset items)

theorem length_page (items : List α) (limit offset : ℕ) :
    (page items limit offset).length = min limit (items.length - offset) := by
  unfold page
  rw [List.length_take, List.length_drop]

/-- A slice continues the listing where the one before it ended. -/
theorem take_append_page (items : List α) (limit offset : ℕ) :
    items.take offset ++ page items limit offset = items.take (offset + limit) :=
  List.take_add.symm

/-- The pages of one size, one after the other, are the listing as far as they reach. -/
theorem flatMap_page (items : List α) (limit n : ℕ) :
    ((List.range n).flatMap fun k => page items limit (k * limit)) = items.take (n * limit) := by
  induction n with
  | zero => simp
  | succ n ih =>
    rw [List.range_succ, List.flatMap_append, ih, List.flatMap_singleton, take_append_page,
      Nat.succ_mul]

/-! ## A bounded reading loop -/

/-- Pages of `chunk` rows are read until one comes back short; more than `bound` rows are refused. -/
def readAll (bound chunk : ℕ) (rows : List α) : ℕ → List α → ℕ → Option (List α)
  | 0, _, _ => none
  | fuel + 1, read, offset =>
    let got := page rows chunk offset
    let read := read ++ got
    if bound < read.length then none
    else if got.length < chunk then some read
    else readAll bound chunk rows fuel read (offset + chunk)

section ReadAll

variable {bound chunk : ℕ} {rows : List α}

theorem readAll_take (hchunk : 0 < chunk) {fuel offset : ℕ} (hoffset : offset ≤ rows.length)
    (hfuel : bound < fuel + offset) (hbound : offset ≤ bound) :
    readAll bound chunk rows fuel (rows.take offset) offset =
      if rows.length ≤ bound then some rows else none := by
  induction fuel generalizing offset with
  | zero => omega
  | succ fuel ih =>
    show (if bound < (rows.take offset ++ page rows chunk offset).length then none
      else if (page rows chunk offset).length < chunk then
        some (rows.take offset ++ page rows chunk offset)
      else readAll bound chunk rows fuel (rows.take offset ++ page rows chunk offset)
        (offset + chunk)) = _
    rw [take_append_page, length_page, List.length_take]
    by_cases hmore : bound < min (offset + chunk) rows.length
    · rw [if_pos hmore, if_neg (by omega)]
    rw [if_neg hmore]
    by_cases hshort : min chunk (rows.length - offset) < chunk
    · rw [if_pos hshort, if_pos (by omega), List.take_of_length_le (by omega)]
    · rw [if_neg hshort]
      exact ih (by omega) (by omega) (by omega)

/-- The loop reads the listing whole, where it is within the bound. -/
theorem readAll_eq (hchunk : 0 < chunk) :
    readAll bound chunk rows (bound + 1) [] 0 = if rows.length ≤ bound then some rows else none := by
  have h := readAll_take hchunk (Nat.zero_le rows.length)
    (by omega : bound < (bound + 1) + 0) (Nat.zero_le bound)
  rwa [List.take_zero] at h

end ReadAll

/-! ## One order, one listing -/

/-- Two sorted listings of the same items are one listing, where no two of the items tie. -/
theorem sorted_unique {r : α → α → Prop} {items items' : List α} (hperm : items.Perm items')
    (hsorted : items.Pairwise r) (hsorted' : items'.Pairwise r)
    (hapart : ∀ a ∈ items, ∀ b ∈ items, r a b → r b a → a = b) : items = items' := by
  apply List.Perm.eq_of_pairwise _ hsorted hsorted' hperm
  intro a b ha hb hab hba
  exact hapart a ha b (hperm.mem_iff.mpr hb) hab hba

end Milo.Reasoning
