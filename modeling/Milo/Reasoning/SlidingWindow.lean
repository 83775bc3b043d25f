import Mathlib

/-!
# SlidingWindow — admission within a rolling window

A log holds the stamped weights that were admitted.  A limiter keeps only the entries its last look
still counted; `Tracks` relates what it keeps to the whole log.  If each entry fitted when it was added,
no window of that length holds more than the limit, wherever it is laid.
-/

namespace Milo.Reasoning

/-! ## 1. What a window holds -/

section Logs

variable {T : Type} [LinearOrder T]

/-- The entries stamped after `cut`. -/
def stampedAfter (cut : T) (log : List (T × ℕ)) : List (T × ℕ) :=
  log.filter fun e => decide (cut < e.1)

def weightOf (log : List (T × ℕ)) : ℕ := (log.map Prod.snd).sum

/-- The entries stamped inside `(t - window, t]`. -/
def inWindow [Sub T] (window t : T) (log : List (T × ℕ)) : List (T × ℕ) :=
  log.filter fun e => decide (t - window < e.1) && decide (e.1 ≤ t)

def load [Sub T] (window t : T) (log : List (T × ℕ)) : ℕ := weightOf (inWindow window t log)

/-- Stamps do not go back, and each entry fitted beside what the window held when it was added. -/
inductive Fits [Sub T] (window : T) (limit : ℕ) : List (T × ℕ) → Prop
  | nil : Fits window limit []
  | snoc {log : List (T × ℕ)} {now : T} {weight : ℕ} : Fits window limit log →
      (∀ e ∈ log, e.1 ≤ now) → load window now log + weight ≤ limit →
      Fits window limit (log ++ [(now, weight)])

variable {now cut : T} {log : List (T × ℕ)}

theorem mem_inWindow [Sub T] {window t : T} {e : T × ℕ} :
    e ∈ inWindow window t log ↔ e ∈ log ∧ t - window < e.1 ∧ e.1 ≤ t := by
  simp [inWindow]

omit [LinearOrder T] in
theorem weightOf_filter_le {p q : T × ℕ → Bool} (h : ∀ e ∈ log, p e = true → q e = true) :
    weightOf (log.filter p) ≤ weightOf (log.filter q) := by
  have hboth : (log.filter q).filter p = log.filter p := by
    rw [List.filter_filter]
    apply List.filter_congr
    intro e he
    cases hp : p e with
    | true => simp [h e he hp]
    | false => rfl
  have hsub : (log.filter p).Sublist (log.filter q) := hboth ▸ List.filter_sublist
  exact (hsub.map Prod.snd).sum_le_sum fun _ _ => Nat.zero_le _

/-- Up to the last stamp, a window holds what is stamped after its beginning. -/
theorem stampedAfter_eq_inWindow [Sub T] {window : T} (h : ∀ e ∈ log, e.1 ≤ now) :
    stampedAfter (now - window) log = inWindow window now log := by
  apply List.filter_congr
  intro e he
  simp [h e he]

theorem stampedAfter_stampedAfter {cut' : T} (h : cut ≤ cut') :
    stampedAfter cut' (stampedAfter cut log) = stampedAfter cut' log := by
  unfold stampedAfter
  rw [List.filter_filter]
  apply List.filter_congr
  intro e _
  by_cases hlate : cut' < e.1
  · simp [hlate, lt_of_le_of_lt h hlate]
  · simp [hlate]

/-- Dropping the expired entries from the front of a sorted list drops all of them. -/
theorem dropWhile_eq_stampedAfter (h : log.Pairwise fun a b => a.1 ≤ b.1) :
    (log.dropWhile fun e => decide (e.1 ≤ cut)) = stampedAfter cut log := by
  induction log with
  | nil => rfl
  | cons e rest ih =>
    rw [List.pairwise_cons] at h
    by_cases hexpired : e.1 ≤ cut
    · have hskip : stampedAfter cut (e :: rest) = stampedAfter cut rest := by
        simp [stampedAfter, not_lt.mpr hexpired]
      rw [hskip, List.dropWhile_cons_of_pos (by simpa using hexpired)]
      exact ih h.2
    · have hall : ∀ x ∈ e :: rest, decide (cut < x.1) = true := by
        intro x hx
        rcases List.mem_cons.mp hx with rfl | hx
        · simpa using hexpired
        · simpa using lt_of_lt_of_le (not_le.mp hexpired) (h.1 x hx)
      rw [List.dropWhile_cons_of_neg (by simpa using hexpired)]
      exact (List.filter_eq_self.mpr hall).symm

end Logs

section Windows

variable {T : Type} [AddCommGroup T] [LinearOrder T] [IsOrderedAddMonoid T]
variable {window now : T} {limit weight : ℕ} {log entries : List (T × ℕ)} {times : List T}

theorem Fits.load_le (h : Fits window limit log) : ∀ t, load window t log ≤ limit := by
  induction h with
  | nil => exact fun _ => Nat.zero_le _
  | @snoc log now weight hfits hlast hroom ih =>
    intro t
    by_cases hin : t - window < now ∧ now ≤ t
    · -- what the window at `t` holds of the log, the window at `now` held too
      have hheld : load window t log ≤ load window now log := by
        apply weightOf_filter_le
        intro e he hwithin
        have hafter : t - window < e.1 := by simpa using (Bool.and_eq_true_iff.mp hwithin).1
        have hearlier : now - window ≤ t - window := sub_le_sub_right hin.2 window
        simp [hlast e he, lt_of_le_of_lt hearlier hafter]
      have hsplit : load window t (log ++ [(now, weight)]) = load window t log + weight := by
        simp [load, inWindow, weightOf, List.filter_append, hin]
      omega
    · have hsplit : load window t (log ++ [(now, weight)]) = load window t log := by
        have hout : (decide (t - window < now) && decide (now ≤ t)) = false := by
          simpa using hin
        simp [load, inWindow, List.filter_append, hout]
      rw [hsplit]
      exact ih t

/-! ## 2. A limiter that keeps only part of the log -/

/-- What a limiter keeps, after calls at `times`, of the log of what it admitted. -/
structure Tracks (window : T) (limit : ℕ) (times : List T) (entries log : List (T × ℕ)) : Prop where
  fits : Fits window limit log
  stamped : ∀ e ∈ log, e.1 ∈ times
  sorted : entries.Pairwise fun a b => a.1 ≤ b.1
  kept : ∀ now, (∀ t ∈ times, t ≤ now) →
    stampedAfter (now - window) entries = stampedAfter (now - window) log

namespace Tracks

omit [IsOrderedAddMonoid T] in
theorem nil : Tracks window limit [] [] [] :=
  ⟨.nil, fun _ he => absurd he List.not_mem_nil, .nil, fun _ _ => rfl⟩

omit [IsOrderedAddMonoid T] in
/-- What a limiter still counts is what the window holds. -/
theorem counted (h : Tracks window limit times entries log) (hnow : ∀ t ∈ times, t ≤ now) :
    stampedAfter (now - window) entries = inWindow window now log := by
  rw [h.kept now hnow]
  exact stampedAfter_eq_inWindow fun e he => hnow _ (h.stamped e he)

theorem look (h : Tracks window limit times entries log) (now : T) :
    Tracks window limit (times ++ [now]) (stampedAfter (now - window) entries) log where
  fits := h.fits
  stamped e he := List.mem_append_left _ (h.stamped e he)
  sorted := h.sorted.filter _
  kept later hlater := by
    have hle : now ≤ later := hlater now (by simp)
    rw [stampedAfter_stampedAfter (sub_le_sub_right hle window)]
    exact h.kept later fun t ht => hlater t (List.mem_append_left _ ht)

theorem admission (h : Tracks window limit times entries log) (hnow : ∀ t ∈ times, t ≤ now)
    (hroom : weightOf (stampedAfter (now - window) entries) + weight ≤ limit) :
    Tracks window limit (times ++ [now]) (stampedAfter (now - window) entries ++ [(now, weight)])
      (log ++ [(now, weight)]) where
  fits := by
    refine .snoc h.fits (fun e he => hnow _ (h.stamped e he)) ?_
    rw [h.counted hnow] at hroom
    exact hroom
  stamped e he := by
    rcases List.mem_append.mp he with he | he
    · exact List.mem_append_left _ (h.stamped e he)
    · rw [List.mem_singleton.mp he]
      simp
  sorted := by
    rw [List.pairwise_append]
    refine ⟨h.sorted.filter _, List.pairwise_singleton _ _, fun a ha b hb => ?_⟩
    rw [List.mem_singleton.mp hb]
    rw [h.counted hnow] at ha
    exact (mem_inWindow.mp ha).2.2
  kept later hlater := by
    have hlook := (h.look now).kept later hlater
    unfold stampedAfter at hlook ⊢
    rw [List.filter_append, List.filter_append, hlook]

end Tracks

end Windows

end Milo.Reasoning
