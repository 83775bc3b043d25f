import Milo.Python.Text
import Milo.Reasoning.Dict
import Milo.Reasoning.SlidingWindow
import Milo.Reasoning.Transition

/-!
# AdmissionWindow — rolling-window admission on the memory backend

`MemoryQuotaBackend.admit_window`: each key has the entries its last call still counted.  Times are
milliseconds, the retry time a refusal answers is seconds.
-/

namespace Milo.Quota

open Milo.Reasoning

/-! ## 1. The backend -/

structure WindowEntry where
  stampedMs : ℤ
  entryId : String
  weight : ℕ
  deriving DecidableEq

def WindowEntry.stamped (e : WindowEntry) : ℤ × ℕ := (e.stampedMs, e.weight)

abbrev MemoryWindows : Type := Dict String (List WindowEntry)

structure WindowCall where
  key : String
  entryId : String
  limit : ℕ
  windowMs : ℤ
  nowMs : ℤ
  weight : ℕ

structure WindowAnswer where
  admitted : Bool
  used : ℕ
  retrySeconds : ℚ
  deriving DecidableEq

def MemoryWindows.entriesOf (windows : MemoryWindows) (key : String) : List WindowEntry :=
  (windows.get? key).getD []

/-- The entries a call still counts. -/
def countedEntries (windows : MemoryWindows) (call : WindowCall) : List WindowEntry :=
  (windows.entriesOf call.key).filter fun e => decide (e.stampedMs > call.nowMs - call.windowMs)

def usedWeight (entries : List WindowEntry) : ℕ := (entries.map WindowEntry.weight).sum

def oldestMs (entries : List WindowEntry) (nowMs : ℤ) : ℤ :=
  ((entries.map WindowEntry.stampedMs).min?).getD nowMs

/-- When the oldest entry has left the window, in seconds from now. -/
def windowRetrySeconds (entries : List WindowEntry) (call : WindowCall) : ℚ :=
  max 0 (((oldestMs entries call.nowMs + call.windowMs - call.nowMs : ℤ) : ℚ) / 1000)

/-- `admit_window`. -/
def admitWindow (windows : MemoryWindows) (call : WindowCall) : WindowAnswer × MemoryWindows :=
  let entries := countedEntries windows call
  let used := usedWeight entries
  if used + call.weight > call.limit then
    (⟨false, used, windowRetrySeconds entries call⟩, windows.set call.key entries)
  else
    (⟨true, used + call.weight, 0⟩,
      windows.set call.key (entries ++ [⟨call.nowMs, call.entryId, call.weight⟩]))

/-! ## 2. Runs of calls -/

abbrev WindowHistory : Type := List (MemoryWindows × WindowCall)

def WindowStep : MemoryWindows → WindowCall → MemoryWindows → Prop :=
  Performs (fun _ _ => True) fun windows call => (admitWindow windows call).2

/-- The calls on a key. -/
def callsOn (key : String) (hist : WindowHistory) : WindowHistory :=
  hist.filter fun e => decide (e.2.key = key)

/-- Everything admitted on a key. -/
def admittedOn (key : String) (hist : WindowHistory) : List (ℤ × ℕ) :=
  ((callsOn key hist).filter fun e => (admitWindow e.1 e.2).1.admitted).map fun e =>
    (e.2.nowMs, e.2.weight)

/-- The calls on a key have one limit and one window, and their clock does not go back. -/
structure SteadyCalls (key : String) (limit : ℕ) (windowMs : ℤ) (hist : WindowHistory) : Prop where
  limit : ∀ e ∈ callsOn key hist, e.2.limit = limit
  window : ∀ e ∈ callsOn key hist, e.2.windowMs = windowMs
  clock : (callsOn key hist).Pairwise fun a b => a.2.nowMs ≤ b.2.nowMs

section Windows

variable {windows : MemoryWindows} {key : String} {limit : ℕ} {windowMs : ℤ} {hist : WindowHistory}
  {call : WindowCall}

theorem callsOn_append (hist later : WindowHistory) :
    callsOn key (hist ++ later) = callsOn key hist ++ callsOn key later := List.filter_append _ _

theorem SteadyCalls.of_append {later : WindowHistory}
    (h : SteadyCalls key limit windowMs (hist ++ later)) : SteadyCalls key limit windowMs hist := by
  have hsub : (callsOn key hist).Sublist (callsOn key (hist ++ later)) := by
    rw [callsOn_append]
    exact List.sublist_append_left _ _
  exact
    { limit := fun x hx => h.limit x (hsub.subset hx)
      window := fun x hx => h.window x (hsub.subset hx)
      clock := h.clock.sublist hsub }

variable {e : MemoryWindows × WindowCall}

theorem callsOn_self (h : e.2.key = key) : callsOn key [e] = [e] := by
  simp [callsOn, h]

theorem callsOn_other (h : e.2.key ≠ key) : callsOn key [e] = [] := by
  simp [callsOn, h]

/-- Of a call on the key itself: its limit and window, and that no earlier call was later. -/
theorem SteadyCalls.last (hkey : e.2.key = key) (h : SteadyCalls key limit windowMs (hist ++ [e])) :
    e.2.limit = limit ∧ e.2.windowMs = windowMs ∧
      ∀ t ∈ (callsOn key hist).map (fun e => e.2.nowMs), t ≤ e.2.nowMs := by
  have hsnoc : callsOn key (hist ++ [e]) = callsOn key hist ++ [e] := by
    rw [callsOn_append, callsOn_self hkey]
  have hmem : e ∈ callsOn key (hist ++ [e]) := by
    rw [hsnoc]
    simp
  refine ⟨h.limit e hmem, h.window e hmem, ?_⟩
  intro t ht
  obtain ⟨x, hx, rfl⟩ := List.mem_map.mp ht
  have hclock := h.clock
  rw [hsnoc, List.pairwise_append] at hclock
  exact hclock.2.2 x hx e (by simp)

/-- What the backend keeps of a key, as stamped weights. -/
def stampedOn (windows : MemoryWindows) (key : String) : List (ℤ × ℕ) :=
  (windows.entriesOf key).map WindowEntry.stamped

theorem stamped_countedEntries :
    (countedEntries windows call).map WindowEntry.stamped =
      stampedAfter (call.nowMs - call.windowMs) (stampedOn windows call.key) := by
  unfold countedEntries stampedAfter stampedOn
  rw [List.filter_map]
  rfl

theorem usedWeight_eq (entries : List WindowEntry) :
    usedWeight entries = weightOf (entries.map WindowEntry.stamped) := by
  unfold usedWeight weightOf
  rw [List.map_map]
  rfl

/-- What one call does: it admits what fits, and keeps what it counted. -/
theorem admitWindow_cases (windows : MemoryWindows) (call : WindowCall) :
    ((admitWindow windows call).1.admitted = true ∧
        usedWeight (countedEntries windows call) + call.weight ≤ call.limit ∧
        (admitWindow windows call).2 = windows.set call.key
          (countedEntries windows call ++ [⟨call.nowMs, call.entryId, call.weight⟩])) ∨
      ((admitWindow windows call).1.admitted = false ∧
        usedWeight (countedEntries windows call) + call.weight > call.limit ∧
        (admitWindow windows call).1.retrySeconds =
          windowRetrySeconds (countedEntries windows call) call ∧
        (admitWindow windows call).2 = windows.set call.key (countedEntries windows call)) := by
  unfold admitWindow
  dsimp only
  split
  · rename_i hover
    exact Or.inr ⟨rfl, hover, rfl, rfl⟩
  · rename_i hfits
    exact Or.inl ⟨rfl, not_lt.mp hfits, rfl⟩

theorem stampedOn_set_self (entries : List WindowEntry) :
    stampedOn (windows.set key entries) key = entries.map WindowEntry.stamped := by
  unfold stampedOn MemoryWindows.entriesOf
  rw [Dict.get?_set_self]
  rfl

theorem stampedOn_set_ne {other : String} (entries : List WindowEntry) (h : key ≠ other) :
    stampedOn (windows.set other entries) key = stampedOn windows key := by
  unfold stampedOn MemoryWindows.entriesOf
  rw [Dict.get?_set_ne _ _ h]

/-- A call on another key changes nothing of this one. -/
theorem stampedOn_admitWindow_ne (h : call.key ≠ key) :
    stampedOn (admitWindow windows call).2 key = stampedOn windows key := by
  rcases admitWindow_cases windows call with ⟨-, -, hafter⟩ | ⟨-, -, -, hafter⟩
  · rw [hafter, stampedOn_set_ne _ (Ne.symm h)]
  · rw [hafter, stampedOn_set_ne _ (Ne.symm h)]

/-- One call on the key, seen as a look of the limiter or as an admission. -/
theorem tracks_admitWindow {times : List ℤ} {log : List (ℤ × ℕ)}
    (h : Tracks call.windowMs call.limit times (stampedOn windows call.key) log)
    (hnow : ∀ t ∈ times, t ≤ call.nowMs) :
    Tracks call.windowMs call.limit (times ++ [call.nowMs])
      (stampedOn (admitWindow windows call).2 call.key)
      (log ++ if (admitWindow windows call).1.admitted = true then [(call.nowMs, call.weight)]
        else []) := by
  rcases admitWindow_cases windows call with ⟨hadmitted, hfits, hafter⟩ | ⟨hrefused, -, -, hafter⟩
  · rw [hafter, stampedOn_set_self, hadmitted, if_pos rfl, List.map_append, stamped_countedEntries]
    apply h.admission hnow
    rw [← stamped_countedEntries, ← usedWeight_eq]
    exact hfits
  · rw [hafter, stampedOn_set_self, hrefused, if_neg Bool.false_ne_true, stamped_countedEntries,
      List.append_nil]
    exact h.look call.nowMs

/-- The backend tracks everything it admitted on a key. -/
theorem tracks_of_run (hrun : Run WindowStep Dict.empty hist windows) :
    SteadyCalls key limit windowMs hist →
      Tracks windowMs limit ((callsOn key hist).map fun e => e.2.nowMs) (stampedOn windows key)
        (admittedOn key hist) := by
  refine hrun.history_invariant (J := fun hist windows => SteadyCalls key limit windowMs hist →
      Tracks windowMs limit ((callsOn key hist).map fun e => e.2.nowMs) (stampedOn windows key)
        (admittedOn key hist)) (fun _ => .nil) ?_
  intro hist windows call _ _ ih hstep hsteady
  obtain ⟨-, rfl⟩ := hstep
  have hbefore := ih hsteady.of_append
  unfold admittedOn at hbefore ⊢
  rw [callsOn_append]
  by_cases hkey : call.key = key
  · subst hkey
    have hlast := hsteady.last (e := (windows, call)) rfl
    obtain ⟨hlimit, hwindow, hnow⟩ := hlast
    dsimp only at hlimit hwindow hnow
    subst hlimit hwindow
    have hafter := tracks_admitWindow hbefore hnow
    have hself : callsOn call.key [(windows, call)] = [(windows, call)] := callsOn_self rfl
    rw [hself, List.map_append, List.filter_append, List.map_append]
    cases hadmitted : (admitWindow windows call).1.admitted with
    | true =>
      rw [hadmitted, if_pos rfl] at hafter
      simpa [hadmitted] using hafter
    | false =>
      rw [hadmitted, if_neg Bool.false_ne_true] at hafter
      simpa [hadmitted] using hafter
  · rw [callsOn_other hkey, List.append_nil, stampedOn_admitWindow_ne hkey]
    exact hbefore

/-! ## 3. Admission is exact -/

theorem oldestMs_mem {entries : List WindowEntry} (h : entries ≠ []) (nowMs : ℤ) :
    ∃ e ∈ entries, oldestMs entries nowMs = e.stampedMs := by
  unfold oldestMs
  cases hmin : (entries.map WindowEntry.stampedMs).min? with
  | none => exact absurd (List.map_eq_nil_iff.mp (List.min?_eq_none_iff.mp hmin)) h
  | some oldest =>
    obtain ⟨e, he, holdest⟩ := List.mem_map.mp (List.min?_mem hmin)
    exact ⟨e, he, holdest.symm⟩

/-- A refusal at `now`: the weight does not fit, and if it fits alone, something that is counted has
    left the window after the retry time. -/
structure WindowRefusal (windowMs : ℤ) (log : List (ℤ × ℕ)) (call : WindowCall) (answer : WindowAnswer) :
    Prop where
  exceeds : call.limit < load windowMs call.nowMs log + call.weight
  expires : call.weight ≤ call.limit → ∃ counted ∈ inWindow windowMs call.nowMs log,
    (counted.1 : ℚ) + windowMs ≤ call.nowMs + 1000 * answer.retrySeconds

theorem windowRefusal {log : List (ℤ × ℕ)}
    (hcounted : stampedAfter (call.nowMs - call.windowMs) (stampedOn windows call.key) =
      inWindow call.windowMs call.nowMs log)
    (hrefused : (admitWindow windows call).1.admitted = false) :
    WindowRefusal call.windowMs log call (admitWindow windows call).1 := by
  rcases admitWindow_cases windows call with ⟨hadmitted, -⟩ | ⟨-, hover, hretry, -⟩
  · rw [hrefused] at hadmitted
    cases hadmitted
  · have hused : usedWeight (countedEntries windows call) = load call.windowMs call.nowMs log := by
      rw [usedWeight_eq, stamped_countedEntries, hcounted]
      rfl
    refine ⟨by omega, fun hfits => ?_⟩
    have hnonempty : countedEntries windows call ≠ [] := by
      intro hnil
      have hzero : usedWeight (countedEntries windows call) = 0 := by
        rw [hnil]
        rfl
      omega
    obtain ⟨e, he, holdest⟩ := oldestMs_mem hnonempty call.nowMs
    refine ⟨e.stamped, ?_, ?_⟩
    · rw [← hcounted, ← stamped_countedEntries]
      exact List.mem_map.mpr ⟨e, he, rfl⟩
    · have hle : (((oldestMs (countedEntries windows call) call.nowMs + call.windowMs - call.nowMs : ℤ) :
          ℚ) / 1000) ≤ windowRetrySeconds (countedEntries windows call) call := le_max_right _ _
      rw [← hretry, holdest] at hle
      push_cast at hle
      show ((e.stampedMs : ℤ) : ℚ) + call.windowMs ≤ _
      linarith

/-- The calls on one key admit what fits its window, and refuse nothing else. -/
structure KeyExact (key : String) (limit : ℕ) (windowMs : ℤ) (hist : WindowHistory) : Prop where
  within : ∀ t, load windowMs t (admittedOn key hist) ≤ limit
  refused : ∀ earlier e later, hist = earlier ++ e :: later → e.2.key = key →
    (admitWindow e.1 e.2).1.admitted = false →
    WindowRefusal windowMs (admittedOn key earlier) e.2 (admitWindow e.1 e.2).1

theorem admitWindow_exact (hrun : Run WindowStep Dict.empty hist windows)
    (hsteady : SteadyCalls key limit windowMs hist) : KeyExact key limit windowMs hist where
  within := (tracks_of_run hrun hsteady).fits.load_le
  refused earlier e later hsplit hkey hrefused := by
    have hupto : SteadyCalls key limit windowMs (earlier ++ [e]) := by
      rw [hsplit, List.append_cons] at hsteady
      exact hsteady.of_append
    obtain ⟨hlimit, hwindow, hnow⟩ := hupto.last hkey
    have htracks := tracks_of_run (hrun.before hsplit) hupto.of_append
    subst hkey hlimit hwindow
    exact windowRefusal (htracks.counted hnow) hrefused

end Windows

end Milo.Quota
