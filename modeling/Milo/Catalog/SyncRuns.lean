import Milo.Catalog.RegisterSync
import Milo.Reasoning.Action

/-!
# SyncRuns — what a sync spends, claims and accounts for

The claims of a run are consecutive parts of its work list, so no tozar is claimed twice and the document
adds up.  A slice holds only units that fit the requests left, so a claim that is answered attempts one;
a first tozar that never fits keeps everything behind it waiting.
-/

namespace Milo.Catalog

open Milo.Reasoning Milo.Python

namespace RegisterWorld

variable (w : RegisterWorld)

/-! ## 1. The work list -/

section WorkList

variable (expected : Dict Text ℕ) (views : Dict Text UnitView) (version : Text)

theorem classTozars_sublist (which : BacklogClass) :
    (classTozars expected views version which).Sublist expected.keys :=
  List.filter_sublist.map Prod.fst

theorem classTozars_nodup (which : BacklogClass) : (classTozars expected views version which).Nodup :=
  expected.keys_nodup.sublist (classTozars_sublist expected views version which)

theorem mem_classTozars {which : BacklogClass} {tozar : Text} :
    tozar ∈ classTozars expected views version which ↔
      ∃ rows, expected.get? tozar = some rows ∧ backlogClass views version tozar rows = some which := by
  unfold classTozars
  rw [List.mem_map]
  constructor
  · rintro ⟨⟨tozar', rows⟩, hmem, rfl⟩
    rw [List.mem_filter, decide_eq_true_eq] at hmem
    exact ⟨rows, Dict.get?_eq_some.mpr hmem.1, hmem.2⟩
  · rintro ⟨rows, hget, hclass⟩
    refine ⟨(tozar, rows), ?_, rfl⟩
    rw [List.mem_filter, decide_eq_true_eq]
    exact ⟨Dict.get?_eq_some.mp hget, hclass⟩

theorem classTozars_disjoint {which other : BacklogClass} (hne : which ≠ other) {tozar : Text}
    (h : tozar ∈ classTozars expected views version which) :
    tozar ∉ classTozars expected views version other := by
  intro h'
  rcases (mem_classTozars expected views version).mp h with ⟨rows, hget, hclass⟩
  rcases (mem_classTozars expected views version).mp h' with ⟨rows', hget', hclass'⟩
  rw [hget] at hget'
  cases hget'
  rw [hclass] at hclass'
  exact hne (Option.some.inj hclass')

theorem planBacklog_nodup : (planBacklog expected views version).Nodup := by
  unfold planBacklog
  rw [List.nodup_flatMap]
  constructor
  · intro which _
    exact (perm_sortedBy utf8 _).nodup_iff.mpr (classTozars_nodup expected views version which)
  · have hpair : [BacklogClass.never, .failed, .drifted].Pairwise (· ≠ ·) := by decide
    apply hpair.imp
    intro which other hne tozar h h'
    exact classTozars_disjoint expected views version hne (mem_sortedBy.mp h) (mem_sortedBy.mp h')

theorem refreshTozars_nodup : (refreshTozars expected views version).Nodup := by
  unfold refreshTozars
  apply List.Nodup.sublist (List.take_sublist _ _)
  rw [(perm_sortedBy _ _).nodup_iff]
  exact expected.keys_nodup.sublist List.filter_sublist

end WorkList

/-! ## 2. Slices -/

section Slices

variable (directory : SyncDirectory) (remaining : ℕ)

theorem slice_prefix (l : List Text) :
    ∀ rows cost chosen, w.slice directory remaining rows cost chosen l <+: l := by
  induction l with
  | nil => exact fun _ _ _ => List.prefix_refl _
  | cons tozar rest ih =>
    intro rows cost chosen
    unfold slice
    dsimp only
    split
    · exact List.nil_prefix
    · split
      · exact List.nil_prefix
      · rw [List.cons_prefix_cons]
        exact ⟨rfl, ih _ _ _⟩

/-- Every unit of a slice fits the requests that were left. -/
theorem slice_fits {l : List Text} {tozar : Text} :
    ∀ {rows cost chosen}, tozar ∈ w.slice directory remaining rows cost chosen l →
      w.needed (rowsOf directory tozar) ≤ remaining := by
  induction l with
  | nil => exact fun h => absurd h List.not_mem_nil
  | cons first rest ih =>
    intro rows cost chosen h
    unfold slice at h
    dsimp only at h
    split at h
    · exact absurd h List.not_mem_nil
    · split at h
      · exact absurd h List.not_mem_nil
      · rename_i hroom
        rcases List.mem_cons.mp h with rfl | h
        · omega
        · exact ih h

theorem slice_of_large {first : Text} {rest : List Text}
    (h : remaining < w.needed (rowsOf directory first)) :
    w.slice directory remaining 0 0 false (first :: rest) = [] := by
  unfold slice
  dsimp only
  rw [if_neg (by simp), if_pos (by omega)]

theorem slice_of_fits {first : Text} {rest : List Text}
    (hfits : w.needed (rowsOf directory first) ≤ remaining) :
    first ∈ w.slice directory remaining 0 0 false (first :: rest) := by
  unfold slice
  dsimp only
  rw [Bool.false_and, if_neg Bool.false_ne_true, if_neg (by omega)]
  exact List.mem_cons_self

end Slices

/-! ## 3. One group -/

section Group

variable {directory : SyncDirectory}

/-- The report of a group extends what was there by a first part of the units, in their order. -/
theorem captureGroup_report (units : List Text) :
    ∀ {report result : List (Text × UnitResult)} {m m' : SyncMeter},
      w.captureGroup directory units report m = (.ok result, m') →
        ∃ extra, result = report ++ extra ∧ extra.map Prod.fst <+: units := by
  induction units with
  | nil =>
    intro report result m m' h
    cases h
    exact ⟨[], (List.append_nil _).symm, List.nil_prefix⟩
  | cons tozar rest ih =>
    intro report result m m' h
    unfold captureGroup at h
    split at h
    · cases h
      exact ⟨[], (List.append_nil _).symm, List.nil_prefix⟩
    · split at h
      · cases h
      · rename_i unit m'' hrun
        rcases ih h with ⟨extra, rfl, hpre⟩
        refine ⟨(tozar, unit) :: extra, by simp, ?_⟩
        rw [List.map_cons, List.cons_prefix_cons]
        exact ⟨rfl, hpre⟩

/-- A group reports nothing only if its first unit is not started. -/
theorem captureGroup_nil {tozar : Text} {rest : List Text} {m m' : SyncMeter}
    (h : w.captureGroup directory (tozar :: rest) [] m = (.ok [], m')) :
    w.stopBefore m (rowsOf directory tozar) = true ∧ m' = m := by
  unfold captureGroup at h
  split at h
  · rename_i hstop
    cases h
    exact ⟨hstop, rfl⟩
  · split at h
    · cases h
    · rename_i unit m'' hrun
      rcases w.captureGroup_report rest h with ⟨extra, heq, -⟩
      simp at heq

end Group

/-! ## 4. The loop -/

theorem entries_updateOutcomes (report : List (Text × UnitResult)) :
    ∀ {outcomes : Dict Text UnitResult}, (report.map Prod.fst).Nodup →
      (∀ unit ∈ report, unit.1 ∉ outcomes.keys) →
        (updateOutcomes outcomes report).entries = outcomes.entries ++ report := by
  induction report with
  | nil => exact fun _ _ => (List.append_nil _).symm
  | cons unit rest ih =>
    intro outcomes hnodup hfresh
    rw [List.map_cons, List.nodup_cons] at hnodup
    have hnew := hfresh unit List.mem_cons_self
    show (updateOutcomes (outcomes.set unit.1 unit.2) rest).entries = _
    rw [ih hnodup.2, Dict.entries_set_of_notMem hnew, List.append_assoc]
    · rfl
    · intro other hother hmem
      rcases Dict.mem_keys_set.mp hmem with heq | hmem
      · exact hnodup.1 (heq ▸ List.mem_map_of_mem hother)
      · exact hfresh other (List.mem_cons_of_mem _ hother) hmem

/-- What the loop keeps: its claims are the part of the work list taken so far, its outcomes are its
    attempts, and a claim that was answered left an attempt. -/
structure SyncKept (version : Text) (work rest : List Text) (s : SyncRun) : Prop where
  taken : s.claims.flatten ++ rest = work
  nonempty : ∀ chosen ∈ s.claims, chosen ≠ []
  entries : s.outcomes.entries = s.attempts
  asked : ∀ unit ∈ s.attempts, unit.1 ∈ s.claims.flatten
  attempted : s.stop ≠ .throttled → (∃ chosen ∈ s.claims, (w.claim version chosen).isClaimed = true) →
    s.attempts ≠ []

section Loop

variable {w} {directory : SyncDirectory} {work rest : List Text} {s : SyncRun}

variable {chosen : List Text}

/-- A claim that starts nothing takes its part of the work list. -/
theorem SyncKept.claiming (h : SyncKept w directory.version work rest s) (hpre : chosen <+: rest)
    (hne : chosen ≠ []) (hnone : (w.claim directory.version chosen).isClaimed = false) :
    SyncKept w directory.version work (rest.drop chosen.length) (s.claiming chosen) := by
  rcases hpre with ⟨later, rfl⟩
  rw [List.drop_left]
  refine ⟨?_, ?_, h.entries, ?_, ?_⟩
  · show (s.claims ++ [chosen]).flatten ++ later = work
    rw [← h.taken]
    simp
  · intro other hother
    rcases List.mem_append.mp hother with hother | hother
    · exact h.nonempty other hother
    · rw [List.mem_singleton.mp hother]
      exact hne
  · intro unit hunit
    show unit.1 ∈ (s.claims ++ [chosen]).flatten
    rw [List.flatten_append, List.mem_append]
    exact Or.inl (h.asked unit hunit)
  · rintro hstop ⟨other, hother, hclaimed⟩
    rcases List.mem_append.mp hother with hother | hother
    · exact h.attempted hstop ⟨other, hother, hclaimed⟩
    · rw [List.mem_singleton.mp hother, hnone] at hclaimed
      cases hclaimed

theorem SyncKept.captured (h : SyncKept w directory.version work rest s) (hwork : work.Nodup) {units : List Text}
    (hpre : chosen <+: rest) (hne : chosen ≠ []) (hunits : units ≠ []) (hsub : units ⊆ chosen) (honce : units.Nodup)
    (hfits : ∀ tozar ∈ chosen, w.needed (rowsOf directory tozar) ≤ s.meter.remaining)
    {report : List (Text × UnitResult)} {m : SyncMeter}
    (hreport : w.captureGroup directory units [] s.meter = (.ok report, m)) :
    SyncKept w directory.version work (rest.drop chosen.length)
      ((s.claiming chosen).afterGroup units report m) := by
  rcases hpre with ⟨later, rfl⟩
  rw [List.drop_left]
  rcases w.captureGroup_report units hreport with ⟨extra, heq, hextra⟩
  rw [List.nil_append] at heq
  subst heq
  have hnodup : (report.map Prod.fst).Nodup := honce.sublist hextra.sublist
  have hin : ∀ unit ∈ report, unit.1 ∈ chosen := fun unit hunit =>
    hsub (hextra.subset (List.mem_map_of_mem hunit))
  -- the tozars of this slice were not claimed before
  have hdisjoint : ∀ tozar ∈ chosen, tozar ∉ s.claims.flatten := by
    intro tozar htozar hbefore
    rw [← h.taken] at hwork
    exact List.disjoint_of_nodup_append hwork hbefore (List.mem_append_left _ htozar)
  have hfresh : ∀ unit ∈ report, unit.1 ∉ s.outcomes.keys := by
    intro unit hunit hkey
    unfold Dict.keys at hkey
    rw [h.entries] at hkey
    rcases List.mem_map.mp hkey with ⟨attempt, hattempt, heq⟩
    exact hdisjoint unit.1 (hin unit hunit) (heq ▸ h.asked attempt hattempt)
  refine ⟨?_, ?_, ?_, ?_, ?_⟩
  · show (s.claims ++ [chosen]).flatten ++ later = work
    rw [← h.taken]
    simp
  · intro other hother
    rcases List.mem_append.mp hother with hother | hother
    · exact h.nonempty other hother
    · rw [List.mem_singleton.mp hother]
      exact hne
  · show (updateOutcomes s.outcomes report).entries = s.attempts ++ report
    rw [entries_updateOutcomes report hnodup hfresh, h.entries]
  · intro unit hunit
    show unit.1 ∈ (s.claims ++ [chosen]).flatten
    rw [List.flatten_append, List.mem_append]
    rcases List.mem_append.mp hunit with hunit | hunit
    · exact Or.inl (h.asked unit hunit)
    · right
      simpa using hin unit hunit
  · intro hstop _ hempty
    have hreportNil : report = [] := (List.append_eq_nil_iff.mp hempty).2
    rw [hreportNil] at hreport
    cases units with
    | nil => exact hunits rfl
    | cons first others =>
      rcases w.captureGroup_nil hreport with ⟨hbefore, rfl⟩
      unfold stopBefore at hbefore
      rw [Bool.or_eq_true, decide_eq_true_eq] at hbefore
      rcases hbefore with htripped | hshort
      · apply hstop
        show (if s.meter.tripped = true then SyncStop.throttled else _) = _
        rw [if_pos htripped]
      · have hfirst := hfits first (hsub List.mem_cons_self)
        omega

/-- Claiming takes the part of the work list that is claimed. -/
theorem claiming_taken (h : s.claims.flatten ++ rest = work) (hpre : chosen <+: rest) :
    (s.claiming chosen).claims.flatten ++ rest.drop chosen.length = work := by
  rcases hpre with ⟨later, rfl⟩
  rw [List.drop_left, ← h]
  show (s.claims ++ [chosen]).flatten ++ later = _
  simp

theorem SyncKept.stopped (h : SyncKept w directory.version work rest s) (hstop : s.stop = .complete)
    (stop : SyncStop) : SyncKept w directory.version work rest { s with stop } :=
  ⟨h.taken, h.nonempty, h.entries, h.asked, fun _ hclaimed =>
    h.attempted (by rw [hstop]; decide) hclaimed⟩

/-- What the loop leaves, whether it ends or raises. -/
structure LoopLeft (w : RegisterWorld) (version : Text) (work : List Text) (s : SyncRun)
    (failure : Option SyncFailure) (s' : SyncRun) : Prop where
  grown : s.claims <+: s'.claims
  taken : ∃ rest', s'.claims.flatten ++ rest' = work
  nonempty : ∀ chosen ∈ s'.claims, chosen ≠ []
  ended : failure = none → ∃ rest', SyncKept w version work rest' s'

theorem claims_claiming (s : SyncRun) (chosen : List Text) :
    s.claims <+: (s.claiming chosen).claims := List.prefix_append _ _

theorem captureLoop_left (hwork : work.Nodup) (n : ℕ) :
    ∀ {rest : List Text} {s s' : SyncRun} {failure : Option SyncFailure}, rest.length ≤ n →
      SyncKept w directory.version work rest s →
        w.captureLoop directory rest s = (failure, s') →
          LoopLeft w directory.version work s failure s' := by
  induction n with
  | zero =>
    intro rest s s' failure hlength h hloop
    rw [captureLoop, if_pos (Or.inr (List.length_eq_zero_iff.mp (Nat.le_zero.mp hlength)))] at hloop
    cases hloop
    exact ⟨List.prefix_refl _, ⟨rest, h.taken⟩, h.nonempty, fun _ => ⟨rest, h⟩⟩
  | succ n ih =>
    intro rest s s' failure hlength h hloop
    rw [captureLoop] at hloop
    split at hloop
    · cases hloop
      exact ⟨List.prefix_refl _, ⟨rest, h.taken⟩, h.nonempty, fun _ => ⟨rest, h⟩⟩
    rename_i hgo
    rw [not_or, not_not] at hgo
    dsimp only at hloop
    split at hloop
    · cases hloop
      exact ⟨List.prefix_refl _, ⟨rest, h.taken⟩, h.nonempty,
        fun _ => ⟨rest, h.stopped hgo.1 .budget⟩⟩
    rename_i hchosen
    have hpre := w.slice_prefix directory s.meter.remaining rest 0 0 false
    have hfits : ∀ tozar ∈ w.slice directory s.meter.remaining 0 0 false rest,
        w.needed (rowsOf directory tozar) ≤ s.meter.remaining :=
      fun tozar htozar => w.slice_fits directory s.meter.remaining htozar
    generalize w.slice directory s.meter.remaining 0 0 false rest = chosen at hloop hchosen hpre hfits
    have htaken := claiming_taken h.taken hpre
    have hnonempty : ∀ other ∈ (s.claiming chosen).claims, other ≠ [] := by
      intro other hother
      rcases List.mem_append.mp hother with hother | hother
      · exact h.nonempty other hother
      · rw [List.mem_singleton.mp hother]
        exact hchosen
    -- what is left after the slice is shorter
    have hshorter : (rest.drop chosen.length).length ≤ n := by
      have hpos : 0 < chosen.length := List.length_pos_iff.mpr hchosen
      have hle := hpre.length_le
      rw [List.length_drop]
      omega
    -- the claim ends the loop or is part of it; the rest is the induction hypothesis
    cases hclaim : w.claim directory.version chosen with
    | refused refusal =>
      rw [hclaim] at hloop
      cases hloop
      exact ⟨claims_claiming s chosen, ⟨_, htaken⟩, hnonempty, fun hnone => by cases hnone⟩
    | overCapacity =>
      rw [hclaim] at hloop
      cases hloop
      have hkept := h.claiming hpre hchosen (by rw [hclaim]; rfl)
      exact ⟨claims_claiming s chosen, ⟨_, htaken⟩, hnonempty,
        fun _ => ⟨_, hkept.stopped hgo.1 .capacity⟩⟩
    | existing =>
      rw [hclaim] at hloop
      have hkept := h.claiming hpre hchosen (by rw [hclaim]; rfl)
      have hleft := ih hshorter hkept hloop
      exact ⟨(claims_claiming s chosen).trans hleft.grown, hleft.taken, hleft.nonempty, hleft.ended⟩
    | claimed units hunits hsub honce =>
      rw [hclaim] at hloop
      dsimp only at hloop
      cases hbind : w.bindGroup units with
      | some refusal =>
        rw [hbind] at hloop
        cases hloop
        exact ⟨claims_claiming s chosen, ⟨_, htaken⟩, hnonempty, fun hnone => by cases hnone⟩
      | none =>
        rw [hbind] at hloop
        dsimp only at hloop
        split at hloop
        · cases hloop
          exact ⟨claims_claiming s chosen, ⟨_, htaken⟩, hnonempty, fun hnone => by cases hnone⟩
        · rename_i report m hreport
          have hkept := h.captured hwork hpre hchosen hunits hsub honce hfits hreport
          have hleft := ih hshorter hkept hloop
          exact ⟨(claims_claiming s chosen).trans hleft.grown, hleft.taken, hleft.nonempty,
            hleft.ended⟩

/-- A first tozar that fits the requests left is claimed. -/
theorem captureLoop_first (hwork : work.Nodup) {first : Text} {more : List Text}
    {s' : SyncRun} {failure : Option SyncFailure}
    (h : SyncKept w directory.version work (first :: more) s) (hstop : s.stop = .complete)
    (hfits : w.needed (rowsOf directory first) ≤ s.meter.remaining)
    (hloop : w.captureLoop directory (first :: more) s = (failure, s')) :
    ∃ chosen ∈ s'.claims, first ∈ chosen := by
  have hfirst : first ∈ w.slice directory s.meter.remaining 0 0 false (first :: more) :=
    w.slice_of_fits directory s.meter.remaining hfits
  have hpre := w.slice_prefix directory s.meter.remaining (first :: more) 0 0 false
  have hallFit : ∀ tozar ∈ w.slice directory s.meter.remaining 0 0 false (first :: more),
      w.needed (rowsOf directory tozar) ≤ s.meter.remaining :=
    fun tozar htozar => w.slice_fits directory s.meter.remaining htozar
  rw [captureLoop, if_neg (by simp [hstop])] at hloop
  dsimp only at hloop
  generalize w.slice directory s.meter.remaining 0 0 false (first :: more) = chosen
    at hloop hfirst hpre hallFit
  have hchosen : chosen ≠ [] := List.ne_nil_of_mem hfirst
  have hlast : chosen ∈ (s.claiming chosen).claims :=
    List.mem_append_right _ (List.mem_singleton_self _)
  rw [dif_neg hchosen] at hloop
  cases hclaim : w.claim directory.version chosen with
  | refused refusal =>
    rw [hclaim] at hloop
    cases hloop
    exact ⟨chosen, hlast, hfirst⟩
  | overCapacity =>
    rw [hclaim] at hloop
    cases hloop
    exact ⟨chosen, hlast, hfirst⟩
  | existing =>
    rw [hclaim] at hloop
    have hkept := h.claiming hpre hchosen (by rw [hclaim]; rfl)
    have hleft := captureLoop_left hwork _ (le_refl _) hkept hloop
    exact ⟨chosen, hleft.grown.subset hlast, hfirst⟩
  | claimed units hunits hsub honce =>
    rw [hclaim] at hloop
    dsimp only at hloop
    cases hbind : w.bindGroup units with
    | some refusal =>
      rw [hbind] at hloop
      cases hloop
      exact ⟨chosen, hlast, hfirst⟩
    | none =>
      rw [hbind] at hloop
      dsimp only at hloop
      split at hloop
      · cases hloop
        exact ⟨chosen, hlast, hfirst⟩
      · rename_i report m hreport
        have hkept := h.captured hwork hpre hchosen hunits hsub honce hallFit hreport
        have hleft := captureLoop_left hwork _ (le_refl _) hkept hloop
        exact ⟨chosen, hleft.grown.subset hlast, hfirst⟩

end Loop

/-! ## 5. The checks -/

/-- The recorded basis is what was seen, and every tozar captured under the directory has its count. -/
structure Unmoved (plan : SyncPlan) : Prop where
  directory : w.directory = some plan.directory
  basis : w.basis.isSome = true ∧ plan.basis = w.basis
  counts : ∀ tozar view rows, w.views.get? tozar = some view → view.state = .captured →
    view.registerVersion = some plan.directory.version →
      plan.directory.expected.get? tozar = some rows → view.capturedRows = some rows

/-- What the checks leave to work on. -/
structure PlanOf (plan : SyncPlan) : Prop where
  work : plan.work.Nodup
  backlog : plan.backlog = planBacklog plan.directory.expected w.views plan.directory.version
  first : plan.backlog ≠ [] → plan.work = plan.backlog
  unmoved : plan.stop = .complete → plan.changed = false → w.Unmoved plan

variable {directory : SyncDirectory} {plan : SyncPlan}

theorem unmoved_of_unchanged {seen : SyncBasis} (hdirectory : w.directory = some directory)
    (hunchanged : w.changed directory seen = false) : w.Unmoved (w.planned directory seen false) := by
  unfold changed at hunchanged
  cases hbasis : w.basis with
  | none =>
    rw [hbasis] at hunchanged
    cases hunchanged
  | some basis =>
    rw [hbasis] at hunchanged
    simp only [ne_eq, Bool.or_eq_false_iff, decide_eq_false_iff_not, not_not] at hunchanged
    rcases hunchanged with ⟨⟨⟨⟨hversion, hupstream⟩, hmodified⟩, htotal⟩, hcounts⟩
    refine ⟨hdirectory, ⟨by rw [hbasis]; rfl, ?_⟩, ?_⟩
    · show some { seen with directoryVersion := some directory.version } = w.basis
      rw [hbasis, ← hupstream, ← hmodified, ← htotal, ← hversion]
    · intro tozar view rows hview hstate hregister hrows
      rw [List.any_eq_false] at hcounts
      have hentry := hcounts (tozar, view) (Dict.get?_eq_some.mp hview)
      have hexpected : directory.expected.get? tozar = some rows := hrows
      have hregister' : view.registerVersion = some directory.version := hregister
      simpa [hstate, hregister', hexpected] using hentry

theorem planned_planOf {seen : SyncBasis} {moved : Bool}
    (hunmoved : moved = false → w.Unmoved (w.planned directory seen moved)) :
    w.PlanOf (w.planned directory seen moved) := by
  refine ⟨?_, rfl, fun hne => if_neg hne, fun _ => hunmoved⟩
  unfold planned
  dsimp only
  split
  · exact refreshTozars_nodup _ _ _
  · exact planBacklog_nodup _ _ _

theorem checksFailed_planOf {moved : Bool} {reason : Text} {m : SyncMeter} {failure : SyncFailure}
    (h : w.checksFailed directory moved reason m failure = .ok plan) : w.PlanOf plan := by
  unfold checksFailed at h
  split at h
  · split at h
    · cases h
    · cases h
      refine ⟨planBacklog_nodup _ _ _, rfl, fun _ => rfl, fun hstop => ?_⟩
      dsimp only at hstop
      split at hstop <;> cases hstop
  · cases h

theorem checks_planOf {m m' : SyncMeter} (hdirectory : w.directory = some directory)
    (h : w.checks directory m = (.ok plan, m')) : w.PlanOf plan := by
  unfold checks at h
  split at h
  · exact w.checksFailed_planOf (congrArg Prod.fst h)
  · split at h
    · exact w.checksFailed_planOf (congrArg Prod.fst h)
    · dsimp only at h
      split at h
      · split at h
        · exact w.checksFailed_planOf (congrArg Prod.fst h)
        · split at h
          · cases h
          · cases h
            exact w.planned_planOf fun hmoved => by cases hmoved
      · rename_i hunchanged
        cases h
        exact w.planned_planOf fun _ =>
          w.unmoved_of_unchanged hdirectory (Bool.eq_false_of_not_eq_true hunchanged)

/-! ## 6. The sync -/

/-- What holds of every sync. -/
structure SyncLaws (result : SyncResult) : Prop where
  sends : result.run.meter.asked.length ≤ syncMaxRequests
  silent : ∀ earlier later e, result.run.meter.asked = earlier ++ e :: later →
    isFirewallAnswer e.2 = true → later = []
  claims : ∀ plan, result.plan = some plan → result.run.claims.flatten.Nodup ∧
    result.run.claims.flatten <+: plan.work ∧ result.run.claims.length ≤ plan.work.length
  accounts : ∀ plan document, result.plan = some plan → result.outcome = .ok document →
    document.work = plan.work.length ∧
      ((document.captured + document.reused + document.failed : ℕ) : ℤ) + document.deferred =
        document.work ∧ 0 ≤ document.deferred ∧
      document.captured + document.reused =
        (result.run.attempts.filter fun unit => unit.2.captured).length
  backlog : ∀ plan document, result.plan = some plan → result.outcome = .ok document →
    ∃ left : List Text, document.backlog = (left.length, (left.map (rowsOf plan.directory)).sum) ∧ left.Nodup ∧
      ∀ tozar, tozar ∈ left ↔ tozar ∈ plan.backlog ∧
        ∀ unit ∈ result.run.attempts, unit.1 = tozar → unit.2.captured = false
  unmoved : ∀ plan, result.plan = some plan → plan.stop = .complete → plan.changed = false →
    w.Unmoved plan
  progress : ∀ plan document first more, result.plan = some plan → plan.stop = .complete →
    result.outcome = .ok document → document.stop ≠ .throttled → plan.work = first :: more →
      w.needed (rowsOf plan.directory first) ≤ result.checked.remaining →
        (∃ chosen ∈ result.run.claims, first ∈ chosen) ∧
          ((∃ chosen ∈ result.run.claims, (w.claim plan.directory.version chosen).isClaimed = true) →
            result.run.attempts ≠ [])

section Accounts

variable {w} {plan : SyncPlan} {version : Text} {rest : List Text} {s : SyncRun}

theorem length_le_flatten {claims : List (List Text)} (h : ∀ chosen ∈ claims, chosen ≠ []) :
    claims.length ≤ claims.flatten.length := by
  induction claims with
  | nil => exact le_refl 0
  | cons chosen claims ih =>
    have hpos := List.length_pos_iff.mpr (h chosen List.mem_cons_self)
    have hrest := ih fun other hother => h other (List.mem_cons_of_mem _ hother)
    rw [List.flatten_cons, List.length_append, List.length_cons]
    omega

theorem SyncKept.attempts_nodup (h : SyncKept w version plan.work rest s) :
    (s.attempts.map Prod.fst).Nodup := by
  rw [← h.entries]
  exact s.outcomes.nodup

theorem document_accounts (h : SyncKept w version plan.work rest s) :
    (w.document plan s).work = plan.work.length ∧
      (((w.document plan s).captured + (w.document plan s).reused + (w.document plan s).failed : ℕ) : ℤ) +
        (w.document plan s).deferred = (w.document plan s).work ∧ 0 ≤ (w.document plan s).deferred ∧
      (w.document plan s).captured + (w.document plan s).reused =
        (s.attempts.filter fun unit => unit.2.captured).length := by
  have hdone : (s.attempts.filter fun unit => unit.2.captured).length ≤ s.attempts.length :=
    List.length_filter_le _ _
  have hreused : (List.filter (fun e => w.isReused e.1 e.2)
      (s.attempts.filter fun unit => unit.2.captured)).length ≤
        (s.attempts.filter fun unit => unit.2.captured).length := List.length_filter_le _ _
  have hattempts : s.attempts.length ≤ plan.work.length := by
    have hsub : s.attempts.map Prod.fst ⊆ plan.work := by
      intro tozar htozar
      rcases List.mem_map.mp htozar with ⟨unit, hunit, rfl⟩
      rw [← h.taken]
      exact List.mem_append_left _ (h.asked unit hunit)
    have hle := (List.subperm_of_subset h.attempts_nodup hsub).length_le
    rwa [List.length_map] at hle
  unfold document
  dsimp only
  rw [h.entries]
  refine ⟨rfl, ?_, ?_, ?_⟩
  · omega
  · omega
  · omega

theorem document_backlog (h : SyncKept w version plan.work rest s) (hbacklog : plan.backlog.Nodup) :
    ∃ left : List Text,
      (w.document plan s).backlog = (left.length, (left.map (rowsOf plan.directory)).sum) ∧ left.Nodup ∧ ∀ tozar, tozar ∈ left ↔ tozar ∈ plan.backlog ∧
        ∀ unit ∈ s.attempts, unit.1 = tozar → unit.2.captured = false := by
  refine ⟨_, rfl, hbacklog.sublist List.filter_sublist, fun tozar => ?_⟩
  rw [h.entries, List.mem_filter, Bool.not_eq_true', Bool.eq_false_iff, ne_eq, List.contains_iff_mem,
    List.mem_map]
  apply and_congr_right
  intro _
  constructor
  · intro hnone unit hunit heq
    by_contra hcaptured
    rw [Bool.not_eq_false] at hcaptured
    exact hnone ⟨unit, List.mem_filter.mpr ⟨hunit, hcaptured⟩, heq⟩
  · rintro hall ⟨unit, hunit, heq⟩
    rw [List.mem_filter] at hunit
    have hnot := hall unit hunit.1 heq
    rw [hunit.2] at hnot
    cases hnot

end Accounts

theorem begin_kept (m : SyncMeter) (plan : SyncPlan) :
    w.SyncKept plan.directory.version plan.work plan.work (.begin m plan.stop plan.reason) where
  taken := List.nil_append _
  nonempty := fun _ h => absurd h List.not_mem_nil
  entries := rfl
  asked := fun _ h => absurd h List.not_mem_nil
  attempted := fun _ ⟨_, h, _⟩ => absurd h List.not_mem_nil

theorem raised_laws (m : SyncMeter) (failure : SyncFailure) : w.SyncLaws (.raised m failure) where
  sends := m.bounded
  silent := m.stopped
  claims := fun _ hplan => by cases hplan
  accounts := fun _ _ hplan => by cases hplan
  backlog := fun _ _ hplan => by cases hplan
  unmoved := fun _ hplan => by cases hplan
  progress := fun _ _ _ _ hplan => by cases hplan

theorem claims_of_left {s : SyncRun} {failure : Option SyncFailure} {m : SyncMeter} (hwork : plan.work.Nodup)
    (hleft : LoopLeft w plan.directory.version plan.work (.begin m plan.stop plan.reason) failure s) :
    s.claims.flatten.Nodup ∧ s.claims.flatten <+: plan.work ∧ s.claims.length ≤ plan.work.length := by
  rcases hleft.taken with ⟨rest, htaken⟩
  have hpre : s.claims.flatten <+: plan.work := ⟨rest, htaken⟩
  exact ⟨hwork.sublist hpre.sublist, hpre,
    (length_le_flatten hleft.nonempty).trans hpre.length_le⟩

/-! ## 7. Runs that start nothing -/

/-- The progress asked of a run that ends without the firewall and within the capacity. -/
def StartsUnit (result : SyncResult) : Prop :=
  ∀ plan document, result.plan = some plan → result.outcome = .ok document →
    document.stop ≠ .throttled → document.stop ≠ .capacity →
      (∃ tozar ∈ plan.work, w.needed (rowsOf plan.directory tozar) ≤ result.checked.remaining) →
        result.run.attempts ≠ []

/-- A first tozar that does not fit the requests left starves the list: nothing behind it is claimed. -/
theorem starves_behind_first {first : Text} {more : List Text} (hplan : w.runSync.plan = some plan)
    (hstop : plan.stop = .complete) (hwork : plan.work = first :: more)
    (hlarge : w.runSync.checked.remaining < w.needed (rowsOf plan.directory first)) :
    w.runSync.run.claims = [] ∧ w.runSync.run.attempts = [] ∧ w.runSync.run.stop = .budget := by
  have hloop : ∀ (m : SyncMeter) (reason : Text), m.remaining < w.needed (rowsOf plan.directory first) →
      w.captureLoop plan.directory (first :: more) (.begin m .complete reason) =
        (none, { SyncRun.begin m .complete reason with stop := .budget }) := by
    intro m reason hlarge
    unfold captureLoop
    have hnone : w.slice plan.directory (SyncRun.begin m .complete reason).meter.remaining 0 0 false
        (first :: more) = [] := w.slice_of_large _ _ hlarge
    rw [if_neg (by simp [SyncRun.begin]), dif_pos hnone]
  unfold runSync at hplan hlarge ⊢
  cases hgroup : w.ownGroup with
  | none =>
    rw [hgroup] at hplan
    cases hplan
  | some group =>
    cases hdirectory : w.directory with
    | none =>
      rw [hgroup, hdirectory] at hplan
      cases hplan
    | some directory =>
      simp only [hgroup, hdirectory] at hplan hlarge ⊢
      rcases hchecks : w.checks directory Meter.fresh with ⟨failure | found, m⟩
      · rw [hchecks] at hplan
        cases hplan
      · simp only [hchecks] at hplan hlarge ⊢
        have hfound : found = plan := by
          revert hplan
          split <;> exact Option.some.inj
        rw [hfound, hstop, hwork] at hlarge ⊢
        rw [hloop m plan.reason (by revert hlarge; split <;> exact id)]
        exact ⟨rfl, rfl, rfl⟩

/-- One request, and its answer read. -/
def askOnce {α : Type} (request : HttpRequest) (read : Option HttpResponse → Except SyncFailure α) :
    SyncOperation (Except SyncFailure α) where
  State := Option (Option HttpResponse)
  start := none
  step := fun
    | none => .inr (request, some)
    | some response => .inl (read response)
  refused := fun _ _ => .error (.source requestBudgetExceeded)

def plainRequest : HttpRequest := ⟨"datastore_search".toList, []⟩

/-- A register of two tozars, one of them never captured; nothing moved since the last sync. -/
def quietWorld : RegisterWorld where
  answers := fun _ _ => some ⟨200, "application/json".toList, []⟩
  pageLimit := 1000
  packageShow := askOnce plainRequest fun _ => .ok ⟨"v1".toList, "2026-09-30".toList⟩
  sourceTotal := fun _ => askOnce plainRequest fun _ => .ok 150
  lightDirectory := fun expected _ => askOnce plainRequest fun _ => .ok expected
  captureUnit := fun _ rows => askOnce plainRequest fun _ => .ok ⟨true, "snap".toList, some rows, []⟩
  ownGroup := some "operator".toList
  directory := some ⟨"a1".toList, ⟨[("mazda".toList, 100), ("kia".toList, 50)], by decide⟩⟩
  basis := some ⟨some "v1".toList, some "2026-09-30".toList, some 150, some "a1".toList⟩
  views := ⟨[("mazda".toList,
    ⟨.captured, some 100, some "a1".toList, some "s1".toList, "2026-09-29".toList⟩)], by decide⟩
  recordDirectory := fun _ => .ok "a2".toList
  claim := fun _ chosen =>
    if h : chosen ≠ [] ∧ chosen.Nodup then .claimed chosen h.1 (List.Subset.refl _) h.2 else .existing
  bindGroup := fun _ => none
  groupMaxRows := 5000

/-- The register grew, and the scan finds more moved tozars than the requests left. -/
def outgrownWorld : RegisterWorld :=
  { quietWorld with
    sourceTotal := fun _ => askOnce plainRequest fun _ => .ok 90000
    lightDirectory := fun _ _ => askOnce plainRequest fun _ => .error (.source requestBudgetExceeded) }

/-- Another group already holds every tozar. -/
def heldWorld : RegisterWorld := { quietWorld with claim := fun _ _ => .existing }

/-- Whether a run ended, unthrottled and within capacity, with room for a unit and none attempted. -/
def startsNothing (result : SyncResult) : Bool :=
  result.plan.any fun plan => result.outcome.toOption.any fun document =>
    decide (document.stop ≠ .throttled) && decide (document.stop ≠ .capacity) &&
      (plan.work.any fun tozar => decide (w.needed (rowsOf plan.directory tozar) ≤
        result.checked.remaining)) && result.run.attempts.isEmpty

theorem not_startsUnit {result : SyncResult} (h : w.startsNothing result = true) :
    ¬ w.StartsUnit result := by
  intro hstarts
  unfold startsNothing at h
  simp only [Option.any_eq_true, Bool.and_eq_true, decide_eq_true_eq, List.any_eq_true,
    List.isEmpty_iff] at h
  rcases h with ⟨plan, hplan, document, hdocument, ⟨⟨hthrottled, hcapacity⟩, hfits⟩, hnone⟩
  exact hstarts plan document hplan (eq_ok_of_toOption hdocument) hthrottled hcapacity hfits hnone

/-- A directory that is too large ends the run with room for a unit; so do claims that start nothing. -/
theorem sync_starts_nothing :
    ¬ outgrownWorld.StartsUnit outgrownWorld.runSync ∧ ¬ heldWorld.StartsUnit heldWorld.runSync :=
  ⟨outgrownWorld.not_startsUnit (by decide +kernel), heldWorld.not_startsUnit (by decide +kernel)⟩

example : quietWorld.runSync.run.attempts.map Prod.fst = ["kia".toList] := by decide +kernel

/-! ## 8. Every sync -/

/-- A sync stays within its budget, claims nothing twice, accounts for its work list, sees what moved, and
    begins the first unit that fits. -/
theorem sync_within_budget : w.SyncLaws w.runSync := by
  unfold runSync
  cases hgroup : w.ownGroup with
  | none => exact w.raised_laws _ _
  | some group =>
    cases hdirectory : w.directory with
    | none => exact w.raised_laws _ _
    | some directory =>
      dsimp only
      split
      · exact w.raised_laws _ _
      rename_i plan m hchecks
      have hplan := w.checks_planOf hdirectory hchecks
      have hbacklog : plan.backlog.Nodup := by
        rw [hplan.backlog]
        exact planBacklog_nodup _ _ _
      have hbegin := w.begin_kept m plan
      split
      · -- the run raised while it was capturing
        rename_i failure s hloop
        have hleft := captureLoop_left hplan.work _ (le_refl _) hbegin hloop
        refine ⟨s.meter.bounded, s.meter.stopped, ?_, ?_, ?_, ?_, ?_⟩
        · rintro _ ⟨rfl⟩
          exact w.claims_of_left hplan.work hleft
        · exact fun _ _ _ hdocument => by cases hdocument
        · exact fun _ _ _ hdocument => by cases hdocument
        · rintro _ ⟨rfl⟩
          exact hplan.unmoved
        · exact fun _ _ _ _ _ _ hdocument => by cases hdocument
      · rename_i s hloop
        have hleft := captureLoop_left hplan.work _ (le_refl _) hbegin hloop
        rcases hleft.ended rfl with ⟨rest, hkept⟩
        refine ⟨s.meter.bounded, s.meter.stopped, ?_, ?_, ?_, ?_, ?_⟩
        · rintro _ ⟨rfl⟩
          exact w.claims_of_left hplan.work hleft
        · rintro _ _ ⟨rfl⟩ ⟨rfl⟩
          exact document_accounts hkept
        · rintro _ _ ⟨rfl⟩ ⟨rfl⟩
          exact document_backlog hkept hbacklog
        · rintro _ ⟨rfl⟩
          exact hplan.unmoved
        · rintro _ _ first more ⟨rfl⟩ hstop ⟨rfl⟩ hnot hwork hfits
          have hfirst : w.SyncKept plan.directory.version plan.work (first :: more)
              (.begin m plan.stop plan.reason) := hwork ▸ hbegin
          refine ⟨captureLoop_first hplan.work hfirst hstop hfits (hwork ▸ hloop), ?_⟩
          exact hkept.attempted hnot

end RegisterWorld

end Milo.Catalog
