import Milo.Catalog.AutoSync
import Milo.Reasoning.Transition

/-!
# AutoSyncRuns — auto sync over whole histories

Directory groups are claimed, syncs finish, ticks come and owners press their switches in any order.
Whatever the order, the rows behave as one schedule: every step moves the shared columns of all rows
alike, and the counters are the tally of what was counted.  A step that reads the newest finished sync
counts it once and keeps its cooldown; one that looks past it may do neither.
-/

namespace Milo.Catalog

open Milo.Reasoning

/-! ## 1. The system -/

/-- The schedule rows, and the directory groups, newest claim first. -/
structure SyncWorld where
  schedules : Schedules
  groups : List DirectoryGroup

def SyncWorld.empty : SyncWorld := ⟨Dict.empty, []⟩

/-- What a step that fails to read some runs takes for the last sync. -/
def SyncWorld.lastAttempt (w : SyncWorld) (unreadable : List Text) : Option FinishedSync :=
  Milo.Catalog.lastAttempt w.groups unreadable

/-- The newest finished sync. -/
def SyncWorld.newestFinished (w : SyncWorld) : Option FinishedSync :=
  w.groups.findSome? DirectoryGroup.finished

def SyncWorld.finishedIds (w : SyncWorld) : List Text :=
  (w.groups.filterMap DirectoryGroup.finished).map FinishedSync.runId

/-- The newest finished sync is of one of the groups read, and its run is readable. -/
def SyncWorld.reaches (w : SyncWorld) (unreadable : List Text) : Bool :=
  w.newestFinished.all fun sync =>
    decide (.synced sync ∈ w.groups.take syncLookback) && decide (sync.runId ∉ unreadable)

/-- A sync's run ends. -/
def DirectoryGroup.end (sync : FinishedSync) (group : DirectoryGroup) : DirectoryGroup :=
  if group = .syncing sync.runId then .synced sync else group

inductive SyncEvent
  | claimRefresh
  | claimSync (runId : Text)
  | finish (sync : FinishedSync)
  | tick (t : Tick)
  | switch (r : SwitchRequest)
  deriving DecidableEq

/-- What finishes is a sync under way, and no run finishes twice. -/
def SyncWorld.Allowed (w : SyncWorld) : SyncEvent → Prop
  | .finish sync => .syncing sync.runId ∈ w.groups ∧ sync.runId ∉ w.finishedIds
  | _ => True

instance (w : SyncWorld) (e : SyncEvent) : Decidable (w.Allowed e) := by
  cases e <;> unfold SyncWorld.Allowed <;> infer_instance

/-- A refused switch changes nothing. -/
def SyncWorld.answered (w : SyncWorld) : Except SwitchError Schedules → SyncWorld
  | .ok schedules => { w with schedules }
  | .error _ => w

def SyncWorld.perform (w : SyncWorld) : SyncEvent → SyncWorld
  | .claimRefresh => { w with groups := .refresh :: w.groups }
  | .claimSync runId => { w with groups := .syncing runId :: w.groups }
  | .finish sync => { w with groups := w.groups.map (DirectoryGroup.end sync) }
  | .tick t =>
    { w with schedules := (Milo.Catalog.tick w.schedules (w.lastAttempt t.unreadable) t).schedules }
  | .switch r => w.answered (setSwitch w.schedules (w.lastAttempt r.unreadable) r)

abbrev SyncStep : SyncWorld → SyncEvent → SyncWorld → Prop :=
  Performs SyncWorld.Allowed SyncWorld.perform

/-- Some row carries a pause. -/
def SyncWorld.Paused (w : SyncWorld) : Prop := ∃ row ∈ w.schedules.values, row.pausedReason.isSome = true

instance (w : SyncWorld) : Decidable w.Paused :=
  inferInstanceAs (Decidable (∃ row ∈ w.schedules.values, row.pausedReason.isSome = true))

/-- The answer of the start an event asks for, if it asks for one. -/
def SyncWorld.asks (w : SyncWorld) : SyncEvent → Option StartAnswer
  | .tick t => (Milo.Catalog.tick w.schedules (w.lastAttempt t.unreadable) t).asked
  | _ => none

/-- What an event adds to the counters' history. -/
inductive Mark
  | counted (sync : FinishedSync)
  | startFailed
  | resumed
  deriving DecidableEq

def Mark.runId : Mark → Option Text
  | .counted sync => some sync.runId
  | _ => none

/-- A sync that neither succeeded nor was throttled. -/
def FinishedSync.isFailure (sync : FinishedSync) : Bool :=
  decide (sync.stop ≠ some .throttled) && !sync.succeeded

def Mark.isFailure : Mark → Bool
  | .counted sync => sync.isFailure
  | .startFailed => true
  | .resumed => false

/-- `(consecutive_throttles, consecutive_failures)`. -/
abbrev Counters := ℕ × ℕ

/-- What the counters say after one more mark. -/
def Mark.tally (counters : Counters) : Mark → Counters
  | .counted sync =>
    if sync.stop = some .throttled then (counters.1 + 1, counters.2)
    else (0, if sync.succeeded then 0 else counters.2 + 1)
  | .startFailed => (counters.1, counters.2 + 1)
  | .resumed => (counters.1, 0)

def SharedSchedule.counters (schedule : SharedSchedule) : Counters :=
  (schedule.consecutiveThrottles, schedule.consecutiveFailures)

/-- A start the job never ran. -/
def failedStart (asked : Option StartAnswer) : Bool := decide (asked = some (.refused triggerFailed))

def tickMarks (schedule : SharedSchedule) (last : Option FinishedSync) (asked : Option StartAnswer) :
    List Mark :=
  (uncounted schedule last).toList.map Mark.counted ++ if failedStart asked then [.startFailed] else []

/-- The request is a resume of a paused row, and its answer lets it through. -/
def SyncWorld.lets (w : SyncWorld) (r : SwitchRequest) (answer : Except SwitchError Schedules) : Bool :=
  decide (r.action = .resume) &&
    ((w.schedules.get? r.project).bind fun row => row.pausedReason).isSome && answer.isOk

/-- A resume that goes through. -/
def SyncWorld.resumes (w : SyncWorld) : SyncEvent → Bool
  | .switch r => w.lets r (setSwitch w.schedules (w.lastAttempt r.unreadable) r)
  | _ => false

/-- What an event counts. -/
def SyncWorld.marks (w : SyncWorld) : SyncEvent → List Mark
  | .tick t =>
    if t.registerOn then
      match driving (registerSyncSchedules w.schedules) with
      | none => []
      | some row => tickMarks row.2.toSharedSchedule (w.lastAttempt t.unreadable) (w.asks (.tick t))
    else []
  | e => if w.resumes e then [.resumed] else []

def marksOf (hist : List (SyncWorld × SyncEvent)) : List Mark := hist.flatMap fun e => e.1.marks e.2

def SyncEvent.isBusy : SyncEvent → Bool
  | .tick t => t.busy
  | _ => false

/-- A success, a throttle or a resume. -/
def SyncWorld.interrupted (w : SyncWorld) (e : SyncEvent) : Bool := (w.marks e).any fun mark => !mark.isFailure

/-- A tick that did not find the register busy counts a failed sync or a failed start. -/
def SyncWorld.failsOpenly (w : SyncWorld) (e : SyncEvent) : Bool :=
  !e.isBusy && (w.marks e).any Mark.isFailure

/-- A tick that has a row to drive sees a failed newest sync, counted before or not, or a failed start. -/
def SyncWorld.seesFailure (w : SyncWorld) : SyncEvent → Bool
  | .tick t =>
    t.registerOn && (driving (registerSyncSchedules w.schedules)).isSome &&
      (w.newestFinished.any FinishedSync.isFailure || failedStart (w.asks (.tick t)))
  | _ => false

/-- The step reads the newest finished sync, if it reads any. -/
def SyncWorld.seesNewest (w : SyncWorld) : SyncEvent → Bool
  | .tick t => w.reaches t.unreadable
  | .switch r => w.reaches r.unreadable
  | _ => true

/-- No tick finds the register busy after a failed sync, or finds a failed sync counted before. -/
def SyncWorld.seesOnce (w : SyncWorld) : SyncEvent → Bool
  | .tick t =>
    w.newestFinished.all fun sync => !sync.isFailure || !t.busy &&
      (driving (registerSyncSchedules w.schedules)).all fun row =>
        decide (row.2.countedRunId ≠ some sync.runId)
  | _ => true

/-- A start asked for comes no earlier than the cooldown after a throttled newest sync. -/
def Cooled (e : SyncWorld × SyncEvent) : Prop :=
  ∀ t sync finished, e.2 = .tick t → e.1.asks e.2 ≠ none → e.1.newestFinished = some sync →
    sync.stop = some .throttled → sync.finishedAt = some finished →
      ∀ row ∈ (e.1.perform e.2).schedules.values,
        finished + cooldown row.consecutiveThrottles ≤ t.now

/-! ## 2. One schedule for all rows -/

/-- All rows carry `s`; with no row yet it is the state a new row starts in. -/
structure SyncWorld.Shows (w : SyncWorld) (s : SharedSchedule) : Prop where
  carries : Carries Schedule.toSharedSchedule w.schedules s
  blank : w.schedules.values = [] → s = {}

/-- What a step does to the schedule all rows carry. -/
inductive Moves (w : SyncWorld) (s : SharedSchedule) :
    SyncEvent → SharedSchedule → List Mark → Option StartAnswer → Prop
  | kept (e : SyncEvent) : Moves w s e s [] none
  | resumed (r : SwitchRequest) : r.action = .resume →
      Moves w s (.switch r) (s.resumed (w.lastAttempt r.unreadable) r.now) [.resumed] none
  | ticked {t : Tick} {s' : SharedSchedule} {asked : Option StartAnswer} :
      DrivenTick (observe s (w.lastAttempt t.unreadable)) (w.lastAttempt t.unreadable) t s' asked →
      Moves w s (.tick t) s' (tickMarks s (w.lastAttempt t.unreadable) asked) asked

theorem over_self (schedule : SharedSchedule) : schedule.over schedule = schedule := by
  cases schedule
  simp [SharedSchedule.over]

variable {s s' : SharedSchedule} {w : SyncWorld} {f : Text → Schedule → Schedule} {asked : Option StartAnswer}
  {sync : FinishedSync} {e : SyncEvent} {hist later : List (SyncWorld × SyncEvent)} {marks : List Mark}

/-- `on` leaves the project's row with the state all rows carry. -/
theorem switchOn_shared (h : w.Shows s) (r : SwitchRequest) : (switchOn w.schedules r).toSharedSchedule = s := by
  have hown : ∀ row, w.schedules.get? r.project = some row → row.toSharedSchedule = s :=
    fun row hrow => h.carries row (mem_values_of_get? hrow)
  unfold switchOn
  dsimp only
  cases hsource : sharedSource (registerSyncSchedules w.schedules) with
  | none =>
    have hrows := List.eq_nil_iff_forall_not_mem.mp (eq_nil_of_sharedSource hsource)
    have hentries : w.schedules.entries = [] := by
      rw [List.eq_nil_iff_forall_not_mem]
      exact fun row hrow => hrows row (mem_registerSyncSchedules.mpr hrow)
    cases hget : w.schedules.get? r.project with
    | none => exact (h.blank (by rw [Dict.values, hentries, List.map_nil])).symm
    | some row => exact hown row hget
  | some source =>
    have hmem := mem_registerSyncSchedules.mp (mem_of_sharedSource hsource)
    have hs : source.2.toSharedSchedule = s :=
      h.carries _ (List.mem_map_of_mem (f := Prod.snd) hmem)
    dsimp only
    rw [hs]
    cases hget : w.schedules.get? r.project with
    | none =>
      show s.over {} = s
      cases s
      simp [SharedSchedule.over]
    | some row =>
      show s.over row.toSharedSchedule = s
      rw [hown row hget, over_self]

theorem values_mapValues_eq_nil {table : Schedules} (h : (table.mapValues f).values = []) : table.values = [] := by
  rw [Dict.values, Dict.mapValues, List.map_eq_nil_iff, List.map_eq_nil_iff] at h
  rw [Dict.values, h, List.map_nil]

theorem stampRows_none (h : w.Shows s) (record : TickRecord) :
    SyncWorld.Shows { w with schedules := stampRows w.schedules none record } s where
  carries := Carries.of_mapValues fun _ row hrow => h.carries row hrow
  blank := fun hnil => h.blank (values_mapValues_eq_nil hnil)

theorem set_shows (h : w.Shows s) {project : Text} {row : Schedule} (hrow : row.toSharedSchedule = s) :
    SyncWorld.Shows { w with schedules := w.schedules.set project row } s where
  carries := h.carries.set hrow
  blank := by
    intro hnil
    have hmem : row ∈ (w.schedules.set project row).values :=
      mem_values_of_get? (Dict.get?_set_self _ _ _)
    rw [hnil] at hmem
    exact absurd hmem List.not_mem_nil

/-- A write of every row, made because some row is there. -/
theorem mapValues_shows {project : Text} {row : Schedule} (hget : w.schedules.get? project = some row)
    (h : ∀ k, ∀ row ∈ w.schedules.values, (f k row).toSharedSchedule = s') :
    SyncWorld.Shows { w with schedules := w.schedules.mapValues f } s' where
  carries := Carries.of_mapValues h
  blank := by
    intro hnil
    have hmem := mem_values_of_get? hget
    rw [values_mapValues_eq_nil hnil] at hmem
    exact absurd hmem List.not_mem_nil

theorem answered_moves (h : w.Shows s) {r : SwitchRequest} {answer : Except SwitchError Schedules}
    (heffect : SwitchEffect w.schedules (w.lastAttempt r.unreadable) r answer) :
    ∃ s', (w.answered answer).Shows s' ∧
      Moves w s (.switch r) s' (if w.lets r answer then [.resumed] else []) none := by
  cases heffect with
  | refused error =>
    refine ⟨s, h, ?_⟩
    simp only [SyncWorld.lets, Except.isOk, Except.toBool, Bool.and_false, Bool.false_eq_true,
      if_false]
    exact .kept _
  | unchanged hunpaused =>
    refine ⟨s, h, ?_⟩
    rw [if_neg]
    · exact .kept _
    · by_cases haction : r.action = .resume
      · simp [SyncWorld.lets, hunpaused haction]
      · simp [SyncWorld.lets, haction]
  | on haction =>
    refine ⟨s, set_shows h (switchOn_shared h r), ?_⟩
    rw [if_neg (by simp [SyncWorld.lets, haction])]
    exact .kept _
  | @off row haction hget =>
    refine ⟨s, set_shows h (h.carries row (mem_values_of_get? hget)), ?_⟩
    rw [if_neg (by simp [SyncWorld.lets, haction])]
    exact .kept _
  | @resumed row haction hget hpaused =>
    refine ⟨s.resumed (w.lastAttempt r.unreadable) r.now, mapValues_shows (f := fun _ row => { row with
      toSharedSchedule := row.toSharedSchedule.resumed (w.lastAttempt r.unreadable) r.now }) hget
        fun _ other hother => ?_, ?_⟩
    · show other.toSharedSchedule.resumed (w.lastAttempt r.unreadable) r.now = _
      rw [h.carries other hother]
    · rw [if_pos (by simp [SyncWorld.lets, haction, hget, hpaused, Except.isOk, Except.toBool])]
      exact .resumed r haction

/-- Every step moves the one schedule all rows carry. -/
theorem perform_moves (h : w.Shows s) (e : SyncEvent) :
    ∃ s', (w.perform e).Shows s' ∧ Moves w s e s' (w.marks e) (w.asks e) := by
  cases e with
  | claimRefresh => exact ⟨s, ⟨h.carries, h.blank⟩, .kept _⟩
  | claimSync runId => exact ⟨s, ⟨h.carries, h.blank⟩, .kept _⟩
  | finish sync => exact ⟨s, ⟨h.carries, h.blank⟩, .kept _⟩
  | tick t =>
    have heffect := tick_effect w.schedules (w.lastAttempt t.unreadable) t
    unfold SyncWorld.perform SyncWorld.marks SyncWorld.asks
    dsimp only
    generalize Milo.Catalog.tick w.schedules (w.lastAttempt t.unreadable) t = ticked at heffect ⊢
    cases heffect with
    | idle record hidle =>
      refine ⟨s, stampRows_none h record, ?_⟩
      rcases hidle with hoff | hnone
      · rw [if_neg (by simp [hoff])]
        exact .kept _
      · rw [hnone]
        split <;> exact .kept _
    | @driven project row state asked record hon hdriving hget hdriven =>
      have hrow : row.toSharedSchedule = s := h.carries row (mem_values_of_get? hget)
      rw [hrow] at hdriven
      refine ⟨state, mapValues_shows (f := fun _ row => { row with
        toSharedSchedule := state, lastTick := some record }) hget fun _ _ _ => rfl, ?_⟩
      rw [if_pos hon, hdriving]
      dsimp only
      rw [hrow]
      exact .ticked hdriven
  | switch r => exact answered_moves h (setSwitch_effect _ _ r)

/-! ## 3. The counters are a tally -/

def countedIds (hist : List (SyncWorld × SyncEvent)) : List Text := (marksOf hist).filterMap Mark.runId

/-- What the history counted is of finished syncs, each once, and the newest is not counted again. -/
structure CountedOnce (hist : List (SyncWorld × SyncEvent)) (w : SyncWorld) (s : SharedSchedule) : Prop where
  nodup : (countedIds hist).Nodup
  finished : ∀ id ∈ countedIds hist, id ∈ w.finishedIds
  newest : ∀ sync, w.newestFinished = some sync → sync.runId ∈ countedIds hist →
    s.countedRunId = some sync.runId

theorem marksOf_snoc (hist : List (SyncWorld × SyncEvent)) (w : SyncWorld) (e : SyncEvent) :
    marksOf (hist ++ [(w, e)]) = marksOf hist ++ w.marks e := by
  simp [marksOf]

theorem countedIds_snoc (hist : List (SyncWorld × SyncEvent)) (w : SyncWorld) (e : SyncEvent) :
    countedIds (hist ++ [(w, e)]) = countedIds hist ++ (w.marks e).filterMap Mark.runId := by
  rw [countedIds, marksOf_snoc, List.filterMap_append, countedIds]

theorem count_counters (s : SharedSchedule) (sync : FinishedSync) :
    (s.count sync).counters = Mark.tally s.counters (.counted sync) := by
  rw [SharedSchedule.count, Mark.tally]
  split <;> rfl

theorem observe_counters (s : SharedSchedule) (last : Option FinishedSync) :
    (observe s last).counters =
      ((uncounted s last).toList.map Mark.counted).foldl Mark.tally s.counters := by
  rw [observe]
  cases uncounted s last with
  | none => rfl
  | some sync => exact count_counters s sync

theorem afterStart_counters (s : SharedSchedule) (answer : StartAnswer) :
    (s.afterStart answer).counters =
      (if failedStart (some answer) then [Mark.startFailed] else []).foldl Mark.tally s.counters := by
  cases answer with
  | started => rfl
  | refused code =>
    by_cases hcode : code = triggerFailed
    · simp [SharedSchedule.afterStart, failedStart, hcode, SharedSchedule.counters, Mark.tally]
    · simp [SharedSchedule.afterStart, failedStart, hcode]

theorem ticked_counters {last : Option FinishedSync} {t : Tick} (h : DrivenTick (observe s last) last t s' asked) :
    s'.counters = (tickMarks s last asked).foldl Mark.tally s.counters := by
  rw [tickMarks, List.foldl_append, ← observe_counters]
  cases h with
  | skipped hwhy => rfl
  | pausing reason => rfl
  | asked answer hpaused hwarm hfew => exact afterStart_counters _ answer

theorem observe_countedRunId : (observe s (some sync)).countedRunId = some sync.runId := by
  rw [observe]
  by_cases hcounted : s.countedRunId = some sync.runId
  · rw [uncounted, Option.filter_some, if_neg (by simp [hcounted])]
    exact hcounted
  · rw [uncounted, Option.filter_some, if_pos (by simp [hcounted])]
    show (s.count sync).countedRunId = _
    rw [SharedSchedule.count]
    split <;> rfl

theorem ticked_countedRunId {observed : SharedSchedule} {last : Option FinishedSync} {t : Tick}
    (h : DrivenTick observed last t s' asked) : s'.countedRunId = observed.countedRunId := by
  cases h with
  | skipped hwhy => rfl
  | pausing reason => rfl
  | asked answer hpaused hwarm hfew => exact afterStart_countedRunId _ answer

theorem tickMarks_runIds (s : SharedSchedule) (last : Option FinishedSync)
    (asked : Option StartAnswer) :
    (tickMarks s last asked).filterMap Mark.runId =
      (uncounted s last).toList.map FinishedSync.runId := by
  rw [tickMarks, List.filterMap_append]
  have hstart : (if failedStart asked then [Mark.startFailed] else []).filterMap Mark.runId = [] := by
    split <;> rfl
  rw [hstart, List.append_nil, List.filterMap_map]
  cases uncounted s last <;> rfl

theorem mem_finishedIds (h : .synced sync ∈ w.groups) : sync.runId ∈ w.finishedIds :=
  List.mem_map_of_mem (List.mem_filterMap.mpr ⟨_, h, rfl⟩)

theorem mem_of_newestFinished (h : w.newestFinished = some sync) : .synced sync ∈ w.groups := by
  obtain ⟨group, hgroup, hfinished⟩ := List.exists_of_findSome?_eq_some h
  cases group with
  | synced held =>
    cases hfinished
    exact hgroup
  | refresh => cases hfinished
  | syncing runId => cases hfinished

/-- Where the newest finished sync is within reach, it is what is read; induction on the groups. -/
theorem lastAttempt_of_reaches {unreadable : List Text} (h : w.reaches unreadable = true) :
    w.lastAttempt unreadable = w.newestFinished := by
  have hread : ∀ (groups : List DirectoryGroup) (n : ℕ),
      (∀ sync, groups.findSome? DirectoryGroup.finished = some sync →
        .synced sync ∈ groups.take n ∧ sync.runId ∉ unreadable) →
      ((groups.take n).findSome? fun group =>
        group.finished.filter fun sync => decide (sync.runId ∉ unreadable)) =
          groups.findSome? DirectoryGroup.finished := by
    intro groups
    induction groups with
    | nil =>
      intro n _
      rw [List.take_nil]
      rfl
    | cons group groups ih =>
      intro n hreach
      cases n with
      | zero =>
        cases hnewest : (group :: groups).findSome? DirectoryGroup.finished with
        | none => rfl
        | some sync => exact absurd (hreach sync hnewest).1 List.not_mem_nil
      | succ n =>
        cases group with
        | synced sync =>
          have hsync := (hreach sync rfl).2
          simp [DirectoryGroup.finished, hsync, List.findSome?_cons, Option.filter]
        | refresh =>
          refine ih n fun sync hsync => ?_
          have hboth := hreach sync hsync
          exact ⟨(List.mem_cons.mp hboth.1).resolve_left (by simp), hboth.2⟩
        | syncing runId =>
          refine ih n fun sync hsync => ?_
          have hboth := hreach sync hsync
          exact ⟨(List.mem_cons.mp hboth.1).resolve_left (by simp), hboth.2⟩
  apply hread
  intro sync hsync
  have hnewest : w.newestFinished = some sync := hsync
  unfold SyncWorld.reaches at h
  rw [hnewest, Option.all_some, Bool.and_eq_true, decide_eq_true_eq, decide_eq_true_eq] at h
  exact h

/-- What a finished run leaves of the groups: the sync is newest, or the newest is as before. -/
theorem newestFinished_finish {newest : FinishedSync} (h : (w.perform (.finish sync)).newestFinished = some newest) :
    newest = sync ∨ w.newestFinished = some newest := by
  have hgroups : ∀ groups : List DirectoryGroup,
      (groups.map (DirectoryGroup.end sync)).findSome? DirectoryGroup.finished = some newest →
        newest = sync ∨ groups.findSome? DirectoryGroup.finished = some newest := by
    intro groups
    induction groups with
    | nil => exact fun h => Or.inr h
    | cons group groups ih =>
      intro h
      rw [List.map_cons, List.findSome?_cons] at h
      rw [List.findSome?_cons]
      by_cases hends : group = .syncing sync.runId
      · left
        rw [DirectoryGroup.end, if_pos hends] at h
        exact (Option.some.inj h).symm
      · rw [DirectoryGroup.end, if_neg hends] at h
        cases hfinished : group.finished with
        | some held =>
          rw [hfinished] at h
          exact Or.inr h
        | none =>
          rw [hfinished] at h
          exact ih h
  exact hgroups w.groups h

theorem finishedIds_finish {id : Text} (h : id ∈ w.finishedIds) : id ∈ (w.perform (.finish sync)).finishedIds := by
  obtain ⟨held, hheld, rfl⟩ := List.mem_map.mp h
  obtain ⟨group, hgroup, hfinished⟩ := List.mem_filterMap.mp hheld
  refine List.mem_map_of_mem (List.mem_filterMap.mpr ⟨_, List.mem_map_of_mem hgroup, ?_⟩)
  cases group with
  | synced held' => exact hfinished
  | refresh => cases hfinished
  | syncing runId => cases hfinished

namespace CountedOnce

variable {hist : List (SyncWorld × SyncEvent)} {w w' : SyncWorld} {s s' : SharedSchedule} {e : SyncEvent}

theorem kept (h : CountedOnce hist w s) (hmarks : w.marks e = [])
    (hids : w'.finishedIds = w.finishedIds) (hnewest : w'.newestFinished = w.newestFinished) :
    CountedOnce (hist ++ [(w, e)]) w' s := by
  have hcounted : countedIds (hist ++ [(w, e)]) = countedIds hist := by
    rw [countedIds_snoc, hmarks, List.filterMap_nil, List.append_nil]
  constructor
  · rw [hcounted]
    exact h.nodup
  · rw [hcounted, hids]
    exact h.finished
  · rw [hcounted, hnewest]
    exact h.newest

theorem finish {sync : FinishedSync} (h : CountedOnce hist w s) (hnew : w.Allowed (.finish sync)) :
    CountedOnce (hist ++ [(w, .finish sync)]) (w.perform (.finish sync)) s := by
  have hcounted : countedIds (hist ++ [(w, .finish sync)]) = countedIds hist := by
    rw [countedIds_snoc]
    exact List.append_nil _
  constructor
  · rw [hcounted]
    exact h.nodup
  · rw [hcounted]
    exact fun id hid => finishedIds_finish (h.finished id hid)
  · rw [hcounted]
    intro newest hnewest hid
    rcases newestFinished_finish hnewest with rfl | hold
    · exact absurd (h.finished _ hid) hnew.2
    · exact h.newest newest hold hid

/-- A tick that reads the newest sync counts it if it was not counted. -/
theorem ticked {t : Tick} {asked : Option StartAnswer} (h : CountedOnce hist w s)
    (hread : w.lastAttempt t.unreadable = w.newestFinished)
    (hmarks : w.marks (.tick t) = tickMarks s (w.lastAttempt t.unreadable) asked)
    (hdriven : DrivenTick (observe s (w.lastAttempt t.unreadable)) (w.lastAttempt t.unreadable) t s' asked) :
    CountedOnce (hist ++ [(w, .tick t)]) (w.perform (.tick t)) s' := by
  rw [hread] at hmarks hdriven
  have hcounted : countedIds (hist ++ [(w, .tick t)]) =
      countedIds hist ++ (uncounted s w.newestFinished).toList.map FinishedSync.runId := by
    rw [countedIds_snoc, hmarks, tickMarks_runIds]
  have hlast : ∀ sync, uncounted s w.newestFinished = some sync →
      w.newestFinished = some sync ∧ sync.runId ∉ countedIds hist := by
    intro sync hsync
    obtain ⟨hlast, hnot⟩ := Option.filter_eq_some_iff.mp hsync
    refine ⟨hlast, fun hmem => ?_⟩
    exact (of_decide_eq_true hnot) (h.newest sync hlast hmem)
  constructor
  · rw [hcounted]
    cases hun : uncounted s w.newestFinished with
    | none => simpa using h.nodup
    | some sync =>
      refine List.Nodup.append h.nodup (by simp) ?_
      intro id hid hsync
      rw [List.mem_singleton.mp hsync] at hid
      exact (hlast sync hun).2 hid
  · rw [hcounted]
    intro id hid
    rcases List.mem_append.mp hid with hid | hid
    · exact h.finished id hid
    · cases hun : uncounted s w.newestFinished with
      | none =>
        rw [hun] at hid
        exact absurd hid List.not_mem_nil
      | some sync =>
        rw [hun] at hid
        rw [List.mem_singleton.mp hid]
        exact mem_finishedIds (mem_of_newestFinished (hlast sync hun).1)
  · intro sync hsync _
    have hnewest : w.newestFinished = some sync := hsync
    rw [ticked_countedRunId hdriven, hnewest]
    exact observe_countedRunId

/-- A resume that reads the newest sync takes it as counted. -/
theorem resumed {r : SwitchRequest} (h : CountedOnce hist w s)
    (hread : w.lastAttempt r.unreadable = w.newestFinished) (hmarks : w.marks (.switch r) = [.resumed])
    (hgroups : (w.perform (.switch r)).groups = w.groups) :
    CountedOnce (hist ++ [(w, .switch r)]) (w.perform (.switch r))
      (s.resumed (w.lastAttempt r.unreadable) r.now) := by
  have hcounted : countedIds (hist ++ [(w, .switch r)]) = countedIds hist := by
    rw [countedIds_snoc, hmarks]
    exact List.append_nil _
  constructor
  · rw [hcounted]
    exact h.nodup
  · rw [hcounted, SyncWorld.finishedIds, hgroups]
    exact h.finished
  · intro sync hsync _
    rw [SyncWorld.newestFinished, hgroups] at hsync
    show (((w.lastAttempt r.unreadable).map FinishedSync.runId).or s.countedRunId) = _
    rw [hread, SyncWorld.newestFinished, hsync]
    rfl

end CountedOnce

theorem groups_perform_switch (w : SyncWorld) (r : SwitchRequest) :
    (w.perform (.switch r)).groups = w.groups := by
  unfold SyncWorld.perform SyncWorld.answered
  dsimp only
  split <;> rfl

/-- One step that reads the newest finished sync counts nothing twice. -/
theorem CountedOnce.step (h : CountedOnce hist w s) (hallowed : w.Allowed e) (hsees : w.seesNewest e = true)
    (hmoves : Moves w s e s' (w.marks e) (w.asks e)) : CountedOnce (hist ++ [(w, e)]) (w.perform e) s' := by
  generalize hmarks : w.marks e = marks at hmoves
  generalize hasks : w.asks e = asked at hmoves
  cases hmoves with
  | kept =>
    cases e with
    | claimRefresh => exact h.kept hmarks rfl rfl
    | claimSync runId => exact h.kept hmarks rfl rfl
    | finish sync => exact h.finish hallowed
    | tick t => exact h.kept hmarks rfl rfl
    | switch r =>
      have hgroups := groups_perform_switch w r
      refine h.kept hmarks ?_ ?_
      · rw [SyncWorld.finishedIds, hgroups, SyncWorld.finishedIds]
      · rw [SyncWorld.newestFinished, hgroups, SyncWorld.newestFinished]
  | resumed r haction =>
    exact h.resumed (lastAttempt_of_reaches hsees) hmarks (groups_perform_switch w r)
  | ticked hdriven => exact h.ticked (lastAttempt_of_reaches hsees) hmarks hdriven

theorem Moves.counters (h : Moves w s e s' marks asked) : s'.counters = marks.foldl Mark.tally s.counters := by
  cases h with
  | kept => rfl
  | resumed r haction => rfl
  | ticked hdriven => exact ticked_counters hdriven

/-! ## 4. Runs -/

theorem shows_empty : SyncWorld.empty.Shows {} where
  carries := fun _ hrow => absurd hrow List.not_mem_nil
  blank := fun _ => rfl

/-- The schedule every row carries after a run from the empty table, and what it has counted. -/
theorem run_tallied (hrun : Run SyncStep SyncWorld.empty hist w) :
    ∃ s, w.Shows s ∧ s.counters = (marksOf hist).foldl Mark.tally (0, 0) ∧
      ((∀ e ∈ hist, e.1.seesNewest e.2 = true) → CountedOnce hist w s) := by
  refine hrun.history_invariant (J := fun hist w => ∃ s, w.Shows s ∧
    s.counters = (marksOf hist).foldl Mark.tally (0, 0) ∧
      ((∀ e ∈ hist, e.1.seesNewest e.2 = true) → CountedOnce hist w s)) ?_ ?_
  · refine ⟨{}, shows_empty, rfl, fun _ => ⟨List.nodup_nil, ?_, ?_⟩⟩
    · exact fun id hid => absurd hid List.not_mem_nil
    · exact fun sync _ hid => absurd hid List.not_mem_nil
  · rintro hist m e m' - ⟨s, hshows, hcounters, honce⟩ ⟨hallowed, rfl⟩
    obtain ⟨s', hshows', hmoves⟩ := perform_moves hshows e
    refine ⟨s', hshows', ?_, fun hsees => ?_⟩
    · rw [marksOf_snoc, List.foldl_append, ← hcounters]
      exact hmoves.counters
    · have hbefore := honce fun e he => hsees e (List.mem_append_left _ he)
      exact hbefore.step hallowed (hsees (m, e) (by simp)) hmoves

theorem run_shows {w' : SyncWorld} (h : w.Shows s) (hrun : Run SyncStep w later w') :
    Throughout (fun m => ∃ s, m.Shows s) later w' := by
  refine hrun.throughout ⟨s, h⟩ ?_
  rintro m e m' ⟨s, hs⟩ ⟨-, rfl⟩
  obtain ⟨s', hs', -⟩ := perform_moves hs e
  exact ⟨s', hs'⟩

theorem SyncWorld.Shows.paused_iff (h : w.Shows s) : w.Paused ↔ s.pausedReason.isSome = true := by
  constructor
  · rintro ⟨row, hrow, hpaused⟩
    rw [← h.carries row hrow]
    exact hpaused
  · intro hpaused
    cases hvalues : w.schedules.values with
    | nil =>
      rw [h.blank hvalues] at hpaused
      cases hpaused
    | cons row rows =>
      have hrow : row ∈ w.schedules.values := by simp [hvalues]
      refine ⟨row, hrow, ?_⟩
      show row.toSharedSchedule.pausedReason.isSome = true
      rw [h.carries row hrow]
      exact hpaused

/-- Paused, no start is asked for, and only a resume ends the pause. -/
theorem Moves.paused (h : Moves w s e s' marks asked) (hpaused : s.pausedReason.isSome = true) :
    Mark.resumed ∈ marks ∨ asked = none ∧ s'.pausedReason.isSome = true := by
  cases h with
  | kept => exact Or.inr ⟨rfl, hpaused⟩
  | resumed r haction => exact Or.inl (List.mem_singleton.mpr rfl)
  | ticked hdriven =>
    right
    cases hdriven with
    | skipped hwhy => exact ⟨rfl, by rw [observe_pausedReason]; exact hpaused⟩
    | pausing reason => exact ⟨rfl, rfl⟩
    | asked answer hnone hfree hwarm hfew =>
      rw [observe_pausedReason] at hnone
      rw [hnone] at hpaused
      cases hpaused

theorem resumed_mem_tickMarks (s : SharedSchedule) (last : Option FinishedSync)
    (asked : Option StartAnswer) : Mark.resumed ∉ tickMarks s last asked := by
  unfold tickMarks
  cases uncounted s last <;> cases failedStart asked <;> simp

theorem resumes_of_mark (h : Mark.resumed ∈ w.marks e) : w.resumes e = true := by
  cases e with
  | claimRefresh => exact absurd h List.not_mem_nil
  | claimSync runId => exact absurd h List.not_mem_nil
  | finish sync => exact absurd h List.not_mem_nil
  | tick t =>
    unfold SyncWorld.marks at h
    dsimp only at h
    split at h
    · split at h
      · exact absurd h List.not_mem_nil
      · exact absurd h (resumed_mem_tickMarks _ _ _)
    · exact absurd h List.not_mem_nil
  | switch r =>
    by_contra hnot
    have hnone : w.marks (.switch r) = [] := if_neg hnot
    rw [hnone] at h
    exact absurd h List.not_mem_nil

/-- From a pause on, until a resume goes through, no start is asked for. -/
theorem run_paused {w' : SyncWorld} (h : w.Shows s) (hpaused : w.Paused) (hrun : Run SyncStep w later w')
    (hno : ∀ e ∈ later, e.1.resumes e.2 = false) :
    (∃ s', w'.Shows s' ∧ s'.pausedReason.isSome = true) ∧ ∀ e ∈ later, e.1.asks e.2 = none := by
  revert hno
  refine hrun.history_invariant (J := fun later w' => (∀ e ∈ later, e.1.resumes e.2 = false) →
    (∃ s', w'.Shows s' ∧ s'.pausedReason.isSome = true) ∧ ∀ e ∈ later, e.1.asks e.2 = none) ?_ ?_
  · exact fun _ => ⟨⟨s, h, h.paused_iff.mp hpaused⟩, fun e he => absurd he List.not_mem_nil⟩
  · rintro later m e m' - ih ⟨-, rfl⟩ hno
    obtain ⟨⟨s, hs, hsome⟩, hquiet⟩ := ih fun e he => hno e (List.mem_append_left _ he)
    obtain ⟨s', hs', hmoves⟩ := perform_moves hs e
    rcases hmoves.paused hsome with hmark | ⟨hasked, hsome'⟩
    · have hresumes := hno (m, e) (by simp)
      rw [resumes_of_mark hmark] at hresumes
      cases hresumes
    · refine ⟨⟨s', hs', hsome'⟩, fun e' he' => ?_⟩
      rcases List.mem_append.mp he' with he' | he'
      · exact hquiet e' he'
      · rw [List.mem_singleton.mp he']
        exact hasked

/-- A step that reads the newest finished sync and asks for a start has waited out the cooldown. -/
theorem cooled_of_shows (h : w.Shows s) (hsees : w.seesNewest e = true) : Cooled (w, e) := by
  intro t sync finished he hasks hlast hthrottled hfinished row hrow
  obtain ⟨s', hs', hmoves⟩ := perform_moves h e
  have hcarried : row.toSharedSchedule = s' := hs'.carries row hrow
  show finished + cooldown row.toSharedSchedule.consecutiveThrottles ≤ t.now
  rw [hcarried]
  generalize w.marks e = marks at hmoves
  replace hasks : w.asks e ≠ none := hasks
  replace hlast : w.newestFinished = some sync := hlast
  replace he : e = .tick t := he
  subst he
  have hread : w.lastAttempt t.unreadable = some sync := (lastAttempt_of_reaches hsees).trans hlast
  generalize w.asks (.tick t) = asked at hmoves hasks
  cases hmoves with
  | kept => exact absurd rfl hasks
  | ticked hdriven =>
    cases hdriven with
    | skipped hwhy => exact absurd rfl hasks
    | pausing reason => exact absurd rfl hasks
    | asked answer hnone hfree hwarm hfew =>
      rw [afterStart_consecutiveThrottles]
      simp only [SharedSchedule.isCooling, hread, Option.any_some, hthrottled, decide_true,
        Bool.true_and, hfinished, decide_eq_false_iff_not, not_lt] at hwarm
      rw [hread]
      exact hwarm

/-! ## 5. Failures before a pause -/

/-- Marks that are all failures add one failure each. -/
theorem tally_failures (h : ∀ mark ∈ marks, mark.isFailure = true) :
    ∀ counters : Counters, (marks.foldl Mark.tally counters).2 = counters.2 + marks.length := by
  induction marks with
  | nil => exact fun _ => rfl
  | cons mark marks ih =>
    intro counters
    have hone : (mark.tally counters).2 = counters.2 + 1 := by
      have hmark := h mark List.mem_cons_self
      cases mark with
      | counted sync =>
        simp only [Mark.isFailure, FinishedSync.isFailure, Bool.and_eq_true, decide_eq_true_eq,
          Bool.not_eq_true'] at hmark
        rw [Mark.tally, if_neg hmark.1]
        show (if sync.succeeded = true then 0 else counters.2 + 1) = _
        rw [hmark.2]
        rfl
      | startFailed => rfl
      | resumed => cases hmark
    rw [List.foldl_cons, ih fun mark hmark => h mark (List.mem_cons_of_mem _ hmark), hone,
      List.length_cons]
    omega

/-- `k` ticks in a row counted a failure in the open: the counter holds them all, and there are few of
    them while no pause is recorded. -/
def Stretch (k : ℕ) (s : SharedSchedule) : Prop :=
  k ≤ s.consecutiveFailures ∧ (s.pausedReason = none → k ≤ failuresBeforePause)

theorem Moves.stretch {k : ℕ} (h : Moves w s e s' marks asked) (hk : Stretch k s)
    (hfailures : ∀ mark ∈ marks, mark.isFailure = true) :
    Stretch (k + if !e.isBusy && marks.any Mark.isFailure then 1 else 0) s' := by
  cases h with
  | kept => simpa using hk
  | resumed r haction => exact absurd (hfailures .resumed (by simp)) (by decide)
  | @ticked t s' asked hdriven =>
    have hcounters : s'.consecutiveFailures =
        s.consecutiveFailures + (tickMarks s (w.lastAttempt t.unreadable) asked).length := by
      have hall := congrArg Prod.snd (ticked_counters hdriven)
      rw [tally_failures hfailures] at hall
      exact hall
    have hopen : (if !(SyncEvent.tick t).isBusy &&
        (tickMarks s (w.lastAttempt t.unreadable) asked).any Mark.isFailure then 1 else 0) ≤
          (tickMarks s (w.lastAttempt t.unreadable) asked).length := by
      cases tickMarks s (w.lastAttempt t.unreadable) asked with
      | nil => simp
      | cons mark marks =>
        rw [List.length_cons]
        split <;> omega
    have hle1 : (if !(SyncEvent.tick t).isBusy &&
        (tickMarks s (w.lastAttempt t.unreadable) asked).any Mark.isFailure then 1 else 0) ≤ 1 := by
      split <;> omega
    -- the counter grows with the marks; short of a pause it is what bounds the stretch
    refine ⟨by rw [hcounters]; have := hk.1; omega, fun hunpaused => ?_⟩
    have hlimit : failuresBeforePause = 2 := rfl
    cases hdriven with
    | pausing reason => cases hunpaused
    | asked answer hnone hfree hwarm hfew =>
      -- what was counted before the start is in the counter the start was decided on
      have hobserved : s.consecutiveFailures ≤
          (observe s (w.lastAttempt t.unreadable)).consecutiveFailures := by
        have hcount := congrArg Prod.snd (observe_counters s (w.lastAttempt t.unreadable))
        rw [tally_failures fun mark hmark => hfailures mark (List.mem_append_left _ hmark)] at hcount
        have hvalue : (observe s (w.lastAttempt t.unreadable)).consecutiveFailures =
          s.consecutiveFailures +
            ((uncounted s (w.lastAttempt t.unreadable)).toList.map Mark.counted).length := hcount
        omega
      have := hk.1
      omega
    | skipped hwhy =>
      rcases hwhy with hpaused | hbusy | hcooling | hfew
      · rw [hunpaused] at hpaused
        cases hpaused
      · -- a busy tick does not lengthen it
        have hbefore : k ≤ failuresBeforePause := by
          apply hk.2
          rw [observe_pausedReason] at hunpaused
          exact hunpaused
        have hzero : (!(SyncEvent.tick t).isBusy) = false := by simp [SyncEvent.isBusy, hbusy]
        rw [hzero, Bool.false_and]
        simpa using hbefore
      · have hbefore : k ≤ failuresBeforePause := by
          apply hk.2
          rw [observe_pausedReason] at hunpaused
          exact hunpaused
        -- a throttled newest sync is not a failure
        have hnone : tickMarks s (w.lastAttempt t.unreadable) none = [] := by
          cases hun : uncounted s (w.lastAttempt t.unreadable) with
          | none => simp [tickMarks, hun, failedStart]
          | some sync =>
            have hlast := (Option.filter_eq_some_iff.mp hun).1
            have hsync := hfailures (.counted sync) (by simp [tickMarks, hun])
            simp only [SharedSchedule.isCooling, hlast, Option.any_some, Bool.and_eq_true,
              decide_eq_true_eq] at hcooling
            simp [Mark.isFailure, FinishedSync.isFailure, hcooling.1] at hsync
        rw [hnone]
        simpa using hbefore
      · have := hk.1
        have hobserved : (observe s (w.lastAttempt t.unreadable)).consecutiveFailures =
          s.consecutiveFailures + (tickMarks s (w.lastAttempt t.unreadable) none).length := hcounters
        omega

/-- Along a stretch without a success, a throttle or a resume. -/
theorem run_stretch {w' : SyncWorld} (h : w.Shows s) (hrun : Run SyncStep w later w')
    (hno : ∀ e ∈ later, e.1.interrupted e.2 = false) :
    ∃ s', w'.Shows s' ∧ Stretch (later.countP fun e => e.1.failsOpenly e.2) s' := by
  revert hno
  refine hrun.history_invariant (J := fun later w' =>
    (∀ e ∈ later, e.1.interrupted e.2 = false) →
      ∃ s', w'.Shows s' ∧ Stretch (later.countP fun e => e.1.failsOpenly e.2) s') ?_ ?_
  · exact fun _ => ⟨s, h, Nat.zero_le _, fun _ => Nat.zero_le _⟩
  · rintro later m e m' - ih ⟨-, rfl⟩ hno
    obtain ⟨s, hs, hstretch⟩ := ih fun e he => hno e (List.mem_append_left _ he)
    obtain ⟨s', hs', hmoves⟩ := perform_moves hs e
    have hfailures : ∀ mark ∈ m.marks e, mark.isFailure = true := by
      have hquiet : m.interrupted e = false := hno (m, e) (by simp)
      intro mark hmark
      have hmarks := List.any_eq_false.mp hquiet mark hmark
      simpa using hmarks
    refine ⟨s', hs', ?_⟩
    rw [List.countP_append, List.countP_singleton]
    exact hmoves.stretch hstretch hfailures

/-- A tick that reads the newest finished sync for the first time, and free, counts the failure it sees. -/
theorem failsOpenly_of_seesFailure (h : w.Shows s) (hsees : w.seesNewest e = true) (honce : w.seesOnce e = true)
    (hfailure : w.seesFailure e = true) : w.failsOpenly e = true := by
  cases e with
  | tick t =>
    unfold SyncWorld.seesFailure at hfailure
    simp only [Bool.and_eq_true, Bool.or_eq_true] at hfailure
    obtain ⟨⟨hon, hsome⟩, hfailure⟩ := hfailure
    obtain ⟨row, hdriving⟩ := Option.isSome_iff_exists.mp hsome
    have hmarks : w.marks (.tick t) =
        tickMarks row.2.toSharedSchedule (w.lastAttempt t.unreadable) (w.asks (.tick t)) := by
      dsimp only [SyncWorld.marks]
      rw [if_pos hon, hdriving]
    unfold SyncWorld.failsOpenly
    rw [Bool.and_eq_true, hmarks, List.any_eq_true]
    rcases hfailure with hnewest | hstart
    · -- the newest sync failed, and was not counted before
      obtain ⟨sync, hsync, hfails⟩ := (Option.any_eq_true _ _).mp hnewest
      dsimp only [SyncWorld.seesOnce] at honce
      rw [hsync, Option.all_some, hfails, Bool.not_true, Bool.false_or, Bool.and_eq_true, hdriving,
        Option.all_some] at honce
      refine ⟨honce.1, .counted sync, ?_, hfails⟩
      have hread : w.lastAttempt t.unreadable = some sync :=
        (lastAttempt_of_reaches hsees).trans hsync
      have hun : uncounted row.2.toSharedSchedule (w.lastAttempt t.unreadable) = some sync := by
        rw [hread]
        exact Option.filter_eq_some_iff.mpr ⟨rfl, honce.2⟩
      unfold tickMarks
      rw [hun]
      exact List.mem_append_left _ List.mem_cons_self
    · -- a start is asked for only where the register is free
      obtain ⟨s', -, hmoves⟩ := perform_moves h (.tick t)
      refine ⟨?_, .startFailed, ?_, rfl⟩
      · generalize w.marks (.tick t) = marks at hmoves
        generalize w.asks (.tick t) = asked at hmoves hstart
        cases hmoves with
        | kept => cases hstart
        | ticked hdriven =>
          cases hdriven with
          | skipped hwhy => cases hstart
          | pausing reason => cases hstart
          | asked answer hnone hfree hwarm hfew =>
            show (!t.busy) = true
            rw [hfree]
            rfl
      · unfold tickMarks
        rw [if_pos hstart]
        exact List.mem_append_right _ List.mem_cons_self
  | _ => cases hfailure

/-! ## 6. Whole histories -/

/-- Over every history of claims, finished syncs, ticks and switches the rows agree, the counters are the
    tally of what was counted, a pause ends with a resume only, and at most `FAILURES_BEFORE_PAUSE` ticks
    that do not find the register busy count a failure before a pause is recorded.  Where the steps read
    the newest finished sync, it is counted once, a start waits out its cooldown, and ticks that see each
    failure once see as few. -/
theorem auto_sync_contained {hist : List (SyncWorld × SyncEvent)} {w : SyncWorld}
    (hrun : Run SyncStep SyncWorld.empty hist w) :
    Throughout (fun m => Agree Schedule.toSharedSchedule m.schedules) hist w ∧
      (∀ row ∈ w.schedules.values, row.counters = (marksOf hist).foldl Mark.tally (0, 0)) ∧
      ((∀ e ∈ hist, e.1.seesNewest e.2 = true) → (countedIds hist).Nodup) ∧
      (∀ e ∈ hist, e.1.seesNewest e.2 = true → Cooled e) ∧
      ∀ later w', Run SyncStep w later w' →
        (w.Paused → (∀ e ∈ later, e.1.resumes e.2 = false) →
          w'.Paused ∧ ∀ e ∈ later, e.1.asks e.2 = none) ∧
        ((∀ e ∈ later, e.1.interrupted e.2 = false) → ¬ w'.Paused →
          (later.countP fun e => e.1.failsOpenly e.2) ≤ failuresBeforePause ∧
          ((∀ e ∈ later, e.1.seesNewest e.2 = true ∧ e.1.seesOnce e.2 = true) →
            (later.countP fun e => e.1.seesFailure e.2) ≤ failuresBeforePause)) := by
  have hshown := run_shows shows_empty hrun
  obtain ⟨s, hshows, hcounters, honce⟩ := run_tallied hrun
  refine ⟨⟨fun e he => ?_, hshows.carries.agree⟩, fun row hrow => ?_, fun hsees => (honce hsees).nodup,
    fun e he hsees => ?_, fun later w' hlater => ⟨fun hpaused hno => ?_, fun hno hunpaused => ?_⟩⟩
  · obtain ⟨s', hs'⟩ := hshown.1 e he
    exact hs'.carries.agree
  · rw [← hcounters, ← hshows.carries row hrow]
  · obtain ⟨s', hs'⟩ := hshown.1 e he
    exact cooled_of_shows hs' hsees
  · obtain ⟨⟨s', hs', hsome⟩, hquiet⟩ := run_paused hshows hpaused hlater hno
    exact ⟨hs'.paused_iff.mpr hsome, hquiet⟩
  · obtain ⟨s', hs', hstretch⟩ := run_stretch hshows hlater hno
    have hopenly : (later.countP fun e => e.1.failsOpenly e.2) ≤ failuresBeforePause := by
      apply hstretch.2
      rw [hs'.paused_iff, Bool.not_eq_true, Option.isSome_eq_false_iff] at hunpaused
      exact Option.isNone_iff_eq_none.mp hunpaused
    refine ⟨hopenly, fun hreads => le_trans ?_ hopenly⟩
    apply List.countP_mono_left
    intro e he hfailure
    obtain ⟨s'', hs''⟩ := (run_shows hshows hlater).1 e he
    exact failsOpenly_of_seesFailure hs'' (hreads e he).1 (hreads e he).2 hfailure

theorem run_events (w : SyncWorld) (events : List SyncEvent)
    (h : ∀ e ∈ performed SyncWorld.perform w events, e.1.Allowed e.2) :
    Run SyncStep w (performed SyncWorld.perform w events) (events.foldl SyncWorld.perform w) :=
  run_performed events w h

def fakeSync (name : String) (finishedAt : ℤ) : FinishedSync :=
  ⟨name.toList, .failed, none, none, some finishedAt⟩

def fakeTick (now : ℤ) (busy : Bool) : Tick := ⟨now, true, busy, 107000000, 400000000, .started, []⟩

def fakeSwitchOn : SwitchRequest :=
  ⟨"p".toList, "u".toList, "c".toList, .on, 0, true, true, 107000000, 400000000, []⟩

/-- Two failed syncs: started by the first tick, by hand, and paused by the last tick. -/
def twoFailures : List SyncEvent :=
  [.switch fakeSwitchOn, .tick (fakeTick 0 false), .claimSync "a".toList, .finish (fakeSync "a" 0),
    .tick (fakeTick (hours 1) false), .claimSync "b".toList, .finish (fakeSync "b" (hours 1)),
    .tick (fakeTick (hours 2) false)]

/-- A throttled sync, seen by one tick; ten plain refreshes after it, and the next tick. -/
def hiddenThrottle : List SyncEvent :=
  [.switch fakeSwitchOn, .claimSync "a".toList,
    .finish ⟨"a".toList, .completed, some .throttled, none, some 0⟩, .tick (fakeTick (hours 1) false)] ++
    List.replicate 10 .claimRefresh ++ [.tick (fakeTick (hours 2) false)]

theorem auto_sync_contained_twoFailures :
    (∀ row ∈ (twoFailures.foldl SyncWorld.perform .empty).schedules.values,
        row.counters = (marksOf (performed SyncWorld.perform .empty twoFailures)).foldl Mark.tally
          (0, 0)) ∧
      (countedIds (performed SyncWorld.perform .empty twoFailures)).Nodup ∧
      (∀ e ∈ performed SyncWorld.perform .empty twoFailures, Cooled e) ∧
      (twoFailures.foldl SyncWorld.perform .empty).Paused := by
  have hlaws := auto_sync_contained (run_events .empty twoFailures (by decide +kernel))
  have hsees : ∀ e ∈ performed SyncWorld.perform .empty twoFailures, e.1.seesNewest e.2 = true := by
    decide +kernel
  exact ⟨hlaws.2.1, hlaws.2.2.1 hsees, fun e he => hlaws.2.2.2.1 e he (hsees e he), by decide +kernel⟩

/-- Ten refreshes hide a throttled sync: the next tick starts inside its cooldown. -/
theorem not_cooled_hiddenThrottle : ∃ hist w, Run SyncStep SyncWorld.empty hist w ∧ ∃ e ∈ hist, ¬ Cooled e := by
  have hstarts : ((hiddenThrottle.take 14).foldl SyncWorld.perform .empty).asks
      (.tick (fakeTick (hours 2) false)) ≠ none := by decide +kernel
  have hnewest : ((hiddenThrottle.take 14).foldl SyncWorld.perform .empty).newestFinished =
      some ⟨"a".toList, .completed, some .throttled, none, some 0⟩ := by decide +kernel
  have hwaits : ∃ row ∈ (((hiddenThrottle.take 14).foldl SyncWorld.perform .empty).perform
      (.tick (fakeTick (hours 2) false))).schedules.values,
        ¬ 0 + cooldown row.consecutiveThrottles ≤ hours 2 := by decide +kernel
  refine ⟨_, _, run_events .empty hiddenThrottle (by decide +kernel),
    ((hiddenThrottle.take 14).foldl SyncWorld.perform .empty, .tick (fakeTick (hours 2) false)),
    List.mem_of_getElem? (i := 14) rfl, fun hcooled => ?_⟩
  obtain ⟨row, hrow, hshort⟩ := hwaits
  exact hshort (hcooled _ _ 0 rfl hstarts hnewest rfl rfl row hrow)

end Milo.Catalog
