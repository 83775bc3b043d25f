import Milo.Catalog.Runs
import Milo.Reasoning.Replicas

/-!
# AutoSync — when the register sync starts by itself

One schedule row for each project; the sync is global, so every row carries the same pause and the same
counters.  A tick looks for the newest finished sync among the newest directory groups and decides, and
the owner's switch turns a row on or off or leaves a pause.  Instants are microseconds.
-/

namespace Milo.Catalog

-- Of the orders Mathlib gives the integers, the one that computes.
attribute [local instance (2000)] LinearOrder.toPartialOrder

open Milo.Reasoning

/-! ## 1. The rows -/

inductive PauseReason
  | capacity
  | failing
  deriving DecidableEq, Repr

/-- How a sync says it stopped; a crashed one says nothing. -/
inductive SyncStop
  | complete
  | budget
  | throttled
  | capacity
  deriving DecidableEq, Repr

/-- What `last_attempt` reads of a finished sync. -/
structure FinishedSync where
  runId : Text
  status : RunStatus
  stop : Option SyncStop
  backlog : Option (ℕ × ℕ)
  finishedAt : Option ℤ
  deriving DecidableEq

/-- A directory group, with what its run has come to: a plain refresh (or a group without a run), a
    sync under way, or a finished sync. -/
inductive DirectoryGroup
  | refresh
  | syncing (runId : Text)
  | synced (sync : FinishedSync)
  deriving DecidableEq

/-- `SYNC_LOOKBACK`: how many directory groups are read for the last sync. -/
def syncLookback : ℕ := 10

def DirectoryGroup.finished : DirectoryGroup → Option FinishedSync
  | .synced sync => some sync
  | _ => none

/-- `last_attempt`, the groups newest first.  A run in `unreadable` is one whose read raises: `_run`
    answers with nothing, and the search goes on. -/
def lastAttempt (groups : List DirectoryGroup) (unreadable : List Text) : Option FinishedSync :=
  (groups.take syncLookback).findSome? fun group =>
    group.finished.filter fun sync => decide (sync.runId ∉ unreadable)

inductive SyncAction
  | start
  | skip
  | pause
  deriving DecidableEq, Repr

inductive SyncReason
  | registerDisabled
  | autoOff
  | paused (reason : PauseReason)
  | busy
  | coolingDown
  | first
  | backlog
  | dailyCheck
  | notDue
  | startRefused
  | refused (code : Text)
  deriving DecidableEq

/-- The part of a tick's record that is kept. -/
structure TickRecord where
  tickedAt : ℤ
  decision : SyncAction
  reason : SyncReason
  backlog : Option (ℕ × ℕ)
  deriving DecidableEq

/-- `_SHARED`: the columns every row carries a copy of. -/
structure SharedSchedule where
  pausedReason : Option PauseReason := none
  pausedAt : Option ℤ := none
  resumedAt : Option ℤ := none
  consecutiveThrottles : ℕ := 0
  consecutiveFailures : ℕ := 0
  countedRunId : Option Text := none
  deriving DecidableEq

/-- A row of `register_sync_schedules`. -/
structure Schedule extends SharedSchedule where
  enabled : Bool := false
  enabledBy : Option Text := none
  conversationId : Option Text := none
  enabledAt : Option ℤ := none
  lastTick : Option TickRecord := none
  deriving DecidableEq

abbrev Schedules := Dict Text Schedule

/-- `register_sync_schedules`: every row, by project. -/
def registerSyncSchedules (table : Schedules) : List (Text × Schedule) :=
  table.entries.insertionSort fun a b => a.1 ≤ b.1

/-! ## 2. Counting and deciding -/

/-- `_SUCCEEDED`. -/
def FinishedSync.succeeded (sync : FinishedSync) : Bool := sync.status.isFinished

/-- The newest finished sync, when it is not the one already counted. -/
def uncounted (schedule : SharedSchedule) (last : Option FinishedSync) : Option FinishedSync :=
  last.filter fun sync => decide (schedule.countedRunId ≠ some sync.runId)

/-- What a sync not counted before adds to the counters. -/
def SharedSchedule.count (schedule : SharedSchedule) (sync : FinishedSync) : SharedSchedule :=
  if sync.stop = some .throttled then
    { schedule with
      countedRunId := some sync.runId
      consecutiveThrottles := schedule.consecutiveThrottles + 1 }
  else
    { schedule with
      countedRunId := some sync.runId
      consecutiveThrottles := 0
      consecutiveFailures := if sync.succeeded then 0 else schedule.consecutiveFailures + 1 }

def observe (schedule : SharedSchedule) (last : Option FinishedSync) : SharedSchedule :=
  match uncounted schedule last with
  | none => schedule
  | some sync => schedule.count sync

def hours (n : ℤ) : ℤ := n * 3600000000

def backlogInterval : ℤ := hours 1
def dailyInterval : ℤ := hours 24
def throttleCooldowns : List ℤ := [hours 6, hours 12, hours 24, hours 72]
def failuresBeforePause : ℕ := 2

/-- No throttle reads as one; past the table's end its last entry stays. -/
def cooldown (throttles : ℕ) : ℤ :=
  throttleCooldowns.getD (min (max 1 throttles) throttleCooldowns.length - 1) 0

/-- `fresh`: the sync finished after the last resume. -/
def FinishedSync.isFresh (sync : FinishedSync) (resumedAt : Option ℤ) : Bool :=
  match resumedAt, sync.finishedAt with
  | some resumed, some finished => decide (resumed < finished)
  | _, _ => true

/-- The newest sync was throttled, and its cooldown is not over. -/
def SharedSchedule.isCooling (schedule : SharedSchedule) (last : Option FinishedSync) (now : ℤ) : Bool :=
  last.any fun sync => decide (sync.stop = some .throttled) &&
    sync.finishedAt.any fun finished => decide (now < finished + cooldown schedule.consecutiveThrottles)

/-- What `request_sync` answers. -/
inductive StartAnswer
  | started
  | refused (code : Text)
  deriving DecidableEq

/-- What a tick reads besides the rows and the groups, how its start would be answered, and which runs
    it fails to read. -/
structure Tick where
  now : ℤ
  registerOn : Bool
  busy : Bool
  dbBytes : ℕ
  limitBytes : ℕ
  answer : StartAnswer
  unreadable : List Text := []
  deriving DecidableEq

/-- `decide` for a row that is on: the first rule that applies. -/
def decideEnabled (schedule : SharedSchedule) (last : Option FinishedSync) (t : Tick) :
    SyncAction × SyncReason :=
  match schedule.pausedReason with
  | some reason => (.skip, .paused reason)
  | none =>
    if t.busy then (.skip, .busy)
    else if schedule.isCooling last t.now then (.skip, .coolingDown)
    else if (last.any fun sync =>
          sync.isFresh schedule.resumedAt && decide (sync.stop = some .capacity)) ||
        decide (t.limitBytes ≤ t.dbBytes) then
      (.pause, .paused .capacity)
    else if failuresBeforePause ≤ schedule.consecutiveFailures then (.pause, .paused .failing)
    else
      match last.bind fun sync => sync.finishedAt.map fun finished => (sync, finished) with
      | none => (.start, .first)
      | some (sync, finished) =>
        let left := sync.backlog.map Prod.fst
        if left ≠ some 0 ∧ backlogInterval ≤ t.now - finished then (.start, .backlog)
        else if left = some 0 ∧ dailyInterval ≤ t.now - finished then (.start, .dailyCheck)
        else (.skip, .notDue)

/-- `decide`, the three ways a tick calls it: the register off, no row on, and a row that is on with
    what was observed. -/
def decideTick (schedule : Option Schedule) (last : Option FinishedSync) (t : Tick) :
    SyncAction × SyncReason :=
  if t.registerOn = false then (.skip, .registerDisabled)
  else
    match schedule with
    | none => (.skip, .autoOff)
    | some row =>
      if row.enabled then decideEnabled row.toSharedSchedule last t else (.skip, .autoOff)

/-! ## 3. A tick -/

/-- An absent instant sorts before every instant. -/
def instantKey (instant : Option ℤ) : WithBot ℤ := instant

/-- `_driving`: the row switched on earliest. -/
def driving (rows : List (Text × Schedule)) : Option (Text × Schedule) :=
  (rows.filter fun row => row.2.enabled).argmin fun row => instantKey row.2.enabledAt

/-- `_shared`: a paused row's state if any, else that of the row ticked last. -/
def sharedSource (rows : List (Text × Schedule)) : Option (Text × Schedule) :=
  (rows.find? fun row => row.2.pausedReason.isSome).orElse fun _ =>
    rows.argmax fun row => instantKey (row.2.lastTick.map TickRecord.tickedAt)

/-- Only what the source holds is written: a column it leaves empty keeps the row's own value. -/
def SharedSchedule.over (source own : SharedSchedule) : SharedSchedule where
  pausedReason := source.pausedReason.or own.pausedReason
  pausedAt := source.pausedAt.or own.pausedAt
  resumedAt := source.resumedAt.or own.resumedAt
  consecutiveThrottles := source.consecutiveThrottles
  consecutiveFailures := source.consecutiveFailures
  countedRunId := source.countedRunId.or own.countedRunId

def triggerFailed : Text := "CATALOG_REGISTER_TRIGGER_FAILED".toList

def registerBusyCode : Text := "CATALOG_REGISTER_BUSY".toList

/-- `_CODE`. -/
def isCode (code : Text) : Bool :=
  match code with
  | [] => false
  | c :: rest =>
    c.isUpper && decide (2 ≤ rest.length ∧ rest.length ≤ 79) &&
      rest.all fun c => c.isUpper || c.isDigit || c == '_'

/-- The reason a refused start is recorded under. -/
def refusalReason (code : Text) : SyncReason :=
  if code = registerBusyCode then .busy
  else if isCode code then .refused code
  else .startRefused

/-- A start that never ran is a failure. -/
def SharedSchedule.afterStart (schedule : SharedSchedule) : StartAnswer → SharedSchedule
  | .started => schedule
  | .refused code =>
    if code = triggerFailed then
      { schedule with consecutiveFailures := schedule.consecutiveFailures + 1 }
    else schedule

/-- What a tick did: the rows it left, its record, and the answer of the start it asked for, if it
    asked for one. -/
structure Ticked where
  schedules : Schedules
  record : TickRecord
  asked : Option StartAnswer

/-- The shared columns written (if any) and the record, in every row. -/
def stampRows (table : Schedules) (state : Option SharedSchedule) (record : TickRecord) : Schedules :=
  table.mapValues fun _ row =>
    { row with toSharedSchedule := state.getD row.toSharedSchedule, lastTick := some record }

/-- What the driving row's tick decides: what it writes, its decision and reason, and the answer of
    its start. -/
def tickDriving (table : Schedules) (project : Text) (row : Schedule) (last : Option FinishedSync)
    (t : Tick) : SharedSchedule × SyncAction × SyncReason × Option StartAnswer :=
  let schedule := observe row.toSharedSchedule last
  let (action, reason) := decideTick (some { row with toSharedSchedule := schedule }) last t
  match action, reason with
  | .pause, .paused reason =>
    ({ schedule with pausedReason := some reason, pausedAt := some t.now }, .pause, .paused reason, none)
  | .start, reason =>
    -- the owner may have turned it off meanwhile
    if (table.get? project).all fun current => !current.enabled || current.pausedReason.isSome then
      (schedule, .skip, .autoOff, none)
    else
      match t.answer with
      | .started => (schedule, .start, reason, some .started)
      | .refused code =>
        (schedule.afterStart (.refused code), .skip, refusalReason code, some (.refused code))
  | action, reason => (schedule, action, reason, none)

def tick (table : Schedules) (last : Option FinishedSync) (t : Tick) : Ticked :=
  let record (action : SyncAction) (reason : SyncReason) (backlog : Option (ℕ × ℕ)) : TickRecord :=
    { tickedAt := t.now, decision := if action = .start then .start else .skip, reason, backlog }
  match t.registerOn, driving (registerSyncSchedules table) with
  | true, some (project, row) =>
    let (state, action, reason, asked) := tickDriving table project row last t
    let record := record action reason (last.bind FinishedSync.backlog)
    -- a resume pressed during this tick wins
    let kept := (table.get? project).bind fun current => current.resumedAt
    if kept = row.resumedAt then ⟨stampRows table (some state) record, record, asked⟩
    else ⟨stampRows table none record, record, asked⟩
  | _, row =>
    let (action, reason) := decideTick (row.map Prod.snd) none t
    ⟨stampRows table none (record action reason none), record action reason none, none⟩

/-! ## 4. What a tick decides -/

@[simp] theorem observe_pausedReason (schedule : SharedSchedule) (last : Option FinishedSync) :
    (observe schedule last).pausedReason = schedule.pausedReason := by
  unfold observe
  split
  · rfl
  · rw [SharedSchedule.count]
    split <;> rfl

@[simp] theorem afterStart_countedRunId (schedule : SharedSchedule) (answer : StartAnswer) :
    (schedule.afterStart answer).countedRunId = schedule.countedRunId := by
  cases answer with
  | started => rfl
  | refused code =>
    rw [SharedSchedule.afterStart]
    split <;> rfl

@[simp] theorem afterStart_consecutiveThrottles (schedule : SharedSchedule) (answer : StartAnswer) :
    (schedule.afterStart answer).consecutiveThrottles = schedule.consecutiveThrottles := by
  cases answer with
  | started => rfl
  | refused code =>
    rw [SharedSchedule.afterStart]
    split <;> rfl

/-- Every way a row that is on can be decided, with the rules that did not apply. -/
inductive Decided (schedule : SharedSchedule) (last : Option FinishedSync) (t : Tick) :
    SyncAction × SyncReason → Prop
  | skipped (reason : SyncReason) :
      (schedule.pausedReason.isSome ∨ t.busy = true ∨ schedule.isCooling last t.now = true ∨
        schedule.consecutiveFailures < failuresBeforePause) →
      Decided schedule last t (.skip, reason)
  | pausing (reason : PauseReason) :
      Decided schedule last t (.pause, .paused reason)
  | starting (reason : SyncReason) :
      schedule.pausedReason = none → t.busy = false → schedule.isCooling last t.now = false →
      schedule.consecutiveFailures < failuresBeforePause →
      Decided schedule last t (.start, reason)

theorem decideEnabled_decided (schedule : SharedSchedule) (last : Option FinishedSync) (t : Tick) :
    Decided schedule last t (decideEnabled schedule last t) := by
  unfold decideEnabled
  split
  · rename_i reason hpaused
    exact .skipped _ (Or.inl (by rw [hpaused]; rfl))
  rename_i hpaused
  split
  · rename_i hbusy
    exact .skipped _ (Or.inr (Or.inl hbusy))
  rename_i hbusy
  have hfree : t.busy = false := by simpa using hbusy
  split
  · rename_i hcooling
    exact .skipped _ (Or.inr (Or.inr (Or.inl hcooling)))
  rename_i hcooling
  split
  · exact .pausing _
  split
  · exact .pausing _
  rename_i hfailures
  have hfew : schedule.consecutiveFailures < failuresBeforePause := by omega
  have hwarm : schedule.isCooling last t.now = false := by simpa using hcooling
  split
  · exact .starting _ hpaused hfree hwarm hfew
  · dsimp only
    split
    · exact .starting _ hpaused hfree hwarm hfew
    split
    · exact .starting _ hpaused hfree hwarm hfew
    · exact .skipped _ (Or.inr (Or.inr (Or.inr hfew)))

/-- What a tick of a row that is on writes and asks for, by what it observed. -/
inductive DrivenTick (observed : SharedSchedule) (last : Option FinishedSync) (t : Tick) :
    SharedSchedule → Option StartAnswer → Prop
  | skipped :
      (observed.pausedReason.isSome ∨ t.busy = true ∨ observed.isCooling last t.now = true ∨
        observed.consecutiveFailures < failuresBeforePause) →
      DrivenTick observed last t observed none
  | pausing (reason : PauseReason) :
      DrivenTick observed last t
        { observed with pausedReason := some reason, pausedAt := some t.now } none
  | asked (answer : StartAnswer) :
      observed.pausedReason = none → t.busy = false → observed.isCooling last t.now = false →
      observed.consecutiveFailures < failuresBeforePause →
      DrivenTick observed last t (observed.afterStart answer) (some answer)

theorem tickDriving_driven {table : Schedules} {project : Text} {row : Schedule}
    {last : Option FinishedSync} {t : Tick} (hon : t.registerOn = true) (hrow : row.enabled = true)
    (hget : table.get? project = some row) :
    DrivenTick (observe row.toSharedSchedule last) last t
      (tickDriving table project row last t).1 (tickDriving table project row last t).2.2.2 := by
  have hdecide : decideTick
      (some { row with toSharedSchedule := observe row.toSharedSchedule last }) last t =
      decideEnabled (observe row.toSharedSchedule last) last t := by
    rw [decideTick, if_neg (by simp [hon])]
    show (if row.enabled = true then _ else _) = _
    rw [if_pos hrow]
  have hdecided := decideEnabled_decided (observe row.toSharedSchedule last) last t
  unfold tickDriving
  dsimp only
  rw [hdecide]
  generalize hchoice : decideEnabled (observe row.toSharedSchedule last) last t = choice at hdecided ⊢
  cases hdecided with
  | skipped reason hwhy => exact .skipped hwhy
  | pausing reason => exact .pausing reason
  | starting reason hpaused hfree hwarm hfew =>
    -- the row read again is the row the tick began with
    have hstill : ((table.get? project).all fun current =>
        !current.enabled || current.pausedReason.isSome) = false := by
      rw [hget]
      rw [observe_pausedReason] at hpaused
      simp [hrow, hpaused]
    dsimp only
    rw [if_neg (by simp [hstill])]
    cases hanswer : t.answer with
    | started => exact .asked .started hpaused hfree hwarm hfew
    | refused code => exact .asked (.refused code) hpaused hfree hwarm hfew

theorem mem_registerSyncSchedules {table : Schedules} {row : Text × Schedule} :
    row ∈ registerSyncSchedules table ↔ row ∈ table.entries :=
  List.mem_insertionSort _

variable {rows : List (Text × Schedule)}

theorem driving_eq_some {row : Text × Schedule} (h : driving rows = some row) :
    row ∈ rows ∧ row.2.enabled = true := by
  have hmem := List.argmin_mem h
  exact ⟨List.mem_of_mem_filter hmem, by simpa using (List.mem_filter.mp hmem).2⟩

theorem mem_of_sharedSource {source : Text × Schedule} (h : sharedSource rows = some source) : source ∈ rows := by
  unfold sharedSource at h
  cases hfind : rows.find? fun row => row.2.pausedReason.isSome with
  | some row =>
    rw [hfind] at h
    cases h
    exact List.mem_of_find?_eq_some hfind
  | none =>
    rw [hfind] at h
    exact List.argmax_mem h

theorem eq_nil_of_sharedSource (h : sharedSource rows = none) : rows = [] := by
  unfold sharedSource at h
  cases hfind : rows.find? fun row => row.2.pausedReason.isSome with
  | some row =>
    rw [hfind] at h
    cases h
  | none =>
    rw [hfind] at h
    exact List.argmax_eq_none.mp h

/-- Every way a tick can end. -/
inductive TickEffect (table : Schedules) (last : Option FinishedSync) (t : Tick) : Ticked → Prop
  | idle (record : TickRecord) :
      (t.registerOn = false ∨ driving (registerSyncSchedules table) = none) →
      TickEffect table last t ⟨stampRows table none record, record, none⟩
  | driven {project : Text} {row : Schedule} {state : SharedSchedule} {asked : Option StartAnswer}
      (record : TickRecord) :
      t.registerOn = true → driving (registerSyncSchedules table) = some (project, row) →
      table.get? project = some row →
      DrivenTick (observe row.toSharedSchedule last) last t state asked →
      TickEffect table last t ⟨stampRows table (some state) record, record, asked⟩

theorem tick_effect (table : Schedules) (last : Option FinishedSync) (t : Tick) :
    TickEffect table last t (tick table last t) := by
  unfold tick
  dsimp only
  split
  · rename_i project row hon hdriving
    have hrow := driving_eq_some hdriving
    have hget : table.get? project = some row :=
      Dict.get?_eq_some.mpr (mem_registerSyncSchedules.mp hrow.1)
    rw [if_pos (by rw [hget]; rfl)]
    exact .driven _ hon hdriving hget (tickDriving_driven hon hrow.2 hget)
  · rename_i hidle
    refine .idle _ ?_
    cases hon : t.registerOn with
    | false => exact Or.inl rfl
    | true =>
      cases hdriving : driving (registerSyncSchedules table) with
      | none => exact Or.inr rfl
      | some row => exact absurd hdriving (hidle row.1 row.2 hon)

/-! ## 5. The owner's switch -/

inductive SwitchAction
  | on
  | off
  | resume
  | other (name : Text)
  deriving DecidableEq

structure SwitchRequest where
  project : Text
  user : Text
  conversation : Text
  action : SwitchAction
  now : ℤ
  registerOn : Bool
  authorized : Bool
  dbBytes : ℕ
  limitBytes : ℕ
  unreadable : List Text := []
  deriving DecidableEq

inductive SwitchError
  | registerDisabled
  | conversationUnavailable
  | resumeOverCapacity
  | switchInvalid
  deriving DecidableEq, Repr

/-- What `on` writes into a project's row. -/
def switchOn (table : Schedules) (r : SwitchRequest) : Schedule :=
  let own := (table.get? r.project).getD {}
  { own with
    toSharedSchedule :=
      match sharedSource (registerSyncSchedules table) with
      | none => own.toSharedSchedule
      | some source => source.2.toSharedSchedule.over own.toSharedSchedule
    enabled := true
    enabledBy := some r.user
    conversationId := some r.conversation
    enabledAt := some r.now }

/-- What a resume writes into every row. -/
def SharedSchedule.resumed (schedule : SharedSchedule) (last : Option FinishedSync) (now : ℤ) :
    SharedSchedule :=
  { schedule with
    pausedReason := none
    pausedAt := none
    resumedAt := some now
    consecutiveFailures := 0
    countedRunId := (last.map FinishedSync.runId).or schedule.countedRunId }

def setSwitch (table : Schedules) (last : Option FinishedSync) (r : SwitchRequest) :
    Except SwitchError Schedules :=
  if r.registerOn = false then .error .registerDisabled
  else if r.authorized = false then .error .conversationUnavailable
  else
    match r.action with
    | .on => .ok (table.set r.project (switchOn table r))
    | .off =>
      match table.get? r.project with
      | none => .ok table
      | some row => .ok (table.set r.project { row with enabled := false })
    | .resume =>
      match (table.get? r.project).bind fun row => row.pausedReason with
      | none => .ok table
      | some reason =>
        if reason = .capacity ∧ r.limitBytes ≤ r.dbBytes then .error .resumeOverCapacity
        else
          .ok (table.mapValues fun _ row =>
            { row with toSharedSchedule := row.toSharedSchedule.resumed last r.now })
    | .other _ => .error .switchInvalid

/-- Every way a switch can be answered. -/
inductive SwitchEffect (table : Schedules) (last : Option FinishedSync) (r : SwitchRequest) :
    Except SwitchError Schedules → Prop
  | refused (error : SwitchError) : SwitchEffect table last r (.error error)
  | unchanged :
      (r.action = .resume → (table.get? r.project).bind (fun row => row.pausedReason) = none) →
      SwitchEffect table last r (.ok table)
  | on : r.action = .on → SwitchEffect table last r (.ok (table.set r.project (switchOn table r)))
  | off {row : Schedule} : r.action = .off → table.get? r.project = some row →
      SwitchEffect table last r (.ok (table.set r.project { row with enabled := false }))
  | resumed {row : Schedule} : r.action = .resume → table.get? r.project = some row →
      row.pausedReason.isSome = true →
      SwitchEffect table last r (.ok (table.mapValues fun _ row =>
        { row with toSharedSchedule := row.toSharedSchedule.resumed last r.now }))

theorem setSwitch_effect (table : Schedules) (last : Option FinishedSync) (r : SwitchRequest) :
    SwitchEffect table last r (setSwitch table last r) := by
  unfold setSwitch
  split
  · exact .refused _
  split
  · exact .refused _
  cases haction : r.action with
  | on => exact .on haction
  | off =>
    dsimp only
    cases hget : table.get? r.project with
    | none => exact .unchanged (by simp [haction])
    | some row => exact .off haction hget
  | resume =>
    dsimp only
    split
    · rename_i hnone
      exact .unchanged fun _ => hnone
    · rename_i reason hpaused
      split
      · exact .refused _
      · obtain ⟨row, hget, hreason⟩ := Option.bind_eq_some_iff.mp hpaused
        exact .resumed haction hget (by rw [hreason]; rfl)
  | other name => exact .refused _

end Milo.Catalog
