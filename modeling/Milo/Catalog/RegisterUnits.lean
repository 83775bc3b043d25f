import Milo.Catalog.RegisterCaptures

/-!
# RegisterUnits — the units of the register over every order of requests and reports

Requests claim units, triggers record their outcome however late, jobs report under their leases, and
captures and runs go on beside them.
-/

namespace Milo.Catalog

open Milo.Reasoning Milo.Python Milo.Finalization

/-! ## 1. Histories -/

inductive RegisterEvent
  | directory (now : ℤ) (id resourceId : Text) (fetchedAt : ℤ) (units : List (Text × ℕ))
  | request (now : ℤ) (groupId : Text) (newId : Text → Text) (databaseBytes : ℤ)
      (request : CaptureRequest)
  | refresh (now : ℤ) (groupId requestedBy : Text) (graceSeconds : ℤ)
  | trigger (now : ℤ) (groupId : Text) (runId : Option Text) (state : TriggerState)
      (executionName : Option Text)
  | report (call : WorkerCall) (measured : ℤ) (report : UnitReport)
  | archive (call : WorkerCall) (report : ArchiveReport)
  | capture (event : CaptureEvent)

/-- The worker call of an event. -/
def RegisterEvent.call? : RegisterEvent → Option WorkerCall
  | report call _ _ | archive call _ => some call
  | capture event => event.call?
  | directory _ _ _ _ _ | request _ _ _ _ _ | refresh _ _ _ _ | trigger _ _ _ _ _ => none

namespace RegisterStore

/-- The store a request leaves: a refused one changes nothing. -/
def kept {α : Type} (s : RegisterStore) : Except String (RegisterStore × α) → RegisterStore
  | .ok (s', _) => s'
  | .error _ => s

variable (db : CaptureDatabase) (uriValid : Text → Bool)

def perform (s : RegisterStore) : RegisterEvent → RegisterStore
  | .directory now id resourceId fetchedAt units =>
    s.kept (s.recordRegisterDirectory db now id resourceId fetchedAt units)
  | .request now groupId newId databaseBytes request =>
    s.kept (s.requestRegisterCapture now groupId newId databaseBytes request)
  | .refresh now groupId requestedBy graceSeconds =>
    s.kept (s.requestRegisterDirectoryRefresh now groupId requestedBy graceSeconds)
  | .trigger now groupId runId state executionName =>
    s.kept (s.recordRegisterCaptureTrigger now groupId runId state executionName)
  | .report call measured report => s.kept (s.recordRegisterUnitStatus call measured report)
  | .archive call report => s.kept (s.recordRegisterSnapshotArchive uriValid call report)
  | .capture event => { s with catalog := s.catalog.perform db event }

/-- Any event may come in any state. -/
abbrev RegisterStep : RegisterStore → RegisterEvent → RegisterStore → Prop :=
  Performs (fun _ _ => True) (perform db uriValid)

/-- Nothing has been captured or requested. -/
structure Unused (s : RegisterStore) : Prop where
  catalog : s.catalog.Unused
  units : s.units.entries = []

/-! ## 2. What one event can do -/

/-- What a request that claims units writes, and what it was held to. -/
structure Claimed (s : RegisterStore) (now : ℤ) (groupId : Text) (newId : Text → Text)
    (databaseBytes : ℤ) (request : CaptureRequest) (s' : RegisterStore)
    (new : List ((Text × Text) × ℕ)) : Prop where
  distinct : (new.map Prod.fst).Nodup
  startable : ∀ e ∈ new, s.startable now (graceOf request.graceSeconds) e.1 = true
  directory : ∃ latest, s.latestDirectory? = some latest ∧
    ∀ e ∈ new, latest.units.lookup e.1.2 = some e.2
  fresh : groupId ∉ s.groups.keys
  capacity : databaseBytes +
    ((new.map Prod.snd).sum +
      s.inFlightRows now (graceOf request.graceSeconds) (new.map Prod.fst) : ℕ) *
        request.bytesPerRow ≤ request.capacityLimitBytes
  stored : s' =
    { s with
      groups := s.groups.set groupId
        { kind := .capture
          registerVersion := some request.registerVersion
          requestedBy := request.requestedBy
          expectedRows := (new.map Prod.snd).sum
          claimedAt := now }
      units := s.units.setAll
        (new.map fun e => (e.1, s.claimedUnit now groupId e.1 (newId e.1.2) e.2)) }

/-- The group a refresh claims. -/
def refreshGroup (now : ℤ) (requestedBy : Text) : RegisterGroup :=
  { kind := .directory
    registerVersion := none
    requestedBy := requestedBy
    expectedRows := 0
    claimedAt := now }

/-- The group after its trigger is recorded. -/
def recordedGroup (now : ℤ) (runId : Option Text) (state : TriggerState)
    (executionName : Option Text) (group : RegisterGroup) : RegisterGroup :=
  { group with
    runId := runId.or group.runId
    triggerState := state
    executionName := if state = .claimed then group.executionName else executionName
    triggeredAt := if state = .claimed then group.triggeredAt else some now }

/-- What an event may change, and when. -/
inductive Change (db : CaptureDatabase) (s : RegisterStore) : RegisterEvent → RegisterStore → Prop
  | nothing (e : RegisterEvent) : Change db s e s
  | directory (now : ℤ) (id resourceId : Text) (fetchedAt : ℤ) (units : List (Text × ℕ))
    (versions : List DirectoryVersion) :
    Change db s (.directory now id resourceId fetchedAt units) { s with versions := versions }
  | claimed (now : ℤ) (groupId : Text) (newId : Text → Text) (databaseBytes : ℤ)
    (request : CaptureRequest) (new : List ((Text × Text) × ℕ)) (s' : RegisterStore) :
    s.Claimed now groupId newId databaseBytes request s' new →
    Change db s (.request now groupId newId databaseBytes request) s'
  | refreshed (now : ℤ) (groupId requestedBy : Text) (graceSeconds : ℤ) :
    groupId ∉ s.groups.keys →
    (∀ e ∈ s.latestDirectoryGroup?, s.groupStale now (graceOf graceSeconds) e.1 = true) →
    Change db s (.refresh now groupId requestedBy graceSeconds)
      { s with groups := s.groups.set groupId (refreshGroup now requestedBy) }
  | triggered (now : ℤ) (groupId : Text) (runId : Option Text) (state : TriggerState)
    (executionName : Option Text) (group : RegisterGroup) :
    s.groups.get? groupId = some group → group.triggerState = .claimed →
    (group.runId.isSome = true → runId = group.runId) →
    Change db s (.trigger now groupId runId state executionName)
      { s with
        groups := s.groups.set groupId (recordedGroup now runId state executionName group)
        units :=
          if state = .triggerFailed then s.units.mapValues fun _ u => failRequested now groupId u
          else s.units }
  | reported (call : WorkerCall) (measured : ℤ) (report : UnitReport) (key : Text × Text)
    (u : RegisterUnit) (snapshot : Option (Text × SnapshotRow)) :
    s.catalog.HoldsLease call → s.units.get? key = some u → u.status ≠ .captured →
    (s.groups.get? u.groupId).bind RegisterGroup.runId = some call.runId →
    (report.status = .captured → s.captureVerified report snapshot = true) →
    (∀ e ∈ snapshot, s.catalog.snapshots.get? e.1 = some e.2) →
    Change db s (.report call measured report)
      { s with units := s.units.set key (reportedUnit call.now measured report snapshot u) }
  | archived (call : WorkerCall) (report : ArchiveReport) (archive : SnapshotArchive) :
    Change db s (.archive call report) { s with archives := s.archives ++ [archive] }
  | captured (event : CaptureEvent) :
    Change db s (.capture event) { s with catalog := s.catalog.perform db event }

variable {db : CaptureDatabase} {uriValid : Text → Bool} {s s' : RegisterStore}

variable {now databaseBytes : ℤ} {groupId : Text} {newId : Text → Text} {request : CaptureRequest}
  {e : RegisterEvent} {key : Text × Text} {new : List ((Text × Text) × ℕ)} {u u' : RegisterUnit}

theorem change_of_recordRegisterDirectory {fetchedAt : ℤ} {id resourceId : Text} {units : List (Text × ℕ)}
    {row : DirectoryVersion} (h : s.recordRegisterDirectory db now id resourceId fetchedAt units = .ok (s', row)) :
    s.Change db (.directory now id resourceId fetchedAt units) s' := by
  unfold recordRegisterDirectory at h
  simp only [except_bind_eq_ok, refuseIf_eq_ok, exists_const] at h
  obtain ⟨-, -, h⟩ := h
  split at h
  · split at h
    · cases h
      exact .nothing _
    · cases h
      exact .directory _ _ _ _ _ _
  · cases h
    exact .directory _ _ _ _ _ _

/-- The units a request names are named by their tozars. -/
theorem map_fst_of_named {version : Text} {units : List (Text × ℕ)} {tozars : List Text}
    {named : List ((Text × Text) × ℕ)} {refusal : String}
    (h : (tozars.mapM fun tozar => do
      let rows ← required (units.lookup tozar) refusal
      return ((version, tozar), rows)) = .ok named) :
    named.map Prod.fst = tozars.map (Prod.mk version) := by
  have hall := forall₂_of_mapM h
  clear h
  induction hall with
  | nil => rfl
  | cons hfirst _ ih =>
    obtain ⟨rows, -, heq⟩ := except_bind_eq_ok.mp hfirst
    cases heq
    rw [List.map_cons, List.map_cons, ih]

theorem claimed_of_requestRegisterCapture {claim : CaptureClaim}
    (h : s.requestRegisterCapture now groupId newId databaseBytes request = .ok (s', claim)) :
    (s' = s ∧ claim.group = none) ∨
      ∃ new group, s.Claimed now groupId newId databaseBytes request s' new ∧
        claim.group = some (groupId, group) ∧ group.expectedRows = (new.map Prod.snd).sum ∧
          claim.units = s'.units.entries.filter fun e => decide (e.2.groupId = groupId) := by
  unfold requestRegisterCapture at h
  simp only [except_bind_eq_ok, required_eq_ok, refuseIf_eq_ok, exists_const] at h
  obtain ⟨hvalid, latest, hlatest, hversion, named, hnamed, h⟩ := h
  split at h
  · cases h
    exact Or.inl ⟨rfl, rfl⟩
  · simp only [except_bind_eq_ok, refuseIf_eq_ok, exists_const] at h
    obtain ⟨hcap, hcapacity, hfresh, hattempts, hids, h⟩ := h
    cases h
    obtain ⟨-, -, -, -, -, -, -, -, hnodup⟩ := not_not.mp hvalid
    refine Or.inr ⟨_, _, ⟨?_, ?_, ?_, hfresh, not_lt.mp hcapacity, rfl⟩, rfl, rfl, rfl⟩
    · have hall : (named.map Prod.fst).Nodup := by
        rw [map_fst_of_named hnamed]
        exact hnodup.map (Prod.mk_right_injective _)
      exact hall.sublist (List.filter_sublist.map Prod.fst)
    · exact fun e he => (List.mem_filter.mp he).2
    · refine ⟨latest, hlatest, fun e he => ?_⟩
      obtain ⟨tozar, -, hrows⟩ := exists_of_mem_mapM hnamed (List.mem_filter.mp he).1
      obtain ⟨rows, hlookup, heq⟩ := except_bind_eq_ok.mp hrows
      cases heq
      exact required_eq_ok.mp hlookup

theorem change_of_requestRegisterDirectoryRefresh {graceSeconds : ℤ} {requestedBy : Text}
    {answer : (Text × RegisterGroup) × Bool}
    (h : s.requestRegisterDirectoryRefresh now groupId requestedBy graceSeconds = .ok (s', answer)) :
    s.Change db (.refresh now groupId requestedBy graceSeconds) s' := by
  unfold requestRegisterDirectoryRefresh at h
  simp only [except_bind_eq_ok, refuseIf_eq_ok, exists_const] at h
  replace h := h.2
  split at h
  · cases h
    exact .nothing _
  · rename_i hnone
    simp only [except_bind_eq_ok, refuseIf_eq_ok, exists_const] at h
    obtain ⟨hfresh, h⟩ := h
    cases h
    refine .refreshed now groupId requestedBy graceSeconds hfresh fun e he => ?_
    have hstale := Option.filter_eq_none_iff.mp hnone e he
    simpa using hstale

theorem change_of_recordRegisterCaptureTrigger {runId executionName : Option Text} {state : TriggerState}
    {group : RegisterGroup}
    (h : s.recordRegisterCaptureTrigger now groupId runId state executionName = .ok (s', group)) :
    s.Change db (.trigger now groupId runId state executionName) s' := by
  unfold recordRegisterCaptureTrigger at h
  simp only [except_bind_eq_ok, required_eq_ok, refuseIf_eq_ok, exists_const] at h
  obtain ⟨-, old, hold, hconflict, h⟩ := h
  cases h
  rw [not_or, not_not, not_and, not_not] at hconflict
  exact .triggered now groupId runId state executionName old hold hconflict.1 hconflict.2

theorem change_of_recordRegisterUnitStatus {call : WorkerCall} {measured : ℤ} {report : UnitReport}
    {row : RegisterUnit} (h : s.recordRegisterUnitStatus call measured report = .ok (s', row)) :
    s.Change db (.report call measured report) s' := by
  unfold recordRegisterUnitStatus at h
  simp only [except_bind_eq_ok, required_eq_ok, refuseIf_eq_ok, exists_const,
    CaptureStore.assertWorkerLease_eq_ok] at h
  obtain ⟨hlease, hvalid, ⟨key, u⟩, hfound, hrun, h⟩ := h
  have hstored : s.units.get? key = some u :=
    Dict.get?_eq_some.mpr (List.mem_of_find?_eq_some hfound)
  split at h
  · cases h
    exact .nothing _
  · rename_i hopen
    simp only [except_bind_eq_ok, refuseIf_eq_ok, exists_const] at h
    obtain ⟨hknown, hverified, hbounds, h⟩ := h
    cases h
    refine .reported call measured report key u _ hlease hstored hopen (not_not.mp hrun) ?_ ?_
    · intro hcaptured
      exact Bool.not_eq_false _ ▸ fun hfalse => hverified ⟨hcaptured, hfalse⟩
    · intro e he
      obtain ⟨snapshotId, -, he⟩ := Option.bind_eq_some_iff.mp he
      obtain ⟨row, hrow, rfl⟩ := Option.map_eq_some_iff.mp he
      exact hrow

theorem change_of_recordRegisterSnapshotArchive {call : WorkerCall} {report : ArchiveReport}
    {row : SnapshotArchive}
    (h : s.recordRegisterSnapshotArchive uriValid call report = .ok (s', row)) :
    s.Change db (.archive call report) s' := by
  unfold recordRegisterSnapshotArchive at h
  simp only [except_bind_eq_ok, required_eq_ok, refuseIf_eq_ok, exists_const] at h
  obtain ⟨_, -, snapshot, hsnapshot, hlines, hobject, h⟩ := h
  split at h
  · simp only [except_bind_eq_ok, refuseIf_eq_ok, exists_const] at h
    cases h.2
    exact .nothing _
  · simp only [except_bind_eq_ok, refuseIf_eq_ok, exists_const] at h
    cases h.2
    exact .archived call report _

/-- A request that is answered changes what its event may change; one that is refused, nothing. -/
theorem change_kept {α : Type} {answer : Except String (RegisterStore × α)}
    (h : ∀ s' a, answer = .ok (s', a) → s.Change db e s') : s.Change db e (s.kept answer) := by
  cases answer with
  | error refusal => exact .nothing e
  | ok answer => exact h answer.1 answer.2 rfl

theorem change_perform (db : CaptureDatabase) (uriValid : Text → Bool) (s : RegisterStore)
    (e : RegisterEvent) : s.Change db e (s.perform db uriValid e) := by
  cases e with
  | directory now id resourceId fetchedAt units =>
    exact change_kept fun _ _ => change_of_recordRegisterDirectory
  | request now groupId newId databaseBytes request =>
    refine change_kept fun s' claim h => ?_
    rcases claimed_of_requestRegisterCapture h with ⟨rfl, -⟩ | ⟨new, group, hclaimed, -⟩
    · exact .nothing _
    · exact .claimed _ _ _ _ _ new s' hclaimed
  | refresh now groupId requestedBy graceSeconds =>
    exact change_kept fun _ _ => change_of_requestRegisterDirectoryRefresh
  | trigger now groupId runId state executionName =>
    exact change_kept fun _ _ => change_of_recordRegisterCaptureTrigger
  | report call measured report =>
    exact change_kept fun _ _ => change_of_recordRegisterUnitStatus
  | archive call report => exact change_kept fun _ _ => change_of_recordRegisterSnapshotArchive
  | capture event => exact .captured event

/-! ## 3. What becomes of a unit -/

/-- How an event changes a unit that is not captured. -/
inductive UnitChange (s : RegisterStore) (key : Text × Text) (u : RegisterUnit) :
    RegisterEvent → RegisterUnit → Prop
  | claimed (now : ℤ) (groupId : Text) (newId : Text → Text) (databaseBytes : ℤ)
    (request : CaptureRequest) :
    u.status = .failed ∨ s.groupStale now (graceOf request.graceSeconds) u.groupId = true →
    UnitChange s key u (.request now groupId newId databaseBytes request)
      (s.claimedUnit now groupId key (newId key.2) u.expectedRows)
  | triggerFailed (now : ℤ) (runId executionName : Option Text) :
    u.status = .requested →
    UnitChange s key u (.trigger now u.groupId runId .triggerFailed executionName)
      (failRequested now u.groupId u)
  | reported (call : WorkerCall) (measured : ℤ) (report : UnitReport)
    (snapshot : Option (Text × SnapshotRow)) :
    s.catalog.HoldsLease call →
    (s.groups.get? u.groupId).bind RegisterGroup.runId = some call.runId →
    (report.status = .captured → s.captureVerified report snapshot = true) →
    (∀ e ∈ snapshot, s.catalog.snapshots.get? e.1 = some e.2) →
    UnitChange s key u (.report call measured report)
      (reportedUnit call.now measured report snapshot u)

/-- A stored unit stays as it is, or, where it is not captured, takes one of the changes. -/
def UnitStep (s : RegisterStore) (e : RegisterEvent) (s' : RegisterStore) (key : Text × Text)
    (u : RegisterUnit) : Prop :=
  ∃ u', s'.units.get? key = some u' ∧
    (u' = u ∨ (u.status ≠ .captured ∧ s.UnitChange key u e u'))

theorem map_fst_claimed (new : List ((Text × Text) × ℕ)) :
    (new.map fun e => (e.1, s.claimedUnit now groupId e.1 (newId e.1.2) e.2)).map Prod.fst =
      new.map Prod.fst := by
  rw [List.map_map]
  rfl

/-- A claim resets a unit that is there to be claimed, and leaves every other unit as it is. -/
theorem Claimed.unitStep (h : s.Claimed now groupId newId databaseBytes request s' new)
    (hu : s.units.get? key = some u) : s.UnitStep (.request now groupId newId databaseBytes request) s' key u := by
  rw [UnitStep, h.stored]
  by_cases hkey : key ∈ new.map Prod.fst
  · obtain ⟨e, he, rfl⟩ := List.mem_map.mp hkey
    have hstart := h.startable e he
    have hreset : s.claimedUnit now groupId e.1 (newId e.1.2) e.2 =
        s.claimedUnit now groupId e.1 (newId e.1.2) u.expectedRows := by
      unfold claimedUnit
      rw [hu]
    refine ⟨_, Dict.get?_setAll_of_mem ((map_fst_claimed new).symm ▸ h.distinct)
      (List.mem_map_of_mem he), Or.inr ?_⟩
    unfold RegisterStore.startable at hstart
    rw [hu] at hstart
    simp only [Bool.and_eq_true, Bool.or_eq_true, decide_eq_true_eq] at hstart
    rw [hreset]
    exact ⟨hstart.1, .claimed now groupId newId databaseBytes request hstart.2⟩
  · refine ⟨u, ?_, Or.inl rfl⟩
    show (s.units.setAll _).get? key = some u
    rw [Dict.get?_setAll_of_notMem ((map_fst_claimed new).symm ▸ hkey)]
    exact hu

theorem Change.unitStep (hchange : s.Change db e s') (hu : s.units.get? key = some u) : s.UnitStep e s' key u := by
  cases hchange with
  | nothing => exact ⟨u, hu, Or.inl rfl⟩
  | directory now id resourceId fetchedAt units versions => exact ⟨u, hu, Or.inl rfl⟩
  | claimed now groupId newId databaseBytes request new s' hclaimed => exact hclaimed.unitStep hu
  | refreshed now groupId requestedBy graceSeconds hfresh hstale => exact ⟨u, hu, Or.inl rfl⟩
  | triggered now groupId runId state executionName group hgroup hclaimed hrun =>
    by_cases hfailed : state = .triggerFailed
    · subst hfailed
      refine ⟨failRequested now groupId u, ?_, ?_⟩
      · dsimp only
        rw [if_pos rfl, Dict.get?_mapValues, hu]
        rfl
      · by_cases hmine : u.groupId = groupId ∧ u.status = .requested
        · obtain ⟨rfl, hrequested⟩ := hmine
          right
          exact ⟨by rw [hrequested]; decide, .triggerFailed now runId executionName hrequested⟩
        · left
          exact if_neg hmine
    · refine ⟨u, ?_, Or.inl rfl⟩
      dsimp only
      rw [if_neg hfailed]
      exact hu
  | reported call measured report key' u' snapshot hlease hstored hopen hrun hverified hsnapshot =>
    by_cases hkey : key = key'
    · subst hkey
      rw [hstored] at hu
      cases hu
      exact ⟨_, by rw [Dict.get?_set, if_pos rfl],
        Or.inr ⟨hopen, .reported call measured report snapshot hlease hrun hverified hsnapshot⟩⟩
    · refine ⟨u, ?_, Or.inl rfl⟩
      show (s.units.set key' _).get? key = some u
      rw [Dict.get?_set_ne _ _ hkey]
      exact hu
  | archived call report archive => exact ⟨u, hu, Or.inl rfl⟩
  | captured event => exact ⟨u, hu, Or.inl rfl⟩

/-- Active snapshots stay as they are, and archives are never removed. -/
theorem Change.keeps (hchange : s.Change db e s') : s.catalog.Keeps s'.catalog ∧ s.archives <+: s'.archives := by
  have hsame : s.catalog.Keeps s.catalog := CaptureStore.Keeps.refl s.catalog
  cases hchange with
  | claimed now groupId newId databaseBytes request new s' hclaimed =>
    rw [hclaimed.stored]
    exact ⟨hsame, List.prefix_refl _⟩
  | archived call report archive => exact ⟨hsame, List.prefix_append _ _⟩
  | captured event =>
    exact ⟨(CaptureStore.change_perform db s.catalog event).keeps, List.prefix_refl _⟩
  | _ => exact ⟨hsame, List.prefix_refl _⟩

/-! ## 4. Captured units -/

/-- What a captured unit shows: a snapshot that is active, archived, and of the counts it states. -/
structure Shown (s : RegisterStore) (u : RegisterUnit) : Prop where
  counted : ∃ n, u.apiTotal = some n ∧ u.capturedRows = some n ∧ u.countVerified = some true ∧
    ∃ id row, u.snapshotId = some id ∧ s.catalog.snapshots.get? id = some row ∧
      row.activatedAt.isSome = true ∧ (s.archive? id).isSome = true ∧ row.storedRecordCount = n

theorem isSome_find?_of_prefix {α : Type} {l l' : List α} {p : α → Bool} (hpre : l <+: l')
    (h : (l.find? p).isSome = true) : (l'.find? p).isSome = true := by
  rw [List.find?_isSome] at h ⊢
  obtain ⟨a, ha, hp⟩ := h
  exact ⟨a, hpre.subset ha, hp⟩

/-- What a unit shows stays: active snapshots are frozen and archives are never removed. -/
theorem Shown.mono (h : s.Shown u) (hcatalog : s.catalog.Keeps s'.catalog) (harchives : s.archives <+: s'.archives) :
    s'.Shown u := by
  obtain ⟨n, htotal, hrows, hverified, id, row, hid, hrow, hactive, harchived, hstored⟩ := h.counted
  exact ⟨⟨n, htotal, hrows, hverified, id, row, hid,
    (hcatalog.settled id row hrow (Or.inr hactive)).1, hactive,
    isSome_find?_of_prefix harchives harchived, hstored⟩⟩

theorem shown_reportedUnit {measured : ℤ} {report : UnitReport} {snapshot : Option (Text × SnapshotRow)}
    (hverified : s.captureVerified report snapshot = true)
    (hsnapshot : ∀ e ∈ snapshot, s.catalog.snapshots.get? e.1 = some e.2) :
    s.Shown (reportedUnit now measured report snapshot u) := by
  unfold captureVerified at hverified
  split at hverified
  · rename_i _ _ _ id row total captured htotal hcaptured
    simp only [Bool.and_eq_true, decide_eq_true_eq] at hverified
    obtain ⟨⟨⟨⟨hactive, hcount⟩, hsame⟩, hstored⟩, harchived⟩ := hverified
    subst hsame
    refine ⟨⟨total, ?_, ?_, ?_, id, row, rfl, hsnapshot (id, row) rfl, hactive, harchived, hstored⟩⟩
    · show report.apiTotal.or u.apiTotal = some total
      rw [htotal]
      rfl
    · show report.capturedRows.or u.capturedRows = some total
      rw [hcaptured]
      rfl
    · show report.countVerified.or u.countVerified = some true
      rw [hcount]
      rfl
  · cases hverified

theorem UnitChange.shown (hchange : s.UnitChange key u e u') (hcaptured : u'.status = .captured)
    (hopen : u.status ≠ .captured) : s.Shown u' := by
  cases hchange with
  | claimed now groupId newId databaseBytes request hstart =>
    exfalso
    unfold claimedUnit at hcaptured
    split at hcaptured <;> cases hcaptured
  | triggerFailed now runId executionName hrequested =>
    exfalso
    unfold failRequested at hcaptured
    split at hcaptured
    · cases hcaptured
    · exact hopen hcaptured
  | reported call measured report snapshot hlease hrun hverified hsnapshot =>
    exact shown_reportedUnit (hverified hcaptured) hsnapshot

/-- A unit nobody had asked for is stored as requested. -/
theorem Change.new_unit (hchange : s.Change db e s') (hu' : s'.units.get? key = some u')
    (hnone : s.units.get? key = none) : u'.status = .requested := by
  cases hchange with
  | claimed now groupId newId databaseBytes request new s' hclaimed =>
    rw [hclaimed.stored] at hu'
    rcases Dict.get?_setAll_cases hu' with hin | ⟨-, hold⟩
    · obtain ⟨e, he, heq⟩ := List.mem_map.mp hin
      cases heq
      unfold claimedUnit
      rw [hnone]
    · rw [hnone] at hold
      cases hold
  | triggered now groupId runId state executionName group hgroup hclaimed hrun =>
    dsimp only at hu'
    split at hu'
    · rw [Dict.get?_mapValues, hnone] at hu'
      cases hu'
    · rw [hnone] at hu'
      cases hu'
  | reported call measured report key' u snapshot hlease hstored hopen hrun hverified hsnapshot =>
    have hget : (s.units.set key' _).get? key = some u' := hu'
    rw [Dict.get?_set] at hget
    split at hget
    · rename_i hkey
      rw [hkey, hstored] at hnone
      cases hnone
    · rw [hnone] at hget
      cases hget
  | _ =>
    rw [hnone] at hu'
    cases hu'

/-- Every captured unit shows its capture, and its snapshot's rows are counted. -/
structure Sound (s : RegisterStore) : Prop where
  catalog : s.catalog.Sound
  captured : ∀ key u, s.units.get? key = some u → u.status = .captured → s.Shown u

theorem Unused.sound (h : s.Unused) : s.Sound where
  catalog := h.catalog.sound
  captured key u hu := by
    unfold Dict.get? at hu
    rw [h.units] at hu
    cases hu

theorem Change.sound (hchange : s.Change db e s') (h : s.Sound) : s'.Sound := by
  have hkeeps := hchange.keeps
  refine ⟨?_, ?_⟩
  · cases hchange with
    | claimed now groupId newId databaseBytes request new s' hclaimed =>
      rw [hclaimed.stored]
      exact h.catalog
    | captured event => exact (CaptureStore.change_perform db s.catalog event).sound h.catalog
    | _ => exact h.catalog
  · intro key u' hu' hcaptured
    cases hold : s.units.get? key with
    | none =>
      rw [hchange.new_unit hu' hold] at hcaptured
      cases hcaptured
    | some u =>
      obtain ⟨u'', hu'', hstep⟩ := hchange.unitStep hold
      rw [hu'] at hu''
      cases hu''
      rcases hstep with rfl | ⟨hopen, hunit⟩
      · exact (h.captured key u' hold hcaptured).mono hkeeps.1 hkeeps.2
      · exact (hunit.shown hcaptured hopen).mono hkeeps.1 hkeeps.2

/-! ## 5. Capacity -/

/-- The rows in flight for other groups than `groupId`. -/
def otherRows (s : RegisterStore) (now grace : ℤ) (groupId : Text) : ℕ :=
  s.units.total fun _ u =>
    if u.groupId ≠ groupId ∧ s.inFlight now grace u = true then u.expectedRows else 0

/-- The rows of every unit of the live groups other than `groupId`. -/
def liveRows (s : RegisterStore) (now grace : ℤ) (groupId : Text) : ℕ :=
  s.units.total fun _ u =>
    if u.groupId ≠ groupId ∧ s.groupStale now grace u.groupId = false then u.expectedRows else 0

theorem sum_filter_eq_sum_ite {α : Type} (p : α → Bool) (f : α → ℕ) (l : List α) :
    ((l.filter p).map f).sum = (l.map fun a => if p a = true then f a else 0).sum := by
  induction l with
  | nil => rfl
  | cons a l ih =>
    rw [List.filter_cons, List.map_cons, List.sum_cons, ← ih]
    by_cases h : p a = true
    · rw [if_pos h, if_pos h, List.map_cons, List.sum_cons]
    · rw [if_neg h, if_neg h, Nat.zero_add]

theorem groupId_claimedUnit (now : ℤ) (groupId newId : Text) (key : Text × Text) (rows : ℕ) :
    (s.claimedUnit now groupId key newId rows).groupId = groupId := by
  unfold claimedUnit
  split <;> rfl

/-- What was in flight beside a claim is in flight beside it afterwards. -/
theorem Claimed.otherRows_eq (h : s.Claimed now groupId newId databaseBytes request s' new) (grace : ℤ) :
    s'.otherRows now grace groupId = s.inFlightRows now grace (new.map Prod.fst) := by
  let claimed := new.map fun e => (e.1, s.claimedUnit now groupId e.1 (newId e.1.2) e.2)
  let beside : (Text × Text) × RegisterUnit → ℕ := fun e =>
    if e.2.groupId ≠ groupId ∧ s'.inFlight now grace e.2 = true then e.2.expectedRows else 0
  have hkeys : claimed.map Prod.fst = new.map Prod.fst := map_fst_claimed new
  have hunits : s'.units = s.units.setAll claimed := by rw [h.stored]
  have hperm := Dict.perm_entries_setAll (hkeys ▸ h.distinct) s.units
  -- the claimed units are in the new group
  have hclaimed : (claimed.map beside).sum = 0 := by
    apply List.sum_eq_zero
    intro n hn
    obtain ⟨e, he, rfl⟩ := List.mem_map.mp hn
    obtain ⟨e', -, rfl⟩ := List.mem_map.mp he
    exact if_neg fun hother => hother.1 (groupId_claimedUnit _ _ _ _ _)
  -- the other units are in flight after the claim exactly if they were before
  have hbeside : ∀ e : (Text × Text) × RegisterUnit, beside e =
      if s.inFlight now grace e.2 = true then e.2.expectedRows else 0 := by
    intro e
    by_cases hmine : e.2.groupId = groupId
    · have hstale : s.groupStale now grace e.2.groupId = true := by
        unfold groupStale
        rw [hmine, Dict.get?_eq_none.mpr h.fresh]
      have hidle : s.inFlight now grace e.2 = false := by
        unfold inFlight
        rw [hstale, Bool.not_true, Bool.and_false]
      rw [hidle]
      exact if_neg fun hother => hother.1 hmine
    · have hsame : s'.inFlight now grace e.2 = s.inFlight now grace e.2 := by
        unfold inFlight groupStale run?
        rw [h.stored]
        dsimp only
        rw [Dict.get?_set_ne _ _ hmine]
      show (if _ ∧ _ then _ else _) = _
      rw [hsame]
      by_cases hflight : s.inFlight now grace e.2 = true
      · rw [if_pos ⟨hmine, hflight⟩, if_pos hflight]
      · rw [if_neg fun hother => hflight hother.2, if_neg hflight]
  calc s'.otherRows now grace groupId
      = ((s.units.setAll claimed).entries.map beside).sum := by
        rw [← hunits]
        rfl
    _ = ((s.units.entries.filter fun e => decide (e.1 ∉ new.map Prod.fst)).map beside).sum := by
        rw [(hperm.map beside).sum_eq, List.map_append, List.sum_append, hclaimed, Nat.add_zero,
          hkeys]
        congr 2
        exact List.filter_congr fun e _ => decide_eq_decide.mpr Iff.rfl
    _ = s.inFlightRows now grace (new.map Prod.fst) := by
        rw [sum_filter_eq_sum_ite]
        unfold inFlightRows Dict.total
        congr 1
        apply List.map_congr_left
        intro e _
        dsimp only
        rw [hbeside]
        by_cases hkey : e.1 ∈ new.map Prod.fst
        · rw [if_neg (by simpa using hkey), if_neg fun hother => hother.1 hkey]
        · rw [if_pos (by simpa using hkey)]
          by_cases hflight : s.inFlight now grace e.2 = true
          · rw [if_pos hflight, if_pos ⟨hkey, hflight⟩]
          · rw [if_neg hflight, if_neg fun hother => hflight hother.2]

/-! ## 6. The claimed units -/

/-- Every unit is in a stored group. -/
def Grouped (s : RegisterStore) : Prop :=
  ∀ key u, s.units.get? key = some u → u.groupId ∈ s.groups.keys

theorem Change.grouped (hchange : s.Change db e s') (h : s.Grouped) : s'.Grouped := by
  cases hchange with
  | claimed now groupId newId databaseBytes request new s' hclaimed =>
    intro key u hu
    rw [hclaimed.stored] at hu ⊢
    rw [Dict.mem_keys_set]
    rcases Dict.get?_setAll_cases hu with hin | ⟨-, hold⟩
    · obtain ⟨e, he, heq⟩ := List.mem_map.mp hin
      cases heq
      exact Or.inl (groupId_claimedUnit _ _ _ _ _)
    · exact Or.inr (h key u hold)
  | refreshed now groupId requestedBy graceSeconds hfresh hstale =>
    exact fun key u hu => Dict.mem_keys_set.mpr (Or.inr (h key u hu))
  | triggered now groupId runId state executionName group hgroup hclaimed hrun =>
    intro key u hu
    dsimp only at hu ⊢
    rw [Dict.mem_keys_set]
    right
    split at hu
    · rw [Dict.get?_mapValues] at hu
      obtain ⟨old, hold, rfl⟩ := Option.map_eq_some_iff.mp hu
      have hsame : (failRequested now groupId old).groupId = old.groupId := by
        unfold failRequested
        split <;> rfl
      rw [hsame]
      exact h key old hold
    · exact h key u hu
  | reported call measured report key' u' snapshot hlease hstored hopen hrun hverified hsnapshot =>
    intro key u hu
    have hget : (s.units.set key' _).get? key = some u := hu
    rw [Dict.get?_set] at hget
    split at hget
    · cases hget
      exact h key' u' hstored
    · exact h key u hget
  | _ => exact h

/-- The rows the directory expects of a unit. -/
def directoryRows (latest : DirectoryVersion) (key : Text × Text) : ℕ :=
  (latest.units.lookup key.2).getD 0

theorem Claimed.expectedRows_eq {latest : DirectoryVersion}
    (h : s.Claimed now groupId newId databaseBytes request s' new) (hgrouped : s.Grouped)
    (hlatest : s.latestDirectory? = some latest) :
    ((s'.units.entries.filter fun e => decide (e.2.groupId = groupId)).map
      fun e => directoryRows latest e.1).sum = (new.map Prod.snd).sum := by
  let claimed := new.map fun e => (e.1, s.claimedUnit now groupId e.1 (newId e.1.2) e.2)
  have hunits : s'.units = s.units.setAll claimed := by rw [h.stored]
  have hperm := Dict.perm_entries_setAll ((map_fst_claimed new).symm ▸ h.distinct :
    (claimed.map Prod.fst).Nodup) s.units
  have hmine : claimed.filter (fun e => decide (e.2.groupId = groupId)) = claimed := by
    rw [List.filter_eq_self]
    intro e he
    obtain ⟨e', -, rfl⟩ := List.mem_map.mp he
    exact decide_eq_true (groupId_claimedUnit _ _ _ _ _)
  have hothers : ∀ e ∈ s.units.entries, ¬ decide (e.2.groupId = groupId) = true := by
    intro e he hsame
    have hknown := hgrouped e.1 e.2 (Dict.get?_eq_some.mpr he)
    rw [of_decide_eq_true hsame] at hknown
    exact h.fresh hknown
  have hfilter := hperm.filter fun e => decide (e.2.groupId = groupId)
  rw [List.filter_append, hmine,
    List.filter_eq_nil_iff.mpr fun e he => hothers e (List.mem_filter.mp he).1,
    List.nil_append] at hfilter
  rw [hunits, (hfilter.map fun e => directoryRows latest e.1).sum_eq, List.map_map]
  congr 1
  apply List.map_congr_left
  intro e he
  obtain ⟨latest', hlatest', hrows⟩ := h.directory
  rw [hlatest] at hlatest'
  cases hlatest'
  show (latest.units.lookup e.1.2).getD 0 = e.2
  rw [hrows e he]
  rfl

/-! ## 7. Every run -/

/-- What holds in the store a run reaches, and of every event of the run. -/
structure UnitsHold (db : CaptureDatabase) (uriValid : Text → Bool)
    (hist : List (RegisterStore × RegisterEvent)) (s : RegisterStore) : Prop where
  oneRow : s.units.keys.Nodup
  captured : ∀ key u, s.units.get? key = some u → u.status = .captured →
    ∃ n id row, u.apiTotal = some n ∧ u.capturedRows = some n ∧ u.snapshotId = some id ∧
      s.catalog.snapshots.get? id = some row ∧ row.activatedAt.isSome = true ∧
        (s.archive? id).isSome = true ∧ ((s.catalog.rawRecordsOf id).length : ℤ) = n
  kept : ∀ e ∈ hist, ∀ key u, e.1.units.get? key = some u → u.status = .captured →
    s.units.get? key = some u
  changed : ∀ e ∈ hist, ∀ key u, e.1.units.get? key = some u →
    ∃ u', (e.1.perform db uriValid e.2).units.get? key = some u' ∧
      (u' ≠ u → e.1.UnitChange key u e.2 u')
  moved : ∀ e ∈ hist, ∀ key u u', e.1.units.get? key = some u →
    (e.1.perform db uriValid e.2).units.get? key = some u' → u'.groupId ≠ u.groupId →
      u'.attempt = u.attempt + 1 ∧ ∃ now groupId newId databaseBytes request,
        e.2 = .request now groupId newId databaseBytes request ∧
          (u.status = .failed ∨
            e.1.groupStale now (graceOf request.graceSeconds) u.groupId = true)
  refused : ∀ e ∈ hist, ∀ now groupId newId databaseBytes request,
    e.2 = .request now groupId newId databaseBytes request → ∀ refusal,
      e.1.requestRegisterCapture now groupId newId databaseBytes request = .error refusal →
        e.1.perform db uriValid e.2 = e.1
  capacity : ∀ e ∈ hist, ∀ now groupId newId databaseBytes request,
    e.2 = .request now groupId newId databaseBytes request → ∀ s' claim group,
      e.1.requestRegisterCapture now groupId newId databaseBytes request = .ok (s', claim) →
        claim.group = some (groupId, group) → ∃ latest, e.1.latestDirectory? = some latest ∧
          databaseBytes + ((claim.units.map fun c => directoryRows latest c.1).sum +
            s'.otherRows now (graceOf request.graceSeconds) groupId : ℕ) * request.bytesPerRow ≤
              request.capacityLimitBytes

variable {hist : List (RegisterStore × RegisterEvent)} {start : RegisterStore}

theorem run_sound (hstart : start.Unused) (hrun : Run (RegisterStep db uriValid) start hist s) :
    Throughout (fun m => m.Sound ∧ m.Grouped) hist s := by
  apply hrun.throughout
  · refine ⟨hstart.sound, fun key u hu => ?_⟩
    unfold Dict.get? at hu
    rw [hstart.units] at hu
    cases hu
  · rintro m e m' ⟨hsound, hgrouped⟩ ⟨-, rfl⟩
    have hchange := change_perform db uriValid m e
    exact ⟨hchange.sound hsound, hchange.grouped hgrouped⟩

theorem kept_perform (e : RegisterEvent) (hu : s.units.get? key = some u) (hcaptured : u.status = .captured) :
    (s.perform db uriValid e).units.get? key = some u := by
  obtain ⟨u', hu', hstep⟩ := (change_perform db uriValid s e).unitStep hu
  rcases hstep with rfl | ⟨hopen, -⟩
  · exact hu'
  · exact absurd hcaptured hopen

theorem run_kept (hrun : Run (RegisterStep db uriValid) start hist s) :
    ∀ e ∈ hist, ∀ key u, e.1.units.get? key = some u → u.status = .captured →
      s.units.get? key = some u := by
  apply hrun.history_invariant (J := fun hist m => ∀ e ∈ hist, ∀ key u,
    e.1.units.get? key = some u → u.status = .captured → m.units.get? key = some u)
  · exact fun e he => absurd he List.not_mem_nil
  · rintro hist m e m' - ih ⟨-, rfl⟩ e' he' key u hu hcaptured
    rcases List.mem_append.mp he' with he' | he'
    · exact kept_perform e (ih e' he' key u hu hcaptured) hcaptured
    · rw [List.mem_singleton.mp he'] at hu
      exact kept_perform e hu hcaptured

theorem UnitChange.moved (hchange : s.UnitChange key u e u') (hu : s.units.get? key = some u)
    (hmoved : u'.groupId ≠ u.groupId) :
    u'.attempt = u.attempt + 1 ∧ ∃ now groupId newId databaseBytes request,
      e = .request now groupId newId databaseBytes request ∧
        (u.status = .failed ∨ s.groupStale now (graceOf request.graceSeconds) u.groupId = true) := by
  cases hchange with
  | claimed now groupId newId databaseBytes request hstart =>
    refine ⟨?_, now, groupId, newId, databaseBytes, request, rfl, hstart⟩
    unfold claimedUnit
    rw [hu]
  | triggerFailed now runId executionName hrequested =>
    exfalso
    apply hmoved
    unfold failRequested
    split <;> rfl
  | reported call measured report snapshot hlease hrun hverified hsnapshot => exact absurd rfl hmoved

/-- Units stay captured, move only when they may, and are claimed within the capacity, over every
    order of events. -/
theorem units_hold (hstart : start.Unused) (hrun : Run (RegisterStep db uriValid) start hist s) :
    UnitsHold db uriValid hist s := by
  have hsound := run_sound hstart hrun
  have hstep : ∀ e : RegisterStore × RegisterEvent, ∀ key u, e.1.units.get? key = some u →
      ∃ u', (e.1.perform db uriValid e.2).units.get? key = some u' ∧
        (u' ≠ u → e.1.UnitChange key u e.2 u') := by
    intro e key u hu
    obtain ⟨u', hu', hunit⟩ := (change_perform db uriValid e.1 e.2).unitStep hu
    exact ⟨u', hu', fun hne => (hunit.resolve_left hne).2⟩
  refine
    { oneRow := s.units.nodup
      captured := ?_
      kept := run_kept hrun
      changed := fun e _ => hstep e
      moved := ?_
      refused := ?_
      capacity := ?_ }
  · intro key u hu hcaptured
    obtain ⟨n, htotal, hrows, -, id, row, hid, hrow, hactive, harchived, hstored⟩ :=
      (hsound.2.1.captured key u hu hcaptured).counted
    refine ⟨n, id, row, htotal, hrows, hid, hrow, hactive, harchived, ?_⟩
    rw [← hsound.2.1.catalog.counted id row hrow]
    exact hstored
  · intro e _ key u u' hu hu' hmoved
    obtain ⟨u'', hu'', hunit⟩ := hstep e key u hu
    rw [hu'] at hu''
    cases hu''
    exact (hunit fun hsame => hmoved (by rw [hsame])).moved hu hmoved
  · intro e _ now groupId newId databaseBytes request he refusal hrefused
    rw [he]
    show e.1.kept _ = e.1
    rw [hrefused]
    rfl
  · intro e he now groupId newId databaseBytes request _ s' claim group hok hgroup
    rcases claimed_of_requestRegisterCapture hok with ⟨-, hnone⟩ | ⟨new, _, hclaimed, -, -, hunits⟩
    · rw [hnone] at hgroup
      cases hgroup
    · obtain ⟨latest, hlatest, -⟩ := hclaimed.directory
      refine ⟨latest, hlatest, ?_⟩
      rw [hunits, hclaimed.expectedRows_eq (hsound.1 e he).2 hlatest, hclaimed.otherRows_eq]
      exact hclaimed.capacity

/-! ### A failed trigger, and a failed unit of a live group -/

def wltpResource : String := "142afde2-6228-49f9-8a29-9b6c3a0cbe40"

def wltpVersion : String := "b50ba6790f2d5b2e98ac9a29c2ff5ca5b4768ce33882c65c837054df0f31860f"

def wltpUnits : List (Text × ℕ) := [("a".toList, 10), ("b".toList, 10), ("c".toList, 5)]

def directoryDatabase : CaptureDatabase :=
  { CaptureStore.registerDatabase with
    sha256 := fun text =>
      if text.take 4 = "gov.".toList then wltpVersion.toList
      else CaptureStore.registerDatabase.sha256 text }

def emptyRegister : RegisterStore where
  catalog := CaptureStore.emptyCatalog
  versions := []
  groups := Dict.empty
  units := Dict.empty
  archives := []

def namesDirectory : RegisterEvent :=
  .directory 1 "v".toList wltpResource.toList 0 wltpUnits

/-- A request of the directory above, one byte a row. -/
def requestOf (tozars : List Text) (limit : ℤ) : CaptureRequest where
  registerVersion := wltpVersion.toList
  tozars := tozars
  requestedBy := "u".toList
  groupMaxRows := 100
  capacityLimitBytes := limit
  bytesPerRow := 1
  graceSeconds := 300

def claimsTwo : List RegisterEvent :=
  [namesDirectory, .request 2 "g".toList id 0 (requestOf ["a".toList, "b".toList] 100)]

/-- The claimer records that the trigger failed; no run was made. -/
def triggerFails : List RegisterEvent :=
  claimsTwo ++ [.trigger 3 "g".toList none .triggerFailed none]

def unitFailed : UnitReport where
  unitId := "b".toList
  status := .failed
  failureCode := some "CATALOG_CAPTURE_COUNT_MISMATCH".toList

/-- The job fails one unit of its group and goes on with the other. -/
def oneFails : List RegisterEvent :=
  claimsTwo ++ [.trigger 3 "g".toList (some "a".toList) .triggered none,
    .report (CaptureStore.callOf "a" 4) 0 unitFailed]

abbrev performDirectory : RegisterStore → RegisterEvent → RegisterStore :=
  perform directoryDatabase fun _ => true

theorem unused_emptyRegister : emptyRegister.Unused := ⟨⟨rfl, rfl, rfl⟩, rfl⟩

theorem run_emptyRegister (events : List RegisterEvent) :
    Run (RegisterStep directoryDatabase fun _ => true) emptyRegister
      (performed performDirectory emptyRegister events)
      (events.foldl performDirectory emptyRegister) :=
  run_performed events emptyRegister fun _ _ => trivial

/-- A unit changes though no run reports it, and a claim is taken though the rows of all units of
    the live groups go over its limit. -/
theorem changed_by_no_run :
    (∃ hist s, Run (RegisterStep directoryDatabase fun _ => true) emptyRegister hist s ∧
      ∃ e ∈ hist, ∃ key u u', e.1.units.get? key = some u ∧
        (performDirectory e.1 e.2).units.get? key = some u' ∧ u' ≠ u ∧ u'.groupId = u.groupId ∧
          e.2.call? = none) ∧
    ∃ hist s, Run (RegisterStep directoryDatabase fun _ => true) emptyRegister hist s ∧
      ∃ request s' claim group latest,
        s.requestRegisterCapture 5 "h".toList id 0 request = .ok (s', claim) ∧
          claim.group = some ("h".toList, group) ∧ s.latestDirectory? = some latest ∧
            request.capacityLimitBytes <
              ((claim.units.map fun c => directoryRows latest c.1).sum +
                s'.liveRows 5 (graceOf request.graceSeconds) "h".toList : ℕ) *
                  request.bytesPerRow := by
  constructor
  · refine ⟨_, _, run_emptyRegister triggerFails,
      (claimsTwo.foldl performDirectory emptyRegister, .trigger 3 "g".toList none .triggerFailed none),
      List.mem_of_getLast? rfl, (wltpVersion.toList, "a".toList), ?_⟩
    exact ⟨_, _, rfl, rfl, by decide +kernel, rfl, rfl⟩
  · refine ⟨_, _, run_emptyRegister oneFails, requestOf ["c".toList] 15, ?_⟩
    have htest : (((oneFails.foldl performDirectory emptyRegister).requestRegisterCapture 5 "h".toList
        id 0 (requestOf ["c".toList] 15)).toOption.any fun answer =>
          answer.2.group.any (fun g => decide (g.1 = "h".toList)) &&
            (oneFails.foldl performDirectory emptyRegister).latestDirectory?.any fun latest =>
              decide (15 < ((answer.2.units.map fun c => directoryRows latest c.1).sum +
                answer.1.liveRows 5 (graceOf 300) "h".toList))) = true := by decide +kernel
    obtain ⟨answer, hanswer, htest⟩ := (Option.any_eq_true _ _).mp htest
    rw [Bool.and_eq_true] at htest
    obtain ⟨⟨groupId, group⟩, hgroup, hid⟩ := (Option.any_eq_true _ _).mp htest.1
    obtain ⟨latest, hlatest, hover⟩ := (Option.any_eq_true _ _).mp htest.2
    have hid : groupId = "h".toList := of_decide_eq_true hid
    subst hid
    refine ⟨answer.1, answer.2, group, latest, ?_, hgroup, hlatest, ?_⟩
    · exact eq_ok_of_toOption hanswer
    · have hover : 15 < _ := of_decide_eq_true hover
      show (15 : ℤ) < (_ : ℕ) * 1
      rw [Int.mul_one]
      exact_mod_cast hover

/-! ### A captured unit -/

def wltpSnapshot : Jsonb :=
  .obj [CaptureStore.textMember "snapshot_key" "cs1.0123456789abcdef0123456789abcdef",
    CaptureStore.textMember "source_family" "government",
    CaptureStore.textMember "resource_id" wltpResource,
    CaptureStore.textMember "upstream_version" "2026-09",
    CaptureStore.textMember "upstream_version_kind" "dataset_version",
    CaptureStore.textMember "content_sha256"
      "bc51e9e65d79e1c90ba544ab2eae1044ccdf8c1af7a559ba375cba4276f7d99e",
    CaptureStore.textMember "retrieved_at" "2026-09-24T00:00:00Z",
    ("declared_record_count".toList, .number 2 0)]

def wltpRecord (n : ℕ) : Jsonb :=
  .obj [CaptureStore.textMember "snapshot_id" "s", CaptureStore.textMember "resource_id" wltpResource,
    ("record_key".toList, .str ("cr1.0123456789abcdef0123456789abcde".toList ++ natText n)),
    ("upstream_record_id".toList, .str (natText n)),
    ("payload".toList, .obj [("m".toList, .number n 0)]),
    ("source_locator".toList, .obj [("capture_index".toList, .number n 0)])]

def wltpArchive : ArchiveReport where
  snapshotId := "s".toList
  gcsUri := ("gs://milo-archive/register/" ++ wltpResource ++
    "/0123456789abcdef/cs1.0123456789abcdef0123456789abcdef.jsonl.gz").toList
  byteSize := 120
  sha256 := wltpVersion.toList
  lineCount := 2

def unitCaptured : UnitReport where
  unitId := "a".toList
  status := .captured
  snapshotId := some "s".toList
  apiTotal := some 2
  capturedRows := some 2
  countVerified := some true

/-- Run `b` captures one unit, and a later claim takes another. -/
def capturesOne : List RegisterEvent :=
  [namesDirectory, .request 2 "g".toList id 0 (requestOf ["a".toList] 100),
    .trigger 3 "g".toList (some "b".toList) .triggered none,
    .capture (.snapshot (CaptureStore.callOf "b" 4) "s".toList wltpSnapshot),
    .capture (.rawRecords (CaptureStore.callOf "b" 5) id (.arr [wltpRecord 1, wltpRecord 2])),
    .archive (CaptureStore.callOf "b" 6) wltpArchive,
    .capture (.activate (CaptureStore.callOf "b" 7)
      (.obj [CaptureStore.textMember "snapshot_id" "s"])),
    .report (CaptureStore.callOf "b" 8) 300 unitCaptured,
    .request 9 "h".toList id 0 (requestOf ["a".toList, "c".toList] 5)]

theorem units_hold_capturesOne :
    ∃ hist s, UnitsHold directoryDatabase (fun _ => true) hist s ∧
      hist.map Prod.snd = capturesOne ∧
        (s.units.entries.map fun e => (e.1.2, e.2.status, e.2.groupId)) =
          [("a".toList, .captured, "g".toList), ("c".toList, .requested, "h".toList)] :=
  ⟨_, _, units_hold unused_emptyRegister (run_emptyRegister capturesOne), rfl, by decide +kernel⟩

end RegisterStore

end Milo.Catalog
