import Milo.Catalog.AutoSync
import Milo.Python.Text
import Milo.Reasoning.Dict
import Milo.Reasoning.Metered
import Milo.Reasoning.StableSort

/-!
# RegisterSync — one incremental sync of the register

A sync checks the register with a few requests, reads the directory again if something moved, and
captures slices of its work list one after another.  Every request of the run is charged to one meter.
What the client does between two requests, and what a repository call answers, is the world's.
-/

namespace Milo.Catalog

open Milo.Reasoning Milo.Python

/-! ## 1. The metered transport -/

structure HttpRequest where
  url : Text
  params : List (Text × Text)
  deriving DecidableEq

structure HttpResponse where
  status : ℤ
  contentType : Text
  body : Text
  deriving DecidableEq

/-- `str(content_type).split(";", 1)[0].strip().lower()`. -/
def mediaType (contentType : Text) : Text :=
  (strip (contentType.takeWhile fun c => decide (c ≠ ';'))).map Char.toLower

/-- The firewall's answer; a transport failure is none. -/
def isFirewallAnswer : Option HttpResponse → Bool
  | none => false
  | some response => decide (response.status = 429) ||
      decide (response.status = 403) && decide (mediaType response.contentType = "text/html".toList)

/-- `SYNC_MAX_REQUESTS`. -/
def syncMaxRequests : ℕ := 80
/-- `SYNC_REFRESH_TOZARS`. -/
def syncRefreshTozars : ℕ := 2
/-- `SYNC_RETRY_HEADROOM`. -/
def syncRetryHeadroom : ℕ := 1

/-- `MeteredTransport`: `used` is the number of questions, `throttled` is `tripped`. -/
abbrev SyncMeter := Meter HttpRequest syncMaxRequests isFirewallAnswer

abbrev SyncOperation := Operation HttpRequest (Option HttpResponse)

/-! ## 2. What is recorded, and what is seen -/

/-- What ends a call: the source refused, the repository refused, or anything else. -/
inductive SyncFailure
  | source (reason : Text)
  | app (code : Text)
  | other (code : Text)
  deriving DecidableEq

def requestBudgetExceeded : Text := "GOV_DIRECTORY_REQUEST_BUDGET_EXCEEDED".toList
def syncThrottled : Text := "GOV_SYNC_THROTTLED".toList
def directoryTooLarge : Text := "GOV_SYNC_DIRECTORY_TOO_LARGE".toList

structure ResourceMetadata where
  upstreamVersion : Text
  metadataModified : Text
  deriving DecidableEq

/-- The basis of a sync; a recorded one may lack fields. -/
structure SyncBasis where
  upstreamVersion : Option Text
  metadataModified : Option Text
  sourceTotal : Option ℤ
  directoryVersion : Option Text
  deriving DecidableEq

/-- The latest directory: its version and the rows it expects of each tozar. -/
structure SyncDirectory where
  version : Text
  expected : Dict Text ℕ
  deriving DecidableEq

inductive ViewState
  | capturing
  | captured
  | failed
  deriving DecidableEq, Repr

/-- What `unit_views` shows of the newest request of a tozar. -/
structure UnitView where
  state : ViewState
  capturedRows : Option ℕ
  registerVersion : Option Text
  snapshotKey : Option Text
  updatedAt : Text
  deriving DecidableEq

/-- The outcome of a captured unit. -/
structure UnitResult where
  captured : Bool
  snapshotKey : Text
  capturedRows : Option ℕ
  failureCode : Text
  deriving DecidableEq

/-- What `request_register_capture` answers: a claim starts at least one of the tozars it was asked for,
    each once. -/
inductive SyncClaim (chosen : List Text)
  | claimed (units : List Text) (nonempty : units ≠ []) (asked : units ⊆ chosen)
      (once : units.Nodup)
  | existing
  | overCapacity
  | refused (failure : SyncFailure)

def SyncClaim.isClaimed {chosen : List Text} : SyncClaim chosen → Bool
  | .claimed _ _ _ _ => true
  | _ => false

/-- Everything a sync does not decide itself: the server, the client's operations, the stored rows and
    the answers of the repository. -/
structure RegisterWorld where
  answers : List (HttpRequest × Option HttpResponse) → HttpRequest → Option HttpResponse
  pageLimit : ℕ
  packageShow : SyncOperation (Except SyncFailure ResourceMetadata)
  sourceTotal : ℕ → SyncOperation (Except SyncFailure ℤ)
  lightDirectory : Dict Text ℕ → ℕ → SyncOperation (Except SyncFailure (Dict Text ℕ))
  captureUnit : Text → ℕ → SyncOperation (Except SyncFailure UnitResult)
  ownGroup : Option Text
  directory : Option SyncDirectory
  basis : Option SyncBasis
  views : Dict Text UnitView
  recordDirectory : Dict Text ℕ → Except SyncFailure Text
  claim : Text → (chosen : List Text) → SyncClaim chosen
  /-- The calls that bind a claimed group to this run and read it back. -/
  bindGroup : List Text → Option SyncFailure
  groupMaxRows : ℕ

/-! ## 3. The work list -/

/-- The bytes of a name, in which names are ordered. -/
def utf8 (name : Text) : List ℕ := name.flatMap fun c => (String.utf8EncodeChar c).map UInt8.toNat

/-- `estimate`: `package_show`, the pages of the unit, the fresh count. -/
def estimateRequests (rows pageLimit : ℕ) : ℕ := 1 + max 1 ((rows + pageLimit - 1) / pageLimit) + 1

inductive BacklogClass
  | never
  | failed
  | drifted
  deriving DecidableEq, Repr

/-- The class of a tozar in the backlog, if it is in it. -/
def backlogClass (views : Dict Text UnitView) (version tozar : Text) (rows : ℕ) : Option BacklogClass :=
  match views.get? tozar with
  | none => some .never
  | some view =>
    match view.state with
    | .failed => some .failed
    | .captured =>
      if view.capturedRows ≠ some rows ∧ view.registerVersion ≠ some version then some .drifted else none
    | .capturing => none

/-- The tozars of one class. -/
def classTozars (expected : Dict Text ℕ) (views : Dict Text UnitView) (version : Text)
    (which : BacklogClass) : List Text :=
  (expected.entries.filter fun e => decide (backlogClass views version e.1 e.2 = some which)).map Prod.fst

/-- `plan`: the backlog, in its fixed order. -/
def planBacklog (expected : Dict Text ℕ) (views : Dict Text UnitView) (version : Text) : List Text :=
  [BacklogClass.never, .failed, .drifted].flatMap fun which =>
    sortedBy utf8 (classTozars expected views version which)

/-- `refresh`: the tozars captured longest ago under another version. -/
def refreshTozars (expected : Dict Text ℕ) (views : Dict Text UnitView) (version : Text) : List Text :=
  let candidates := expected.keys.filter fun tozar => (views.get? tozar).any fun view =>
    decide (view.state = .captured) && decide (view.registerVersion ≠ some version)
  let updatedAt (tozar : Text) : Text := ((views.get? tozar).map UnitView.updatedAt).getD []
  (sortedBy (fun tozar => toLex (updatedAt tozar, utf8 tozar)) candidates).take syncRefreshTozars

namespace RegisterWorld

variable (w : RegisterWorld)

/-- Whether the directory has to be read again. -/
def changed (directory : SyncDirectory) (seen : SyncBasis) : Bool :=
  match w.basis with
  | none => true
  | some basis =>
    decide (basis.directoryVersion ≠ some directory.version) ||
      decide (basis.upstreamVersion ≠ seen.upstreamVersion) ||
      decide (basis.metadataModified ≠ seen.metadataModified) ||
      decide (basis.sourceTotal ≠ seen.sourceTotal) ||
      w.views.entries.any fun e => decide (e.2.state = .captured) &&
        decide (e.2.registerVersion = some directory.version) &&
        (directory.expected.get? e.1).any fun rows => decide (e.2.capturedRows ≠ some rows)

/-! ## 4. The checks -/

/-- What the run works on once the checks are over. -/
structure SyncPlan where
  stop : SyncStop
  reason : Text
  changed : Bool
  basis : Option SyncBasis
  directory : SyncDirectory
  work : List Text
  backlog : List Text

/-- The checks went through: the backlog, or else the rolling refresh. -/
def planned (directory : SyncDirectory) (seen : SyncBasis) (changed : Bool) : SyncPlan :=
  let backlog := planBacklog directory.expected w.views directory.version
  { stop := .complete
    reason := []
    changed
    basis := some { seen with directoryVersion := some directory.version }
    directory
    work := if backlog = [] then refreshTozars directory.expected w.views directory.version else backlog
    backlog }

/-- The checks ended early: the firewall's answer and a spent budget stop the run, with the backlog it
    reports; any other refusal is raised. -/
def checksFailed (directory : SyncDirectory) (changed : Bool) (reason : Text) (m : SyncMeter)
    (failure : SyncFailure) : Except SyncFailure SyncPlan :=
  match failure with
  | .source code =>
    if m.tripped = false ∧ code ≠ requestBudgetExceeded then .error failure
    else
      let backlog := planBacklog directory.expected w.views directory.version
      .ok { stop := if m.tripped then .throttled else .budget
            reason := if m.tripped then syncThrottled else reason
            changed
            basis := w.basis
            directory
            work := backlog
            backlog }
  | _ => .error failure

/-- Step 1 and 2. -/
def checks (directory : SyncDirectory) (m : SyncMeter) : Except SyncFailure SyncPlan × SyncMeter :=
  match w.packageShow.run w.answers m with
  | (.error failure, m) => (w.checksFailed directory false [] m failure, m)
  | (.ok metadata, m) =>
    match (w.sourceTotal m.remaining).run w.answers m with
    | (.error failure, m) => (w.checksFailed directory false [] m failure, m)
    | (.ok total, m) =>
      let seen : SyncBasis :=
        { upstreamVersion := some metadata.upstreamVersion
          metadataModified := some metadata.metadataModified
          sourceTotal := some total
          directoryVersion := none }
      if w.changed directory seen then
        match (w.lightDirectory directory.expected m.remaining).run w.answers m with
        | (.error failure, m) => (w.checksFailed directory true directoryTooLarge m failure, m)
        | (.ok found, m) =>
          match w.recordDirectory found with
          | .error failure => (.error failure, m)
          | .ok version => (.ok (w.planned ⟨version, found⟩ seen true), m)
      else (.ok (w.planned directory seen false), m)

/-! ## 5. Capturing -/

/-- The requests a unit needs to be started. -/
def needed (rows : ℕ) : ℕ := estimateRequests rows w.pageLimit + syncRetryHeadroom

def rowsOf (directory : SyncDirectory) (tozar : Text) : ℕ := (directory.expected.get? tozar).getD 0

/-- The next slice of the work list, within the row cap and the requests left; `chosen` tells whether it
    has begun. -/
def slice (directory : SyncDirectory) (remaining : ℕ) (rows cost : ℕ) (chosen : Bool) :
    List Text → List Text
  | [] => []
  | tozar :: rest =>
    let more := rowsOf directory tozar
    if chosen && decide (w.groupMaxRows < rows + more) then []
    else if remaining < cost + w.needed more then []
    else tozar :: slice directory remaining (rows + more) (cost + estimateRequests more w.pageLimit)
      true rest

/-- `stop_before`. -/
def stopBefore (m : SyncMeter) (rows : ℕ) : Bool := m.tripped || decide (m.remaining < w.needed rows)

/-- `capture_group`, of units that were just claimed. -/
def captureGroup (directory : SyncDirectory) :
    List Text → List (Text × UnitResult) → SyncMeter →
      Except SyncFailure (List (Text × UnitResult)) × SyncMeter
  | [], report, m => (.ok report, m)
  | tozar :: rest, report, m =>
    if w.stopBefore m (rowsOf directory tozar) then (.ok report, m)
    else
      match (w.captureUnit tozar (rowsOf directory tozar)).run w.answers m with
      | (.error failure, m) => (.error failure, m)
      | (.ok result, m) => captureGroup directory rest (report ++ [(tozar, result)]) m

/-- What the run has done: the claims it made and the units it attempted, in order. -/
structure SyncRun where
  meter : SyncMeter
  stop : SyncStop
  reason : Text
  outcomes : Dict Text UnitResult
  claims : List (List Text)
  attempts : List (Text × UnitResult)

/-- `outcomes.update(report)`. -/
def updateOutcomes (outcomes : Dict Text UnitResult) (report : List (Text × UnitResult)) :
    Dict Text UnitResult :=
  report.foldl (fun outcomes unit => outcomes.set unit.1 unit.2) outcomes

/-- After a group: the firewall, the budget or a group cut short stops the run. -/
def SyncRun.afterGroup (s : SyncRun) (units : List Text) (report : List (Text × UnitResult))
    (m : SyncMeter) : SyncRun :=
  { s with
    meter := m
    stop :=
      if m.tripped then .throttled
      else if m.remaining = 0 ∨ report.any (fun unit => unit.2.failureCode = requestBudgetExceeded) then
        .budget
      else if report.length < units.length then .budget
      else s.stop
    reason := if m.tripped then syncThrottled else s.reason
    outcomes := updateOutcomes s.outcomes report
    attempts := s.attempts ++ report }

def SyncRun.claiming (s : SyncRun) (chosen : List Text) : SyncRun :=
  { s with claims := s.claims ++ [chosen] }

theorem slice_length_le (directory : SyncDirectory) (remaining : ℕ) (l : List Text) :
    ∀ rows cost chosen, (w.slice directory remaining rows cost chosen l).length ≤ l.length := by
  induction l with
  | nil => exact fun _ _ _ => le_refl 0
  | cons tozar rest ih =>
    intro rows cost chosen
    unfold slice
    dsimp only
    split
    · exact Nat.zero_le _
    · split
      · exact Nat.zero_le _
      · exact Nat.succ_le_succ (ih _ _ _)

/-- The loop over the rest of the work list; it ends because each claim takes a part of it. -/
def captureLoop (directory : SyncDirectory) (rest : List Text) (s : SyncRun) :
    Option SyncFailure × SyncRun :=
  if s.stop ≠ .complete ∨ rest = [] then (none, s)
  else
    let chosen := w.slice directory s.meter.remaining 0 0 false rest
    if hchosen : chosen = [] then (none, { s with stop := .budget })
    else
      match w.claim directory.version chosen with
      | .refused failure => (some failure, s.claiming chosen)
      | .overCapacity => (none, { s.claiming chosen with stop := .capacity })
      | .existing => captureLoop directory (rest.drop chosen.length) (s.claiming chosen)
      | .claimed units _ _ _ =>
        match w.bindGroup units with
        | some failure => (some failure, s.claiming chosen)
        | none =>
          match w.captureGroup directory units [] s.meter with
          | (.error failure, m) => (some failure, { s.claiming chosen with meter := m })
          | (.ok report, m) =>
            captureLoop directory (rest.drop chosen.length)
              ((s.claiming chosen).afterGroup units report m)
termination_by rest.length
decreasing_by
  all_goals
    have hpos : 0 < (w.slice directory s.meter.remaining 0 0 false rest).length :=
      List.length_pos_iff.mpr hchosen
    have hle := w.slice_length_le directory s.meter.remaining rest 0 0 false
    rw [List.length_drop]
    omega

/-! ## 6. The document -/

structure SyncDocument where
  changed : Bool
  directoryVersion : Text
  work : ℕ
  captured : ℕ
  reused : ℕ
  failed : ℕ
  deferred : ℤ
  requests : ℕ
  stop : SyncStop
  backlog : ℕ × ℕ
  coverage : ℕ × ℕ
  basis : Option SyncBasis
  failureCodes : List Text
  reasonCode : Text
  deriving DecidableEq

/-- A captured unit whose snapshot is the one its view already showed. -/
def isReused (tozar : Text) (result : UnitResult) : Bool :=
  (w.views.get? tozar).any fun view =>
    decide (view.state = .captured) && decide (view.snapshotKey = some result.snapshotKey)

/-- The rows a tozar is covered with. -/
def covered (outcomes : Dict Text UnitResult) (tozar : Text) : ℕ :=
  match outcomes.get? tozar with
  | some result => if result.captured then result.capturedRows.getD 0 else 0
  | none =>
    match w.views.get? tozar with
    | some view => if view.state = .captured then view.capturedRows.getD 0 else 0
    | none => 0

/-- `_document`, and how the run ends. -/
def document (plan : SyncPlan) (s : SyncRun) : SyncDocument :=
  let done := s.outcomes.entries.filter fun e => e.2.captured
  let reused := done.filter fun e => w.isReused e.1 e.2
  let left := plan.backlog.filter fun tozar => !(done.map Prod.fst).contains tozar
  let failureCodes := sortedBy id
    ((s.outcomes.values.map UnitResult.failureCode).filter fun code => decide (code ≠ [])).dedup
  { changed := plan.changed
    directoryVersion := plan.directory.version.take 12
    work := plan.work.length
    captured := done.length - reused.length
    reused := reused.length
    failed := s.outcomes.entries.length - done.length
    deferred := plan.work.length - s.outcomes.entries.length
    requests := s.meter.asked.length
    stop := s.stop
    backlog := (left.length, (left.map (rowsOf plan.directory)).sum)
    coverage := ((plan.directory.expected.keys.map (w.covered s.outcomes)).sum,
      plan.directory.expected.values.sum)
    basis := plan.basis
    failureCodes
    reasonCode :=
      if s.reason ≠ [] then s.reason
      else if failureCodes ≠ [] then "CATALOG_REGISTER_CAPTURE_FAILED".toList else [] }

/-- What a run of `run_sync` did: the meter and the plan after its checks, all it did, and what it
    returned or raised. -/
structure SyncResult where
  checked : SyncMeter
  plan : Option SyncPlan
  run : SyncRun
  outcome : Except SyncFailure SyncDocument

def SyncRun.begin (m : SyncMeter) (stop : SyncStop) (reason : Text) : SyncRun :=
  ⟨m, stop, reason, Dict.empty, [], []⟩

/-- The run raised before it had a plan. -/
def SyncResult.raised (m : SyncMeter) (failure : SyncFailure) : SyncResult :=
  ⟨m, none, SyncRun.begin m .complete [], .error failure⟩

/-- `run_sync`. -/
def runSync : SyncResult :=
  match w.ownGroup, w.directory with
  | none, _ => .raised Meter.fresh (.other "CATALOG_REGISTER_UNIT_NOT_THIS_RUN".toList)
  | _, none => .raised Meter.fresh (.other "CATALOG_REGISTER_NO_DIRECTORY".toList)
  | some _, some directory =>
    match w.checks directory Meter.fresh with
    | (.error failure, m) => .raised m failure
    | (.ok plan, m) =>
      match w.captureLoop plan.directory plan.work (.begin m plan.stop plan.reason) with
      | (some failure, s) => ⟨m, some plan, s, .error failure⟩
      | (none, s) => ⟨m, some plan, s, .ok (w.document plan s)⟩

end RegisterWorld

end Milo.Catalog
