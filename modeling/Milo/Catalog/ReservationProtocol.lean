import Milo.Catalog.Reservations
import Milo.Catalog.Settlements
import Milo.Reasoning.Transition

/-!
# ReservationProtocol — paid-work claims over every interleaving

Calls of any runs interleave statement by statement, waiting for each other's locked rows only, with
settlements, run endings, lease changes and the clock.  While no call gives back a row it has answered
for, and no row is gone when it is locked, an answer of `reserved` is backed by the run's row and one
run at most stands reserved for a variant.
-/

namespace Milo.Catalog

open Milo.Reasoning Milo.Python

/-! ## 1. Histories -/

/-- The tables, the clock and the calls under way, with the answers of `reserved` that stand: given
    to a run that has been active, or finished and not settled, ever since. -/
structure ClaimState where
  store : CoverageStore
  vocabulary : Text
  now : ℤ
  calls : Dict Text AcquireCall := Dict.empty
  standing : List (Text × (Text × CoverageLevel)) := []

inductive ClaimEvent
  | acquire (callId runId workerId : Text) (attempt : ℕ) (leaseToken : Text) (level : CoverageLevel)
      (candidateIds : List Text)
  | insert (callId : Text)
  | lock (callId : Text)
  | answer (callId : Text)
  | abort (callId : Text)
  | settle (runId : Text) (level : CoverageLevel) (entries : List CoverageEntry)
  | run (runId : Text) (row : RunRow)
  | plans (batchRuns : Dict Text Text) (batches : Dict Text Batch) (candidates : Dict Text Candidate)
  | vocabulary (version : Text)
  | wait (ticks : ℕ)

namespace ClaimState

variable (s : ClaimState)

/-- The rows a call holds. -/
def held (callId : Text) : Overlay (Text × CoverageLevel) Reservation :=
  match s.calls.get? callId with
  | some call => call.rows
  | none => Dict.empty

/-- A call and the item it is at. -/
def current (callId : Text) : Option (AcquireCall × ClaimItem × List ClaimItem) :=
  match s.calls.get? callId with
  | none => none
  | some call =>
    match call.items with
    | [] => none
    | item :: rest => some (call, item, rest)

/-- No other call holds the row. -/
def Free (callId : Text) (place : Text × CoverageLevel) : Prop :=
  ∀ e ∈ s.calls.entries, e.1 ≠ callId → e.2.rows.get? place = none

instance (callId : Text) (place : Text × CoverageLevel) : Decidable (s.Free callId place) :=
  inferInstanceAs (Decidable (∀ e ∈ s.calls.entries, _))

/-- The answers of `reserved` a call returns. -/
def reservedBy (call : AcquireCall) : List (Text × (Text × CoverageLevel)) :=
  (call.answers.filter fun answer => decide (answer.decision = .reserved)).map fun answer =>
    (call.runId, (answer.identityKey, call.level))

/-- An answer stands no longer once its run is dead. -/
def dropDead : ClaimState :=
  { s with
    standing := s.standing.filter fun e =>
      decide (reservationState s.store.runs s.now (some e.1) ≠ .dead) }

end ClaimState

namespace ClaimEvent

/-- What each event waits for.  An insert waits for a row another call has written, a lock for a row
    another call holds, a settlement for its claims; a lease cannot change under a call that checked
    it; and a terminal status is never left. -/
def Allowed (s : ClaimState) : ClaimEvent → Prop
  | acquire callId _ _ _ _ _ _ => s.calls.get? callId = none
  | insert callId =>
    ∃ point ∈ s.current callId, point.1.inserted = none ∧
      ∀ e ∈ s.calls.entries, e.1 ≠ callId →
        e.2.rows.get? (point.1.place point.2.1) = none ∨
          s.store.reservations.get? (point.1.place point.2.1) ≠ none ∧
            e.2.rows.get? (point.1.place point.2.1) =
              some (s.store.reservations.get? (point.1.place point.2.1))
  | lock callId =>
    ∃ point ∈ s.current callId, point.1.inserted ≠ none ∧
      (s.Free callId (point.1.place point.2.1) ∨
        point.1.rows.view s.store.reservations (point.1.place point.2.1) = none)
  | answer callId => ∃ call ∈ s.calls.get? callId, call.items = []
  | abort callId => callId ∈ s.calls.keys
  | settle runId level _ =>
    ∀ e ∈ s.calls.entries, ∀ place ∈ e.2.rows.keys, place.2 = level →
      (s.store.reservations.get? place).map Reservation.runId ≠ some runId
  | run runId row =>
    (∀ e ∈ s.calls.entries, e.2.runId ≠ runId) ∧
      ∀ old ∈ s.store.runs.get? runId, old.status.isTerminal = true → row.status = old.status
  | plans _ _ _ => True
  | vocabulary _ => True
  | wait _ => True

variable (sha256 : Text → Text)

/-- What an event does; a refused request changes nothing. -/
def next (s : ClaimState) : ClaimEvent → ClaimState
  | acquire callId runId workerId attempt leaseToken level candidateIds =>
    match s.store.beginAcquire s.now runId workerId attempt leaseToken level candidateIds with
    | .ok call => { s with calls := s.calls.set callId call }
    | .error _ => s
  | insert callId =>
    match s.current callId with
    | none => s
    | some (call, item, _) =>
      { s with calls := s.calls.set callId (call.insertItem s.store.reservations item) }
  | lock callId =>
    match s.current callId with
    | none => s
    | some (call, item, rest) =>
      { s with calls := s.calls.set callId (call.lockItem s.store s.vocabulary item rest) }
  | answer callId =>
    match s.calls.get? callId with
    | none => s
    | some call =>
      { s with
        store := { s.store with reservations := call.rows.commit s.store.reservations }
        calls := s.calls.erase callId
        standing := s.standing ++ ClaimState.reservedBy call }
  | abort callId => { s with calls := s.calls.erase callId }
  | settle runId level entries =>
    match applyCatalogVariantCoverage sha256 s.vocabulary s.store runId level entries with
    | .error _ => s
    | .ok (store, _) =>
      { s with
        store := store
        standing := s.standing.filter fun e => !(decide (e.1 = runId) && decide (e.2.2 = level)) }
  | run runId row => { s with store := { s.store with runs := s.store.runs.set runId row } }
  | plans batchRuns batches candidates =>
    { s with
      store :=
        { s.store with batchRuns := batchRuns, batches := batches, candidates := candidates } }
  | vocabulary version => { s with vocabulary := version }
  | wait ticks => { s with now := s.now + ticks }

def exec (s : ClaimState) (event : ClaimEvent) : ClaimState := (event.next sha256 s).dropDead

/-- The row of an item is there when it is locked, and the ledger settles no item whose row the run
    held before it came to the item. -/
def KeepsClaims (s : ClaimState) : ClaimEvent → Prop
  | lock callId =>
    ∀ point ∈ s.current callId,
      ∃ row ∈ point.1.rows.view s.store.reservations (point.1.place point.2.1),
        point.1.inserted = some false → row.runId = point.1.runId →
          s.store.itemDecision s.vocabulary point.1 point.2.1 = .queue
  | _ => True

/-- Each candidate a call answers `reserved` has the calling run's row when it returns. -/
def AnswersBacked (s : ClaimState) : ClaimEvent → Prop
  | answer callId =>
    ∀ call ∈ s.calls.get? callId, ∀ given ∈ call.answers, given.decision = .reserved →
      ∃ row ∈ (exec sha256 s (answer callId)).store.reservations.get?
        (given.identityKey, call.level), row.runId = call.runId
  | _ => True

instance (s : ClaimState) : (event : ClaimEvent) → Decidable (event.Allowed s)
  | acquire _ _ _ _ _ _ _ => inferInstanceAs (Decidable (_ = none))
  | insert callId => inferInstanceAs (Decidable (∃ point ∈ s.current callId, _))
  | lock callId => inferInstanceAs (Decidable (∃ point ∈ s.current callId, _))
  | answer callId => inferInstanceAs (Decidable (∃ call ∈ s.calls.get? callId, _))
  | abort callId => inferInstanceAs (Decidable (callId ∈ s.calls.keys))
  | settle _ _ _ => inferInstanceAs (Decidable (∀ e ∈ s.calls.entries, _))
  | run _ _ => inferInstanceAs (Decidable (_ ∧ _))
  | plans _ _ _ => inferInstanceAs (Decidable True)
  | vocabulary _ => inferInstanceAs (Decidable True)
  | wait _ => inferInstanceAs (Decidable True)

instance (s : ClaimState) (event : ClaimEvent) : Decidable (event.KeepsClaims s) :=
  match event with
  | lock callId => inferInstanceAs (Decidable (∀ point ∈ s.current callId, _))
  | acquire _ _ _ _ _ _ _ | insert _ | answer _ | abort _ | settle _ _ _ | run _ _ | plans _ _ _
  | vocabulary _ | wait _ => inferInstanceAs (Decidable True)

end ClaimEvent

/-- At most one run stands reserved for a variant. -/
def ClaimState.OnePays (s : ClaimState) : Prop :=
  ∀ place, ∀ runId runId', (runId, place) ∈ s.standing → (runId', place) ∈ s.standing →
    runId = runId'

/-- No call is under way, and none was answered. -/
structure ClaimState.Idle (s : ClaimState) : Prop where
  calls : s.calls = Dict.empty
  standing : s.standing = []

/-! ## 2. The rows and the calls -/

namespace ClaimState

variable {s : ClaimState} {callId : Text} {call : AcquireCall}

theorem held_of_get? (h : s.calls.get? callId = some call) : s.held callId = call.rows := by
  unfold held
  rw [h]

theorem held_of_none (h : s.calls.get? callId = none) : s.held callId = Dict.empty := by
  unfold held
  rw [h]

theorem exists_of_held {place : Text × CoverageLevel} {v : Option Reservation}
    (h : (s.held callId).get? place = some v) :
    ∃ call, s.calls.get? callId = some call ∧ call.rows.get? place = some v := by
  cases hcall : s.calls.get? callId with
  | none =>
    rw [held_of_none hcall] at h
    cases h
  | some call =>
    rw [held_of_get? hcall] at h
    exact ⟨call, rfl, h⟩

theorem held_set (s : ClaimState) (callId : Text) (call : AcquireCall) :
    ({ s with calls := s.calls.set callId call } : ClaimState).held =
      Function.update s.held callId call.rows := by
  funext other
  unfold held
  simp only [Dict.get?_set]
  by_cases hother : other = callId
  · rw [if_pos hother, hother, Function.update_self]
  · rw [if_neg hother, Function.update_of_ne hother]

theorem held_erase (s : ClaimState) (callId : Text) :
    ({ s with calls := s.calls.erase callId } : ClaimState).held =
      Function.update s.held callId Dict.empty := by
  funext other
  unfold held
  simp only [Dict.get?_erase]
  by_cases hother : other = callId
  · rw [if_pos hother, hother, Function.update_self]
  · rw [if_neg hother, Function.update_of_ne hother]

theorem current_eq_some {item : ClaimItem} {rest : List ClaimItem}
    (h : s.current callId = some (call, item, rest)) :
    s.calls.get? callId = some call ∧ call.items = item :: rest := by
  unfold current at h
  cases hcall : s.calls.get? callId with
  | none =>
    rw [hcall] at h
    cases h
  | some found =>
    rw [hcall] at h
    cases hitems : found.items with
    | nil =>
      simp only [hitems] at h
      cases h
    | cons first others =>
      simp only [hitems, Option.some.injEq, Prod.mk.injEq] at h
      rw [← h.1, ← h.2.1, ← h.2.2]
      exact ⟨rfl, hitems⟩

theorem Free.held {place : Text × CoverageLevel} (h : s.Free callId place) {other : Text}
    (hother : other ≠ callId) : (s.held other).get? place = none := by
  cases hcall : s.calls.get? other with
  | none =>
    rw [held_of_none hcall]
    rfl
  | some call =>
    rw [held_of_get? hcall]
    exact h (other, call) (Dict.get?_eq_some.mp hcall) hother

theorem mem_reservedBy {e : Text × (Text × CoverageLevel)} :
    e ∈ reservedBy call ↔ ∃ given ∈ call.answers, given.decision = .reserved ∧
      e = (call.runId, (given.identityKey, call.level)) := by
  unfold reservedBy
  simp only [List.mem_map, List.mem_filter, decide_eq_true_eq]
  apply Iff.intro
  · intro h
    rcases h with ⟨given, ⟨hmem, hreserved⟩, he⟩
    exact ⟨given, hmem, hreserved, he.symm⟩
  · intro h
    rcases h with ⟨given, hmem, hreserved, he⟩
    exact ⟨given, ⟨hmem, hreserved⟩, he.symm⟩

end ClaimState

/-! ## 3. What a call keeps -/

namespace AcquireCall

/-- What holds of a call between its statements, over the rows committed. -/
structure Sound (call : AcquireCall) (committed : Dict (Text × CoverageLevel) Reservation) (now : ℤ) :
    Prop where
  answered : ∀ given ∈ call.answers, given.decision = .reserved →
    ∃ row, call.rows.get? (given.identityKey, call.level) = some (some row) ∧
      row.runId = call.runId
  deleted : ∀ place, call.rows.get? place = some none → committed.get? place = none
  inserted : ∀ item rest, call.items = item :: rest → call.inserted = some true →
    (∃ row, call.rows.get? (call.place item) = some row) ∧
      committed.get? (call.place item) = none ∧
      ∀ given ∈ call.answers, given.decision = .reserved → given.identityKey ≠ item.identityKey
  started : call.startedAt ≤ now

variable {call : AcquireCall} {committed other : Dict (Text × CoverageLevel) Reservation} {now : ℤ}
  {item : ClaimItem} {rest : List ClaimItem}

theorem Sound.mono (h : call.Sound committed now) {later : ℤ} (hle : now ≤ later)
    (hrows : ∀ place left, call.rows.get? place = some left → committed.get? place = none →
      other.get? place = none) : call.Sound other later where
  answered := h.answered
  deleted place hplace := hrows place none hplace (h.deleted place hplace)
  inserted item rest hitems hinserted := by
    rcases h.inserted item rest hitems hinserted with ⟨⟨row, hrow⟩, hcommitted, hanswers⟩
    exact ⟨⟨row, hrow⟩, hrows _ _ hrow hcommitted, hanswers⟩
  started := h.started.trans hle

theorem place_eq_iff {given : ClaimAnswer} :
    (given.identityKey, call.level) = call.place item ↔ given.identityKey = item.identityKey := by
  unfold place
  simp

/-- A row the call sees nowhere was answered for by no item before. -/
theorem Sound.answer_ne_of_view_none (h : call.Sound committed now)
    (hview : call.rows.view committed (call.place item) = none) :
    ∀ given ∈ call.answers, given.decision = .reserved → given.identityKey ≠ item.identityKey := by
  intro given hgiven hreserved hkey
  rcases h.answered given hgiven hreserved with ⟨row, hrow, -⟩
  rw [place_eq_iff.mpr hkey] at hrow
  rw [Overlay.view_of_held hrow] at hview
  cases hview

theorem Sound.committed_of_view_none (h : call.Sound committed now)
    (hview : call.rows.view committed (call.place item) = none) :
    committed.get? (call.place item) = none := by
  cases hheld : call.rows.get? (call.place item) with
  | none =>
    rw [Overlay.view_of_notHeld hheld] at hview
    exact hview
  | some left =>
    rw [Overlay.view_of_held hheld] at hview
    rw [hview] at hheld
    exact h.deleted _ hheld

theorem insertItem_cases (call : AcquireCall) (committed : Dict (Text × CoverageLevel) Reservation)
    (item : ClaimItem) :
    ((∃ row, call.rows.view committed (call.place item) = some row) ∧
      call.insertItem committed item = { call with inserted := some false }) ∨
    (call.rows.view committed (call.place item) = none ∧
      call.insertItem committed item =
        { call with
          inserted := some true
          rows := call.rows.set (call.place item) (some (call.claim item)) }) := by
  unfold insertItem
  cases hview : call.rows.view committed (call.place item) with
  | none => exact Or.inr ⟨rfl, rfl⟩
  | some row => exact Or.inl ⟨⟨row, rfl⟩, rfl⟩

theorem Sound.insertItem (h : call.Sound committed now) (hitems : call.items = item :: rest) :
    (call.insertItem committed item).Sound committed now := by
  rcases insertItem_cases call committed item with ⟨-, heq⟩ | ⟨hview, heq⟩
  · rw [heq]
    exact
      { answered := h.answered
        deleted := h.deleted
        inserted := fun _ _ _ hinserted => by cases hinserted
        started := h.started }
  · rw [heq]
    have hanswers := h.answer_ne_of_view_none hview
    have hcommitted := h.committed_of_view_none hview
    constructor
    case answered =>
      intro given hgiven hreserved
      have hne : (given.identityKey, call.level) ≠ call.place item := by
        rw [Ne, place_eq_iff]
        exact hanswers given hgiven hreserved
      rcases h.answered given hgiven hreserved with ⟨row, hrow, hown⟩
      refine ⟨row, ?_, hown⟩
      show (call.rows.set _ _).get? _ = _
      rw [Dict.get?_set_ne _ _ hne]
      exact hrow
    case deleted =>
      intro place hplace
      simp only [Dict.get?_set] at hplace
      by_cases hitem : place = call.place item
      · rw [if_pos hitem] at hplace
        cases hplace
      · rw [if_neg hitem] at hplace
        exact h.deleted place hplace
    case inserted =>
      intro first others hfirst _
      have hsame : first = item := by
        have hcons : first :: others = item :: rest := hfirst.symm.trans hitems
        exact (List.cons.inj hcons).1
      rw [hsame]
      exact ⟨⟨_, Dict.get?_set_self _ _ _⟩, hcommitted, hanswers⟩
    case started => exact h.started

variable {row : Reservation} {store : CoverageStore} {vocabulary : Text}

theorem ItemOutcome.owner {decided : ClaimDecision × Option Reservation}
    (h : call.ItemOutcome store vocabulary item row decided) :
    (decided.1 = .reserved → ∃ kept, decided.2 = some kept ∧ kept.runId = call.runId) ∧
      (row.runId = call.runId → decided.2 ≠ none →
        ∃ kept, decided.2 = some kept ∧ kept.runId = call.runId) := by
  cases h with
  | kept kept _ hown => exact ⟨fun _ => ⟨kept, rfl, hown⟩, fun _ _ => ⟨kept, rfl, hown⟩⟩
  | takenOver kept _ hown => exact ⟨fun _ => ⟨kept, rfl, hown⟩, fun _ _ => ⟨kept, rfl, hown⟩⟩
  | left _ hdecision => exact ⟨fun h => absurd h hdecision, fun hown _ => ⟨row, rfl, hown⟩⟩
  | givenBack _ hdecision => exact ⟨fun h => absurd h hdecision, fun _ hne => absurd rfl hne⟩

theorem lockItem_eq (hview : call.rows.view store.reservations (call.place item) = some row) :
    call.lockItem store vocabulary item rest =
      { call with
        items := rest
        inserted := none
        rows := call.rows.set (call.place item)
          (call.decideItem store vocabulary item (some row)).2
        answers := call.answers ++
          [answer item (call.decideItem store vocabulary item (some row)).1 (some row)] } := by
  unfold lockItem
  rw [hview]
  rfl

/-- An item that the insert took is the only one given back: its row was nobody's. -/
theorem Sound.committed_of_givenBack (h : call.Sound store.reservations now) (hitems : call.items = item :: rest)
    (hran : call.inserted ≠ none)
    (hkeeps : call.inserted = some false → row.runId = call.runId →
      store.itemDecision vocabulary call item = .queue)
    (hgone : (call.decideItem store vocabulary item (some row)).2 = none) :
    store.reservations.get? (call.place item) = none ∧
      ∀ given ∈ call.answers, given.decision = .reserved → given.identityKey ≠ item.identityKey := by
  cases hinserted : call.inserted with
  | none => exact absurd hinserted hran
  | some took =>
    cases took with
    | true => exact (h.inserted item rest hitems hinserted).2
    | false =>
      rcases decideItem_some_of_queue (hkeeps hinserted) with ⟨left, hleft⟩
      rw [hleft] at hgone
      cases hgone

theorem Sound.lockItem (h : call.Sound store.reservations now) (hitems : call.items = item :: rest)
    (hran : call.inserted ≠ none) (hview : call.rows.view store.reservations (call.place item) = some row)
    (hkeeps : call.inserted = some false → row.runId = call.runId →
      store.itemDecision vocabulary call item = .queue) :
    (call.lockItem store vocabulary item rest).Sound store.reservations now := by
  have hgone := h.committed_of_givenBack hitems hran hkeeps
  have howner := (decideItem_cases call store vocabulary item row).owner
  rw [lockItem_eq hview]
  generalize call.decideItem store vocabulary item (some row) = decided at hgone howner
  constructor
  case answered =>
    intro given hgiven hreserved
    simp only [Dict.get?_set, place_eq_iff]
    rcases List.mem_append.mp hgiven with hbefore | hlast
    · by_cases hkey : given.identityKey = item.identityKey
      · rw [if_pos hkey]
        -- the row the earlier item was answered for is the one decided now
        rcases h.answered given hbefore hreserved with ⟨earlier, hearlier, hown⟩
        rw [place_eq_iff.mpr hkey] at hearlier
        rw [Overlay.view_of_held hearlier] at hview
        rw [Option.some.inj hview] at hown
        have hkept : decided.2 ≠ none := fun hnone => (hgone hnone).2 given hbefore hreserved hkey
        rcases howner.2 hown hkept with ⟨kept, hleft, howns⟩
        exact ⟨kept, by rw [hleft], howns⟩
      · rw [if_neg hkey]
        exact h.answered given hbefore hreserved
    · rw [List.mem_singleton.mp hlast] at hreserved ⊢
      rcases howner.1 hreserved with ⟨kept, hleft, howns⟩
      exact ⟨kept, by rw [hleft]; exact if_pos rfl, howns⟩
  case deleted =>
    intro place hplace
    simp only [Dict.get?_set] at hplace
    by_cases hitem : place = call.place item
    · rw [if_pos hitem] at hplace
      rw [hitem]
      exact (hgone (Option.some.inj hplace)).1
    · rw [if_neg hitem] at hplace
      exact h.deleted place hplace
  case inserted =>
    intro _ _ _ hinserted
    cases hinserted
  case started => exact h.started

end AcquireCall

/-! ## 4. What a state keeps -/

/-- Whoever stands reserved for the variant owns the row. -/
def OwnedBy (standing : List (Text × (Text × CoverageLevel))) (place : Text × CoverageLevel)
    (row : Option Reservation) : Prop :=
  ∀ runId, (runId, place) ∈ standing → row.map Reservation.runId = some runId

namespace ClaimState

/-- What holds between the events: whoever stands reserved owns every version of the row. -/
structure Backed (s : ClaimState) : Prop where
  exclusive : Exclusive s.held
  owned : EveryVersion (OwnedBy s.standing) s.store.reservations s.held
  calls : ∀ callId call, s.calls.get? callId = some call → call.Sound s.store.reservations s.now

/-- No run stands reserved that is dead. -/
def NoneDead (s : ClaimState) : Prop :=
  ∀ e ∈ s.standing, reservationState s.store.runs s.now (some e.1) ≠ .dead

variable {s : ClaimState} {callId : Text} {call : AcquireCall} {item : ClaimItem}
  {rest : List ClaimItem}

theorem Backed.onePays (h : s.Backed) : s.OnePays := by
  intro place runId runId' hrun hrun'
  have hown := h.owned.committed place runId hrun
  have hown' := h.owned.committed place runId' hrun'
  exact Option.some.inj (hown.symm.trans hown')

theorem Idle.backed (h : s.Idle) : s.Backed where
  exclusive t t' k v v' hv := by
    rcases exists_of_held hv with ⟨call, hcall, -⟩
    rw [h.calls] at hcall
    cases hcall
  owned :=
    { committed := fun k runId hrun => by
        rw [h.standing] at hrun
        cases hrun
      uncommitted := fun t k v hv => by
        rcases exists_of_held hv with ⟨call, hcall, -⟩
        rw [h.calls] at hcall
        cases hcall }
  calls callId call hcall := by
    rw [h.calls] at hcall
    cases hcall

theorem Idle.noneDead (h : s.Idle) : s.NoneDead := by
  intro e he
  rw [h.standing] at he
  cases he

theorem Backed.ownedBy_of_committed_none (h : s.Backed) {place : Text × CoverageLevel}
    (hplace : s.store.reservations.get? place = none) (row : Option Reservation) :
    OwnedBy s.standing place row := by
  intro runId hrun
  have hown := h.owned.committed place runId hrun
  rw [hplace] at hown
  cases hown

theorem Backed.setCall (h : s.Backed) (next : AcquireCall)
    (hexclusive : Exclusive (Function.update s.held callId next.rows))
    (howned : EveryVersion (OwnedBy s.standing) s.store.reservations
      (Function.update s.held callId next.rows))
    (hnext : next.Sound s.store.reservations s.now) :
    ({ s with calls := s.calls.set callId next } : ClaimState).Backed where
  exclusive := by
    rw [held_set]
    exact hexclusive
  owned := by
    rw [held_set]
    exact howned
  calls other call hcall := by
    simp only [Dict.get?_set] at hcall
    by_cases hother : other = callId
    · rw [if_pos hother, Option.some.injEq] at hcall
      rw [← hcall]
      exact hnext
    · rw [if_neg hother] at hcall
      exact h.calls other call hcall

/-- A call that locks no row more, or gives the same rows back. -/
theorem Backed.setCall_sameRows (h : s.Backed) (next : AcquireCall)
    (hrows : next.rows = s.held callId) (hnext : next.Sound s.store.reservations s.now) :
    ({ s with calls := s.calls.set callId next } : ClaimState).Backed := by
  have hheld : Function.update s.held callId next.rows = s.held := by
    rw [hrows, Function.update_eq_self]
  apply h.setCall next _ _ hnext
  · rw [hheld]
    exact h.exclusive
  · rw [hheld]
    exact h.owned

theorem Backed.setCall_row (h : s.Backed) (hcall : s.calls.get? callId = some call)
    (next : AcquireCall) {place : Text × CoverageLevel} {left : Option Reservation}
    (hrows : next.rows = call.rows.set place left) (hfree : s.Free callId place)
    (hleft : OwnedBy s.standing place left) (hnext : next.Sound s.store.reservations s.now) :
    ({ s with calls := s.calls.set callId next } : ClaimState).Backed := by
  have hset : next.rows = (s.held callId).set place left := by
    rw [hrows, held_of_get? hcall]
  apply h.setCall next _ _ hnext
  · rw [hset]
    exact h.exclusive.set left fun other hother => hfree.held hother
  · rw [hset]
    exact h.owned.set hleft

theorem Backed.abort (h : s.Backed) (callId : Text) :
    ({ s with calls := s.calls.erase callId } : ClaimState).Backed where
  exclusive := by
    rw [held_erase]
    exact h.exclusive.close callId
  owned := by
    rw [held_erase]
    exact h.owned.close callId
  calls other call hcall := by
    simp only [Dict.get?_erase] at hcall
    by_cases hother : other = callId
    · rw [if_pos hother] at hcall
      cases hcall
    · rw [if_neg hother] at hcall
      exact h.calls other call hcall

theorem Backed.insert (h : s.Backed) (hcall : s.calls.get? callId = some call)
    (hitems : call.items = item :: rest)
    (hwaits : ∀ e ∈ s.calls.entries, e.1 ≠ callId →
      e.2.rows.get? (call.place item) = none ∨
        s.store.reservations.get? (call.place item) ≠ none ∧
          e.2.rows.get? (call.place item) = some (s.store.reservations.get? (call.place item))) :
    ({ s with
      calls := s.calls.set callId (call.insertItem s.store.reservations item) } : ClaimState).Backed := by
  have hsound := h.calls callId call hcall
  have hnext := hsound.insertItem hitems
  rcases AcquireCall.insertItem_cases call s.store.reservations item with ⟨-, heq⟩ | ⟨hview, heq⟩
  · rw [heq] at hnext ⊢
    exact h.setCall_sameRows _ (held_of_get? hcall).symm hnext
  · have hcommitted := hsound.committed_of_view_none hview
    have hfree : s.Free callId (call.place item) := by
      intro e he hother
      rcases hwaits e he hother with hfree | ⟨hrow, -⟩
      · exact hfree
      · exact absurd hcommitted hrow
    rw [heq] at hnext ⊢
    exact h.setCall_row hcall _ rfl hfree (h.ownedBy_of_committed_none hcommitted _) hnext

/-- Whoever stands reserved owns what is left of an item's row. -/
theorem Backed.ownedBy_decided (h : s.Backed) (hdead : s.NoneDead)
    (hcall : s.calls.get? callId = some call) (hitems : call.items = item :: rest)
    (hran : call.inserted ≠ none) {row : Reservation}
    (hview : call.rows.view s.store.reservations (call.place item) = some row)
    (hkeeps : call.inserted = some false → row.runId = call.runId →
      s.store.itemDecision s.vocabulary call item = .queue) :
    OwnedBy s.standing (call.place item)
      (call.decideItem s.store s.vocabulary item (some row)).2 := by
  have hsound := h.calls callId call hcall
  have hgone := hsound.committed_of_givenBack hitems hran hkeeps
  have hstood : OwnedBy s.standing (call.place item) (some row) := by
    rw [← hview, ← held_of_get? hcall]
    exact h.owned.view callId (call.place item)
  have hcases := AcquireCall.decideItem_cases call s.store s.vocabulary item row
  generalize call.decideItem s.store s.vocabulary item (some row) = decided at hgone hcases ⊢
  intro runId hrun
  have howner : row.runId = runId := Option.some.inj (hstood runId hrun)
  cases hcases with
  | kept kept hown hkept =>
    show some kept.runId = some runId
    rw [hkept, ← hown, howner]
  | takenOver kept howns _ =>
    have hnow := reservationState_dead_mono hsound.started howns
    rw [howner] at hnow
    exact absurd hnow (hdead _ hrun)
  | left _ _ => exact hstood runId hrun
  | givenBack _ _ _ _ => exact h.ownedBy_of_committed_none (hgone rfl).1 none runId hrun

theorem Backed.lock (h : s.Backed) (hdead : s.NoneDead) (hcall : s.calls.get? callId = some call)
    (hitems : call.items = item :: rest) (hran : call.inserted ≠ none) {row : Reservation}
    (hview : call.rows.view s.store.reservations (call.place item) = some row)
    (hfree : s.Free callId (call.place item))
    (hkeeps : call.inserted = some false → row.runId = call.runId →
      s.store.itemDecision s.vocabulary call item = .queue) :
    ({ s with
      calls := s.calls.set callId (call.lockItem s.store s.vocabulary item rest) } : ClaimState).Backed := by
  have hnext := (h.calls callId call hcall).lockItem hitems hran hview hkeeps
  have hleft := h.ownedBy_decided hdead hcall hitems hran hview hkeeps
  rw [AcquireCall.lockItem_eq hview] at hnext ⊢
  exact h.setCall_row hcall _ rfl hfree hleft hnext

/-- What a call answered `reserved` is the row it leaves. -/
theorem Backed.answered (h : s.Backed) (hcall : s.calls.get? callId = some call)
    {given : ClaimAnswer} (hgiven : given ∈ call.answers) (hreserved : given.decision = .reserved) :
    ∃ row, (call.rows.commit s.store.reservations).get? (given.identityKey, call.level) = some row ∧
      row.runId = call.runId := by
  rcases (h.calls callId call hcall).answered given hgiven hreserved with ⟨row, hrow, hown⟩
  refine ⟨row, ?_, hown⟩
  rw [Overlay.get?_commit, Overlay.view_of_held hrow]

theorem Backed.answer (h : s.Backed) (hcall : s.calls.get? callId = some call) :
    ({ s with
      store := { s.store with reservations := call.rows.commit s.store.reservations }
      calls := s.calls.erase callId
      standing := s.standing ++ reservedBy call } : ClaimState).Backed := by
  have hheld := held_of_get? hcall
  have hold := h.owned.commit callId
  rw [hheld] at hold
  constructor
  case exclusive => exact (h.abort callId).exclusive
  case owned =>
    show EveryVersion _ _ ({ s with calls := s.calls.erase callId } : ClaimState).held
    rw [held_erase]
    constructor
    case committed =>
      intro place runId hrun
      rcases List.mem_append.mp hrun with hstood | hnew
      · exact hold.committed place runId hstood
      · rcases mem_reservedBy.mp hnew with ⟨given, hgiven, hreserved, heq⟩
        rcases h.answered hcall hgiven hreserved with ⟨row, hrow, hown⟩
        have hrunId := (Prod.mk.inj heq).1
        rw [(Prod.mk.inj heq).2, hrow, hrunId]
        exact congrArg some hown
    case uncommitted =>
      intro other place left hleft runId hrun
      rcases List.mem_append.mp hrun with hstood | hnew
      · exact hold.uncommitted other place left hleft runId hstood
      · -- the rows of the answers are held by the call that returns, and by no other
        rcases mem_reservedBy.mp hnew with ⟨given, hgiven, hreserved, heq⟩
        rcases (h.calls callId call hcall).answered given hgiven hreserved with ⟨row, hrow, -⟩
        rw [← (Prod.mk.inj heq).2, ← hheld] at hrow
        by_cases hother : other = callId
        · rw [hother, Function.update_self] at hleft
          cases hleft
        · rw [Function.update_of_ne hother] at hleft
          exact absurd (h.exclusive other callId place _ _ hleft hrow) hother
  case calls =>
    intro other otherCall hget
    simp only [Dict.get?_erase] at hget
    by_cases hother : other = callId
    · rw [if_pos hother] at hget
      cases hget
    · rw [if_neg hother] at hget
      apply (h.calls other otherCall hget).mono le_rfl
      intro place left hleft hnone
      rw [Overlay.get?_commit, Overlay.view_of_notHeld, hnone]
      rw [← held_of_get? hget] at hleft
      cases hmine : call.rows.get? place with
      | none => rfl
      | some mine =>
        rw [← hheld] at hmine
        exact absurd (h.exclusive other callId place _ _ hleft hmine) hother

/-- Fewer stand, and the rows of those that stand are kept. -/
theorem Backed.release (h : s.Backed) {store : CoverageStore}
    {standing : List (Text × (Text × CoverageLevel))} (hsub : ∀ e ∈ standing, e ∈ s.standing)
    (hrows : ∀ place, store.reservations.get? place = s.store.reservations.get? place ∨
      store.reservations.get? place = none ∧ ∀ runId, (runId, place) ∉ standing) :
    ({ s with store := store, standing := standing } : ClaimState).Backed where
  exclusive := h.exclusive
  owned :=
    { committed := fun place runId hrun => by
        rcases hrows place with hsame | ⟨-, hnobody⟩
        · show (store.reservations.get? place).map _ = _
          rw [hsame]
          exact h.owned.committed place runId (hsub _ hrun)
        · exact absurd hrun (hnobody runId)
      uncommitted := fun other place left hleft runId hrun =>
        h.owned.uncommitted other place left hleft runId (hsub _ hrun) }
  calls callId call hcall := by
    apply (h.calls callId call hcall).mono le_rfl
    intro place _ _ hnone
    rcases hrows place with hsame | ⟨hgone, -⟩
    · exact hsame.trans hnone
    · exact hgone

theorem Backed.dropDead (h : s.Backed) : s.dropDead.Backed :=
  h.release (fun _ he => List.mem_of_mem_filter he) fun _ => Or.inl rfl

theorem noneDead_dropDead (s : ClaimState) : s.dropDead.NoneDead := by
  intro e he
  have hmem := (List.mem_filter.mp he).2
  exact of_decide_eq_true hmem

end ClaimState

/-! ## 5. Every history -/

variable {sha256 : Text → Text}

theorem beginAcquire_ok {store : CoverageStore} {now : ℤ} {runId workerId leaseToken : Text}
    {attempt : ℕ} {level : CoverageLevel} {candidateIds : List Text} {call : AcquireCall}
    (h : store.beginAcquire now runId workerId attempt leaseToken level candidateIds = .ok call) :
    call.startedAt = now ∧ call.inserted = none ∧ call.rows = Dict.empty ∧ call.answers = [] := by
  rcases except_bind_eq_ok.mp h with ⟨_, -, h⟩
  rcases except_bind_eq_ok.mp h with ⟨_, -, h⟩
  rcases except_bind_eq_ok.mp h with ⟨_, -, h⟩
  rcases except_bind_eq_ok.mp h with ⟨_, -, h⟩
  rcases except_bind_eq_ok.mp h with ⟨_, -, h⟩
  rcases except_bind_eq_ok.mp h with ⟨_, -, h⟩
  rcases except_bind_eq_ok.mp h with ⟨_, -, h⟩
  rw [← Except.ok.inj h]
  exact ⟨rfl, rfl, rfl, rfl⟩

namespace ClaimState

variable {s : ClaimState}

theorem Backed.acquire (h : s.Backed) {callId : Text} {call : AcquireCall}
    (hnew : s.calls.get? callId = none) (hstarted : call.startedAt = s.now)
    (hinserted : call.inserted = none) (hrows : call.rows = Dict.empty) (hanswers : call.answers = []) :
    ({ s with calls := s.calls.set callId call } : ClaimState).Backed := by
  apply h.setCall_sameRows call
  · rw [hrows, held_of_none hnew]
  · exact
      { answered := fun given hgiven => by
          rw [hanswers] at hgiven
          cases hgiven
        deleted := fun place hplace => by
          rw [hrows] at hplace
          cases hplace
        inserted := fun _ _ _ htook => by
          rw [hinserted] at htook
          cases htook
        started := hstarted.le }

/-- What a settlement leaves: the claims of its run are gone, and with them its answers. -/
theorem Backed.settle (h : s.Backed) {runId : Text} {level : CoverageLevel} {store : CoverageStore}
    (hstore : store.reservations = s.store.reservations.filter fun key row =>
      !(decide (row.runId = runId) && decide (key.2 = level))) :
    ({ s with
      store := store
      standing := s.standing.filter fun e =>
        !(decide (e.1 = runId) && decide (e.2.2 = level)) } : ClaimState).Backed := by
  apply h.release (fun _ he => List.mem_of_mem_filter he)
  intro place
  rw [hstore, Dict.get?_filter]
  cases hrow : s.store.reservations.get? place with
  | none => exact Or.inl rfl
  | some row =>
    by_cases hsettled : row.runId = runId ∧ place.2 = level
    · right
      refine ⟨by simp [Option.filter, hsettled], ?_⟩
      intro other hother
      have hmem := List.mem_filter.mp hother
      have hown := h.owned.committed place other hmem.1
      rw [hrow] at hown
      have hsame : runId = other := hsettled.1.symm.trans (Option.some.inj hown)
      simp [hsame, hsettled.2] at hmem
    · left
      rw [Option.filter_some, if_pos]
      simp only [Bool.not_eq_true', Bool.and_eq_false_iff, decide_eq_false_iff_not]
      rw [← not_and_or]
      exact hsettled

theorem Backed.next (h : s.Backed) (hdead : s.NoneDead) {event : ClaimEvent}
    (hallowed : event.Allowed s) (hkeeps : event.KeepsClaims s) : (event.next sha256 s).Backed := by
  cases event with
  | acquire callId runId workerId attempt leaseToken level candidateIds =>
    simp only [ClaimEvent.next]
    cases hbegin : s.store.beginAcquire s.now runId workerId attempt leaseToken level candidateIds with
    | error error => exact h
    | ok call =>
      rcases beginAcquire_ok hbegin with ⟨hstarted, hinserted, hrows, hanswers⟩
      exact h.acquire hallowed hstarted hinserted hrows hanswers
  | insert callId =>
    rcases hallowed with ⟨point, hpoint, hran, hwaits⟩
    rcases current_eq_some hpoint with ⟨hcall, hitems⟩
    simp only [ClaimEvent.next, Option.mem_def.mp hpoint]
    exact h.insert hcall hitems hwaits
  | lock callId =>
    rcases hallowed with ⟨point, hpoint, hran, hwaits⟩
    rcases current_eq_some hpoint with ⟨hcall, hitems⟩
    rcases hkeeps point hpoint with ⟨row, hview, hkept⟩
    have hfree : s.Free callId (point.1.place point.2.1) := by
      rcases hwaits with hfree | hnone
      · exact hfree
      · rw [Option.mem_def, hnone] at hview
        cases hview
    simp only [ClaimEvent.next, Option.mem_def.mp hpoint]
    exact h.lock hdead hcall hitems hran hview hfree hkept
  | answer callId =>
    rcases hallowed with ⟨call, hcall, -⟩
    simp only [ClaimEvent.next, Option.mem_def.mp hcall]
    exact h.answer hcall
  | abort callId => exact h.abort callId
  | settle runId level entries =>
    simp only [ClaimEvent.next]
    rcases @apply_cases sha256 level s.vocabulary s.store runId entries with
      ⟨batch, settled, answer, -, -, -, heq⟩ | ⟨error, heq, -⟩
    · rw [heq]
      exact h.settle rfl
    · rw [heq]
      exact h
  | run runId row => exact h.release (fun _ he => he) fun _ => Or.inl rfl
  | plans batchRuns batches candidates => exact h.release (fun _ he => he) fun _ => Or.inl rfl
  | vocabulary version =>
    exact { exclusive := h.exclusive, owned := h.owned, calls := h.calls }
  | wait ticks =>
    exact
      { exclusive := h.exclusive
        owned := h.owned
        calls := fun callId call hcall => by
          have hlater : s.now ≤ s.now + ticks := by omega
          exact (h.calls callId call hcall).mono hlater fun _ _ _ hnone => hnone }

/-- A call that returns answers for rows it leaves as its run's. -/
theorem Backed.answersBacked (h : s.Backed) (event : ClaimEvent) : event.AnswersBacked sha256 s := by
  cases event with
  | answer callId =>
    intro call hcall given hgiven hreserved
    rcases h.answered hcall hgiven hreserved with ⟨row, hrow, hown⟩
    refine ⟨row, ?_, hown⟩
    unfold ClaimEvent.exec ClaimEvent.next
    simp only [Option.mem_def.mp hcall]
    exact hrow
  | acquire => trivial
  | insert => trivial
  | lock => trivial
  | abort => trivial
  | settle => trivial
  | run => trivial
  | plans => trivial
  | vocabulary => trivial
  | wait => trivial

end ClaimState

/-- In every history from a state with no call under way, whose locks keep the claims answered for,
    one run at most stands reserved for a variant in every state, and every answer of `reserved` is
    backed when its call returns. -/
theorem reserved_once {s s' : ClaimState} {hist : List (ClaimState × ClaimEvent)} (hidle : s.Idle)
    (hrun : Run (Performs ClaimEvent.Allowed (ClaimEvent.exec sha256)) s hist s')
    (hkeeps : ∀ e ∈ hist, e.2.KeepsClaims e.1) :
    Throughout ClaimState.OnePays hist s' ∧ ∀ e ∈ hist, e.2.AnswersBacked sha256 e.1 := by
  -- the invariant is carried along the history, whose steps are known to keep the claims
  have hinv : (∀ e ∈ hist, e.2.KeepsClaims e.1) →
      Throughout (fun m => m.Backed ∧ m.NoneDead) hist s' := by
    refine hrun.history_invariant
      (J := fun hist m => (∀ e ∈ hist, e.2.KeepsClaims e.1) →
        Throughout (fun m => m.Backed ∧ m.NoneDead) hist m) ?_ ?_
    · intro _
      exact ⟨fun e he => absurd he List.not_mem_nil, hidle.backed, hidle.noneDead⟩
    · intro hist m event m' _ ih hstep hall
      have hbefore := ih fun e he => hall e (List.mem_append_left _ he)
      have hevent : event.KeepsClaims m := hall (m, event) (by simp)
      refine ⟨?_, ?_⟩
      · intro e he
        rcases List.mem_append.mp he with hearlier | hlast
        · exact hbefore.1 e hearlier
        · rw [List.mem_singleton.mp hlast]
          exact hbefore.2
      · rw [hstep.2]
        exact ⟨(hbefore.2.1.next hbefore.2.2 hstep.1 hevent).dropDead, ClaimState.noneDead_dropDead _⟩
  have hall := hinv hkeeps
  exact ⟨⟨fun e he => (hall.1 e he).1.onePays, hall.2.1.onePays⟩,
    fun e he => (hall.1 e he).1.answersBacked e.2⟩

/-! ## 6. Two rows of one key -/

theorem ClaimEvent.exec_congr (sha256 sha256' : Text → Text) (s : ClaimState) {event : ClaimEvent}
    (h : ∀ runId level entries, event ≠ .settle runId level entries) :
    event.exec sha256 s = event.exec sha256' s := by
  cases event with
  | settle runId level entries => exact absurd rfl (h runId level entries)
  | _ => rfl

theorem ClaimEvent.answersBacked_congr (sha256 sha256' : Text → Text) (s : ClaimState)
    (event : ClaimEvent) : event.AnswersBacked sha256 s ↔ event.AnswersBacked sha256' s := by
  cases event <;> exact Iff.rfl

instance (sha256 : Text → Text) (s : ClaimState) (event : ClaimEvent) :
    Decidable (event.AnswersBacked sha256 s) :=
  match event with
  | .answer callId => inferInstanceAs (Decidable (∀ call ∈ s.calls.get? callId, _))
  | .acquire _ _ _ _ _ _ _ | .insert _ | .lock _ | .abort _ | .settle _ _ _ | .run _ _ | .plans _ _ _
  | .vocabulary _ | .wait _ => inferInstanceAs (Decidable True)

def leasedRun (workerId : String) : RunRow where
  status := .running
  workerId := some workerId.toList
  attempt := 1
  leaseToken := some "token".toList
  leaseExpiresAt := some 1000

def keyedCandidate (content : String) : Candidate where
  snapshotId := "snapshot".toList
  columns := []
  identityKey := "key".toList
  contentSha256 := content.toList
  upstreamRecordId := content.toList

def claimBatch (candidateIds : List String) : Batch where
  snapshotId := "snapshot".toList
  snapshotKey := "snapshot".toList
  candidateIds := candidateIds.map String.toList
  includeUnresolved := false

/-- Two runs, whose batches hold rows of one key; the ledger has settled one of the contents. -/
def sharedKey : ClaimState where
  store :=
    { runs := ⟨[("run1".toList, leasedRun "worker1"), ("run2".toList, leasedRun "worker2")], by decide⟩
      batchRuns := ⟨[("run1".toList, "batch1".toList), ("run2".toList, "batch2".toList)], by decide⟩
      batches := ⟨[("batch1".toList, claimBatch ["a", "b"]), ("batch2".toList, claimBatch ["a"])],
        by decide⟩
      candidates := ⟨[("a".toList, keyedCandidate "new"), ("b".toList, keyedCandidate "old")],
        by decide⟩
      coverage := ⟨[(("key".toList, .register),
        ⟨.enriched, "run0".toList, "before".toList, "old".toList, "1".toList, none⟩)], by decide⟩
      reservations := Dict.empty }
  vocabulary := "1".toList
  now := 0

theorem sharedKey_idle : sharedKey.Idle := ⟨rfl, rfl⟩

/-- The call of one run alone, for the candidates named. -/
def claimAlone (run worker : String) (candidateIds : List String) : List ClaimEvent :=
  .acquire run.toList run.toList worker.toList 1 "token".toList .register
      (candidateIds.map String.toList) ::
    (candidateIds.flatMap fun _ => [.insert run.toList, .lock run.toList]) ++ [.answer run.toList]

/-- The first run claims both rows, then the second run claims the one it has. -/
def claimBoth : List ClaimEvent :=
  claimAlone "run1" "worker1" ["a", "b"] ++ claimAlone "run2" "worker2" ["a"]

/-- The first run claims one row only. -/
def claimOne : List ClaimEvent :=
  claimAlone "run1" "worker1" ["a"] ++ claimAlone "run2" "worker2" ["a"]

theorem claims_congr (sha256 : Text → Text) {events : List ClaimEvent}
    (h : events = claimBoth ∨ events = claimOne) :
    performed (ClaimEvent.exec sha256) sharedKey events =
        performed (ClaimEvent.exec id) sharedKey events ∧
      events.foldl (ClaimEvent.exec sha256) sharedKey = events.foldl (ClaimEvent.exec id) sharedKey := by
  apply performed_congr
  intro event hevent s
  apply ClaimEvent.exec_congr
  intro runId level entries heq
  rw [heq] at hevent
  rcases h with h | h <;> rw [h] at hevent <;>
    simp [claimBoth, claimOne, claimAlone] at hevent

theorem run_claims (sha256 : Text → Text) {events : List ClaimEvent}
    (h : events = claimBoth ∨ events = claimOne) :
    Run (Performs ClaimEvent.Allowed (ClaimEvent.exec sha256)) sharedKey
      (performed (ClaimEvent.exec id) sharedKey events)
      (events.foldl (ClaimEvent.exec id) sharedKey) := by
  rw [← (claims_congr sha256 h).1, ← (claims_congr sha256 h).2]
  apply run_performed
  rw [(claims_congr sha256 h).1]
  rcases h with h | h <;> rw [h] <;> decide +kernel

/-- The second item of the first call gives back the row that its first item was answered for: that
    answer is not backed, and the second run is answered `reserved` as well. -/
theorem sharedKey_paid_twice :
    sharedKey.Idle ∧
      (∀ sha256, Run (Performs ClaimEvent.Allowed (ClaimEvent.exec sha256)) sharedKey
        (performed (ClaimEvent.exec id) sharedKey claimBoth)
        (claimBoth.foldl (ClaimEvent.exec id) sharedKey)) ∧
      (∀ sha256, ¬ ∀ e ∈ performed (ClaimEvent.exec id) sharedKey claimBoth,
        e.2.AnswersBacked sha256 e.1) ∧
      ¬ (claimBoth.foldl (ClaimEvent.exec id) sharedKey).OnePays := by
  refine ⟨sharedKey_idle, fun sha256 => run_claims sha256 (Or.inl rfl), ?_, ?_⟩
  · intro sha256 hall
    have hbacked : ∀ e ∈ performed (ClaimEvent.exec id) sharedKey claimBoth,
        e.2.AnswersBacked id e.1 := by
      intro e he
      exact (ClaimEvent.answersBacked_congr sha256 id e.1 e.2).mp (hall e he)
    revert hbacked
    decide +kernel
  · intro hone
    have hfirst : ("run1".toList, ("key".toList, CoverageLevel.register)) ∈
        (claimBoth.foldl (ClaimEvent.exec id) sharedKey).standing := by decide +kernel
    have hsecond : ("run2".toList, ("key".toList, CoverageLevel.register)) ∈
        (claimBoth.foldl (ClaimEvent.exec id) sharedKey).standing := by decide +kernel
    exact absurd (hone _ _ _ hfirst hsecond) (by decide)

theorem reserved_once_claimOne :
    Throughout ClaimState.OnePays (performed (ClaimEvent.exec id) sharedKey claimOne)
        (claimOne.foldl (ClaimEvent.exec id) sharedKey) ∧
      ∀ sha256, ∀ e ∈ performed (ClaimEvent.exec id) sharedKey claimOne,
        e.2.AnswersBacked sha256 e.1 := by
  have hkeeps : ∀ e ∈ performed (ClaimEvent.exec id) sharedKey claimOne, e.2.KeepsClaims e.1 := by
    decide +kernel
  exact ⟨(reserved_once sharedKey_idle (run_claims id (Or.inr rfl)) hkeeps).1,
    fun sha256 => (reserved_once sharedKey_idle (run_claims sha256 (Or.inr rfl)) hkeeps).2⟩

end Milo.Catalog
