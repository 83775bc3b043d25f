import Milo.Reasoning.ReplayLog
import Milo.Reasoning.Transition
import Milo.Swarm.ConflictWrites

/-!
# ConflictHistory — what a contradiction leaves behind

Detections and decisions are rows that nothing takes back, and a reader unites all of them.  So a
claim once detected stays contested and a claim once superseded stays superseded, whatever the latest
decision says.
-/

namespace Milo.Swarm

open Milo.Python Milo.Reasoning

/-! ## 1. Calls -/

/-- A detection or a decision that was accepted. -/
inductive ContradictionCall
  | detection (runId : Text) (content : ConflictContent)
  | decision (runId : Text) (d : Decision)
  deriving DecidableEq

namespace ContradictionCall

def claimIds : ContradictionCall → List Text
  | .detection _ content => content.claimIds
  | .decision _ d => d.claimIds

def detection? : ContradictionCall → Option (Text × ConflictContent)
  | .detection runId content => some (runId, content)
  | .decision _ _ => none

def decision? : ContradictionCall → Option (Text × Decision)
  | .detection _ _ => none
  | .decision runId d => some (runId, d)

/-- The detections among the calls. -/
def detections (calls : List ContradictionCall) : List (Text × ConflictContent) :=
  calls.filterMap detection?

/-- The decisions among the calls. -/
def decisions (calls : List ContradictionCall) : List (Text × Decision) := calls.filterMap decision?

section Snoc

variable (calls : List ContradictionCall) (runId : Text) (content : ConflictContent) (d : Decision)

@[simp] theorem detections_detection :
    detections (calls ++ [.detection runId content]) = detections calls ++ [(runId, content)] :=
  List.filterMap_append

@[simp] theorem detections_decision :
    detections (calls ++ [.decision runId d]) = detections calls := by
  unfold detections
  rw [List.filterMap_append]
  exact List.append_nil _

@[simp] theorem decisions_detection :
    decisions (calls ++ [.detection runId content]) = decisions calls := by
  unfold decisions
  rw [List.filterMap_append]
  exact List.append_nil _

@[simp] theorem decisions_decision :
    decisions (calls ++ [.decision runId d]) = decisions calls ++ [(runId, d)] :=
  List.filterMap_append

end Snoc

/-- The decision of a call over exactly these claims. -/
def decisionOver (claimIds : List Text) : ContradictionCall → Option Decision
  | .detection _ _ => none
  | .decision _ d => if d.claimIds = claimIds then some d else none

end ContradictionCall

/-! ## 2. The latest decision -/

/-- Where a claim stands by the latest decision about its scope. -/
inductive ClaimStanding
  | undisputed
  | undecided
  | against
  | inFavour
  deriving DecidableEq, Repr

def Decision.standing (d : Decision) (claimId : Text) : ClaimStanding :=
  if d.state = .unresolved then .undecided
  else if claimId ∈ d.supersededClaimIds then .against
  else .inFavour

/-- The latest call that covers a claim decides; a detection leaves it undecided unless its very
    claims have been decided. -/
def standing (calls : List ContradictionCall) (claimId : Text) : ClaimStanding :=
  match (calls.filter fun call => decide (claimId ∈ call.claimIds)).getLast? with
  | none => .undisputed
  | some (.decision _ d) => d.standing claimId
  | some (.detection _ content) =>
    match (calls.filterMap (ContradictionCall.decisionOver content.claimIds)).getLast? with
    | none => .undecided
    | some d => d.standing claimId

/-- Some detection covered the claim. -/
def Detected (calls : List ContradictionCall) (claimId : Text) : Prop :=
  ∃ runId content, ContradictionCall.detection runId content ∈ calls ∧ claimId ∈ content.claimIds

/-- Some decision superseded the claim. -/
def EverSuperseded (calls : List ContradictionCall) (claimId : Text) : Prop :=
  ∃ runId d, ContradictionCall.decision runId d ∈ calls ∧ d.state = .resolved ∧
    claimId ∈ d.supersededClaimIds

/-- A current state follows where the claim stands. -/
structure Follows (state : CurrentState) (standing : ClaimStanding) : Prop where
  contested : state = .contested ↔ standing = .undecided
  superseded : state = .superseded ↔ standing = .against

/-- Nothing recorded of a claim is out of date: it was superseded only if it still is, it was never
    detected if it is decided in its favour, and it was detected if it is undecided. -/
structure NothingStale (calls : List ContradictionCall) (claimId : Text) : Prop where
  superseded : EverSuperseded calls claimId → standing calls claimId = .against
  detected : standing calls claimId = .inFavour → ¬Detected calls claimId
  undecided : standing calls claimId = .undecided → Detected calls claimId

/-! ## 3. Histories -/

inductive ContradictionEvent
  | claim (claim : ClaimRecord)
  | detect (writer : Writer) (taskKey rationale : Text)
  | decide (writer : Writer) (decisiveClaimIds : List Text) (resolution : ConflictResolution)

section Histories

variable (u : Unicode) (sha256 : Text → Text) (conflictKey : ConflictContent → Text)
  (resolutionKey : Decision → Text) (unsafeText : ConflictPayload → Bool)
  (unsafeDecision : Decision → Bool)

namespace EvidenceStore

variable (s : EvidenceStore)

/-- A decision that is refused writes nothing. -/
def afterResolution (writer : Writer) (resolution : ConflictResolution) : EvidenceStore :=
  match recordConflictResolution resolutionKey unsafeDecision writer s resolution with
  | .ok answer => answer.1
  | .error _ => s

def execContradiction : ContradictionEvent → EvidenceStore
  | .claim claim => { s with claims := s.claims ++ [claim] }
  | .detect writer taskKey rationale =>
    (detectAndRecordConflicts u conflictKey unsafeText s writer taskKey rationale).state
  | .decide writer _ resolution => s.afterResolution resolutionKey unsafeDecision writer resolution

/-- A recorded decision is one that is taken over the claims of that moment. -/
def allowsContradiction : ContradictionEvent → Prop
  | .decide writer decisiveClaimIds resolution => ∃ resolutions,
    resolveConflicts u sha256 (conflictGroups u (s.boardClaims writer.runId)) decisiveClaimIds =
      .ok resolutions ∧ resolution ∈ resolutions
  | _ => True

end EvidenceStore

abbrev ContradictionStep : EvidenceStore → ContradictionEvent → EvidenceStore → Prop :=
  Performs (EvidenceStore.allowsContradiction u sha256)
    (EvidenceStore.execContradiction u conflictKey resolutionKey unsafeText unsafeDecision)

/-- The calls of one event that were accepted. -/
def acceptedContradictions (e : EvidenceStore × ContradictionEvent) : List ContradictionCall :=
  match e.2 with
  | .claim _ => []
  | .detect writer taskKey rationale =>
    (detectAndRecordConflicts u conflictKey unsafeText e.1 writer taskKey rationale).written.map
      fun w => .detection writer.runId w.1.toConflictContent
  | .decide writer _ resolution =>
    match recordConflictResolution resolutionKey unsafeDecision writer e.1 resolution with
    | .ok _ => [.decision writer.runId resolution.toDecision]
    | .error _ => []

def contradictionCalls (hist : List (EvidenceStore × ContradictionEvent)) : List ContradictionCall :=
  hist.flatMap (acceptedContradictions u conflictKey resolutionKey unsafeText unsafeDecision)

end Histories

/-! ## 4. The rows of a history -/

section Rows

variable (conflictKey : ConflictContent → Text) (resolutionKey : Decision → Text)

/-- The row a detection adds, unless its key is known. -/
def detectionRow (detection : Text × ConflictContent) : ConflictRecord where
  runId := detection.1
  evidenceKey := conflictKey detection.2
  entityKey := detection.2.entityKey
  fieldKey := detection.2.fieldKey
  claimIds := sortOn id detection.2.claimIds
  outcome := detection.2.outcome

/-- The row a decision adds, unless its key is known. -/
def decisionRow (decision : Text × Decision) : ResolutionRecord where
  runId := decision.1
  evidenceKey := resolutionKey decision.2
  decision := decision.2.stored

def detectionKey (detection : Text × ConflictContent) : Text × Text :=
  (detection.1, conflictKey detection.2)

def decisionKey (decision : Text × Decision) : Text × Text := (decision.1, resolutionKey decision.2)

/-- The rows are those of the accepted calls that brought a new key. -/
structure Contradictions (calls : List ContradictionCall) (s : EvidenceStore) : Prop where
  conflicts : s.conflicts = (novel (detectionKey conflictKey)
    (ContradictionCall.detections calls)).map (detectionRow conflictKey)
  resolutions : s.resolutions = (novel (decisionKey resolutionKey)
    (ContradictionCall.decisions calls)).map (decisionRow resolutionKey)

end Rows

section RowsOfRuns

variable {u : Unicode} {sha256 : Text → Text} {conflictKey : ConflictContent → Text}
  {resolutionKey : Decision → Text} {unsafeText : ConflictPayload → Bool}
  {unsafeDecision : Decision → Bool} {calls : List ContradictionCall} {s s' : EvidenceStore}

theorem Contradictions.conflictByKey_eq_none (h : Contradictions conflictKey resolutionKey calls s)
    {runId : Text} {content : ConflictContent} :
    s.conflictByKey runId (conflictKey content) = none ↔
      detectionKey conflictKey (runId, content) ∉
        (ContradictionCall.detections calls).map (detectionKey conflictKey) := by
  unfold EvidenceStore.conflictByKey
  rw [h.conflicts]
  apply find?_novel_eq_none
  intro detection
  rw [Bool.and_eq_true, decide_eq_true_eq, decide_eq_true_eq]
  exact (Prod.mk.injEq _ _ _ _).symm.to_iff

theorem Contradictions.resolutionByKey_eq_none
    (h : Contradictions conflictKey resolutionKey calls s) {runId : Text} {d : Decision} :
    s.resolutionByKey runId (resolutionKey d) = none ↔
      decisionKey resolutionKey (runId, d) ∉
        (ContradictionCall.decisions calls).map (decisionKey resolutionKey) := by
  unfold EvidenceStore.resolutionByKey
  rw [h.resolutions]
  apply find?_novel_eq_none
  intro decision
  rw [Bool.and_eq_true, decide_eq_true_eq, decide_eq_true_eq]
  exact (Prod.mk.injEq _ _ _ _).symm.to_iff

/-- A detected contradiction that is accepted has its row. -/
theorem Contradictions.detect (h : Contradictions conflictKey resolutionKey calls s) {writer : Writer}
    {payload : ConflictPayload} {row : ConflictRecord}
    (hkey : payload.evidenceKey = conflictKey payload.toConflictContent)
    (haccepted : createConflictGuarded unsafeText writer s payload = .ok (s', row)) :
    Contradictions conflictKey resolutionKey
      (calls ++ [.detection writer.runId payload.toConflictContent]) s' := by
  have hanswer := (createConflictGuarded_eq_ok.mp haccepted).2
  have hnew := @h.conflictByKey_eq_none _ _ _ _ writer.runId payload.toConflictContent
  rw [← hkey] at hnew
  cases hfound : s.conflictByKey writer.runId payload.evidenceKey with
  | some old =>
    rw [hfound] at hanswer hnew
    rw [(Prod.mk.inj hanswer).1]
    constructor
    · rw [ContradictionCall.detections_detection, novel_snoc_of_mem]
      · exact h.conflicts
      · by_contra hnot
        exact absurd (hnew.mpr hnot) (Option.some_ne_none old)
    · rw [ContradictionCall.decisions_detection]
      exact h.resolutions
  | none =>
    rw [hfound] at hanswer
    rw [(Prod.mk.inj hanswer).1]
    constructor
    · rw [ContradictionCall.detections_detection, novel_snoc_of_notMem (hnew.mp hfound), List.map_append]
      show s.conflicts ++ _ = _
      rw [h.conflicts]
      unfold ConflictPayload.row
      rw [hkey]
      rfl
    · rw [ContradictionCall.decisions_detection]
      exact h.resolutions

theorem Contradictions.decide (h : Contradictions conflictKey resolutionKey calls s) {writer : Writer}
    {resolution : ConflictResolution} {row : ResolutionRecord}
    (haccepted : recordConflictResolution resolutionKey unsafeDecision writer s resolution =
      .ok (s', row)) :
    Contradictions conflictKey resolutionKey
      (calls ++ [.decision writer.runId resolution.toDecision]) s' := by
  have hnew := @h.resolutionByKey_eq_none _ _ _ _ writer.runId resolution.toDecision
  rcases recordConflictResolution_cases haccepted with ⟨hfound, rfl⟩ | ⟨hfound, hrow, rfl⟩
  · constructor
    · rw [ContradictionCall.detections_decision]
      exact h.conflicts
    · rw [ContradictionCall.decisions_decision, novel_snoc_of_mem]
      · exact h.resolutions
      · by_contra hnot
        rw [hnew.mpr hnot] at hfound
        cases hfound
  · constructor
    · rw [ContradictionCall.detections_decision]
      exact h.conflicts
    · rw [ContradictionCall.decisions_decision, novel_snoc_of_notMem (hnew.mp hfound), List.map_append,
        hrow]
      show s.resolutions ++ _ = _
      rw [h.resolutions]
      rfl

variable {hist : List (EvidenceStore × ContradictionEvent)} {s₀ : EvidenceStore}

theorem contradictionCalls_snoc (hist : List (EvidenceStore × ContradictionEvent))
    (e : EvidenceStore × ContradictionEvent) :
    contradictionCalls u conflictKey resolutionKey unsafeText unsafeDecision (hist ++ [e]) =
      contradictionCalls u conflictKey resolutionKey unsafeText unsafeDecision hist ++
        acceptedContradictions u conflictKey resolutionKey unsafeText unsafeDecision e := by
  unfold contradictionCalls
  rw [List.flatMap_append, List.flatMap_singleton]

/-- A detection adds the rows of the contradictions it recorded. -/
theorem Contradictions.detectAll (h : Contradictions conflictKey resolutionKey calls s)
    (writer : Writer) (taskKey rationale : Text) :
    Contradictions conflictKey resolutionKey
      (calls ++ acceptedContradictions u conflictKey resolutionKey unsafeText unsafeDecision
        (s, .detect writer taskKey rationale))
      (detectAndRecordConflicts u conflictKey unsafeText s writer taskKey rationale).state := by
  let callOf : ConflictPayload → ContradictionCall := fun payload =>
    .detection writer.runId payload.toConflictContent
  -- the payloads written so far are keyed by their content
  let J : List ConflictPayload → EvidenceStore → Prop := fun done s' =>
    (∀ payload ∈ done, payload.evidenceKey = conflictKey payload.toConflictContent) →
      Contradictions conflictKey resolutionKey (calls ++ done.map callOf) s'
  have hall := @writeAll_invariant _ _ _ _ (createConflictGuarded unsafeText writer) J
    (fun done s' payload s'' row hdone haccepted hkeyed => by
      rw [List.map_append, ← List.append_assoc]
      apply Contradictions.detect _ (hkeyed payload (by simp)) haccepted
      exact hdone fun p hp => hkeyed p (List.mem_append_left _ hp))
    (detectedPayloads u conflictKey s writer.runId taskKey rationale) [] s
    (fun _ => by rw [List.map_nil, List.append_nil]; exact h)
  have hkeyed : ∀ payload ∈ [] ++ (writeAll (createConflictGuarded unsafeText writer)
      (detectedPayloads u conflictKey s writer.runId taskKey rationale) s).written.map Prod.fst,
      payload.evidenceKey = conflictKey payload.toConflictContent := by
    intro payload hpayload
    rw [List.nil_append] at hpayload
    obtain ⟨g, -, rfl⟩ := List.mem_map.mp (mem_of_mem_written hpayload)
    rfl
  have hrows := hall hkeyed
  rw [List.nil_append, List.map_map] at hrows
  exact hrows

/-- Along every history the rows are those of the accepted calls that brought a new key. -/
theorem contradictions_of_run (hconflicts : s₀.conflicts = []) (hresolutions : s₀.resolutions = [])
    (hrun : Run (ContradictionStep u sha256 conflictKey resolutionKey unsafeText unsafeDecision) s₀
      hist s) :
    Contradictions conflictKey resolutionKey
      (contradictionCalls u conflictKey resolutionKey unsafeText unsafeDecision hist) s := by
  apply Run.history_invariant
    (J := fun hist s => Contradictions conflictKey resolutionKey
      (contradictionCalls u conflictKey resolutionKey unsafeText unsafeDecision hist) s) _ _ hrun
  · exact ⟨hconflicts, hresolutions⟩
  · rintro hist m event m' - ih ⟨-, rfl⟩
    rw [contradictionCalls_snoc]
    cases event with
    | claim claim =>
      rw [show acceptedContradictions u conflictKey resolutionKey unsafeText unsafeDecision
        (m, .claim claim) = [] from rfl, List.append_nil]
      exact ⟨ih.conflicts, ih.resolutions⟩
    | detect writer taskKey rationale => exact ih.detectAll writer taskKey rationale
    | decide writer decisiveClaimIds resolution =>
      unfold acceptedContradictions EvidenceStore.execContradiction EvidenceStore.afterResolution
      cases hanswer : recordConflictResolution resolutionKey unsafeDecision writer m resolution with
      | error refusal =>
        dsimp only
        rw [hanswer]
        dsimp only
        rw [List.append_nil]
        exact ih
      | ok answer =>
        dsimp only
        rw [hanswer]
        exact ih.decide hanswer

/-- Every detection of a history leaves its contradiction undecided, and every decision fits its
    record. -/
theorem calls_sound (hist : List (EvidenceStore × ContradictionEvent)) :
    ∀ call ∈ contradictionCalls u conflictKey resolutionKey unsafeText unsafeDecision hist,
      match call with
      | .detection _ content => content.outcome = unresolvedOutcome
      | .decision _ d => d.Sound := by
  intro call hcall
  obtain ⟨⟨m, event⟩, -, hcall⟩ := List.mem_flatMap.mp hcall
  unfold acceptedContradictions at hcall
  cases event with
  | claim claim => exact absurd hcall List.not_mem_nil
  | detect writer taskKey rationale =>
    obtain ⟨w, hw, rfl⟩ := List.mem_map.mp hcall
    obtain ⟨g, -, hpayload⟩ := List.mem_map.mp
      (mem_of_mem_written (List.mem_map_of_mem (f := Prod.fst) hw))
    show w.1.outcome = unresolvedOutcome
    rw [← hpayload]
    rfl
  | decide writer decisiveClaimIds resolution =>
    dsimp only at hcall
    split at hcall
    · rw [List.mem_singleton.mp hcall]
      exact resolution.sound
    · exact absurd hcall List.not_mem_nil

end RowsOfRuns

/-! ## 5. What is current -/

section Current

variable {conflictKey : ConflictContent → Text} {resolutionKey : Decision → Text}
  {calls : List ContradictionCall} {s : EvidenceStore} {claimId : Text}

theorem mem_detections {runId : Text} {content : ConflictContent} :
    (runId, content) ∈ ContradictionCall.detections calls ↔ .detection runId content ∈ calls := by
  unfold ContradictionCall.detections
  rw [List.mem_filterMap]
  constructor
  · rintro ⟨call, hcall, heq⟩
    cases call with
    | detection runId' content' =>
      cases heq
      exact hcall
    | decision runId' d => cases heq
  · exact fun h => ⟨_, h, rfl⟩

theorem mem_decisions {runId : Text} {d : Decision} :
    (runId, d) ∈ ContradictionCall.decisions calls ↔ .decision runId d ∈ calls := by
  unfold ContradictionCall.decisions
  rw [List.mem_filterMap]
  constructor
  · rintro ⟨call, hcall, heq⟩
    cases call with
    | detection runId' content => cases heq
    | decision runId' d' =>
      cases heq
      exact hcall
  · exact fun h => ⟨_, h, rfl⟩

/-- A key names one detection, and one decision. -/
structure Digests (conflictKey : ConflictContent → Text) (resolutionKey : Decision → Text)
    (calls : List ContradictionCall) : Prop where
  detections : ∀ a ∈ ContradictionCall.detections calls, ∀ b ∈ ContradictionCall.detections calls,
    detectionKey conflictKey a = detectionKey conflictKey b → a = b
  decisions : ∀ a ∈ ContradictionCall.decisions calls, ∀ b ∈ ContradictionCall.decisions calls,
    decisionKey resolutionKey a = decisionKey resolutionKey b → a = b

/-- The contested claims are those some detection covered. -/
theorem mem_contested_iff (claimId : Text) (h : Contradictions conflictKey resolutionKey calls s)
    (hdigest : Digests conflictKey resolutionKey calls)
    (hopen : ∀ runId content, .detection runId content ∈ calls →
      content.outcome = unresolvedOutcome) :
    claimId ∈ contestedClaimIds s.conflicts ↔ Detected calls claimId := by
  unfold contestedClaimIds
  rw [List.mem_flatMap, h.conflicts]
  constructor
  · rintro ⟨row, hrow, hclaim⟩
    obtain ⟨⟨runId, content⟩, hcontent, rfl⟩ := List.mem_map.mp (List.mem_filter.mp hrow).1
    refine ⟨runId, content, mem_detections.mp (mem_of_mem_novel hcontent), ?_⟩
    exact mem_sortOn.mp hclaim
  · rintro ⟨runId, content, hcall, hclaim⟩
    refine ⟨detectionRow conflictKey (runId, content), ?_, mem_sortOn.mpr hclaim⟩
    rw [List.mem_filter, decide_eq_true_eq]
    refine ⟨List.mem_map_of_mem ?_, hopen runId content hcall⟩
    exact (mem_novel_iff hdigest.detections).mpr (mem_detections.mpr hcall)

/-- The superseded claims are those some decision superseded. -/
theorem mem_superseded_iff (claimId : Text) (h : Contradictions conflictKey resolutionKey calls s)
    (hdigest : Digests conflictKey resolutionKey calls) :
    claimId ∈ supersededClaimIds s.resolutions ↔ EverSuperseded calls claimId := by
  unfold supersededClaimIds
  rw [List.mem_flatMap, h.resolutions]
  constructor
  · rintro ⟨row, hrow, hclaim⟩
    rw [List.mem_filter, decide_eq_true_eq] at hrow
    obtain ⟨⟨runId, d⟩, hd, rfl⟩ := List.mem_map.mp hrow.1
    exact ⟨runId, d, mem_decisions.mp (mem_of_mem_novel hd), hrow.2, mem_sortOn.mp hclaim⟩
  · rintro ⟨runId, d, hcall, hstate, hclaim⟩
    refine ⟨decisionRow resolutionKey (runId, d), ?_, mem_sortOn.mpr hclaim⟩
    rw [List.mem_filter, decide_eq_true_eq]
    refine ⟨List.mem_map_of_mem ?_, hstate⟩
    exact (mem_novel_iff hdigest.decisions).mpr (mem_decisions.mpr hcall)

theorem Decision.standing_eq_against {d : Decision} (h : d.standing claimId = .against) :
    d.state = .resolved ∧ claimId ∈ d.supersededClaimIds := by
  unfold Decision.standing at h
  split at h
  · cases h
  · rename_i hstate
    split at h
    · rename_i hclaim
      refine ⟨?_, hclaim⟩
      cases hstate' : d.state with
      | resolved => rfl
      | unresolved => exact absurd hstate' hstate
    · cases h

/-- A claim the latest decision goes against was superseded. -/
theorem everSuperseded_of_against (h : standing calls claimId = .against) :
    EverSuperseded calls claimId := by
  unfold standing at h
  split at h
  · cases h
  · rename_i runId d hlast
    have hcall := (List.mem_filter.mp (List.mem_of_getLast? hlast)).1
    have hagainst := Decision.standing_eq_against h
    exact ⟨runId, d, hcall, hagainst.1, hagainst.2⟩
  · split at h
    · cases h
    · rename_i content hlast _ d hover
      obtain ⟨call, hcall, hd⟩ := List.mem_filterMap.mp (List.mem_of_getLast? hover)
      cases call with
      | detection runId' content' => cases hd
      | decision runId' d' =>
        change (if d'.claimIds = content.claimIds then some d' else none) = some d at hd
        split at hd
        · cases hd
          have hagainst := Decision.standing_eq_against h
          exact ⟨runId', d, hcall, hagainst.1, hagainst.2⟩
        · cases hd

/-- A claim no call covers was neither detected nor superseded. -/
theorem untouched_of_undisputed
    (hsound : ∀ runId d, .decision runId d ∈ calls → d.Sound)
    (h : standing calls claimId = .undisputed) :
    ¬Detected calls claimId ∧ ¬EverSuperseded calls claimId := by
  have hnone : (calls.filter fun call => decide (claimId ∈ call.claimIds)) = [] := by
    rw [← List.getLast?_eq_none_iff]
    unfold standing Decision.standing at h
    split at h
    · rename_i hlast
      exact hlast
    · split at h
      · cases h
      · split at h <;> cases h
    · split at h
      · cases h
      · split at h
        · cases h
        · split at h <;> cases h
  rw [List.filter_eq_nil_iff] at hnone
  constructor
  · rintro ⟨runId, content, hcall, hclaim⟩
    exact hnone _ hcall (decide_eq_true hclaim)
  · rintro ⟨runId, d, hcall, -, hclaim⟩
    exact hnone _ hcall (decide_eq_true ((hsound runId d hcall).losers claimId hclaim).1)

theorem VerdictRecord.state_ne (row : VerdictRecord) :
    row.state ≠ .contested ∧ row.state ≠ .superseded := by
  unfold VerdictRecord.state
  split
  · decide
  · decide
  · split <;> decide

theorem stateOf_ne (row : VerdictRow) :
    (stateOf row).1 ≠ .contested ∧ (stateOf row).1 ≠ .superseded := by
  unfold stateOf
  dsimp only
  split
  · exact ⟨nofun, nofun⟩
  · split
    · exact ⟨nofun, nofun⟩
    · split
      · exact ⟨nofun, nofun⟩
      · split
        · exact ⟨nofun, nofun⟩
        · split
          · split
            · dsimp only
              split <;> exact ⟨nofun, nofun⟩
            · exact ⟨nofun, nofun⟩
          · exact ⟨nofun, nofun⟩

/-- A claim that is neither superseded nor contested is in one of the other states. -/
theorem otherState_iff (hsuperseded : claimId ∉ supersededClaimIds s.resolutions)
    (hcontested : claimId ∉ contestedClaimIds s.conflicts) {state : CurrentState}
    (hne : state ≠ .contested ∧ state ≠ .superseded) :
    (state = .superseded ↔ claimId ∈ supersededClaimIds s.resolutions) ∧
      (state = .contested ↔ claimId ∉ supersededClaimIds s.resolutions ∧
        claimId ∈ contestedClaimIds s.conflicts) :=
  ⟨⟨fun h => absurd h hne.2, fun h => absurd h hsuperseded⟩,
    ⟨fun h => absurd h hne.1, fun h => absurd h.2 hcontested⟩⟩

theorem claimState_iff {claim : ClaimRecord}
    (hclaim : s.claims.find? (fun c => decide (c.reference.claimId = claimId)) = some claim)
    (hactive : claim.status = "active".toList) :
    ∃ report, claimCurrentVerdictState s claimId = some report ∧
      (report.state = .superseded ↔ claimId ∈ supersededClaimIds s.resolutions) ∧
        (report.state = .contested ↔ claimId ∉ supersededClaimIds s.resolutions ∧
          claimId ∈ contestedClaimIds s.conflicts) := by
  unfold claimCurrentVerdictState
  rw [hclaim, Option.map_some, if_neg (not_not.mpr hactive)]
  refine ⟨_, rfl, ?_⟩
  by_cases hsuperseded : claimId ∈ supersededClaimIds s.resolutions
  · rw [if_pos hsuperseded]
    exact ⟨⟨fun _ => hsuperseded, fun _ => rfl⟩, ⟨nofun, fun h => absurd hsuperseded h.1⟩⟩
  · rw [if_neg hsuperseded]
    by_cases hcontested : claimId ∈ contestedClaimIds s.conflicts
    · rw [if_pos hcontested]
      exact ⟨⟨nofun, fun h => absurd h hsuperseded⟩,
        ⟨fun _ => ⟨hsuperseded, hcontested⟩, fun _ => rfl⟩⟩
    · rw [if_neg hcontested]
      cases s.currentRow claimId with
      | none => exact otherState_iff hsuperseded hcontested ⟨nofun, nofun⟩
      | some row => exact otherState_iff hsuperseded hcontested row.state_ne

theorem resolvedState_iff (fromisoformat : Text → Option ℤ) (isoformat : ℤ → Text)
    (hid : textOf (some claimId) = some claimId) {claim : ClaimRecord}
    (hclaim : s.claims.find? (fun c => decide (c.reference.claimId = claimId)) = some claim)
    (hactive : claim.status = "active".toList) :
    ∃ current, resolveStored fromisoformat isoformat s claimId = some (.ok current) ∧
      (current.state = .superseded ↔ claimId ∈ supersededClaimIds s.resolutions) ∧
        (current.state = .contested ↔ claimId ∉ supersededClaimIds s.resolutions ∧
          claimId ∈ contestedClaimIds s.conflicts) := by
  have hstatus : (textOf (some claim.status)).getD "active".toList = "active".toList := by
    rw [hactive]
    decide +kernel
  unfold resolveStored resolveCurrentVerdict
  rw [hclaim, Option.map_some]
  dsimp only
  rw [hid, Option.some_or]
  dsimp only
  rw [if_neg (not_not.mpr hstatus)]
  simp only [List.contains_iff_mem]
  by_cases hsuperseded : claimId ∈ supersededClaimIds s.resolutions
  · rw [if_pos hsuperseded]
    exact ⟨_, rfl, ⟨fun _ => hsuperseded, fun _ => rfl⟩, ⟨nofun, fun h => absurd hsuperseded h.1⟩⟩
  · rw [if_neg hsuperseded]
    by_cases hcontested : claimId ∈ contestedClaimIds s.conflicts
    · rw [if_pos hcontested]
      exact ⟨_, rfl, ⟨nofun, fun h => absurd h hsuperseded⟩,
        ⟨fun _ => ⟨hsuperseded, hcontested⟩, fun _ => rfl⟩⟩
    · rw [if_neg hcontested]
      split
      · exact ⟨_, rfl, otherState_iff hsuperseded hcontested ⟨nofun, nofun⟩⟩
      · exact ⟨_, rfl, otherState_iff hsuperseded hcontested (stateOf_ne _)⟩

/-- A state follows the claim's standing exactly if nothing recorded is out of date. -/
theorem follows_iff {state : CurrentState}
    (hsound : ∀ runId d, .decision runId d ∈ calls → d.Sound)
    (hsuperseded : state = .superseded ↔ EverSuperseded calls claimId)
    (hcontested : state = .contested ↔ ¬EverSuperseded calls claimId ∧ Detected calls claimId) :
    Follows state (standing calls claimId) ↔ NothingStale calls claimId := by
  constructor
  · intro h
    constructor
    · exact fun hever => h.superseded.mp (hsuperseded.mpr hever)
    · intro hfavour hdetected
      have hnever : ¬EverSuperseded calls claimId := by
        intro hever
        rw [h.superseded.mp (hsuperseded.mpr hever)] at hfavour
        cases hfavour
      rw [h.contested.mp (hcontested.mpr ⟨hnever, hdetected⟩)] at hfavour
      cases hfavour
    · exact fun hopen => (hcontested.mp (h.contested.mpr hopen)).2
  · intro h
    have hnever : standing calls claimId ≠ .against → ¬EverSuperseded calls claimId :=
      fun hnot hever => hnot (h.superseded hever)
    constructor
    · rw [hcontested]
      constructor
      · rintro ⟨hnot, hdetected⟩
        cases hstanding : standing calls claimId with
        | undisputed => exact absurd hdetected (untouched_of_undisputed hsound hstanding).1
        | undecided => rfl
        | against => exact absurd (everSuperseded_of_against hstanding) hnot
        | inFavour => exact absurd hdetected (h.detected hstanding)
      · intro hopen
        refine ⟨hnever ?_, h.undecided hopen⟩
        rw [hopen]
        decide
    · rw [hsuperseded]
      exact ⟨h.superseded, everSuperseded_of_against⟩

end Current

/-- Both readers report where the claim stands. -/
structure ReportsStanding (fromisoformat : Text → Option ℤ) (isoformat : ℤ → Text) (s : EvidenceStore)
    (claimId : Text) (standing : ClaimStanding) : Prop where
  database : ∃ report, claimCurrentVerdictState s claimId = some report ∧
    Follows report.state standing
  program : ∃ current, resolveStored fromisoformat isoformat s claimId = some (.ok current) ∧
    Follows current.state standing

/-- Along every history the state of an active claim follows the latest decision exactly if nothing
    recorded of it is out of date. -/
theorem reportsStanding_iff {u : Unicode} {sha256 : Text → Text}
    {conflictKey : ConflictContent → Text} {resolutionKey : Decision → Text}
    {unsafeText : ConflictPayload → Bool} {unsafeDecision : Decision → Bool}
    {fromisoformat : Text → Option ℤ} {isoformat : ℤ → Text}
    {hist : List (EvidenceStore × ContradictionEvent)} {s₀ s : EvidenceStore}
    (hconflicts : s₀.conflicts = []) (hresolutions : s₀.resolutions = [])
    (hrun : Run (ContradictionStep u sha256 conflictKey resolutionKey unsafeText unsafeDecision) s₀
      hist s)
    (hdigest : Digests conflictKey resolutionKey
      (contradictionCalls u conflictKey resolutionKey unsafeText unsafeDecision hist))
    {claimId : Text} (hid : textOf (some claimId) = some claimId) {claim : ClaimRecord}
    (hclaim : s.claims.find? (fun c => decide (c.reference.claimId = claimId)) = some claim)
    (hactive : claim.status = "active".toList) :
    ReportsStanding fromisoformat isoformat s claimId
        (standing (contradictionCalls u conflictKey resolutionKey unsafeText unsafeDecision hist)
          claimId) ↔
      NothingStale (contradictionCalls u conflictKey resolutionKey unsafeText unsafeDecision hist)
        claimId := by
  have hrows := contradictions_of_run hconflicts hresolutions hrun
  have hcalls := @calls_sound u conflictKey resolutionKey unsafeText unsafeDecision hist
  generalize contradictionCalls u conflictKey resolutionKey unsafeText unsafeDecision hist = calls
    at hrows hcalls hdigest ⊢
  have hsound : ∀ runId d, .decision runId d ∈ calls → d.Sound :=
    fun runId d hcall => hcalls _ hcall
  have hsuperseded := mem_superseded_iff claimId hrows hdigest
  have hcontested := mem_contested_iff claimId hrows hdigest fun runId content hcall =>
    hcalls _ hcall
  obtain ⟨report, hreport, hstate, hstate'⟩ := claimState_iff hclaim hactive
  obtain ⟨current, hcurrent, hresolved, hresolved'⟩ :=
    resolvedState_iff fromisoformat isoformat hid hclaim hactive
  rw [hsuperseded] at hstate hresolved
  rw [hsuperseded, hcontested] at hstate' hresolved'
  constructor
  · intro h
    obtain ⟨report', hreport', hfollows⟩ := h.database
    rw [hreport] at hreport'
    cases hreport'
    exact (follows_iff hsound hstate hstate').mp hfollows
  · intro h
    exact ⟨⟨report, hreport, (follows_iff hsound hstate hstate').mpr h⟩,
      ⟨current, hcurrent, (follows_iff hsound hresolved hresolved').mpr h⟩⟩

theorem detectAndRecordConflicts_claims {u : Unicode} {conflictKey : ConflictContent → Text}
    {unsafeText : ConflictPayload → Bool} {s : EvidenceStore} {writer : Writer}
    {taskKey rationale : Text} :
    (detectAndRecordConflicts u conflictKey unsafeText s writer taskKey rationale).state.claims =
      s.claims :=
  @writeAll_invariant _ _ _ _ (createConflictGuarded unsafeText writer)
    (fun _ s' => s'.claims = s.claims)
    (fun _ _ _ _ _ hclaims haccepted => (createConflictGuarded_claims haccepted).trans hclaims)
    (detectedPayloads u conflictKey s writer.runId taskKey rationale) [] s rfl

theorem afterResolution_claims {resolutionKey : Decision → Text} {unsafeDecision : Decision → Bool}
    {s : EvidenceStore} {writer : Writer} {resolution : ConflictResolution} :
    (s.afterResolution resolutionKey unsafeDecision writer resolution).claims = s.claims := by
  unfold EvidenceStore.afterResolution
  cases hanswer : recordConflictResolution resolutionKey unsafeDecision writer s resolution with
  | error refusal => rfl
  | ok answer =>
    rcases recordConflictResolution_cases hanswer with ⟨-, hsame⟩ | ⟨-, -, hsame⟩
    · show answer.1.claims = s.claims
      rw [hsame]
    · show answer.1.claims = s.claims
      rw [hsame]

/-- Two sources disagree about a displacement. -/
def rivals : EvidenceStore := statements (.int 1600) (.int 1598) "cc" "cc"

/-- The decision that the first claim wins. -/
def rivalDecision : ConflictResolution where
  toDecision := decideGroup asciiUnicode checksum
    (referenceIdentity asciiUnicode (displacement "c1".toList (.int 1600) "cc" c1_named))
    (rivals.boardClaims boardWriter.runId) ["c1".toList]
  sound := by decide +kernel

/-- The disagreement is detected, then decided. -/
def rivalEvents : List ContradictionEvent :=
  [.detect boardWriter "t1".toList "Contradictory values.".toList,
    .decide boardWriter ["c1".toList] rivalDecision]

def rivalHistory : List (EvidenceStore × ContradictionEvent) :=
  performed (EvidenceStore.execContradiction asciiUnicode conflictDigest resolutionDigest
    (fun _ => false) fun _ => false) rivals rivalEvents

def rivalEnd : EvidenceStore :=
  rivalEvents.foldl (EvidenceStore.execContradiction asciiUnicode conflictDigest resolutionDigest
    (fun _ => false) fun _ => false) rivals

def rivalCalls : List ContradictionCall :=
  contradictionCalls asciiUnicode conflictDigest resolutionDigest (fun _ => false) (fun _ => false)
    rivalHistory

theorem rival_run :
    Run (ContradictionStep asciiUnicode checksum conflictDigest resolutionDigest (fun _ => false)
      fun _ => false) rivals rivalHistory rivalEnd := by
  apply run_performed
  intro e he
  simp only [rivalEvents, performed, List.mem_cons, List.not_mem_nil, or_false] at he
  rcases he with rfl | rfl
  · trivial
  · -- the decision is the one taken over the only group
    let board := (rivals.execContradiction asciiUnicode conflictDigest resolutionDigest
      (fun _ => false) (fun _ => false)
      (.detect boardWriter "t1".toList "Contradictory values.".toList)).boardClaims boardWriter.runId
    have hboard : board = rivals.boardClaims boardWriter.runId := by
      show EvidenceStore.boardClaims _ _ = _
      unfold EvidenceStore.boardClaims
      rw [show (rivals.execContradiction asciiUnicode conflictDigest resolutionDigest (fun _ => false)
        (fun _ => false) (.detect boardWriter "t1".toList "Contradictory values.".toList)).claims =
          rivals.claims from detectAndRecordConflicts_claims]
    have hgroup : (referenceIdentity asciiUnicode
        (displacement "c1".toList (.int 1600) "cc" c1_named),
          rivals.boardClaims boardWriter.runId) ∈ conflictGroups asciiUnicode board := by
      rw [hboard, mem_conflictGroups]
      refine ⟨?_, ?_⟩
      · symm
        rw [List.filter_eq_self]
        decide +kernel
      · decide +kernel
    have hsound : ∀ g ∈ conflictGroups asciiUnicode board,
        (decideGroup asciiUnicode checksum g.1 g.2 ["c1".toList]).Sound := by
      rw [hboard]
      decide +kernel
    obtain ⟨resolutions, hresolved⟩ := resolveConflicts_isOk hsound
    obtain ⟨resolution, hmem, hdecision⟩ := resolveConflicts_complete hresolved hgroup
    refine ⟨resolutions, hresolved, ?_⟩
    rw [show rivalDecision = resolution from by
      cases resolution
      cases hdecision
      rfl]
    exact hmem

/-- The winner of a decided conflict stays contested. -/
theorem winner_stays_contested :
    Run (ContradictionStep asciiUnicode checksum conflictDigest resolutionDigest (fun _ => false)
        fun _ => false) rivals rivalHistory rivalEnd ∧
      standing rivalCalls "c1".toList = .inFavour ∧
      (claimCurrentVerdictState rivalEnd "c1".toList).map VerdictReport.state = some .contested ∧
      ¬ReportsStanding fromisoformat (fun _ => []) rivalEnd "c1".toList
        (standing rivalCalls "c1".toList) := by
  have hstanding : standing rivalCalls "c1".toList = .inFavour := by decide +kernel
  have hstate : (claimCurrentVerdictState rivalEnd "c1".toList).map VerdictReport.state =
      some .contested := by decide +kernel
  refine ⟨rival_run, hstanding, hstate, ?_⟩
  rintro ⟨⟨report, hreport, hfollows⟩, -⟩
  rw [hreport, Option.map_some, Option.some.injEq] at hstate
  have hopen := hfollows.contested.mp hstate
  rw [hstanding] at hopen
  cases hopen

/-- The loser of a decided conflict is superseded. -/
theorem loser_is_superseded :
    ReportsStanding fromisoformat (fun _ => []) rivalEnd "c2".toList
      (standing rivalCalls "c2".toList) := by
  have hagainst : standing rivalCalls "c2".toList = .against := by decide +kernel
  have hclaim : rivalEnd.claims.find? (fun c => decide (c.reference.claimId = "c2".toList)) =
      some (storedClaim (displacement "c2".toList (.int 1598) "cc" c2_named)) := by
    rw [show rivalEnd.claims = rivals.claims from
      afterResolution_claims.trans detectAndRecordConflicts_claims]
    rfl
  apply (reportsStanding_iff rfl rfl rival_run _ (by decide +kernel) hclaim rfl).mpr
  · show NothingStale rivalCalls _
    constructor
    · exact fun _ => hagainst
    · intro hfavour
      rw [hagainst] at hfavour
      cases hfavour
    · intro hopen
      rw [hagainst] at hopen
      cases hopen
  · constructor
    · decide +kernel
    · decide +kernel

end Milo.Swarm
