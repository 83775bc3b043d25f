import Milo.Swarm.ConflictPolicy
import Milo.Swarm.Grounding

/-!
# Verifier — deterministic first, a model only when needed

One pass settles what code can settle, decides every contradicting scope, and partitions the rest
into bounded batches; the batches are then put to a model one after the other.  The resolver and
the model gateway are injected, and any state they keep is the state of the computation.
-/

namespace Milo.Swarm

open Milo.Python Milo.Reasoning

/-! ## 1. Bounds and outcomes -/

structure VerifierBounds where
  maxClaims : ℕ
  maxSerializedBytes : ℕ
  maxEvidenceChars : ℕ

def defaultBounds : VerifierBounds := ⟨25, 32768, 12000⟩

def verifierGroundingVersion : ℕ := 1

def verifierContractVersion : String := "r4.verifier.1+r4.structured.2+r4.units.1"

/-- A verdict with its reason, as the local rules state it. -/
abbrev LocalOutcome := VerdictValue × String

def unsupportedVerdict : LocalOutcome := (.rejected, "unsupported claim")

def conflictVerdict : LocalOutcome := (.needsReview, "unresolved conflict")

def omittedVerdict : LocalOutcome := (.rejected, "verifier omitted claim")

def missingContextVerdict : LocalOutcome := (.needsReview, "SOURCE_CONTEXT_UNAVAILABLE")

def supersededVerdict : LocalOutcome := (.rejected, "R4_SUPERSEDED_BY_DECISIVE_SOURCE")

/-- `GROUNDED_VERDICT_REASONS`. -/
def groundedReason : VerdictValue → String
  | .verified => "source evidence supports claim"
  | .needsReview => "source evidence is insufficient or ambiguous"
  | .rejected => "source evidence does not support claim"

/-- `STRUCTURED_VERDICT_BY_REASON`, for the reasons of a decisive comparison. -/
def structuredVerdictByReason : ComparisonReason → VerdictValue
  | .structuredMatch => .verified
  | .ambiguousSourceFact => .needsReview
  | .ambiguousSupportEvidence => .needsReview
  | _ => .rejected

/-- Reasons that depend on the whole evidence set and are recomputed on every pass. -/
def scopeDependentReasons : List String := [conflictVerdict.2, supersededVerdict.2]

/-- `_verdict(...)` of a rule that cites no evidence. -/
def bareVerdict (claimId : Text) (mode : VerificationMode) (outcome : LocalOutcome) :
    VerificationVerdict where
  claimId := claimId
  verdict := outcome.1
  reason := outcome.2
  mode := some mode
  contractVersion := some verifierContractVersion
  support := []
  contract := supportRequiresMode_nil _ _

/-- `_verdict(...)` with its support links. -/
def citedVerdict (claimId : Text) (mode : VerificationMode) (outcome : LocalOutcome)
    (support : List SupportLink) : Except Failure VerificationVerdict :=
  if contract : SupportRequiresMode (some mode) (some verifierContractVersion) support then
    .ok ⟨claimId, outcome.1, outcome.2, some mode, some verifierContractVersion, support, contract⟩
  else .error .invalidRecord

/-! ## 2. What is settled before any evidence is read -/

/-- Unsupported claims are rejected locally. -/
def deterministicVerdicts (items : List EvidenceReference) : Dict Text VerificationVerdict :=
  Dict.ofList ((items.filter fun item => !item.supported).map fun item =>
    (item.claimId, bareVerdict item.claimId .deterministicLocal unsupportedVerdict))

/-- A stored entry: the verdict its contract reads from it, if it validates. -/
abbrev StoredVerdict := Option VerificationVerdict

/-- Validate one checkpointed entry; `none` is a verdict to recompute. -/
def resumeEntry (references : List EvidenceReference)
    (deterministic : Dict Text VerificationVerdict) (contested : List Text) (claimId : Text)
    (raw : StoredVerdict) : Except Failure (Option VerificationVerdict) :=
  match references.find? fun item => decide (item.claimId = claimId) with
  | none => .error (.verifier .stateUnknownClaim)
  | some reference =>
    match raw with
    | none => .error (.verifier .stateInvalidVerdict)
    | some verdict =>
      if verdict.claimId ≠ claimId then .error (.verifier .stateInvalidVerdict)
      else
        match parseSupport verdict.support with
        | .error (.support _) => .error (.verifier .stateSupportInvalid)
        | .error .typeError => .error .other
        | .ok support =>
          if support.any fun link => decide (link.sourceId ≠ reference.sourceId) then
            .error (.verifier .stateSupportInvalid)
          else if (deterministic.get? claimId).any fun expected =>
              decide ((verdict.verdict, verdict.reason) ≠ (expected.verdict, expected.reason)) then
            .error (.verifier .stateIncompatibleVerdict)
          else if scopeDependentReasons.contains verdict.reason ∨ contested.contains claimId then
            .ok none
          else .ok (some verdict)

def resumeEntries (references : List EvidenceReference)
    (deterministic : Dict Text VerificationVerdict) (contested : List Text) :
    List (Text × StoredVerdict) → Dict Text VerificationVerdict →
      Except Failure (Dict Text VerificationVerdict)
  | [], resumed => .ok resumed
  | (claimId, raw) :: rest, resumed => do
    match ← resumeEntry references deterministic contested claimId raw with
    | none => resumeEntries references deterministic contested rest resumed
    | some verdict =>
      resumeEntries references deterministic contested rest (resumed.set claimId verdict)

/-- Validate checkpointed verifier progress or fail closed. -/
def resumedVerdicts (existing : Dict Text StoredVerdict) (references : List EvidenceReference)
    (deterministic : Dict Text VerificationVerdict) (contested : List Text) :
    Except Failure (Dict Text VerificationVerdict) :=
  resumeEntries references deterministic contested existing.entries Dict.empty

/-- Verdicts that predate grounded verification survive only where they are deterministic. -/
def currentlyGrounded (groundingVersion : ℕ) (deterministic resumed : Dict Text VerificationVerdict) :
    Dict Text VerificationVerdict :=
  if groundingVersion < verifierGroundingVersion then
    resumed.filter fun claimId _ => deterministic.keys.contains claimId
  else resumed

/-- The verdicts settled without reading a source. -/
def settledBefore (items : List EvidenceReference) (contested : List Text)
    (existing : Dict Text StoredVerdict) (groundingVersion : ℕ) :
    Except Failure (Dict Text VerificationVerdict) := do
  let deterministic := deterministicVerdicts items
  let resumed ← resumedVerdicts existing items deterministic contested
  pure (deterministic.update (currentlyGrounded groundingVersion deterministic resumed))

/-! ## 3. What deterministic code settles -/

/-- A pending claim with its resolved source. -/
abbrev Pending := EvidenceReference × ResolvedSourceEvidence

def structuredComparison (u : Unicode) (pending : Pending) : StructuredComparison :=
  compareStructured u pending.1 pending.2.structuredFacts pending.1.sourceVersion
    pending.2.sourceVersion

/-- Turn one decisive structured comparison into a durable verdict. -/
def structuredVerdict (pending : Pending) (comparison : StructuredComparison) :
    Except Failure VerificationVerdict :=
  let verdict := structuredVerdictByReason comparison.reason
  if verdict = .verified then
    match linksForLocator pending.2 (comparison.matched.bind StructuredSourceFact.locator) with
    | .ok support =>
      citedVerdict pending.1.claimId .deterministicStructured (verdict, comparison.reason.text)
        support
    | .error (.support .ambiguous) =>
      .ok (bareVerdict pending.1.claimId .deterministicStructured
        (.needsReview, ComparisonReason.ambiguousSupportEvidence.text))
    | .error (.support _) => .error (.verifier .supportLinkInvalid)
    | .error .typeError => .error .other
  else
    .ok (bareVerdict pending.1.claimId .deterministicStructured (verdict, comparison.reason.text))

/-- The claim matched its own source's fact and the source is authoritative for the field. -/
def isDecisiveClaim (u : Unicode) (pending : Pending) : Bool :=
  decide ((structuredComparison u pending).outcome = .match) &&
    isAuthoritative u pending.2.sourceType pending.1.field

def decisiveClaims (u : Unicode) (pending : List Pending) : List Text :=
  (pending.filter (isDecisiveClaim u)).map fun p => p.1.claimId

def superseded (resolutions : List ConflictResolution) (claimId : Text) : Bool :=
  resolutions.any fun r => r.claimIds.contains claimId && decide (r.stateOf claimId = .superseded)

def inOpenConflict (resolutions : List ConflictResolution) (claimId : Text) : Bool :=
  resolutions.any fun r => r.claimIds.contains claimId &&
    decide (r.stateOf claimId ≠ .superseded ∧ r.state = .unresolved)

/-- A verdict, or a candidate for a model call. -/
def settleClaim (u : Unicode) (resolutions : List ConflictResolution) (pending : Pending) :
    Except Failure (VerificationVerdict ⊕ GroundedCandidate) :=
  let claimId := pending.1.claimId
  let comparison := structuredComparison u pending
  if superseded resolutions claimId then
    .ok (.inl (bareVerdict claimId .deterministicLocal supersededVerdict))
  else if inOpenConflict resolutions claimId then
    .ok (.inl (bareVerdict claimId .deterministicLocal conflictVerdict))
  else if comparison.isDecisive then (structuredVerdict pending comparison).map .inl
  else if pending.2.fragments.isEmpty then
    .ok (.inl (bareVerdict claimId .deterministicLocal missingContextVerdict))
  else (groundCandidate pending.1 pending.2).map .inr

def settlePending (u : Unicode) (resolutions : List ConflictResolution) :
    List Pending → Dict Text VerificationVerdict → List GroundedCandidate →
      Except Failure (Dict Text VerificationVerdict × List GroundedCandidate)
  | [], settled, candidates => .ok (settled, candidates)
  | pending :: rest, settled, candidates => do
    match ← settleClaim u resolutions pending with
    | .inl verdict =>
      settlePending u resolutions rest (settled.set pending.1.claimId verdict) candidates
    | .inr candidate => settlePending u resolutions rest settled (candidates ++ [candidate])

/-! ## 4. Batches -/

/-- Each referenced source once, by source id. -/
def deduplicatedSources (candidates : List GroundedCandidate) : List ResolvedSourceEvidence :=
  let unique : Dict Text ResolvedSourceEvidence := candidates.foldl
    (fun d c => if d.keys.contains c.source.sourceId then d else d.set c.source.sourceId c.source)
    Dict.empty
  (sortOn Prod.fst unique.entries).map Prod.snd

/-- Only the fields a record carries. -/
def present (optional : List (String × Option Json)) : List (Text × Json) :=
  optional.filterMap fun e => e.2.map fun value => (e.1.toList, value)

def claimBlock (candidate : GroundedCandidate) : Json :=
  let reference := candidate.reference
  .obj (present [("claim_id", some (.str reference.claimId)),
    ("source_id", some (.str reference.sourceId)), ("task_id", some (.str reference.taskId)),
    ("entity", some (.str reference.entity)), ("field", some (.str reference.field)),
    ("geography", some (optionalText reference.geography)),
    ("market", some (optionalText reference.market)),
    ("time_scope", some (.obj reference.timeScope)), ("value", some reference.value),
    ("confidence", some (.float reference.confidence)), ("unit", reference.unit.map .str),
    ("locator", reference.locator.map .str),
    ("identity", if reference.identity = [] then none
      else some (.obj (reference.identity.map fun d => (d.1, .str d.2))))])

def fragmentBlock (sourceIndex : ℕ) (numbered : SourceFragment × ℕ) : Json :=
  let fragment := numbered.1
  .obj (present [("ref", some (.str (fragmentReference sourceIndex numbered.2))),
    ("fragment_index", some (.int fragment.fragmentIndex)),
    ("content_hash", some (.str fragment.contentHash)), ("text", some (.str fragment.text)),
    ("fragment_type", fragment.fragmentType.map .str), ("locator", fragment.locator.map .str)])

def sourceBlock (numbered : ResolvedSourceEvidence × ℕ) : Json :=
  let source := numbered.1
  .obj (present [("source_id", some (.str source.sourceId)), ("task_id", some (.str source.taskId)),
    ("url", some (.str source.url)), ("title", some (.str source.title)),
    ("domain", some (.str source.domain)), ("source_type", some (.str source.sourceType)),
    ("source_strength", some (.str source.sourceStrength)),
    ("source_date", some (optionalText source.sourceDate)),
    ("source_version", source.sourceVersion.map .str),
    ("fragments", some (.arr (source.orderedFragments.zipIdx.map (fragmentBlock numbered.2))))])

/-- The one deterministic grounded serialization. -/
def serializeVerifierCandidates (candidates : List GroundedCandidate) : Text :=
  let ordered := sortOn GroundedCandidate.claimId candidates
  (Json.obj [("claims".toList, .arr (ordered.map claimBlock)),
    ("sources".toList, .arr ((deduplicatedSources ordered).zipIdx.map sourceBlock))]).dumps

/-- Bytes of the payload; the serialization is ASCII. -/
def verifierPayloadBytes (candidates : List GroundedCandidate) : ℕ :=
  (serializeVerifierCandidates candidates).length

/-- Quoted evidence characters, a shared source counted once. -/
def verifierEvidenceChars (candidates : List GroundedCandidate) : ℕ :=
  ((deduplicatedSources candidates).flatMap fun source =>
    source.fragments.map fun f => f.text.length).sum

def overBounds (bounds : VerifierBounds) (candidates : List GroundedCandidate) : Bool :=
  decide (bounds.maxSerializedBytes < verifierPayloadBytes candidates) ||
    decide (bounds.maxEvidenceChars < verifierEvidenceChars candidates)

def fillBatches (bounds : VerifierBounds) :
    List GroundedCandidate → List (List GroundedCandidate) → List GroundedCandidate →
      Except Failure (List (List GroundedCandidate))
  | [], batches, current => .ok (if current.isEmpty then batches else batches ++ [current])
  | item :: rest, batches, current =>
    if overBounds bounds [item] then .error (.verifier .candidateTooLarge)
    else if !current.isEmpty && (decide (bounds.maxClaims < current.length + 1) ||
        overBounds bounds (current ++ [item])) then
      fillBatches bounds rest (batches ++ [current]) [item]
    else fillBatches bounds rest batches (current ++ [item])

/-- Partition grounded candidates into deterministic, triply bounded batches. -/
def buildVerifierBatches (bounds : VerifierBounds) (candidates : List GroundedCandidate) :
    Except Failure (List (List GroundedCandidate)) :=
  fillBatches bounds (sortOn GroundedCandidate.claimId candidates) [] []

/-! ## 5. The plan of a pass -/

/-- The deterministic shape of one grounded verification pass. -/
structure GroundedVerificationPlan where
  settled : List VerificationVerdict
  batches : List (List GroundedCandidate)
  sourceCount : ℕ
  missingContextCount : ℕ
  resolutions : List ConflictResolution
  structuredCount : ℕ

/-- Decide, settle and partition, once every pending claim has its source. -/
def planResolved (u : Unicode) (sha256 : Text → Text) (bounds : VerifierBounds)
    (groups : List (ScopeIdentity × List EvidenceReference))
    (settled : Dict Text VerificationVerdict) (pending : List Pending) :
    Except Failure GroundedVerificationPlan := do
  let resolutions ← resolveConflicts u sha256 groups (decisiveClaims u pending)
  let (settled, candidates) ← settlePending u resolutions pending settled []
  let batches ← buildVerifierBatches bounds candidates
  let undecided (p : Pending) : Bool :=
    !superseded resolutions p.1.claimId && !inOpenConflict resolutions p.1.claimId
  pure
    { settled := (sortOn Prod.fst settled.entries).map Prod.snd
      batches := batches
      sourceCount := (candidates.map fun c => c.source.sourceId).dedup.length
      missingContextCount := (pending.filter fun p => p.2.fragments.isEmpty && undecided p &&
        !(structuredComparison u p).isDecisive).length
      resolutions := resolutions
      structuredCount := (pending.filter fun p =>
        undecided p && (structuredComparison u p).isDecisive).length }

/-- The contradicting groups among the claims named as conflicting. -/
def namedGroups (u : Unicode) (items : List EvidenceReference) (conflictClaimIds : List Text) :
    List (ScopeIdentity × List EvidenceReference) :=
  conflictGroups u (items.filter fun item => conflictClaimIds.contains item.claimId)

def groupClaims (groups : List (ScopeIdentity × List EvidenceReference)) : List Text :=
  groups.flatMap fun g => g.2.map EvidenceReference.claimId

/-- The claims with no verdict yet. -/
def unsettled (items : List EvidenceReference) (settled : Dict Text VerificationVerdict) :
    List EvidenceReference := items.filter fun item => !settled.keys.contains item.claimId

/-- Resolve the sources of the pending claims, if there are any. -/
def resolvePending {W : Type}
    (resolve : List EvidenceReference → Action W Failure (Text → Option ResolvedSourceEvidence))
    (pending : List EvidenceReference) : Action W Failure (List Pending) :=
  match pending with
  | [] => pure []
  | first :: rest => resolveSourceContext resolve (first :: rest)

section Pass

variable {W : Type} (u : Unicode) (sha256 : Text → Text)
  (resolve : List EvidenceReference → Action W Failure (Text → Option ResolvedSourceEvidence))

/-- The settled verdicts, the conflict decisions and the remaining batches. -/
def planGroundedVerification (bounds : VerifierBounds) (evidence : List EvidenceReference)
    (conflictClaimIds : List Text) (existing : Dict Text StoredVerdict) (groundingVersion : ℕ) :
    Action W Failure GroundedVerificationPlan := do
  let items := sortOn EvidenceReference.claimId evidence
  Action.ofExcept (refuseIf (¬(items.map EvidenceReference.claimId).Nodup)
    (.verifier .evidenceDuplicateClaim))
  let groups := namedGroups u items conflictClaimIds
  let settled ← Action.ofExcept
    (settledBefore items (groupClaims groups) existing groundingVersion)
  let pending ← resolvePending resolve (unsettled items settled)
  Action.ofExcept (planResolved u sha256 bounds groups settled pending)

end Pass

/-! ## 6. One batch response -/

/-- The strict internal verifier response. -/
structure VerifierResponseVerdict where
  claimId : Text
  verdict : VerdictValue
  supportingFragmentRefs : List Text
  supportingFragmentHashes : List Text

def readText : Json → Option Text
  | .str text => some text
  | _ => none

def readTexts : Option Json → Option (List Text)
  | none => some []
  | some (.arr items) => (items.mapM readText).filter fun texts =>
    decide (texts.length ≤ maxFragmentsPerSource)
  | some _ => none

def readVerdict : Json → Option VerdictValue
  | .str text =>
    [VerdictValue.verified, .needsReview, .rejected].find? fun v => decide (v.text.toList = text)
  | _ => none

def responseKeys : List String :=
  ["claim_id", "verdict", "supporting_fragment_refs", "supporting_fragment_hashes"]

/-- `VerifierResponseVerdict.model_validate`, after a `reason` is dropped. -/
def readAnswer : Json → Option VerifierResponseVerdict
  | .obj members => do
    let kept := members.filter fun m => decide (m.1 ≠ "reason".toList)
    guard (kept.all fun m => responseKeys.any fun k => decide (k.toList = m.1))
    let claimId ← (kept.lookup "claim_id".toList).bind readText
    guard (1 ≤ claimId.length ∧ claimId.length ≤ 200)
    let verdict ← (kept.lookup "verdict".toList).bind readVerdict
    let refs ← readTexts (kept.lookup "supporting_fragment_refs".toList)
    let hashes ← readTexts (kept.lookup "supporting_fragment_hashes".toList)
    pure ⟨claimId, verdict, refs, hashes⟩
  | _ => none

/-- The answer of one completion, as it reaches the parser: a mapping, a text with what `json.loads` makes
    of it, or a value of another type. -/
inductive ResponseContent
  | document (members : List (Text × Json))
  | text (loaded : Except LoadFault Json)
  | other

/-- The list under `verdicts`; a document without one has none. -/
def responseEntries (members : List (Text × Json)) : Except Failure (List Json) :=
  match members.lookup "verdicts".toList with
  | none => .ok []
  | some (.arr entries) => .ok entries
  | some _ => .error (.verifier .responseInvalid)

def readDocument : ResponseContent → Except Failure (List Json)
  | .document members => responseEntries members
  | .text (.ok (.obj members)) => responseEntries members
  -- Only `TypeError` and `ValueError` are caught.
  | .text (.error .recursion) => .error .other
  | _ => .error (.verifier .responseInvalid)

/-- What a batch supplies for each claim it was sent. -/
structure BatchContext where
  supporting : Text → List Text
  source : Text → Option ResolvedSourceEvidence
  references : Text → List (Text × SourceFragment)

/-- The grounding checks a verified answer has to pass. -/
def checkGrounding (context : BatchContext) (answer : VerifierResponseVerdict) :
    Except Failure PUnit := do
  let refs := answer.supportingFragmentRefs
  let hashes := answer.supportingFragmentHashes
  refuseIf (¬refs.Nodup ∨ ¬hashes.Nodup) (.verifier .responseInvalid)
  refuseIf (refs = [] ∧ hashes = []) (.verifier .responseUngroundedVerified)
  refuseIf (¬∀ hash ∈ hashes, hash ∈ context.supporting answer.claimId)
    (.verifier .responseUnknownEvidence)

/-- The support of an answer: each citation of a verified one, resolved to one durable row. -/
def answerSupport (context : BatchContext) (answer : VerifierResponseVerdict) :
    Except Failure (List SupportLink) :=
  match context.source answer.claimId with
  | none => .ok []
  | some source =>
    match linksForCitations source answer.supportingFragmentRefs answer.supportingFragmentHashes
        (context.references answer.claimId) with
    | .ok links => .ok links
    | .error (.support .ambiguous) => .error (.verifier .responseAmbiguousEvidence)
    | .error (.support _) => .error (.verifier .supportLinkInvalid)
    | .error .typeError => .error .other

def groundAnswer (context : BatchContext) (answer : VerifierResponseVerdict) :
    Except Failure VerificationVerdict :=
  let outcome := (answer.verdict, groundedReason answer.verdict)
  if answer.verdict = .verified then do
    checkGrounding context answer
    let support ← answerSupport context answer
    citedVerdict answer.claimId .groundedModel outcome support
  else .ok (bareVerdict answer.claimId .groundedModel outcome)

def readEntries (expected : List Text) (context : BatchContext) :
    List Json → Dict Text VerificationVerdict → Except Failure (Dict Text VerificationVerdict)
  | [], byId => .ok byId
  | entry :: rest, byId =>
    match readAnswer entry with
    | none => .error (.verifier .responseInvalid)
    | some answer => do
      refuseIf (answer.claimId ∉ expected) (.verifier .responseUnknownClaim)
      refuseIf (answer.claimId ∈ byId.keys) (.verifier .responseDuplicateClaim)
      let verdict ← groundAnswer context answer
      readEntries expected context rest (byId.set answer.claimId verdict)

/-- Map one batch response onto exactly the claims it was sent. -/
def parseVerifierBatch (content : ResponseContent) (expected : List Text) (context : BatchContext) :
    Except Failure (List VerificationVerdict) := do
  let entries ← readDocument content
  let byId ← readEntries expected context entries Dict.empty
  pure (expected.map fun claimId =>
    (byId.get? claimId).getD (bareVerdict claimId .groundedModel omittedVerdict))

/-! ## 7. Running the batches -/

structure CallShape where
  outputCap : ℕ
  effort : String

inductive CompletionCode
  | reasoningExhaustedOutput
  | outputTruncated
  | emptyCompletion
  deriving DecidableEq, Repr

/-- `TRUNCATION_CODES`. -/
def CompletionCode.truncation : CompletionCode → Bool
  | .emptyCompletion => false
  | _ => true

def CompletionCode.reason : CompletionCode → VerifierReason
  | .reasoningExhaustedOutput => .modelReasoningExhaustedOutput
  | .outputTruncated => .modelOutputTruncated
  | .emptyCompletion => .modelEmptyCompletion

/-- What `classify_completion` makes of a model response. -/
inductive Reply
  | answer (content : ResponseContent)
  | shapeInvalid
  | failed (code : CompletionCode)

/-- A verifier with its injected capabilities. -/
structure Verifier (W : Type) where
  unicode : Unicode
  sha256 : Text → Text
  resolve : List EvidenceReference → Action W Failure (Text → Option ResolvedSourceEvidence)
  call : Text → CallShape → Action W Failure Reply
  retryCallback : CompletionCode → Action W Failure PUnit
  initialShape : CallShape
  escalate : CallShape → Option CallShape

/-- One durable-progress unit handed to the engine. -/
structure VerifierProgress where
  verdicts : List VerificationVerdict
  batchIndex : ℕ
  batchCount : ℕ
  claimCount : ℕ

namespace Verifier

variable {W : Type} (verifier : Verifier W)

/-- Ask with an escalated shape; a second truncation is final. -/
def askAgain (payload : Text) (shape : CallShape) : Action W Failure ResponseContent := do
  match ← verifier.call payload shape with
  | .answer content => pure content
  | .shapeInvalid => Action.raise (.verifier .responseInvalid)
  | .failed code => Action.raise (.verifier code.reason)

/-- Ask for one batch; a truncated completion is repaired once, by escalation. -/
def ask (payload : Text) : Action W Failure ResponseContent := do
  match ← verifier.call payload verifier.initialShape with
  | .answer content => pure content
  | .shapeInvalid => Action.raise (.verifier .responseInvalid)
  | .failed code =>
    match if code.truncation then verifier.escalate verifier.initialShape else none with
    | none => Action.raise (.verifier code.reason)
    | some shape => do
      verifier.retryCallback code
      verifier.askAgain payload shape

/-- `source_id -> {reference: fragment}` for the request that is sent. -/
def fragmentReferenceIndex (candidates : List GroundedCandidate) :
    List (Text × List (Text × SourceFragment)) :=
  (deduplicatedSources candidates).zipIdx.map fun numbered =>
    (numbered.1.sourceId, numbered.1.orderedFragments.zipIdx.map fun f =>
      (fragmentReference numbered.2 f.2, f.1))

def batchContext (ordered : List GroundedCandidate) : BatchContext where
  supporting := fun claimId =>
    ((ordered.find? fun c => decide (c.claimId = claimId)).map fun c =>
      c.source.contentHashes).getD []
  source := fun claimId =>
    (ordered.find? fun c => decide (c.claimId = claimId)).map GroundedCandidate.source
  references := fun claimId =>
    ((ordered.find? fun c => decide (c.claimId = claimId)).bind fun c =>
      (fragmentReferenceIndex ordered).lookup c.source.sourceId).getD []

/-- `_FORBIDDEN_TEXT`. -/
def forbiddenText : List String :=
  ["chain of thought", "hidden reasoning", "secret sentinel", "begin private key"]

def safeText (u : Unicode) (text : Text) : Bool :=
  !forbiddenText.any fun marker => decide (marker.toList <:+: u.casefold text)

/-- Every text of a verdict that becomes durable. -/
def durableTexts (verdict : VerificationVerdict) : List Text :=
  [verdict.claimId, verdict.verdict.text.toList, verdict.reason.toList] ++
    (verdict.mode.map fun m => m.text.toList).toList ++
    (verdict.contractVersion.map String.toList).toList ++
    verdict.support.flatMap fun link =>
      [link.sourceId, link.contentHash] ++ link.fragmentId.toList ++ link.locator.toList

/-- `safe_durable_value` over the verdicts of a batch. -/
def checkDurable (u : Unicode) (verdicts : List VerificationVerdict) : Except Failure PUnit :=
  refuseIf (¬verdicts.all fun v => (durableTexts v).all (safeText u)) .other

/-- One semantic model call through the guarded gateway. -/
def verifyBatch (batch : List GroundedCandidate) : Action W Failure (List VerificationVerdict) := do
  let ordered := sortOn GroundedCandidate.claimId batch
  let content ← verifier.ask (serializeVerifierCandidates ordered)
  let resolved ← Action.ofExcept (parseVerifierBatch content
    (ordered.map GroundedCandidate.claimId) (batchContext ordered))
  Action.ofExcept (checkDurable verifier.unicode resolved)
  pure resolved

variable (batchCompleted : VerifierProgress → Action W Failure PUnit)

def runBatches (batchCount : ℕ) : List (List GroundedCandidate) → ℕ →
    Action W Failure (List VerificationVerdict)
  | [], _ => pure []
  | batch :: rest, index => do
    let resolved ← verifier.verifyBatch batch
    batchCompleted ⟨resolved, index, batchCount, resolved.length⟩
    let others ← runBatches batchCount rest (index + 1)
    pure (resolved ++ others)

/-- The settled verdicts become durable before the first paid batch. -/
def announce (plan : GroundedVerificationPlan) : Action W Failure PUnit :=
  if plan.batches.isEmpty then pure ⟨⟩
  else batchCompleted ⟨plan.settled, 0, plan.batches.length, plan.settled.length⟩

/-- Execute an already-prepared plan. -/
def verifyPrepared (plan : GroundedVerificationPlan) :
    Action W Failure (List VerificationVerdict) := do
  announce batchCompleted plan
  let answered ← verifier.runBatches batchCompleted plan.batches.length plan.batches 1
  pure (sortOn VerificationVerdict.claimId (plan.settled ++ answered))

/-- Resolve and partition once. -/
def prepare (evidence : List EvidenceReference) (conflictClaimIds : List Text)
    (existing : Dict Text StoredVerdict) (groundingVersion : ℕ) :
    Action W Failure GroundedVerificationPlan :=
  planGroundedVerification verifier.unicode verifier.sha256 verifier.resolve defaultBounds evidence
    conflictClaimIds existing groundingVersion

/-- Prepare and execute one pass. -/
def verify (evidence : List EvidenceReference) (conflictClaimIds : List Text)
    (existing : Dict Text StoredVerdict) (groundingVersion : ℕ) :
    Action W Failure (List VerificationVerdict) := do
  let plan ← verifier.prepare evidence conflictClaimIds existing groundingVersion
  verifier.verifyPrepared batchCompleted plan

end Verifier

end Milo.Swarm
