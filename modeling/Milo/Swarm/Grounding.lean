import Milo.Reasoning.Action
import Milo.Swarm.Structured

/-!
# Grounding — the durable evidence of a claim's own source

A resolver answers with source contexts; only a context of the claim's exact source and task is
accepted.  A citation resolves to exactly one fragment of that context, or fails.
-/

namespace Milo.Swarm

open Milo.Python Milo.Reasoning

def maxFragmentChars : ℕ := 400

def maxFragmentTotalCharsPerSource : ℕ := 1200

def maxStructuredFactsPerSource : ℕ := 32

/-! ## 1. Source contexts -/

/-- One durable, bounded piece of quoted source text. -/
structure SourceFragment where
  fragmentIndex : ℕ
  contentHash : Text
  text : Text
  fragmentType : Option Text
  locator : Option Text
  fragmentId : Option Text
  indexed : fragmentIndex < maxFragmentsPerSource
  hashed : isHash contentHash = true
  bounded : 1 ≤ text.length ∧ text.length ≤ maxFragmentChars
  whole : fragmentType = none ↔ locator = none

def SourceFragment.identity (fragment : SourceFragment) : Text × Option Text :=
  (fragment.contentHash, fragment.locator)

/-- The complete grounding context of one durable source. -/
structure ResolvedSourceEvidence where
  sourceId : Text
  taskId : Text
  url : Text
  title : Text
  domain : Text
  sourceType : Text
  sourceStrength : Text
  sourceDate : Option Text
  sourceVersion : Option Text
  fragments : List SourceFragment
  facts : List StructuredSourceFact
  named : sourceId ≠ [] ∧ taskId ≠ []
  fewFragments : fragments.length ≤ maxFragmentsPerSource
  fewChars : (fragments.map fun f => f.text.length).sum ≤ maxFragmentTotalCharsPerSource
  distinctFragments : (fragments.map SourceFragment.identity).Nodup
  fewFacts : facts.length ≤ maxStructuredFactsPerSource
  ownFacts : ∀ fact ∈ facts, fact.sourceId = sourceId ∧ fact.taskId = taskId
  distinctFacts : (facts.map StructuredSourceFact.factId).Nodup

namespace ResolvedSourceEvidence

variable (source : ResolvedSourceEvidence)

/-- The located facts of this source, by fact id. -/
def structuredFacts : List StructuredSourceFact :=
  sortOn StructuredSourceFact.factId (source.facts.filter StructuredSourceFact.located)

/-- The only hashes a verified verdict may cite for this source. -/
def contentHashes : List Text := source.fragments.map SourceFragment.contentHash

/-- Order by index, then hash, then locator. -/
def fragmentLE (a b : SourceFragment) : Bool :=
  if a.fragmentIndex ≠ b.fragmentIndex then decide (a.fragmentIndex < b.fragmentIndex)
  else if a.contentHash ≠ b.contentHash then keyLE a.contentHash b.contentHash
  else keyLE (a.locator.getD []) (b.locator.getD [])

def orderedFragments : List SourceFragment := source.fragments.insertionSort fun a b => fragmentLE a b

end ResolvedSourceEvidence

/-- One claim joined to the durable evidence of its own source. -/
structure GroundedCandidate where
  reference : EvidenceReference
  source : ResolvedSourceEvidence
  own : reference.sourceId = source.sourceId ∧ reference.taskId = source.taskId
  version : reference.sourceVersion = none ∨ reference.sourceVersion = source.sourceVersion

def GroundedCandidate.claimId (candidate : GroundedCandidate) : Text := candidate.reference.claimId

/-- `GroundedCandidate(reference=..., source=...)`. -/
def groundCandidate (reference : EvidenceReference) (source : ResolvedSourceEvidence) :
    Except Failure GroundedCandidate :=
  if own : reference.sourceId = source.sourceId ∧ reference.taskId = source.taskId then
    if version : reference.sourceVersion = none ∨ reference.sourceVersion = source.sourceVersion then
      .ok ⟨reference, source, own, version⟩
    else .error .grounding
  else .error .grounding

theorem groundCandidate_eq_ok {reference : EvidenceReference} {source : ResolvedSourceEvidence}
    {candidate : GroundedCandidate} (h : groundCandidate reference source = .ok candidate) :
    candidate.reference = reference := by
  unfold groundCandidate at h
  split at h
  · split at h
    · cases h
      rfl
    · cases h
  · cases h

/-! ## 2. Resolution -/

/-- The context the resolver gave for a claim, if it is of the claim's own source and task. -/
def contextOf (resolved : Text → Option ResolvedSourceEvidence) (item : EvidenceReference) :
    Except Failure (EvidenceReference × ResolvedSourceEvidence) :=
  match resolved item.sourceId with
  | none => .error .grounding
  | some context =>
    if context.sourceId = item.sourceId ∧ context.taskId = item.taskId then .ok (item, context)
    else .error .grounding

theorem contextOf_eq_ok {resolved : Text → Option ResolvedSourceEvidence} {item : EvidenceReference}
    {pair : EvidenceReference × ResolvedSourceEvidence} (h : contextOf resolved item = .ok pair) :
    pair.1 = item := by
  unfold contextOf at h
  split at h
  · cases h
  · split at h
    · cases h
      rfl
    · cases h

/-- Every claim with its validated source context; `resolve` is the injected resolver, whose answer
    is read by source id. -/
def resolveSourceContext {W : Type}
    (resolve : List EvidenceReference → Action W Failure (Text → Option ResolvedSourceEvidence))
    (references : List EvidenceReference) :
    Action W Failure (List (EvidenceReference × ResolvedSourceEvidence)) := do
  let resolved ← resolve references
  Action.ofExcept (references.mapM (contextOf resolved))

/-! ## 3. Support links -/

inductive SupportReason
  | ambiguous
  | invalid
  | unknownEvidence
  | missing
  deriving DecidableEq, Repr

/-- What resolving a citation may raise: a support contract failure, or a comparison of a missing
    locator with a text. -/
inductive SupportFailure
  | support (reason : SupportReason)
  | typeError
  deriving DecidableEq, Repr

/-- One validated link to one durable fragment of the source. -/
def link (source : ResolvedSourceEvidence) (fragment : SourceFragment) :
    Except SupportFailure SupportLink :=
  let made : SupportLink :=
    ⟨source.sourceId, fragment.contentHash, fragment.fragmentId, fragment.locator⟩
  if made.wellFormed then .ok made else .error (.support .invalid)

/-- `f"f{source_index}-{fragment_index}"`. -/
def fragmentReference (sourceIndex fragmentIndex : ℕ) : Text :=
  'f' :: (natText sourceIndex ++ '-' :: natText fragmentIndex)

/-- The one fragment a test picks out. -/
def onlyFragment (source : ResolvedSourceEvidence) (p : SourceFragment → Bool) :
    Except SupportFailure SupportLink :=
  match source.fragments.filter p with
  | [] => .error (.support .unknownEvidence)
  | [fragment] => link source fragment
  | _ => .error (.support .ambiguous)

/-- A citation by the opaque name of a fragment. -/
def linkForReference (source : ResolvedSourceEvidence) (references : List (Text × SourceFragment))
    (reference : Text) : Except SupportFailure SupportLink :=
  match references.lookup reference with
  | none => .error (.support .unknownEvidence)
  | some fragment => link source fragment

/-- A citation by content hash. -/
def linkForHash (source : ResolvedSourceEvidence) (contentHash : Text) :
    Except SupportFailure SupportLink :=
  onlyFragment source fun item => decide (item.contentHash = contentHash)

/-- `sorted(set(items))`. -/
def sortedSet (items : List Text) : List Text := sortOn id items.dedup

/-- Order of links by identity. -/
def linkLE (a b : SupportLink) : Bool :=
  if a.sourceId ≠ b.sourceId then keyLE a.sourceId b.sourceId
  else if a.contentHash ≠ b.contentHash then keyLE a.contentHash b.contentHash
  else keyLE (a.locator.getD []) (b.locator.getD [])

/-- Sorting compares a missing locator with a text. -/
def locatorsClash (links : List SupportLink) : Bool :=
  links.any fun a => links.any fun b =>
    decide (a.sourceId = b.sourceId ∧ a.contentHash = b.contentHash ∧ a.locator = none ∧
      b.locator ≠ none)

def sortLinks (links : List SupportLink) : Except SupportFailure (List SupportLink) :=
  if locatorsClash links then .error .typeError
  else .ok (links.insertionSort fun a b => linkLE a b)

/-- Resolve every citation of one verdict, one durable row per citation. -/
def linksForCitations (source : ResolvedSourceEvidence) (references hashes : List Text)
    (referenceIndex : List (Text × SourceFragment)) : Except SupportFailure (List SupportLink) := do
  let byReference ← (sortedSet references).mapM (linkForReference source referenceIndex)
  let byHash ← (sortedSet hashes).mapM (linkForHash source)
  let links := (Dict.ofList ((byReference ++ byHash).map fun item => (item.identity, item))).values
  if maxFragmentsPerSource < links.length then .error (.support .invalid) else sortLinks links

/-- The link of the one fragment recorded at an exact locator. -/
def linksForLocator (source : ResolvedSourceEvidence) (locator : Option Text) :
    Except SupportFailure (List SupportLink) :=
  if (locator.getD []) = [] then .error (.support .missing)
  else do
    let only ← onlyFragment source fun item => decide (item.locator = locator)
    pure [only]

/-- Revalidate the links of a stored verdict. -/
def parseSupport (links : List SupportLink) : Except SupportFailure (List SupportLink) :=
  if maxFragmentsPerSource < links.length then .error (.support .invalid) else sortLinks links

end Milo.Swarm
