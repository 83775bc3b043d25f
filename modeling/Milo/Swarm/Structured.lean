import Milo.Reasoning.Grouping
import Milo.Swarm.Comparison
import Milo.Swarm.Contracts

/-!
# Structured — comparing a claim to the facts of its own source

The comparison scope is the canonical scope with the closed identity dimensions; a claim is
compared only to facts of its exact scope.
-/

namespace Milo.Swarm

open Milo.Python Milo.Reasoning

/-! ## 1. Scope identity -/

def identityDimensions : List String :=
  ["body_style", "drivetrain", "engine", "generation", "model_code", "transmission", "trim"]

def maxIdentityDimensionChars : ℕ := 120

/-- `str(raw)` of a string or a number; anything else is not a dimension value. -/
def dimensionText : Json → Option Text
  | .str text => some text
  | .int z => some (intText z)
  | .float f => some (floatText f)
  | _ => none

/-- One dimension of a record, if it is stated within bounds. -/
def keptDimension (u : Unicode) (identity : List (Text × Json)) (dimension : String) :
    Option (Text × Text) :=
  ((identity.lookup dimension.toList).bind dimensionText).bind fun raw =>
    let text := normalizeFieldKey u raw
    if text = [] ∨ maxIdentityDimensionChars < text.length then none
    else some (dimension.toList, text)

/-- The closed identity dimensions of a record, normalized and ordered. -/
def normalizeIdentity (u : Unicode) (identity : List (Text × Json)) : List (Text × Text) :=
  sortOn Prod.fst (identityDimensions.filterMap (keptDimension u identity))

/-- The complete comparison scope of one statement. -/
structure ScopeIdentity where
  scope : CanonicalScope
  identity : List (Text × Text)
  deriving DecidableEq

def scopeIdentity (u : Unicode) (entity field : Text) (geography market : Option Text)
    (timeScope : Option (List (Text × Json))) (identity : List (Text × Json)) : ScopeIdentity where
  scope := canonicalScopeKey u entity field geography market timeScope
  identity := normalizeIdentity u identity

def optionalText : Option Text → Json
  | none => .null
  | some text => .str text

/-- The JSON list the hash of a scope is taken over. -/
def ScopeIdentity.encoded (identity : ScopeIdentity) : Text :=
  (Json.arr [.arr [.str identity.scope.entity, .str identity.scope.field,
      optionalText identity.scope.geography, optionalText identity.scope.market,
      .str identity.scope.timeScope],
    .arr (identity.identity.map fun d => .arr [.str d.1, .str d.2])]).dumps

/-- The bounded durable name of one comparison scope; `sha256` is the hex digest. -/
def scopeIdentityHash (sha256 : Text → Text) (identity : ScopeIdentity) : Text :=
  sha256 identity.encoded

/-- The comparison scope of a claim. -/
def referenceIdentity (u : Unicode) (reference : EvidenceReference) : ScopeIdentity :=
  scopeIdentity u reference.entity reference.field reference.geography reference.market
    (some reference.timeScope) (reference.identity.map fun d => (d.1, .str d.2))

/-- The quantity a claim states. -/
def statedValue (u : Unicode) (reference : EvidenceReference) : QuantityIdentity :=
  valueIdentity u reference.value reference.unit

/-! ## 2. Facts of a source -/

/-- One structured fact recorded from a source. -/
structure StructuredSourceFact where
  factId : Text
  sourceId : Text
  taskId : Text
  field : Text
  entity : Text
  value : Json
  unit : Option Text
  geography : Option Text
  market : Option Text
  timeScope : Option (List (Text × Json))
  identity : List (Text × Json)
  locator : Option Text
  named : factId ≠ [] ∧ sourceId ≠ [] ∧ taskId ≠ [] ∧ field ≠ []

namespace StructuredSourceFact

variable (fact : StructuredSourceFact) (u : Unicode)

def scopeIdentity : ScopeIdentity :=
  Swarm.scopeIdentity u fact.entity fact.field fact.geography fact.market fact.timeScope
    fact.identity

/-- A fact carries a locator that is not empty. -/
def located : Bool := fact.locator.any fun text => !text.isEmpty

def statedValue : QuantityIdentity := valueIdentity u fact.value fact.unit

end StructuredSourceFact

/-! ## 3. The comparison -/

inductive Outcome
  | «match»
  | mismatch
  | ambiguous
  | notComparable
  deriving DecidableEq, Repr

/-- The decided outcome of one structured comparison. -/
structure StructuredComparison where
  outcome : Outcome
  reason : ComparisonReason
  matched : Option StructuredSourceFact

/-- Deterministic code settled this claim without a model call. -/
def StructuredComparison.isDecisive (comparison : StructuredComparison) : Bool :=
  decide (comparison.outcome ≠ .notComparable)

/-- Compare a claim to the one quantity its source states for the claim's exact scope. -/
def compareCandidates (u : Unicode) (reference : EvidenceReference)
    (candidates : List StructuredSourceFact) : StructuredComparison :=
  if 1 < (candidates.map fun fact => fact.statedValue u).dedup.length then
    ⟨.ambiguous, .ambiguousSourceFact, none⟩
  else
    match (sortOn StructuredSourceFact.factId candidates).head? with
    | none => ⟨.notComparable, .noStructuredFact, none⟩
    | some fact =>
      let reason := compareValues u reference.value reference.unit fact.value fact.unit
      ⟨if reason = .structuredMatch then .match else .mismatch, reason, some fact⟩

/-- Compare one claim to the structured facts of its own source. -/
def compareStructured (u : Unicode) (reference : EvidenceReference)
    (facts : List StructuredSourceFact) (claimSourceVersion sourceVersion : Option Text) :
    StructuredComparison :=
  let located := facts.filter StructuredSourceFact.located
  let wanted := referenceIdentity u reference
  let sameField := located.filter fun fact =>
    decide ((fact.scopeIdentity u).scope.field = wanted.scope.field)
  let candidates := sameField.filter fun fact => decide (fact.scopeIdentity u = wanted)
  if claimSourceVersion ≠ none ∧ claimSourceVersion ≠ sourceVersion then
    ⟨.mismatch, .sourceVersionMismatch, none⟩
  else if located = [] then ⟨.notComparable, .noStructuredFact, none⟩
  else if sameField = [] then ⟨.mismatch, .fieldNotInSource, none⟩
  else if candidates = [] then
    ⟨.mismatch, if sameField.any fun fact => decide ((fact.scopeIdentity u).scope = wanted.scope)
      then .identityMismatch else .scopeMismatch, none⟩
  else compareCandidates u reference candidates

end Milo.Swarm
