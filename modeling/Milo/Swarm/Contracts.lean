import Milo.Python.Json

/-!
# Contracts — claims, verdicts and the support a verdict cites

The records that cross the verifier: a claim with the scope it speaks about, a durable verdict with
how it was reached, and the links to the evidence rows it rests on.
-/

namespace Milo.Swarm

open Milo.Python

abbrev Text := List Char

/-- Stable sort by a text key, as `sorted(items, key=...)`. -/
def sortOn {α : Type} (key : α → Text) (items : List α) : List α :=
  items.insertionSort fun a b => keyLE (key a) (key b)

theorem perm_sortOn {α : Type} (key : α → Text) (items : List α) : (sortOn key items).Perm items :=
  List.perm_insertionSort _ _

@[simp] theorem mem_sortOn {α : Type} {key : α → Text} {items : List α} {a : α} :
    a ∈ sortOn key items ↔ a ∈ items := (perm_sortOn key items).mem_iff

instance keyTotal {α : Type} (key : α → Text) : Std.Total fun a b : α => keyLE (key a) (key b) = true :=
  ⟨fun a b => keyLE_total (key a) (key b)⟩

instance keyTrans {α : Type} (key : α → Text) : IsTrans α fun a b : α => keyLE (key a) (key b) = true :=
  ⟨fun _ _ _ => keyLE_trans⟩

theorem pairwise_sortOn {α : Type} (key : α → Text) (items : List α) :
    (sortOn key items).Pairwise fun a b => keyLE (key a) (key b) = true :=
  List.pairwise_insertionSort _ items

/-- Items of different keys are sorted the same from any order. -/
theorem sortOn_eq_of_perm {α : Type} {key : α → Text} {items others : List α} (hperm : items.Perm others)
    (hapart : ∀ a ∈ items, ∀ b ∈ items, key a = key b → a = b) : sortOn key others = sortOn key items := by
  refine List.Perm.eq_of_pairwise ?_ (pairwise_sortOn key others) (pairwise_sortOn key items) ?_
  · intro a b ha hb hab hba
    exact hapart a (hperm.mem_iff.mpr (mem_sortOn.mp ha)) b (mem_sortOn.mp hb) (keyLE_antisymm hab hba)
  · exact ((perm_sortOn key others).trans hperm.symm).trans (perm_sortOn key items).symm

/-! ## 1. Claims -/

/-- One durable claim. -/
structure EvidenceReference where
  claimId : Text
  sourceId : Text
  runId : Text
  taskId : Text
  entity : Text
  field : Text
  geography : Option Text
  market : Option Text
  timeScope : List (Text × Json)
  value : Json
  unit : Option Text
  locator : Option Text
  sourceVersion : Option Text
  identity : List (Text × Text)
  confidence : PyFloat
  supported : Bool
  named : claimId ≠ []

/-! ## 2. Support -/

def maxFragmentsPerSource : ℕ := 4

/-- One durable evidence row a stored verdict rests on. -/
structure SupportLink where
  sourceId : Text
  contentHash : Text
  fragmentId : Option Text
  locator : Option Text
  deriving DecidableEq

/-- What makes this link this link: source, evidence and its place. -/
def SupportLink.identity (link : SupportLink) : Text × Text × Option Text :=
  (link.sourceId, link.contentHash, link.locator)

def isHexDigit (c : Char) : Bool := c.isDigit || "abcdef".toList.contains c

/-- `^[0-9a-f]{64}$`. -/
def isHash (text : Text) : Bool := decide (text.length = 64) && text.all isHexDigit

/-- `^[A-Za-z0-9_:.@-]+$`, at most 200 characters. -/
def isFragmentId (text : Text) : Bool :=
  decide (1 ≤ text.length ∧ text.length ≤ 200) &&
    text.all fun c => c.isAlphanum || "_:.@-".toList.contains c

def maxLocatorKeyChars : ℕ := 800

/-- The field contract of a support link. -/
def SupportLink.wellFormed (link : SupportLink) : Bool :=
  decide (1 ≤ link.sourceId.length ∧ link.sourceId.length ≤ 200) && isHash link.contentHash &&
    link.fragmentId.all isFragmentId &&
    link.locator.all fun text => decide (1 ≤ text.length ∧ text.length ≤ maxLocatorKeyChars)

/-! ## 3. Verdicts -/

inductive VerdictValue
  | verified
  | needsReview
  | rejected
  deriving DecidableEq, Repr

def VerdictValue.text : VerdictValue → String
  | .verified => "verified"
  | .needsReview => "needs_review"
  | .rejected => "rejected"

/-- How a verdict was reached. -/
inductive VerificationMode
  | deterministicLocal
  | deterministicStructured
  | groundedModel
  deriving DecidableEq, Repr

def VerificationMode.text : VerificationMode → String
  | .deterministicLocal => "deterministic_local"
  | .deterministicStructured => "deterministic_structured"
  | .groundedModel => "grounded_model"

/-- `VerificationVerdict.support_requires_mode`, with the bound on the list. -/
structure SupportRequiresMode (mode : Option VerificationMode) (contractVersion : Option String)
    (support : List SupportLink) : Prop where
  bounded : support.length ≤ maxFragmentsPerSource
  moded : support ≠ [] → mode ≠ none ∧ contractVersion ≠ none
  localBare : mode = some .deterministicLocal → support = []
  unique : (support.map SupportLink.identity).Nodup
  oneSource : ∀ link ∈ support, ∀ other ∈ support, link.sourceId = other.sourceId

instance (mode : Option VerificationMode) (contractVersion : Option String)
    (support : List SupportLink) :
    Decidable (SupportRequiresMode mode contractVersion support) :=
  decidable_of_iff (support.length ≤ maxFragmentsPerSource ∧
      (support ≠ [] → mode ≠ none ∧ contractVersion ≠ none) ∧
      (mode = some .deterministicLocal → support = []) ∧
      (support.map SupportLink.identity).Nodup ∧
      ∀ link ∈ support, ∀ other ∈ support, link.sourceId = other.sourceId)
    ⟨fun h => ⟨h.1, h.2.1, h.2.2.1, h.2.2.2.1, h.2.2.2.2⟩,
      fun h => ⟨h.bounded, h.moded, h.localBare, h.unique, h.oneSource⟩⟩

theorem supportRequiresMode_nil (mode : Option VerificationMode) (contractVersion : Option String) :
    SupportRequiresMode mode contractVersion [] where
  bounded := Nat.zero_le _
  moded := fun h => absurd rfl h
  localBare := fun _ => rfl
  unique := List.nodup_nil
  oneSource := fun _ h => absurd h List.not_mem_nil

/-- One durable verdict, and the record of how it was reached. -/
structure VerificationVerdict where
  claimId : Text
  verdict : VerdictValue
  reason : String
  mode : Option VerificationMode
  contractVersion : Option String
  support : List SupportLink
  contract : SupportRequiresMode mode contractVersion support

/-! ## 4. Failures -/

/-- `VERIFIER_REASONS`, the static codes of a verifier contract failure. -/
inductive VerifierReason
  | modelReasoningExhaustedOutput
  | modelOutputTruncated
  | modelEmptyCompletion
  | candidateTooLarge
  | evidenceDuplicateClaim
  | responseInvalid
  | responseDuplicateClaim
  | responseUnknownClaim
  | responseUngroundedVerified
  | responseUnknownEvidence
  | responseAmbiguousEvidence
  | stateUnknownClaim
  | stateInvalidVerdict
  | stateIncompatibleVerdict
  | supportLinkInvalid
  | stateSupportInvalid
  deriving DecidableEq, Repr

/-- The codes that start with `VERIFIER_STATE_`: the checkpoint contradicts its evidence. -/
def VerifierReason.ofState : VerifierReason → Bool
  | .stateUnknownClaim => true
  | .stateInvalidVerdict => true
  | .stateIncompatibleVerdict => true
  | .stateSupportInvalid => true
  | _ => false

/-- What verification may raise. -/
inductive Failure
  /-- `VerifierContractError`, with its code. -/
  | verifier (reason : VerifierReason)
  /-- `VerificationBudgetInsufficient`. -/
  | budgetInsufficient
  /-- One of `NOT_DEGRADABLE`: a cancellation, a budget stop, a repository or lease fault, a broken
      internal invariant. -/
  | notDegradable
  /-- `GroundingContractError`. -/
  | grounding
  /-- A contract of a record refused its fields. -/
  | invalidRecord
  /-- Any other exception. -/
  | other
  deriving DecidableEq, Repr

end Milo.Swarm
