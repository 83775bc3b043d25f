import Milo.Swarm.Normalization

/-!
# Comparison — the closed contract for comparing stated values

A stated value is a JSON value with a unit.  `compareValues` answers whether a claim verifies
against a source fact, `valueIdentity` names the statement itself; units convert only inside the
allowlist, by exact rational factors.
-/

namespace Milo.Swarm

open Milo.Python

/-! ## 1. Units -/

structure UnitRule where
  family : String
  numerator : ℕ
  denominator : ℕ

/-- `UNIT_CONVERSIONS`: an exact rational factor to each family's base unit. -/
def unitConversions : List (String × UnitRule) :=
  [("cc", ⟨"volume_cc", 1, 1⟩), ("cm3", ⟨"volume_cc", 1, 1⟩), ("cm^3", ⟨"volume_cc", 1, 1⟩),
    ("ml", ⟨"volume_cc", 1, 1⟩), ("l", ⟨"volume_cc", 1000, 1⟩),
    ("mm", ⟨"length_mm", 1, 1⟩), ("cm", ⟨"length_mm", 10, 1⟩), ("m", ⟨"length_mm", 1000, 1⟩),
    ("km", ⟨"length_mm", 1000000, 1⟩),
    ("g", ⟨"mass_g", 1, 1⟩), ("kg", ⟨"mass_g", 1000, 1⟩), ("t", ⟨"mass_g", 1000000, 1⟩),
    ("w", ⟨"power_w", 1, 1⟩), ("kw", ⟨"power_w", 1000, 1⟩),
    ("nm", ⟨"torque_nm", 1, 1⟩),
    ("km/h", ⟨"speed_kmh", 1, 1⟩), ("kph", ⟨"speed_kmh", 1, 1⟩),
    ("%", ⟨"ratio_pct", 1, 1⟩)]

/-- Case and surrounding whitespace are never meaning; an empty unit is none. -/
def normalizeUnit (u : Unicode) (unit : Option (List Char)) : Option (List Char) :=
  match unit with
  | none => none
  | some text =>
    let folded := u.casefold (strip text)
    if folded = [] then none else some folded

/-- The family and the exact factor to its base, for an allowlisted unit. -/
def unitFactor (unit : Option (List Char)) : Option (String × ℚ) :=
  unit.bind fun text =>
    (unitConversions.find? fun e => decide (e.1.toList = text)).map fun e =>
      (e.2.family, (e.2.numerator : ℚ) / e.2.denominator)

/-! ## 2. Numbers -/

/-- An exact rational for a numeric value; a float goes through its decimal text. -/
def exactValue : Json → ℚ
  | .int z => z
  | .float f => readDecimal (floatText f)
  | _ => 0

/-- `f"{base.numerator}/{base.denominator}"`. -/
def fractionText (q : ℚ) : List Char := intText q.num ++ '/' :: natText q.den

/-! ## 3. The two questions -/

/-- `COMPARISON_REASONS`, the static outcome codes. -/
inductive ComparisonReason
  | structuredMatch
  | valueMismatch
  | valueNotComparable
  | unitMissing
  | unitNotConvertible
  | ambiguousSupportEvidence
  | fieldNotInSource
  | scopeMismatch
  | identityMismatch
  | sourceVersionMismatch
  | ambiguousSourceFact
  | noStructuredFact
  deriving DecidableEq, Repr

def ComparisonReason.text : ComparisonReason → String
  | .structuredMatch => "R4_STRUCTURED_MATCH"
  | .valueMismatch => "R4_VALUE_MISMATCH"
  | .valueNotComparable => "R4_VALUE_NOT_COMPARABLE"
  | .unitMissing => "R4_UNIT_MISSING"
  | .unitNotConvertible => "R4_UNIT_NOT_CONVERTIBLE"
  | .ambiguousSupportEvidence => "R4_AMBIGUOUS_SUPPORT_EVIDENCE"
  | .fieldNotInSource => "R4_FIELD_NOT_IN_SOURCE"
  | .scopeMismatch => "R4_SCOPE_MISMATCH"
  | .identityMismatch => "R4_IDENTITY_MISMATCH"
  | .sourceVersionMismatch => "R4_SOURCE_VERSION_MISMATCH"
  | .ambiguousSourceFact => "R4_AMBIGUOUS_SOURCE_FACT"
  | .noStructuredFact => "R4_NO_STRUCTURED_FACT"

/-- Two numbers as exact rationals in units of one family. -/
def compareNumbers (claimValue : Json) (claimUnit : Option (List Char)) (factValue : Json)
    (factUnit : Option (List Char)) : ComparisonReason :=
  if claimUnit = none ∨ factUnit = none then .unitMissing
  else
    let factors : Option (ℚ × ℚ) :=
      if claimUnit ≠ factUnit then
        match unitFactor claimUnit, unitFactor factUnit with
        | some claimRule, some factRule =>
          if claimRule.1 ≠ factRule.1 then none else some (claimRule.2, factRule.2)
        | _, _ => none
      else some (1, 1)
    match factors with
    | none => .unitNotConvertible
    | some (left, right) =>
      if exactValue claimValue * left = exactValue factValue * right then .structuredMatch
      else .valueMismatch

/-- Two values that are not numbers, by their canonical identity. -/
def compareOthers (u : Unicode) (claimValue : Json) (claimUnit : Option (List Char))
    (factValue : Json) (factUnit : Option (List Char)) : ComparisonReason :=
  if claimUnit ≠ factUnit then .unitNotConvertible
  else
    match claimValue, factValue with
    | .str claimText, .str factText =>
      if normalizeFieldKey u claimText = normalizeFieldKey u factText then .structuredMatch
      else .valueMismatch
    | _, _ =>
      if canonicalValueKey claimValue = canonicalValueKey factValue then .structuredMatch
      else .valueMismatch

/-- Compare one claim value/unit pair to one source value/unit pair. -/
def compareValues (u : Unicode) (claimValue : Json) (claimUnit : Option (List Char))
    (factValue : Json) (factUnit : Option (List Char)) : ComparisonReason :=
  let claimNormalized := normalizeUnit u claimUnit
  let factNormalized := normalizeUnit u factUnit
  if claimValue.isNumber ≠ factValue.isNumber then .valueNotComparable
  else if claimValue.isNumber then
    compareNumbers claimValue claimNormalized factValue factNormalized
  else compareOthers u claimValue claimNormalized factValue factNormalized

structure QuantityIdentity where
  kind : String
  unit : List Char
  value : List Char
  deriving DecidableEq

/-- `QuantityIdentity("opaque", normalized or "", value)`. -/
def opaqueIdentity (normalized : Option (List Char)) (value : List Char) : QuantityIdentity :=
  ⟨"opaque", normalized.getD [], value⟩

/-- The deterministic identity of one stated value-and-unit. -/
def valueIdentity (u : Unicode) (value : Json) (unit : Option (List Char)) : QuantityIdentity :=
  let normalized := normalizeUnit u unit
  if value.isNumber then
    match unitFactor normalized with
    | some (family, factor) => ⟨"quantity", family.toList, fractionText (exactValue value * factor)⟩
    | none => opaqueIdentity normalized (canonicalValueKey value)
  else
    match value with
    | .str text => opaqueIdentity normalized (normalizeFieldKey u text)
    | _ => opaqueIdentity normalized (canonicalValueKey value)

/-- Whether two stated values are the same statement. -/
def sameValue (u : Unicode) (leftValue : Json) (leftUnit : Option (List Char)) (rightValue : Json)
    (rightUnit : Option (List Char)) : Bool :=
  decide (valueIdentity u leftValue leftUnit = valueIdentity u rightValue rightUnit)

end Milo.Swarm
