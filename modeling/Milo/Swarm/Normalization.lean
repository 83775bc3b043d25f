import Milo.Python.Json
import Milo.Python.Text

/-!
# Normalization — one canonical form for text and values

Formatting only: Unicode NFKC, case folding, whitespace and the separators `_` and `-`.  The tables
behind NFKC and case folding are Unicode's and stay a parameter.
-/

namespace Milo.Swarm

open Milo.Python

/-- The two Unicode transformations of Python's standard library that normalization calls. -/
structure Unicode where
  nfkc : List Char → List Char
  casefold : List Char → List Char

/-- What they do to ASCII text. -/
def asciiUnicode : Unicode where
  nfkc := id
  casefold := List.map Char.toLower

def separator (c : Char) : Char := if c = '_' ∨ c = '-' then ' ' else c

def normalizeText (u : Unicode) (value : List Char) : List Char :=
  joinWords (words ((u.casefold (u.nfkc value)).map separator))

def normalizeEntityKey (u : Unicode) (value : List Char) : List Char := normalizeText u value

def normalizeFieldKey (u : Unicode) (value : List Char) : List Char := normalizeText u value

def normalizeGeographyKey (u : Unicode) (value : Option (List Char)) : Option (List Char) :=
  value.map (normalizeText u)

def normalizeMarketKey (u : Unicode) (value : Option (List Char)) : Option (List Char) :=
  value.map (normalizeText u)

/-- Deterministic JSON identity for claim values; no fuzzy equality. -/
def canonicalValueKey (value : Json) : List Char := value.dumps

/-- Canonical JSON of a time scope; a missing one is the empty object. -/
def normalizeTimeScope (value : Option (List (List Char × Json))) : List Char :=
  canonicalValueKey (.obj (value.getD []))

/-- The single evidence-scope contract. -/
structure CanonicalScope where
  entity : List Char
  field : List Char
  geography : Option (List Char)
  market : Option (List Char)
  timeScope : List Char
  deriving DecidableEq

def canonicalScopeKey (u : Unicode) (entity field : List Char) (geography market : Option (List Char))
    (timeScope : Option (List (List Char × Json))) : CanonicalScope where
  entity := normalizeEntityKey u entity
  field := normalizeFieldKey u field
  geography := normalizeGeographyKey u geography
  market := normalizeMarketKey u market
  timeScope := normalizeTimeScope timeScope

end Milo.Swarm
