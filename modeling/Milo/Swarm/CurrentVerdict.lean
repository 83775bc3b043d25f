import Milo.Swarm.Contracts
import Milo.Python.Datetime
import Milo.Python.Text

/-!
# CurrentVerdict — which verdict of a claim's history is current

The current row is the maximum of a sort key over the history, read in any order.  The key compares
the text of a timestamp between its instant and the fail-closed term; the database compares the
instant alone.  The two agree exactly while the spelling of the latest instant does not decide.
-/

namespace Milo.Swarm

-- Of the orders Mathlib gives the integers, the one that computes.
attribute [local instance (2000)] LinearOrder.toPartialOrder

open Milo.Python

/-! ## 1. Rows -/

/-- A durable `created_at`: a datetime with its instant in microseconds and what `isoformat` writes
    of it, the text of any other value, or nothing. -/
inductive CreatedAt
  | datetime (instant : ℤ) (isoformat : Text)
  | text (value : Text)
  | missing
  deriving DecidableEq

/-- What a row says about its durable support: a count if it states one (nothing if that is not a
    whole number), or the links it carries. -/
inductive SupportCell
  | stated (count : Option ℤ)
  | links (count : ℕ)
  | missing
  deriving DecidableEq

/-- One row of a claim's verdict history. -/
structure VerdictRow where
  id : Option Text
  claimId : Option Text
  verdict : Option Text
  reason : Option Text
  createdAt : CreatedAt
  verificationMode : Option Text
  verifierContractVersion : Option Text
  support : SupportCell
  deriving DecidableEq

/-- `_text`: the stripped text, or nothing. -/
def textOf : Option Text → Option Text
  | none => none
  | some value => if strip value = [] then none else some (strip value)

/-- `text.replace("Z", "+00:00")`. -/
def replaceZulu (text : Text) : Text :=
  text.flatMap fun c => if c = 'Z' then "+00:00".toList else [c]

/-! ## 2. The sort key -/

section Key

variable (fromisoformat : Text → Option ℤ)

/-- `_created_at_key`; `fromisoformat` reads a text as an instant, a naive one as UTC. -/
def createdAtKey : CreatedAt → ℕ ×ₗ ℤ ×ₗ Text
  | .datetime instant isoformat => toLex (1, toLex (instant, isoformat))
  | .missing => toLex (0, toLex (0, []))
  | .text value =>
    match textOf (some value) with
    | none => toLex (0, toLex (0, []))
    | some text =>
      match fromisoformat (replaceZulu text) with
      | none => toLex (0, toLex (0, text))
      | some instant => toLex (1, toLex (instant, text))

def VerdictRow.isVerified (row : VerdictRow) : Bool :=
  decide (textOf row.verdict = some "verified".toList)

/-- `str(row.get("id") or "")`. -/
def VerdictRow.idText (row : VerdictRow) : Text := row.id.getD []

/-- `_verdict_sort_key`. -/
def verdictSortKey (row : VerdictRow) : (ℕ ×ₗ ℤ ×ₗ Text) ×ₗ ℤ ×ₗ Text :=
  toLex (createdAtKey fromisoformat row.createdAt,
    toLex (if row.isVerified then -1 else 0, row.idText))

/-- The one current verdict row of a claim's history; of several maxima the first. -/
def currentVerdictRow (verdicts : List VerdictRow) : Option VerdictRow :=
  verdicts.argmax (verdictSortKey fromisoformat)

/-! ## 3. The state of a claim -/

inductive CurrentState
  | supported
  | unsupported
  | unverified
  | needsReview
  | rejected
  | contested
  | superseded
  | invalidated
  deriving DecidableEq, Repr

/-- `_support_count`. -/
def SupportCell.size : SupportCell → ℕ
  | .stated (some value) => value.toNat
  | .stated none => 0
  | .links count => count
  | .missing => 0

def evidenceBearingModes : List Text := ["deterministic_structured".toList, "grounded_model".toList]

/-- `_state_of`: the state a current row itself implies, and its support count. -/
def stateOf (row : VerdictRow) : CurrentState × ℕ :=
  let support := row.support.size
  match textOf row.verdict with
  | none => (.unsupported, support)
  | some verdict =>
    if verdict = "needs_review".toList then (.needsReview, support)
    else if verdict = "rejected".toList then (.rejected, support)
    else if verdict ≠ "verified".toList then (.unsupported, support)
    else
      match textOf row.verificationMode, textOf row.verifierContractVersion with
      | some mode, some _ =>
        if evidenceBearingModes.contains mode then
          (if 0 < support then .supported else .unsupported, support)
        else (.unsupported, support)
      | _, _ => (.unsupported, support)

/-- The fields of a durable claim row that are read. -/
structure ClaimRow where
  id : Option Text
  claimId : Option Text
  status : Option Text

/-- The resolved current state of one claim, and what decided it. -/
structure CurrentVerdict where
  claimId : Text
  state : CurrentState
  verdictId : Option Text := none
  verdict : Option Text := none
  reason : Option Text := none
  verificationMode : Option Text := none
  supportCount : ℕ := 0
  deriving DecidableEq

/-- Resolve one claim's current verdict state. -/
def resolveCurrentVerdict (claim : ClaimRow) (verdicts : List VerdictRow)
    (supersededClaimIds contestedClaimIds : List Text) : Except String CurrentVerdict :=
  match (textOf claim.id).or (textOf claim.claimId) with
  | none => .error "a durable claim row must state its id"
  | some claimId =>
    if (textOf claim.status).getD "active".toList ≠ "active".toList then
      .ok { claimId := claimId, state := .invalidated }
    else if supersededClaimIds.contains claimId then
      .ok { claimId := claimId, state := .superseded }
    else if contestedClaimIds.contains claimId then
      .ok { claimId := claimId, state := .contested }
    else
      match currentVerdictRow fromisoformat
        (verdicts.filter fun row => decide (row.claimId.getD [] = claimId)) with
      | none => .ok { claimId := claimId, state := .unverified }
      | some row =>
        .ok
          { claimId := claimId
            state := (stateOf row).1
            verdictId := textOf row.id
            verdict := textOf row.verdict
            reason := textOf row.reason
            verificationMode := textOf row.verificationMode
            supportCount := (stateOf row).2 }

/-! ## 4. The order of the authority -/

/-- The instant a timestamp denotes, and the text it is spelled with. -/
def readCreatedAt : CreatedAt → Option (ℤ × Text)
  | .datetime instant isoformat => some (instant, isoformat)
  | .missing => none
  | .text value =>
    match textOf (some value) with
    | none => none
    | some text => (fromisoformat (replaceZulu text)).map fun instant => (instant, text)

/-- The instant a row was created at. -/
def VerdictRow.instant (row : VerdictRow) : ℤ :=
  ((readCreatedAt fromisoformat row.createdAt).map Prod.fst).getD 0

/-- The text the instant is spelled with. -/
def VerdictRow.spelling (row : VerdictRow) : Text :=
  ((readCreatedAt fromisoformat row.createdAt).map Prod.snd).getD []

/-- `created_at desc, (verdict = 'verified') asc, id desc`: the greatest row comes first. -/
def authorityKey (row : VerdictRow) : ℤ ×ₗ ℤ ×ₗ Text :=
  toLex (row.instant fromisoformat, toLex (if row.isVerified then -1 else 0, row.idText))

/-- The row the authority puts first. -/
structure IsCurrent (rows : List VerdictRow) (row : VerdictRow) : Prop where
  mem : row ∈ rows
  greatest : ∀ other ∈ rows, authorityKey fromisoformat other ≤ authorityKey fromisoformat row

/-- The verdict history of one claim: every row has a time, and an id of its own. -/
structure History (rows : List VerdictRow) : Prop where
  timed : ∀ row ∈ rows, (readCreatedAt fromisoformat row.createdAt).isSome = true
  identified : ∀ row ∈ rows, ∀ other ∈ rows, row.idText = other.idText → row = other
  oneClaim : ∃ claimId, ∀ row ∈ rows, row.claimId.getD [] = claimId

/-- The selected row is the authority's, whatever the order the rows are read in: a tie in time never
    resolves to a verified row beside one that is not, and the resolved state does not change. -/
structure FailsClosed (rows : List VerdictRow) : Prop where
  selects : ∀ others, rows.Perm others → ∀ row,
    currentVerdictRow fromisoformat others = some row → IsCurrent fromisoformat rows row
  closed : ∀ others, rows.Perm others → ∀ row, currentVerdictRow fromisoformat others = some row →
    row.isVerified = true → ∀ other ∈ rows,
      other.instant fromisoformat = row.instant fromisoformat → other.isVerified = true
  stable : ∀ others, rows.Perm others →
    currentVerdictRow fromisoformat others = currentVerdictRow fromisoformat rows
  resolved : ∀ others, rows.Perm others → ∀ claim superseded contested,
    resolveCurrentVerdict fromisoformat claim others superseded contested =
      resolveCurrentVerdict fromisoformat claim rows superseded contested

/-- No row of the latest instant is spelled with a greater text than the row the authority puts
    first. -/
def SpelledFirst (rows : List VerdictRow) : Prop :=
  ∀ row, IsCurrent fromisoformat rows row → ∀ other ∈ rows,
    other.instant fromisoformat = row.instant fromisoformat →
      other.spelling fromisoformat ≤ row.spelling fromisoformat

end Key

/-! ## 5. When they agree -/

section Agreement

variable {fromisoformat : Text → Option ℤ} {rows : List VerdictRow}

theorem createdAtKey_of_timed {createdAt : CreatedAt} {instant : ℤ} {spelling : Text}
    (h : readCreatedAt fromisoformat createdAt = some (instant, spelling)) :
    createdAtKey fromisoformat createdAt = toLex (1, toLex (instant, spelling)) := by
  unfold readCreatedAt at h
  unfold createdAtKey
  cases createdAt with
  | missing => cases h
  | datetime instant' isoformat =>
    cases h
    rfl
  | text value =>
    simp only at h ⊢
    cases htext : textOf (some value) with
    | none =>
      rw [htext] at h
      cases h
    | some text =>
      rw [htext] at h
      simp only at h ⊢
      cases hread : fromisoformat (replaceZulu text) with
      | none =>
        rw [hread] at h
        cases h
      | some instant' =>
        rw [hread] at h
        cases h
        rfl

variable {row other : VerdictRow} {others : List VerdictRow}

theorem verdictSortKey_eq (h : (readCreatedAt fromisoformat row.createdAt).isSome = true) :
    verdictSortKey fromisoformat row =
      toLex (toLex (1, toLex (row.instant fromisoformat, row.spelling fromisoformat)),
        toLex (if row.isVerified then -1 else 0, row.idText)) := by
  rcases Option.isSome_iff_exists.mp h with ⟨⟨instant, spelling⟩, hread⟩
  unfold verdictSortKey VerdictRow.instant VerdictRow.spelling
  rw [createdAtKey_of_timed hread, hread]
  rfl

/-- One sort key is at most another: instant, then spelling, then what the authority compares. -/
theorem sortKey_le_iff (hrow : (readCreatedAt fromisoformat row.createdAt).isSome = true)
    (hother : (readCreatedAt fromisoformat other.createdAt).isSome = true) :
    verdictSortKey fromisoformat other ≤ verdictSortKey fromisoformat row ↔
      other.instant fromisoformat < row.instant fromisoformat ∨
      other.instant fromisoformat = row.instant fromisoformat ∧
        (other.spelling fromisoformat < row.spelling fromisoformat ∨
          other.spelling fromisoformat = row.spelling fromisoformat ∧
            toLex (if other.isVerified then (-1 : ℤ) else 0, other.idText) ≤
              toLex (if row.isVerified then (-1 : ℤ) else 0, row.idText)) := by
  rw [verdictSortKey_eq hrow, verdictSortKey_eq hother, Prod.Lex.toLex_le_toLex]
  simp only [Prod.Lex.toLex_lt_toLex, lt_irrefl, false_or, true_and, EmbeddingLike.apply_eq_iff_eq,
    Prod.mk.injEq]
  constructor
  · intro h
    rcases h with (hlt | ⟨heq, hlt⟩) | ⟨⟨heq, heq'⟩, hle⟩
    · exact Or.inl hlt
    · exact Or.inr ⟨heq, Or.inl hlt⟩
    · exact Or.inr ⟨heq, Or.inr ⟨heq', hle⟩⟩
  · intro h
    rcases h with hlt | ⟨heq, hlt | ⟨heq', hle⟩⟩
    · exact Or.inl (Or.inl hlt)
    · exact Or.inl (Or.inr ⟨heq, hlt⟩)
    · exact Or.inr ⟨⟨heq, heq'⟩, hle⟩

theorem authorityKey_le_iff :
    authorityKey fromisoformat other ≤ authorityKey fromisoformat row ↔
      other.instant fromisoformat < row.instant fromisoformat ∨
      other.instant fromisoformat = row.instant fromisoformat ∧
        toLex (if other.isVerified then (-1 : ℤ) else 0, other.idText) ≤
          toLex (if row.isVerified then (-1 : ℤ) else 0, row.idText) := by
  unfold authorityKey
  rw [Prod.Lex.toLex_le_toLex]

theorem sortKey_le_of_selected (hrow : currentVerdictRow fromisoformat rows = some row) :
    row ∈ rows ∧ ∀ other ∈ rows,
      verdictSortKey fromisoformat other ≤ verdictSortKey fromisoformat row := by
  have hmem : row ∈ List.argmax (verdictSortKey fromisoformat) rows := hrow
  exact ⟨List.argmax_mem hmem, fun other hother => List.le_of_mem_argmax hother hmem⟩

theorem exists_isCurrent (hrows : rows ≠ []) : ∃ row, IsCurrent fromisoformat rows row := by
  cases hmax : rows.argmax (authorityKey fromisoformat) with
  | none => exact absurd (List.argmax_eq_none.mp hmax) hrows
  | some row =>
    exact ⟨row, List.argmax_mem hmax, fun other hother => List.le_of_mem_argmax hother hmax⟩

/-- Only one row comes first: the ids are the rows' own. -/
theorem IsCurrent.unique (h : History fromisoformat rows) (hrow : IsCurrent fromisoformat rows row)
    (hother : IsCurrent fromisoformat rows other) : row = other := by
  have hkeys : authorityKey fromisoformat row = authorityKey fromisoformat other :=
    le_antisymm (hother.greatest row hrow.mem) (hrow.greatest other hother.mem)
  unfold authorityKey at hkeys
  simp only [EmbeddingLike.apply_eq_iff_eq, Prod.mk.injEq] at hkeys
  exact h.identified row hrow.mem other hother.mem hkeys.2.2

theorem IsCurrent.perm (hperm : rows.Perm others) (hrow : IsCurrent fromisoformat others row) :
    IsCurrent fromisoformat rows row :=
  ⟨hperm.mem_iff.mpr hrow.mem, fun other hother => hrow.greatest other (hperm.mem_iff.mp hother)⟩

theorem History.perm (h : History fromisoformat rows) (hperm : rows.Perm others) :
    History fromisoformat others where
  timed row hrow := h.timed row (hperm.mem_iff.mpr hrow)
  identified row hrow other hother :=
    h.identified row (hperm.mem_iff.mpr hrow) other (hperm.mem_iff.mpr hother)
  oneClaim := by
    rcases h.oneClaim with ⟨claimId, hclaim⟩
    exact ⟨claimId, fun row hrow => hclaim row (hperm.mem_iff.mpr hrow)⟩

/-- A row the authority puts first is not verified beside one of the same instant that is not. -/
theorem IsCurrent.closed (hrow : IsCurrent fromisoformat rows row) (hverified : row.isVerified = true)
    (hother : other ∈ rows) (hinstant : other.instant fromisoformat = row.instant fromisoformat) :
    other.isVerified = true := by
  have hle := authorityKey_le_iff.mp (hrow.greatest other hother)
  rw [hinstant, hverified] at hle
  by_contra hnot
  simp [hnot, Prod.Lex.toLex_le_toLex] at hle

/-- Where the spelling does not decide, the selected row is the authority's. -/
theorem SpelledFirst.selects (h : History fromisoformat rows) (hspelled : SpelledFirst fromisoformat rows)
    (hselected : currentVerdictRow fromisoformat rows = some row) : IsCurrent fromisoformat rows row := by
  have hmax := sortKey_le_of_selected hselected
  have hexists : ∃ first, IsCurrent fromisoformat rows first :=
    exists_isCurrent (List.ne_nil_of_mem hmax.1)
  rcases hexists with ⟨first, hfirst⟩
  have hle := (sortKey_le_iff (h.timed row hmax.1) (h.timed first hfirst.mem)).mp
    (hmax.2 first hfirst.mem)
  have hge := authorityKey_le_iff.mp (hfirst.greatest row hmax.1)
  have hkeys : authorityKey fromisoformat first ≤ authorityKey fromisoformat row := by
    apply authorityKey_le_iff.mpr
    rcases hle with hlt | ⟨heq, hlt | ⟨hspelling, hrest⟩⟩
    · exact Or.inl hlt
    · -- a greater text at the latest instant is what the condition excludes
      exact absurd (hspelled first hfirst row hmax.1 heq.symm) (not_le.mpr hlt)
    · exact Or.inr ⟨heq, hrest⟩
  exact ⟨hmax.1, fun other hother => le_trans (hfirst.greatest other hother) hkeys⟩

theorem SpelledFirst.perm (hperm : rows.Perm others) (hspelled : SpelledFirst fromisoformat rows) :
    SpelledFirst fromisoformat others :=
  fun row hrow other hother =>
    hspelled row (hrow.perm hperm) other (hperm.mem_iff.mpr hother)

theorem SpelledFirst.stable (h : History fromisoformat rows) (hspelled : SpelledFirst fromisoformat rows)
    (hperm : rows.Perm others) : currentVerdictRow fromisoformat others = currentVerdictRow fromisoformat rows := by
  cases hothers : currentVerdictRow fromisoformat others with
  | none =>
    have hnil : others = [] := List.argmax_eq_none.mp hothers
    rw [hnil] at hperm
    rw [hperm.eq_nil]
    rfl
  | some row =>
    have hrow := ((hspelled.perm hperm).selects (h.perm hperm) hothers).perm hperm
    cases hrows : currentVerdictRow fromisoformat rows with
    | none =>
      have hnil : rows = [] := List.argmax_eq_none.mp hrows
      rw [hnil] at hrow
      exact absurd hrow.mem List.not_mem_nil
    | some first =>
      rw [(hspelled.selects h hrows).unique h hrow]

/-- The rows of one claim are all of its history, or none of it. -/
theorem History.filter_eq (h : History fromisoformat rows) (claimId : Text) :
    rows.filter (fun row => decide (row.claimId.getD [] = claimId)) = rows ∨
      rows.filter (fun row => decide (row.claimId.getD [] = claimId)) = [] := by
  rcases h.oneClaim with ⟨own, hown⟩
  by_cases heq : own = claimId
  · left
    apply List.filter_eq_self.mpr
    intro row hrow
    rw [hown row hrow, heq]
    exact decide_eq_true rfl
  · right
    apply List.filter_eq_nil_iff.mpr
    intro row hrow
    rw [hown row hrow]
    simpa using heq

theorem SpelledFirst.filter_stable (h : History fromisoformat rows) (hspelled : SpelledFirst fromisoformat rows)
    (hperm : rows.Perm others) (claimId : Text) :
    currentVerdictRow fromisoformat
        (others.filter fun row => decide (row.claimId.getD [] = claimId)) =
      currentVerdictRow fromisoformat
        (rows.filter fun row => decide (row.claimId.getD [] = claimId)) := by
  have hfilter := hperm.filter (fun row => decide (row.claimId.getD [] = claimId))
  rcases h.filter_eq claimId with hall | hnone
  · rw [hall]
    rw [hall] at hfilter
    exact hspelled.stable h hfilter
  · rw [hnone]
    rw [hnone] at hfilter
    rw [hfilter.symm.eq_nil]

theorem SpelledFirst.failsClosed (h : History fromisoformat rows)
    (hspelled : SpelledFirst fromisoformat rows) : FailsClosed fromisoformat rows where
  selects others hperm row hrow :=
    ((hspelled.perm hperm).selects (h.perm hperm) hrow).perm hperm
  closed others hperm row hrow hverified other hother hinstant :=
    (((hspelled.perm hperm).selects (h.perm hperm) hrow).perm hperm).closed hverified hother
      hinstant
  stable others hperm := hspelled.stable h hperm
  resolved others hperm claim superseded contested := by
    unfold resolveCurrentVerdict
    simp only [hspelled.filter_stable h hperm]

/-- The selected row is the authority's exactly while the spelling of the latest instant does not
    decide. -/
theorem failsClosed_iff (fromisoformat : Text → Option ℤ) (rows : List VerdictRow)
    (h : History fromisoformat rows) :
    FailsClosed fromisoformat rows ↔ SpelledFirst fromisoformat rows := by
  apply Iff.intro
  · intro hclosed row hrow other hother hinstant
    cases hselected : currentVerdictRow fromisoformat rows with
    | none =>
      have hnil : rows = [] := List.argmax_eq_none.mp hselected
      rw [hnil] at hother
      exact absurd hother List.not_mem_nil
    | some first =>
      have hfirst := hclosed.selects rows (List.Perm.refl rows) first hselected
      have hsame : first = row := hfirst.unique h hrow
      rw [hsame] at hselected
      have hle := (sortKey_le_iff (h.timed row hrow.mem) (h.timed other hother)).mp
        ((sortKey_le_of_selected hselected).2 other hother)
      rcases hle with hlt | ⟨-, hlt | ⟨hspelling, -⟩⟩
      · exact absurd hinstant (ne_of_lt hlt)
      · exact le_of_lt hlt
      · exact le_of_eq hspelling
  · intro hspelled
    exact hspelled.failsClosed h

end Agreement

/-! ## 6. Two spellings of one instant -/

def rowAt (id verdict createdAt : String) : VerdictRow where
  id := some id.toList
  claimId := some "claim".toList
  verdict := some verdict.toList
  reason := none
  createdAt := .text createdAt.toList
  verificationMode := some "grounded_model".toList
  verifierContractVersion := some "1".toList
  support := .stated (some 1)

/-- A verified and a rejected row of one instant, the verified one spelled with a `Z`. -/
def zuluTie : List VerdictRow :=
  [rowAt "a" "verified" "2026-01-01T00:00:00Z",
    rowAt "b" "rejected" "2026-01-01T00:00:00+00:00"]

/-- The tie resolves to the verified row, and the claim is supported. -/
theorem zulu_tie_verified :
    History fromisoformat zuluTie ∧
    currentVerdictRow fromisoformat zuluTie = some (rowAt "a" "verified" "2026-01-01T00:00:00Z") ∧
    resolveCurrentVerdict fromisoformat ⟨some "claim".toList, none, none⟩ zuluTie [] [] =
      .ok { claimId := "claim".toList
            state := .supported
            verdictId := some "a".toList
            verdict := some "verified".toList
            verificationMode := some "grounded_model".toList
            supportCount := 1 } ∧
    ¬ FailsClosed fromisoformat zuluTie := by
  have hselected : currentVerdictRow fromisoformat zuluTie =
      some (rowAt "a" "verified" "2026-01-01T00:00:00Z") := by decide +kernel
  refine ⟨⟨by decide +kernel, by decide +kernel, ⟨"claim".toList, by decide +kernel⟩⟩, hselected,
    by decide +kernel, ?_⟩
  intro hclosed
  have hverified := hclosed.closed zuluTie (List.Perm.refl _) _ hselected (by decide +kernel)
    (rowAt "b" "rejected" "2026-01-01T00:00:00+00:00") (by decide +kernel) (by decide +kernel)
  exact absurd hverified (by decide +kernel)

/-- Spelled alike, the same two rows resolve to the rejected one. -/
def spelledAlike : List VerdictRow :=
  [rowAt "a" "verified" "2026-01-01T00:00:00+00:00",
    rowAt "b" "rejected" "2026-01-01T00:00:00+00:00"]

theorem failsClosed_spelledAlike : FailsClosed fromisoformat spelledAlike := by
  have hspelling : ∀ row ∈ spelledAlike,
      row.spelling fromisoformat = "2026-01-01T00:00:00+00:00".toList := by decide +kernel
  apply (failsClosed_iff fromisoformat spelledAlike
    ⟨by decide +kernel, by decide +kernel, ⟨"claim".toList, by decide +kernel⟩⟩).mpr
  intro row hrow other hother _
  rw [hspelling other hother, hspelling row hrow.mem]

end Milo.Swarm
