import Milo.Swarm.Builder
import Milo.Swarm.CurrentVerdict

/-!
# VerdictIndex — the current verdicts of many claims at once

`resolve_current_verdicts` indexes the history by claim before it resolves each claim; it looks a claim
up under its `id` alone.  `current_verdict_by_claim` indexes verdicts that carry neither a time nor an
id.  In both the first of several rows with the greatest sort key is taken, so the answer is the same in
any order exactly if those rows agree.
-/

namespace Milo.Swarm

-- Of the orders Mathlib gives the integers, the one that computes.
attribute [local instance (2000)] LinearOrder.toPartialOrder

open Milo.Python Milo.Reasoning

/-! ## 1. Verdicts of one pass -/

section Pass

/-- The verdicts one of which is current: those that are not verified, or all of them. -/
def decisive (verdicts : List VerificationVerdict) : List VerificationVerdict :=
  if verdicts.all fun v => decide (v.verdict = .verified) then verdicts
  else verdicts.filter fun v => decide (v.verdict ≠ .verified)

/-- What a reader of the index learns of a claim. -/
def indexedAnswer (verdicts : List VerificationVerdict) (claimId : Text) : Option (VerdictValue × String) :=
  ((currentVerdictByClaim verdicts).get? claimId).map fun v => (v.verdict, v.reason)

/-- The answer is the same in every order, and verified only if no verdict of the claim is not. -/
structure OneAnswer (verdicts : List VerificationVerdict) : Prop where
  stable : ∀ others, verdicts.Perm others → ∀ claimId,
    indexedAnswer others claimId = indexedAnswer verdicts claimId
  closed : ∀ claimId v, (currentVerdictByClaim verdicts).get? claimId = some v → v.verdict = .verified →
    ∀ other ∈ verdicts, strip other.claimId = claimId → other.verdict = .verified

/-- The verdicts that may be current agree on the value and the reason. -/
def DecisiveAgree (verdicts : List VerificationVerdict) : Prop :=
  ∀ claimId, claimId ≠ [] → ∀ v ∈ decisive (verdictsFor verdicts claimId),
    ∀ other ∈ decisive (verdictsFor verdicts claimId), v.verdict = other.verdict ∧ v.reason = other.reason

variable {verdicts others : List VerificationVerdict} {v : VerificationVerdict} {claimId : Text}

theorem currentOf_mem_decisive (h : currentOf verdicts = some v) : v ∈ decisive verdicts := by
  have hmem := currentOf_eq_some h
  unfold decisive
  split
  · exact hmem.1
  · rename_i hall
    apply List.mem_filter.mpr
    refine ⟨hmem.1, ?_⟩
    apply decide_eq_true
    intro hverified
    apply hall
    exact List.all_eq_true.mpr fun other hother => decide_eq_true (hmem.2 hverified other hother)

/-- A decisive verdict is current once it is read first. -/
theorem currentOf_cons (h : v ∈ decisive (v :: verdicts)) : currentOf (v :: verdicts) = some v := by
  unfold decisive at h
  unfold currentOf
  split at h
  · rename_i hall
    have hnone : (v :: verdicts).find? (fun v => decide (v.verdict ≠ .verified)) = none := by
      apply List.find?_eq_none.mpr
      intro other hother
      have hverified := of_decide_eq_true (List.all_eq_true.mp hall other hother)
      simp [hverified]
    rw [hnone]
    rfl
  · have hrefused := (List.mem_filter.mp h).2
    have hfirst : (v :: verdicts).find? (fun v => decide (v.verdict ≠ .verified)) = some v :=
      List.find?_cons_of_pos hrefused
    rw [hfirst]

theorem mem_decisive_perm (hperm : verdicts.Perm others) : v ∈ decisive verdicts ↔ v ∈ decisive others := by
  have hall : (verdicts.all fun v => decide (v.verdict = .verified)) =
      others.all fun v => decide (v.verdict = .verified) := hperm.all_eq
  unfold decisive
  rw [hall]
  split
  · exact hperm.mem_iff
  · exact (hperm.filter _).mem_iff

theorem verdictsFor_perm (hperm : verdicts.Perm others) (claimId : Text) :
    (verdictsFor verdicts claimId).Perm (verdictsFor others claimId) := hperm.filter _

theorem indexedAnswer_of_ne_nil (hempty : claimId ≠ []) :
    indexedAnswer verdicts claimId =
      (currentOf (verdictsFor verdicts claimId)).map fun v => (v.verdict, v.reason) := by
  unfold indexedAnswer
  congr 1
  apply Option.ext
  intro v
  rw [get?_currentVerdictByClaim]
  exact ⟨fun h => h.2, fun h => ⟨hempty, h⟩⟩

theorem indexedAnswer_nil : indexedAnswer verdicts [] = none := by
  unfold indexedAnswer
  rw [Option.map_eq_none_iff]
  by_contra hne
  obtain ⟨v, hv⟩ := Option.ne_none_iff_exists'.mp hne
  exact (get?_currentVerdictByClaim.mp hv).1 rfl

theorem indexedAnswer_cons (hempty : claimId ≠ []) (hclaim : strip v.claimId = claimId)
    (h : v ∈ decisive (verdictsFor (v :: verdicts) claimId)) :
    indexedAnswer (v :: verdicts) claimId = some (v.verdict, v.reason) := by
  have hcons : verdictsFor (v :: verdicts) claimId = v :: verdictsFor verdicts claimId :=
    List.filter_cons_of_pos (by simpa using hclaim)
  rw [indexedAnswer_of_ne_nil hempty]
  rw [hcons] at h ⊢
  rw [currentOf_cons h]
  rfl

theorem mem_of_mem_decisive (h : v ∈ decisive verdicts) : v ∈ verdicts := by
  unfold decisive at h
  split at h
  · exact h
  · exact List.mem_of_mem_filter h

/-- Read first, a decisive verdict is the answer in an order of its own. -/
theorem OneAnswer.answer (h : OneAnswer verdicts) (hempty : claimId ≠ [])
    (hv : v ∈ decisive (verdictsFor verdicts claimId)) :
    indexedAnswer verdicts claimId = some (v.verdict, v.reason) := by
  have hmem := List.mem_filter.mp (mem_of_mem_decisive hv)
  have hclaim : strip v.claimId = claimId := of_decide_eq_true hmem.2
  obtain ⟨a, b, hsplit⟩ := List.append_of_mem hmem.1
  have hperm : verdicts.Perm (v :: (a ++ b)) := by
    rw [hsplit]
    exact List.perm_middle
  rw [← h.stable _ hperm claimId]
  apply indexedAnswer_cons hempty hclaim
  exact (mem_decisive_perm (verdictsFor_perm hperm claimId)).mp hv

/-- There is one answer per claim, whatever the order, exactly if the decisive verdicts agree. -/
theorem oneAnswer_iff (verdicts : List VerificationVerdict) : OneAnswer verdicts ↔ DecisiveAgree verdicts := by
  constructor
  · intro h claimId hempty v hv other hother
    have hsame := (h.answer hempty hv).symm.trans (h.answer hempty hother)
    rw [Option.some.injEq, Prod.mk.injEq] at hsame
    exact hsame
  · intro h
    constructor
    · intro others hperm claimId
      by_cases hempty : claimId = []
      · rw [hempty, indexedAnswer_nil, indexedAnswer_nil]
      · rw [indexedAnswer_of_ne_nil hempty, indexedAnswer_of_ne_nil hempty]
        have hgroup := verdictsFor_perm hperm claimId
        cases hothers : currentOf (verdictsFor others claimId) with
        | none =>
          have hnil : verdictsFor others claimId = [] := by
            by_contra hne
            obtain ⟨v, hv⟩ := currentOf_isSome hne
            rw [hv] at hothers
            cases hothers
          rw [hnil] at hgroup
          rw [hgroup.eq_nil]
          rfl
        | some v =>
          have hne : verdictsFor verdicts claimId ≠ [] := by
            intro hnil
            rw [hnil] at hgroup
            rw [← hgroup.nil_eq] at hothers
            cases hothers
          obtain ⟨w, hw⟩ := currentOf_isSome hne
          have hv := (mem_decisive_perm hgroup).mpr (currentOf_mem_decisive hothers)
          have hagree := h claimId hempty v hv w (currentOf_mem_decisive hw)
          rw [hw, Option.map_some, Option.map_some, hagree.1, hagree.2]
    · intro claimId v hget hverified other hother hclaim
      have hcurrent := (get?_currentVerdictByClaim.mp hget).2
      exact (currentOf_eq_some hcurrent).2 hverified other
        (List.mem_filter.mpr ⟨hother, decide_eq_true hclaim⟩)

/-- A verdict without support links. -/
def linklessVerdict (claimId : String) (verdict : VerdictValue) (reason : String) : VerificationVerdict :=
  ⟨claimId.toList, verdict, reason, none, none, [], supportRequiresMode_nil none none⟩

/-- Two verdicts of one claim, neither of them verified. -/
def twoReasons : List VerificationVerdict :=
  [linklessVerdict "c" .needsReview "a", linklessVerdict "c" .rejected "b"]

theorem decisive_twoReasons : decisive (verdictsFor twoReasons "c".toList) = twoReasons := rfl

/-- Which of them is current depends on their order. -/
theorem twoReasons_ordered : ¬∀ verdicts : List VerificationVerdict, OneAnswer verdicts := by
  intro h
  have hagree := (oneAnswer_iff _).mp (h twoReasons) "c".toList (by decide)
  rw [decisive_twoReasons] at hagree
  have hsame := hagree _ List.mem_cons_self _ (List.mem_cons_of_mem _ List.mem_cons_self)
  exact absurd hsame.1 (by decide)

end Pass

/-! ## 2. Durable rows -/

section Rows

variable (fromisoformat : Text → Option ℤ)

/-- The id a claim row is resolved under. -/
def ClaimRow.identity (claim : ClaimRow) : Option Text := (textOf claim.id).or (textOf claim.claimId)

/-- The history, indexed by the text of its claim ids. -/
def historyByClaim (verdicts : List VerdictRow) : Dict Text (List VerdictRow) :=
  Dict.groupBy (fun row => (textOf row.claimId).getD [])
    (verdicts.filter fun row => (textOf row.claimId).isSome)

/-- One claim of the batch: its history is looked up under `id`. -/
def resolveIndexed (claim : ClaimRow) (verdicts : List VerdictRow)
    (supersededClaimIds contestedClaimIds : List Text) : Except String CurrentVerdict :=
  resolveCurrentVerdict fromisoformat claim
    (((historyByClaim verdicts).get? ((textOf claim.id).getD [])).getD [])
    supersededClaimIds contestedClaimIds

/-- Resolve a whole set of claims at once, keyed by claim id. -/
def resolveCurrentVerdicts (claims : List ClaimRow) (verdicts : List VerdictRow)
    (supersededClaimIds contestedClaimIds : List Text) : Except String (Dict Text CurrentVerdict) :=
  claims.foldlM (fun resolved claim => do
    let current ← resolveIndexed fromisoformat claim verdicts supersededClaimIds contestedClaimIds
    pure (resolved.set current.claimId current)) .empty

/-- The rows of one claim. -/
def rowsOf (claimId : Text) (verdicts : List VerdictRow) : List VerdictRow :=
  verdicts.filter fun row => decide (row.claimId.getD [] = claimId)

/-- What the current row of a claim says. -/
def rowVerdict (claimId : Text) (row : VerdictRow) : CurrentVerdict where
  claimId := claimId
  state := (stateOf row).1
  verdictId := textOf row.id
  verdict := textOf row.verdict
  reason := textOf row.reason
  verificationMode := textOf row.verificationMode
  supportCount := (stateOf row).2

/-- Neither the claim row nor a contradiction decides: the history does. -/
structure DecidedByHistory (claim : ClaimRow) (supersededClaimIds contestedClaimIds : List Text)
    (claimId : Text) : Prop where
  identified : claim.identity = some claimId
  active : (textOf claim.status).getD "active".toList = "active".toList
  standing : supersededClaimIds.contains claimId = false
  uncontested : contestedClaimIds.contains claimId = false

/-- The rows with the greatest sort key say the same. -/
def TiesAgree (claimId : Text) (rows : List VerdictRow) : Prop :=
  ∀ row ∈ rows, ∀ other ∈ rows,
    (∀ r ∈ rows, verdictSortKey fromisoformat r ≤ verdictSortKey fromisoformat row) →
    (∀ r ∈ rows, verdictSortKey fromisoformat r ≤ verdictSortKey fromisoformat other) →
      rowVerdict claimId row = rowVerdict claimId other

/-- The batch resolves each claim as it is resolved alone, and neither depends on the order of the rows
    or on how often one is repeated. -/
structure Pointwise (claims : List ClaimRow) (verdicts : List VerdictRow)
    (supersededClaimIds contestedClaimIds : List Text) : Prop where
  resolves : ∃ resolved,
    resolveCurrentVerdicts fromisoformat claims verdicts supersededClaimIds contestedClaimIds = .ok resolved ∧
      ∀ claim ∈ claims, ∃ claimId current, claim.identity = some claimId ∧
        resolved.get? claimId = some current ∧
        resolveCurrentVerdict fromisoformat claim verdicts supersededClaimIds contestedClaimIds = .ok current
  stable : ∀ others, (∀ row, row ∈ others ↔ row ∈ verdicts) → ∀ claim ∈ claims,
    resolveCurrentVerdict fromisoformat claim others supersededClaimIds contestedClaimIds =
      resolveCurrentVerdict fromisoformat claim verdicts supersededClaimIds contestedClaimIds
  batchStable : ∀ others, (∀ row, row ∈ others ↔ row ∈ verdicts) →
    resolveCurrentVerdicts fromisoformat claims others supersededClaimIds contestedClaimIds =
      resolveCurrentVerdicts fromisoformat claims verdicts supersededClaimIds contestedClaimIds

variable {fromisoformat} {claim : ClaimRow} {claims : List ClaimRow} {verdicts others : List VerdictRow}
  {superseded contested : List Text} {claimId : Text}

theorem resolve_of_history (h : DecidedByHistory claim superseded contested claimId)
    (verdicts : List VerdictRow) :
    resolveCurrentVerdict fromisoformat claim verdicts superseded contested =
      .ok (((currentVerdictRow fromisoformat (rowsOf claimId verdicts)).map (rowVerdict claimId)).getD
        { claimId := claimId, state := .unverified }) := by
  have hidentity : (textOf claim.id).or (textOf claim.claimId) = some claimId := h.identified
  unfold resolveCurrentVerdict
  rw [hidentity]
  dsimp only
  rw [if_neg (not_not.mpr h.active), h.standing, h.uncontested]
  unfold rowsOf
  cases hrow : currentVerdictRow fromisoformat
      (verdicts.filter fun row => decide (row.claimId.getD [] = claimId)) with
  | none => rfl
  | some row => rfl

variable (fromisoformat superseded contested) in
/-- Where the history does not decide, no verdict does. -/
theorem resolve_without_history (hid : claim.identity = some claimId)
    (h : ¬DecidedByHistory claim superseded contested claimId) :
    ∃ current, current.claimId = claimId ∧ ∀ verdicts,
      resolveCurrentVerdict fromisoformat claim verdicts superseded contested = .ok current := by
  have hidentity : (textOf claim.id).or (textOf claim.claimId) = some claimId := hid
  unfold resolveCurrentVerdict
  rw [hidentity]
  dsimp only
  by_cases hactive : (textOf claim.status).getD "active".toList = "active".toList
  · simp only [if_neg (not_not.mpr hactive)]
    cases hstanding : superseded.contains claimId with
    | true => exact ⟨_, rfl, fun _ => rfl⟩
    | false =>
      cases hcontested : contested.contains claimId with
      | true => exact ⟨_, rfl, fun _ => rfl⟩
      | false => exact absurd ⟨hid, hactive, hstanding, hcontested⟩ h
  · simp only [if_pos hactive]
    exact ⟨_, rfl, fun _ => rfl⟩

/-- A claim with an id is resolved, and under that id. -/
theorem resolve_isOk (hid : claim.identity = some claimId) (verdicts : List VerdictRow) :
    ∃ current, current.claimId = claimId ∧
      resolveCurrentVerdict fromisoformat claim verdicts superseded contested = .ok current := by
  by_cases h : DecidedByHistory claim superseded contested claimId
  · rw [resolve_of_history h]
    cases currentVerdictRow fromisoformat (rowsOf claimId verdicts) with
    | none => exact ⟨_, rfl, rfl⟩
    | some row => exact ⟨_, rfl, rfl⟩
  · obtain ⟨current, hclaim, hall⟩ := resolve_without_history fromisoformat superseded contested hid h
    exact ⟨current, hclaim, hall verdicts⟩

/-! ### The index -/

theorem textOf_eq_some {value : Option Text} {text : Text} (h : textOf value = some text) :
    text ≠ [] ∧ strip text = text := by
  unfold textOf at h
  split at h
  · cases h
  · split at h
    · cases h
    · rename_i hne
      cases h
      exact ⟨hne, strip_strip _⟩

theorem textOf_of_getD {value : Option Text} {text : Text} (hne : text ≠ []) (hstrip : strip text = text)
    (h : value.getD [] = text) : textOf value = some text := by
  cases value with
  | none => exact absurd h.symm hne
  | some value =>
    have hvalue : value = text := h
    unfold textOf
    rw [hvalue]
    dsimp only
    rw [hstrip, if_neg hne]

theorem history_lookup (verdicts : List VerdictRow) (key : Text) :
    ((historyByClaim verdicts).get? key).getD [] =
      verdicts.filter fun row =>
        (textOf row.claimId).isSome && decide ((textOf row.claimId).getD [] = key) := by
  unfold historyByClaim
  rw [Dict.getD_get?_groupBy, List.filter_filter]
  apply List.filter_congr
  intro row _
  exact Bool.and_comm _ _

theorem rowsOf_lookup (hid : textOf claim.id = some claimId) (verdicts : List VerdictRow) :
    rowsOf claimId (((historyByClaim verdicts).get? ((textOf claim.id).getD [])).getD []) =
      rowsOf claimId verdicts := by
  have htext := textOf_eq_some hid
  rw [hid, history_lookup]
  unfold rowsOf
  rw [List.filter_filter]
  apply List.filter_congr
  intro row _
  by_cases hrow : row.claimId.getD [] = claimId
  · have hclaim : textOf row.claimId = some claimId := textOf_of_getD htext.1 htext.2 hrow
    simp [hrow, hclaim]
  · simp [hrow]

theorem lookup_nil (hid : textOf claim.id = none) (verdicts : List VerdictRow) :
    ((historyByClaim verdicts).get? ((textOf claim.id).getD [])).getD [] = [] := by
  rw [hid, history_lookup, List.filter_eq_nil_iff]
  intro row _ hrow
  rw [Bool.and_eq_true, decide_eq_true_eq] at hrow
  obtain ⟨text, htext⟩ := Option.isSome_iff_exists.mp hrow.1
  have hempty : text = [] := by
    rw [htext] at hrow
    exact hrow.2
  exact (textOf_eq_some htext).1 hempty

/-- A claim that states its `id` is resolved by the batch as it is alone. -/
theorem resolveIndexed_of_id (hid : textOf claim.id = some claimId) (verdicts : List VerdictRow) :
    resolveIndexed fromisoformat claim verdicts superseded contested =
      resolveCurrentVerdict fromisoformat claim verdicts superseded contested := by
  have hidentity : claim.identity = some claimId := by
    unfold ClaimRow.identity
    rw [hid, Option.some_or]
  unfold resolveIndexed
  by_cases h : DecidedByHistory claim superseded contested claimId
  · rw [resolve_of_history h, resolve_of_history h, rowsOf_lookup hid]
  · obtain ⟨current, _, hall⟩ := resolve_without_history fromisoformat superseded contested hidentity h
    rw [hall, hall]

/-- One that does not is resolved as if it had no history. -/
theorem resolveIndexed_of_noId (hid : textOf claim.id = none) (verdicts : List VerdictRow) :
    resolveIndexed fromisoformat claim verdicts superseded contested =
      resolveCurrentVerdict fromisoformat claim [] superseded contested := by
  unfold resolveIndexed
  rw [lookup_nil hid]

variable (fromisoformat superseded contested) in
theorem resolveIndexed_isOk (hid : claim.identity = some claimId) (verdicts : List VerdictRow) :
    ∃ current, current.claimId = claimId ∧
      resolveIndexed fromisoformat claim verdicts superseded contested = .ok current :=
  resolve_isOk hid _

variable (fromisoformat superseded contested) in
/-- The batch holds of every claim what it was resolved to. -/
theorem resolveCurrentVerdicts_eq (hids : ∀ claim ∈ claims, ∃ claimId, claim.identity = some claimId)
    (hnodup : (claims.map ClaimRow.identity).Nodup) (verdicts : List VerdictRow) :
    ∃ resolved, resolveCurrentVerdicts fromisoformat claims verdicts superseded contested = .ok resolved ∧
      ∀ claim ∈ claims, ∀ claimId current, claim.identity = some claimId →
        resolveIndexed fromisoformat claim verdicts superseded contested = .ok current →
          resolved.get? claimId = some current := by
  have hfold : ∀ acc : Dict Text CurrentVerdict, ∃ resolved,
      claims.foldlM (fun resolved claim => do
        let current ← resolveIndexed fromisoformat claim verdicts superseded contested
        pure (resolved.set current.claimId current)) acc = .ok resolved ∧
      (∀ claim ∈ claims, ∀ claimId current, claim.identity = some claimId →
        resolveIndexed fromisoformat claim verdicts superseded contested = .ok current →
          resolved.get? claimId = some current) ∧
      ∀ claimId, some claimId ∉ claims.map ClaimRow.identity →
        resolved.get? claimId = acc.get? claimId := by
    induction claims with
    | nil => exact fun acc => ⟨acc, rfl, fun claim hclaim => absurd hclaim List.not_mem_nil, fun _ _ => rfl⟩
    | cons claim rest ih =>
      intro acc
      obtain ⟨claimId, hid⟩ := hids claim List.mem_cons_self
      obtain ⟨current, hcurrent, hok⟩ :=
        resolveIndexed_isOk fromisoformat superseded contested hid verdicts
      rw [List.map_cons, List.nodup_cons] at hnodup
      obtain ⟨resolved, hfold, hrest, hkept⟩ :=
        ih (fun c hc => hids c (List.mem_cons_of_mem _ hc)) hnodup.2 (acc.set current.claimId current)
      refine ⟨resolved, ?_, ?_, ?_⟩
      · rw [List.foldlM_cons, hok]
        exact hfold
      · intro c hc claimId' current' hid' hok'
        rcases List.mem_cons.mp hc with rfl | hc
        · have hsame : claimId' = claimId := Option.some.inj (hid'.symm.trans hid)
          have hsame' : current' = current := Except.ok.inj (hok'.symm.trans hok)
          rw [hsame, hsame', hkept claimId (hid ▸ hnodup.1), hcurrent, Dict.get?_set_self]
        · exact hrest c hc claimId' current' hid' hok'
      · intro claimId' hother
        rw [List.map_cons, List.mem_cons, not_or] at hother
        rw [hkept claimId' hother.2]
        apply Dict.get?_set_ne
        intro heq
        apply hother.1
        rw [hid, heq, hcurrent]
  obtain ⟨resolved, hok, hall, _⟩ := hfold .empty
  exact ⟨resolved, hok, hall⟩

/-- A fold whose steps agree on the elements it meets. -/
theorem foldlM_congr_mem {α σ ε : Type} {f g : σ → α → Except ε σ} (items : List α)
    (h : ∀ x ∈ items, ∀ s, f s x = g s x) (s : σ) : items.foldlM f s = items.foldlM g s := by
  induction items generalizing s with
  | nil => rfl
  | cons x rest ih =>
    rw [List.foldlM_cons, List.foldlM_cons, h x List.mem_cons_self]
    congr 1
    funext s'
    exact ih (fun y hy => h y (List.mem_cons_of_mem x hy)) s'

/-! ### The order of the rows -/

variable {row : VerdictRow}

theorem currentVerdictRow_mem {rows : List VerdictRow} (h : currentVerdictRow fromisoformat rows = some row) :
    row ∈ rows ∧ ∀ r ∈ rows, verdictSortKey fromisoformat r ≤ verdictSortKey fromisoformat row :=
  sortKey_le_of_selected h

/-- Read first, a row with the greatest key is current. -/
theorem currentVerdictRow_cons {rows : List VerdictRow}
    (h : ∀ r ∈ rows, verdictSortKey fromisoformat r ≤ verdictSortKey fromisoformat row) :
    currentVerdictRow fromisoformat (row :: rows) = some row := by
  unfold currentVerdictRow
  rw [List.argmax_cons]
  cases hmax : rows.argmax (verdictSortKey fromisoformat) with
  | none => rfl
  | some best =>
    dsimp only
    rw [if_neg (not_lt.mpr (h best (List.argmax_mem hmax)))]

theorem mem_rowsOf : row ∈ rowsOf claimId verdicts ↔ row ∈ verdicts ∧ row.claimId.getD [] = claimId := by
  unfold rowsOf
  rw [List.mem_filter, decide_eq_true_eq]

/-- What the history decides is the same however the rows are ordered and repeated, exactly if the rows
    that may be current agree. -/
theorem stable_iff (h : DecidedByHistory claim superseded contested claimId) :
    (∀ others, (∀ row, row ∈ others ↔ row ∈ verdicts) →
      resolveCurrentVerdict fromisoformat claim others superseded contested =
        resolveCurrentVerdict fromisoformat claim verdicts superseded contested) ↔
      TiesAgree fromisoformat claimId (rowsOf claimId verdicts) := by
  constructor
  · intro hstable
    have hfirst : ∀ row ∈ rowsOf claimId verdicts,
        (∀ r ∈ rowsOf claimId verdicts, verdictSortKey fromisoformat r ≤ verdictSortKey fromisoformat row) →
          resolveCurrentVerdict fromisoformat claim verdicts superseded contested =
            .ok (rowVerdict claimId row) := by
      intro row hrow hgreatest
      have hmem := mem_rowsOf.mp hrow
      have hsame : ∀ r, r ∈ row :: verdicts ↔ r ∈ verdicts := by
        intro r
        rw [List.mem_cons]
        exact ⟨fun hr => hr.elim (fun heq => heq ▸ hmem.1) id, Or.inr⟩
      have hrows : rowsOf claimId (row :: verdicts) = row :: rowsOf claimId verdicts :=
        List.filter_cons_of_pos (decide_eq_true hmem.2)
      rw [← hstable _ hsame, resolve_of_history h, hrows, currentVerdictRow_cons hgreatest]
      rfl
    intro row hrow other hother hgreatest hgreatest'
    have heq := (hfirst row hrow hgreatest).symm.trans (hfirst other hother hgreatest')
    exact Except.ok.inj heq
  · intro hties others hsame
    have hmem : ∀ row, row ∈ rowsOf claimId others ↔ row ∈ rowsOf claimId verdicts := by
      intro row
      rw [mem_rowsOf, mem_rowsOf, hsame]
    rw [resolve_of_history h, resolve_of_history h]
    cases hothers : currentVerdictRow fromisoformat (rowsOf claimId others) with
    | none =>
      have hnil : rowsOf claimId others = [] := List.argmax_eq_none.mp hothers
      have hnil' : rowsOf claimId verdicts = [] := by
        apply List.eq_nil_iff_forall_not_mem.mpr
        intro row hrow
        have hin := (hmem row).mpr hrow
        rw [hnil] at hin
        cases hin
      rw [hnil']
      rfl
    | some row =>
      have hrow := currentVerdictRow_mem hothers
      cases hverdicts : currentVerdictRow fromisoformat (rowsOf claimId verdicts) with
      | none =>
        have hnil : rowsOf claimId verdicts = [] := List.argmax_eq_none.mp hverdicts
        have hin := (hmem row).mp hrow.1
        rw [hnil] at hin
        cases hin
      | some other =>
        have hother := currentVerdictRow_mem hverdicts
        have heq : rowVerdict claimId row = rowVerdict claimId other :=
          hties row ((hmem row).mp hrow.1) other hother.1 (fun r hr => hrow.2 r ((hmem r).mpr hr)) hother.2
        rw [Option.map_some, Option.map_some, heq]

/-- A current row leaves its claim in a state of its own. -/
theorem stateOf_ne_unverified (row : VerdictRow) : (stateOf row).1 ≠ .unverified := by
  unfold stateOf
  repeat' split
  all_goals dsimp only
  all_goals try split
  all_goals exact CurrentState.noConfusion

/-- Without its history a claim is resolved as with it exactly if it has none. -/
theorem resolve_nil_eq_iff (h : DecidedByHistory claim superseded contested claimId) :
    resolveCurrentVerdict fromisoformat claim [] superseded contested =
        resolveCurrentVerdict fromisoformat claim verdicts superseded contested ↔
      rowsOf claimId verdicts = [] := by
  rw [resolve_of_history h, resolve_of_history h]
  constructor
  · intro heq
    cases hrow : currentVerdictRow fromisoformat (rowsOf claimId verdicts) with
    | none => exact List.argmax_eq_none.mp hrow
    | some row =>
      rw [hrow] at heq
      have hstate : CurrentState.unverified = (stateOf row).1 :=
        congrArg CurrentVerdict.state (Except.ok.inj heq)
      exact absurd hstate.symm (stateOf_ne_unverified row)
  · intro hnil
    rw [hnil]
    rfl

/-- Where the history decides, the claim states its `id` or has no history, and the rows that may be
    current agree. -/
def HistoryDecides (fromisoformat : Text → Option ℤ) (claims : List ClaimRow) (verdicts : List VerdictRow)
    (supersededClaimIds contestedClaimIds : List Text) : Prop :=
  ∀ claim ∈ claims, ∀ claimId, DecidedByHistory claim supersededClaimIds contestedClaimIds claimId →
    (textOf claim.id ≠ none ∨ rowsOf claimId verdicts = []) ∧
      TiesAgree fromisoformat claimId (rowsOf claimId verdicts)

/-- What the history does not decide is the same with any rows. -/
theorem resolve_eq_of_undecided (hid : claim.identity = some claimId)
    (h : ¬DecidedByHistory claim superseded contested claimId) (rows : List VerdictRow) :
    resolveCurrentVerdict fromisoformat claim rows superseded contested =
      resolveCurrentVerdict fromisoformat claim verdicts superseded contested := by
  obtain ⟨current, _, hall⟩ := resolve_without_history fromisoformat superseded contested hid h
  rw [hall, hall]

/-- Under the condition one claim of the batch is resolved as it is alone. -/
theorem HistoryDecides.indexed (h : HistoryDecides fromisoformat claims verdicts superseded contested)
    (hclaim : claim ∈ claims) (hid : claim.identity = some claimId) :
    resolveIndexed fromisoformat claim verdicts superseded contested =
      resolveCurrentVerdict fromisoformat claim verdicts superseded contested := by
  cases hown : textOf claim.id with
  | some own => exact resolveIndexed_of_id hown verdicts
  | none =>
    rw [resolveIndexed_of_noId hown]
    by_cases hdecided : DecidedByHistory claim superseded contested claimId
    · have hcondition := (h claim hclaim claimId hdecided).1
      exact (resolve_nil_eq_iff hdecided).mpr (hcondition.resolve_left (not_not.mpr hown))
    · exact resolve_eq_of_undecided hid hdecided []

theorem HistoryDecides.stable (h : HistoryDecides fromisoformat claims verdicts superseded contested)
    (hclaim : claim ∈ claims) (hid : claim.identity = some claimId)
    (hsame : ∀ row, row ∈ others ↔ row ∈ verdicts) :
    resolveCurrentVerdict fromisoformat claim others superseded contested =
      resolveCurrentVerdict fromisoformat claim verdicts superseded contested := by
  by_cases hdecided : DecidedByHistory claim superseded contested claimId
  · exact (stable_iff hdecided).mpr (h claim hclaim claimId hdecided).2 others hsame
  · exact resolve_eq_of_undecided hid hdecided others

theorem HistoryDecides.congr (h : HistoryDecides fromisoformat claims verdicts superseded contested)
    (hsame : ∀ row, row ∈ others ↔ row ∈ verdicts) :
    HistoryDecides fromisoformat claims others superseded contested := by
  intro claim hclaim claimId hdecided
  have hmem : ∀ row, row ∈ rowsOf claimId others ↔ row ∈ rowsOf claimId verdicts := by
    intro row
    rw [mem_rowsOf, mem_rowsOf, hsame]
  have hcondition := h claim hclaim claimId hdecided
  constructor
  · rcases hcondition.1 with hown | hnil
    · exact Or.inl hown
    · right
      apply List.eq_nil_iff_forall_not_mem.mpr
      intro row hrow
      have hin := (hmem row).mp hrow
      rw [hnil] at hin
      cases hin
  · intro row hrow other hother hgreatest hgreatest'
    exact hcondition.2 row ((hmem row).mp hrow) other ((hmem other).mp hother)
      (fun r hr => hgreatest r ((hmem r).mpr hr)) (fun r hr => hgreatest' r ((hmem r).mpr hr))

/-- The batch is pointwise, and neither path depends on the order of the rows, exactly if every claim
    the history decides states its `id` or has no rows, and its rows with the greatest key agree. -/
theorem pointwise_iff (claims : List ClaimRow) (verdicts : List VerdictRow) (superseded contested : List Text)
    (hids : ∀ claim ∈ claims, ∃ claimId, claim.identity = some claimId)
    (hnodup : (claims.map ClaimRow.identity).Nodup) :
    Pointwise fromisoformat claims verdicts superseded contested ↔
      HistoryDecides fromisoformat claims verdicts superseded contested := by
  constructor
  · intro h claim hclaim claimId hdecided
    have hties := (stable_iff hdecided).mp fun others hsame => h.stable others hsame claim hclaim
    refine ⟨?_, hties⟩
    by_cases hown : textOf claim.id = none
    · right
      obtain ⟨resolved, hok, hall⟩ := h.resolves
      obtain ⟨claimId', current, hid, hget, halone⟩ := hall claim hclaim
      obtain ⟨indexed, hindexed, hkept⟩ :=
        resolveCurrentVerdicts_eq fromisoformat superseded contested hids hnodup verdicts
      obtain ⟨batched, _, hbatched⟩ :=
        resolveIndexed_isOk fromisoformat superseded contested hid verdicts
      have hresolved : indexed = resolved := Except.ok.inj (hindexed.symm.trans hok)
      have hentry := hkept claim hclaim claimId' batched hid hbatched
      rw [hresolved, hget, Option.some.injEq] at hentry
      rw [resolveIndexed_of_noId hown, ← hentry, ← halone] at hbatched
      exact (resolve_nil_eq_iff hdecided).mp hbatched
    · left
      exact hown
  · intro h
    have hbatch : ∀ rows, (∀ row, row ∈ rows ↔ row ∈ verdicts) → ∀ claim ∈ claims,
        resolveIndexed fromisoformat claim rows superseded contested =
          resolveIndexed fromisoformat claim verdicts superseded contested := by
      intro rows hsame claim hclaim
      obtain ⟨claimId, hid⟩ := hids claim hclaim
      rw [(h.congr hsame).indexed hclaim hid, h.indexed hclaim hid, h.stable hclaim hid hsame]
    constructor
    · obtain ⟨resolved, hok, hkept⟩ :=
        resolveCurrentVerdicts_eq fromisoformat superseded contested hids hnodup verdicts
      refine ⟨resolved, hok, ?_⟩
      intro claim hclaim
      obtain ⟨claimId, hid⟩ := hids claim hclaim
      obtain ⟨current, _, hcurrent⟩ := resolveIndexed_isOk fromisoformat superseded contested hid verdicts
      refine ⟨claimId, current, hid, hkept claim hclaim claimId current hid hcurrent, ?_⟩
      rw [← h.indexed hclaim hid, hcurrent]
    · intro others hsame claim hclaim
      obtain ⟨claimId, hid⟩ := hids claim hclaim
      exact h.stable hclaim hid hsame
    · intro others hsame
      unfold resolveCurrentVerdicts
      apply foldlM_congr_mem
      intro claim hclaim resolved
      rw [hbatch others hsame claim hclaim]

/-- A verified row of the claim "c". -/
def oneRow : VerdictRow where
  id := some "v".toList
  claimId := some "c".toList
  verdict := some "verified".toList
  reason := none
  createdAt := .datetime 0 "1970-01-01T00:00:00+00:00".toList
  verificationMode := some "grounded_model".toList
  verifierContractVersion := some "1".toList
  support := .links 1

/-- The same row with a blank reason. -/
def blankReason : VerdictRow := { oneRow with reason := some " ".toList }

/-- The claim "c", as a row of `claims` and as a row that names it by `claim_id`. -/
def claimById : ClaimRow := ⟨some "c".toList, none, none⟩

def claimByClaimId : ClaimRow := ⟨none, some "c".toList, none⟩

/-- A claim without rows. -/
def otherClaim : ClaimRow := ⟨none, some "d".toList, none⟩

theorem rowVerdict_of_tied (h : row ∈ [oneRow, blankReason]) (claimId : Text) :
    rowVerdict claimId row = rowVerdict claimId oneRow := by
  rcases List.mem_pair.mp h with rfl | rfl
  · rfl
  · rfl

/-- The rows of "c" tie and say the same; "d" has none. -/
theorem historyDecides_claimById :
    HistoryDecides (fun _ => none) [claimById, otherClaim] [oneRow, blankReason] [] [] := by
  intro claim hclaim claimId hdecided
  constructor
  · rcases List.mem_pair.mp hclaim with rfl | rfl
    · left
      decide
    · right
      cases hdecided.identified
      decide
  · intro row hrow other hother _ _
    rw [rowVerdict_of_tied (mem_rowsOf.mp hrow).1, rowVerdict_of_tied (mem_rowsOf.mp hother).1]

theorem pointwise_claimById :
    Pointwise (fun _ => none) [claimById, otherClaim] [oneRow, blankReason] [] [] := by
  apply (pointwise_iff [claimById, otherClaim] [oneRow, blankReason] [] [] _ (by decide)).mpr
    historyDecides_claimById
  intro claim hclaim
  rcases List.mem_pair.mp hclaim with rfl | rfl
  · exact ⟨"c".toList, rfl⟩
  · exact ⟨"d".toList, rfl⟩

/-- Alone the claim is supported; the batch leaves it unverified. -/
theorem pointwise_claimByClaimId :
    ¬∀ fromisoformat claims verdicts superseded contested,
      (∀ claim ∈ claims, ∃ claimId, claim.identity = some claimId) →
        (claims.map ClaimRow.identity).Nodup →
          Pointwise fromisoformat claims verdicts superseded contested := by
  intro h
  have hpointwise := h (fun _ => none) [claimByClaimId] [oneRow] [] []
    (fun claim hclaim => ⟨"c".toList, by rw [List.mem_singleton.mp hclaim]; rfl⟩)
    (List.nodup_singleton _)
  obtain ⟨resolved, hok, hall⟩ := hpointwise.resolves
  obtain ⟨claimId, current, _, hget, halone⟩ := hall _ List.mem_cons_self
  have hbatch : resolved =
      Dict.set .empty "c".toList { claimId := "c".toList, state := .unverified } :=
    (Except.ok.inj hok).symm
  have hstate : current.state = .supported := by
    rw [← Except.ok.inj halone]
    decide
  rw [hbatch] at hget
  have hunverified : current.state = .unverified := by
    have hentry := Dict.get?_eq_some.mp hget
    have hcurrent : current = { claimId := "c".toList, state := .unverified } :=
      (Prod.ext_iff.mp (List.mem_singleton.mp hentry)).2
    rw [hcurrent]
  rw [hstate] at hunverified
  cases hunverified

end Rows

end Milo.Swarm
