import Milo.Python.QuotedText
import Milo.Swarm.ConflictWrites

/-!
# ConflictDecisions — every contradicting scope is decided, in any order

The claims of one identity that state two quantities contradict.  Deciding all of them succeeds as long as
no identity has more claims than a conflict record holds, and neither the order of the claims nor that of
the groups shows in the decisions.
-/

namespace Milo.Swarm

open Milo.Python Milo.Reasoning

/-! ## 1. The name of a scope -/

/-- What the encoding of a scope is the text of. -/
def ScopeIdentity.document (identity : ScopeIdentity) : Json :=
  .arr [.arr [.str identity.scope.entity, .str identity.scope.field,
      optionalText identity.scope.geography, optionalText identity.scope.market,
      .str identity.scope.timeScope],
    .arr (identity.identity.map fun d => .arr [.str d.1, .str d.2])]

theorem isTextual_optionalText (text : Option Text) : (optionalText text).isTextual = true := by
  cases text <;> rfl

theorem textualItems_pairs (pairs : List (Text × Text)) :
    textualItems (pairs.map fun d => .arr [.str d.1, .str d.2]) = true := by
  induction pairs with
  | nil => rfl
  | cons d pairs ih =>
    unfold List.map textualItems
    rw [ih]
    rfl

theorem isTextual_document (identity : ScopeIdentity) : identity.document.isTextual = true := by
  unfold ScopeIdentity.document
  simp only [Json.isTextual, textualItems, textualItems_pairs, isTextual_optionalText, Bool.and_self]

theorem optionalText_injective : Function.Injective optionalText := by
  intro text text' h
  cases text <;> cases text' <;> cases h <;> rfl

theorem encoded_injective : Function.Injective ScopeIdentity.encoded := by
  intro a b h
  have hdocument : a.document = b.document :=
    dumps_injective_of_textual (isTextual_document a) (isTextual_document b) h
  unfold ScopeIdentity.document at hdocument
  simp only [Json.arr.injEq, List.cons.injEq, Json.str.injEq, and_true] at hdocument
  obtain ⟨⟨hentity, hfield, hgeography, hmarket, htime⟩, hdimensions⟩ := hdocument
  have hpairs : a.identity = b.identity := by
    apply List.map_injective_iff.mpr _ hdimensions
    intro d d' hd
    simp only [Json.arr.injEq, List.cons.injEq, Json.str.injEq, and_true] at hd
    exact Prod.ext hd.1 hd.2
  obtain ⟨scope, identity⟩ := a
  obtain ⟨scope', identity'⟩ := b
  obtain ⟨entity, field, geography, market, timeScope⟩ := scope
  obtain ⟨entity', field', geography', market', timeScope'⟩ := scope'
  simp only at hentity hfield htime hpairs hgeography hmarket
  rw [hentity, hfield, htime, hpairs, optionalText_injective hgeography, optionalText_injective hmarket]

/-! ## 2. What is decided -/

/-- The length bounds of a claim's fields that a conflict record repeats. -/
def EvidenceReference.Bounded (reference : EvidenceReference) : Prop :=
  (1 ≤ reference.entity.length ∧ reference.entity.length ≤ 200) ∧
    (1 ≤ reference.field.length ∧ reference.field.length ≤ 200)

/-- The claims of one identity. -/
def claimsOf (u : Unicode) (references : List EvidenceReference) (identity : ScopeIdentity) :
    List EvidenceReference :=
  references.filter fun item => referenceIdentity u item = identity

/-- Two claims of the identity state different quantities. -/
def Contradicted (u : Unicode) (references : List EvidenceReference) (identity : ScopeIdentity) : Prop :=
  ∃ item ∈ claimsOf u references identity, ∃ other ∈ claimsOf u references identity,
    statedValue u item ≠ statedValue u other

/-- Some of the claims are decisive, and those state one quantity. -/
structure DecisiveQuantity (u : Unicode) (claims : List EvidenceReference) (decisiveClaimIds : List Text)
    (quantity : QuantityIdentity) : Prop where
  some : ∃ item ∈ claims, item.claimId ∈ decisiveClaimIds
  one : ∀ item ∈ claims, item.claimId ∈ decisiveClaimIds → statedValue u item = quantity

/-- The decision about one contradicting identity. -/
structure DecisionOf (u : Unicode) (sha256 : Text → Text) (references : List EvidenceReference)
    (decisiveClaimIds : List Text) (identity : ScopeIdentity) (decision : Decision) : Prop where
  scope : decision.scopeHash = scopeIdentityHash sha256 identity
  names : decision.claimIds.Perm ((claimsOf u references identity).map EvidenceReference.claimId)
  resolved : decision.state = .resolved ↔
    ∃ quantity, DecisiveQuantity u (claimsOf u references identity) decisiveClaimIds quantity
  superseded : ∀ quantity, DecisiveQuantity u (claimsOf u references identity) decisiveClaimIds quantity →
    ∀ claimId, claimId ∈ decision.supersededClaimIds ↔
      ∃ item ∈ claimsOf u references identity, item.claimId = claimId ∧ statedValue u item ≠ quantity

/-- Deciding succeeds, with one decision for each contradicting identity and no claim in two of them, and
    the order of the claims does not show. -/
structure DecidesConflicts (u : Unicode) (sha256 : Text → Text) (references : List EvidenceReference)
    (decisiveClaimIds : List Text) : Prop where
  total : ∃ identities resolutions,
    resolveConflicts u sha256 (conflictGroups u references) decisiveClaimIds = .ok resolutions ∧
      identities.Nodup ∧ (∀ identity, identity ∈ identities ↔ Contradicted u references identity) ∧
      List.Forall₂ (DecisionOf u sha256 references decisiveClaimIds) identities
        (resolutions.map ConflictResolution.toDecision) ∧
      resolutions.Pairwise fun a b => ∀ claimId ∈ a.claimIds, claimId ∉ b.claimIds
  ordered : ∀ others, references.Perm others →
    resolveConflicts u sha256 (conflictGroups u others) decisiveClaimIds =
      resolveConflicts u sha256 (conflictGroups u references) decisiveClaimIds

/-! ## 3. One decision -/

section OneDecision

variable {u : Unicode} {sha256 : Text → Text} {claims others : List EvidenceReference}
  {decisiveClaimIds : List Text} {quantity : QuantityIdentity} {identity : ScopeIdentity}

theorem mem_decisive_sorted {item : EvidenceReference} :
    item ∈ (sortOn EvidenceReference.claimId claims).filter
        (fun item => decisiveClaimIds.contains item.claimId) ↔
      item ∈ claims ∧ item.claimId ∈ decisiveClaimIds := by
  rw [List.mem_filter, mem_sortOn, List.contains_iff_mem]

theorem decisiveQuantity_iff {first : EvidenceReference} {rest : List EvidenceReference}
    (hsome : (sortOn EvidenceReference.claimId claims).filter
      (fun item => decisiveClaimIds.contains item.claimId) = first :: rest) :
    DecisiveQuantity u claims decisiveClaimIds quantity ↔
      quantity = statedValue u first ∧ ¬1 < ((((sortOn EvidenceReference.claimId claims).filter
        fun item => decisiveClaimIds.contains item.claimId)).map (statedValue u)).dedup.length := by
  have hfirst : first ∈ claims ∧ first.claimId ∈ decisiveClaimIds := by
    apply mem_decisive_sorted.mp
    rw [hsome]
    exact List.mem_cons_self
  rw [one_lt_length_dedup]
  constructor
  · intro h
    refine ⟨(h.one first hfirst.1 hfirst.2).symm, ?_⟩
    rintro ⟨a, ha, b, hb, hne⟩
    obtain ⟨item, hitem, rfl⟩ := List.mem_map.mp ha
    obtain ⟨other, hother, rfl⟩ := List.mem_map.mp hb
    have hitem' := mem_decisive_sorted.mp hitem
    have hother' := mem_decisive_sorted.mp hother
    exact hne ((h.one item hitem'.1 hitem'.2).trans (h.one other hother'.1 hother'.2).symm)
  · rintro ⟨rfl, hone⟩
    refine ⟨⟨first, hfirst⟩, ?_⟩
    intro item hitem hdecisive
    by_contra hne
    exact hone ⟨_, List.mem_map_of_mem (mem_decisive_sorted.mpr ⟨hitem, hdecisive⟩), _,
      List.mem_map_of_mem (mem_decisive_sorted.mpr hfirst), hne⟩

/-- A conflict closes exactly if its decisive claims state one quantity. -/
theorem decideGroup_resolved_iff (identity : ScopeIdentity) (claims : List EvidenceReference)
    (decisiveClaimIds : List Text) :
    (decideGroup u sha256 identity claims decisiveClaimIds).state = .resolved ↔
      ∃ quantity, DecisiveQuantity u claims decisiveClaimIds quantity := by
  unfold decideGroup
  dsimp only
  split
  · rename_i hnone
    refine iff_of_false (fun h => by cases h) ?_
    rintro ⟨quantity, ⟨item, hitem, hdecisive⟩, _⟩
    have hmem := mem_decisive_sorted.mpr ⟨hitem, hdecisive⟩
    rw [hnone] at hmem
    cases hmem
  · rename_i first rest hsome
    split
    · rename_i hseveral
      refine iff_of_false (fun h => by cases h) ?_
      rintro ⟨quantity, h⟩
      exact ((decisiveQuantity_iff hsome).mp h).2 hseveral
    · rename_i hone
      exact iff_of_true rfl ⟨_, (decisiveQuantity_iff hsome).mpr ⟨rfl, hone⟩⟩

/-- What it supersedes are the claims of another quantity. -/
theorem decideGroup_superseded_iff (h : DecisiveQuantity u claims decisiveClaimIds quantity) (claimId : Text) :
    claimId ∈ (decideGroup u sha256 identity claims decisiveClaimIds).supersededClaimIds ↔
      ∃ item ∈ claims, item.claimId = claimId ∧ statedValue u item ≠ quantity := by
  unfold decideGroup
  dsimp only
  split
  · rename_i hnone
    obtain ⟨item, hitem, hdecisive⟩ := h.some
    have hmem := mem_decisive_sorted.mpr ⟨hitem, hdecisive⟩
    rw [hnone] at hmem
    cases hmem
  · rename_i first rest hsome
    obtain ⟨hquantity, hone⟩ := (decisiveQuantity_iff hsome).mp h
    rw [if_neg hone, hquantity, List.mem_map]
    constructor
    · rintro ⟨item, hitem, hid⟩
      have hmem := List.mem_filter.mp hitem
      exact ⟨item, mem_sortOn.mp hmem.1, hid, of_decide_eq_true hmem.2⟩
    · rintro ⟨item, hitem, hid, hne⟩
      exact ⟨item, List.mem_filter.mpr ⟨mem_sortOn.mpr hitem, decide_eq_true hne⟩, hid⟩

/-- The order of the claims does not show in a decision. -/
theorem decideGroup_perm (hdistinct : (claims.map EvidenceReference.claimId).Nodup) (hperm : claims.Perm others)
    (identity : ScopeIdentity) (decisiveClaimIds : List Text) :
    decideGroup u sha256 identity others decisiveClaimIds =
      decideGroup u sha256 identity claims decisiveClaimIds := by
  have hsorted : sortOn EvidenceReference.claimId others = sortOn EvidenceReference.claimId claims :=
    sortOn_eq_of_perm hperm fun a ha b hb hid => List.inj_on_of_nodup_map hdistinct ha hb hid
  unfold decideGroup
  rw [hsorted]

end OneDecision

/-! ## 4. All decisions -/

section Decisions

variable {u : Unicode} {sha256 : Text → Text} {references others : List EvidenceReference}
  {decisiveClaimIds : List Text} {identity : ScopeIdentity}

/-- The identities of the conflict groups. -/
def conflictIdentities (u : Unicode) (references : List EvidenceReference) : List ScopeIdentity :=
  (conflictGroups u references).map Prod.fst

variable {g : ScopeIdentity × List EvidenceReference} {resolutions : List ConflictResolution}

theorem mem_conflictGroups_iff :
    g ∈ conflictGroups u references ↔
      g.2 = claimsOf u references g.1 ∧ Contradicted u references g.1 := by
  obtain ⟨identity, claims⟩ := g
  rw [mem_conflictGroups]
  constructor
  · rintro ⟨rfl, hdiffer⟩
    exact ⟨rfl, hdiffer⟩
  · rintro ⟨hclaims, hdiffer⟩
    have hgroup : claims = claimsOf u references identity := hclaims
    rw [hgroup]
    exact ⟨rfl, hdiffer⟩

theorem mem_conflictIdentities :
    identity ∈ conflictIdentities u references ↔ Contradicted u references identity := by
  unfold conflictIdentities
  rw [List.mem_map]
  constructor
  · rintro ⟨g, hg, rfl⟩
    exact (mem_conflictGroups_iff.mp hg).2
  · intro h
    exact ⟨(identity, claimsOf u references identity), mem_conflictGroups_iff.mpr ⟨rfl, h⟩, rfl⟩

theorem nodup_conflictIdentities (u : Unicode) (references : List EvidenceReference) :
    (conflictIdentities u references).Nodup :=
  (Dict.groupBy (referenceIdentity u) references).nodup.sublist (List.filter_sublist.map _)

/-- The decision of one identity. -/
def decisionAt (u : Unicode) (sha256 : Text → Text) (references : List EvidenceReference)
    (decisiveClaimIds : List Text) (identity : ScopeIdentity) : Decision :=
  decideGroup u sha256 identity (claimsOf u references identity) decisiveClaimIds

theorem decisionAt_decisionOf (identity : ScopeIdentity) :
    DecisionOf u sha256 references decisiveClaimIds identity
      (decisionAt u sha256 references decisiveClaimIds identity) where
  scope := (@decideGroup_fields u sha256 _ _ _).1
  names := by
    unfold decisionAt
    rw [(@decideGroup_fields u sha256 _ _ _).2.2.2.2]
    exact (perm_sortOn _ _).map _
  resolved := decideGroup_resolved_iff _ _ _
  superseded := fun _ h => decideGroup_superseded_iff h

/-- What is recorded are the decisions of the identities, sorted by their scope. -/
theorem resolved_decisions
    (h : resolveConflicts u sha256 (conflictGroups u references) decisiveClaimIds = .ok resolutions) :
    resolutions.map ConflictResolution.toDecision =
      sortOn Decision.scopeHash
        ((conflictIdentities u references).map (decisionAt u sha256 references decisiveClaimIds)) := by
  obtain ⟨made, hmade, hsorted⟩ := except_bind_eq_ok.mp h
  cases hsorted
  have hall := forall₂_of_mapM hmade
  have hdecisions : made.map ConflictResolution.toDecision =
      (conflictIdentities u references).map (decisionAt u sha256 references decisiveClaimIds) := by
    unfold conflictIdentities
    rw [List.map_map]
    have hgroups : ∀ g ∈ conflictGroups u references, g.2 = claimsOf u references g.1 :=
      fun g hg => (mem_conflictGroups_iff.mp hg).1
    clear h hmade
    generalize conflictGroups u references = groups at hall hgroups ⊢
    induction hall with
    | nil => rfl
    | cons hhead _ ih =>
      rw [List.map_cons, List.map_cons, ih fun g hg => hgroups g (List.mem_cons_of_mem _ hg),
        Decision.record_eq_ok hhead, hgroups _ List.mem_cons_self]
      rfl
  rw [← hdecisions]
  unfold sortOn
  exact List.map_insertionSort _ _ _ _ fun _ _ _ _ => Iff.rfl

theorem toDecision_injective : Function.Injective ConflictResolution.toDecision := by
  rintro ⟨decision, _⟩ ⟨decision', _⟩ h
  cases h
  rfl

theorem claimsOf_perm (hperm : references.Perm others) (identity : ScopeIdentity) :
    (claimsOf u references identity).Perm (claimsOf u others identity) := hperm.filter _

theorem contradicted_perm (hperm : references.Perm others) (h : Contradicted u references identity) :
    Contradicted u others identity := by
  obtain ⟨item, hitem, other, hother, hne⟩ := h
  have hclaims := claimsOf_perm (u := u) hperm identity
  exact ⟨item, hclaims.mem_iff.mp hitem, other, hclaims.mem_iff.mp hother, hne⟩

theorem claimsOf_distinct (hdistinct : (references.map EvidenceReference.claimId).Nodup)
    (identity : ScopeIdentity) : ((claimsOf u references identity).map EvidenceReference.claimId).Nodup :=
  hdistinct.sublist (List.filter_sublist.map _)

theorem mem_claimsOf {item : EvidenceReference} :
    item ∈ claimsOf u references identity ↔ item ∈ references ∧ referenceIdentity u item = identity := by
  unfold claimsOf
  rw [List.mem_filter, decide_eq_true_eq]

/-- The conflict groups have the same identities in any order of the claims. -/
theorem conflictIdentities_perm (hperm : references.Perm others) :
    (conflictIdentities u others).Perm (conflictIdentities u references) := by
  apply (List.perm_ext_iff_of_nodup (nodup_conflictIdentities u others)
    (nodup_conflictIdentities u references)).mpr
  intro identity
  rw [mem_conflictIdentities, mem_conflictIdentities]
  exact ⟨contradicted_perm hperm.symm, contradicted_perm hperm⟩

theorem decisionAt_perm (hdistinct : (references.map EvidenceReference.claimId).Nodup)
    (hperm : references.Perm others) (identity : ScopeIdentity) :
    decisionAt u sha256 others decisiveClaimIds identity =
      decisionAt u sha256 references decisiveClaimIds identity :=
  decideGroup_perm (claimsOf_distinct hdistinct identity) (claimsOf_perm hperm identity) _ _

/-- No two identities of the claims share a digest. -/
def DigestsApart (u : Unicode) (sha256 : Text → Text) (references : List EvidenceReference) : Prop :=
  ∀ item ∈ references, ∀ other ∈ references,
    sha256 (referenceIdentity u item).encoded = sha256 (referenceIdentity u other).encoded →
      (referenceIdentity u item).encoded = (referenceIdentity u other).encoded

theorem identity_eq_of_hash (happart : DigestsApart u sha256 references) {a b : ScopeIdentity}
    (ha : a ∈ conflictIdentities u references) (hb : b ∈ conflictIdentities u references)
    (h : scopeIdentityHash sha256 a = scopeIdentityHash sha256 b) : a = b := by
  obtain ⟨item, hitem, _⟩ := mem_conflictIdentities.mp ha
  obtain ⟨other, hother, _⟩ := mem_conflictIdentities.mp hb
  obtain ⟨hin, rfl⟩ := mem_claimsOf.mp hitem
  obtain ⟨hin', rfl⟩ := mem_claimsOf.mp hother
  exact encoded_injective (happart item hin other hin' h)

/-- The decisions of all identities, sorted, do not depend on the order of the claims. -/
theorem sorted_decisions_perm (hdistinct : (references.map EvidenceReference.claimId).Nodup)
    (happart : DigestsApart u sha256 references) (hperm : references.Perm others) :
    sortOn Decision.scopeHash
        ((conflictIdentities u others).map (decisionAt u sha256 others decisiveClaimIds)) =
      sortOn Decision.scopeHash
        ((conflictIdentities u references).map (decisionAt u sha256 references decisiveClaimIds)) := by
  have hsame : (conflictIdentities u others).map (decisionAt u sha256 others decisiveClaimIds) =
      (conflictIdentities u others).map (decisionAt u sha256 references decisiveClaimIds) :=
    List.map_congr_left fun identity _ => decisionAt_perm hdistinct hperm identity
  rw [hsame]
  apply sortOn_eq_of_perm ((conflictIdentities_perm hperm).symm.map _)
  intro d hd d' hd' hhash
  obtain ⟨a, ha, rfl⟩ := List.mem_map.mp hd
  obtain ⟨b, hb, rfl⟩ := List.mem_map.mp hd'
  rw [(decisionAt_decisionOf a).scope, (decisionAt_decisionOf b).scope] at hhash
  rw [identity_eq_of_hash happart ha hb hhash]

/-- Each group fits a record exactly if it is not too large. -/
theorem sound_iff_of_group (hdistinct : (references.map EvidenceReference.claimId).Nodup)
    (hbounded : ∀ item ∈ references, item.Bounded) (hsha : ∀ text, isHash (sha256 text) = true)
    (decisiveClaimIds : List Text) (hg : g ∈ conflictGroups u references) :
    (decideGroup u sha256 g.1 g.2 decisiveClaimIds).Sound ↔ (claimsOf u references g.1).length ≤ 100 := by
  obtain ⟨hclaims, hcontradicted⟩ := mem_conflictGroups_iff.mp hg
  have htwo : 2 ≤ g.2.length := by
    have hcontradicts := (List.mem_filter.mp hg).2
    unfold contradicts at hcontradicts
    rw [Bool.and_eq_true, decide_eq_true_eq] at hcontradicts
    exact hcontradicts.1
  rw [hclaims] at htwo ⊢
  rw [sound_decideGroup_iff hsha g.1 htwo (claimsOf_distinct hdistinct g.1) hcontradicted]
  constructor
  · exact fun h => h.1
  · intro hlong
    refine ⟨hlong, ?_⟩
    intro first hfirst
    have hmem := mem_sortOn.mp (List.mem_of_mem_head? hfirst)
    exact hbounded first (mem_claimsOf.mp hmem).1

/-- Decisions of different identities name different claims. -/
theorem pairwise_names (hdistinct : (references.map EvidenceReference.claimId).Nodup)
    {identities : List ScopeIdentity} (hnodup : identities.Nodup)
    (hall : List.Forall₂ (DecisionOf u sha256 references decisiveClaimIds) identities
      (resolutions.map ConflictResolution.toDecision)) :
    resolutions.Pairwise fun a b => ∀ claimId ∈ a.claimIds, claimId ∉ b.claimIds := by
  induction resolutions generalizing identities with
  | nil => exact List.Pairwise.nil
  | cons resolution rest ih =>
    cases hall with
    | cons hhead htail =>
      rename_i identity identities
      rw [List.nodup_cons] at hnodup
      refine List.Pairwise.cons ?_ (ih hnodup.2 htail)
      intro other hother claimId hclaim hclaim'
      obtain ⟨identity', hidentity', hdecision⟩ : ∃ identity' ∈ identities,
          DecisionOf u sha256 references decisiveClaimIds identity' other.toDecision := by
        clear ih hhead hclaim hclaim' hnodup
        generalize hdecisions : rest.map ConflictResolution.toDecision = decisions at htail
        have hmem : other.toDecision ∈ decisions := by
          rw [← hdecisions]
          exact List.mem_map_of_mem hother
        clear hdecisions hother
        induction htail with
        | nil => cases hmem
        | cons hd _ ih =>
          rcases List.mem_cons.mp hmem with heq | hmem
          · rw [heq]
            exact ⟨_, List.mem_cons_self, hd⟩
          · obtain ⟨identity', hin, hdecision⟩ := ih hmem
            exact ⟨identity', List.mem_cons_of_mem _ hin, hdecision⟩
      obtain ⟨item, hitem, rfl⟩ := List.mem_map.mp (hhead.names.mem_iff.mp hclaim)
      obtain ⟨item', hitem', hid⟩ := List.mem_map.mp (hdecision.names.mem_iff.mp hclaim')
      have hin := mem_claimsOf.mp hitem
      have hin' := mem_claimsOf.mp hitem'
      have hsame := List.inj_on_of_nodup_map hdistinct hin'.1 hin.1 hid
      rw [hsame, hin.2] at hin'
      exact hnodup.1 (hin'.2 ▸ hidentity')

/-- The decisions are those of the contradicting identities, in the order of their scopes. -/
theorem exists_identities
    (h : resolveConflicts u sha256 (conflictGroups u references) decisiveClaimIds = .ok resolutions) :
    ∃ identities : List ScopeIdentity, identities.Perm (conflictIdentities u references) ∧
      List.Forall₂ (DecisionOf u sha256 references decisiveClaimIds) identities
        (resolutions.map ConflictResolution.toDecision) := by
  have hall : List.Forall₂ (DecisionOf u sha256 references decisiveClaimIds) (conflictIdentities u references)
      ((conflictIdentities u references).map (decisionAt u sha256 references decisiveClaimIds)) := by
    rw [List.forall₂_map_right_iff, List.forall₂_same]
    exact fun identity _ => decisionAt_decisionOf identity
  have hcomp : Relation.Comp (List.Forall₂ (DecisionOf u sha256 references decisiveClaimIds)) List.Perm
      (conflictIdentities u references) (resolutions.map ConflictResolution.toDecision) := by
    refine ⟨_, hall, ?_⟩
    rw [resolved_decisions h]
    exact (perm_sortOn _ _).symm
  rw [List.forall₂_comp_perm_eq_perm_comp_forall₂] at hcomp
  obtain ⟨identities, hperm, hdecisions⟩ := hcomp
  exact ⟨identities, hperm.symm, hdecisions⟩

/-- All conflicts are decided, in any order, exactly if no contradicting identity has more than a hundred
    claims. -/
theorem decidesConflicts_iff (u : Unicode) (sha256 : Text → Text) (references : List EvidenceReference)
    (decisiveClaimIds : List Text) (hdistinct : (references.map EvidenceReference.claimId).Nodup)
    (hbounded : ∀ item ∈ references, item.Bounded) (hsha : ∀ text, isHash (sha256 text) = true)
    (happart : DigestsApart u sha256 references) :
    DecidesConflicts u sha256 references decisiveClaimIds ↔
      ∀ identity, Contradicted u references identity → (claimsOf u references identity).length ≤ 100 := by
  constructor
  · intro h identity hcontradicted
    obtain ⟨_, resolutions, hresolved, _⟩ := h.total
    have hg : (identity, claimsOf u references identity) ∈ conflictGroups u references :=
      mem_conflictGroups_iff.mpr ⟨rfl, hcontradicted⟩
    obtain ⟨resolution, _, hdecision⟩ := resolveConflicts_complete hresolved hg
    rw [← sound_iff_of_group hdistinct hbounded hsha decisiveClaimIds hg, ← hdecision]
    exact resolution.sound
  · intro h
    obtain ⟨resolutions, hresolved⟩ := resolveConflicts_isOk fun g hg =>
      (sound_iff_of_group hdistinct hbounded hsha decisiveClaimIds hg).mpr
        (h g.1 (mem_conflictGroups_iff.mp hg).2)
    constructor
    · obtain ⟨identities, hperm, hdecisions⟩ := exists_identities hresolved
      have hnodup := hperm.nodup_iff.mpr (nodup_conflictIdentities u references)
      refine ⟨identities, resolutions, hresolved, hnodup, ?_, hdecisions, ?_⟩
      · intro identity
        rw [hperm.mem_iff, mem_conflictIdentities]
      · exact pairwise_names hdistinct hnodup hdecisions
    · intro others hperm
      have hdistinct' : (others.map EvidenceReference.claimId).Nodup :=
        (hperm.map EvidenceReference.claimId).nodup_iff.mp hdistinct
      obtain ⟨resolutions', hresolved'⟩ := resolveConflicts_isOk fun g hg =>
        (sound_iff_of_group hdistinct' (fun item hitem => hbounded item (hperm.mem_iff.mpr hitem)) hsha
          decisiveClaimIds hg).mpr (by
            rw [← (claimsOf_perm hperm g.1).length_eq]
            exact h g.1 (contradicted_perm hperm.symm (mem_conflictGroups_iff.mp hg).2))
      have hsame : resolutions'.map ConflictResolution.toDecision =
          resolutions.map ConflictResolution.toDecision := by
        rw [resolved_decisions hresolved', resolved_decisions hresolved]
        exact sorted_decisions_perm hdistinct happart hperm
      rw [hresolved, hresolved', List.map_injective_iff.mpr toDecision_injective hsame]

theorem bounded_displacement (claimId : Text) (value : Json) (unit : String) (named : claimId ≠ []) :
    (displacement claimId value unit named).Bounded := by
  have hentity : 1 ≤ "Corolla".toList.length ∧ "Corolla".toList.length ≤ 200 := by decide
  have hfield : 1 ≤ "engine_displacement_cc".toList.length ∧
      "engine_displacement_cc".toList.length ≤ 200 := by decide
  exact ⟨hentity, hfield⟩

/-- One statement of a displacement in cubic centimetres for each number of a list. -/
def crowd (size : ℕ) : List EvidenceReference :=
  (List.range size).map fun i =>
    displacement (List.replicate (i + 1) 'c') (.int i) "cc" (List.cons_ne_nil _ _)

theorem crowd_distinct (size : ℕ) : ((crowd size).map EvidenceReference.claimId).Nodup := by
  unfold crowd
  rw [List.map_map]
  apply List.Nodup.map _ List.nodup_range
  intro i j h
  have hlength := congrArg List.length h
  simpa [displacement] using hlength

theorem crowd_bounded (size : ℕ) : ∀ item ∈ crowd size, item.Bounded := by
  intro item hitem
  obtain ⟨i, _, rfl⟩ := List.mem_map.mp hitem
  exact bounded_displacement _ _ _ _

theorem crowd_digestsApart (sha256 : Text → Text) (size : ℕ) : DigestsApart asciiUnicode sha256 (crowd size) := by
  intro item hitem other hother _
  obtain ⟨i, _, rfl⟩ := List.mem_map.mp hitem
  obtain ⟨j, _, rfl⟩ := List.mem_map.mp hother
  rfl

/-- Three claims fit a record. -/
theorem crowd_decided : DecidesConflicts asciiUnicode checksum (crowd 3) ["c".toList] := by
  apply (decidesConflicts_iff asciiUnicode checksum (crowd 3) ["c".toList] (crowd_distinct 3) (crowd_bounded 3)
    isHash_checksum (crowd_digestsApart checksum 3)).mpr
  intro identity _
  have hsize : (crowd 3).length = 3 := by
    unfold crowd
    rw [List.length_map, List.length_range]
  have hfew : (claimsOf asciiUnicode (crowd 3) identity).length ≤ (crowd 3).length := List.length_filter_le _ _
  omega

/-- The identity of the crowd. -/
def crowdIdentity : ScopeIdentity :=
  referenceIdentity asciiUnicode (displacement ['c'] (.int 0) "cc" (List.cons_ne_nil _ _))

theorem claimsOf_crowd (size : ℕ) : claimsOf asciiUnicode (crowd size) crowdIdentity = crowd size := by
  unfold claimsOf
  rw [List.filter_eq_self]
  intro item hitem
  obtain ⟨i, _, rfl⟩ := List.mem_map.mp hitem
  exact decide_eq_true rfl

theorem mem_crowd {size i : ℕ} (h : i < size) :
    displacement (List.replicate (i + 1) 'c') (.int i) "cc" (List.cons_ne_nil _ _) ∈ crowd size :=
  List.mem_map_of_mem (List.mem_range.mpr h)

theorem crowd_contradicted {size : ℕ} (h : 1 < size) : Contradicted asciiUnicode (crowd size) crowdIdentity := by
  unfold Contradicted
  rw [claimsOf_crowd]
  refine ⟨_, mem_crowd (lt_trans one_pos h), _, mem_crowd h, ?_⟩
  decide +kernel

/-- A hundred and one claims do not. -/
theorem crowd_undecided :
    ¬∀ u sha256 references decisiveClaimIds, (references.map EvidenceReference.claimId).Nodup →
      (∀ item ∈ references, item.Bounded) → (∀ text, isHash (sha256 text) = true) →
        DigestsApart u sha256 references → DecidesConflicts u sha256 references decisiveClaimIds := by
  intro h
  have hdecides := h asciiUnicode checksum (crowd 101) [] (crowd_distinct 101) (crowd_bounded 101)
    isHash_checksum (crowd_digestsApart checksum 101)
  obtain ⟨_, resolutions, hresolved, _⟩ := hdecides.total
  have hg : (crowdIdentity, claimsOf asciiUnicode (crowd 101) crowdIdentity) ∈
      conflictGroups asciiUnicode (crowd 101) :=
    mem_conflictGroups_iff.mpr ⟨rfl, crowd_contradicted (by decide)⟩
  obtain ⟨resolution, _, hdecision⟩ := resolveConflicts_complete hresolved hg
  have hfew := (sound_iff_of_group (crowd_distinct 101) (crowd_bounded 101) isHash_checksum [] hg).mp
    (hdecision ▸ resolution.sound)
  have hsize : (crowd 101).length = 101 := by
    unfold crowd
    rw [List.length_map, List.length_range]
  rw [claimsOf_crowd, hsize] at hfew
  omega

end Decisions

end Milo.Swarm
