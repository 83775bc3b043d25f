import Milo.Reasoning.Checks
import Milo.Swarm.Consistency

/-!
# BatchAnswers — what one batch response can settle

A response is text a model wrote.  Whatever it says, it settles the claims of its own batch only, each on
fragments of the claim's own source that were printed in the request, for a reason the code owns — or it
is refused by the verifier's contract.  One comparison can still go wrong: sorting the cited links
compares their locators, and a missing locator with a text where two links have one hash.
-/

namespace Milo.Swarm

open Milo.Python Milo.Reasoning

/-! ## 1. A batch as it is sent -/

/-- The candidates of one batch: each claim once, and one evidence for each source. -/
structure SentBatch where
  candidates : List GroundedCandidate
  distinct : (candidates.map GroundedCandidate.claimId).Nodup
  consistent : ∀ c ∈ candidates, ∀ c' ∈ candidates, c.source.sourceId = c'.source.sourceId →
    c.source = c'.source

namespace SentBatch

variable (batch : SentBatch)

def ordered : List GroundedCandidate := sortOn GroundedCandidate.claimId batch.candidates

def claimIds : List Text := batch.ordered.map GroundedCandidate.claimId

def context : BatchContext := Verifier.batchContext batch.ordered

/-- The response, parsed as `_verify_batch` does. -/
def parse (content : ResponseContent) : Except Failure (List VerificationVerdict) :=
  parseVerifierBatch content batch.claimIds batch.context

end SentBatch

/-- The reasons the code owns: `GROUNDED_VERDICT_REASONS` and the reason of an omission. -/
def ownedReasons : List String :=
  [groundedReason .verified, groundedReason .needsReview, groundedReason .rejected, omittedVerdict.2]

/-- The link of a fragment. -/
def linkTo (source : ResolvedSourceEvidence) (fragment : SourceFragment) : SupportLink :=
  ⟨source.sourceId, fragment.contentHash, fragment.fragmentId, fragment.locator⟩

/-- The link names exactly one fragment of the candidate's own source, and it stands in the request. -/
def NamesPrinted (batch : SentBatch) (candidate : GroundedCandidate) (link : SupportLink) : Prop :=
  candidate.source ∈ deduplicatedSources batch.ordered ∧
    ∃ fragment ∈ candidate.source.orderedFragments, link = linkTo candidate.source fragment ∧
      ∀ other ∈ candidate.source.orderedFragments,
        (linkTo candidate.source other).identity = link.identity → other = fragment

/-- A verdict on the claim's own evidence, for a reason of the code. -/
structure OwnVerdict (batch : SentBatch) (verdict : VerificationVerdict) : Prop where
  reason : verdict.reason ∈ ownedReasons
  cited : verdict.verdict = .verified →
    1 ≤ verdict.support.length ∧ verdict.support.length ≤ maxFragmentsPerSource
  once : (verdict.support.map SupportLink.identity).Nodup
  own : ∀ link ∈ verdict.support, ∃ candidate ∈ batch.candidates,
    candidate.claimId = verdict.claimId ∧ NamesPrinted batch candidate link

/-- One verdict for each claim of the batch, in order. -/
structure SettlesOwn (batch : SentBatch) (verdicts : List VerificationVerdict) : Prop where
  claims : verdicts.map VerificationVerdict.claimId = batch.claimIds
  each : ∀ verdict ∈ verdicts, OwnVerdict batch verdict

/-- The response is refused by the verifier's contract, or it settles the batch. -/
def Handled (batch : SentBatch) (content : ResponseContent) : Prop :=
  (∃ reason, batch.parse content = .error (.verifier reason)) ∨
    ∃ verdicts, batch.parse content = .ok verdicts ∧ SettlesOwn batch verdicts

/-! ## 2. Mixed citations -/

/-- A fragment one of the citations is of. -/
def Cited (source : ResolvedSourceEvidence) (references : List (Text × SourceFragment))
    (refs hashes : List Text) (fragment : SourceFragment) : Prop :=
  (∃ ref ∈ refs, references.lookup ref = some fragment) ∨
    (fragment ∈ source.fragments ∧ fragment.contentHash ∈ hashes)

/-- Every citation is accepted, and two of the cited fragments have one text, only one of them a locator. -/
structure CitesMixed (source : ResolvedSourceEvidence) (references : List (Text × SourceFragment))
    (refs hashes : List Text) : Prop where
  named : ∀ ref ∈ refs, ∃ link, linkForReference source references ref = .ok link
  unique : ∀ hash ∈ hashes, ∃ link, linkForHash source hash = .ok link
  mixed : ∃ f g, Cited source references refs hashes f ∧ Cited source references refs hashes g ∧
    f.contentHash = g.contentHash ∧ f.locator = none ∧ g.locator ≠ none

/-- A verified answer that passes its checks, with mixed citations. -/
def MixedAnswer (context : BatchContext) (answer : VerifierResponseVerdict) : Prop :=
  answer.verdict = .verified ∧ (checkGrounding context answer : Except Failure Unit) = .ok () ∧
    ∃ source, context.source answer.claimId = some source ∧
      CitesMixed source (context.references answer.claimId) answer.supportingFragmentRefs
        answer.supportingFragmentHashes

/-- The parser comes to an answer with mixed citations, every entry before it being accepted. -/
def ComesToMixed (batch : SentBatch) (content : ResponseContent) : Prop :=
  ∃ before entry after byId answer, readDocument content = .ok (before ++ entry :: after) ∧
    readEntries batch.claimIds batch.context before Dict.empty = .ok byId ∧
    readAnswer entry = some answer ∧ answer.claimId ∈ batch.claimIds ∧ answer.claimId ∉ byId.keys ∧
    MixedAnswer batch.context answer

/-- The response is a text that nests deeper than `json.loads` reads. -/
def NestsTooDeep (content : ResponseContent) : Prop := content = .text (.error .recursion)

/-! ## 3. Links -/

section Links

variable {source : ResolvedSourceEvidence} {references : List (Text × SourceFragment)}
  {refs hashes : List Text} {links : List SupportLink}

variable {fragment : SourceFragment} {made byReference : List SupportLink}

theorem link_eq_ok {made : SupportLink} (h : link source fragment = .ok made) : made = linkTo source fragment := by
  unfold link at h
  simp only at h
  split at h
  · cases h
    rfl
  · cases h

theorem linkForReference_eq_ok {ref : Text} {made : SupportLink}
    (h : linkForReference source references ref = .ok made) :
    ∃ fragment, references.lookup ref = some fragment ∧ made = linkTo source fragment := by
  unfold linkForReference at h
  split at h
  · cases h
  · rename_i fragment hfound
    exact ⟨fragment, hfound, link_eq_ok h⟩

theorem linkForHash_eq_ok {hash : Text} {made : SupportLink} (h : linkForHash source hash = .ok made) :
    ∃ fragment, source.fragments.filter (fun item => decide (item.contentHash = hash)) = [fragment] ∧
      made = linkTo source fragment := by
  unfold linkForHash onlyFragment at h
  split at h
  · cases h
  · rename_i fragment honly
    exact ⟨fragment, honly, link_eq_ok h⟩
  · cases h

theorem link_raises : RaisesOnly (fun e => e ≠ .typeError) (link source fragment) := by
  unfold link
  simp only
  split
  · exact RaisesOnly.ok _
  · exact RaisesOnly.error fun h => by cases h

theorem linkForReference_raises {ref : Text} :
    RaisesOnly (fun e => e ≠ .typeError) (linkForReference source references ref) := by
  unfold linkForReference
  split
  · exact RaisesOnly.error fun h => by cases h
  · exact link_raises

theorem linkForHash_raises {hash : Text} : RaisesOnly (fun e => e ≠ .typeError) (linkForHash source hash) := by
  unfold linkForHash onlyFragment
  split
  · exact RaisesOnly.error fun h => by cases h
  · exact link_raises
  · exact RaisesOnly.error fun h => by cases h

/-- Two fragments of one source with one identity are one fragment. -/
theorem fragment_eq_of_identity {f g : SourceFragment} (hf : f ∈ source.fragments) (hg : g ∈ source.fragments)
    (h : (linkTo source f).identity = (linkTo source g).identity) : f = g := by
  apply List.inj_on_of_nodup_map source.distinctFragments hf hg
  exact (Prod.mk.inj h).2

theorem mem_sortedSet {items : List Text} {a : Text} : a ∈ sortedSet items ↔ a ∈ items := by
  unfold sortedSet
  rw [mem_sortOn, List.mem_dedup]

/-- The links of the citations, each under its identity. -/
def identified (made : List SupportLink) : Dict (Text × Text × Option Text) SupportLink :=
  Dict.ofList (made.map fun item => (item.identity, item))

theorem mem_values_identified {item : SupportLink} (h : item ∈ (identified made).values) :
    item ∈ made ∧ (item.identity, item) ∈ (identified made).entries := by
  obtain ⟨⟨key, value⟩, hentry, rfl⟩ := List.mem_map.mp h
  rcases Dict.get?_setAll_cases (Dict.get?_eq_some.mpr hentry) with hin | ⟨-, hold⟩
  · obtain ⟨other, hother, heq⟩ := List.mem_map.mp hin
    cases heq
    exact ⟨hother, hentry⟩
  · cases hold

theorem exists_identified {item : SupportLink} (h : item ∈ made) :
    ∃ kept ∈ (identified made).values, kept.identity = item.identity := by
  have hkey : item.identity ∈ (identified made).keys := by
    apply Dict.mem_keys_setAll.mpr
    left
    exact List.mem_map.mpr ⟨(item.identity, item), List.mem_map_of_mem h, rfl⟩
  obtain ⟨kept, hentry⟩ := Dict.exists_of_mem_keys hkey
  have hkept : kept ∈ (identified made).values := List.mem_map.mpr ⟨_, hentry, rfl⟩
  refine ⟨kept, hkept, ?_⟩
  have hown := (mem_values_identified hkept).2
  obtain ⟨other, hother, heq⟩ : ∃ other ∈ made, (other.identity, other) = (item.identity, kept) := by
    rcases Dict.get?_setAll_cases (Dict.get?_eq_some.mpr hentry) with hin | ⟨-, hold⟩
    · exact List.mem_map.mp hin
    · cases hold
  obtain ⟨hid, hsame⟩ := Prod.mk.inj heq
  rw [← hsame]
  exact hid

theorem nodup_identified (made : List SupportLink) :
    ((identified made).values.map SupportLink.identity).Nodup := by
  have hkeys : (identified made).values.map SupportLink.identity = (identified made).keys := by
    unfold Dict.values Dict.keys
    rw [List.map_map]
    apply List.map_congr_left
    intro e he
    have hvalue : e.2 ∈ (identified made).values := List.mem_map_of_mem he
    have hown : (e.2.identity, e.2) ∈ (identified made).entries := (mem_values_identified hvalue).2
    rcases Dict.get?_setAll_cases (Dict.get?_eq_some.mpr (show (e.1, e.2) ∈ _ from he)) with hin | ⟨-, hold⟩
    · obtain ⟨other, -, heq⟩ := List.mem_map.mp hin
      obtain ⟨hid, rfl⟩ := Prod.mk.inj heq
      exact hid
    · cases hold
  rw [hkeys]
  exact (identified made).keys_nodup

/-- The references of a request stand for fragments of the source. -/
def Names (source : ResolvedSourceEvidence) (references : List (Text × SourceFragment)) : Prop :=
  ∀ ref fragment, references.lookup ref = some fragment → fragment ∈ source.fragments

/-- The links of resolved citations, in the order they are resolved. -/
structure Resolved (source : ResolvedSourceEvidence) (references : List (Text × SourceFragment))
    (refs hashes : List Text) (made : List SupportLink) : Prop where
  named : ∀ ref ∈ refs, ∃ link ∈ made, linkForReference source references ref = .ok link
  unique : ∀ hash ∈ hashes, ∃ link ∈ made, linkForHash source hash = .ok link
  cited : ∀ link ∈ made, ∃ fragment, Cited source references refs hashes fragment ∧ link = linkTo source fragment

theorem mapM_answers {ε α β : Type} {f : α → Except ε β} {items : List α} {made : List β}
    (h : items.mapM f = .ok made) {a : α} (ha : a ∈ items) : ∃ b ∈ made, f a = .ok b := by
  have hall := forall₂_of_mapM h
  clear h
  induction hall with
  | nil => cases ha
  | cons hfirst _ ih =>
    rcases List.mem_cons.mp ha with rfl | ha
    · exact ⟨_, List.mem_cons_self, hfirst⟩
    · obtain ⟨b, hb, heq⟩ := ih ha
      exact ⟨b, List.mem_cons_of_mem _ hb, heq⟩

theorem resolved_of_mapM {byHash : List SupportLink}
    (href : (sortedSet refs).mapM (linkForReference source references) = .ok byReference)
    (hhash : (sortedSet hashes).mapM (linkForHash source) = .ok byHash) :
    Resolved source references refs hashes (byReference ++ byHash) where
  named := by
    intro ref hmem
    obtain ⟨made, hmade, heq⟩ := mapM_answers href (mem_sortedSet.mpr hmem)
    exact ⟨made, List.mem_append_left _ hmade, heq⟩
  unique := by
    intro hash hmem
    obtain ⟨made, hmade, heq⟩ := mapM_answers hhash (mem_sortedSet.mpr hmem)
    exact ⟨made, List.mem_append_right _ hmade, heq⟩
  cited := by
    intro made hmade
    rcases List.mem_append.mp hmade with hmade | hmade
    · obtain ⟨ref, hmem, heq⟩ := exists_of_mem_mapM href hmade
      obtain ⟨fragment, hfound, rfl⟩ := linkForReference_eq_ok heq
      exact ⟨fragment, Or.inl ⟨ref, mem_sortedSet.mp hmem, hfound⟩, rfl⟩
    · obtain ⟨hash, hmem, heq⟩ := exists_of_mem_mapM hhash hmade
      obtain ⟨fragment, honly, rfl⟩ := linkForHash_eq_ok heq
      have hin : fragment ∈ source.fragments.filter fun item => decide (item.contentHash = hash) := by
        rw [honly]
        exact List.mem_cons_self
      obtain ⟨hfragment, hsame⟩ := List.mem_filter.mp hin
      refine ⟨fragment, Or.inr ⟨hfragment, ?_⟩, rfl⟩
      rw [of_decide_eq_true hsame]
      exact mem_sortedSet.mp hmem

theorem Resolved.linked (h : Resolved source references refs hashes made)
    (hcited : Cited source references refs hashes fragment) : linkTo source fragment ∈ made := by
  rcases hcited with ⟨ref, hmem, hfound⟩ | ⟨hfragment, hmem⟩
  · obtain ⟨item, hitem, heq⟩ := h.named ref hmem
    obtain ⟨other, hother, rfl⟩ := linkForReference_eq_ok heq
    rw [hfound] at hother
    cases hother
    exact hitem
  · obtain ⟨item, hitem, heq⟩ := h.unique _ hmem
    obtain ⟨other, honly, rfl⟩ := linkForHash_eq_ok heq
    have hin : fragment ∈ source.fragments.filter fun g => decide (g.contentHash = fragment.contentHash) :=
      List.mem_filter.mpr ⟨hfragment, decide_eq_true rfl⟩
    rw [honly] at hin
    rw [List.mem_singleton.mp hin]
    exact hitem

theorem Cited.mem (hnames : Names source references) (h : Cited source references refs hashes fragment) :
    fragment ∈ source.fragments := by
  rcases h with ⟨ref, -, hfound⟩ | ⟨hfragment, -⟩
  · exact hnames ref fragment hfound
  · exact hfragment

/-- A source has too few fragments for too many links. -/
theorem Resolved.few (h : Resolved source references refs hashes made) (hnames : Names source references) :
    (identified made).values.length ≤ maxFragmentsPerSource := by
  have hsub : (identified made).values.map SupportLink.identity ⊆
      source.fragments.map fun f => (linkTo source f).identity := by
    intro identity hidentity
    obtain ⟨item, hitem, rfl⟩ := List.mem_map.mp hidentity
    obtain ⟨fragment, hcited, rfl⟩ := h.cited item (mem_values_identified hitem).1
    exact List.mem_map_of_mem (hcited.mem hnames)
  have hle := (List.subperm_of_subset (nodup_identified made) hsub).length_le
  rw [List.length_map, List.length_map] at hle
  exact hle.trans source.fewFragments

theorem linksForCitations_of_resolved {byHash : List SupportLink}
    (href : (sortedSet refs).mapM (linkForReference source references) = .ok byReference)
    (hhash : (sortedSet hashes).mapM (linkForHash source) = .ok byHash) (hnames : Names source references) :
    linksForCitations source refs hashes references = sortLinks (identified (byReference ++ byHash)).values := by
  have hfew := (resolved_of_mapM href hhash).few hnames
  unfold linksForCitations
  rw [href, hhash]
  exact if_neg (not_lt.mpr hfew)

/-- Sorting the links compares a missing locator with a text exactly if the citations are mixed. -/
theorem linksForCitations_typeError_iff (hnames : Names source references) :
    linksForCitations source refs hashes references = .error .typeError ↔
      CitesMixed source references refs hashes := by
  constructor
  · intro h
    cases href : (sortedSet refs).mapM (linkForReference source references) with
    | error e =>
      unfold linksForCitations at h
      rw [href] at h
      cases h
      exact absurd rfl (RaisesOnly.mapM (fun _ _ => linkForReference_raises) _ href)
    | ok byReference =>
      cases hhash : (sortedSet hashes).mapM (linkForHash source) with
      | error e =>
        unfold linksForCitations at h
        rw [href, hhash] at h
        cases h
        exact absurd rfl (RaisesOnly.mapM (fun _ _ => linkForHash_raises) _ hhash)
      | ok byHash =>
        have hresolved := resolved_of_mapM href hhash
        rw [linksForCitations_of_resolved href hhash hnames] at h
        unfold sortLinks at h
        split at h
        · rename_i hclash
          obtain ⟨a, ha, hother⟩ := List.any_eq_true.mp hclash
          obtain ⟨b, hb, hab⟩ := List.any_eq_true.mp hother
          obtain ⟨-, hsame, hnone, hsome⟩ := of_decide_eq_true hab
          obtain ⟨f, hf, rfl⟩ := hresolved.cited a (mem_values_identified ha).1
          obtain ⟨g, hg, rfl⟩ := hresolved.cited b (mem_values_identified hb).1
          constructor
          · intro ref hmem
            obtain ⟨made, -, heq⟩ := hresolved.named ref hmem
            exact ⟨made, heq⟩
          · intro hash hmem
            obtain ⟨made, -, heq⟩ := hresolved.unique hash hmem
            exact ⟨made, heq⟩
          · exact ⟨f, g, hf, hg, hsame, hnone, hsome⟩
        · cases h
  · intro h
    obtain ⟨byReference, href, -⟩ := exists_mapM (R := fun _ _ => True) (f := linkForReference source references)
      (l := sortedSet refs) fun ref hmem => by
        obtain ⟨made, heq⟩ := h.named ref (mem_sortedSet.mp hmem)
        exact ⟨made, heq, trivial⟩
    obtain ⟨byHash, hhash, -⟩ := exists_mapM (R := fun _ _ => True) (f := linkForHash source)
      (l := sortedSet hashes) fun hash hmem => by
        obtain ⟨made, heq⟩ := h.unique hash (mem_sortedSet.mp hmem)
        exact ⟨made, heq, trivial⟩
    have hresolved := resolved_of_mapM href hhash
    obtain ⟨f, g, hf, hg, hsame, hnone, hsome⟩ := h.mixed
    obtain ⟨a, ha, haid⟩ := exists_identified (hresolved.linked hf)
    obtain ⟨b, hb, hbid⟩ := exists_identified (hresolved.linked hg)
    obtain ⟨hasource, hahash, halocator⟩ : a.sourceId = source.sourceId ∧ a.contentHash = f.contentHash ∧
        a.locator = f.locator := by
      obtain ⟨h1, h2⟩ := Prod.mk.inj haid
      exact ⟨h1, Prod.mk.inj h2⟩
    obtain ⟨hbsource, hbhash, hblocator⟩ : b.sourceId = source.sourceId ∧ b.contentHash = g.contentHash ∧
        b.locator = g.locator := by
      obtain ⟨h1, h2⟩ := Prod.mk.inj hbid
      exact ⟨h1, Prod.mk.inj h2⟩
    have hclash : locatorsClash (identified (byReference ++ byHash)).values = true := by
      apply List.any_eq_true.mpr
      refine ⟨a, ha, List.any_eq_true.mpr ⟨b, hb, decide_eq_true ⟨?_, ?_, ?_, ?_⟩⟩⟩
      · rw [hasource, hbsource]
      · rw [hahash, hbhash, hsame]
      · rw [halocator, hnone]
      · rw [hblocator]
        exact hsome
    rw [linksForCitations_of_resolved href hhash hnames]
    unfold sortLinks
    rw [if_pos hclash]

/-- The links of citations that are accepted. -/
structure AcceptedLinks (source : ResolvedSourceEvidence) (refs hashes : List Text) (links : List SupportLink) :
    Prop where
  few : links.length ≤ maxFragmentsPerSource
  once : (links.map SupportLink.identity).Nodup
  some : refs ≠ [] ∨ hashes ≠ [] → links ≠ []
  own : ∀ link ∈ links, ∃ fragment ∈ source.fragments, link = linkTo source fragment

theorem linksForCitations_ok (hnames : Names source references)
    (h : linksForCitations source refs hashes references = .ok links) :
    AcceptedLinks source refs hashes links := by
  obtain ⟨byReference, href, hrest⟩ := except_bind_eq_ok.mp h
  obtain ⟨byHash, hhash, -⟩ := except_bind_eq_ok.mp hrest
  have hresolved := resolved_of_mapM href hhash
  rw [linksForCitations_of_resolved href hhash hnames] at h
  unfold sortLinks at h
  split at h
  · cases h
  · cases h
    have hperm : ((identified (byReference ++ byHash)).values.insertionSort fun a b => linkLE a b).Perm
        (identified (byReference ++ byHash)).values := List.perm_insertionSort _ _
    constructor
    · rw [hperm.length_eq]
      exact hresolved.few hnames
    · exact ((hperm.map SupportLink.identity).nodup_iff).mpr (nodup_identified _)
    · intro hcites hnil
      obtain ⟨item, hitem⟩ : ∃ item, item ∈ byReference ++ byHash := by
        rcases hcites with hrefs | hhashes
        · obtain ⟨ref, hmem⟩ := List.exists_mem_of_ne_nil _ hrefs
          obtain ⟨item, hitem, -⟩ := hresolved.named ref hmem
          exact ⟨item, hitem⟩
        · obtain ⟨hash, hmem⟩ := List.exists_mem_of_ne_nil _ hhashes
          obtain ⟨item, hitem, -⟩ := hresolved.unique hash hmem
          exact ⟨item, hitem⟩
      obtain ⟨kept, hkept, -⟩ := exists_identified hitem
      have hsorted := hperm.mem_iff.mpr hkept
      rw [hnil] at hsorted
      cases hsorted
    · intro item hitem
      obtain ⟨fragment, hcited, heq⟩ := hresolved.cited item (mem_values_identified (hperm.mem_iff.mp hitem)).1
      exact ⟨fragment, hcited.mem hnames, heq⟩

end Links

/-! ## 4. What the request prints -/

section Printed

/-- The sources of the candidates, each under its id. -/
theorem uniqueSources_spec {P : ResolvedSourceEvidence → Prop} (candidates : List GroundedCandidate)
    (hall : ∀ c ∈ candidates, P c.source) (d : Dict Text ResolvedSourceEvidence)
    (hd : ∀ e ∈ d.entries, e.1 = e.2.sourceId ∧ P e.2) :
    (∀ e ∈ (candidates.foldl (fun d c => if d.keys.contains c.source.sourceId then d
        else d.set c.source.sourceId c.source) d).entries, e.1 = e.2.sourceId ∧ P e.2) ∧
      ∀ id, id ∈ d.keys ∨ (∃ c ∈ candidates, c.source.sourceId = id) →
        id ∈ (candidates.foldl (fun d c => if d.keys.contains c.source.sourceId then d
          else d.set c.source.sourceId c.source) d).keys := by
  induction candidates generalizing d with
  | nil =>
    refine ⟨hd, ?_⟩
    rintro id (hid | ⟨c, hc, -⟩)
    · exact hid
    · cases hc
  | cons c rest ih =>
    have hrest : ∀ c' ∈ rest, P c'.source := fun c' hc' => hall c' (List.mem_cons_of_mem _ hc')
    rw [List.foldl_cons]
    by_cases hknown : d.keys.contains c.source.sourceId
    · rw [if_pos hknown]
      obtain ⟨hentries, hkeys⟩ := ih hrest d hd
      refine ⟨hentries, ?_⟩
      rintro id (hid | ⟨c', hc', rfl⟩)
      · exact hkeys id (Or.inl hid)
      · rcases List.mem_cons.mp hc' with rfl | hc'
        · exact hkeys _ (Or.inl (List.contains_iff_mem.mp hknown))
        · exact hkeys _ (Or.inr ⟨c', hc', rfl⟩)
    · rw [if_neg hknown]
      obtain ⟨hentries, hkeys⟩ := ih hrest (d.set c.source.sourceId c.source) (by
        intro e he
        rcases Dict.mem_entries_set.mp he with ⟨hkey, hvalue⟩ | ⟨-, hold⟩
        · rw [hkey, hvalue]
          exact ⟨rfl, hall c List.mem_cons_self⟩
        · exact hd e hold)
      refine ⟨hentries, ?_⟩
      rintro id (hid | ⟨c', hc', rfl⟩)
      · exact hkeys id (Or.inl (Dict.mem_keys_set.mpr (Or.inr hid)))
      · rcases List.mem_cons.mp hc' with rfl | hc'
        · exact hkeys _ (Or.inl (Dict.mem_keys_set.mpr (Or.inl rfl)))
        · exact hkeys _ (Or.inr ⟨c', hc', rfl⟩)

variable {candidates : List GroundedCandidate} {source : ResolvedSourceEvidence} {c : GroundedCandidate}

theorem mem_deduplicatedSources (h : source ∈ deduplicatedSources candidates) :
    ∃ c ∈ candidates, c.source = source := by
  obtain ⟨e, he, rfl⟩ := List.mem_map.mp h
  have hspec := (uniqueSources_spec (P := fun s => ∃ c ∈ candidates, c.source = s) candidates
    (fun c hc => ⟨c, hc, rfl⟩) Dict.empty fun e he => absurd he List.not_mem_nil).1
  exact (hspec e (mem_sortOn.mp he)).2

theorem exists_deduplicatedSource (h : c ∈ candidates) :
    ∃ source ∈ deduplicatedSources candidates, source.sourceId = c.source.sourceId := by
  obtain ⟨hentries, hkeys⟩ := uniqueSources_spec (P := fun _ => True) candidates (fun _ _ => trivial) Dict.empty
    fun e he => absurd he List.not_mem_nil
  obtain ⟨source, hentry⟩ := Dict.exists_of_mem_keys (hkeys c.source.sourceId (Or.inr ⟨c, h, rfl⟩))
  exact ⟨source, List.mem_map.mpr ⟨_, mem_sortOn.mpr hentry, rfl⟩, (hentries _ hentry).1.symm⟩

variable {batch : SentBatch}

theorem mem_ordered : c ∈ batch.ordered ↔ c ∈ batch.candidates := mem_sortOn

/-- The evidence of every claim of the batch is printed. -/
theorem source_printed (h : c ∈ batch.candidates) : c.source ∈ deduplicatedSources batch.ordered := by
  obtain ⟨source, hsource, hid⟩ := exists_deduplicatedSource (mem_ordered.mpr h)
  obtain ⟨c', hc', rfl⟩ := mem_deduplicatedSources hsource
  rw [← batch.consistent c' (mem_ordered.mp hc') c h hid]
  exact hsource

/-- What the batch supplies for a claim is its own source and the references of that source. -/
theorem context_source {claimId : Text} (h : batch.context.source claimId = some source) :
    (∃ c ∈ batch.candidates, c.claimId = claimId ∧ c.source = source) ∧
      batch.context.references claimId =
        ((Verifier.fragmentReferenceIndex batch.ordered).lookup source.sourceId).getD [] := by
  obtain ⟨c, hfound, rfl⟩ := Option.map_eq_some_iff.mp h
  have hid := List.find?_some hfound
  refine ⟨⟨c, mem_ordered.mp (List.mem_of_find?_eq_some hfound), of_decide_eq_true hid, rfl⟩, ?_⟩
  show ((batch.ordered.find? _).bind _).getD [] = _
  rw [hfound]
  rfl

theorem context_source_of_mem {claimId : Text} (h : claimId ∈ batch.claimIds) :
    ∃ source, batch.context.source claimId = some source := by
  obtain ⟨c, hc, rfl⟩ := List.mem_map.mp h
  cases hfound : batch.ordered.find? fun c' => decide (c'.claimId = c.claimId) with
  | none =>
    have hnone := List.find?_eq_none.mp hfound c hc
    exact absurd (decide_eq_true rfl) hnone
  | some c' =>
    refine ⟨c'.source, ?_⟩
    show (batch.ordered.find? _).map _ = _
    rw [hfound]
    rfl

/-- The references of a claim are those of its own source. -/
theorem names_context {claimId : Text} (h : batch.context.source claimId = some source) :
    Names source (batch.context.references claimId) := by
  obtain ⟨⟨c, hc, -, rfl⟩, hreferences⟩ := context_source h
  intro ref fragment hfound
  rw [hreferences] at hfound
  cases hindex : (Verifier.fragmentReferenceIndex batch.ordered).lookup c.source.sourceId with
  | none =>
    rw [hindex] at hfound
    cases hfound
  | some printed =>
    rw [hindex] at hfound
    obtain ⟨before, after, hsplit, -⟩ := List.lookup_eq_some_iff.mp hindex
    have hprinted : (c.source.sourceId, printed) ∈ Verifier.fragmentReferenceIndex batch.ordered := by
      rw [hsplit]
      exact List.mem_append_right _ List.mem_cons_self
    obtain ⟨numbered, hnumbered, heq⟩ := List.mem_map.mp hprinted
    obtain ⟨hid, rfl⟩ := Prod.mk.inj heq
    obtain ⟨c', hc', hsource⟩ := mem_deduplicatedSources (List.fst_mem_of_mem_zipIdx hnumbered)
    rw [← hsource] at hid
    have hsame := batch.consistent c' (mem_ordered.mp hc') c hc hid
    obtain ⟨before', after', hsplit', -⟩ := List.lookup_eq_some_iff.mp hfound
    have hentry : (ref, fragment) ∈ numbered.1.orderedFragments.zipIdx.map fun f =>
        (fragmentReference numbered.2 f.2, f.1) := by
      rw [Option.getD_some] at hsplit'
      rw [hsplit']
      exact List.mem_append_right _ List.mem_cons_self
    obtain ⟨f, hf, heq'⟩ := List.mem_map.mp hentry
    obtain ⟨-, rfl⟩ := Prod.mk.inj heq'
    have hfragment := List.fst_mem_of_mem_zipIdx hf
    rw [← hsource, hsame] at hfragment
    exact (List.perm_insertionSort _ _).mem_iff.mp hfragment

/-- An accepted link names one fragment of the claim's own source, which the request prints. -/
theorem namesPrinted_linkTo (h : c ∈ batch.candidates) {fragment : SourceFragment}
    (hfragment : fragment ∈ c.source.fragments) : NamesPrinted batch c (linkTo c.source fragment) := by
  have hmem : ∀ f, f ∈ c.source.orderedFragments ↔ f ∈ c.source.fragments :=
    fun f => (List.perm_insertionSort _ _).mem_iff
  refine ⟨source_printed h, fragment, (hmem fragment).mpr hfragment, rfl, ?_⟩
  intro other hother hsame
  exact fragment_eq_of_identity ((hmem other).mp hother) hfragment hsame

end Printed

/-! ## 5. One answer -/

section Answer

variable {batch : SentBatch} {answer : VerifierResponseVerdict} {verdict : VerificationVerdict}

variable {source : ResolvedSourceEvidence}

theorem supportRequiresMode_cited {refs hashes : List Text} {links : List SupportLink}
    (h : AcceptedLinks source refs hashes links) :
    SupportRequiresMode (some .groundedModel) (some verifierContractVersion) links where
  bounded := h.few
  moded := fun _ => ⟨Option.some_ne_none _, Option.some_ne_none _⟩
  localBare := fun hlocal => by cases hlocal
  unique := h.once
  oneSource := by
    intro a ha b hb
    obtain ⟨f, -, rfl⟩ := h.own a ha
    obtain ⟨g, -, rfl⟩ := h.own b hb
    rfl

theorem checkGrounding_ok (h : (checkGrounding batch.context answer : Except Failure Unit) = .ok ()) :
    answer.supportingFragmentRefs ≠ [] ∨ answer.supportingFragmentHashes ≠ [] := by
  rcases except_bind_eq_ok.mp h with ⟨_, -, h⟩
  rcases except_bind_eq_ok.mp h with ⟨_, hcites, -⟩
  have hcites := refuseIf_eq_ok.mp hcites
  rw [not_and_or] at hcites
  exact hcites

/-- The failures of a verifier contract. -/
def IsContract (e : Failure) : Prop := ∃ reason, e = .verifier reason

theorem checkGrounding_raises {context : BatchContext} :
    RaisesOnly IsContract (checkGrounding context answer : Except Failure Unit) := by
  unfold checkGrounding
  refine RaisesOnly.bind (raisesOnly_refuseIf fun _ => ⟨_, rfl⟩) fun _ _ => ?_
  refine RaisesOnly.bind (raisesOnly_refuseIf fun _ => ⟨_, rfl⟩) fun _ _ => ?_
  exact raisesOnly_refuseIf fun _ => ⟨_, rfl⟩

/-- The support of an answer whose citations are accepted. -/
theorem answerSupport_ok {links : List SupportLink} (hsource : batch.context.source answer.claimId = some source)
    (h : answerSupport batch.context answer = .ok links) :
    AcceptedLinks source answer.supportingFragmentRefs answer.supportingFragmentHashes links := by
  unfold answerSupport at h
  simp only [hsource] at h
  split at h
  · rename_i made hmade
    cases h
    exact linksForCitations_ok (names_context hsource) hmade
  · cases h
  · cases h
  · cases h

theorem answerSupport_raises (hsource : batch.context.source answer.claimId = some source)
    (hmixed : ¬CitesMixed source (batch.context.references answer.claimId) answer.supportingFragmentRefs
      answer.supportingFragmentHashes) : RaisesOnly IsContract (answerSupport batch.context answer) := by
  unfold answerSupport
  simp only [hsource]
  split
  · exact RaisesOnly.ok _
  · exact RaisesOnly.error ⟨_, rfl⟩
  · exact RaisesOnly.error ⟨_, rfl⟩
  · rename_i htype
    exact absurd ((linksForCitations_typeError_iff (names_context hsource)).mp htype) hmixed

theorem answerSupport_mixed (hsource : batch.context.source answer.claimId = some source)
    (hmixed : CitesMixed source (batch.context.references answer.claimId) answer.supportingFragmentRefs
      answer.supportingFragmentHashes) : answerSupport batch.context answer = .error .other := by
  have htype := (linksForCitations_typeError_iff (names_context hsource)).mpr hmixed
  unfold answerSupport
  simp only [hsource, htype]

/-- An answer to a claim of the batch is refused by the contract, unless its citations are mixed. -/
theorem groundAnswer_raises (hexpected : answer.claimId ∈ batch.claimIds)
    (hmixed : ¬MixedAnswer batch.context answer) :
    RaisesOnly IsContract (groundAnswer batch.context answer) := by
  obtain ⟨source, hsource⟩ := context_source_of_mem hexpected
  unfold groundAnswer
  simp only
  split
  · rename_i hverified
    apply checkGrounding_raises.bind
    intro _ hchecked
    apply RaisesOnly.bind
    · exact answerSupport_raises hsource fun h => hmixed ⟨hverified, hchecked, source, hsource, h⟩
    · intro links hlinks
      unfold citedVerdict
      rw [dif_pos (supportRequiresMode_cited (answerSupport_ok hsource hlinks))]
      exact RaisesOnly.ok _
  · exact RaisesOnly.ok _

theorem groundAnswer_mixed (h : MixedAnswer batch.context answer) :
    groundAnswer batch.context answer = .error .other := by
  obtain ⟨hverified, hchecked, source, hsource, hmixed⟩ := h
  unfold groundAnswer
  simp only
  rw [if_pos hverified, hchecked, answerSupport_mixed hsource hmixed]
  rfl

theorem ownVerdict_bare {claimId : Text} {outcome : LocalOutcome} (hreason : outcome.2 ∈ ownedReasons)
    (hvalue : outcome.1 ≠ .verified) : OwnVerdict batch (bareVerdict claimId .groundedModel outcome) where
  reason := hreason
  cited := fun h => absurd h hvalue
  once := List.nodup_nil
  own := fun _ h => absurd h List.not_mem_nil

theorem groundedReason_owned (value : VerdictValue) : groundedReason value ∈ ownedReasons := by
  cases value <;> decide

/-- What an answer settles, it settles on its own evidence. -/
theorem groundAnswer_own (hexpected : answer.claimId ∈ batch.claimIds)
    (h : groundAnswer batch.context answer = .ok verdict) : OwnVerdict batch verdict := by
  obtain ⟨source, hsource⟩ := context_source_of_mem hexpected
  unfold groundAnswer at h
  simp only at h
  split at h
  · rcases except_bind_eq_ok.mp h with ⟨_, hchecked, h⟩
    rcases except_bind_eq_ok.mp h with ⟨links, hlinks, hcited⟩
    have haccepted := answerSupport_ok hsource hlinks
    obtain ⟨⟨c, hc, hid, rfl⟩, -⟩ := context_source hsource
    unfold citedVerdict at hcited
    split at hcited
    · cases hcited
      constructor
      · exact groundedReason_owned _
      · exact fun _ => ⟨List.length_pos_of_ne_nil (haccepted.some (checkGrounding_ok hchecked)), haccepted.few⟩
      · exact haccepted.once
      · intro item hitem
        obtain ⟨fragment, hfragment, rfl⟩ := haccepted.own item hitem
        exact ⟨c, hc, hid, namesPrinted_linkTo hc hfragment⟩
    · cases hcited
  · rename_i hvalue
    cases h
    exact ownVerdict_bare (groundedReason_owned _) hvalue

end Answer

/-! ## 6. A response -/

section Response

variable {batch : SentBatch} {byId result : Dict Text VerificationVerdict}

variable {content : ResponseContent}

theorem readDocument_raises (hread : ¬NestsTooDeep content) : RaisesOnly IsContract (readDocument content) := by
  have hentries : ∀ members, RaisesOnly IsContract (responseEntries members) := by
    intro members
    unfold responseEntries
    split
    · exact RaisesOnly.ok _
    · exact RaisesOnly.ok _
    · exact RaisesOnly.error ⟨_, rfl⟩
  unfold readDocument
  split
  · exact hentries _
  · exact hentries _
  · exact absurd rfl hread
  · exact RaisesOnly.error ⟨_, rfl⟩

theorem readEntries_append (expected : List Text) (context : BatchContext) (before rest : List Json)
    (byId : Dict Text VerificationVerdict) :
    readEntries expected context (before ++ rest) byId =
      readEntries expected context before byId >>= readEntries expected context rest := by
  induction before generalizing byId with
  | nil => rfl
  | cons entry before ih =>
    rw [List.cons_append, readEntries, readEntries]
    cases readAnswer entry with
    | none => rfl
    | some answer =>
      simp only [bind_assoc]
      congr 1
      funext _
      congr 1
      funext _
      congr 1
      funext verdict
      exact ih _

/-- Reading the entries is refused by the contract, unless it comes to mixed citations. -/
theorem readEntries_raises {entries : List Json}
    (hmixed : ∀ before entry after later answer, entries = before ++ entry :: after →
      readEntries batch.claimIds batch.context before byId = .ok later → readAnswer entry = some answer →
      answer.claimId ∈ batch.claimIds → answer.claimId ∉ later.keys → ¬MixedAnswer batch.context answer) :
    RaisesOnly IsContract (readEntries batch.claimIds batch.context entries byId) := by
  induction entries generalizing byId with
  | nil => exact RaisesOnly.ok _
  | cons entry rest ih =>
    have hfirst := hmixed [] entry rest byId
    rw [readEntries]
    cases hanswer : readAnswer entry with
    | none => exact RaisesOnly.error ⟨_, rfl⟩
    | some answer =>
      refine RaisesOnly.bind (raisesOnly_refuseIf fun _ => ⟨_, rfl⟩) fun _ hexpected => ?_
      refine RaisesOnly.bind (raisesOnly_refuseIf fun _ => ⟨_, rfl⟩) fun _ hnew => ?_
      have hexpected' := not_not.mp (refuseIf_eq_ok.mp hexpected)
      have hnew' := refuseIf_eq_ok.mp hnew
      have hclean := hfirst answer rfl rfl hanswer hexpected' hnew'
      apply (groundAnswer_raises hexpected' hclean).bind
      intro verdict hverdict
      apply ih
      intro before entry' after later answer' hsplit hbefore
      refine hmixed (entry :: before) entry' after later answer' (by rw [hsplit]; rfl) ?_
      rw [readEntries, hanswer]
      simp only [hexpected, hnew, hverdict]
      exact hbefore

theorem readEntries_each {entries : List Json}
    (h : readEntries batch.claimIds batch.context entries byId = .ok result)
    (hbyId : ∀ claimId verdict, byId.get? claimId = some verdict → OwnVerdict batch verdict) :
    ∀ claimId verdict, result.get? claimId = some verdict → OwnVerdict batch verdict := by
  induction entries generalizing byId with
  | nil =>
    cases h
    exact hbyId
  | cons entry rest ih =>
    rw [readEntries] at h
    cases hanswer : readAnswer entry with
    | none =>
      rw [hanswer] at h
      cases h
    | some answer =>
      simp only [hanswer] at h
      rcases except_bind_eq_ok.mp h with ⟨_, hexpected, h⟩
      rcases except_bind_eq_ok.mp h with ⟨_, -, h⟩
      rcases except_bind_eq_ok.mp h with ⟨verdict, hverdict, h⟩
      have hexpected := not_not.mp (refuseIf_eq_ok.mp hexpected)
      apply ih h
      intro claimId verdict' hget
      rw [Dict.get?_set] at hget
      by_cases heq : claimId = answer.claimId
      · rw [if_pos heq, Option.some.injEq] at hget
        rw [← hget]
        exact groundAnswer_own hexpected hverdict
      · rw [if_neg heq] at hget
        exact hbyId claimId verdict' hget

theorem settlesOwn_of_parse {verdicts : List VerificationVerdict} (h : batch.parse content = .ok verdicts) :
    SettlesOwn batch verdicts := by
  have hclaims := parseVerifierBatch_claimIds h
  rcases except_bind_eq_ok.mp h with ⟨entries, -, hread⟩
  rcases except_bind_eq_ok.mp hread with ⟨byId, hbyId, hverdicts⟩
  have heach := readEntries_each hbyId fun _ _ hget => by cases hget
  cases hverdicts
  refine ⟨hclaims, ?_⟩
  intro verdict hverdict
  obtain ⟨claimId, -, rfl⟩ := List.mem_map.mp hverdict
  cases hget : byId.get? claimId with
  | none => exact ownVerdict_bare (by decide) (fun h => by cases h)
  | some verdict => exact heach claimId verdict hget

theorem parse_of_comesToMixed (h : ComesToMixed batch content) : batch.parse content = .error .other := by
  obtain ⟨before, entry, after, byId, answer, hdocument, hbefore, hanswer, hexpected, hnew, hmixed⟩ := h
  unfold SentBatch.parse parseVerifierBatch
  rw [hdocument]
  show (readEntries batch.claimIds batch.context (before ++ entry :: after) Dict.empty >>= _) = _
  rw [readEntries_append, hbefore]
  show (readEntries batch.claimIds batch.context (entry :: after) byId >>= _) = _
  have hknown : (refuseIf (answer.claimId ∉ batch.claimIds) (.verifier .responseUnknownClaim) :
      Except Failure Unit) = .ok () := refuseIf_eq_ok.mpr (not_not.mpr hexpected)
  have hfresh : (refuseIf (answer.claimId ∈ byId.keys) (.verifier .responseDuplicateClaim) :
      Except Failure Unit) = .ok () := refuseIf_eq_ok.mpr hnew
  rw [readEntries, hanswer]
  simp only [hknown, hfresh, groundAnswer_mixed hmixed]
  rfl

theorem not_handled_of_other (h : batch.parse content = .error .other) : ¬Handled batch content := by
  rintro (⟨reason, hreason⟩ | ⟨verdicts, hverdicts, -⟩)
  · rw [hreason] at h
    cases h
  · rw [hverdicts] at h
    cases h

/-- A response is handled exactly if `json.loads` has room for its nesting and the parser does not come to an
    answer with mixed citations. -/
theorem handled_iff (batch : SentBatch) (content : ResponseContent) :
    Handled batch content ↔ ¬NestsTooDeep content ∧ ¬ComesToMixed batch content := by
  constructor
  · intro hhandled
    constructor
    · rintro rfl
      exact not_handled_of_other rfl hhandled
    · exact fun hmixed => not_handled_of_other (parse_of_comesToMixed hmixed) hhandled
  · rintro ⟨hread, hclean⟩
    cases hparse : batch.parse content with
    | ok verdicts => exact Or.inr ⟨verdicts, hparse, settlesOwn_of_parse hparse⟩
    | error e =>
      have hraises : RaisesOnly IsContract (batch.parse content) := by
        apply (readDocument_raises hread).bind
        intro entries hdocument
        apply RaisesOnly.bind
        · apply readEntries_raises
          intro before entry after later answer hsplit hbefore hanswer hexpected hnew hmixed
          rw [hsplit] at hdocument
          exact hclean ⟨before, entry, after, later, answer, hdocument, hbefore, hanswer, hexpected, hnew, hmixed⟩
        · exact fun byId _ => RaisesOnly.ok _
      obtain ⟨reason, rfl⟩ := hraises e hparse
      exact Or.inl ⟨reason, hparse⟩

end Response

/-! ## 7. One text with and without a locator -/

section Example

/-- The text of the located fragment once more, with no locator. -/
def unlocatedFragment : SourceFragment where
  fragmentIndex := 1
  contentHash := displacementFragment.contentHash
  text := displacementFragment.text
  fragmentType := none
  locator := none
  fragmentId := none
  indexed := by decide
  hashed := displacementFragment.hashed
  bounded := displacementFragment.bounded
  whole := seatsFragment.whole

def twiceToldSource : ResolvedSourceEvidence where
  sourceId := "forum".toList
  taskId := "task".toList
  url := "forum".toList
  title := "Forum".toList
  domain := "forum".toList
  sourceType := "forum".toList
  sourceStrength := "weak".toList
  sourceDate := none
  sourceVersion := none
  fragments := [displacementFragment, unlocatedFragment]
  facts := []
  named := forumSource.named
  fewFragments := by decide
  fewChars := by decide +kernel
  distinctFragments := by
    apply List.nodup_cons.mpr
    refine ⟨?_, List.nodup_singleton _⟩
    intro hmem
    exact absurd (congrArg Prod.snd (List.mem_singleton.mp hmem)) (Option.some_ne_none _)
  fewFacts := forumSource.fewFacts
  ownFacts := forumSource.ownFacts
  distinctFacts := List.nodup_nil

def twiceToldBatch : SentBatch where
  candidates := [⟨displacementClaim 'c' "forum" 1598, twiceToldSource, ⟨rfl, rfl⟩, Or.inl rfl⟩]
  distinct := List.nodup_singleton _
  consistent := by
    intro c hc c' hc' _
    rw [List.mem_singleton.mp hc, List.mem_singleton.mp hc']

/-- The claim is verified on both fragments. -/
def twiceToldAnswer : ResponseContent :=
  .document [("verdicts".toList, .arr [.obj [("claim_id".toList, .str "c".toList),
    ("verdict".toList, .str "verified".toList),
    ("supporting_fragment_refs".toList, .arr [.str "f0-0".toList, .str "f0-1".toList])]])]

def failsOtherwise {α : Type} : Except Failure α → Bool
  | .error .other => true
  | _ => false

/-- A response that cites both printed fragments raises a `TypeError`. -/
theorem parse_raises_typeError : ¬∀ (batch : SentBatch) (content : ResponseContent), Handled batch content := by
  intro h
  have hraised : failsOtherwise (twiceToldBatch.parse twiceToldAnswer) = true := by decide +kernel
  rcases h twiceToldBatch twiceToldAnswer with ⟨reason, hreason⟩ | ⟨verdicts, hverdicts, -⟩
  · rw [hreason] at hraised
    cases hraised
  · rw [hverdicts] at hraised
    cases hraised

end Example

end Milo.Swarm
