import Milo.Reasoning.Action
import Milo.Reasoning.Dependency
import Milo.Reasoning.Dict

/-!
# GraphSearch — the longest chain of dependencies, and everything an item needs

Two searches of a graph given by its lists of dependencies.  `depthFrom` finds the length of the longest
chain from an item, depth first, remembers it and notices when it comes back to an item it is still
visiting.  `reach` collects what an item needs from a stack of items still to be looked at.  Both are
given fuel; for a finite graph a bound is known.
-/

namespace Milo.Reasoning

universe u

variable {α : Type u} {deps : α → List α} {a b : α} {height : ℕ}

/-! ## 1. Chains -/

/-- Each item of the list depends on the next. -/
def IsChainOf (deps : α → List α) (items : List α) : Prop := items.IsChain (DependsOn deps)

/-- The longest chain from `a` has `height` items. -/
structure HasHeight (deps : α → List α) (a : α) (height : ℕ) : Prop where
  bound : ∀ rest, IsChainOf deps (a :: rest) → (a :: rest).length ≤ height
  reached : ∃ rest, IsChainOf deps (a :: rest) ∧ (a :: rest).length = height

theorem isChainOf_cons {rest : List α} :
    IsChainOf deps (a :: rest) ↔ rest = [] ∨ ∃ b more, rest = b :: more ∧ b ∈ deps a ∧ IsChainOf deps rest := by
  unfold IsChainOf
  cases rest with
  | nil => simp
  | cons b more =>
    rw [List.isChain_cons_cons]
    constructor
    · exact fun h => Or.inr ⟨b, more, rfl, h.1, h.2⟩
    · rintro (hnil | ⟨b', more', heq, hdep, hchain⟩)
      · cases hnil
      · cases heq
        exact ⟨hdep, hchain⟩

/-- The height of an item is one more than the greatest height among its dependencies. -/
theorem hasHeight_succ (hall : ∀ b ∈ deps a, ∃ d, HasHeight deps b d ∧ d ≤ height)
    (hmost : height = 0 ∨ ∃ b ∈ deps a, HasHeight deps b height) : HasHeight deps a (1 + height) where
  bound := by
    intro rest hchain
    rcases isChainOf_cons.mp hchain with rfl | ⟨b, more, rfl, hdep, hrest⟩
    · rw [List.length_singleton]
      omega
    · obtain ⟨d, hd, hle⟩ := hall b hdep
      have hbound := hd.bound more hrest
      rw [List.length_cons]
      omega
  reached := by
    rcases hmost with rfl | ⟨b, hdep, hb⟩
    · exact ⟨[], isChainOf_cons.mpr (Or.inl rfl), rfl⟩
    · obtain ⟨more, hchain, hlength⟩ := hb.reached
      refine ⟨b :: more, isChainOf_cons.mpr (Or.inr ⟨b, more, rfl, hdep, hchain⟩), ?_⟩
      rw [List.length_cons, hlength]
      omega

variable {nodes : List α}

theorem mem_of_isChainOf (hclosed : ∀ a ∈ nodes, ∀ b ∈ deps a, b ∈ nodes) (ha : a ∈ nodes) {rest : List α}
    (hchain : IsChainOf deps (a :: rest)) : ∀ b ∈ a :: rest, b ∈ nodes := by
  induction rest generalizing a with
  | nil =>
    intro b hb
    rw [List.mem_singleton.mp hb]
    exact ha
  | cons c more ih =>
    have hdep := (List.isChain_cons_cons.mp hchain).1
    have hmore := ih (hclosed a ha c hdep) (List.isChain_cons_cons.mp hchain).2
    exact List.forall_mem_cons.mpr ⟨ha, hmore⟩

theorem exists_longer (h : Needs deps a b) {rest : List α} (hchain : IsChainOf deps (b :: rest)) :
    ∃ more, IsChainOf deps (a :: more) ∧ (b :: rest).length < (a :: more).length := by
  induction h using Relation.TransGen.head_induction_on with
  | single hdep =>
    refine ⟨b :: rest, isChainOf_cons.mpr (Or.inr ⟨b, rest, rfl, hdep, hchain⟩), ?_⟩
    exact Nat.lt_succ_self _
  | @head c d hdep _ ih =>
    obtain ⟨more, hmore, hlonger⟩ := ih
    refine ⟨d :: more, isChainOf_cons.mpr (Or.inr ⟨d, more, rfl, hdep, hmore⟩), ?_⟩
    exact hlonger.trans (Nat.lt_succ_self _)

theorem HasHeight.not_needs (h : HasHeight deps a height) : ¬Needs deps a a := by
  intro hcycle
  obtain ⟨rest, hchain, hlength⟩ := h.reached
  obtain ⟨more, hmore, hlonger⟩ := exists_longer hcycle hchain
  have hbound := h.bound more hmore
  omega

/-! ## 2. Depth first -/

variable [DecidableEq α]

/-- The items being visited, the last one first, and the heights found so far. -/
structure DepthState (α : Type u) [DecidableEq α] where
  visiting : List α
  depths : Dict α ℕ

inductive DepthError
  | cycle
  | outOfFuel
  deriving DecidableEq, Repr

/-- The greatest answer of a list of visits. -/
def depthAll (visit : α → DepthState α → Except DepthError (ℕ × DepthState α)) :
    List α → ℕ → DepthState α → Except DepthError (ℕ × DepthState α)
  | [], best, s => .ok (best, s)
  | b :: rest, best, s => do
    let (value, s') ← visit b s
    depthAll visit rest (max best value) s'

/-- The height of an item, by a search that remembers heights and refuses to visit an item twice at a
    time. -/
def depthFrom (deps : α → List α) : ℕ → α → DepthState α → Except DepthError (ℕ × DepthState α)
  | 0, _, _ => .error .outOfFuel
  | fuel + 1, a, s =>
    if a ∈ s.visiting then .error .cycle
    else
      match s.depths.get? a with
      | some value => .ok (value, s)
      | none => do
        let (best, s') ← depthAll (depthFrom deps fuel) (deps a) 0 { s with visiting := a :: s.visiting }
        pure (1 + best, { visiting := s'.visiting.erase a, depths := s'.depths.set a (1 + best) })

/-- Every height that is remembered is right. -/
def Remembers (deps : α → List α) (s : DepthState α) : Prop :=
  ∀ a d, s.depths.get? a = some d → HasHeight deps a d

/-- Each item being visited depends on the one visited after it, and the last one on `a`. -/
def Stacked (deps : α → List α) (a : α) : List α → Prop
  | [] => True
  | b :: rest => a ∈ deps b ∧ Stacked deps b rest

omit [DecidableEq α] in
theorem Stacked.needs {visiting : List α} (h : Stacked deps a visiting) (hb : b ∈ visiting) : Needs deps b a := by
  induction visiting generalizing a with
  | nil => cases hb
  | cons c rest ih =>
    have hlast : Needs deps c a := Relation.TransGen.single h.1
    rcases List.mem_cons.mp hb with rfl | hb
    · exact hlast
    · exact (ih h.2 hb).trans hlast

variable {visit : α → DepthState α → Except DepthError (ℕ × DepthState α)} {s s' : DepthState α}
  {items : List α} {best value fuel : ℕ} {J : DepthState α → Prop} {P : α → ℕ → Prop}

/-- What each visit keeps and finds, all of them keep and find. -/
theorem depthAll_ok
    (hvisit : ∀ b ∈ items, ∀ s d s', visit b s = .ok (d, s') → J s → J s' ∧ P b d)
    (h : depthAll visit items best s = .ok (value, s')) (hJ : J s) :
    J s' ∧ best ≤ value ∧ (∀ b ∈ items, ∃ d, P b d ∧ d ≤ value) ∧ (value = best ∨ ∃ b ∈ items, P b value) := by
  induction items generalizing best s with
  | nil =>
    cases h
    exact ⟨hJ, le_refl _, fun b hb => absurd hb List.not_mem_nil, Or.inl rfl⟩
  | cons b rest ih =>
    obtain ⟨⟨d, s1⟩, hb, hrest⟩ := except_bind_eq_ok.mp h
    obtain ⟨hJ1, hPb⟩ := hvisit b List.mem_cons_self s d s1 hb hJ
    obtain ⟨hJ', hle, hall, hmost⟩ :=
      ih (fun c hc => hvisit c (List.mem_cons_of_mem _ hc)) hrest hJ1
    refine ⟨hJ', le_trans (le_max_left _ _) hle, ?_, ?_⟩
    · intro c hc
      rcases List.mem_cons.mp hc with rfl | hc
      · exact ⟨d, hPb, le_trans (le_max_right _ _) hle⟩
      · exact hall c hc
    · rcases hmost with heq | ⟨c, hc, hPc⟩
      · rcases max_choice best d with hmax | hmax
        · left
          rw [heq, hmax]
        · right
          refine ⟨b, List.mem_cons_self, ?_⟩
          rw [heq, hmax]
          exact hPb
      · exact Or.inr ⟨c, List.mem_cons_of_mem _ hc, hPc⟩

theorem depthAll_error {e : DepthError} (hvisit : ∀ b ∈ items, ∀ s d s', visit b s = .ok (d, s') → J s → J s')
    (h : depthAll visit items best s = .error e) (hJ : J s) :
    ∃ b ∈ items, ∃ s, J s ∧ visit b s = .error e := by
  induction items generalizing best s with
  | nil => cases h
  | cons b rest ih =>
    cases hb : visit b s with
    | error e' =>
      have heq : depthAll visit (b :: rest) best s = .error e' := by
        unfold depthAll
        rw [hb]
        rfl
      rw [heq] at h
      cases h
      exact ⟨b, List.mem_cons_self, s, hJ, hb⟩
    | ok r =>
      have heq : depthAll visit (b :: rest) best s = depthAll visit rest (max best r.1) r.2 := by
        rw [depthAll, hb]
        rfl
      rw [heq] at h
      obtain ⟨c, hc, s1, hJ1, herror⟩ := ih (fun c hc => hvisit c (List.mem_cons_of_mem _ hc)) h
        (hvisit b List.mem_cons_self s r.1 r.2 hb hJ)
      exact ⟨c, List.mem_cons_of_mem _ hc, s1, hJ1, herror⟩

/-- What a search that succeeds does: it answers from memory, or visits the dependencies. -/
theorem depthFrom_ok_cases (h : depthFrom deps (fuel + 1) a s = .ok (value, s')) :
    (s.depths.get? a = some value ∧ s' = s) ∨
      ∃ best s1, a ∉ s.visiting ∧
        depthAll (depthFrom deps fuel) (deps a) 0 { s with visiting := a :: s.visiting } = .ok (best, s1) ∧
        value = 1 + best ∧ s' = { visiting := s1.visiting.erase a, depths := s1.depths.set a (1 + best) } := by
  rw [depthFrom] at h
  split at h
  · cases h
  · rename_i hnew
    split at h
    · rename_i hknown
      cases h
      exact Or.inl ⟨hknown, rfl⟩
    · obtain ⟨⟨best, s1⟩, hall, hpure⟩ := except_bind_eq_ok.mp h
      cases hpure
      exact Or.inr ⟨best, s1, hnew, hall, rfl, rfl⟩

theorem depthFrom_error_cases {e : DepthError} (h : depthFrom deps (fuel + 1) a s = .error e) :
    (a ∈ s.visiting ∧ e = .cycle) ∨
      (a ∉ s.visiting ∧ depthAll (depthFrom deps fuel) (deps a) 0
        { s with visiting := a :: s.visiting } = .error e) := by
  rw [depthFrom] at h
  split at h
  · rename_i hvisited
    cases h
    exact Or.inl ⟨hvisited, rfl⟩
  · rename_i hnew
    split at h
    · cases h
    · right
      refine ⟨hnew, ?_⟩
      cases hall : depthAll (depthFrom deps fuel) (deps a) 0 { s with visiting := a :: s.visiting } with
      | error e' =>
        rw [hall] at h
        cases h
        rfl
      | ok r =>
        rw [hall] at h
        cases h

/-- A search leaves the items being visited as they were. -/
theorem depthFrom_visiting (h : depthFrom deps fuel a s = .ok (value, s')) : s'.visiting = s.visiting := by
  induction fuel generalizing a s value s' with
  | zero => cases h
  | succ fuel ih =>
    rcases depthFrom_ok_cases h with ⟨_, rfl⟩ | ⟨best, s1, _, hall, _, rfl⟩
    · rfl
    · have hkept := (depthAll_ok (J := fun t => t.visiting = a :: s.visiting) (P := fun _ _ => True)
        (fun b _ t d t' hb ht => ⟨(ih hb).trans ht, trivial⟩) hall rfl).1
      show s1.visiting.erase a = s.visiting
      rw [hkept, List.erase_cons_head]

theorem depthFrom_hasHeight (h : depthFrom deps fuel a s = .ok (value, s')) (hs : Remembers deps s) :
    Remembers deps s' ∧ HasHeight deps a value := by
  induction fuel generalizing a s value s' with
  | zero => cases h
  | succ fuel ih =>
    rcases depthFrom_ok_cases h with ⟨hknown, rfl⟩ | ⟨best, s1, _, hall, rfl, rfl⟩
    · exact ⟨hs, hs a value hknown⟩
    · obtain ⟨hs1, _, hheights, hmost⟩ :=
        depthAll_ok (J := Remembers deps) (P := HasHeight deps) (fun b _ t d t' hb ht => ih hb ht) hall hs
      have hheight : HasHeight deps a (1 + best) := hasHeight_succ hheights hmost
      refine ⟨?_, hheight⟩
      intro c d hc
      by_cases hca : c = a
      · rw [hca, Dict.get?_set_self, Option.some.injEq] at hc
        rw [hca, ← hc]
        exact hheight
      · rw [Dict.get?_set_ne _ _ hca] at hc
        exact hs1 c d hc

/-- A search that comes back to an item it is visiting has found a cycle. -/
theorem depthFrom_cycle (h : depthFrom deps fuel a s = .error .cycle) (hstack : Stacked deps a s.visiting) :
    ∃ c, Needs deps c c := by
  induction fuel generalizing a s with
  | zero => cases h
  | succ fuel ih =>
    rcases depthFrom_error_cases h with ⟨hvisited, _⟩ | ⟨_, hall⟩
    · exact ⟨a, hstack.needs hvisited⟩
    · obtain ⟨b, hb, t, ht, herror⟩ := depthAll_error (J := fun t => t.visiting = a :: s.visiting)
        (fun b _ t d t' hb ht => (depthFrom_visiting hb).trans ht) hall rfl
      apply ih herror
      rw [ht]
      exact ⟨hb, hstack⟩

/-- In a finite graph a search has enough fuel for the items it is not visiting yet. -/
theorem depthFrom_enough (hclosed : ∀ a ∈ nodes, ∀ b ∈ deps a, b ∈ nodes) (ha : a ∈ nodes)
    (hvisiting : ∀ b ∈ s.visiting, b ∈ nodes) (hnodup : s.visiting.Nodup)
    (hfuel : nodes.length < fuel + s.visiting.length) : depthFrom deps fuel a s ≠ .error .outOfFuel := by
  induction fuel generalizing a s with
  | zero =>
    have hle := (List.subperm_of_subset hnodup hvisiting).length_le
    omega
  | succ fuel ih =>
    intro h
    rcases depthFrom_error_cases h with ⟨_, heq⟩ | ⟨hnew, hall⟩
    · cases heq
    · obtain ⟨b, hb, t, ht, herror⟩ := depthAll_error (J := fun t => t.visiting = a :: s.visiting)
        (fun b _ t d t' hb ht => (depthFrom_visiting hb).trans ht) hall rfl
      refine ih (hclosed a ha b hb) ?_ ?_ ?_ herror
      · rw [ht]
        intro c hc
        rcases List.mem_cons.mp hc with rfl | hc
        · exact ha
        · exact hvisiting c hc
      · rw [ht]
        exact List.nodup_cons.mpr ⟨hnew, hnodup⟩
      · rw [ht, List.length_cons]
        omega

/-! ## 3. Everything an item needs -/

/-- Look at the items of a stack, each once, and put what they depend on upon it. -/
def reach (deps : α → List α) : ℕ → List α → List α → Option (List α)
  | _, [], found => some found
  | 0, _ :: _, _ => none
  | fuel + 1, b :: pending, found =>
    if b ∈ found then reach deps fuel pending found
    else reach deps fuel ((deps b).reverse ++ pending) (b :: found)

/-- The stack and what is found hold nothing but what `a` needs, and all of what is found leads to. -/
structure Reaching (deps : α → List α) (a : α) (pending found : List α) : Prop where
  needed : ∀ b, b ∈ pending ∨ b ∈ found → Needs deps a b
  start : ∀ b ∈ deps a, b ∈ found ∨ b ∈ pending
  closed : ∀ c ∈ found, ∀ b ∈ deps c, b ∈ found ∨ b ∈ pending

omit [DecidableEq α] in
theorem reaching_start (deps : α → List α) (a : α) : Reaching deps a (deps a).reverse [] where
  needed := by
    rintro b (hb | hb)
    · exact Relation.TransGen.single (List.mem_reverse.mp hb)
    · cases hb
  start := fun b hb => Or.inr (List.mem_reverse.mpr hb)
  closed := fun c hc => absurd hc List.not_mem_nil

variable {pending found out : List α}

omit [DecidableEq α] in
theorem Reaching.skip (h : Reaching deps a (b :: pending) found) (hb : b ∈ found) :
    Reaching deps a pending found := by
  have hkept : ∀ c, c ∈ found ∨ c ∈ b :: pending → c ∈ found ∨ c ∈ pending := by
    rintro c (hc | hc)
    · exact Or.inl hc
    · rcases List.mem_cons.mp hc with rfl | hc
      · exact Or.inl hb
      · exact Or.inr hc
  constructor
  · rintro c (hc | hc)
    · exact h.needed c (Or.inl (List.mem_cons_of_mem _ hc))
    · exact h.needed c (Or.inr hc)
  · exact fun c hc => hkept c (h.start c hc)
  · exact fun c hc d hd => hkept d (h.closed c hc d hd)

omit [DecidableEq α] in
theorem Reaching.look (h : Reaching deps a (b :: pending) found) :
    Reaching deps a ((deps b).reverse ++ pending) (b :: found) := by
  have hb := h.needed b (Or.inl List.mem_cons_self)
  have hkept : ∀ c, c ∈ found ∨ c ∈ b :: pending → c ∈ b :: found ∨ c ∈ (deps b).reverse ++ pending := by
    rintro c (hc | hc)
    · exact Or.inl (List.mem_cons_of_mem _ hc)
    · rcases List.mem_cons.mp hc with rfl | hc
      · exact Or.inl List.mem_cons_self
      · exact Or.inr (List.mem_append_right _ hc)
  constructor
  · rintro c (hc | hc)
    · rcases List.mem_append.mp hc with hc | hc
      · exact hb.tail (List.mem_reverse.mp hc)
      · exact h.needed c (Or.inl (List.mem_cons_of_mem _ hc))
    · rcases List.mem_cons.mp hc with rfl | hc
      · exact hb
      · exact h.needed c (Or.inr hc)
  · exact fun c hc => hkept c (h.start c hc)
  · intro c hc d hd
    rcases List.mem_cons.mp hc with rfl | hc
    · exact Or.inr (List.mem_append_left _ (List.mem_reverse.mpr hd))
    · exact hkept d (h.closed c hc d hd)

omit [DecidableEq α] in
theorem Reaching.mem_iff (h : Reaching deps a [] found) : b ∈ found ↔ Needs deps a b := by
  constructor
  · exact fun hb => h.needed b (Or.inr hb)
  · intro hb
    induction hb with
    | single hdep => exact (h.start _ hdep).resolve_right List.not_mem_nil
    | tail _ hdep ih => exact (h.closed _ ih _ hdep).resolve_right List.not_mem_nil

theorem mem_reach_iff (h : Reaching deps a pending found) (hout : reach deps fuel pending found = some out) :
    b ∈ out ↔ Needs deps a b := by
  induction fuel generalizing pending found with
  | zero =>
    cases pending with
    | nil =>
      cases hout
      exact h.mem_iff
    | cons c pending => cases hout
  | succ fuel ih =>
    cases pending with
    | nil =>
      cases hout
      exact h.mem_iff
    | cons c pending =>
      rw [reach] at hout
      split at hout
      · rename_i hc
        exact ih (h.skip hc) hout
      · exact ih h.look hout

/-- The dependencies of the nodes still to be looked at. -/
def unlooked (deps : α → List α) (nodes found : List α) : ℕ :=
  ((nodes.filter fun b => decide (b ∉ found)).map fun b => (deps b).length).sum

theorem unlooked_cons (hnodup : nodes.Nodup) (hb : b ∈ nodes) (hnew : b ∉ found) :
    unlooked deps nodes found = (deps b).length + unlooked deps nodes (b :: found) := by
  have hperm : (nodes.filter fun c => decide (c ∉ found)).Perm
      (b :: nodes.filter fun c => decide (c ∉ b :: found)) := by
    apply (List.perm_ext_iff_of_nodup (hnodup.filter _) _).mpr
    · intro c
      rw [List.mem_cons, List.mem_filter, List.mem_filter, decide_eq_true_eq, decide_eq_true_eq,
        List.mem_cons, not_or]
      constructor
      · rintro ⟨hc, hout⟩
        by_cases heq : c = b
        · exact Or.inl heq
        · exact Or.inr ⟨hc, heq, hout⟩
      · rintro (rfl | ⟨hc, _, hout⟩)
        · exact ⟨hb, hnew⟩
        · exact ⟨hc, hout⟩
    · rw [List.nodup_cons]
      refine ⟨?_, hnodup.filter _⟩
      rw [List.mem_filter, decide_eq_true_eq]
      exact fun h => h.2 List.mem_cons_self
  unfold unlooked
  rw [(hperm.map _).sum_eq, List.map_cons, List.sum_cons]

/-- Each look takes an item from the stack or pays for what it puts upon it. -/
theorem reach_isSome (hnodup : nodes.Nodup) (hclosed : ∀ a ∈ nodes, ∀ b ∈ deps a, b ∈ nodes)
    (hpending : ∀ b ∈ pending, b ∈ nodes) (hfuel : pending.length + unlooked deps nodes found ≤ fuel) :
    ∃ out, reach deps fuel pending found = some out := by
  induction fuel generalizing pending found with
  | zero =>
    cases pending with
    | nil => exact ⟨found, rfl⟩
    | cons c pending =>
      rw [List.length_cons] at hfuel
      omega
  | succ fuel ih =>
    cases pending with
    | nil => exact ⟨found, rfl⟩
    | cons c pending =>
      have hc := hpending c List.mem_cons_self
      have hrest : ∀ b ∈ pending, b ∈ nodes := fun b hb => hpending b (List.mem_cons_of_mem _ hb)
      rw [List.length_cons] at hfuel
      rw [reach]
      split
      · exact ih hrest (by omega)
      · rename_i hnew
        have hpaid : unlooked deps nodes found = (deps c).length + unlooked deps nodes (c :: found) :=
          unlooked_cons hnodup hc hnew
        apply ih
        · intro b hb
          rcases List.mem_append.mp hb with hb | hb
          · exact hclosed c hc b (List.mem_reverse.mp hb)
          · exact hrest b hb
        · rw [List.length_append, List.length_reverse]
          omega

end Milo.Reasoning
