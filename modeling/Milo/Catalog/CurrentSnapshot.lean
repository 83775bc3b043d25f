import Milo.Catalog.RegisterRounds
import Milo.Reasoning.Transition

/-!
# CurrentSnapshot — whether the current catalog follows the register

A content that is captured again is stored under its old snapshot, whose activation is not renewed.  The
rounds that bring new contents, or the content that is current, are followed; the others are not.
-/

namespace Milo.Catalog

open Milo.Reasoning Milo.Python

namespace TozarStore

variable {π : Type} [DecidableEq π] {s : TozarStore π}

/-! ## 1. The newest of dated entries -/

theorem newest_of_max {α : Type} {dated : List (α × ℤ)} {a : α} {instant : ℤ} (hmem : (a, instant) ∈ dated)
    (hmax : ∀ e ∈ dated, e = (a, instant) ∨ e.2 < instant) : newest dated = some a := by
  unfold newest
  cases hargmax : dated.argmax Prod.snd with
  | none =>
    rw [List.argmax_eq_none] at hargmax
    rw [hargmax] at hmem
    cases hmem
  | some e =>
    have he : e ∈ dated := List.argmax_mem hargmax
    have hle : instant ≤ e.2 := List.le_of_mem_argmax hmem hargmax
    rcases hmax e he with rfl | hlt
    · rfl
    · omega

/-- When a snapshot was activated. -/
def activatedAt? (s : TozarStore π) (key : RegisterContent π) : Option ℤ :=
  (s.snapshots.get? key).bind TozarSnapshot.activatedAt

theorem mem_activated {key : RegisterContent π} {instant : ℤ} :
    (key, instant) ∈ s.activated ↔ s.activatedAt? key = some instant := by
  unfold activated activatedAt?
  rw [List.mem_filterMap, Option.bind_eq_some_iff]
  constructor
  · rintro ⟨e, he, hmap⟩
    rcases Option.map_eq_some_iff.mp hmap with ⟨at', hat, heq⟩
    cases heq
    exact ⟨e.2, Dict.get?_eq_some.mpr he, hat⟩
  · rintro ⟨snapshot, hget, hat⟩
    exact ⟨(key, snapshot), Dict.get?_eq_some.mp hget, by rw [hat]; rfl⟩

/-- A snapshot activated after all others is the active one. -/
theorem activeSnapshot_of_last {key : RegisterContent π} {instant : ℤ}
    (hkey : s.activatedAt? key = some instant)
    (hlast : ∀ other instant', s.activatedAt? other = some instant' → other = key ∨ instant' < instant) :
    s.activeSnapshot = some key := by
  unfold activeSnapshot
  apply newest_of_max (mem_activated.mpr hkey)
  rintro ⟨other, instant'⟩ hmem
  have hother := mem_activated.mp hmem
  rcases hlast other instant' hother with rfl | hlt
  · rw [hkey] at hother
    cases hother
    exact Or.inl rfl
  · exact Or.inr hlt

/-! ## 2. What the rounds were -/

end TozarStore

/-- The rounds so far: the versions and the contents captured under them, the last one last. -/
structure SeenRounds (π : Type) where
  versions : List DirectoryContent := []
  contents : List (RegisterContent π) := []

namespace SeenRounds

variable {π : Type} [DecidableEq π]

def last (seen : SeenRounds π) : Option (RegisterContent π) := seen.contents.getLast?

def versionOf (tozar : Text) (r : RegisterRound π) : DirectoryContent := (tozar, r.content.length) :: r.others

def after (tozar : Text) (seen : SeenRounds π) (r : RegisterRound π) : SeenRounds π :=
  if versionOf tozar r ∈ seen.versions then seen
  else ⟨seen.versions ++ [versionOf tozar r], seen.contents ++ [r.content]⟩

/-- Under a version that was captured, the count is that of the last capture; under a new one, the content
    is the last one captured, or was never captured. -/
def MovesOn (tozar : Text) (seen : SeenRounds π) (r : RegisterRound π) : Prop :=
  if versionOf tozar r ∈ seen.versions then seen.last.map List.length = some r.content.length
  else seen.last = some r.content ∨ r.content ∉ seen.contents

end SeenRounds

namespace TozarStore

variable {π : Type} [DecidableEq π] {s : TozarStore π} {tozar : Text} {seen : SeenRounds π}

/-- The rows of a content, with their payloads or without. -/
def rowsOf (content : RegisterContent π) (payloads : Bool) : List (Text × Option π) :=
  content.map fun row => (row.1, if payloads then some row.2 else none)

/-- The snapshot holds its content, is built and archived, and is no skeleton. -/
structure Serves (s : TozarStore π) (key : RegisterContent π) (instant : ℤ) : Prop where
  stored : ∃ snapshot payloads, s.snapshots.get? key = some snapshot ∧
    snapshot.activatedAt = some instant ∧ snapshot.declaredRecordCount = key.length ∧
      snapshot.storedRecordCount = key.length ∧ snapshot.rawRecords = rowsOf key payloads
  built : ∃ build, s.builds.get? key = some build ∧ build.activatedAt = instant ∧
    build.expectedRows = key.length ∧ build.builtRows = key.length ∧ build.completedAt.isSome = true
  archived : s.archives.get? key = some key.length
  readable : (key, CompactionReaders.archive) ∉ s.compactions

/-- The database after rounds that were followed. -/
structure InStep (tozar : Text) (seen : SeenRounds π) (s : TozarStore π) : Prop where
  tozar : s.tozar = tozar
  units : ∀ version, version ∈ seen.versions ↔ (s.units.get? version).isSome = true
  unit : ∀ version unit, s.units.get? version = some unit → unit.status = .captured ∧
    (∃ content ∈ seen.contents, unit.snapshot = some content) ∧ unit.countVerified = some true ∧
      unit.updatedAt ≤ s.now
  known : ∀ key, key ∈ seen.contents ↔ (s.activatedAt? key).isSome = true
  stored : ∀ key, (s.snapshots.get? key).isSome = true → key ∈ seen.contents
  dated : ∀ key instant, s.activatedAt? key = some instant → instant ≤ s.now
  builds : ∀ key build, s.builds.get? key = some build → s.activatedAt? key = some build.activatedAt
  archives : ∀ key lines, s.archives.get? key = some lines → key ∈ seen.contents
  compactions : ∀ c ∈ s.compactions, c.1 ∈ seen.contents
  last : ∀ key, seen.last = some key → ∃ instant, s.Serves key instant ∧
    ∀ other instant', s.activatedAt? other = some instant' → other = key ∨ instant' < instant
  rows : s.lastCapturedRows = seen.last.map List.length

/-- An empty database. -/
def fresh (tozar : Text) (now : ℤ) : TozarStore π where
  tozar
  now
  directory := none
  snapshots := Dict.empty
  builds := Dict.empty
  archives := Dict.empty
  compactions := []
  units := Dict.empty

theorem inStep_fresh (tozar : Text) (now : ℤ) : InStep tozar (⟨[], []⟩ : SeenRounds π) (fresh tozar now) where
  tozar := rfl
  units version := by
    constructor
    · intro h
      cases h
    · intro h
      cases h
  unit _ _ h := by cases h
  known key := by
    constructor
    · intro h
      cases h
    · intro h
      cases h
  stored _ h := by cases h
  dated _ _ h := by cases h
  builds _ _ h := by cases h
  archives _ _ h := by cases h
  compactions _ h := by cases h
  last _ h := by cases h
  rows := rfl

theorem Serves.activatedAt {key : RegisterContent π} {instant : ℤ} (h : s.Serves key instant) :
    s.activatedAt? key = some instant := by
  rcases h.stored with ⟨snapshot, -, hget, hat, -⟩
  unfold activatedAt?
  rw [hget]
  exact hat

theorem InStep.activeSnapshot (h : InStep tozar seen s) : s.activeSnapshot = seen.last := by
  cases hlast : seen.last with
  | none =>
    unfold TozarStore.activeSnapshot newest
    have hnone : s.activated = [] := by
      rw [List.eq_nil_iff_forall_not_mem]
      rintro ⟨key, instant⟩ hmem
      have hkey : key ∈ seen.contents := (h.known key).mpr (by rw [mem_activated.mp hmem]; rfl)
      unfold SeenRounds.last at hlast
      rw [List.getLast?_eq_none_iff] at hlast
      rw [hlast] at hkey
      cases hkey
    rw [hnone]
    rfl
  | some key =>
    rcases h.last key hlast with ⟨instant, hserves, hmax⟩
    exact activeSnapshot_of_last hserves.activatedAt hmax

variable {key : RegisterContent π} {s' : TozarStore π} {snapshot : TozarSnapshot π} {rules : CompactionRules π}

theorem InStep.current (h : InStep tozar seen s) (hlast : seen.last = some key) :
    s.catalogVariantCurrentSnapshot = some key := by
  rcases h.last key hlast with ⟨instant, hserves, hmax⟩
  rcases hserves.built with ⟨build, hbuild, hat, -, -, hcomplete⟩
  have hmem : (key, instant) ∈
      (s.builds.entries.filter fun e => e.2.completedAt.isSome).map fun e => (e.1, e.2.activatedAt) := by
    rw [List.mem_map]
    refine ⟨(key, build), ?_, by rw [hat]⟩
    exact List.mem_filter.mpr ⟨Dict.get?_eq_some.mp hbuild, hcomplete⟩
  unfold catalogVariantCurrentSnapshot
  apply newest_of_max hmem
  intro e he
  rcases List.mem_map.mp he with ⟨⟨other, otherBuild⟩, hentry, rfl⟩
  have hother : s.builds.get? other = some otherBuild :=
    Dict.get?_eq_some.mpr (List.mem_filter.mp hentry).1
  rcases hmax other _ (h.builds other otherBuild hother) with rfl | hlt
  · rw [hbuild] at hother
    cases hother
    left
    rw [hat]
  · exact Or.inr hlt

/-! ## 3. Steps that activate nothing -/

/-- Nothing is activated, and no activation is taken back. -/
def SameActivations (s s' : TozarStore π) : Prop := ∀ key, s'.activatedAt? key = s.activatedAt? key

theorem SameActivations.trans {s'' : TozarStore π} (h : s.SameActivations s') (h' : s'.SameActivations s'') :
    s.SameActivations s'' := by
  intro key
  rw [h' key, h key]

/-- What a compaction did. -/
inductive Compacted (rules : CompactionRules π) (s : TozarStore π) (key : RegisterContent π) :
    TozarStore π → Prop
  | nothing : Compacted rules s key s
  | typed {snapshot : TozarSnapshot π} : s.snapshots.get? key = some snapshot →
      s.activeSnapshot = some key → Compacted rules s key
        { s with
          snapshots := s.snapshots.set key { snapshot with
            rawRecords := compactedRecords rules false snapshot }
          compactions := s.compactions ++ [(key, .variants)] }
  | skeleton {snapshot : TozarSnapshot π} : s.snapshots.get? key = some snapshot →
      s.activeSnapshot ≠ some key → Compacted rules s key
        { s with
          snapshots := s.snapshots.set key { snapshot with
            rawRecords := compactedRecords rules true snapshot }
          builds := s.builds.erase key
          compactions := s.compactions ++ [(key, .archive)] }

theorem compactRegisterSnapshot_compacted (rules : CompactionRules π) (s : TozarStore π)
    (key : RegisterContent π) : Compacted rules s key (s.compactRegisterSnapshot rules key).2 := by
  unfold compactRegisterSnapshot
  cases hget : s.snapshots.get? key with
  | none => exact .nothing
  | some snapshot =>
    dsimp only
    split
    · exact .nothing
    · split
      · exact .nothing
      · cases s.compactionRefusal rules key snapshot with
        | some code => exact .nothing
        | none =>
          by_cases hactive : s.activeSnapshot = some key
          · have htyped : Compacted rules s key _ := .typed hget hactive
            simpa [hactive] using htyped
          · have hskeleton : Compacted rules s key _ := .skeleton hget hactive
            simpa [hactive] using hskeleton

/-- Other rows of a snapshot, under the same activation. -/
theorem activatedAt?_rows (hget : s.snapshots.get? key = some snapshot) (rows : List (Text × Option π))
    (other : RegisterContent π) :
    ((s.snapshots.set key { snapshot with rawRecords := rows }).get? other).bind
      TozarSnapshot.activatedAt = s.activatedAt? other := by
  unfold activatedAt?
  by_cases h : other = key
  · subst h
    rw [Dict.get?_set_self, hget]
    rfl
  · rw [Dict.get?_set_ne _ _ h]

theorem Compacted.sameActivations (h : Compacted rules s key s') : s.SameActivations s' := by
  intro other
  cases h with
  | nothing => rfl
  | typed hget _ => exact activatedAt?_rows hget _ other
  | skeleton hget _ => exact activatedAt?_rows hget _ other

theorem Serves.other {instant : ℤ} (h : s.Serves key instant)
    (hsnapshot : s'.snapshots.get? key = s.snapshots.get? key) (hbuild : s'.builds.get? key = s.builds.get? key)
    (harchive : s'.archives.get? key = s.archives.get? key)
    (hcompactions : (key, CompactionReaders.archive) ∈ s'.compactions →
      (key, CompactionReaders.archive) ∈ s.compactions) :
    s'.Serves key instant where
  stored := by
    rw [hsnapshot]
    exact h.stored
  built := by
    rw [hbuild]
    exact h.built
  archived := by
    rw [harchive]
    exact h.archived
  readable := fun hmem => h.readable (hcompactions hmem)

/-- The rows of the last content lose their payloads at most. -/
theorem Serves.typed {instant : ℤ} (h : s.Serves key instant) (hget : s.snapshots.get? key = some snapshot) :
    Serves { s with
      snapshots := s.snapshots.set key { snapshot with
        rawRecords := compactedRecords rules false snapshot }
      compactions := s.compactions ++ [(key, .variants)] } key instant where
  stored := by
    rcases h.stored with ⟨snapshot', payloads, hget', hat, hdeclared, hstored, hrows⟩
    rw [hget] at hget'
    cases hget'
    refine ⟨_, false, Dict.get?_set_self _ _ _, hat, hdeclared, hstored, ?_⟩
    unfold compactedRecords
    rw [hrows]
    unfold rowsOf
    simp
  built := h.built
  archived := h.archived
  readable := by
    intro hmem
    rcases List.mem_append.mp hmem with hmem | hmem
    · exact h.readable hmem
    · simp at hmem

/-- A step that activates nothing and leaves the last content served. -/
theorem InStep.keeps (h : InStep tozar seen s) (hsame : s.SameActivations s') (htozar : s'.tozar = s.tozar)
    (hunits : s'.units = s.units) (hnow : s'.now = s.now) (harchives : s'.archives = s.archives)
    (hstored : ∀ key, (s'.snapshots.get? key).isSome = true → key ∈ seen.contents)
    (hbuilds : ∀ key build, s'.builds.get? key = some build → s.builds.get? key = some build)
    (hcompactions : ∀ c ∈ s'.compactions, c.1 ∈ seen.contents)
    (hserves : ∀ key instant, seen.last = some key → s.Serves key instant → s'.Serves key instant) :
    InStep tozar seen s' where
  tozar := htozar.trans h.tozar
  units := by
    rw [hunits]
    exact h.units
  unit := by
    rw [hunits, hnow]
    exact h.unit
  known key := by
    rw [hsame key]
    exact h.known key
  stored := hstored
  dated key instant hat := by
    rw [hsame key] at hat
    rw [hnow]
    exact h.dated key instant hat
  builds key build hbuild := by
    rw [hsame key]
    exact h.builds key build (hbuilds key build hbuild)
  archives := by
    rw [harchives]
    exact h.archives
  compactions := hcompactions
  last key hlast := by
    rcases h.last key hlast with ⟨instant, hserved, hmax⟩
    refine ⟨instant, hserves key instant hlast hserved, ?_⟩
    intro other instant' hother
    rw [hsame other] at hother
    exact hmax other instant' hother
  rows := by
    rw [← h.rows]
    unfold lastCapturedRows
    rw [hunits]

theorem InStep.stored_set (h : InStep tozar seen s) {snapshot' : TozarSnapshot π}
    (hget : s.snapshots.get? key = some snapshot) (other : RegisterContent π)
    (hother : ((s.snapshots.set key snapshot').get? other).isSome = true) : other ∈ seen.contents := by
  by_cases heq : other = key
  · subst heq
    exact h.stored other (by rw [hget]; rfl)
  · rw [Dict.get?_set_ne _ _ heq] at hother
    exact h.stored other hother

theorem InStep.compactions_append (h : InStep tozar seen s) (hget : s.snapshots.get? key = some snapshot)
    {readers : CompactionReaders} (c : RegisterContent π × CompactionReaders)
    (hc : c ∈ s.compactions ++ [(key, readers)]) : c.1 ∈ seen.contents := by
  rcases List.mem_append.mp hc with hc | hc
  · exact h.compactions c hc
  · rw [List.mem_singleton.mp hc]
    exact h.stored key (by rw [hget]; rfl)

/-- A compaction reduces only what is not the last content to a skeleton. -/
theorem InStep.compacted (h : InStep tozar seen s) (hcompacted : Compacted rules s key s') :
    InStep tozar seen s' := by
  have hsame := hcompacted.sameActivations
  cases hcompacted with
  | nothing => exact h
  | @typed snapshot hget hactive =>
    apply h.keeps hsame rfl rfl rfl rfl (h.stored_set hget) (fun _ _ hbuild => hbuild)
      (h.compactions_append hget)
    intro last instant hlast hserves
    rw [h.activeSnapshot, hlast] at hactive
    cases hactive
    exact hserves.typed hget
  | @skeleton snapshot hget hactive =>
    apply h.keeps hsame rfl rfl rfl rfl (h.stored_set hget) ?_ (h.compactions_append hget)
    · intro last instant hlast hserves
      have hne : last ≠ key := by
        intro heq
        subst heq
        exact hactive (h.activeSnapshot.trans hlast)
      refine hserves.other (Dict.get?_set_ne _ _ hne) (Dict.get?_erase_ne _ hne) rfl ?_
      intro hmem
      rcases List.mem_append.mp hmem with hmem | hmem
      · exact hmem
      · cases List.mem_singleton.mp hmem
        exact absurd rfl hne
    · intro other build hother
      by_cases heq : other = key
      · subst heq
        rw [Dict.get?_erase_self] at hother
        cases hother
      · rw [Dict.get?_erase_ne _ heq] at hother
        exact hother

/-- What every compaction keeps, the compactions after a build keep. -/
theorem keeps_compactAfterBuild {P : TozarStore π → Prop}
    (hkeeps : ∀ (s : TozarStore π) key, P s → P (s.compactRegisterSnapshot rules key).2) (h : P s)
    (key : RegisterContent π) (build : BuildStatus) : P (s.compactAfterBuild rules key build) := by
  have hmany : ∀ (olders : List (RegisterContent π)) (s : TozarStore π), P s →
      P (olders.foldl (fun s older => (s.compactRegisterSnapshot rules older).2) s) := by
    intro olders
    induction olders with
    | nil => exact fun s h => h
    | cons older olders ih => exact fun s h => ih _ (hkeeps s older h)
  unfold compactAfterBuild
  split
  · exact h
  · have hfirst := hkeeps s key h
    generalize s.compactRegisterSnapshot rules key = found at hfirst ⊢
    rcases found with ⟨status, s'⟩
    cases status with
    | refused code => exact hfirst
    | compacted => exact hmany _ _ hfirst
    | unchanged => exact hmany _ _ hfirst

theorem sameActivations_compactAfterBuild (rules : CompactionRules π) (s : TozarStore π)
    (key : RegisterContent π) (build : BuildStatus) :
    s.SameActivations (s.compactAfterBuild rules key build) := by
  apply keeps_compactAfterBuild
  · intro s' other h
    exact h.trans (compactRegisterSnapshot_compacted rules s' other).sameActivations
  · exact fun _ => rfl

theorem InStep.compactAfterBuild (h : InStep tozar seen s) (rules : CompactionRules π) (key : RegisterContent π)
    (build : BuildStatus) : InStep tozar seen (s.compactAfterBuild rules key build) := by
  apply keeps_compactAfterBuild
  · intro s' other h'
    exact h'.compacted (compactRegisterSnapshot_compacted rules s' other)
  · exact h

end TozarStore

end Milo.Catalog
