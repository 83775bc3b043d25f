import Milo.Catalog.CurrentSnapshot

/-!
# RegisterFollowed — the rounds after which the catalog is the register

A round captures a content that is new or current, and is then followed; a content of an earlier round
finds its snapshot activated before the current one.
-/

namespace Milo.Catalog

open Milo.Reasoning Milo.Python

namespace TozarStore

variable {π : Type} [DecidableEq π] {s : TozarStore π} {tozar : Text} {seen : SeenRounds π}

/-! ## 1. How a round begins -/

/-- The database once the round's directory is recorded. -/
def begun (s : TozarStore π) (r : RegisterRound π) : TozarStore π :=
  { s with now := s.now + r.elapsed + 1, directory := some (s.directoryOf r) }

omit [DecidableEq π] in
theorem recordRegisterDirectory_eq (s : TozarStore π) (found : DirectoryContent) :
    s.recordRegisterDirectory found = { s with directory := some found } := by
  unfold recordRegisterDirectory
  split
  · rename_i h
    rw [← h]
  · rfl

omit [DecidableEq π] in
theorem requestRegisterCapture_begun (s : TozarStore π) (r : RegisterRound π) :
    (s.begun r).requestRegisterCapture (s.directoryOf r) =
      match s.units.get? (s.directoryOf r) with
      | some unit =>
        if unit.status = .captured then .ok (false, s.begun r)
        else .ok (true, (s.begun r).recordUnit (s.directoryOf r)
          { status := .requested, updatedAt := (s.begun r).now })
      | none => .ok (true, (s.begun r).recordUnit (s.directoryOf r)
          { status := .requested, updatedAt := (s.begun r).now }) := by
  have hlookup : (s.directoryOf r).lookup (s.begun r).tozar = some r.content.length :=
    List.lookup_cons_self
  unfold requestRegisterCapture
  rw [hlookup]
  have hfresh : ¬ ((s.begun r).directory ≠ some (s.directoryOf r)) := fun h => h rfl
  simp only [refuseIf, hfresh, required]
  have hunits : (s.begun r).units = s.units := rfl
  rcases hunit : s.units.get? (s.directoryOf r) with _ | unit
  · simp only [hunits, hunit]
    rfl
  · simp only [hunits, hunit]
    by_cases hcaptured : unit.status = .captured
    · rw [if_pos hcaptured, if_pos hcaptured]
      rfl
    · rw [if_neg hcaptured, if_neg hcaptured]
      rfl

/-- The state a capture of the round's content starts in. -/
def capturing (s : TozarStore π) (r : RegisterRound π) : TozarStore π :=
  ((s.begun r).recordUnit (s.directoryOf r) { status := .requested, updatedAt := (s.begun r).now }).recordUnit
    (s.directoryOf r) { status := .capturing, updatedAt := (s.begun r).now }

theorem round_eq (s : TozarStore π) (r : RegisterRound π) :
    s.round r = match (s.begun r).requestRegisterCapture (s.directoryOf r) with
      | .error code => (.refused code, s.begun r)
      | .ok (false, found) => (.existing, found)
      | .ok (true, claimed) =>
        match claimed.captureUnit r.rules (s.directoryOf r) r.content with
        | (.captured, s) => (.captured, s)
        | (.failed code, s) => (.failed code, s) := by
  have hbegun : ({ s with now := s.now + r.elapsed + 1 } : TozarStore π).recordRegisterDirectory
      (s.directoryOf r) = s.begun r := recordRegisterDirectory_eq _ _
  unfold round
  dsimp only
  generalize hstate : ({ s with now := s.now + r.elapsed + 1 } : TozarStore π).recordRegisterDirectory
    (s.directoryOf r) = state
  obtain rfl : state = s.begun r := hstate.symm.trans hbegun
  generalize (s.begun r).requestRegisterCapture (s.directoryOf r) = request
  rcases request with code | ⟨_ | _, s'⟩
  · rfl
  · rfl
  · rcases hcapture : s'.captureUnit r.rules (s.directoryOf r) r.content with ⟨_ | code, s''⟩
    · simp only [hcapture]
    · simp only [hcapture]

theorem round_existing {unit : TozarUnit π} (r : RegisterRound π)
    (hunit : s.units.get? (s.directoryOf r) = some unit) (hcaptured : unit.status = .captured) :
    s.round r = (.existing, s.begun r) := by
  rw [round_eq, requestRegisterCapture_begun, hunit]
  dsimp only
  rw [if_pos hcaptured]

/-- The unit of a captured content. -/
def capturedUnit (now : ℤ) (content : RegisterContent π) : TozarUnit π where
  status := .captured
  snapshot := some content
  capturedRows := some content.length
  countVerified := some true
  updatedAt := now

/-- What follows a capture that took the content. -/
def finished (s : TozarStore π) (r : RegisterRound π) (version : DirectoryContent) : TozarStore π :=
  let recorded := s.recordUnit version (capturedUnit s.now r.content)
  let (build, built) := recorded.buildAfterCapture r.content
  built.compactAfterBuild r.rules r.content build

variable {r : RegisterRound π} {s' : TozarStore π} {version : DirectoryContent} {content key : RegisterContent π}

theorem captureUnit_captured
    (hingest : (s.recordUnit version { status := .capturing, updatedAt := s.now }).ingestCapture r.content = .ok s')
    (hcount : s'.countRawRecords r.content = r.content.length) :
    s.captureUnit r.rules version r.content =
      (.captured, (s'.ensureArchive r.content r.content).finished r version) := by
  have hverify : s'.verifyCount r.content r.content.length = .ok r.content.length := if_pos hcount
  unfold captureUnit
  simp only [hingest, hverify, bind, Except.bind]
  rfl

theorem captureUnit_mismatched
    (hingest : (s.recordUnit version { status := .capturing, updatedAt := s.now }).ingestCapture r.content = .ok s')
    (hcount : s'.countRawRecords r.content ≠ r.content.length) :
    (s.captureUnit r.rules version r.content).1 = .failed countMismatch := by
  have hverify : s'.verifyCount r.content r.content.length = .error ⟨countMismatch, s'⟩ := if_neg hcount
  unfold captureUnit
  simp only [hingest, hverify, bind, Except.bind]

theorem round_claimed (r : RegisterRound π) (hunit : s.units.get? (s.directoryOf r) = none) :
    s.round r = match ((s.begun r).recordUnit (s.directoryOf r)
        { status := .requested, updatedAt := (s.begun r).now }).captureUnit r.rules (s.directoryOf r)
          r.content with
      | (.captured, s) => (.captured, s)
      | (.failed code, s) => (.failed code, s) := by
  rw [round_eq, requestRegisterCapture_begun, hunit]

theorem round_captured (r : RegisterRound π) (hunit : s.units.get? (s.directoryOf r) = none)
    (hingest : (s.capturing r).ingestCapture r.content = .ok s')
    (hcount : s'.countRawRecords r.content = r.content.length) :
    s.round r = (.captured, (s'.ensureArchive r.content r.content).finished r (s.directoryOf r)) := by
  rw [round_claimed r hunit, captureUnit_captured hingest hcount]

theorem round_mismatched (r : RegisterRound π) (hunit : s.units.get? (s.directoryOf r) = none)
    (hingest : (s.capturing r).ingestCapture r.content = .ok s')
    (hcount : s'.countRawRecords r.content ≠ r.content.length) : (s.round r).1 = .failed countMismatch := by
  have hfailed := captureUnit_mismatched hingest hcount
  rw [round_claimed r hunit]
  generalize captureUnit _ r.rules (s.directoryOf r) r.content = outcome at hfailed ⊢
  rcases outcome with ⟨_ | code, s''⟩
  · cases hfailed
  · cases hfailed
    rfl

/-! ## 2. A round without a capture -/

theorem InStep.begun (h : InStep tozar seen s) (r : RegisterRound π) : InStep tozar seen (s.begun r) where
  tozar := h.tozar
  units := h.units
  unit version unit hunit := by
    rcases h.unit version unit hunit with ⟨hstatus, hsnapshot, hverified, hupdated⟩
    refine ⟨hstatus, hsnapshot, hverified, ?_⟩
    change unit.updatedAt ≤ s.now + r.elapsed + 1
    omega
  known := h.known
  stored := h.stored
  dated key instant hat := by
    have hle := h.dated key instant hat
    change instant ≤ s.now + r.elapsed + 1
    omega
  builds := h.builds
  archives := h.archives
  compactions := h.compactions
  last key hlast := by
    rcases h.last key hlast with ⟨instant, hserves, hmax⟩
    exact ⟨instant, hserves.other rfl rfl rfl (fun hmem => hmem), hmax⟩
  rows := h.rows

/-! ## 3. The unit of a captured round -/

omit [DecidableEq π] in
theorem lastCapturedRows_of_last {unit : TozarUnit π} (hunit : s.units.get? version = some unit)
    (hcaptured : unit.status = .captured)
    (hlast : ∀ other unit', s.units.get? other = some unit' → other = version ∨ unit'.updatedAt < unit.updatedAt) :
    s.lastCapturedRows = unit.capturedRows := by
  have hmem : (unit.capturedRows, unit.updatedAt) ∈
      (s.units.entries.filter fun e => decide (e.2.status = .captured)).map fun e =>
        (e.2.capturedRows, e.2.updatedAt) := by
    rw [List.mem_map]
    refine ⟨(version, unit), ?_, rfl⟩
    exact List.mem_filter.mpr ⟨Dict.get?_eq_some.mp hunit, decide_eq_true hcaptured⟩
  unfold lastCapturedRows
  rw [newest_of_max hmem]
  · rfl
  · intro e he
    rcases List.mem_map.mp he with ⟨⟨other, unit'⟩, hentry, rfl⟩
    have hother : s.units.get? other = some unit' := Dict.get?_eq_some.mpr (List.mem_filter.mp hentry).1
    rcases hlast other unit' hother with rfl | hlt
    · rw [hunit] at hother
      cases hother
      exact Or.inl rfl
    · exact Or.inr hlt

/-- The database when a capture of the round's content is recorded: the unit is the newest one. -/
structure Recorded (s : TozarStore π) (r : RegisterRound π) (s' : TozarStore π) : Prop where
  now : s'.now = s.now + r.elapsed + 1
  unit : s'.units.get? (s.directoryOf r) = some (capturedUnit s'.now r.content)
  others : ∀ version, version ≠ s.directoryOf r → s'.units.get? version = s.units.get? version

theorem Recorded.units (h : InStep tozar seen s) (hrecorded : Recorded s r s') (version : DirectoryContent) :
    version ∈ seen.versions ++ [s.directoryOf r] ↔ (s'.units.get? version).isSome = true := by
  by_cases hversion : version = s.directoryOf r
  · subst hversion
    rw [hrecorded.unit]
    simp
  · rw [hrecorded.others version hversion, ← h.units version, List.mem_append, List.mem_singleton]
    constructor
    · rintro (hmem | heq)
      · exact hmem
      · exact absurd heq hversion
    · exact Or.inl

theorem Recorded.unit_captured (h : InStep tozar seen s) (hrecorded : Recorded s r s') (version : DirectoryContent)
    (unit : TozarUnit π) (hunit : s'.units.get? version = some unit) :
    unit.status = .captured ∧
      (∃ content ∈ seen.contents ++ [r.content], unit.snapshot = some content) ∧
        unit.countVerified = some true ∧ unit.updatedAt ≤ s'.now := by
  by_cases hversion : version = s.directoryOf r
  · subst hversion
    rw [hrecorded.unit] at hunit
    cases hunit
    exact ⟨rfl, ⟨r.content, List.mem_append_right _ (List.mem_singleton_self _), rfl⟩, rfl, le_refl _⟩
  · rw [hrecorded.others version hversion] at hunit
    rcases h.unit version unit hunit with ⟨hstatus, ⟨content, hcontent, hsnapshot⟩, hverified, hupdated⟩
    refine ⟨hstatus, ⟨content, List.mem_append_left _ hcontent, hsnapshot⟩, hverified, ?_⟩
    have hnow := hrecorded.now
    omega

theorem Recorded.rows (h : InStep tozar seen s) (hrecorded : Recorded s r s') :
    s'.lastCapturedRows = some r.content.length := by
  apply lastCapturedRows_of_last hrecorded.unit rfl
  intro other unit hunit
  by_cases hother : other = s.directoryOf r
  · exact Or.inl hother
  · right
    rw [hrecorded.others other hother] at hunit
    have hupdated := (h.unit other unit hunit).2.2.2
    have hnow := hrecorded.now
    change unit.updatedAt < s'.now
    omega

/-- The rounds with a captured one. -/
def SeenRounds.captured (seen : SeenRounds π) (version : DirectoryContent) (content : RegisterContent π) :
    SeenRounds π :=
  ⟨seen.versions ++ [version], seen.contents ++ [content]⟩

omit [DecidableEq π] in
theorem SeenRounds.last_captured (version : DirectoryContent) (content : RegisterContent π) :
    (SeenRounds.captured seen version content).last = some content := by
  unfold SeenRounds.captured SeenRounds.last
  exact List.getLast?_concat

omit [DecidableEq π] in
theorem mem_contents_of_last (hlast : seen.last = some content) : content ∈ seen.contents :=
  List.mem_of_getLast? hlast

/-! ## 4. The content that is current -/

omit [DecidableEq π] in
theorem Recorded.of_recordUnit (hnow : s'.now = s.now + r.elapsed + 1)
    (hothers : ∀ version, version ≠ s.directoryOf r → s'.units.get? version = s.units.get? version) :
    Recorded s r (s'.recordUnit (s.directoryOf r) (capturedUnit s'.now r.content)) where
  now := hnow
  unit := Dict.get?_set_self _ _ _
  others version hversion := (Dict.get?_set_ne _ _ hversion).trans (hothers version hversion)

omit [DecidableEq π] in
theorem capturing_units_ne (hversion : version ≠ s.directoryOf r) :
    (s.capturing r).units.get? version = s.units.get? version :=
  (Dict.get?_set_ne _ _ hversion).trans (Dict.get?_set_ne _ _ hversion)

theorem InStep.recaptured (h : InStep tozar seen s) (hlast : seen.last = some r.content) :
    InStep tozar (SeenRounds.captured seen (s.directoryOf r) r.content)
      ((s.capturing r).recordUnit (s.directoryOf r) (capturedUnit (s.capturing r).now r.content)) := by
  have hrecorded : Recorded s r
      ((s.capturing r).recordUnit (s.directoryOf r) (capturedUnit (s.capturing r).now r.content)) :=
    .of_recordUnit rfl fun _ => capturing_units_ne
  have hmem : ∀ key, key ∈ seen.contents ++ [r.content] ↔ key ∈ seen.contents := by
    intro key
    rw [List.mem_append, List.mem_singleton]
    constructor
    · rintro (hkey | rfl)
      · exact hkey
      · exact mem_contents_of_last hlast
    · exact Or.inl
  have hbegun := h.begun r
  exact
    { tozar := h.tozar
      units := hrecorded.units h
      unit := hrecorded.unit_captured h
      known := fun key => (hmem key).trans (hbegun.known key)
      stored := fun key hkey => (hmem key).mpr (hbegun.stored key hkey)
      dated := hbegun.dated
      builds := hbegun.builds
      archives := fun key lines hkey => (hmem key).mpr (hbegun.archives key lines hkey)
      compactions := fun c hc => (hmem c.1).mpr (hbegun.compactions c hc)
      last := by
        intro key hkey
        rw [SeenRounds.last_captured] at hkey
        cases hkey
        rcases hbegun.last r.content hlast with ⟨instant, hserves, hmax⟩
        exact ⟨instant, hserves.other rfl rfl rfl (fun hmem => hmem), hmax⟩
      rows := by
        rw [hrecorded.rows h, SeenRounds.last_captured]
        rfl }

/-- A content captured before finds its snapshot activated. -/
theorem ingestCapture_known (h : InStep tozar seen s) (hknown : r.content ∈ seen.contents) :
    (s.capturing r).ingestCapture r.content = .ok (s.capturing r) :=
  if_pos ((h.known r.content).mp hknown)

theorem Serves.countRawRecords {instant : ℤ} (h : s.Serves key instant) : s.countRawRecords key = key.length := by
  rcases h.stored with ⟨snapshot, payloads, hget, -, -, -, hrows⟩
  unfold TozarStore.countRawRecords
  rw [hget]
  change snapshot.rawRecords.length = key.length
  rw [hrows]
  exact List.length_map _

theorem Serves.ensureArchive {instant : ℤ} (h : s.Serves key instant) : s.ensureArchive key key = s := by
  apply if_pos
  rw [h.archived]
  rfl

theorem Serves.buildAfterCapture {instant : ℤ} (h : s.Serves key instant) :
    s.buildAfterCapture key = (.unchanged, s) := by
  rcases h.built with ⟨build, hbuild, -, -, -, hcomplete⟩
  apply if_pos
  rw [hbuild]
  exact hcomplete

theorem round_current (h : InStep tozar seen s) (r : RegisterRound π) (hnew : s.directoryOf r ∉ seen.versions)
    (hlast : seen.last = some r.content) : (s.round r).1 = .captured ∧
      InStep tozar (SeenRounds.captured seen (s.directoryOf r) r.content) (s.round r).2 := by
  have hunit : s.units.get? (s.directoryOf r) = none := by
    rw [h.units, Option.not_isSome_iff_eq_none] at hnew
    exact hnew
  rcases h.last r.content hlast with ⟨instant, hserves, -⟩
  have hcapturing : (s.capturing r).Serves r.content instant :=
    hserves.other rfl rfl rfl fun hmem => hmem
  have hrecorded := h.recaptured hlast
  rcases hrecorded.last r.content (SeenRounds.last_captured _ _) with ⟨_, hserved, -⟩
  rw [round_captured r hunit (ingestCapture_known h (mem_contents_of_last hlast))
    hcapturing.countRawRecords, hcapturing.ensureArchive]
  refine ⟨rfl, ?_⟩
  unfold finished
  dsimp only
  rw [hserved.buildAfterCapture]
  exact hrecorded.compactAfterBuild r.rules r.content .unchanged

/-! ## 5. A content that was never captured -/

/-- The snapshot of a content that was just captured. -/
def capturedSnapshot (now : ℤ) (content : RegisterContent π) : TozarSnapshot π where
  activatedAt := some now
  declaredRecordCount := content.length
  storedRecordCount := content.length
  rawRecords := content.map fun row => (row.1, some row.2)

/-- What an ingest of a new content changes. -/
structure Ingested (s : TozarStore π) (content : RegisterContent π) (s' : TozarStore π) : Prop where
  tozar : s'.tozar = s.tozar
  now : s'.now = s.now
  units : s'.units = s.units
  builds : s'.builds = s.builds
  compactions : s'.compactions = s.compactions
  snapshot : s'.snapshots.get? content = some (capturedSnapshot s.now content)
  snapshots : ∀ key, key ≠ content → s'.snapshots.get? key = s.snapshots.get? key
  archive : s'.archives.get? content = some content.length
  archives : ∀ key, key ≠ content → s'.archives.get? key = s.archives.get? key

theorem ingestCapture_new (hsnapshot : s.snapshots.get? content = none) (harchive : s.archives.get? content = none) :
    ∃ s', s.ingestCapture content = .ok s' ∧ Ingested s content s' := by
  have hget : (s.writeRecords content).snapshots.get? content =
      some { capturedSnapshot s.now content with activatedAt := none } := Dict.get?_set_self _ _ _
  have hcount : (s.writeRecords content).countRawRecords content = content.length := by
    unfold countRawRecords
    rw [hget]
    exact List.length_map _
  have hverify : (s.writeRecords content).verifyCount content content.length = .ok content.length :=
    if_pos hcount
  have hensure : (s.writeRecords content).ensureArchive content content =
      { s.writeRecords content with archives := s.archives.set content content.length } := by
    apply if_neg
    change ¬ (s.archives.get? content).isSome = true
    rw [harchive]
    simp
  have hactivate : ((s.writeRecords content).ensureArchive content content).activate content =
      { s.writeRecords content with
        archives := s.archives.set content content.length
        snapshots := (s.writeRecords content).snapshots.set content (capturedSnapshot s.now content) } := by
    rw [hensure]
    simp only [activate, hget]
    rfl
  refine ⟨((s.writeRecords content).ensureArchive content content).activate content, ?_, ?_⟩
  · unfold ingestCapture
    rw [hsnapshot]
    change (do
      let _ ← (s.writeRecords content).verifyCount content content.length
      pure _ : Except (Refused (TozarStore π)) (TozarStore π)) = _
    rw [hverify]
    rfl
  · rw [hactivate]
    exact
      { tozar := rfl
        now := rfl
        units := rfl
        builds := rfl
        compactions := rfl
        snapshot := Dict.get?_set_self _ _ _
        snapshots := fun key hkey => (Dict.get?_set_ne _ _ hkey).trans (Dict.get?_set_ne _ _ hkey)
        archive := Dict.get?_set_self _ _ _
        archives := fun key hkey => Dict.get?_set_ne _ _ hkey }

theorem Ingested.activatedAt? (h : Ingested s content s') (key : RegisterContent π) :
    s'.activatedAt? key = if key = content then some s.now else s.activatedAt? key := by
  unfold TozarStore.activatedAt?
  by_cases hkey : key = content
  · rw [if_pos hkey, hkey, h.snapshot]
    rfl
  · rw [if_neg hkey, h.snapshots key hkey]

theorem newest_mem {α : Type} {dated : List (α × ℤ)} {a : α} (h : newest dated = some a) :
    ∃ instant, (a, instant) ∈ dated := by
  unfold newest at h
  rcases Option.map_eq_some_iff.mp h with ⟨e, hmax, rfl⟩
  exact ⟨e.2, List.argmax_mem hmax⟩

/-- No recorded unit says a snapshot's count is wrong. -/
theorem countVerified_ne (h : ∀ version unit, s.units.get? version = some unit → unit.countVerified = some true) :
    s.countVerified key ≠ some (some false) := by
  intro hcount
  rcases newest_mem hcount with ⟨instant, hmem⟩
  rcases List.mem_map.mp hmem with ⟨⟨version, unit⟩, hentry, heq⟩
  have hverified := h version unit (Dict.get?_eq_some.mpr (List.mem_filter.mp hentry).1)
  cases heq.symm.trans (by rw [hverified])

/-- The build of a snapshot that was just activated. -/
def builtVariants (now : ℤ) (content : RegisterContent π) : VariantBuild where
  activatedAt := now
  expectedRows := content.length
  builtRows := content.length
  completedAt := some now

theorem buildAfterCapture_new (hbuild : s.builds.get? content = none)
    (hsnapshot : s.snapshots.get? content = some (capturedSnapshot s.now content))
    (hcount : s.countVerified content ≠ some (some false)) (hactive : s.activeSnapshot = some content)
    (hcompactions : ∀ c ∈ s.compactions, c.1 ≠ content) :
    s.buildAfterCapture content = (.built, s.withBuild content (builtVariants s.now content)) := by
  have hpayloads : ((s.snapshots.get? content).any fun snapshot =>
      snapshot.rawRecords.any fun record => record.2.isNone) = false := by
    rw [hsnapshot]
    simp [capturedSnapshot]
  have hrecord : s.recordCatalogVariants content =
      .ok (s.withBuild content (builtVariants s.now content)) := by
    have hnone : s.compactions.any (fun c => decide (c.1 = content)) = false := by
      rw [List.any_eq_false]
      intro c hc
      simp [hcompactions c hc]
    unfold recordCatalogVariants
    rw [hsnapshot]
    simp only [capturedSnapshot, refuseIf, ne_eq, hactive, hcount, hnone, not_true_eq_false, or_self,
      if_false, Bool.false_eq_true, false_and, List.length_map, if_true]
    rfl
  unfold buildAfterCapture
  rw [hbuild, hpayloads, hrecord]
  rfl

/-- A new content, captured, built and recorded, is the one in step. -/
theorem InStep.builtNew (h : InStep tozar seen s) (hnew : r.content ∉ seen.contents)
    (hingested : Ingested (s.capturing r) r.content s') :
    InStep tozar (SeenRounds.captured seen (s.directoryOf r) r.content)
      ((s'.recordUnit (s.directoryOf r) (capturedUnit s'.now r.content)).withBuild r.content
        (builtVariants s'.now r.content)) := by
  have hnow : s'.now = s.now + r.elapsed + 1 := hingested.now
  have hunit : Recorded s r (s'.recordUnit (s.directoryOf r) (capturedUnit s'.now r.content)) := by
    apply Recorded.of_recordUnit hnow
    intro version hversion
    rw [hingested.units]
    exact capturing_units_ne hversion
  have hrecorded : Recorded s r ((s'.recordUnit (s.directoryOf r)
      (capturedUnit s'.now r.content)).withBuild r.content (builtVariants s'.now r.content)) :=
    ⟨hunit.now, hunit.unit, hunit.others⟩
  have hat : ∀ key, s'.activatedAt? key = if key = r.content then some s'.now else s.activatedAt? key := by
    intro key
    rw [hingested.activatedAt? key, hingested.now]
    rfl
  have hmem : ∀ key, key ∈ seen.contents ++ [r.content] ↔ key = r.content ∨ key ∈ seen.contents := by
    intro key
    rw [List.mem_append, List.mem_singleton, or_comm]
  have hlater : ∀ key instant, s.activatedAt? key = some instant → instant < s'.now := by
    intro key instant hkey
    have hle := h.dated key instant hkey
    omega
  exact
    { tozar := hingested.tozar.trans h.tozar
      units := hrecorded.units h
      unit := hrecorded.unit_captured h
      known := by
        intro key
        refine (hmem key).trans ?_
        change _ ↔ (s'.activatedAt? key).isSome = true
        rw [hat key]
        by_cases hkey : key = r.content
        · simp [hkey]
        · rw [if_neg hkey, or_iff_right hkey]
          exact h.known key
      stored := by
        intro key hkey
        apply (hmem key).mpr
        by_cases heq : key = r.content
        · exact Or.inl heq
        · right
          change (s'.snapshots.get? key).isSome = true at hkey
          rw [hingested.snapshots key heq] at hkey
          exact h.stored key hkey
      dated := by
        intro key instant hkey
        change s'.activatedAt? key = some instant at hkey
        change instant ≤ s'.now
        rw [hat key] at hkey
        split at hkey
        · cases hkey
          exact le_refl _
        · exact le_of_lt (hlater key instant hkey)
      builds := by
        intro key build hbuild
        change s'.activatedAt? key = some build.activatedAt
        change (s'.builds.set r.content (builtVariants s'.now r.content)).get? key = some build at hbuild
        rw [hat key]
        by_cases hkey : key = r.content
        · rw [hkey, Dict.get?_set_self] at hbuild
          cases hbuild
          exact if_pos hkey
        · rw [Dict.get?_set_ne _ _ hkey, hingested.builds] at hbuild
          rw [if_neg hkey]
          exact h.builds key build hbuild
      archives := by
        intro key lines hkey
        apply (hmem key).mpr
        by_cases heq : key = r.content
        · exact Or.inl heq
        · right
          change s'.archives.get? key = some lines at hkey
          rw [hingested.archives key heq] at hkey
          exact h.archives key lines hkey
      compactions := by
        intro c hc
        change c ∈ s'.compactions at hc
        rw [hingested.compactions] at hc
        exact (hmem c.1).mpr (Or.inr (h.compactions c hc))
      last := by
        intro key hkey
        rw [SeenRounds.last_captured] at hkey
        cases hkey
        refine ⟨s'.now, ⟨?_, ?_, hingested.archive, ?_⟩, ?_⟩
        · refine ⟨_, true, hingested.snapshot, ?_, rfl, rfl, rfl⟩
          rw [hingested.now]
          rfl
        · exact ⟨_, Dict.get?_set_self _ _ _, rfl, rfl, rfl, rfl⟩
        · intro hmem
          change _ ∈ s'.compactions at hmem
          rw [hingested.compactions] at hmem
          exact hnew (h.compactions _ hmem)
        · intro other instant hother
          change s'.activatedAt? other = some instant at hother
          rw [hat other] at hother
          split at hother
          · rename_i heq
            exact Or.inl heq
          · exact Or.inr (hlater other instant hother)
      rows := by
        rw [SeenRounds.last_captured]
        exact hrecorded.rows h }

theorem round_new (h : InStep tozar seen s) (r : RegisterRound π) (hversion : s.directoryOf r ∉ seen.versions)
    (hnew : r.content ∉ seen.contents) : (s.round r).1 = .captured ∧
      InStep tozar (SeenRounds.captured seen (s.directoryOf r) r.content) (s.round r).2 := by
  have hunit : s.units.get? (s.directoryOf r) = none := by
    rw [h.units, Option.not_isSome_iff_eq_none] at hversion
    exact hversion
  have hsnapshot : (s.capturing r).snapshots.get? r.content = none := by
    rw [← Option.not_isSome_iff_eq_none]
    exact fun hsome => hnew (h.stored r.content hsome)
  have harchive : (s.capturing r).archives.get? r.content = none := by
    cases hlines : (s.capturing r).archives.get? r.content with
    | none => rfl
    | some lines => exact absurd (h.archives r.content lines hlines) hnew
  rcases ingestCapture_new hsnapshot harchive with ⟨s', hingest, hingested⟩
  have hcount : s'.countRawRecords r.content = r.content.length := by
    unfold countRawRecords
    rw [hingested.snapshot]
    exact List.length_map _
  have hensure : s'.ensureArchive r.content r.content = s' := by
    apply if_pos
    rw [hingested.archive]
    rfl
  have hstep := h.builtNew hnew hingested
  have hbuilt : (s'.recordUnit (s.directoryOf r) (capturedUnit s'.now r.content)).buildAfterCapture r.content =
      (.built, (s'.recordUnit (s.directoryOf r) (capturedUnit s'.now r.content)).withBuild r.content
        (builtVariants s'.now r.content)) := by
    apply buildAfterCapture_new
    · change s'.builds.get? r.content = none
      rw [hingested.builds]
      cases hbuild : (s.capturing r).builds.get? r.content with
      | none => rfl
      | some build =>
        have hat := h.builds r.content build hbuild
        exact absurd ((h.known r.content).mpr (by rw [hat]; rfl)) hnew
    · change s'.snapshots.get? r.content = some (capturedSnapshot s'.now r.content)
      rw [hingested.now]
      exact hingested.snapshot
    · exact countVerified_ne fun version unit hunit => (hstep.unit version unit hunit).2.2.1
    · exact hstep.activeSnapshot.trans (SeenRounds.last_captured _ _)
    · intro c hc heq
      change c ∈ s'.compactions at hc
      rw [hingested.compactions] at hc
      apply hnew
      rw [← heq]
      exact h.compactions c hc
  rw [round_captured r hunit hingest hcount, hensure]
  refine ⟨rfl, ?_⟩
  unfold finished
  dsimp only
  rw [hbuilt]
  exact hstep.compactAfterBuild r.rules r.content .built

/-! ## 6. A content of an earlier round -/

theorem sameActivations_ensureArchive (s : TozarStore π) (key content : RegisterContent π) :
    s.SameActivations (s.ensureArchive key content) := by
  unfold ensureArchive
  split
  · exact fun _ => rfl
  · exact fun _ => rfl

theorem recordCatalogVariants_ok (h : s.recordCatalogVariants key = .ok s') :
    ∃ build, s' = s.withBuild key build := by
  unfold recordCatalogVariants at h
  split at h
  · cases h
  · split at h
    · cases h
    · rcases except_bind_eq_ok.mp h with ⟨_, -, h⟩
      rcases except_bind_eq_ok.mp h with ⟨_, -, h⟩
      rcases except_bind_eq_ok.mp h with ⟨_, -, h⟩
      cases h
      exact ⟨_, rfl⟩

theorem sameActivations_buildAfterCapture (s : TozarStore π) (key : RegisterContent π) :
    s.SameActivations (s.buildAfterCapture key).2 := by
  unfold buildAfterCapture
  split
  · exact fun _ => rfl
  · split
    · exact fun _ => rfl
    · cases hrecord : s.recordCatalogVariants key with
      | error code => exact fun _ => rfl
      | ok s' =>
        rcases recordCatalogVariants_ok hrecord with ⟨build, rfl⟩
        exact fun _ => rfl

theorem sameActivations_finished (s : TozarStore π) (r : RegisterRound π) (version : DirectoryContent) :
    s.SameActivations (s.finished r version) := by
  have hbuild := sameActivations_buildAfterCapture
    (s.recordUnit version (capturedUnit s.now r.content)) r.content
  exact SameActivations.trans hbuild (sameActivations_compactAfterBuild r.rules _ r.content _)

/-- A content that was captured before the current one stays behind it, if its rows still count. -/
theorem round_returned (h : InStep tozar seen s) (r : RegisterRound π)
    (hversion : s.directoryOf r ∉ seen.versions) (hknown : r.content ∈ seen.contents)
    (hlast : seen.last ≠ some r.content) : (s.round r).1 = .failed countMismatch ∨
      (s.round r).1 = .captured ∧ (s.round r).2.activeSnapshot ≠ some r.content := by
  have hunit : s.units.get? (s.directoryOf r) = none := by
    rw [h.units, Option.not_isSome_iff_eq_none] at hversion
    exact hversion
  have hingest := ingestCapture_known h hknown
  by_cases hcount : (s.capturing r).countRawRecords r.content = r.content.length
  · right
    rw [round_captured r hunit hingest hcount]
    refine ⟨rfl, ?_⟩
    have hsame : s.SameActivations
        (((s.capturing r).ensureArchive r.content r.content).finished r (s.directoryOf r)) :=
      (sameActivations_ensureArchive (s.capturing r) r.content r.content).trans
        (sameActivations_finished _ r _)
    have hkey : seen.last = some (seen.contents.getLast (List.ne_nil_of_mem hknown)) :=
      List.getLast?_eq_some_getLast _
    generalize seen.contents.getLast (List.ne_nil_of_mem hknown) = key at hkey
    rcases h.last key hkey with ⟨instant, hserves, hmax⟩
    have hactive : (((s.capturing r).ensureArchive r.content r.content).finished r
        (s.directoryOf r)).activeSnapshot = some key := by
      apply activeSnapshot_of_last ((hsame key).trans hserves.activatedAt)
      intro other instant' hother
      exact hmax other instant' ((hsame other).symm.trans hother)
    rw [hactive]
    intro heq
    exact hlast (hkey.trans heq)
  · exact Or.inl (round_mismatched r hunit hingest hcount)

/-! ## 7. The laws of a round -/

/-- The content is the current one: active, built and readable, with its rows. -/
structure Followed (s : TozarStore π) (content : RegisterContent π) : Prop where
  active : s.activeSnapshot = some content
  current : s.catalogVariantCurrentSnapshot = some content
  readable : s.readable content = true
  rows : ∃ snapshot payloads, s.snapshots.get? content = some snapshot ∧
    snapshot.rawRecords = rowsOf content payloads
  built : ∃ build, s.builds.get? content = some build ∧ build.builtRows = content.length

/-- A round's capture takes and is followed, and a tozar answered as captured before counts as its
    directory does. -/
structure RoundLaws (s : TozarStore π) (r : RegisterRound π) : Prop where
  served : (s.round r).1 = .existing ∨ (s.round r).1 = .captured
  followed : (s.round r).1 = .captured → (s.round r).2.Followed r.content
  drains : (s.round r).1 = .existing → (s.round r).2.lastCapturedRows = some r.content.length

theorem InStep.followed (h : InStep tozar seen s) (hlast : seen.last = some content) : s.Followed content := by
  rcases h.last content hlast with ⟨instant, hserves, -⟩
  rcases hserves.stored with ⟨snapshot, payloads, hget, -, -, -, hrows⟩
  rcases hserves.built with ⟨build, hbuild, -, -, hbuilt, -⟩
  refine ⟨h.activeSnapshot.trans hlast, h.current hlast, ?_, ?_, ?_⟩
  · unfold TozarStore.readable compactedFor
    simp [hserves.readable]
  · exact ⟨snapshot, payloads, hget, hrows⟩
  · exact ⟨build, hbuild, hbuilt⟩

/-- A round that moves on is followed, and leaves the database in step. -/
theorem InStep.round_movesOn (h : InStep tozar seen s) (r : RegisterRound π) (hmoves : seen.MovesOn tozar r) :
    RoundLaws s r ∧ InStep tozar (seen.after tozar r) (s.round r).2 := by
  have hdirectory : s.directoryOf r = SeenRounds.versionOf tozar r := by
    unfold directoryOf SeenRounds.versionOf
    rw [h.tozar]
  unfold SeenRounds.MovesOn SeenRounds.after at *
  by_cases hversion : SeenRounds.versionOf tozar r ∈ seen.versions
  · rw [if_pos hversion] at hmoves ⊢
    rcases Option.isSome_iff_exists.mp ((h.units _).mp hversion) with ⟨unit, hunit⟩
    have hcaptured := (h.unit _ unit hunit).1
    rw [← hdirectory] at hunit
    rw [← h.rows] at hmoves
    have hround := round_existing r hunit hcaptured
    rw [hround]
    refine ⟨⟨?_, ?_, ?_⟩, h.begun r⟩
    · exact Or.inl (by rw [hround])
    · intro hc
      rw [hround] at hc
      cases hc
    · intro _
      rw [hround]
      exact hmoves
  · rw [if_neg hversion] at hmoves ⊢
    have hstep : (s.round r).1 = .captured ∧
        InStep tozar (SeenRounds.captured seen (s.directoryOf r) r.content) (s.round r).2 := by
      rw [← hdirectory] at hversion
      by_cases hlast : seen.last = some r.content
      · exact round_current h r hversion hlast
      · exact round_new h r hversion (hmoves.resolve_left hlast)
    rw [hdirectory] at hstep
    refine ⟨⟨?_, ?_, ?_⟩, hstep.2⟩
    · exact Or.inr hstep.1
    · exact fun _ => hstep.2.followed (SeenRounds.last_captured _ _)
    · intro hexisting
      rw [hstep.1] at hexisting
      cases hexisting

theorem InStep.movesOn (h : InStep tozar seen s) (r : RegisterRound π) (hlaws : RoundLaws s r) :
    seen.MovesOn tozar r := by
  have hdirectory : s.directoryOf r = SeenRounds.versionOf tozar r := by
    unfold directoryOf SeenRounds.versionOf
    rw [h.tozar]
  unfold SeenRounds.MovesOn
  rw [← hdirectory]
  split
  · rename_i hversion
    rcases Option.isSome_iff_exists.mp ((h.units _).mp hversion) with ⟨unit, hunit⟩
    have hround := round_existing r hunit (h.unit _ unit hunit).1
    have hrows := hlaws.drains (by rw [hround])
    rw [hround] at hrows
    exact h.rows.symm.trans hrows
  · rename_i hversion
    by_contra hreturned
    rw [not_or, not_not] at hreturned
    rcases round_returned h r hversion hreturned.2 hreturned.1 with hfailed | ⟨hcaptured, hactive⟩
    · rcases hlaws.served with hexisting | hcaptured
      · rw [hfailed] at hexisting
        cases hexisting
      · rw [hfailed] at hcaptured
        cases hcaptured
    · exact hactive (hlaws.followed hcaptured).active

theorem followed_iff_from (rounds : List (RegisterRound π)) : ∀ {s : TozarStore π} {seen : SeenRounds π},
    InStep tozar seen s → ((∀ e ∈ performed (fun s r => (s.round r).2) s rounds, RoundLaws e.1 e.2) ↔
      ∀ e ∈ performed (SeenRounds.after tozar) seen rounds, e.1.MovesOn tozar e.2) := by
  induction rounds with
  | nil => exact fun _ => Iff.intro (fun _ _ he => by cases he) fun _ _ he => by cases he
  | cons r rounds ih =>
    intro s seen h
    unfold performed
    rw [List.forall_mem_cons, List.forall_mem_cons]
    constructor
    · rintro ⟨hlaws, hrest⟩
      have hmoves := h.movesOn r hlaws
      exact ⟨hmoves, (ih (h.round_movesOn r hmoves).2).mp hrest⟩
    · rintro ⟨hmoves, hrest⟩
      have hround := h.round_movesOn r hmoves
      exact ⟨hround.1, (ih hround.2).mpr hrest⟩

/-- The catalog follows the rounds of a tozar exactly if each of them moves on. -/
theorem followed_iff (tozar : Text) (now : ℤ) (rounds : List (RegisterRound π)) :
    (∀ e ∈ performed (fun s r => (s.round r).2) (fresh tozar now) rounds, RoundLaws e.1 e.2) ↔
      ∀ e ∈ performed (SeenRounds.after tozar) ⟨[], []⟩ rounds, e.1.MovesOn tozar e.2 :=
  followed_iff_from rounds (inStep_fresh tozar now)

/-- A round of a tozar with the given rows, beside another tozar with a count. -/
def roundOf (content : RegisterContent ℕ) (beside : ℕ) : RegisterRound ℕ where
  content
  others := [("0002".toList, beside)]
  elapsed := 0
  rules := ⟨fun _ => true, fun _ => false⟩

def oneRow : RegisterContent ℕ := [("1".toList, 10)]

def twoRows : RegisterContent ℕ := [("1".toList, 10), ("2".toList, 20)]

/-- One row, two rows, one row again: the first snapshot is a skeleton when its content returns. -/
theorem returned_content_refused :
    ¬ ∀ e ∈ performed (fun s r => (s.round r).2) (fresh "0001".toList 0)
      [roundOf oneRow 1, roundOf twoRows 1, roundOf oneRow 2], RoundLaws e.1 e.2 := by
  intro h
  have hserved : ∀ e ∈ performed (fun s r => (s.round r).2) (fresh "0001".toList 0)
      [roundOf oneRow 1, roundOf twoRows 1, roundOf oneRow 2],
      (e.1.round e.2).1 = .existing ∨ (e.1.round e.2).1 = .captured := fun e he => (h e he).served
  revert hserved
  decide +kernel

/-- Under the directory it was captured with, it is answered `existing` round after round. -/
example : (performed (fun s r => (s.round r).2) (fresh "0001".toList 0)
    [roundOf oneRow 1, roundOf twoRows 1, roundOf oneRow 1, roundOf oneRow 1]).map (fun e =>
      (e.1.round e.2).1) = [.captured, .captured, .existing, .existing] := by
  decide +kernel

end TozarStore

end Milo.Catalog
