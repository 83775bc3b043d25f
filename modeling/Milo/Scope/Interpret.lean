import Milo.Reasoning.Arrangement
import Milo.Reasoning.Checks
import Milo.Scope.Contract

/-!
# Interpret — how an instruction changes a plan

A reading of an instruction mentions manufacturers in roles and states some fields.  Applied to a plan it
gives the complete fields of the next one; applied again it gives the same fields, so that a repeated
instruction writes no revision.
-/

namespace Milo.Scope

open Milo.Python Milo.Reasoning

/-! ## 1. Fields -/

/-- The editable fields of a plan, as a dictionary for the one constructor. -/
structure ScopeFields where
  units : List Text
  modelYearFrom : Option ℤ
  modelYearTo : Option ℤ
  maxItems : ℤ
  batchSize : ℤ
  includeUnresolved : Bool
  deriving DecidableEq

def boundDoc (bound : Option ℤ) : JsonDoc := bound.elim .null wholeDoc

/-- The optional field is stated only when set. -/
def ScopeFields.toDict (fields : ScopeFields) : Dict Text JsonDoc :=
  let stated := fieldsOf (.arr (fields.units.map textDoc)) (boundDoc fields.modelYearFrom)
    (boundDoc fields.modelYearTo) (wholeDoc fields.maxItems) (wholeDoc fields.batchSize)
  if fields.includeUnresolved then stated.set includeUnresolvedKey (.bool true) else stated

/-- `WorkScope.fields`. -/
def WorkScope.fields (scope : WorkScope) : ScopeFields where
  units := scope.units.keys.map Subtype.val
  modelYearFrom := scope.modelYears.first.map Within.value
  modelYearTo := scope.modelYears.last.map Within.value
  maxItems := scope.maxItems.value
  batchSize := scope.batchSize.value
  includeUnresolved := scope.includeUnresolved

/-- The fields of a plan that does not exist yet. -/
def newFields : ScopeFields where
  units := []
  modelYearFrom := none
  modelYearTo := none
  maxItems := defaultMaxItems
  batchSize := defaultBatchSize
  includeUnresolved := false

/-! ## 2. Readings -/

inductive Mode
  | set
  | add
  | remove
  deriving DecidableEq

/-- Manufacturers named at one place, alone or as a group. -/
structure Mention where
  keys : List Text
  group : Bool
  mode : Mode
  first : Bool

structure Reading where
  mentions : List Mention
  yearFrom : Option ℤ
  yearTo : Option ℤ
  yearsStated : Bool
  maxItems : Option ℤ
  batchSize : Option ℤ
  unmappedOnly : Bool
  unrecognized : List Text

/-- Of each key the variants the catalog holds, or that it cannot be stated. -/
abbrev UnitCoverage := Dict Text (Option ℤ)

inductive Note
  | defaultLimit
  | unrecognized (terms : List Text)
  | alreadyMapped (units : List Text)
  | coverageUnknown (units : List Text)
  | notInPlan (units : List Text)
  | noChange
  deriving DecidableEq

structure Interpretation where
  fields : ScopeFields
  notes : List Note

/-- The `ValueError` of a reading that needs a coverage and has none. -/
inductive ReadingFailure
  | coverageNeeded
  deriving DecidableEq

def Mention.states (mention : Mention) : Bool := decide (mention.mode = .set ∨ mention.mode = .add)

namespace Reading

variable (reading : Reading) (coverage : Option UnitCoverage)

/-- `needs_coverage`. -/
def needsCoverage : Bool := reading.unmappedOnly && reading.mentions.any Mention.states

/-- `(coverage or {}).get(key)`. -/
def countOf? (coverage : Option UnitCoverage) (key : Text) : Option ℤ := (coverage.bind (·.get? key)).join

/-- The catalog is known to hold variants of the key. -/
def isHeld (coverage : Option UnitCoverage) (key : Text) : Bool := (countOf? coverage key).any fun n => decide (0 < n)

def admitted (mention : Mention) : List Text :=
  if !reading.unmappedOnly || !mention.states then mention.keys
  else mention.keys.filter fun key => !isHeld coverage key

/-- The admitted keys of the mentions in a role. -/
def keysOf (role : Mention → Bool) : List Text := (reading.mentions.filter role).flatMap (reading.admitted coverage)

def setKeys : List Text := reading.keysOf coverage fun mention => decide (mention.mode = .set)

def addKeys : List Text := reading.keysOf coverage fun mention => decide (mention.mode = .add)

def firstKeys : List Text := reading.keysOf coverage fun mention => mention.first && decide (mention.mode ≠ .remove)

def removedKeys : List Text :=
  (reading.mentions.filter fun mention => decide (mention.mode = .remove)).flatMap Mention.keys

/-- Some mention sets and does not only move to the front. -/
def replaces : Bool := reading.mentions.any fun mention => decide (mention.mode = .set) && !mention.first

def base (current : Option WorkScope) : List Text :=
  if reading.replaces then uniques (reading.setKeys coverage)
  else current.elim [] fun scope => scope.fields.units

/-- The keys a "not mapped yet" reading names, those it drops and those whose coverage cannot be stated. -/
def coverageNotes : List Note :=
  let kept := reading.keysOf coverage fun _ => true
  let named := uniques ((reading.mentions.filter Mention.states).flatMap Mention.keys)
  let dropped := named.filter fun key => decide (key ∉ kept)
  let unknown := named.filter fun key => decide (key ∈ kept) && (countOf? coverage key).isNone
  if reading.unmappedOnly then
    (if dropped = [] then [] else [.alreadyMapped dropped]) ++ if unknown = [] then [] else [.coverageUnknown unknown]
  else []

/-- The keys a reading removes by name that the plan does not hold. -/
def absentNotes (current : Option WorkScope) : List Note :=
  let units := uniques (reading.base coverage current ++ uniques (reading.addKeys coverage))
  let front := uniques (reading.firstKeys coverage)
  let named := (reading.mentions.filter fun mention => decide (mention.mode = .remove) && !mention.group).flatMap Mention.keys
  let absent := uniques (named.filter fun key => decide (key ∉ units ∧ key ∉ front))
  if absent = [] then [] else [.notInPlan absent]

/-- The fields of the plan, or of a new one. -/
def fieldsBefore (current : Option WorkScope) : ScopeFields := current.elim newFields WorkScope.fields

/-- What is stated replaces the plan's field. -/
def fieldsOver (current : Option WorkScope) : ScopeFields :=
  let added := uniques (reading.addKeys coverage)
  let removed := uniques reading.removedKeys
  let front := uniques (reading.firstKeys coverage)
  let fields := fieldsBefore current
  { fields with
    units := arranged front (reading.base coverage current) added removed
    modelYearFrom := if reading.yearsStated then reading.yearFrom else fields.modelYearFrom
    modelYearTo := if reading.yearsStated then reading.yearTo else fields.modelYearTo
    maxItems := reading.maxItems.getD fields.maxItems
    batchSize := reading.batchSize.getD fields.batchSize }

/-- `apply_reading`. -/
def applyReading (current : Option WorkScope) : Except ReadingFailure Interpretation := do
  refuseIf (reading.needsCoverage = true ∧ coverage = none) .coverageNeeded
  pure
    { fields := reading.fieldsOver coverage current
      notes := reading.coverageNotes coverage ++ reading.absentNotes coverage current ++
        (if reading.maxItems = none ∧ current = none then [.defaultLimit] else []) ++
        if reading.unrecognized = [] then [] else [.unrecognized reading.unrecognized] }

end Reading

/-! ## 3. Revisions -/

/-- The head of a stored plan. -/
structure ScopeHead (D : Type) where
  scopeText : Text
  digest : D

inductive ReviseFailure
  | unreadable
  | reading (failure : ReadingFailure)
  | refused (reason : WorkScopeReason)
  deriving DecidableEq

/-- What an instruction does to a head: nothing, or a new revision of it. -/
inductive Revision
  | unchanged (notes : List Note)
  | revised (scope : WorkScope) (notes : List Note)

/-- `_resolve` of an instruction that was read. -/
def resolveReading (reading : Reading) (coverage : Option UnitCoverage) (current : Option WorkScope) :
    Except ReviseFailure (WorkScope × List Note) := do
  let interpretation ← (reading.applyReading coverage current).mapError .reading
  let scope ← (scopeFromFields interpretation.fields.toDict).mapError .refused
  pure (scope, interpretation.notes)

/-- `_stored_scope`, of a text `json.loads` has room for. -/
def storedScope {D : Type} [DecidableEq D] (digestOf : Text → D) (head : ScopeHead D) : Except ReviseFailure WorkScope := do
  let scope ← (readScopeText head.scopeText).mapError fun _ => .unreadable
  refuseIf (digestOf scope.canonicalText ≠ head.digest) .unreadable
  pure scope

/-- `revise_work_scope` by an instruction, up to what it would write. -/
def reviseWorkScope {D : Type} [DecidableEq D] (digestOf : Text → D) (reading : Reading)
    (coverage : Option UnitCoverage) (head : ScopeHead D) : Except ReviseFailure Revision := do
  let current ← storedScope digestOf head
  let resolved ← resolveReading reading coverage (some current)
  if resolved.1.canonicalText = head.scopeText then pure (.unchanged (resolved.2 ++ [.noChange]))
  else pure (.revised resolved.1 resolved.2)

/-! ## 4. The fields of an accepted scope -/

section Accepted

theorem units?_textDocs {keys : List Text} {units : ScopeUnits}
    (h : units? (.arr (keys.map textDoc)) = some units) : units.keys.map Subtype.val = keys := by
  have hentries : ∀ {keys : List Text} {found : List DirectoryKey},
      (keys.map textDoc).mapM (fun item => (stringOf? item).bind entryFor) = some found →
        found.map Subtype.val = keys := by
    intro keys
    induction keys with
    | nil =>
      intro found hfound
      cases hfound
      rfl
    | cons key keys ih =>
      intro found hfound
      rw [List.map_cons, List.mapM_cons] at hfound
      rcases Option.bind_eq_some_iff.mp hfound with ⟨entry, hentry, htail⟩
      rcases Option.bind_eq_some_iff.mp htail with ⟨rest, hrest, hcons⟩
      clear htail hfound
      cases hcons
      have hfind : entryFor (points key) = some entry := hentry
      have hsame := List.find?_some hfind
      have hkey : entry.val = key := points_injective (of_decide_eq_true hsame)
      rw [List.map_cons, hkey, ih hrest]
  unfold units? at h
  rcases Option.bind_eq_some_iff.mp h with ⟨items, hitems, hrest⟩
  rcases Option.bind_eq_some_iff.mp hrest with ⟨found, hfound, hchecked⟩
  have hlist : keys.map textDoc = items := Option.some.inj hitems
  rw [← hlist] at hfound
  split at hchecked
  · have hunits := Option.some.inj hchecked
    rw [← hunits]
    exact hentries hfound
  · cases hchecked

theorem within?_wholeDoc_value {low high z : ℤ} {bounded : Within low high}
    (h : within? low high (wholeDoc z) = some bounded) : bounded.value = z := by
  unfold within? wholeDoc at h
  rw [integerOf?_intLiteral, Option.bind_some] at h
  split at h
  · cases h
    rfl
  · cases h

theorem year?_boundDoc {bound : Option ℤ} {year : Option (Within minModelYear maxModelYear)}
    (h : year? (boundDoc bound) = some year) : year.map Within.value = bound := by
  cases bound with
  | none =>
    cases h
    rfl
  | some z =>
    have hyear : (within? minModelYear maxModelYear (wholeDoc z)).map some = some year := h
    obtain ⟨bounded, hbounded, rfl⟩ := Option.map_eq_some_iff.mp hyear
    rw [Option.map_some, within?_wholeDoc_value hbounded]

/-- A scope states the fields it was made from, at the directory in force. -/
theorem fields_of_scopeFromFields {fields : ScopeFields} {scope : WorkScope}
    (h : scopeFromFields fields.toDict = .ok scope) :
    scope.fields = fields ∧ scope.directoryVersion = points directoryVersion := by
  obtain ⟨keys, first, last, maxItems, batchSize, includeUnresolved⟩ := fields
  have hget : ∀ key ∈ fieldKeys, (ScopeFields.toDict ⟨keys, first, last, maxItems, batchSize, includeUnresolved⟩).get? key =
      (fieldsOf (.arr (keys.map textDoc)) (boundDoc first) (boundDoc last) (wholeDoc maxItems)
        (wholeDoc batchSize)).get? key := by
    intro key hkey
    unfold ScopeFields.toDict
    cases includeUnresolved with
    | false => rfl
    | true =>
      have hother : includeUnresolvedKey ∉ fieldKeys := by decide
      exact Dict.get?_set_ne _ _ fun heq => hother (heq ▸ hkey)
  have hoptional : ((ScopeFields.toDict ⟨keys, first, last, maxItems, batchSize, includeUnresolved⟩).get?
      includeUnresolvedKey).getD (.bool false) = .bool includeUnresolved := by
    unfold ScopeFields.toDict
    cases includeUnresolved with
    | false => rfl
    | true =>
      show ((Dict.set _ includeUnresolvedKey _).get? includeUnresolvedKey).getD _ = _
      rw [Dict.get?_set_self]
      rfl
  unfold scopeFromFields at h
  rw [hoptional, hget _ (show "units".toList ∈ fieldKeys by decide), hget _ (show "model_year_from".toList ∈ fieldKeys by decide),
    hget _ (show "model_year_to".toList ∈ fieldKeys by decide), hget _ (show "max_items".toList ∈ fieldKeys by decide),
    hget _ (show "batch_size".toList ∈ fieldKeys by decide)] at h
  rcases except_bind_eq_ok.mp h with ⟨_, _, h⟩
  rcases except_bind_eq_ok.mp h with ⟨unresolved, hunresolved, h⟩
  rcases except_bind_eq_ok.mp h with ⟨units, hunits, h⟩
  rcases except_bind_eq_ok.mp h with ⟨from', hfrom, h⟩
  rcases except_bind_eq_ok.mp h with ⟨to', hto, h⟩
  rcases except_bind_eq_ok.mp h with ⟨years, hyears, h⟩
  rcases except_bind_eq_ok.mp h with ⟨most, hmost, h⟩
  rcases except_bind_eq_ok.mp h with ⟨batch, hbatch, h⟩
  cases h
  have hunresolved : includeUnresolved = unresolved := Option.some.inj (required_eq_ok.mp hunresolved)
  have hunits : units? (.arr (keys.map textDoc)) = some units := required_eq_ok.mp hunits
  have hfrom : year? (boundDoc first) = some from' := required_eq_ok.mp hfrom
  have hto : year? (boundDoc last) = some to' := required_eq_ok.mp hto
  have hmost : within? 1 maxWorkScopeItems (wholeDoc maxItems) = some most := required_eq_ok.mp hmost
  have hbatch : within? 1 maxBatchSize (wholeDoc batchSize) = some batch := required_eq_ok.mp hbatch
  have hordered : years.first = from' ∧ years.last = to' := by
    have hsome := required_eq_ok.mp hyears
    unfold modelYears? at hsome
    split at hsome
    · cases hsome
      exact ⟨rfl, rfl⟩
    · cases hsome
  refine ⟨?_, rfl⟩
  unfold WorkScope.fields
  dsimp only
  rw [units?_textDocs hunits, hordered.1, hordered.2, year?_boundDoc hfrom, year?_boundDoc hto,
    within?_wholeDoc_value hmost, within?_wholeDoc_value hbatch, hunresolved]

end Accepted

/-! ## 5. One instruction -/

section Instruction

variable {reading : Reading} {coverage : Option UnitCoverage} {current : Option WorkScope}
  {interpretation : Interpretation} {scope : WorkScope} {key : Text}

theorem fields_of_applyReading (h : reading.applyReading coverage current = .ok interpretation) :
    ¬(reading.needsCoverage = true ∧ coverage = none) ∧ interpretation.fields = reading.fieldsOver coverage current := by
  unfold Reading.applyReading at h
  rcases except_bind_eq_ok.mp h with ⟨_, hguard, hpure⟩
  cases hpure
  exact ⟨refuseIf_eq_ok.mp hguard, rfl⟩

/-- Whether a reading is refused does not depend on the plan. -/
theorem applyReading_of_guard (h : ¬(reading.needsCoverage = true ∧ coverage = none)) (current : Option WorkScope) :
    ∃ interpretation, reading.applyReading coverage current = .ok interpretation ∧
      interpretation.fields = reading.fieldsOver coverage current :=
  ⟨_, except_bind_eq_ok.mpr ⟨(), refuseIf_eq_ok.mpr h, rfl⟩, rfl⟩

/-- The keys that stay: those set, or the plan's if none is. -/
def Reading.keptKeys (reading : Reading) (coverage : Option UnitCoverage) (current : Option WorkScope) : List Text :=
  if reading.replaces then reading.setKeys coverage else (Reading.fieldsBefore current).units

theorem uniques_base : uniques (reading.base coverage current) = uniques (reading.keptKeys coverage current) := by
  unfold Reading.base Reading.keptKeys
  split
  · exact uniques_of_nodup (nodup_uniques _)
  · cases current <;> rfl

theorem mem_base : key ∈ reading.base coverage current ↔ key ∈ reading.keptKeys coverage current := by
  rw [← mem_uniques, uniques_base, mem_uniques]

/-- What a role names under `unmapped_only` is not known to be held. -/
theorem not_isHeld_of_mem_keysOf {role : Mention → Bool} (hunmapped : reading.unmappedOnly = true)
    (hrole : ∀ mention, role mention = true → mention.states = true) (h : key ∈ reading.keysOf coverage role) :
    Reading.isHeld coverage key = false := by
  obtain ⟨mention, hmention, hkey⟩ := List.mem_flatMap.mp h
  have hstates := hrole mention (List.mem_filter.mp hmention).2
  unfold Reading.admitted at hkey
  rw [hunmapped, hstates, Bool.not_true, Bool.or_self, if_neg Bool.false_ne_true, List.mem_filter] at hkey
  exact Bool.eq_false_of_not_eq_true' hkey.2

theorem not_isHeld_of_stated (hunmapped : reading.unmappedOnly = true)
    (h : key ∈ reading.firstKeys coverage ∨ key ∈ reading.setKeys coverage ∨ key ∈ reading.addKeys coverage) :
    Reading.isHeld coverage key = false := by
  rcases h with hfirst | hset | hadd
  · refine not_isHeld_of_mem_keysOf hunmapped ?_ hfirst
    intro mention hrole
    obtain ⟨keys, group, mode, first⟩ := mention
    cases mode with
    | set => rfl
    | add => rfl
    | remove =>
      rw [Bool.and_eq_true] at hrole
      exact absurd rfl (of_decide_eq_true hrole.2)
  · refine not_isHeld_of_mem_keysOf hunmapped ?_ hset
    exact fun mention hrole => decide_eq_true (Or.inl (of_decide_eq_true hrole))
  · refine not_isHeld_of_mem_keysOf hunmapped ?_ hadd
    exact fun mention hrole => decide_eq_true (Or.inr (of_decide_eq_true hrole))

theorem units_fieldsOver : (reading.fieldsOver coverage current).units =
    arranged (uniques (reading.firstKeys coverage)) (reading.base coverage current)
      (uniques (reading.addKeys coverage)) (uniques reading.removedKeys) := rfl

/-- Over a plan with the fields it gave, a reading gives the same fields. -/
theorem fieldsOver_again (h : scope.fields = reading.fieldsOver coverage current) :
    reading.fieldsOver coverage (some scope) = reading.fieldsOver coverage current := by
  have hbefore : Reading.fieldsBefore (some scope) = reading.fieldsOver coverage current := h
  have hunits : (reading.fieldsOver coverage (some scope)).units = (reading.fieldsOver coverage current).units := by
    rw [units_fieldsOver, units_fieldsOver]
    by_cases hreplaces : reading.replaces = true
    · have hbase : ∀ current, reading.base coverage current = uniques (reading.setKeys coverage) := by
        intro current
        unfold Reading.base
        exact if_pos hreplaces
      rw [hbase, hbase]
    · -- The plan's keys are those of the arrangement itself.
      have hbase : reading.base coverage (some scope) = (reading.fieldsOver coverage current).units := by
        have hkeys : reading.base coverage (some scope) = scope.fields.units := by
          unfold Reading.base
          exact if_neg hreplaces
        rw [hkeys, h]
      rw [hbase, units_fieldsOver]
      exact arranged_again (nodup_uniques _)
  have hyears : ∀ {stated : Bool} {new old : Option ℤ},
      (if stated then new else if stated then new else old) = if stated then new else old := by
    intro stated new old
    cases stated <;> rfl
  have hnumber : ∀ {stated : Option ℤ} {old : ℤ}, stated.getD (stated.getD old) = stated.getD old := by
    intro stated old
    cases stated <;> rfl
  calc reading.fieldsOver coverage (some scope)
      = { Reading.fieldsBefore (some scope) with
          units := (reading.fieldsOver coverage (some scope)).units
          modelYearFrom := if reading.yearsStated then reading.yearFrom
            else (Reading.fieldsBefore (some scope)).modelYearFrom
          modelYearTo := if reading.yearsStated then reading.yearTo
            else (Reading.fieldsBefore (some scope)).modelYearTo
          maxItems := reading.maxItems.getD (Reading.fieldsBefore (some scope)).maxItems
          batchSize := reading.batchSize.getD (Reading.fieldsBefore (some scope)).batchSize } := rfl
    _ = reading.fieldsOver coverage current := by
      rw [hbefore, hunits]
      unfold Reading.fieldsOver
      dsimp only
      rw [hyears, hyears, hnumber, hnumber]

/-- What one instruction does to a plan, or to nothing. -/
structure OneInstruction (reading : Reading) (coverage : Option UnitCoverage) (current : Option WorkScope)
    (interpretation : Interpretation) : Prop where
  order : interpretation.fields.units =
    (uniques (reading.firstKeys coverage)).filter (fun key => decide (key ∉ reading.removedKeys)) ++
      (uniques (reading.keptKeys coverage current)).filter
        (fun key => decide (key ∉ reading.removedKeys ∧ key ∉ reading.firstKeys coverage)) ++
      (uniques (reading.addKeys coverage)).filter (fun key => decide (key ∉ reading.removedKeys ∧
        key ∉ reading.firstKeys coverage ∧ key ∉ reading.keptKeys coverage current))
  distinct : interpretation.fields.units.Nodup
  removed : ∀ key ∈ reading.removedKeys, key ∉ interpretation.fields.units
  held : reading.unmappedOnly = true → ∀ key ∈ interpretation.fields.units, Reading.isHeld coverage key = true →
    reading.replaces = false ∧ ∃ scope, current = some scope ∧ key ∈ scope.fields.units
  units : reading.mentions = [] → interpretation.fields.units = (Reading.fieldsBefore current).units
  years : reading.yearsStated = false →
    interpretation.fields.modelYearFrom = (Reading.fieldsBefore current).modelYearFrom ∧
      interpretation.fields.modelYearTo = (Reading.fieldsBefore current).modelYearTo
  limit : reading.maxItems = none → interpretation.fields.maxItems = (Reading.fieldsBefore current).maxItems
  batch : reading.batchSize = none → interpretation.fields.batchSize = (Reading.fieldsBefore current).batchSize
  unresolved : interpretation.fields.includeUnresolved = (Reading.fieldsBefore current).includeUnresolved
  repeated : ∀ scope, scopeFromFields interpretation.fields.toDict = .ok scope →
    ∃ again, reading.applyReading coverage (some scope) = .ok again ∧ again.fields = interpretation.fields
  unrevised : ∀ scope, scopeFromFields interpretation.fields.toDict = .ok scope →
    ∀ {D : Type} [DecidableEq D] (digestOf : Text → D), ∃ notes, reviseWorkScope digestOf reading coverage
      ⟨scope.canonicalText, digestOf scope.canonicalText⟩ = .ok (.unchanged notes)

/-- A plan at the directory in force is read back from its text. -/
theorem readScopeText_current (h : scope.directoryVersion = points directoryVersion) :
    readScopeText scope.canonicalText = .ok scope := by
  have hstated : VersionStated scope.directoryVersion := by
    rw [h]
    exact ⟨by decide, by decide⟩
  rw [readScopeText_canonicalText_iff hstated, h]
  exact noSplitPair_points directoryVersion

theorem mem_units_fieldsOver : key ∈ (reading.fieldsOver coverage current).units ↔
    (key ∈ reading.firstKeys coverage ∨ key ∈ reading.keptKeys coverage current ∨ key ∈ reading.addKeys coverage) ∧
      key ∉ reading.removedKeys := by
  rw [units_fieldsOver, mem_arranged, mem_uniques, mem_uniques, mem_uniques, mem_base]

theorem order_fieldsOver : (reading.fieldsOver coverage current).units =
    (uniques (reading.firstKeys coverage)).filter (fun key => decide (key ∉ reading.removedKeys)) ++
      (uniques (reading.keptKeys coverage current)).filter
        (fun key => decide (key ∉ reading.removedKeys ∧ key ∉ reading.firstKeys coverage)) ++
      (uniques (reading.addKeys coverage)).filter (fun key => decide (key ∉ reading.removedKeys ∧
        key ∉ reading.firstKeys coverage ∧ key ∉ reading.keptKeys coverage current)) := by
  rw [units_fieldsOver, arranged_eq, uniques_base, uniques_of_nodup (nodup_uniques (reading.addKeys coverage))]
  simp only [mem_uniques, mem_base]

theorem oneInstruction (h : reading.applyReading coverage current = .ok interpretation) :
    OneInstruction reading coverage current interpretation := by
  obtain ⟨hguard, hfields⟩ := fields_of_applyReading h
  have hagain : ∀ scope, scopeFromFields interpretation.fields.toDict = .ok scope →
      ∃ again, reading.applyReading coverage (some scope) = .ok again ∧ again.fields = interpretation.fields := by
    intro scope hscope
    obtain ⟨again, happlied, hgiven⟩ := applyReading_of_guard hguard (some scope)
    refine ⟨again, happlied, ?_⟩
    rw [hgiven, hfields]
    apply fieldsOver_again
    rw [← hfields]
    exact (fields_of_scopeFromFields hscope).1
  refine
    { order := ?_
      distinct := ?_
      removed := ?_
      held := ?_
      units := ?_
      years := ?_
      limit := ?_
      batch := ?_
      unresolved := ?_
      repeated := hagain
      unrevised := ?_ }
  · rw [hfields]
    exact order_fieldsOver
  · rw [hfields]
    exact nodup_arranged (nodup_uniques _)
  · intro key hkey hmem
    rw [hfields, mem_units_fieldsOver] at hmem
    exact hmem.2 hkey
  · intro hunmapped key hkey hheld
    rw [hfields, mem_units_fieldsOver] at hkey
    have hunstated : ¬(key ∈ reading.firstKeys coverage ∨ key ∈ reading.setKeys coverage ∨
        key ∈ reading.addKeys coverage) := by
      intro hstated
      rw [not_isHeld_of_stated hunmapped hstated] at hheld
      cases hheld
    have hkept : key ∈ reading.keptKeys coverage current := by tauto
    unfold Reading.keptKeys at hkept
    split at hkept
    · exact absurd (Or.inr (Or.inl hkept)) hunstated
    · rename_i hreplaces
      refine ⟨Bool.eq_false_of_not_eq_true hreplaces, ?_⟩
      cases current with
      | none => cases hkept
      | some scope => exact ⟨scope, rfl, hkept⟩
  · intro hnone
    have hrole : ∀ role, reading.keysOf coverage role = [] := by
      intro role
      unfold Reading.keysOf
      rw [hnone]
      rfl
    have hremoved : reading.removedKeys = [] := by
      unfold Reading.removedKeys
      rw [hnone]
      rfl
    have hreplaces : reading.replaces = false := by
      unfold Reading.replaces
      rw [hnone]
      rfl
    have hfirst : reading.firstKeys coverage = [] := hrole _
    have hadd : reading.addKeys coverage = [] := hrole _
    have hkept : reading.keptKeys coverage current = (Reading.fieldsBefore current).units := by
      unfold Reading.keptKeys
      rw [hreplaces]
      exact if_neg Bool.false_ne_true
    have hdistinct : (Reading.fieldsBefore current).units.Nodup := by
      cases current with
      | none => exact List.nodup_nil
      | some scope => exact scope.units.distinct.map Subtype.val_injective
    have hall : ∀ keys : List Text, keys.filter (fun key => decide (key ∉ ([] : List Text) ∧ key ∉ ([] : List Text))) = keys :=
      fun keys => List.filter_eq_self.mpr fun key _ => by simp
    rw [hfields, order_fieldsOver, hfirst, hadd, hremoved, hkept, uniques_nil, List.filter_nil, List.filter_nil,
      List.nil_append, List.append_nil, hall, uniques_of_nodup hdistinct]
  · intro hstated
    rw [hfields]
    unfold Reading.fieldsOver
    rw [hstated]
    exact ⟨rfl, rfl⟩
  · intro hstated
    rw [hfields]
    unfold Reading.fieldsOver
    rw [hstated]
    rfl
  · intro hstated
    rw [hfields]
    unfold Reading.fieldsOver
    rw [hstated]
    rfl
  · rw [hfields]
    rfl
  · intro scope hscope D _ digestOf
    obtain ⟨again, happlied, hsame⟩ := hagain scope hscope
    have hstored : storedScope digestOf ⟨scope.canonicalText, digestOf scope.canonicalText⟩ = .ok scope := by
      refine except_bind_eq_ok.mpr ⟨scope, ?_, ?_⟩
      · rw [readScopeText_current (fields_of_scopeFromFields hscope).2]
        rfl
      · exact except_bind_eq_ok.mpr ⟨(), refuseIf_eq_ok.mpr (not_not.mpr rfl), rfl⟩
    have hresolved : resolveReading reading coverage (some scope) = .ok (scope, again.notes) := by
      refine except_bind_eq_ok.mpr ⟨again, ?_, ?_⟩
      · rw [happlied]
        rfl
      · refine except_bind_eq_ok.mpr ⟨scope, ?_, rfl⟩
        rw [hsame, hscope]
        rfl
    refine ⟨again.notes ++ [.noChange], ?_⟩
    refine except_bind_eq_ok.mpr ⟨scope, hstored, ?_⟩
    refine except_bind_eq_ok.mpr ⟨(scope, again.notes), hresolved, ?_⟩
    exact if_pos rfl

/-- "Toyota, Honda and Kia from 2018 that are not mapped yet, Mazda first, without Kia". -/
def mazdaFirst : Reading where
  mentions := [⟨["toyota".toList, "honda".toList, "kia".toList], true, .set, false⟩,
    ⟨["mazda".toList], false, .set, true⟩, ⟨["kia".toList], false, .remove, false⟩]
  yearFrom := some 2018
  yearTo := none
  yearsStated := true
  maxItems := none
  batchSize := none
  unmappedOnly := true
  unrecognized := []

/-- The catalog holds Toyotas. -/
def toyotasHeld : UnitCoverage := Dict.empty.set "toyota".toList (some 3)

theorem oneInstruction_mazdaFirst : ∃ interpretation,
    mazdaFirst.applyReading (some toyotasHeld) none = .ok interpretation ∧
      OneInstruction mazdaFirst (some toyotasHeld) none interpretation ∧
      interpretation.fields.units = ["mazda".toList, "honda".toList] :=
  ⟨_, rfl, oneInstruction rfl, by decide⟩

end Instruction

end Milo.Scope
