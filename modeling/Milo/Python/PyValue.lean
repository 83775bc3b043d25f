import Mathlib

/-!
# PyValue — the values Python code reads from a record

A record holds values of any type under its keys.  Code reads them by `get`, takes them as true or false,
converts them with `int` and compares them with `==`, for which a number is its amount whatever its type.
-/

namespace Milo.Python

/-! ## 1. Values -/

inductive FloatValue
  | finite (amount : ℚ)
  | infinite (negative : Bool)
  | nan
  deriving DecidableEq

inductive PyValue
  | none
  | bool (b : Bool)
  | int (z : ℤ)
  | float (f : FloatValue)
  | str (s : List Char)
  | list (items : List PyValue)
  | dict (members : List (List Char × PyValue))

namespace PyValue

/-- `bool(value)`. -/
def truthy : PyValue → Bool
  | .none => false
  | .bool b => b
  | .int z => decide (z ≠ 0)
  | .float (.finite amount) => decide (amount ≠ 0)
  | .float _ => true
  | .str s => !s.isEmpty
  | .list items => !items.isEmpty
  | .dict members => !members.isEmpty

/-- `value`, if it is a mapping. -/
def members? : PyValue → Option (List (List Char × PyValue))
  | .dict members => some members
  | _ => Option.none

def str? : PyValue → Option (List Char)
  | .str s => some s
  | _ => Option.none

def items? : PyValue → Option (List PyValue)
  | .list items => some items
  | _ => Option.none

/-- `members.get(key)`. -/
def get (members : List (List Char × PyValue)) (key : String) : PyValue := (members.lookup key.toList).getD .none

/-- What a number amounts to; `nan` equals nothing. -/
def amount? : PyValue → Option FloatValue
  | .bool b => some (.finite (if b then 1 else 0))
  | .int z => some (.finite z)
  | .float .nan => Option.none
  | .float f => some f
  | _ => Option.none

/-! ## 2. Equality -/

mutual

/-- `a == b`. -/
def same : PyValue → PyValue → Bool
  | .none, b => match b with
    | .none => true
    | _ => false
  | .str s, b => decide (b.str? = some s)
  | .list items, b => match b with
    | .list items' => sameItems items items'
    | _ => false
  | .dict members, b => match b with
    | .dict members' => decide (members.length = members'.length) && sameMembers members members'
    | _ => false
  | a, b => a.amount?.isSome && decide (a.amount? = b.amount?)

def sameItems : List PyValue → List PyValue → Bool
  | [], [] => true
  | a :: items, b :: items' => same a b && sameItems items items'
  | _, _ => false

def sameMembers : List (List Char × PyValue) → List (List Char × PyValue) → Bool
  | [], _ => true
  | (key, a) :: members, members' =>
    (match members'.lookup key with
      | some b => same a b
      | Option.none => false) && sameMembers members members'

end

section Same

variable {a b : PyValue} {s : List Char} {items : List PyValue} {members : List (List Char × PyValue)}

theorem same_none_iff : same .none b = true ↔ b = .none := by
  cases b with
  | none => exact ⟨fun _ => rfl, fun _ => rfl⟩
  | _ =>
    constructor
    · intro h
      cases h
    · intro h
      cases h

theorem same_str_iff : same (.str s) b = true ↔ b = .str s := by
  show decide (b.str? = some s) = true ↔ _
  rw [decide_eq_true_eq]
  cases b with
  | str t =>
    show some t = some s ↔ _
    rw [Option.some.injEq, PyValue.str.injEq]
  | _ =>
    constructor
    · intro h
      cases h
    · intro h
      cases h

theorem same_int_iff {z : ℤ} : same (.int z) b = true ↔ b.amount? = some (.finite z) := by
  show (true && decide (some (FloatValue.finite (z : ℚ)) = b.amount?)) = true ↔ _
  rw [Bool.true_and, decide_eq_true_eq, eq_comm]

theorem same_bool_iff {flag : Bool} :
    same (.bool flag) b = true ↔ b.amount? = some (.finite (if flag then 1 else 0)) := by
  show (true && decide (some (FloatValue.finite (if flag then 1 else 0)) = b.amount?)) = true ↔ _
  rw [Bool.true_and, decide_eq_true_eq, eq_comm]

theorem same_finite_iff {amount : ℚ} : same (.float (.finite amount)) b = true ↔ b.amount? = some (.finite amount) := by
  show (true && decide (some (FloatValue.finite amount) = b.amount?)) = true ↔ _
  rw [Bool.true_and, decide_eq_true_eq, eq_comm]

theorem sameItems_iff {items' : List PyValue} :
    sameItems items items' = true ↔ List.Forall₂ (fun a b => same a b = true) items items' := by
  induction items generalizing items' with
  | nil =>
    cases items' with
    | nil => exact ⟨fun _ => .nil, fun _ => rfl⟩
    | cons b items' =>
      constructor
      · intro h
        cases h
      · intro h
        cases h
  | cons a items ih =>
    cases items' with
    | nil =>
      constructor
      · intro h
        cases h
      · intro h
        cases h
    | cons b items' =>
      rw [sameItems, Bool.and_eq_true, List.forall₂_cons, ih]

theorem same_list_iff : same (.list items) b = true ↔
    ∃ items', b = .list items' ∧ List.Forall₂ (fun a b => same a b = true) items items' := by
  cases b with
  | list items' =>
    show sameItems items items' = true ↔ _
    rw [sameItems_iff]
    constructor
    · exact fun h => ⟨items', rfl, h⟩
    · rintro ⟨items'', heq, h⟩
      cases heq
      exact h
  | _ =>
    constructor
    · intro h
      cases h
    · rintro ⟨_, heq, _⟩
      cases heq

theorem sameMembers_iff {members' : List (List Char × PyValue)} : sameMembers members members' = true ↔
    ∀ entry ∈ members, ∃ b, members'.lookup entry.1 = some b ∧ same entry.2 b = true := by
  induction members with
  | nil => exact ⟨fun _ entry hentry => absurd hentry List.not_mem_nil, fun _ => rfl⟩
  | cons entry members ih =>
    obtain ⟨key, a⟩ := entry
    rw [sameMembers, Bool.and_eq_true, List.forall_mem_cons, ih]
    refine and_congr_left fun _ => ?_
    cases hlookup : members'.lookup key with
    | none =>
      constructor
      · intro h
        cases h
      · rintro ⟨b, hb, _⟩
        cases hb
    | some b =>
      constructor
      · exact fun h => ⟨b, rfl, h⟩
      · rintro ⟨b', hb', h⟩
        cases hb'
        exact h

theorem same_dict_iff : same (.dict members) b = true ↔ ∃ members', b = .dict members' ∧
    members.length = members'.length ∧
      ∀ entry ∈ members, ∃ c, members'.lookup entry.1 = some c ∧ same entry.2 c = true := by
  cases b with
  | dict members' =>
    show (decide (members.length = members'.length) && sameMembers members members') = true ↔ _
    rw [Bool.and_eq_true, decide_eq_true_eq, sameMembers_iff]
    constructor
    · exact fun h => ⟨members', rfl, h⟩
    · rintro ⟨members'', heq, h⟩
      cases heq
      exact h
  | _ =>
    constructor
    · intro h
      cases h
    · rintro ⟨_, heq, _⟩
      cases heq

end Same

/-! ## 3. Conversion to a whole number -/

/-- What `int` raises. -/
inductive IntFailure
  | typeError
  | valueError
  | overflowError
  deriving DecidableEq

section Convert

-- The whole number a text spells, as `int` reads it.
variable (spelled : List Char → Option ℤ)

/-- `int(value)`; a float is cut toward zero. -/
def toInt : PyValue → Except IntFailure ℤ
  | .bool b => .ok (if b then 1 else 0)
  | .int z => .ok z
  | .float (.finite amount) => .ok (amount.num.tdiv amount.den)
  | .float (.infinite _) => .error .overflowError
  | .float .nan => .error .valueError
  | .str s => match spelled s with
    | some z => .ok z
    | Option.none => .error .valueError
  | _ => .error .typeError

/-- `int(value or default)`. -/
def intOr (default : ℤ) (value : PyValue) : Except IntFailure ℤ :=
  if value.truthy then toInt spelled value else .ok default

variable {spelled} {value : PyValue} {z default : ℤ}

theorem toInt_of_amount? (h : value.amount? = some (.finite z)) : toInt spelled value = .ok z := by
  cases value with
  | bool b =>
    cases b with
    | false =>
      have hzero : (0 : ℚ) = z := FloatValue.finite.inj (Option.some.inj h)
      have hz : z = 0 := by exact_mod_cast hzero.symm
      rw [hz]
      rfl
    | true =>
      have hone : (1 : ℚ) = z := FloatValue.finite.inj (Option.some.inj h)
      have hz : z = 1 := by exact_mod_cast hone.symm
      rw [hz]
      rfl
  | int z' =>
    have heq : (z' : ℚ) = z := FloatValue.finite.inj (Option.some.inj h)
    have hz : z' = z := by exact_mod_cast heq
    rw [hz]
    rfl
  | float f =>
    cases f with
    | finite amount =>
      have heq : amount = z := FloatValue.finite.inj (Option.some.inj h)
      show Except.ok (amount.num.tdiv amount.den) = _
      rw [heq, Rat.num_intCast, Rat.den_intCast, Nat.cast_one, Int.tdiv_one]
    | infinite negative => cases h
    | nan => cases h
  | _ => cases h

theorem truthy_of_amount? {amount : ℚ} (h : value.amount? = some (.finite amount)) :
    value.truthy = decide (amount ≠ 0) := by
  cases value with
  | bool b =>
    cases b with
    | false =>
      have hzero : (0 : ℚ) = amount := FloatValue.finite.inj (Option.some.inj h)
      rw [← hzero]
      rfl
    | true =>
      have hone : (1 : ℚ) = amount := FloatValue.finite.inj (Option.some.inj h)
      rw [← hone]
      rfl
  | int z' =>
    have heq : (z' : ℚ) = amount := FloatValue.finite.inj (Option.some.inj h)
    rw [← heq]
    show decide (z' ≠ 0) = _
    rw [decide_eq_decide, Ne, Ne, Int.cast_eq_zero]
  | float f =>
    cases f with
    | finite amount' =>
      have heq : amount' = amount := FloatValue.finite.inj (Option.some.inj h)
      rw [← heq]
      rfl
    | infinite negative => cases h
    | nan => cases h
  | _ => cases h

/-- A number is read as what it amounts to, if a zero is read as the default too. -/
theorem intOr_of_amount? (h : value.amount? = some (.finite z)) (hzero : z = 0 → default = 0) :
    intOr spelled default value = .ok z := by
  unfold intOr
  rw [truthy_of_amount? h]
  by_cases hz : z = 0
  · subst hz
    rw [hzero rfl]
    exact if_neg (by simp)
  · have hne : ((z : ℤ) : ℚ) ≠ 0 := by exact_mod_cast hz
    rw [if_pos (decide_eq_true hne)]
    exact toInt_of_amount? h

end Convert

/-! ## 4. Readings of one type -/

section Readings

variable {value : PyValue}

theorem str?_eq_some {text : List Char} : value.str? = some text ↔ value = .str text := by
  rw [← same_str_iff]
  show _ ↔ decide (value.str? = some text) = true
  rw [decide_eq_true_eq]

theorem members?_eq_some {members : List (List Char × PyValue)} : value.members? = some members ↔ value = .dict members := by
  cases value with
  | dict found =>
    show some found = some members ↔ _
    rw [Option.some.injEq, PyValue.dict.injEq]
  | _ => exact ⟨(fun h => by cases h), (fun h => by cases h)⟩

theorem items?_eq_some {items : List PyValue} : value.items? = some items ↔ value = .list items := by
  cases value with
  | list found =>
    show some found = some items ↔ _
    rw [Option.some.injEq, PyValue.list.injEq]
  | _ => exact ⟨(fun h => by cases h), (fun h => by cases h)⟩

theorem items?_bind_mapM_eq_some {α : Type} {read : PyValue → Option α} {write : α → PyValue} {found : List α}
    (h : ∀ value a, read value = some a ↔ value = write a) :
    (value.items?.bind fun items => items.mapM read) = some found ↔ value = .list (found.map write) := by
  have hitems : ∀ items : List PyValue, items.mapM read = some found ↔ items = found.map write := by
    intro items
    induction items generalizing found with
    | nil =>
      rw [List.mapM_nil]
      cases found with
      | nil => exact ⟨fun _ => rfl, fun _ => rfl⟩
      | cons a found => exact ⟨(fun h => by cases h), (fun h => by cases h)⟩
    | cons item items ih =>
      rw [List.mapM_cons]
      constructor
      · intro hread
        rcases Option.bind_eq_some_iff.mp hread with ⟨a, hitem, hrest⟩
        rcases Option.bind_eq_some_iff.mp hrest with ⟨rest, hitems, hcons⟩
        have hfound : a :: rest = found := Option.some.inj hcons
        rw [← hfound, List.map_cons, (h item a).mp hitem, ih.mp hitems]
      · intro hwritten
        cases found with
        | nil => cases hwritten
        | cons a found =>
          rw [List.map_cons, List.cons.injEq] at hwritten
          refine Option.bind_eq_some_iff.mpr ⟨a, (h item a).mpr hwritten.1, ?_⟩
          exact Option.bind_eq_some_iff.mpr ⟨found, ih.mpr hwritten.2, rfl⟩
  rw [Option.bind_eq_some_iff]
  constructor
  · rintro ⟨items, hlist, hread⟩
    rw [items?_eq_some.mp hlist, (hitems items).mp hread]
  · intro hvalue
    exact ⟨_, items?_eq_some.mpr hvalue, (hitems _).mpr rfl⟩

end Readings

end PyValue

end Milo.Python
