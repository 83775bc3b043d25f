import Milo.Python.JsonLines
import Milo.Python.QuotedText

/-!
# JsonReader — reading a JSON text

`json.loads`, as far as the text tells: a number stays as it is spelled, a text is its code points (an
escape may name half of a pair), and the members of an object stand in the order of the text, repeated
ones included.  What the readers of Python and of the database make of such a document is up to them.
-/

namespace Milo.Python

open Milo.Reasoning

/-! ## 1. Documents -/

/-- A number as it is spelled. -/
structure NumberLiteral where
  negative : Bool
  whole : ℕ
  fraction : Option (List Char)
  exponent : Option ℤ
  deriving DecidableEq

/-- A document; `constant` is one of the words `NaN`, `Infinity` and `-Infinity`. -/
inductive JsonDoc
  | null
  | bool (b : Bool)
  | constant
  | number (literal : NumberLiteral)
  | str (points : List ℕ)
  | arr (items : List JsonDoc)
  | obj (members : List (List ℕ × JsonDoc))

/-- The code points of a text. -/
def points (text : List Char) : List ℕ := text.map Char.toNat

theorem points_injective : Function.Injective points := by
  apply List.map_injective_iff.mpr
  intro c d h
  rw [← Char.ofNat_toNat c, h, Char.ofNat_toNat]

/-! ## 2. Texts -/

def hexDigitValue? (c : Char) : Option ℕ :=
  if c.isDigit then some (c.toNat - 48)
  else if 'a' ≤ c ∧ c ≤ 'f' then some (c.toNat - 87)
  else if 'A' ≤ c ∧ c ≤ 'F' then some (c.toNat - 55)
  else none

def unit? (a b c d : Char) : Option ℕ := do
  let a ← hexDigitValue? a
  let b ← hexDigitValue? b
  let c ← hexDigitValue? c
  let d ← hexDigitValue? d
  some (a * 4096 + b * 256 + c * 16 + d)

def shortEscape? (c : Char) : Option ℕ :=
  if c = '"' ∨ c = '\\' ∨ c = '/' then some c.toNat
  else if c = 'b' then some 8
  else if c = 'f' then some 12
  else if c = 'n' then some 10
  else if c = 'r' then some 13
  else if c = 't' then some 9
  else none

/-- The escapes and characters up to the closing quotation mark, pairs not yet joined. -/
def readUnits : List Char → Option (List ℕ × List Char)
  | [] => none
  | '"' :: rest => some ([], rest)
  | '\\' :: 'u' :: a :: b :: c :: d :: rest => do
    let unit ← unit? a b c d
    let (units, after) ← readUnits rest
    some (unit :: units, after)
  | '\\' :: c :: rest => do
    let unit ← shortEscape? c
    let (units, after) ← readUnits rest
    some (unit :: units, after)
  | c :: rest =>
    if c.toNat < 32 then none
    else do
      let (units, after) ← readUnits rest
      some (c.toNat :: units, after)

def isHigh (unit : ℕ) : Bool := decide (55296 ≤ unit ∧ unit < 56320)

def isLow (unit : ℕ) : Bool := decide (56320 ≤ unit ∧ unit < 57344)

/-- Pairs of escapes joined; a half without its other half stays. -/
def joinUnits : List ℕ → List ℕ
  | high :: low :: rest =>
    if isHigh high && isLow low then
      (65536 + (high - 55296) * 1024 + (low - 56320)) :: joinUnits rest
    else high :: joinUnits (low :: rest)
  | units => units

/-- A text after its opening quotation mark. -/
def readText (text : List Char) : Option (List ℕ × List Char) :=
  (readUnits text).map fun p => (joinUnits p.1, p.2)

/-! ## 3. Numbers -/

/-- No leading zeros. -/
def readWhole : List Char → Option (ℕ × List Char)
  | '0' :: rest => some (0, rest)
  | text =>
    if text.takeWhile Char.isDigit = [] then none
    else some (Nat.ofDigitChars 10 (text.takeWhile Char.isDigit) 0, text.dropWhile Char.isDigit)

def readFractionPart : List Char → Option (List Char) × List Char
  | '.' :: rest =>
    if rest.takeWhile Char.isDigit = [] then (none, '.' :: rest)
    else (some (rest.takeWhile Char.isDigit), rest.dropWhile Char.isDigit)
  | text => (none, text)

/-- The sign of an exponent, and what follows it. -/
def readSign : List Char → Bool × List Char
  | '-' :: rest => (true, rest)
  | '+' :: rest => (false, rest)
  | text => (false, text)

def readPower : List Char → Option ℤ × List Char
  | [] => (none, [])
  | mark :: rest =>
    let (negative, digits) := readSign rest
    if (mark = 'e' ∨ mark = 'E') ∧ digits.takeWhile Char.isDigit ≠ [] then
      let power : ℤ := Nat.ofDigitChars 10 (digits.takeWhile Char.isDigit) 0
      (some (if negative then -power else power), digits.dropWhile Char.isDigit)
    else (none, mark :: rest)

def readUnsigned (negative : Bool) (text : List Char) : Option (JsonDoc × List Char) :=
  (readWhole text).map fun p =>
    let fraction := readFractionPart p.2
    let power := readPower fraction.2
    (.number ⟨negative, p.1, fraction.1, power.1⟩, power.2)

def readNumber : List Char → Option (JsonDoc × List Char)
  | '-' :: text => readUnsigned true text
  | text => readUnsigned false text

/-! ## 4. Values -/

def isJsonSpace (c : Char) : Bool := [' ', '\t', '\n', '\r'].contains c

def skipSpace (text : List Char) : List Char := text.dropWhile isJsonSpace

/-- The text after a word. -/
def afterWord (word text : List Char) : Option (List Char) :=
  if word.isPrefixOf text then some (text.drop word.length) else none

def readWord (word : List Char) (doc : JsonDoc) (text : List Char) : Option (JsonDoc × List Char) :=
  (afterWord word text).map fun rest => (doc, rest)

mutual

/-- A value and the text after it; `fuel` bounds the recursion. -/
def readValue : ℕ → List Char → Option (JsonDoc × List Char)
  | 0, _ => none
  | fuel + 1, text =>
    match text with
    | '"' :: rest => (readText rest).map fun p => (.str p.1, p.2)
    | '[' :: rest =>
      match skipSpace rest with
      | ']' :: rest => some (.arr [], rest)
      | rest => (readItems fuel rest).map fun p => (.arr p.1, p.2)
    | '{' :: rest =>
      match skipSpace rest with
      | '}' :: rest => some (.obj [], rest)
      | rest => (readMembers fuel rest).map fun p => (.obj p.1, p.2)
    | 'n' :: rest => readWord "ull".toList .null rest
    | 't' :: rest => readWord "rue".toList (.bool true) rest
    | 'f' :: rest => readWord "alse".toList (.bool false) rest
    | 'N' :: rest => readWord "aN".toList .constant rest
    | 'I' :: rest => readWord "nfinity".toList .constant rest
    | '-' :: 'I' :: rest => readWord "nfinity".toList .constant rest
    | text => readNumber text

/-- The items of a list from the first, and what follows the closing bracket. -/
def readItems : ℕ → List Char → Option (List JsonDoc × List Char)
  | 0, _ => none
  | fuel + 1, text => do
    let (item, rest) ← readValue fuel text
    match skipSpace rest with
    | ']' :: rest => some ([item], rest)
    | ',' :: rest => do
      let (items, rest) ← readItems fuel (skipSpace rest)
      some (item :: items, rest)
    | _ => none

/-- The members of an object from the first, and what follows the closing brace. -/
def readMembers : ℕ → List Char → Option (List (List ℕ × JsonDoc) × List Char)
  | 0, _ => none
  | fuel + 1, text =>
    match text with
    | '"' :: text => do
      let (key, rest) ← readText text
      match skipSpace rest with
      | ':' :: rest => do
        let (value, rest) ← readValue fuel (skipSpace rest)
        match skipSpace rest with
        | '}' :: rest => some ([(key, value)], rest)
        | ',' :: rest => do
          let (members, rest) ← readMembers fuel (skipSpace rest)
          some ((key, value) :: members, rest)
        | _ => none
      | _ => none
    | _ => none

end

/-- `json.loads`; two steps of fuel for each letter are enough. -/
def loads (text : List Char) : Option JsonDoc := do
  let (doc, rest) ← readValue (2 * text.length + 2) (skipSpace text)
  if skipSpace rest = [] then some doc else none

mutual

/-- The most lists and objects that are open at once while a value is read, whatever comes of it. -/
def enteredValue : ℕ → List Char → ℕ
  | 0, _ => 0
  | fuel + 1, text =>
    match text with
    | '[' :: rest =>
      match skipSpace rest with
      | ']' :: _ => 1
      | rest => enteredItems fuel rest + 1
    | '{' :: rest =>
      match skipSpace rest with
      | '}' :: _ => 1
      | rest => enteredMembers fuel rest + 1
    | _ => 0

def enteredItems : ℕ → List Char → ℕ
  | 0, _ => 0
  | fuel + 1, text =>
    max (enteredValue fuel text) <|
      match readValue fuel text with
      | none => 0
      | some (_, rest) =>
        match skipSpace rest with
        | ',' :: rest => enteredItems fuel (skipSpace rest)
        | _ => 0

def enteredMembers : ℕ → List Char → ℕ
  | 0, _ => 0
  | fuel + 1, text =>
    match text with
    | '"' :: text =>
      match readText text with
      | none => 0
      | some (_, rest) =>
        match skipSpace rest with
        | ':' :: rest =>
          max (enteredValue fuel (skipSpace rest)) <|
            match readValue fuel (skipSpace rest) with
            | none => 0
            | some (_, rest) =>
              match skipSpace rest with
              | ',' :: rest => enteredMembers fuel (skipSpace rest)
              | _ => 0
        | _ => 0
    | _ => 0

end

/-- How deep `json.loads` recurses on a text. -/
def nesting (text : List Char) : ℕ := enteredValue (2 * text.length + 2) (skipSpace text)

/-! ## 5. What is read -/

mutual

/-- The numbers, the texts with the keys, and the constants of a document pass. -/
def JsonDoc.every (number : NumberLiteral → Bool) (text : List ℕ → Bool) (constant : Bool) : JsonDoc → Bool
  | .constant => constant
  | .number literal => number literal
  | .str codes => text codes
  | .arr items => everyItem number text constant items
  | .obj members => everyMember number text constant members
  | _ => true

def everyItem (number : NumberLiteral → Bool) (text : List ℕ → Bool) (constant : Bool) : List JsonDoc → Bool
  | [] => true
  | item :: items => item.every number text constant && everyItem number text constant items

def everyMember (number : NumberLiteral → Bool) (text : List ℕ → Bool) (constant : Bool) :
    List (List ℕ × JsonDoc) → Bool
  | [] => true
  | (key, value) :: members =>
    text key && value.every number text constant && everyMember number text constant members

end

section Every

variable {number : NumberLiteral → Bool} {text : List ℕ → Bool} {constant : Bool}

theorem everyItem_eq_all (items : List JsonDoc) :
    everyItem number text constant items = items.all fun item => item.every number text constant := by
  induction items with
  | nil => rfl
  | cons item items ih => rw [everyItem, ih, List.all_cons]

theorem everyMember_eq_all (members : List (List ℕ × JsonDoc)) :
    everyMember number text constant members =
      members.all fun entry => text entry.1 && entry.2.every number text constant := by
  induction members with
  | nil => rfl
  | cons entry members ih => rw [everyMember, ih, List.all_cons]

/-- Two checks of a document at once; induction on the document. -/
theorem JsonDoc.every_and {number' : NumberLiteral → Bool} {text' : List ℕ → Bool} {constant' : Bool} (doc : JsonDoc) :
    doc.every (fun literal => number literal && number' literal) (fun codes => text codes && text' codes)
        (constant && constant') = (doc.every number text constant && doc.every number' text' constant') := by
  refine @JsonDoc.rec
    (fun doc => doc.every (fun literal => number literal && number' literal)
        (fun codes => text codes && text' codes) (constant && constant') =
      (doc.every number text constant && doc.every number' text' constant'))
    (fun items => everyItem (fun literal => number literal && number' literal)
        (fun codes => text codes && text' codes) (constant && constant') items =
      (everyItem number text constant items && everyItem number' text' constant' items))
    (fun members => everyMember (fun literal => number literal && number' literal)
        (fun codes => text codes && text' codes) (constant && constant') members =
      (everyMember number text constant members && everyMember number' text' constant' members))
    (fun entry => entry.2.every (fun literal => number literal && number' literal)
        (fun codes => text codes && text' codes) (constant && constant') =
      (entry.2.every number text constant && entry.2.every number' text' constant'))
    rfl (fun _ => rfl) rfl (fun _ => rfl) (fun _ => rfl) (fun _ ih => ih) (fun _ ih => ih) rfl
    (fun item items hitem hitems => ?_) rfl (fun entry members hentry hmembers => ?_) (fun _ _ ih => ih) doc
  · rw [everyItem, everyItem, everyItem, hitem, hitems]
    ac_rfl
  · rw [everyMember, everyMember, everyMember, hentry, hmembers]
    ac_rfl

end Every

/-- Code points only. -/
def areCodes (codes : List ℕ) : Bool := codes.all fun code => decide (code < 1114112)

theorem hexDigitValue?_lt {c : Char} {n : ℕ} (h : hexDigitValue? c = some n) : n < 16 := by
  unfold hexDigitValue? at h
  split at h
  · rename_i hdigit
    cases h
    unfold Char.isDigit at hdigit
    rw [Bool.and_eq_true, decide_eq_true_eq, decide_eq_true_eq] at hdigit
    have hhigh : c.toNat ≤ 57 := hdigit.2
    omega
  split at h
  · rename_i hletter
    cases h
    have hhigh : c.toNat ≤ 102 := hletter.2
    omega
  split at h
  · rename_i hletter
    cases h
    have hhigh : c.toNat ≤ 70 := hletter.2
    omega
  · cases h

theorem unit?_lt {a b c d : Char} {n : ℕ} (h : unit? a b c d = some n) : n < 1114112 := by
  rcases Option.bind_eq_some_iff.mp h with ⟨w, hw, h⟩
  rcases Option.bind_eq_some_iff.mp h with ⟨x, hx, h⟩
  rcases Option.bind_eq_some_iff.mp h with ⟨y, hy, h⟩
  rcases Option.bind_eq_some_iff.mp h with ⟨z, hz, h⟩
  cases h
  have hw := hexDigitValue?_lt hw
  have hx := hexDigitValue?_lt hx
  have hy := hexDigitValue?_lt hy
  have hz := hexDigitValue?_lt hz
  omega

theorem shortEscape?_lt {c : Char} {n : ℕ} (h : shortEscape? c = some n) : n < 1114112 := by
  unfold shortEscape? at h
  split at h
  · cases h
    exact toNat_lt c
  repeat' split at h
  all_goals cases h
  all_goals decide

/-- A text takes something of what is read, and is made of code points; induction as it is read. -/
theorem readUnits_leaves : ∀ {text units rest}, readUnits text = some (units, rest) →
    rest.length < text.length ∧ areCodes units = true := by
  have hcons : ∀ {unit : ℕ} {units : List ℕ}, unit < 1114112 → areCodes units = true →
      areCodes (unit :: units) = true := by
    intro unit units hunit hunits
    unfold areCodes at *
    rw [List.all_cons, hunits, Bool.and_true]
    exact decide_eq_true hunit
  intro text
  induction text using readUnits.induct with
  | case1 => exact fun h => by cases h
  | case2 rest =>
    intro units rest' h
    cases h
    exact ⟨Nat.lt_succ_self _, rfl⟩
  | case3 a b c d text ih =>
    intro units rest h
    rcases Option.bind_eq_some_iff.mp h with ⟨unit, hunit, h⟩
    rcases Option.bind_eq_some_iff.mp h with ⟨p, hp, h⟩
    cases h
    have hlt := (ih hp).1
    simp only [List.length_cons]
    exact ⟨by omega, hcons (unit?_lt hunit) (ih hp).2⟩
  | case4 c text _ ih =>
    intro units rest h
    rw [readUnits] at h
    · rcases Option.bind_eq_some_iff.mp h with ⟨unit, hunit, h⟩
      rcases Option.bind_eq_some_iff.mp h with ⟨p, hp, h⟩
      cases h
      have hlt := (ih hp).1
      simp only [List.length_cons]
      exact ⟨by omega, hcons (shortEscape?_lt hunit) (ih hp).2⟩
    · assumption
  | case5 c text _ _ _ hsmall =>
    intro units rest h
    rw [readUnits, if_pos hsmall] at h
    · cases h
    all_goals assumption
  | case6 c text _ _ _ hsmall ih =>
    intro units rest h
    rw [readUnits, if_neg hsmall] at h
    · rcases Option.bind_eq_some_iff.mp h with ⟨p, hp, h⟩
      cases h
      have hlt := (ih hp).1
      rw [List.length_cons]
      exact ⟨by omega, hcons (toNat_lt c) (ih hp).2⟩
    all_goals assumption

theorem areCodes_joinUnits {units : List ℕ} (h : areCodes units = true) : areCodes (joinUnits units) = true := by
  induction units using joinUnits.induct with
  | case1 high low rest hpair ih =>
    unfold areCodes at *
    rw [List.all_cons, List.all_cons, Bool.and_eq_true, Bool.and_eq_true] at h
    rw [joinUnits, if_pos hpair, List.all_cons, ih h.2.2, Bool.and_true]
    rw [Bool.and_eq_true] at hpair
    have hhigh := of_decide_eq_true hpair.1
    have hlow := of_decide_eq_true hpair.2
    apply decide_eq_true
    omega
  | case2 high low rest hpair ih =>
    unfold areCodes at *
    rw [List.all_cons, Bool.and_eq_true] at h
    rw [joinUnits, if_neg hpair, List.all_cons, ih h.2, Bool.and_true]
    exact h.1
  | case3 units hshort =>
    rw [joinUnits]
    · exact h
    · exact hshort

section Leaves

variable {text rest : List Char} {doc : JsonDoc}

theorem readText_leaves {codes : List ℕ} (h : readText text = some (codes, rest)) :
    rest.length < text.length ∧ areCodes codes = true := by
  rcases Option.map_eq_some_iff.mp h with ⟨p, hp, heq⟩
  cases heq
  have hleaves := readUnits_leaves hp
  exact ⟨hleaves.1, areCodes_joinUnits hleaves.2⟩

theorem length_dropWhile_le (p : Char → Bool) (text : List Char) : (text.dropWhile p).length ≤ text.length :=
  (List.dropWhile_sublist p).length_le

theorem readWhole_shorter {n : ℕ} (h : readWhole text = some (n, rest)) : rest.length < text.length := by
  unfold readWhole at h
  split at h
  · cases h
    exact Nat.lt_succ_self _
  · split at h
    · cases h
    · rename_i hdigits
      cases h
      have hsum : text.takeWhile Char.isDigit ++ text.dropWhile Char.isDigit = text := List.takeWhile_append_dropWhile
      have hlength := congrArg List.length hsum
      have hpos := List.length_pos_of_ne_nil hdigits
      rw [List.length_append] at hlength
      omega

theorem readFractionPart_le (text : List Char) : (readFractionPart text).2.length ≤ text.length := by
  unfold readFractionPart
  split
  · rename_i rest
    split
    · exact le_refl _
    · exact (length_dropWhile_le _ rest).trans (Nat.le_succ _)
  · exact le_refl _

theorem readSign_le (text : List Char) : (readSign text).2.length ≤ text.length := by
  unfold readSign
  split
  · exact Nat.le_succ _
  · exact Nat.le_succ _
  · exact le_refl _

theorem readPower_le (text : List Char) : (readPower text).2.length ≤ text.length := by
  cases text with
  | nil => exact le_refl _
  | cons mark rest =>
    unfold readPower
    dsimp only
    split
    · have hsign := readSign_le rest
      have hdigits := length_dropWhile_le Char.isDigit (readSign rest).2
      exact (hdigits.trans hsign).trans (Nat.le_succ _)
    · exact le_refl _

theorem skipSpace_le (text : List Char) : (skipSpace text).length ≤ text.length := length_dropWhile_le _ text

mutual

/-- How deep lists and objects nest in a document. -/
def JsonDoc.depth : JsonDoc → ℕ
  | .arr items => itemsDepth items + 1
  | .obj members => membersDepth members + 1
  | _ => 0

def itemsDepth : List JsonDoc → ℕ
  | [] => 0
  | item :: items => max item.depth (itemsDepth items)

def membersDepth : List (List ℕ × JsonDoc) → ℕ
  | [] => 0
  | (_, value) :: members => max value.depth (membersDepth members)

end

/-- Every text of a document that is read is made of code points. -/
def JsonDoc.isCoded (doc : JsonDoc) : Bool := doc.every (fun _ => true) areCodes true

/-- What a reading leaves: less text, and a document of code points that nests as deep as was entered. -/
structure SoundReading (entered : ℕ) (text : List Char) (doc : JsonDoc) (rest : List Char) : Prop where
  shorter : rest.length < text.length
  coded : doc.isCoded = true
  entered : entered = doc.depth

theorem readUnsigned_sound {negative : Bool} (h : readUnsigned negative text = some (doc, rest)) :
    SoundReading 0 text doc rest := by
  rcases Option.map_eq_some_iff.mp h with ⟨⟨n, after⟩, hwhole, heq⟩
  cases heq
  have hlt := readWhole_shorter hwhole
  have hfraction := readFractionPart_le after
  have hpower := readPower_le (readFractionPart after).2
  exact ⟨(hpower.trans hfraction).trans_lt hlt, rfl, rfl⟩

theorem readNumber_sound (h : readNumber text = some (doc, rest)) : SoundReading 0 text doc rest := by
  unfold readNumber at h
  split at h
  · have hsound := readUnsigned_sound h
    exact ⟨hsound.shorter.trans (Nat.lt_succ_self _), hsound.coded, hsound.entered⟩
  · exact readUnsigned_sound h

theorem readWord_sound {word : List Char} {doc' : JsonDoc} (c : Char) (hcoded : doc'.isCoded = true)
    (hdepth : 0 = doc'.depth) (h : readWord word doc' text = some (doc, rest)) :
    SoundReading 0 (c :: text) doc rest := by
  rcases Option.map_eq_some_iff.mp h with ⟨after, hafter, heq⟩
  cases heq
  unfold afterWord at hafter
  split at hafter
  · cases hafter
    refine ⟨?_, hcoded, hdepth⟩
    rw [List.length_drop, List.length_cons]
    omega
  · cases hafter

/-- What each of the three readers leaves; induction on the fuel. -/
theorem readValue_sound_aux (fuel : ℕ) :
    (∀ text doc rest, readValue fuel text = some (doc, rest) → SoundReading (enteredValue fuel text) text doc rest) ∧
      (∀ text items rest, readItems fuel text = some (items, rest) →
        SoundReading (enteredItems fuel text + 1) text (.arr items) rest) ∧
      ∀ text members rest, readMembers fuel text = some (members, rest) →
        SoundReading (enteredMembers fuel text + 1) text (.obj members) rest := by
  induction fuel with
  | zero =>
    refine ⟨?_, ?_, ?_⟩
    · intro text doc rest h
      cases h
    · intro text items rest h
      cases h
    · intro text members rest h
      cases h
  | succ fuel ih =>
    obtain ⟨hvalue, hitems, hmembers⟩ := ih
    refine ⟨?_, ?_, ?_⟩
    · intro text doc rest h
      unfold readValue at h
      split at h
      · rcases Option.map_eq_some_iff.mp h with ⟨p, hp, heq⟩
        cases heq
        have hleaves := readText_leaves hp
        exact ⟨hleaves.1.trans (Nat.lt_succ_self _), hleaves.2, rfl⟩
      · rename_i body
        have hspace := skipSpace_le body
        show SoundReading (match skipSpace body with
          | ']' :: _ => 1
          | rest => enteredItems fuel rest + 1) _ _ _
        split at h
        · rename_i after hafter
          cases h
          rw [hafter, List.length_cons] at hspace
          exact ⟨by rw [List.length_cons]; omega, rfl, rfl⟩
        · rcases Option.map_eq_some_iff.mp h with ⟨p, hp, heq⟩
          cases heq
          have hsound := hitems _ _ _ hp
          exact ⟨(hsound.shorter.trans_le hspace).trans (Nat.lt_succ_self _), hsound.coded, hsound.entered⟩
      · rename_i body
        have hspace := skipSpace_le body
        show SoundReading (match skipSpace body with
          | '}' :: _ => 1
          | rest => enteredMembers fuel rest + 1) _ _ _
        split at h
        · rename_i after hafter
          cases h
          rw [hafter, List.length_cons] at hspace
          exact ⟨by rw [List.length_cons]; omega, rfl, rfl⟩
        · rcases Option.map_eq_some_iff.mp h with ⟨p, hp, heq⟩
          cases heq
          have hsound := hmembers _ _ _ hp
          exact ⟨(hsound.shorter.trans_le hspace).trans (Nat.lt_succ_self _), hsound.coded, hsound.entered⟩
      · exact readWord_sound _ rfl rfl h
      · exact readWord_sound _ rfl rfl h
      · exact readWord_sound _ rfl rfl h
      · exact readWord_sound _ rfl rfl h
      · exact readWord_sound _ rfl rfl h
      · have hsound := readWord_sound 'I' rfl rfl h
        exact ⟨hsound.shorter.trans (Nat.lt_succ_self _), hsound.coded, hsound.entered⟩
      · rename_i hlist hobject _ _ _ _ _ _
        have hentered : enteredValue (fuel + 1) text = 0 := by
          unfold enteredValue
          split
          · exact absurd rfl (hlist _)
          · exact absurd rfl (hobject _)
          · rfl
        -- a number opens nothing
        rw [hentered]
        exact readNumber_sound h
    · intro text items rest h
      unfold readItems at h
      rcases Option.bind_eq_some_iff.mp h with ⟨⟨item, after⟩, hread, h⟩
      dsimp only at h
      have hfirst := hvalue _ _ _ hread
      have hspace := skipSpace_le after
      have hlt := hfirst.shorter
      rw [enteredItems, hread, hfirst.entered]
      split at h
      · rename_i rest hrest
        cases h
        rw [hrest, List.length_cons] at hspace
        refine ⟨by omega, (Bool.and_eq_true _ _).mpr ⟨hfirst.coded, rfl⟩, ?_⟩
        simp only [hrest]
        rfl
      · rename_i more hmore
        rcases Option.bind_eq_some_iff.mp h with ⟨⟨others, last⟩, hothers, h⟩
        cases h
        have hsound := hitems _ _ _ hothers
        have hlast := hsound.shorter
        have hskip := skipSpace_le more
        rw [hmore, List.length_cons] at hspace
        refine ⟨?_, (Bool.and_eq_true _ _).mpr ⟨hfirst.coded, hsound.coded⟩, ?_⟩
        · show last.length < text.length
          omega
        · simp only [hmore, Nat.succ_injective hsound.entered]
          rfl
      · cases h
    · intro text members rest h
      unfold readMembers at h
      split at h
      · rcases Option.bind_eq_some_iff.mp h with ⟨⟨key, after⟩, hkey, h⟩
        dsimp only at h
        obtain ⟨hlt, hcodes⟩ := readText_leaves hkey
        have hspace := skipSpace_le after
        rw [enteredMembers, hkey]
        split at h
        · rename_i body hbody
          rcases Option.bind_eq_some_iff.mp h with ⟨⟨value, after'⟩, hread, h⟩
          dsimp only at h
          have hfirst := hvalue _ _ _ hread
          have hlt' := hfirst.shorter
          have hskip := skipSpace_le body
          have hspace' := skipSpace_le after'
          have hcoded : (areCodes key && value.isCoded) = true := (Bool.and_eq_true _ _).mpr ⟨hcodes, hfirst.coded⟩
          simp only [hbody, hread, hfirst.entered]
          rw [hbody, List.length_cons] at hspace
          split at h
          · rename_i rest hrest
            cases h
            rw [hrest, List.length_cons] at hspace'
            refine ⟨by rw [List.length_cons]; omega, (Bool.and_eq_true _ _).mpr ⟨hcoded, rfl⟩, ?_⟩
            simp only [hrest]
            rfl
          · rename_i more hmore
            rcases Option.bind_eq_some_iff.mp h with ⟨⟨others, last⟩, hothers, h⟩
            cases h
            have hsound := hmembers _ _ _ hothers
            have hlast := hsound.shorter
            have hskip' := skipSpace_le more
            rw [hmore, List.length_cons] at hspace'
            refine ⟨?_, (Bool.and_eq_true _ _).mpr ⟨hcoded, hsound.coded⟩, ?_⟩
            · show last.length < _
              rw [List.length_cons]
              omega
            · simp only [hmore, Nat.succ_injective hsound.entered]
              rfl
          · cases h
        · cases h
      · cases h

theorem readValue_sound {fuel : ℕ} (h : readValue fuel text = some (doc, rest)) :
    SoundReading (enteredValue fuel text) text doc rest :=
  (readValue_sound_aux fuel).1 text doc rest h

theorem loads_sound (h : loads text = some doc) : doc.isCoded = true ∧ nesting text = doc.depth := by
  rcases Option.bind_eq_some_iff.mp h with ⟨⟨found, rest⟩, hread, h⟩
  dsimp only at h
  split at h
  · cases h
    exact ⟨(readValue_sound hread).coded, (readValue_sound hread).entered⟩
  · cases h

end Leaves

example : nesting "[[\x7b\"a\":[".toList = 4 := by decide +kernel

/-! ## 6. The fuel is enough -/

/-- More fuel than two steps a letter changes nothing; induction on the fuel, as the text shrinks. -/
theorem readValue_stable_aux (fuel : ℕ) :
    (∀ text, 2 * text.length + 1 ≤ fuel → readValue (fuel + 1) text = readValue fuel text) ∧
      (∀ text, 2 * text.length + 2 ≤ fuel → readItems (fuel + 1) text = readItems fuel text) ∧
      ∀ text, 2 * text.length + 2 ≤ fuel → readMembers (fuel + 1) text = readMembers fuel text := by
  induction fuel with
  | zero =>
    refine ⟨?_, ?_, ?_⟩
    · intro text h
      omega
    · intro text h
      omega
    · intro text h
      omega
  | succ fuel ih =>
    obtain ⟨hvalue, hitems, hmembers⟩ := ih
    refine ⟨?_, ?_, ?_⟩
    · -- a bracket takes a letter, which pays for the step to the items
      intro text h
      rw [readValue.eq_def (fuel + 1 + 1), readValue.eq_def (fuel + 1)]
      dsimp only
      split
      · rfl
      · rename_i body
        have hspace := skipSpace_le body
        rw [List.length_cons] at h
        split
        · rfl
        · rw [hitems _ (by omega)]
      · rename_i body
        have hspace := skipSpace_le body
        rw [List.length_cons] at h
        split
        · rfl
        · rw [hmembers _ (by omega)]
      all_goals rfl
    · intro text h
      rw [readItems.eq_def (fuel + 1 + 1), readItems.eq_def (fuel + 1)]
      dsimp only
      rw [hvalue text (by omega)]
      apply Option.bind_congr
      rintro ⟨item, after⟩ hitem
      have hfirst := (readValue_sound hitem).shorter
      have hspace := skipSpace_le after
      dsimp only
      split
      · rfl
      · rename_i more hmore
        have hskip := skipSpace_le more
        rw [hmore, List.length_cons] at hspace
        rw [hitems _ (by omega)]
      · rfl
    · intro text h
      rw [readMembers.eq_def (fuel + 1 + 1), readMembers.eq_def (fuel + 1)]
      dsimp only
      split
      · rw [List.length_cons] at h
        apply Option.bind_congr
        rintro ⟨key, after⟩ hkey
        have hfirst := (readText_leaves hkey).1
        have hspace := skipSpace_le after
        dsimp only
        split
        · rename_i body hbody
          have hskip := skipSpace_le body
          rw [hbody, List.length_cons] at hspace
          rw [hvalue _ (by omega)]
          apply Option.bind_congr
          rintro ⟨value, after'⟩ hread
          have hlt := (readValue_sound hread).shorter
          have hspace' := skipSpace_le after'
          dsimp only
          split
          · rfl
          · rename_i more hmore
            have hskip' := skipSpace_le more
            rw [hmore, List.length_cons] at hspace'
            rw [hmembers _ (by omega)]
          · rfl
        · rfl
      · rfl

/-- The reader gives what it would give with any fuel beyond. -/
theorem readValue_enough {text : List Char} {fuel : ℕ} (h : 2 * text.length + 1 ≤ fuel) :
    readValue fuel text = readValue (2 * text.length + 1) text := by
  induction fuel, h using Nat.le_induction with
  | base => rfl
  | succ fuel h ih =>
    rw [← ih]
    exact (readValue_stable_aux fuel).1 text h

/-! ## 7. Reading what was written -/

/-- No number goes on in what follows. -/
def Ends (rest : List Char) : Prop :=
  ∀ c after, rest = c :: after → c.isDigit = false ∧ c ≠ '.' ∧ c ≠ 'e' ∧ c ≠ 'E'

/-- The text is read as the document, whatever follows it. -/
def Reads (text : List Char) (doc : JsonDoc) : Prop :=
  ∀ rest, Ends rest → ∀ fuel, 2 * (text ++ rest).length + 1 ≤ fuel → readValue fuel (text ++ rest) = some (doc, rest)

/-- The body of a text is read as these code points. -/
def ReadsPoints (body : List Char) (codes : List ℕ) : Prop :=
  ∀ rest, readText (body ++ '"' :: rest) = some (codes, rest)

section Reading

variable {text : List Char} {doc : JsonDoc}

theorem ends_nil : Ends [] := by
  intro c after h
  cases h

variable {c : Char} {rest : List Char}

theorem ends_cons (h : c.isDigit = false ∧ c ≠ '.' ∧ c ≠ 'e' ∧ c ≠ 'E') : Ends (c :: rest) := by
  intro c' after heq
  cases heq
  exact h

/-- No value starts with a space or the end of a list. -/
theorem readValue_blank {c : Char} (h : isJsonSpace c = true ∨ c = ']') (fuel : ℕ) (rest : List Char) :
    readValue fuel (c :: rest) = none := by
  cases fuel with
  | zero => rfl
  | succ fuel =>
    rcases h with h | rfl
    · unfold isJsonSpace at h
      simp only [List.contains_cons, List.contains_nil, Bool.or_false, Bool.or_eq_true, beq_iff_eq] at h
      rcases h with rfl | rfl | rfl | rfl <;> rfl
    · rfl

theorem Reads.head (h : Reads text doc) : ∃ c rest, text = c :: rest ∧ isJsonSpace c = false ∧ c ≠ ']' := by
  have hread := h [] ends_nil _ (le_refl _)
  rw [List.append_nil] at hread
  cases text with
  | nil => cases hread
  | cons c rest =>
    refine ⟨c, rest, rfl, ?_, ?_⟩
    · by_contra hspace
      rw [readValue_blank (Or.inl (Bool.not_eq_false _ ▸ hspace))] at hread
      cases hread
    · intro hend
      rw [readValue_blank (Or.inr hend)] at hread
      cases hread

theorem skipSpace_of_head (h : isJsonSpace c = false) (rest : List Char) : skipSpace (c :: rest) = c :: rest :=
  List.dropWhile_cons_of_neg (by rw [h]; decide)

theorem Reads.skipSpace (h : Reads text doc) (rest : List Char) : skipSpace (text ++ rest) = text ++ rest := by
  obtain ⟨c, tail, rfl, hspace, _⟩ := h.head
  exact skipSpace_of_head hspace _

/-- A text that is read as a value is read by `loads`. -/
theorem Reads.loads (h : Reads text doc) : loads text = some doc := by
  have hread := h [] ends_nil (2 * text.length + 2) (by rw [List.append_nil]; omega)
  have hskip := h.skipSpace []
  rw [List.append_nil] at hread hskip
  unfold Python.loads
  rw [hskip, hread]
  rfl

theorem reads_null : Reads ['n', 'u', 'l', 'l'] .null := by
  intro rest _ fuel hfuel
  cases fuel with
  | zero => omega
  | succ fuel => rfl

theorem reads_true : Reads ['t', 'r', 'u', 'e'] (.bool true) := by
  intro rest _ fuel hfuel
  cases fuel with
  | zero => omega
  | succ fuel => rfl

theorem reads_str {body : List Char} {codes : List ℕ} (h : ReadsPoints body codes) :
    Reads ('"' :: (body ++ ['"'])) (.str codes) := by
  intro rest _ fuel hfuel
  cases fuel with
  | zero => omega
  | succ fuel =>
    show (readText (body ++ ['"'] ++ rest)).map _ = _
    rw [List.append_assoc, List.singleton_append, h rest]
    rfl

/-- The literal of an integer. -/
def intLiteral (z : ℤ) : NumberLiteral := ⟨decide (z < 0), z.natAbs, none, none⟩

theorem readFractionPart_ends (h : Ends rest) : readFractionPart rest = (none, rest) := by
  unfold readFractionPart
  split
  · rename_i after
    exact absurd rfl (h '.' after rfl).2.1
  · rfl

theorem readPower_ends (h : Ends rest) : readPower rest = (none, rest) := by
  cases rest with
  | nil => rfl
  | cons c after =>
    have hc := h c after rfl
    unfold readPower
    dsimp only
    rw [if_neg]
    rintro ⟨hmark, _⟩
    exact hmark.elim hc.2.2.1 hc.2.2.2

theorem eq_zero_of_head (n : ℕ) : (natText n).head? = some '0' → n = 0 := by
  unfold natText
  induction n using Nat.strong_induction_on with
  | _ n ih =>
    rw [Nat.toDigits_eq_if (by decide)]
    split
    · rename_i hlt
      have hall : ∀ k < 10, [Nat.digitChar k].head? = some '0' → k = 0 := by decide
      exact hall n hlt
    · rename_i hlarge
      intro hhead
      rw [List.head?_append_of_ne_nil _ Nat.toDigits_ne_nil] at hhead
      have hzero := ih (n / 10) (by omega) hhead
      omega

/-- The digits of a number are read up to what ends it. -/
theorem readWhole_natText (n : ℕ) (h : Ends rest) : readWhole (natText n ++ rest) = some (n, rest) := by
  have hdigits : ∀ c ∈ natText n, c.isDigit = true := fun c hc => isDigit_of_mem_natText hc
  have hspan := takeWhile_digits hdigits fun c after heq => (h c after heq).1
  unfold readWhole
  split
  · -- Only 0 is written with a 0 in front.
    rename_i tail heq
    have hhead : (natText n).head? = some '0' := by
      rw [← List.head?_append_of_ne_nil _ (natText_ne_nil n), heq]
      rfl
    have hn := eq_zero_of_head n hhead
    subst hn
    have htail : rest = tail := (List.cons.inj heq).2
    rw [htail]
  · rw [hspan.1, hspan.2, if_neg (natText_ne_nil n)]
    unfold natText
    rw [Nat.ofDigitChars_toDigits (by decide) (by decide)]

theorem readUnsigned_natText (negative : Bool) (n : ℕ) (h : Ends rest) :
    readUnsigned negative (natText n ++ rest) = some (.number ⟨negative, n, none, none⟩, rest) := by
  unfold readUnsigned
  rw [readWhole_natText n h]
  simp only [Option.map_some, readFractionPart_ends h, readPower_ends h]

/-- What starts with a digit or with a minus and a digit is a number. -/
theorem readValue_digit (h : c.isDigit = true) (fuel : ℕ) (rest : List Char) :
    readValue (fuel + 1) (c :: rest) = readUnsigned false (c :: rest) ∧
      readValue (fuel + 1) ('-' :: c :: rest) = readUnsigned true (c :: rest) := by
  have hall : ∀ d : Char, d.isDigit = true → d ∈ ['0', '1', '2', '3', '4', '5', '6', '7', '8', '9'] := by
    intro d hd
    unfold Char.isDigit at hd
    rw [Bool.and_eq_true, decide_eq_true_eq, decide_eq_true_eq] at hd
    have hlow : 48 ≤ d.toNat := hd.1
    have hhigh : d.toNat ≤ 57 := hd.2
    have hd' := Char.ofNat_toNat d
    generalize d.toNat = n at *
    subst hd'
    interval_cases n <;> decide
  have hc := hall c h
  simp only [List.mem_cons, List.not_mem_nil, or_false] at hc
  rcases hc with rfl | rfl | rfl | rfl | rfl | rfl | rfl | rfl | rfl | rfl <;> exact ⟨rfl, rfl⟩

theorem reads_int (z : ℤ) : Reads (intText z) (.number (intLiteral z)) := by
  intro rest hends fuel hfuel
  cases fuel with
  | zero => omega
  | succ fuel =>
    cases z with
    | ofNat n =>
      obtain ⟨c, tail, htext, hc⟩ := natText_head n
      show readValue (fuel + 1) (natText n ++ rest) = some (.number ⟨_, n, none, none⟩, rest)
      rw [htext, List.cons_append, (readValue_digit hc fuel _).1, ← List.cons_append, ← htext,
        readUnsigned_natText false n hends]
      rfl
    | negSucc n =>
      obtain ⟨c, tail, htext, hc⟩ := natText_head (n + 1)
      show readValue (fuel + 1) ('-' :: (natText (n + 1) ++ rest)) = some (.number ⟨_, n + 1, none, none⟩, rest)
      rw [htext, List.cons_append, (readValue_digit hc fuel _).2, ← List.cons_append, ← htext,
        readUnsigned_natText true (n + 1) hends, decide_eq_true (Int.negSucc_lt_zero n)]

/-! ## 8. Lists and objects -/

theorem joinWith_cons (separator : Char) (first : List Char) (texts : List (List Char)) :
    joinWith separator (first :: texts) = first ++ texts.flatMap fun text => separator :: text := by
  unfold joinWith
  rw [intercalate_cons_eq_flatMap]
  rfl

theorem readItems_joined {texts : List (List Char)} {docs : List JsonDoc} (h : List.Forall₂ Reads texts docs) :
    ∀ {text : List Char} {doc : JsonDoc}, Reads text doc → ∀ (rest : List Char) (fuel : ℕ),
      2 * (joinWith ',' (text :: texts) ++ ']' :: rest).length + 2 ≤ fuel →
        readItems fuel (joinWith ',' (text :: texts) ++ ']' :: rest) = some (doc :: docs, rest) := by
  induction h with
  | nil =>
    intro text doc hread rest fuel hfuel
    rw [joinWith_cons, List.flatMap_nil, List.append_nil] at *
    cases fuel with
    | zero => omega
    | succ fuel =>
      have hvalue := hread (']' :: rest) (ends_cons (by decide)) fuel (by omega)
      rw [readItems, hvalue]
      rfl
  | @cons next nextDoc texts docs hnext _ ih =>
    intro text doc hread rest fuel hfuel
    have hsplit : joinWith ',' (text :: next :: texts) ++ ']' :: rest =
        text ++ ',' :: (joinWith ',' (next :: texts) ++ ']' :: rest) := by
      rw [joinWith_cons, joinWith_cons, List.flatMap_cons]
      simp only [List.append_assoc, List.cons_append]
    rw [hsplit] at hfuel ⊢
    rw [List.length_append, List.length_cons] at hfuel
    cases fuel with
    | zero => omega
    | succ fuel =>
      have hvalue := hread (',' :: (joinWith ',' (next :: texts) ++ ']' :: rest)) (ends_cons (by decide)) fuel
        (by rw [List.length_append, List.length_cons]; omega)
      have hskip : skipSpace (joinWith ',' (next :: texts) ++ ']' :: rest) =
          joinWith ',' (next :: texts) ++ ']' :: rest := by
        rw [joinWith_cons, List.append_assoc]
        exact hnext.skipSpace _
      rw [readItems, hvalue]
      show (readItems fuel (skipSpace (joinWith ',' (next :: texts) ++ ']' :: rest))).bind _ = _
      rw [hskip, ih hnext rest fuel (by omega)]
      rfl

theorem reads_arr {texts : List (List Char)} {docs : List JsonDoc} (h : List.Forall₂ Reads texts docs) :
    Reads ('[' :: (joinWith ',' texts ++ [']'])) (.arr docs) := by
  intro rest _ fuel hfuel
  cases fuel with
  | zero => omega
  | succ fuel =>
    cases h with
    | nil => rfl
    | @cons text doc texts docs hfirst hrest =>
      have hshape : '[' :: (joinWith ',' (text :: texts) ++ [']']) ++ rest =
          '[' :: (joinWith ',' (text :: texts) ++ ']' :: rest) := by
        rw [List.cons_append, List.append_assoc, List.singleton_append]
      rw [hshape] at hfuel ⊢
      rw [List.length_cons] at hfuel
      have hitems := readItems_joined hrest hfirst rest fuel (by omega)
      obtain ⟨c, tail, htext, hspace, hend⟩ := hfirst.head
      have hbody : ∃ more, joinWith ',' (text :: texts) ++ ']' :: rest = c :: more := by
        rw [joinWith_cons, htext]
        exact ⟨_, rfl⟩
      obtain ⟨more, hmore⟩ := hbody
      rw [hmore] at hitems ⊢
      rw [readValue]
      rw [skipSpace_of_head hspace]
      split
      · rename_i heq
        exact absurd (List.cons.inj heq).1 hend
      · rw [hitems]
        rfl

/-- A member as it is written: the body of its key, and its value. -/
def memberText (entry : List Char × List Char) : List Char := '"' :: (entry.1 ++ ['"']) ++ ':' :: entry.2

/-- The member is written as the entry. -/
def ReadsMember (entry : List Char × List Char) (member : List ℕ × JsonDoc) : Prop :=
  ReadsPoints entry.1 member.1 ∧ Reads entry.2 member.2

theorem readMembers_joined {entries : List (List Char × List Char)} {members : List (List ℕ × JsonDoc)}
    (h : List.Forall₂ ReadsMember entries members) :
    ∀ {entry : List Char × List Char} {member : List ℕ × JsonDoc}, ReadsMember entry member →
      ∀ (rest : List Char) (fuel : ℕ),
        2 * (joinWith ',' ((entry :: entries).map memberText) ++ '}' :: rest).length + 2 ≤ fuel →
          readMembers fuel (joinWith ',' ((entry :: entries).map memberText) ++ '}' :: rest) =
            some (member :: members, rest) := by
  induction h with
  | nil =>
    intro entry member hread rest fuel hfuel
    have hshape : joinWith ',' ([entry].map memberText) ++ '}' :: rest =
        '"' :: (entry.1 ++ '"' :: ':' :: (entry.2 ++ '}' :: rest)) := by
      unfold memberText
      rw [List.map_cons, List.map_nil, joinWith_cons, List.flatMap_nil, List.append_nil]
      simp only [List.append_assoc, List.cons_append, List.nil_append]
    rw [hshape] at hfuel ⊢
    simp only [List.length_cons, List.length_append] at hfuel
    cases fuel with
    | zero => omega
    | succ fuel =>
      have hvalue := hread.2 ('}' :: rest) (ends_cons (by decide)) fuel
        (by rw [List.length_append, List.length_cons]; omega)
      rw [readMembers, hread.1]
      show (readValue fuel (skipSpace (entry.2 ++ '}' :: rest))).bind _ = _
      rw [hread.2.skipSpace, hvalue]
      rfl
  | @cons next nextMember entries members hnext _ ih =>
    intro entry member hread rest fuel hfuel
    have hshape : joinWith ',' ((entry :: next :: entries).map memberText) ++ '}' :: rest =
        '"' :: (entry.1 ++ '"' :: ':' ::
          (entry.2 ++ ',' :: (joinWith ',' ((next :: entries).map memberText) ++ '}' :: rest))) := by
      rw [List.map_cons, List.map_cons, joinWith_cons, joinWith_cons, List.flatMap_cons]
      unfold memberText
      simp only [List.append_assoc, List.cons_append, List.nil_append]
    rw [hshape] at hfuel ⊢
    simp only [List.length_cons, List.length_append] at hfuel
    cases fuel with
    | zero => omega
    | succ fuel =>
      have hvalue := hread.2 (',' :: (joinWith ',' ((next :: entries).map memberText) ++ '}' :: rest))
        (ends_cons (by decide)) fuel
        (by simp only [List.length_append, List.length_cons]; omega)
      have hskip : skipSpace (joinWith ',' ((next :: entries).map memberText) ++ '}' :: rest) =
          joinWith ',' ((next :: entries).map memberText) ++ '}' :: rest := by
        rw [List.map_cons, joinWith_cons]
        exact skipSpace_of_head (by decide) _
      rw [readMembers, hread.1]
      show (readValue fuel (skipSpace (entry.2 ++ ',' :: _))).bind _ = _
      rw [hread.2.skipSpace, hvalue]
      show (readMembers fuel (skipSpace (joinWith ',' ((next :: entries).map memberText) ++ '}' :: rest))).bind _ = _
      rw [hskip, ih hnext rest fuel (by simp only [List.length_append, List.length_cons]; omega)]
      rfl

theorem reads_obj {entries : List (List Char × List Char)} {members : List (List ℕ × JsonDoc)}
    (h : List.Forall₂ ReadsMember entries members) :
    Reads ('{' :: (joinWith ',' (entries.map memberText) ++ ['}'])) (.obj members) := by
  intro rest _ fuel hfuel
  cases fuel with
  | zero => omega
  | succ fuel =>
    cases h with
    | nil => rfl
    | @cons entry member entries members hfirst hrest =>
      have hshape : '{' :: (joinWith ',' ((entry :: entries).map memberText) ++ ['}']) ++ rest =
          '{' :: (joinWith ',' ((entry :: entries).map memberText) ++ '}' :: rest) := by
        rw [List.cons_append, List.append_assoc, List.singleton_append]
      rw [hshape] at hfuel ⊢
      rw [List.length_cons] at hfuel
      have hmembers := readMembers_joined hrest hfirst rest fuel (by omega)
      have hbody : ∃ more, joinWith ',' ((entry :: entries).map memberText) ++ '}' :: rest = '"' :: more := by
        rw [List.map_cons, joinWith_cons]
        exact ⟨_, rfl⟩
      obtain ⟨more, hmore⟩ := hbody
      rw [hmore] at hmembers ⊢
      show (readMembers fuel ('"' :: more)).map _ = _
      rw [hmembers]
      rfl

/-! ## 9. Texts -/

/-- The letters written for a character are read as these units, whatever follows. -/
def ReadsUnits (letters : List Char) (units : List ℕ) : Prop :=
  ∀ rest, readUnits (letters ++ rest) = (readUnits rest).map fun p => (units ++ p.1, p.2)

/-- The units are the character, or the two halves of it. -/
def SpelledBy (c : Char) (units : List ℕ) : Prop :=
  units = [c.toNat] ∨
    65536 ≤ c.toNat ∧ units = [55296 + (c.toNat - 65536) / 1024, 56320 + (c.toNat - 65536) % 1024]

theorem hexDigitValue?_hexDigit (n : ℕ) : hexDigitValue? (hexDigit n) = some (n % 16) := by
  have hall : ∀ k < 16, hexDigitValue? ((Nat.toDigits 16 k).headD '0') = some k := by decide +kernel
  exact hall (n % 16) (Nat.mod_lt n (by decide))

theorem readsUnits_unitEscape {n : ℕ} (h : n < 65536) : ReadsUnits (unitEscape n) [n] := by
  intro rest
  have hunit : unit? (hexDigit (n / 4096)) (hexDigit (n / 256)) (hexDigit (n / 16)) (hexDigit n) = some n := by
    unfold unit?
    rw [hexDigitValue?_hexDigit, hexDigitValue?_hexDigit, hexDigitValue?_hexDigit, hexDigitValue?_hexDigit]
    show some _ = some n
    congr 1
    omega
  unfold unitEscape
  show readUnits ('\\' :: 'u' :: _ :: _ :: _ :: _ :: rest) = _
  rw [readUnits, hunit]
  show (readUnits rest).bind _ = _
  cases readUnits rest <;> rfl

theorem ReadsUnits.append {letters letters' : List Char} {units units' : List ℕ} (h : ReadsUnits letters units)
    (h' : ReadsUnits letters' units') : ReadsUnits (letters ++ letters') (units ++ units') := by
  intro rest
  rw [List.append_assoc, h, h', Option.map_map]
  congr 1
  funext p
  show (units ++ (units' ++ p.1), p.2) = _
  rw [← List.append_assoc]

/-- A letter after a backslash, and what it stands for. -/
theorem readsUnits_short {unit : ℕ} (h : shortEscape? c = some unit) : ReadsUnits ['\\', c] [unit] := by
  intro rest
  have hletter : c ≠ 'u' := by
    rintro rfl
    cases h
  show readUnits ('\\' :: c :: rest) = _
  rw [readUnits, h]
  · show (readUnits rest).bind _ = _
    cases readUnits rest <;> rfl
  · rintro a b c d more rfl
    exact absurd rfl hletter

theorem readsUnits_self (hquote : c ≠ '"') (hslash : c ≠ '\\') (hvisible : 32 ≤ c.toNat) :
    ReadsUnits [c] [c.toNat] := by
  intro rest
  show readUnits (c :: rest) = _
  rw [readUnits, if_neg (by omega)]
  · show (readUnits rest).bind _ = _
    cases readUnits rest <;> rfl
  · exact hquote
  · intro a b d e more heq
    exact absurd heq hslash
  · intro a more heq
    exact absurd heq hslash

theorem readsUnits_flatMap {α : Type} {code : α → List Char} {units : α → List ℕ} {items : List α}
    (h : ∀ a ∈ items, ReadsUnits (code a) (units a)) : ReadsUnits (items.flatMap code) (items.flatMap units) := by
  induction items with
  | nil =>
    intro rest
    show readUnits rest = _
    cases readUnits rest <;> rfl
  | cons a items ih =>
    rw [List.flatMap_cons, List.flatMap_cons]
    rw [List.forall_mem_cons] at h
    exact h.1.append (ih h.2)

theorem readsPoints_of_units {body : List Char} {units : List ℕ} (h : ReadsUnits body units) :
    ReadsPoints body (joinUnits units) := by
  intro rest
  unfold readText
  rw [h]
  show (some (joinUnits (units ++ []), rest)) = _
  rw [List.append_nil]

theorem joinUnits_cons {unit : ℕ} (h : isHigh unit = false) (units : List ℕ) :
    joinUnits (unit :: units) = unit :: joinUnits units := by
  cases units with
  | nil => rfl
  | cons low rest =>
    rw [joinUnits, h]
    rfl

theorem joinUnits_flatMap {units : Char → List ℕ} (h : ∀ c, SpelledBy c (units c)) (text : List Char) :
    joinUnits (text.flatMap units) = points text := by
  induction text with
  | nil => rfl
  | cons c text ih =>
    rw [List.flatMap_cons]
    unfold points
    rw [List.map_cons]
    rcases h c with hsame | ⟨hlarge, hpair⟩
    · have hplain : isHigh c.toNat = false := decide_eq_false (not_surrogate c)
      rw [hsame, List.singleton_append, joinUnits_cons hplain, ih]
      rfl
    · have hbound := toNat_lt c
      have hhigh : isHigh (55296 + (c.toNat - 65536) / 1024) = true := decide_eq_true (by omega)
      have hlow : isLow (56320 + (c.toNat - 65536) % 1024) = true := decide_eq_true (by omega)
      have hsum : 65536 + (55296 + (c.toNat - 65536) / 1024 - 55296) * 1024 +
          (56320 + (c.toNat - 65536) % 1024 - 56320) = c.toNat := by omega
      rw [hpair, List.cons_append, List.singleton_append, joinUnits, hhigh, hlow, Bool.and_true, if_pos rfl, hsum, ih]
      rfl

theorem readsPoints_flatMap {code : Char → List Char} {units : Char → List ℕ}
    (h : ∀ c, ReadsUnits (code c) (units c)) (hspelled : ∀ c, SpelledBy c (units c)) (text : List Char) :
    ReadsPoints (text.flatMap code) (points text) := by
  rw [← joinUnits_flatMap hspelled text]
  exact readsPoints_of_units (readsUnits_flatMap fun c _ => h c)

theorem readsUnits_jsonbEscape (c : Char) : ReadsUnits (jsonbEscape c) [c.toNat] := by
  unfold jsonbEscape
  split
  · rename_i h
    subst h
    exact readsUnits_short rfl
  split
  · rename_i h
    subst h
    exact readsUnits_short rfl
  split
  · rename_i h
    rw [h]
    exact readsUnits_short rfl
  split
  · rename_i h
    rw [h]
    exact readsUnits_short rfl
  split
  · rename_i h
    subst h
    exact readsUnits_short rfl
  split
  · rename_i h
    subst h
    exact readsUnits_short rfl
  split
  · rename_i h
    subst h
    exact readsUnits_short rfl
  split
  · rename_i h
    exact readsUnits_unitEscape (by omega)
  · rename_i hquote hslash _ _ _ _ _ hvisible
    exact readsUnits_self hquote hslash (not_lt.mp hvisible)

theorem reads_jsonbQuoted (text : List Char) : Reads (jsonbQuoted text) (.str (points text)) :=
  reads_str (readsPoints_flatMap readsUnits_jsonbEscape (fun _ => Or.inl rfl) text)

end Reading

/-! ## 10. Documents in canonical text -/

/-- A code point as it is escaped. -/
def escapePoint (code : ℕ) : List Char :=
  if code.isValidChar then escapeChar (Char.ofNat code) else unitEscape code

def literalText (literal : NumberLiteral) : List Char :=
  (if literal.negative then ['-'] else []) ++ natText literal.whole ++
    (literal.fraction.elim [] fun digits => '.' :: digits) ++
    literal.exponent.elim [] fun power => 'e' :: intText power

mutual

/-- `json.dumps(value, sort_keys=True, separators=(",", ":"), ensure_ascii=True)` of the value a document
    stands for, its numbers as they are spelled. -/
def JsonDoc.dumps : JsonDoc → List Char
  | .null => ['n', 'u', 'l', 'l']
  | .bool true => ['t', 'r', 'u', 'e']
  | .bool false => ['f', 'a', 'l', 's', 'e']
  | .constant => ['N', 'a', 'N']
  | .number literal => literalText literal
  | .str codes => '"' :: (codes.flatMap escapePoint ++ ['"'])
  | .arr items => '[' :: (joinWith ',' (docTexts items) ++ [']'])
  | .obj members =>
    '{' :: (joinWith ',' (((docEntries members).insertionSort fun a b => a.1 ≤ b.1).map
      fun entry => memberText (entry.1.flatMap escapePoint, entry.2)) ++ ['}'])

def docTexts : List JsonDoc → List (List Char)
  | [] => []
  | item :: items => item.dumps :: docTexts items

def docEntries : List (List ℕ × JsonDoc) → List (List ℕ × List Char)
  | [] => []
  | (key, value) :: members => (key, value.dumps) :: docEntries members

end

theorem literalText_intLiteral (z : ℤ) : literalText (intLiteral z) = intText z := by
  unfold literalText intLiteral
  cases z with
  | ofNat n =>
    show (if decide (Int.ofNat n < 0) then ['-'] else []) ++ natText n ++ [] ++ [] = natText n
    have hsign : decide (Int.ofNat n < 0) = false := decide_eq_false (not_lt.mpr (Int.natCast_nonneg n))
    rw [hsign, List.append_nil, List.append_nil]
    rfl
  | negSucc n =>
    show (if decide (Int.negSucc n < 0) then ['-'] else []) ++ natText (n + 1) ++ [] ++ [] = '-' :: natText (n + 1)
    rw [decide_eq_true (Int.negSucc_lt_zero n), List.append_nil, List.append_nil]
    rfl

/-- The units a code point is escaped as. -/
def unitsOf (code : ℕ) : List ℕ :=
  if code < 65536 then [code] else [55296 + (code - 65536) / 1024, 56320 + (code - 65536) % 1024]

theorem readsUnits_escapeChar (c : Char) : ReadsUnits (escapeChar c) (unitsOf c.toNat) := by
  have hplain : c.toNat < 65536 → unitsOf c.toNat = [c.toNat] := fun h => if_pos h
  unfold escapeChar
  split
  · rename_i h
    subst h
    exact readsUnits_short rfl
  split
  · rename_i h
    subst h
    exact readsUnits_short rfl
  split
  · rename_i h
    subst h
    exact readsUnits_short rfl
  split
  · rename_i h
    subst h
    exact readsUnits_short rfl
  split
  · rename_i h
    subst h
    exact readsUnits_short rfl
  split
  · rename_i h
    rw [h]
    exact readsUnits_short rfl
  split
  · rename_i h
    rw [h]
    exact readsUnits_short rfl
  split
  · rename_i hquote hslash _ _ _ _ _ hvisible
    rw [hplain (by omega)]
    exact readsUnits_self hquote hslash hvisible.1
  split
  · rename_i h
    rw [hplain h]
    exact readsUnits_unitEscape h
  · rename_i h
    have hbound := toNat_lt c
    unfold unitsOf
    rw [if_neg h]
    exact (readsUnits_unitEscape (by omega)).append (readsUnits_unitEscape (by omega))

theorem readsUnits_escapePoint {code : ℕ} (h : code < 1114112) : ReadsUnits (escapePoint code) (unitsOf code) := by
  unfold escapePoint
  split
  · rename_i hvalid
    have hchar := readsUnits_escapeChar (Char.ofNat code)
    rw [Char.toNat_ofNat, if_pos hvalid] at hchar
    exact hchar
  · -- Only half of a pair is no character.
    rename_i hinvalid
    have hsmall : code < 65536 := by
      by_contra hlarge
      exact hinvalid (Or.inr ⟨by omega, h⟩)
    unfold unitsOf
    rw [if_pos hsmall]
    exact readsUnits_unitEscape hsmall

/-- No half of a pair stands right before the other half. -/
def NoSplitPair : List ℕ → Prop
  | high :: low :: rest => ¬(isHigh high = true ∧ isLow low = true) ∧ NoSplitPair (low :: rest)
  | _ => True

instance instDecidableNoSplitPair : ∀ codes, Decidable (NoSplitPair codes)
  | [] => isTrue trivial
  | [_] => isTrue trivial
  | high :: low :: rest =>
    have := instDecidableNoSplitPair (low :: rest)
    inferInstanceAs (Decidable (¬(isHigh high = true ∧ isLow low = true) ∧ NoSplitPair (low :: rest)))

theorem unitsOf_ne_nil (code : ℕ) : unitsOf code ≠ [] := by
  unfold unitsOf
  split <;> exact List.cons_ne_nil _ _

theorem joinUnits_ne_nil (unit : ℕ) (units : List ℕ) : joinUnits (unit :: units) ≠ [] := by
  cases units with
  | nil => exact List.cons_ne_nil _ _
  | cons low rest =>
    rw [joinUnits]
    split <;> exact List.cons_ne_nil _ _

section Codes

variable {codes : List ℕ} {code : ℕ}

theorem joinUnits_pair {high low : ℕ} (hhigh : isHigh high = true) (hlow : isLow low = true) (rest : List ℕ) :
    joinUnits (high :: low :: rest) = (65536 + (high - 55296) * 1024 + (low - 56320)) :: joinUnits rest := by
  rw [joinUnits, hhigh, hlow]
  rfl

theorem joinUnits_single {high low : ℕ} (hlow : isLow low = false) (rest : List ℕ) :
    joinUnits (high :: low :: rest) = high :: joinUnits (low :: rest) := by
  rw [joinUnits, hlow, Bool.and_false]
  rfl

/-- A code beyond the basic plane is joined again, whatever follows. -/
theorem joinUnits_large (hlarge : ¬code < 65536) (hbound : code < 1114112) (rest : List ℕ) :
    joinUnits (unitsOf code ++ rest) = code :: joinUnits rest := by
  have hhigh : isHigh (55296 + (code - 65536) / 1024) = true := decide_eq_true (by omega)
  have hlow : isLow (56320 + (code - 65536) % 1024) = true := decide_eq_true (by omega)
  have hsum : 65536 + (55296 + (code - 65536) / 1024 - 55296) * 1024 +
      (56320 + (code - 65536) % 1024 - 56320) = code := by omega
  unfold unitsOf
  rw [if_neg hlarge, List.cons_append, List.singleton_append, joinUnits_pair hhigh hlow, hsum]

/-- Only a code that is the other half of a pair is escaped as something that starts with one. -/
theorem head_units {next : ℕ} (h : isLow next = false) (hbound : next < 1114112) (rest : List ℕ) :
    ∃ unit units, unitsOf next ++ rest = unit :: units ∧ isLow unit = false := by
  unfold unitsOf
  split
  · exact ⟨next, rest, rfl, h⟩
  · exact ⟨_, _, rfl, decide_eq_false (by omega)⟩

/-- Reading the escapes back gives the codes, or fewer if two of them are the halves of a pair. -/
theorem joinUnits_codes : ∀ codes : List ℕ, (∀ code ∈ codes, code < 1114112) →
    (NoSplitPair codes → joinUnits (codes.flatMap unitsOf) = codes) ∧
      (joinUnits (codes.flatMap unitsOf)).length ≤ codes.length ∧
      (¬NoSplitPair codes → (joinUnits (codes.flatMap unitsOf)).length < codes.length)
  | [], _ => ⟨fun _ => rfl, le_refl _, fun h => absurd trivial h⟩
  | [code], hbound => by
    have hcode : joinUnits ([code].flatMap unitsOf) = [code] := by
      rw [List.flatMap_cons, List.flatMap_nil]
      by_cases hlarge : code < 65536
      · unfold unitsOf
        rw [if_pos hlarge]
        rfl
      · exact joinUnits_large hlarge (hbound code List.mem_cons_self) []
    rw [hcode]
    exact ⟨fun _ => rfl, le_refl _, fun h => absurd trivial h⟩
  | code :: next :: rest, hbound => by
    have hcode : code < 1114112 := hbound code List.mem_cons_self
    have hnext : next < 1114112 := hbound next (List.mem_cons_of_mem _ List.mem_cons_self)
    obtain ⟨hsame, hle, hlt⟩ := joinUnits_codes (next :: rest) fun c hc => hbound c (List.mem_cons_of_mem _ hc)
    by_cases hpair : isHigh code = true ∧ isLow next = true
    · -- The two halves are read as one character.
      obtain ⟨_, hle, _⟩ := joinUnits_codes rest fun c hc =>
        hbound c (List.mem_cons_of_mem _ (List.mem_cons_of_mem _ hc))
      have hsmall : unitsOf code = [code] := if_pos (by have := of_decide_eq_true hpair.1; omega)
      have hsmall' : unitsOf next = [next] := if_pos (by have := of_decide_eq_true hpair.2; omega)
      have hread : (joinUnits ((code :: next :: rest).flatMap unitsOf)).length < (code :: next :: rest).length := by
        rw [List.flatMap_cons, List.flatMap_cons, hsmall, hsmall', List.singleton_append, List.singleton_append,
          joinUnits_pair hpair.1 hpair.2]
        simp only [List.length_cons]
        omega
      exact ⟨fun h => absurd hpair h.1, hread.le, fun _ => hread⟩
    · have hread : joinUnits ((code :: next :: rest).flatMap unitsOf) =
          code :: joinUnits ((next :: rest).flatMap unitsOf) := by
        rw [List.flatMap_cons]
        by_cases hlarge : code < 65536
        · have hself : unitsOf code = [code] := if_pos hlarge
          rw [hself, List.singleton_append]
          by_cases hhigh : isHigh code = true
          · have hlow : isLow next = false := Bool.not_eq_true _ ▸ fun h => hpair ⟨hhigh, h⟩
            obtain ⟨unit, units, heq, hunit⟩ := head_units hlow hnext (rest.flatMap unitsOf)
            rw [List.flatMap_cons, heq, joinUnits_single hunit]
          · rw [joinUnits_cons (Bool.not_eq_true _ ▸ hhigh)]
        · exact joinUnits_large hlarge hcode _
      rw [hread]
      refine ⟨?_, ?_, ?_⟩
      · intro h
        rw [hsame h.2]
      · rw [List.length_cons, List.length_cons]
        exact Nat.succ_le_succ hle
      · intro h
        have hrest : ¬NoSplitPair (next :: rest) := fun hrest => h ⟨hpair, hrest⟩
        rw [List.length_cons, List.length_cons]
        exact Nat.succ_lt_succ (hlt hrest)

theorem joinUnits_codes_iff (h : ∀ code ∈ codes, code < 1114112) :
    joinUnits (codes.flatMap unitsOf) = codes ↔ NoSplitPair codes := by
  obtain ⟨hsame, _, hlt⟩ := joinUnits_codes codes h
  refine ⟨?_, hsame⟩
  intro heq
  by_contra hsplit
  have hshort := hlt hsplit
  rw [heq] at hshort
  exact lt_irrefl _ hshort

theorem noSplitPair_points (text : List Char) : NoSplitPair (points text) := by
  unfold points
  induction text with
  | nil => trivial
  | cons c text ih =>
    cases text with
    | nil => trivial
    | cons d text => exact ⟨fun h => not_surrogate c (of_decide_eq_true h.1), ih⟩

theorem readsPoints_codes {codes : List ℕ} (h : ∀ code ∈ codes, code < 1114112) :
    ReadsPoints (codes.flatMap escapePoint) (joinUnits (codes.flatMap unitsOf)) :=
  readsPoints_of_units (readsUnits_flatMap fun code hcode => readsUnits_escapePoint (h code hcode))

theorem reads_codes {codes : List ℕ} (h : ∀ code ∈ codes, code < 1114112) :
    Reads (JsonDoc.str codes).dumps (.str (joinUnits (codes.flatMap unitsOf))) :=
  reads_str (readsPoints_codes h)

theorem readsPoints_points (text : List Char) :
    ReadsPoints ((points text).flatMap escapePoint) (points text) := by
  have hbound : ∀ code ∈ points text, code < 1114112 := by
    intro code hcode
    obtain ⟨c, _, rfl⟩ := List.mem_map.mp hcode
    exact toNat_lt c
  have hread := readsPoints_codes hbound
  rw [(joinUnits_codes_iff hbound).mpr (noSplitPair_points text)] at hread
  exact hread

/-- The text of an object whose members stand in the order of their keys. -/
def sortedText (members : List (List ℕ × JsonDoc)) : List Char :=
  '{' :: (joinWith ',' ((docEntries members).map fun entry => memberText (entry.1.flatMap escapePoint, entry.2)) ++
    ['}'])

theorem docEntries_eq_map (members : List (List ℕ × JsonDoc)) :
    docEntries members = members.map fun entry => (entry.1, entry.2.dumps) := by
  induction members with
  | nil => rfl
  | cons entry members ih => rw [docEntries, ih, List.map_cons]

theorem docTexts_eq_map (items : List JsonDoc) : docTexts items = items.map JsonDoc.dumps := by
  induction items with
  | nil => rfl
  | cons item items ih => rw [docTexts, ih, List.map_cons]

variable {members : List (List ℕ × JsonDoc)}

/-- Members in the order of their keys are written in it. -/
theorem dumps_obj_of_sorted (h : (members.map Prod.fst).Pairwise (· ≤ ·)) :
    (JsonDoc.obj members).dumps = sortedText members := by
  have hsorted : (docEntries members).Pairwise fun a b => a.1 ≤ b.1 := by
    rw [docEntries_eq_map, List.pairwise_map]
    exact List.pairwise_map.mp h
  unfold JsonDoc.dumps sortedText
  rw [List.Pairwise.insertionSort_eq hsorted]

/-- The member is read back as the other. -/
def RereadsAs (entry entry' : List ℕ × JsonDoc) : Prop :=
  ReadsMember (entry.1.flatMap escapePoint, entry.2.dumps) entry'

theorem reads_sortedText {members' : List (List ℕ × JsonDoc)} (h : List.Forall₂ RereadsAs members members') :
    Reads (sortedText members) (.obj members') := by
  unfold sortedText
  rw [docEntries_eq_map, List.map_map]
  have hmembers : List.Forall₂ ReadsMember
      (members.map fun entry => (entry.1.flatMap escapePoint, entry.2.dumps)) members' := by
    rw [List.forall₂_map_left_iff]
    exact h
  have hread := reads_obj hmembers
  rw [List.map_map] at hread
  exact hread

theorem reads_docs {items items' : List JsonDoc}
    (h : List.Forall₂ (fun item item' => Reads item.dumps item') items items') :
    Reads (JsonDoc.arr items).dumps (.arr items') := by
  unfold JsonDoc.dumps
  rw [docTexts_eq_map]
  apply reads_arr
  rw [List.forall₂_map_left_iff]
  exact h

end Codes

/-! ## 11. What Python makes of a document -/

/-- A text read, unless it holds half of a pair. -/
def textOf? (codes : List ℕ) : Option (List Char) :=
  if codes.all fun code => decide (Nat.isValidChar code) then some (codes.map Char.ofNat) else none

def stringOf? : JsonDoc → Option (List ℕ)
  | .str codes => some codes
  | _ => none

/-- A whole number as `json.loads` makes it of a literal without a fraction and an exponent. -/
def integerOf? : JsonDoc → Option ℤ
  | .number ⟨negative, whole, none, none⟩ => some (if negative then -whole else whole)
  | _ => none

def elementsOf? : JsonDoc → Option (List JsonDoc)
  | .arr items => some items
  | _ => none

def membersOf? : JsonDoc → Option (List (List ℕ × JsonDoc))
  | .obj members => some members
  | _ => none

/-- `value is True`. -/
def isTrue : JsonDoc → Bool
  | .bool true => true
  | _ => false

/-- The value of a key; of two members of one key the last. -/
def lastMember (members : List (List ℕ × JsonDoc)) (key : List Char) : Option JsonDoc :=
  members.reverse.lookup (points key)

/-- The keys of the object are exactly these. -/
def hasKeys (members : List (List ℕ × JsonDoc)) (keys : List (List Char)) : Bool :=
  decide ((∀ key ∈ keys, points key ∈ members.map Prod.fst) ∧
    ∀ code ∈ members.map Prod.fst, code ∈ keys.map points)

/-- The value is this text. -/
def isText (text : List Char) : JsonDoc → Bool
  | .str codes => decide (codes = points text)
  | _ => false

theorem textOf?_points (text : List Char) : textOf? (points text) = some text := by
  have hvalid : ((points text).all fun code => decide (Nat.isValidChar code)) = true := by
    rw [List.all_eq_true]
    intro code hcode
    obtain ⟨c, _, rfl⟩ := List.mem_map.mp hcode
    exact decide_eq_true c.valid
  have hback : (points text).map Char.ofNat = text := by
    unfold points
    rw [List.map_map]
    have hid : Char.ofNat ∘ Char.toNat = id := funext Char.ofNat_toNat
    rw [hid, List.map_id]
  unfold textOf?
  rw [if_pos hvalid, hback]

theorem integerOf?_intLiteral (z : ℤ) : integerOf? (.number (intLiteral z)) = some z := by
  unfold intLiteral integerOf?
  by_cases h : z < 0
  · have hsign : -(z.natAbs : ℤ) = z := by omega
    simp only [decide_eq_true h, if_true, hsign]
  · have hsign : (z.natAbs : ℤ) = z := by omega
    simp only [decide_eq_false h, Bool.false_eq_true, if_false, hsign]

end Milo.Python
