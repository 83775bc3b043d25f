import Milo.Python.Jsonb
import Milo.Python.Text

/-!
# JsonLines — JSON values as lines of a text

`json.dumps` without ASCII escapes writes every control character as an escape and every other
character as it is.  `str.splitlines` ends a line at more characters than the newline, three of
which are not control characters: a value that holds one of them is more than one line.
-/

namespace Milo.Python

/-! ## 1. Lines -/

/-- Characters that end a line. -/
def isLineBreak (c : Char) : Bool :=
  [0xa, 0xb, 0xc, 0xd, 0x1c, 0x1d, 0x1e, 0x85, 0x2028, 0x2029].contains c.toNat

/-- The lines of a text whose first line has begun with `line`; a return and a newline end one. -/
def linesFrom (line : List Char) : List Char → List (List Char)
  | [] => flush line
  | '\r' :: '\n' :: text => line :: linesFrom [] text
  | c :: text => if isLineBreak c then line :: linesFrom [] text else linesFrom (line ++ [c]) text

/-- `str.splitlines()`. -/
def splitlines (text : List Char) : List (List Char) := linesFrom [] text

variable {c : Char} {texts : List (List Char)}

theorem linesFrom_cons (line text : List Char) (h : c ≠ '\r') :
    linesFrom line (c :: text) =
      if isLineBreak c then line :: linesFrom [] text else linesFrom (line ++ [c]) text := by
  rw [linesFrom]
  rintro rest rfl
  exact absurd rfl h

/-- A body without a break is read up to the newline after it. -/
theorem linesFrom_body (rest : List Char) {body : List Char}
    (h : ∀ c ∈ body, isLineBreak c = false) :
    ∀ line, linesFrom line (body ++ '\n' :: rest) = (line ++ body) :: linesFrom [] rest := by
  induction body with
  | nil =>
    intro line
    show linesFrom line ('\n' :: rest) = _
    rw [linesFrom_cons line rest (by decide), if_pos (by decide), List.append_nil]
  | cons c body ih =>
    intro line
    have hc := h c List.mem_cons_self
    have hreturn : c ≠ '\r' := by
      rintro rfl
      exact absurd hc (by decide)
    rw [List.cons_append, linesFrom_cons line _ hreturn, if_neg (by rw [hc]; decide),
      ih (fun d hd => h d (List.mem_cons_of_mem _ hd)), List.append_assoc]
    rfl

/-- Lines without a break of their own are read back. -/
theorem splitlines_flatMap {bodies : List (List Char)}
    (h : ∀ body ∈ bodies, ∀ c ∈ body, isLineBreak c = false) :
    splitlines (bodies.flatMap fun body => body ++ ['\n']) = bodies := by
  induction bodies with
  | nil => rfl
  | cons body bodies ih =>
    have hrest := ih fun b hb => h b (List.mem_cons_of_mem _ hb)
    rw [List.flatMap_cons, List.append_assoc]
    unfold splitlines at hrest ⊢
    rw [List.singleton_append, linesFrom_body _ (h body List.mem_cons_self), hrest]
    rfl

/-- Without returns every break ends a line of its own. -/
theorem countP_le_length_linesFrom {text : List Char} (h : ∀ c ∈ text, c ≠ '\r') :
    ∀ line, text.countP isLineBreak ≤ (linesFrom line text).length := by
  induction text with
  | nil => exact fun _ => Nat.zero_le _
  | cons c text ih =>
    intro line
    have hrest := ih fun d hd => h d (List.mem_cons_of_mem _ hd)
    rw [linesFrom_cons line text (h c List.mem_cons_self), List.countP_cons]
    split
    · rw [List.length_cons]
      have hline := hrest []
      omega
    · exact hrest _

/-- A line with a break of its own is read as more than one. -/
theorem length_lt_splitlines {bodies : List (List Char)} (h : ∀ body ∈ bodies, ∀ c ∈ body, c ≠ '\r')
    {body : List Char} (hbody : body ∈ bodies) (hc : c ∈ body) (hbreak : isLineBreak c = true) :
    bodies.length < (splitlines (bodies.flatMap fun body => body ++ ['\n'])).length := by
  have hreturn : ∀ d ∈ bodies.flatMap fun body => body ++ ['\n'], d ≠ '\r' := by
    intro d hd
    rcases List.mem_flatMap.mp hd with ⟨b, hb, hd⟩
    rcases List.mem_append.mp hd with hd | hd
    · exact h b hb d hd
    · rw [List.mem_singleton.mp hd]
      decide
  have hcount : bodies.length <
      (bodies.flatMap fun body => body ++ ['\n']).countP isLineBreak := by
    clear h hreturn
    induction bodies with
    | nil => cases hbody
    | cons b rest ih =>
      have hends : ∀ texts : List (List Char),
          texts.length ≤ (texts.flatMap fun body => body ++ ['\n']).countP isLineBreak := by
        intro texts
        induction texts with
        | nil => exact Nat.le_refl _
        | cons t texts iht =>
          rw [List.flatMap_cons, List.countP_append, List.countP_append, List.length_cons]
          have hnewline : ['\n'].countP isLineBreak = 1 := by decide
          omega
      rw [List.flatMap_cons, List.countP_append, List.countP_append, List.length_cons]
      have hnewline : ['\n'].countP isLineBreak = 1 := by decide
      rcases List.mem_cons.mp hbody with rfl | hin
      · have hpos := List.countP_pos_iff.mpr ⟨c, hc, hbreak⟩
        have hrest := hends rest
        omega
      · have hrest := ih hin
        omega
  exact hcount.trans_le (countP_le_length_linesFrom hreturn [])

example : splitlines "a\r\nb\n\nc".toList = ["a".toList, "b".toList, [], "c".toList] := by
  decide +kernel

/-! ## 2. The text of a value -/

mutual

/-- `json.dumps(value, sort_keys=True, separators=(",", ":"), ensure_ascii=False)`; its escapes are
    the database's. -/
def Json.dumpsUnicode : Json → List Char
  | .null => ['n', 'u', 'l', 'l']
  | .bool true => ['t', 'r', 'u', 'e']
  | .bool false => ['f', 'a', 'l', 's', 'e']
  | .int z => intText z
  | .float f => floatText f
  | .str s => jsonbQuoted s
  | .arr items => '[' :: (joinWith ',' (unicodeItems items) ++ [']'])
  | .obj members =>
    '{' :: (joinWith ',' (((unicodeMembers members).insertionSort fun a b => keyLE a.1 b.1).map
      fun m => jsonbQuoted m.1 ++ ':' :: m.2) ++ ['}'])

def unicodeItems : List Json → List (List Char)
  | [] => []
  | item :: items => item.dumpsUnicode :: unicodeItems items

def unicodeMembers : List (List Char × Json) → List (List Char × List Char)
  | [] => []
  | (key, value) :: members => (key, value.dumpsUnicode) :: unicodeMembers members

end

mutual

/-- The strings of a value: its keys and its string values. -/
def Json.strings : Json → List (List Char)
  | .str s => [s]
  | .arr items => itemStrings items
  | .obj members => memberStrings members
  | _ => []

def itemStrings : List Json → List (List Char)
  | [] => []
  | item :: items => item.strings ++ itemStrings items

def memberStrings : List (List Char × Json) → List (List Char)
  | [] => []
  | (key, value) :: members => key :: (value.strings ++ memberStrings members)

end

/-! ## 3. The characters of the text -/

/-- Printable ASCII. -/
def isPlain (c : Char) : Bool := decide (32 ≤ c.toNat) && decide (c.toNat < 127)

theorem isPlain_of_isDigit (h : c.isDigit = true) : isPlain c = true := by
  unfold Char.isDigit at h
  rw [Bool.and_eq_true, decide_eq_true_eq, decide_eq_true_eq] at h
  have hlow : 48 ≤ c.toNat := h.1
  have hhigh : c.toNat ≤ 57 := h.2
  unfold isPlain
  rw [Bool.and_eq_true, decide_eq_true_eq, decide_eq_true_eq]
  omega

theorem isPlain_of_mem_natText {n : ℕ} (h : c ∈ natText n) : isPlain c = true :=
  isPlain_of_isDigit (isDigit_of_mem_natText h)

theorem isPlain_of_mem_intText {z : ℤ} (h : c ∈ intText z) : isPlain c = true := by
  cases z with
  | ofNat n => exact isPlain_of_mem_natText h
  | negSucc n =>
    rcases List.mem_cons.mp h with rfl | h
    · decide
    · exact isPlain_of_mem_natText h

theorem isPlain_of_mem_zeros {n : ℕ} (h : c ∈ List.replicate n '0') : isPlain c = true := by
  rw [List.eq_of_mem_replicate h]
  decide

theorem isPlain_of_mem_exponentText {e : ℤ} (h : c ∈ exponentText e) : isPlain c = true := by
  unfold exponentText at h
  rcases List.mem_cons.mp h with rfl | h
  · decide
  rcases List.mem_cons.mp h with rfl | h
  · split <;> decide
  split at h
  · rcases List.mem_cons.mp h with rfl | h
    · decide
    · exact isPlain_of_mem_natText h
  · exact isPlain_of_mem_natText h

theorem isPlain_of_mem_magnitudeText {n : ℕ} {point : ℤ} (h : c ∈ magnitudeText (natText n) point) :
    isPlain c = true := by
  unfold magnitudeText at h
  split at h
  · unfold fixedText at h
    split at h
    · rcases List.mem_append.mp h with h | h
      · rw [List.mem_singleton.mp h]
        decide
      rcases List.mem_cons.mp h with rfl | h
      · decide
      rcases List.mem_append.mp h with h | h
      · exact isPlain_of_mem_zeros h
      · exact isPlain_of_mem_natText h
    · split at h
      · rcases List.mem_append.mp h with h | h
        · rcases List.mem_append.mp h with h | h
          · exact isPlain_of_mem_natText h
          · exact isPlain_of_mem_zeros h
        rcases List.mem_cons.mp h with rfl | h
        · decide
        · rw [List.mem_singleton.mp h]
          decide
      · rcases List.mem_append.mp h with h | h
        · exact isPlain_of_mem_natText (List.mem_of_mem_take h)
        rcases List.mem_cons.mp h with rfl | h
        · decide
        · exact isPlain_of_mem_natText (List.mem_of_mem_drop h)
  · unfold scientificText at h
    split at h
    · rcases List.mem_append.mp h with h | h
      · exact isPlain_of_mem_natText h
      · exact isPlain_of_mem_exponentText h
    · rcases List.mem_append.mp h with h | h
      · exact isPlain_of_mem_natText (List.mem_of_mem_take h)
      rcases List.mem_cons.mp h with rfl | h
      · decide
      rcases List.mem_append.mp h with h | h
      · exact isPlain_of_mem_natText (List.mem_of_mem_drop h)
      · exact isPlain_of_mem_exponentText h

theorem isPlain_of_mem_floatText {f : PyFloat} (h : c ∈ floatText f) : isPlain c = true := by
  unfold floatText at h
  split at h
  · rcases List.mem_cons.mp h with rfl | h
    · decide
    · exact isPlain_of_mem_magnitudeText h
  · exact isPlain_of_mem_magnitudeText h

theorem isPlain_hexDigit (n : ℕ) : isPlain (hexDigit n) = true := by
  have hall : ∀ k < 16, isPlain ((Nat.toDigits 16 k).headD '0') = true := by decide +kernel
  exact hall (n % 16) (Nat.mod_lt n (by decide))

/-- A character of a text is printable ASCII, or a character of one of the strings that is no
    control character. -/
def Shown (strings : List (List Char)) (c : Char) : Prop :=
  isPlain c = true ∨ 32 ≤ c.toNat ∧ ∃ s ∈ strings, c ∈ s

theorem Shown.mono {strings strings' : List (List Char)} (h : Shown strings c) (hsub : strings ⊆ strings') :
    Shown strings' c := by
  rcases h with hplain | ⟨hvisible, s, hs, hc⟩
  · exact Or.inl hplain
  · exact Or.inr ⟨hvisible, s, hsub hs, hc⟩

theorem mem_jsonbEscape {d : Char} (h : c ∈ jsonbEscape d) : isPlain c = true ∨ (32 ≤ c.toNat ∧ c = d) := by
  have hpair : ∀ {e : Char}, isPlain e = true → c ∈ ['\\', e] → isPlain c = true := by
    intro e he hc
    rcases List.mem_cons.mp hc with rfl | hc
    · decide
    · rw [List.mem_singleton.mp hc]
      exact he
  unfold jsonbEscape at h
  iterate 7
    split at h
    · exact Or.inl (hpair (by decide) h)
  split at h
  · left
    unfold unitEscape at h
    iterate 2
      rcases List.mem_cons.mp h with rfl | h
      · decide
    iterate 3
      rcases List.mem_cons.mp h with rfl | h
      · exact isPlain_hexDigit _
    rw [List.mem_singleton.mp h]
    exact isPlain_hexDigit _
  · rename_i hvisible
    rw [List.mem_singleton.mp h]
    exact Or.inr ⟨not_lt.mp hvisible, rfl⟩

theorem shown_jsonbQuoted {s : List Char} (h : c ∈ jsonbQuoted s) : Shown [s] c := by
  unfold jsonbQuoted at h
  rcases List.mem_cons.mp h with rfl | h
  · exact Or.inl (by decide)
  rcases List.mem_append.mp h with h | h
  · rcases List.mem_flatMap.mp h with ⟨d, hd, hc⟩
    rcases mem_jsonbEscape hc with hplain | ⟨hvisible, rfl⟩
    · exact Or.inl hplain
    · exact Or.inr ⟨hvisible, s, List.mem_singleton.mpr rfl, hd⟩
  · rw [List.mem_singleton.mp h]
    exact Or.inl (by decide)

theorem mem_joinWith {separator : Char} (h : c ∈ joinWith separator texts) :
    c = separator ∨ ∃ text ∈ texts, c ∈ text := by
  induction texts with
  | nil => cases h
  | cons text rest ih =>
    cases rest with
    | nil =>
      unfold joinWith at h
      rw [List.intercalate_singleton] at h
      exact Or.inr ⟨text, List.mem_cons_self, h⟩
    | cons next rest =>
      unfold joinWith at h ih
      rw [List.intercalate_cons_cons] at h
      rcases List.mem_append.mp h with h | h
      · rcases List.mem_append.mp h with h | h
        · exact Or.inr ⟨text, List.mem_cons_self, h⟩
        · exact Or.inl (List.mem_singleton.mp h)
      · exact (ih h).imp id fun ⟨t, ht, hc⟩ => ⟨t, List.mem_cons_of_mem _ ht, hc⟩

theorem mem_joinWith_of_mem {separator : Char} {text : List Char} (htext : text ∈ texts) (hc : c ∈ text) :
    c ∈ joinWith separator texts := by
  induction texts with
  | nil => cases htext
  | cons first rest ih =>
    unfold joinWith at ih ⊢
    cases rest with
    | nil =>
      rw [List.intercalate_singleton, ← List.mem_singleton.mp htext]
      exact hc
    | cons next rest =>
      rw [List.intercalate_cons_cons]
      rcases List.mem_cons.mp htext with rfl | htext
      · exact List.mem_append_left _ (List.mem_append_left _ hc)
      · exact List.mem_append_right _ (ih htext)

/-- A text in brackets is shown by what its parts show. -/
theorem shown_bracketed {strings : List (List Char)} {opening closing : Char} (hopening : isPlain opening = true)
    (hclosing : isPlain closing = true) (htexts : ∀ text ∈ texts, ∀ d ∈ text, Shown strings d)
    (h : c ∈ opening :: (joinWith ',' texts ++ [closing])) : Shown strings c := by
  rcases List.mem_cons.mp h with rfl | h
  · exact Or.inl hopening
  rcases List.mem_append.mp h with h | h
  · rcases mem_joinWith h with rfl | ⟨text, htext, hc⟩
    · exact Or.inl (by decide)
    · exact htexts text htext c hc
  · rw [List.mem_singleton.mp h]
    exact Or.inl hclosing

mutual

/-- Every character of the text is plain, or stands in one of the strings. -/
theorem shown_dumpsUnicode (j : Json) : ∀ c ∈ j.dumpsUnicode, Shown j.strings c := by
  intro c h
  match j with
  | .null =>
    have hall : Json.null.dumpsUnicode.all isPlain = true := by decide
    exact Or.inl (List.all_eq_true.mp hall c h)
  | .bool true =>
    have hall : (Json.bool true).dumpsUnicode.all isPlain = true := by decide
    exact Or.inl (List.all_eq_true.mp hall c h)
  | .bool false =>
    have hall : (Json.bool false).dumpsUnicode.all isPlain = true := by decide
    exact Or.inl (List.all_eq_true.mp hall c h)
  | .int z => exact Or.inl (isPlain_of_mem_intText h)
  | .float f => exact Or.inl (isPlain_of_mem_floatText h)
  | .str s => exact shown_jsonbQuoted h
  | .arr items => exact shown_bracketed (by decide) (by decide) (shown_unicodeItems items) h
  | .obj members =>
    apply shown_bracketed (by decide) (by decide) _ h
    intro text htext d hd
    rcases List.mem_map.mp htext with ⟨member, hmember, rfl⟩
    have hshown := shown_unicodeMembers members member
      ((List.perm_insertionSort _ _).mem_iff.mp hmember)
    rcases List.mem_append.mp hd with hd | hd
    · refine (shown_jsonbQuoted hd).mono fun s hs => ?_
      rw [List.mem_singleton.mp hs]
      exact hshown.1
    · rcases List.mem_cons.mp hd with rfl | hd
      · exact Or.inl (by decide)
      · exact hshown.2 d hd

theorem shown_unicodeItems (items : List Json) :
    ∀ text ∈ unicodeItems items, ∀ c ∈ text, Shown (itemStrings items) c := by
  match items with
  | [] => exact fun _ h => absurd h List.not_mem_nil
  | item :: items =>
    intro text htext c hc
    rcases List.mem_cons.mp htext with rfl | htext
    · exact (shown_dumpsUnicode item c hc).mono (List.subset_append_left _ _)
    · exact (shown_unicodeItems items text htext c hc).mono (List.subset_append_right _ _)

theorem shown_unicodeMembers (members : List (List Char × Json)) :
    ∀ member ∈ unicodeMembers members, member.1 ∈ memberStrings members ∧
      ∀ c ∈ member.2, Shown (memberStrings members) c := by
  match members with
  | [] => exact fun _ h => absurd h List.not_mem_nil
  | (key, value) :: members =>
    intro member hmember
    rcases List.mem_cons.mp hmember with rfl | hmember
    · refine ⟨List.mem_cons_self, fun c hc => (shown_dumpsUnicode value c hc).mono ?_⟩
      exact fun s hs => List.mem_cons_of_mem _ (List.mem_append_left _ hs)
    · have hshown := shown_unicodeMembers members member hmember
      have hsub : memberStrings members ⊆ memberStrings ((key, value) :: members) :=
        fun s hs => List.mem_cons_of_mem _ (List.mem_append_right _ hs)
      exact ⟨hsub hshown.1, fun c hc => (hshown.2 c hc).mono hsub⟩

end

theorem mem_jsonbQuoted {s : List Char} (hc : c ∈ s) (hunicode : 127 < c.toNat) : c ∈ jsonbQuoted s := by
  apply List.mem_cons_of_mem
  apply List.mem_append_left
  rw [List.mem_flatMap]
  refine ⟨c, hc, ?_⟩
  have hne : ∀ d : Char, d.toNat ≤ 127 → c ≠ d := by
    rintro d hd rfl
    omega
  unfold jsonbEscape
  rw [if_neg (hne '"' (by decide)), if_neg (hne '\\' (by decide)), if_neg (by omega),
    if_neg (by omega), if_neg (hne '\n' (by decide)), if_neg (hne '\r' (by decide)),
    if_neg (hne '\t' (by decide)), if_neg (by omega)]
  exact List.mem_singleton.mpr rfl

mutual

/-- A character past ASCII of one of the strings is a character of the text. -/
theorem mem_dumpsUnicode (j : Json) {s : List Char} (hs : s ∈ j.strings) {c : Char} (hc : c ∈ s)
    (hunicode : 127 < c.toNat) : c ∈ j.dumpsUnicode := by
  match j with
  | .null => cases hs
  | .bool b => cases b <;> cases hs
  | .int z => cases hs
  | .float f => cases hs
  | .str t =>
    cases List.mem_singleton.mp hs
    exact mem_jsonbQuoted hc hunicode
  | .arr items =>
    rcases mem_unicodeItems items hs hc hunicode with ⟨text, htext, hmem⟩
    exact List.mem_cons_of_mem _ (List.mem_append_left _ (mem_joinWith_of_mem htext hmem))
  | .obj members =>
    rcases mem_unicodeMembers members hs hc hunicode with ⟨member, hmember, hmem⟩
    apply List.mem_cons_of_mem
    apply List.mem_append_left
    exact mem_joinWith_of_mem (List.mem_map_of_mem
      ((List.perm_insertionSort _ _).mem_iff.mpr hmember)) hmem

theorem mem_unicodeItems (items : List Json) {s : List Char} (hs : s ∈ itemStrings items)
    {c : Char} (hc : c ∈ s) (hunicode : 127 < c.toNat) :
    ∃ text ∈ unicodeItems items, c ∈ text := by
  match items with
  | [] => cases hs
  | item :: items =>
    rcases List.mem_append.mp hs with hs | hs
    · exact ⟨_, List.mem_cons_self, mem_dumpsUnicode item hs hc hunicode⟩
    · rcases mem_unicodeItems items hs hc hunicode with ⟨text, htext, hmem⟩
      exact ⟨text, List.mem_cons_of_mem _ htext, hmem⟩

theorem mem_unicodeMembers (members : List (List Char × Json)) {s : List Char}
    (hs : s ∈ memberStrings members) {c : Char} (hc : c ∈ s) (hunicode : 127 < c.toNat) :
    ∃ member ∈ unicodeMembers members, c ∈ jsonbQuoted member.1 ++ ':' :: member.2 := by
  match members with
  | [] => cases hs
  | (key, value) :: members =>
    rcases List.mem_cons.mp hs with rfl | hs
    · exact ⟨_, List.mem_cons_self, List.mem_append_left _ (mem_jsonbQuoted hc hunicode)⟩
    rcases List.mem_append.mp hs with hs | hs
    · exact ⟨_, List.mem_cons_self, List.mem_append_right _ (List.mem_cons_of_mem _
        (mem_dumpsUnicode value hs hc hunicode))⟩
    · rcases mem_unicodeMembers members hs hc hunicode with ⟨member, hmember, hmem⟩
      exact ⟨member, List.mem_cons_of_mem _ hmember, hmem⟩

end

/-! ## 4. The line breaks of the text -/

/-- The line breaks that are no control characters: they are written as they are. -/
def isUnescapedBreak (c : Char) : Bool := [0x85, 0x2028, 0x2029].contains c.toNat

theorem isLineBreak_of_unescaped (h : isUnescapedBreak c = true) : isLineBreak c = true ∧ 127 < c.toNat := by
  unfold isUnescapedBreak at h
  unfold isLineBreak
  rw [List.contains_iff_mem] at h ⊢
  simp only [List.mem_cons, List.not_mem_nil, or_false] at h ⊢
  omega

theorem unescaped_of_isLineBreak (h : isLineBreak c = true) (hvisible : 32 ≤ c.toNat) :
    isUnescapedBreak c = true := by
  unfold isLineBreak at h
  unfold isUnescapedBreak
  rw [List.contains_iff_mem] at h ⊢
  simp only [List.mem_cons, List.not_mem_nil, or_false] at h ⊢
  omega

theorem visible_dumpsUnicode {j : Json} (h : c ∈ j.dumpsUnicode) : 32 ≤ c.toNat := by
  rcases shown_dumpsUnicode j c h with hplain | ⟨hvisible, -⟩
  · unfold isPlain at hplain
    rw [Bool.and_eq_true, decide_eq_true_eq] at hplain
    exact hplain.1
  · exact hvisible

/-- The text breaks a line exactly where one of the strings holds an unescaped break. -/
theorem break_mem_dumpsUnicode_iff (j : Json) :
    (∃ c ∈ j.dumpsUnicode, isLineBreak c = true) ↔
      ∃ s ∈ j.strings, ∃ c ∈ s, isUnescapedBreak c = true := by
  constructor
  · rintro ⟨c, hc, hbreak⟩
    rcases shown_dumpsUnicode j c hc with hplain | ⟨hvisible, s, hs, hmem⟩
    · have hunescaped := isLineBreak_of_unescaped
        (unescaped_of_isLineBreak hbreak (visible_dumpsUnicode hc))
      unfold isPlain at hplain
      rw [Bool.and_eq_true, decide_eq_true_eq, decide_eq_true_eq] at hplain
      omega
    · exact ⟨s, hs, c, hmem, unescaped_of_isLineBreak hbreak hvisible⟩
  · rintro ⟨s, hs, c, hc, hunescaped⟩
    have hbreak := isLineBreak_of_unescaped hunescaped
    exact ⟨c, mem_dumpsUnicode j hs hc hbreak.2, hbreak.1⟩

end Milo.Python
