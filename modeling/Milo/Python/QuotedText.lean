import Milo.Python.Json
import Milo.Reasoning.PrefixCode

/-!
# QuotedText — reading JSON texts back

The escape of a character marks its own end, and so do a quoted text and a JSON value made of texts,
nulls and lists: the canonical text of such a value determines it.
-/

namespace Milo.Python

open Milo.Reasoning

/-! ## 1. Escapes -/

def hexValue (c : Char) : ℕ := if c.isDigit then c.toNat - 48 else c.toNat - 87

def unitValue (a b c d : Char) : ℕ :=
  hexValue a * 4096 + hexValue b * 256 + hexValue c * 16 + hexValue d

/-- What a backslash and a letter stand for. -/
def shortEscape (c : Char) : Char :=
  if c = 'n' then '\n'
  else if c = 'r' then '\r'
  else if c = 't' then '\t'
  else if c = 'f' then Char.ofNat 12
  else if c = 'b' then Char.ofNat 8
  else c

/-- The character a text of escapes starts with. -/
def readEscape : List Char → Char
  | '\\' :: 'u' :: a :: b :: c :: d :: text =>
    let high := unitValue a b c d
    if 55296 ≤ high ∧ high < 56320 then
      match text with
      | _ :: _ :: a :: b :: c :: d :: _ =>
        Char.ofNat (65536 + (high - 55296) * 1024 + (unitValue a b c d - 56320))
      | _ => default
    else Char.ofNat high
  | '\\' :: c :: _ => shortEscape c
  | c :: _ => c
  | [] => default

theorem hexValue_hexDigit (n : ℕ) : hexValue (hexDigit n) = n % 16 := by
  have hall : ∀ k < 16, hexValue ((Nat.toDigits 16 k).headD '0') = k := by decide +kernel
  exact hall (n % 16) (Nat.mod_lt n (by decide))

theorem unitValue_hexDigits {n : ℕ} (h : n < 65536) :
    unitValue (hexDigit (n / 4096)) (hexDigit (n / 256)) (hexDigit (n / 16)) (hexDigit n) = n := by
  unfold unitValue
  rw [hexValue_hexDigit, hexValue_hexDigit, hexValue_hexDigit, hexValue_hexDigit]
  omega

theorem readEscape_unit {n : ℕ} (h : n < 65536) (hplain : ¬(55296 ≤ n ∧ n < 56320)) (rest : List Char) :
    readEscape (unitEscape n ++ rest) = Char.ofNat n := by
  unfold unitEscape readEscape
  simp only [List.cons_append, List.nil_append]
  rw [unitValue_hexDigits h, if_neg hplain]

theorem readEscape_pair {high low : ℕ} (hhigh : 55296 ≤ high ∧ high < 56320)
    (hlow : low < 65536) (rest : List Char) :
    readEscape (unitEscape high ++ unitEscape low ++ rest) =
      Char.ofNat (65536 + (high - 55296) * 1024 + (low - 56320)) := by
  have hsmall : high < 65536 := by omega
  unfold unitEscape readEscape
  simp only [List.cons_append, List.nil_append]
  rw [unitValue_hexDigits hsmall, unitValue_hexDigits hlow, if_pos hhigh]

theorem not_surrogate (c : Char) : ¬(55296 ≤ c.toNat ∧ c.toNat < 56320) := by
  have hvalid := c.valid
  intro h
  rcases hvalid with hlow | ⟨hhigh, _⟩
  · have hlow' : c.toNat < 55296 := hlow
    omega
  · have hhigh' : 57343 < c.toNat := hhigh
    omega

theorem toNat_lt (c : Char) : c.toNat < 1114112 := by
  rcases c.valid with hlow | ⟨_, hhigh⟩
  · have hlow' : c.toNat < 55296 := hlow
    omega
  · exact hhigh

theorem readEscape_escapeChar (c : Char) (rest : List Char) : readEscape (escapeChar c ++ rest) = c := by
  unfold escapeChar
  split
  · rename_i h
    rw [h]
    rfl
  split
  · rename_i h
    rw [h]
    rfl
  split
  · rename_i h
    rw [h]
    rfl
  split
  · rename_i h
    rw [h]
    rfl
  split
  · rename_i h
    rw [h]
    rfl
  split
  · rename_i h
    rw [← Char.ofNat_toNat c, h]
    rfl
  split
  · rename_i h
    rw [← Char.ofNat_toNat c, h]
    rfl
  split
  · rename_i hslash _ _ _ _ _ _
    unfold readEscape
    simp only [List.cons_append, List.nil_append]
    split
    · rename_i heq
      exact absurd (List.cons.inj heq).1 hslash
    · rename_i heq
      exact absurd (List.cons.inj heq).1 hslash
    · rename_i heq
      exact (List.cons.inj heq).1.symm
    · rename_i heq
      cases heq
  split
  · rename_i h
    rw [readEscape_unit h (not_surrogate c), Char.ofNat_toNat]
  · rename_i h
    have hbound := toNat_lt c
    have hlarge : 65536 ≤ c.toNat := not_lt.mp h
    have hhigh : 55296 ≤ 55296 + (c.toNat - 65536) / 1024 ∧ 55296 + (c.toNat - 65536) / 1024 < 56320 := by
      omega
    have hlow : 56320 + (c.toNat - 65536) % 1024 < 65536 := by omega
    have hsum : 65536 + (55296 + (c.toNat - 65536) / 1024 - 55296) * 1024 +
        (56320 + (c.toNat - 65536) % 1024 - 56320) = c.toNat := by omega
    rw [readEscape_pair hhigh hlow, hsum, Char.ofNat_toNat]

theorem delimits_escapeChar : Delimits escapeChar := by
  intro c d rest rest' h
  have hsame : c = d := by
    rw [← readEscape_escapeChar c rest, h, readEscape_escapeChar]
  subst hsame
  exact ⟨rfl, List.append_cancel_left h⟩

/-! ## 2. Texts -/

theorem escapeChar_ne_nil (c : Char) : escapeChar c ≠ [] := by
  unfold escapeChar
  repeat' split
  all_goals exact List.cons_ne_nil _ _

theorem head?_escapeChar (c : Char) : (escapeChar c).head? ≠ some '"' := by
  unfold escapeChar
  split
  · decide
  · rename_i hquote
    repeat' split
    all_goals first
      | decide
      | exact fun h => hquote (Option.some.inj h)
      | exact fun h => absurd (Option.some.inj h) (by decide)

theorem delimits_quoted : Delimits quoted := by
  have hbody : Delimits fun s : List Char => s.flatMap escapeChar ++ ['"'] :=
    delimits_escapeChar.closed escapeChar_ne_nil head?_escapeChar
  intro s t rest rest' h
  unfold quoted at h
  rw [List.cons_append, List.cons_append, List.cons.injEq] at h
  exact hbody h.2

/-! ## 3. Values made of texts -/

mutual

/-- The value is made of texts, nulls and lists. -/
def Json.isTextual : Json → Bool
  | .null => true
  | .str _ => true
  | .arr items => textualItems items
  | _ => false

def textualItems : List Json → Bool
  | [] => true
  | item :: items => item.isTextual && textualItems items

end

/-- The items after the first, and the end of the list. -/
def itemsTail (items : List Json) : List Char := items.flatMap (fun item => ',' :: item.dumps) ++ [']']

theorem itemsTail_cons (item : Json) (items : List Json) :
    itemsTail (item :: items) = ',' :: (item.dumps ++ itemsTail items) := by
  unfold itemsTail
  rw [List.flatMap_cons, List.append_assoc, List.cons_append]

theorem joinWith_dumpsItems (item : Json) (items : List Json) :
    joinWith ',' (dumpsItems (item :: items)) ++ [']'] = item.dumps ++ itemsTail items := by
  induction items generalizing item with
  | nil =>
    unfold joinWith itemsTail
    simp [dumpsItems, List.intercalate]
  | cons next items ih =>
    rw [itemsTail_cons, ← ih next]
    unfold joinWith
    simp [dumpsItems, List.intercalate]

theorem dumps_arr_cons (item : Json) (items : List Json) :
    (Json.arr (item :: items)).dumps = '[' :: (item.dumps ++ itemsTail items) := by
  rw [← joinWith_dumpsItems]
  rfl

/-- A value made of texts starts with none of the marks of a list's end. -/
theorem head_of_isTextual {j : Json} (h : j.isTextual = true) :
    ∃ c rest, j.dumps = c :: rest ∧ c ≠ ']' ∧ (c = 'n' ↔ j = .null) ∧ (c = '"' ↔ ∃ s, j = .str s) := by
  cases j with
  | null => exact ⟨'n', _, rfl, by decide, by simp, by simp⟩
  | str s => exact ⟨'"', _, rfl, by decide, by simp, by simp⟩
  | arr items => exact ⟨'[', _, rfl, by decide, by simp, by simp⟩
  | _ => cases h

mutual

theorem dumps_append_inj : ∀ (j k : Json), j.isTextual = true → k.isTextual = true →
    ∀ rest rest', j.dumps ++ rest = k.dumps ++ rest' → j = k ∧ rest = rest'
  | .null, k, _, hk, rest, rest', h => by
    obtain ⟨c, more, hdumps, -, hnull, -⟩ := head_of_isTextual hk
    rw [hdumps] at h
    have hc : 'n' = c := (List.cons.inj h).1
    have hkn := hnull.mp hc.symm
    subst hkn
    cases hdumps
    exact ⟨rfl, (List.append_cancel_left (List.cons.inj h).2)⟩
  | .str s, k, _, hk, rest, rest', h => by
    obtain ⟨c, more, hdumps, -, -, hstr⟩ := head_of_isTextual hk
    have hc : '"' = c := by
      rw [hdumps] at h
      exact (List.cons.inj h).1
    obtain ⟨t, rfl⟩ := hstr.mp hc.symm
    have hsame := delimits_quoted h
    exact ⟨by rw [hsame.1], hsame.2⟩
  | .arr items, k, hj, hk, rest, rest', h => by
    cases k with
    | null => exact absurd (List.cons.inj h).1 (by decide)
    | str t => exact absurd (List.cons.inj h).1 (by decide)
    | arr items' =>
      cases items with
      | nil =>
        cases items' with
        | nil => exact ⟨rfl, (List.cons.inj (List.cons.inj h).2).2⟩
        | cons item' items' =>
          have htextual := (Bool.and_eq_true _ _).mp hk
          obtain ⟨c, more, hdumps, hend, -⟩ := head_of_isTextual htextual.1
          rw [dumps_arr_cons, hdumps] at h
          have hlast := (List.cons.inj h).2
          exact absurd (List.cons.inj hlast).1.symm hend
      | cons item items =>
        have htextual := (Bool.and_eq_true _ _).mp hj
        cases items' with
        | nil =>
          obtain ⟨c, more, hdumps, hend, -⟩ := head_of_isTextual htextual.1
          rw [dumps_arr_cons, hdumps] at h
          have hlast := (List.cons.inj h).2
          exact absurd (List.cons.inj hlast).1 hend
        | cons item' items' =>
          have htextual' := (Bool.and_eq_true _ _).mp hk
          rw [dumps_arr_cons, dumps_arr_cons] at h
          have hbody : item.dumps ++ itemsTail items ++ rest = item'.dumps ++ itemsTail items' ++ rest' :=
            (List.cons.inj h).2
          rw [List.append_assoc, List.append_assoc] at hbody
          obtain ⟨hitem, htail⟩ := dumps_append_inj item item' htextual.1 htextual'.1 _ _ hbody
          obtain ⟨hitems, hrest⟩ := itemsTail_append_inj items items' htextual.2 htextual'.2 _ _ htail
          exact ⟨by rw [hitem, hitems], hrest⟩
    | _ => cases hk
  | .bool _, _, hj, _, _, _, _ => by cases hj
  | .int _, _, hj, _, _, _, _ => by cases hj
  | .float _, _, hj, _, _, _, _ => by cases hj
  | .obj _, _, hj, _, _, _, _ => by cases hj

theorem itemsTail_append_inj : ∀ (items items' : List Json), textualItems items = true →
    textualItems items' = true →
    ∀ rest rest', itemsTail items ++ rest = itemsTail items' ++ rest' → items = items' ∧ rest = rest'
  | [], items', _, _, rest, rest', h => by
    cases items' with
    | nil => exact ⟨rfl, (List.cons.inj h).2⟩
    | cons item' items' => exact absurd (List.cons.inj h).1 (by decide)
  | item :: items, items', hj, hk, rest, rest', h => by
    cases items' with
    | nil => exact absurd (List.cons.inj h).1 (by decide)
    | cons item' items' =>
      have htextual := (Bool.and_eq_true _ _).mp hj
      have htextual' := (Bool.and_eq_true _ _).mp hk
      rw [itemsTail_cons, itemsTail_cons, List.cons_append, List.cons_append, List.append_assoc,
        List.append_assoc] at h
      obtain ⟨hitem, htail⟩ :=
        dumps_append_inj item item' htextual.1 htextual'.1 _ _ (List.cons.inj h).2
      obtain ⟨hitems, hrest⟩ := itemsTail_append_inj items items' htextual.2 htextual'.2 _ _ htail
      exact ⟨by rw [hitem, hitems], hrest⟩

end

/-- A value made of texts is determined by its canonical text. -/
theorem dumps_injective_of_textual {j k : Json} (hj : j.isTextual = true) (hk : k.isTextual = true)
    (h : j.dumps = k.dumps) : j = k := by
  apply (dumps_append_inj j k hj hk [] [] _).1
  rw [h]

end Milo.Python
