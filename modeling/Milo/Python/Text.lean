import Mathlib

/-!
# Text — the string methods the program uses

Strings are handled as lists of code points.  `isSpace` lists the whitespace of `str.split()` and
`str.strip()`.
-/

namespace Milo.Python

/-- Texts compare lawfully; the instance has a name so that every membership test finds the same one. -/
instance instLawfulBEqText : LawfulBEq (List Char) := inferInstance

/-- Whitespace as `str.isspace` sees it. -/
def isSpace (c : Char) : Bool :=
  [0x9, 0xa, 0xb, 0xc, 0xd, 0x1c, 0x1d, 0x1e, 0x1f, 0x20, 0x85, 0xa0, 0x1680, 0x2000, 0x2001,
    0x2002, 0x2003, 0x2004, 0x2005, 0x2006, 0x2007, 0x2008, 0x2009, 0x200a, 0x2028, 0x2029,
    0x202f, 0x205f, 0x3000].contains c.toNat

/-- `str.strip()`. -/
def strip (text : List Char) : List Char :=
  ((text.dropWhile isSpace).reverse.dropWhile isSpace).reverse

theorem strip_eq_rdropWhile (text : List Char) :
    strip text = (text.dropWhile isSpace).rdropWhile isSpace := rfl

@[simp] theorem strip_strip (text : List Char) : strip (strip text) = strip text := by
  have hleft : ((text.dropWhile isSpace).rdropWhile isSpace).dropWhile isSpace =
      (text.dropWhile isSpace).rdropWhile isSpace := by
    rw [List.dropWhile_eq_self_iff]
    intro hpos
    -- what is stripped on the right leaves the first character in place
    have hpre := List.rdropWhile_prefix isSpace (text.dropWhile isSpace)
    have hlong : 0 < (text.dropWhile isSpace).length := lt_of_lt_of_le hpos hpre.length_le
    have hhead := List.dropWhile_eq_self_iff.mp (List.dropWhile_idempotent isSpace text) hlong
    rw [List.IsPrefix.getElem hpre hpos]
    exact hhead
  rw [strip_eq_rdropWhile (strip text), strip_eq_rdropWhile text, hleft]
  exact List.rdropWhile_idempotent isSpace _

def flush (word : List Char) : List (List Char) := if word = [] then [] else [word]

def wordsFrom (word : List Char) : List Char → List (List Char)
  | [] => flush word
  | c :: text => if isSpace c then flush word ++ wordsFrom [] text else wordsFrom (word ++ [c]) text

/-- `str.split()`. -/
def words (text : List Char) : List (List Char) := wordsFrom [] text

/-- `" ".join(words)`. -/
def joinWords (ws : List (List Char)) : List Char := List.intercalate [' '] ws

end Milo.Python
