import Mathlib

/-!
# Datetime — instants read from ISO texts

`datetime.fromisoformat` on `YYYY-MM-DD?HH:MM:SS`, with an optional fraction and offset.  An instant
is a number of microseconds since 1970, and a text without an offset is read as UTC.
-/

namespace Milo.Python

/-- A run of decimal digits, read as a number. -/
def readDigits (text : List Char) : Option ℕ :=
  if text ≠ [] ∧ text.all Char.isDigit then
    some (Nat.ofDigits 10 (text.reverse.map fun c => c.toNat - '0'.toNat))
  else none

def isLeap (year : ℕ) : Bool :=
  year % 4 == 0 && (year % 100 != 0 || year % 400 == 0)

/-- The days of a month. -/
def daysInMonth (year month : ℕ) : ℕ :=
  if month = 2 then (if isLeap year then 29 else 28)
  else if month = 4 ∨ month = 6 ∨ month = 9 ∨ month = 11 then 30
  else 31

/-- The days before the first of January of a year, of year 1 on. -/
def daysBeforeYear (year : ℕ) : ℕ :=
  let y := year - 1
  y * 365 + y / 4 - y / 100 + y / 400

/-- `date.toordinal`. -/
def toordinal (year month day : ℕ) : ℕ :=
  daysBeforeYear year + ((List.range month).drop 1).foldr (fun m days => daysInMonth year m + days) 0
    + day

/-- `YYYY-MM-DD`, as days since 1970. -/
def readDate (text : List Char) : Option ℤ := do
  let year ← readDigits (text.take 4)
  let month ← readDigits ((text.drop 5).take 2)
  let day ← readDigits (text.drop 8)
  if text.length = 10 ∧ text[4]? = some '-' ∧ text[7]? = some '-' ∧ 1 ≤ year ∧ 1 ≤ month ∧
      month ≤ 12 ∧ 1 ≤ day ∧ day ≤ daysInMonth year month then
    some (toordinal year month day - 719163)
  else none

/-- `HH:MM`, in minutes. -/
def readMinutes (text : List Char) : Option ℕ := do
  let hour ← readDigits (text.take 2)
  let minute ← readDigits (text.drop 3)
  if text.length = 5 ∧ text[2]? = some ':' ∧ hour ≤ 23 ∧ minute ≤ 59 then
    some (hour * 60 + minute)
  else none

/-- `+HH:MM` or `-HH:MM`, in minutes east; nothing is UTC. -/
def readOffset : List Char → Option ℤ
  | [] => some 0
  | '+' :: text => (readMinutes text).map fun minutes => minutes
  | '-' :: text => (readMinutes text).map fun minutes => -minutes
  | _ :: _ => none

/-- The fraction of a second, in microseconds: digits after the sixth are cut. -/
def readFraction : List Char → Option ℕ
  | [] => some 0
  | '.' :: digits => readDigits ((digits.take 6) ++ List.replicate (6 - digits.length) '0')
  | _ :: _ => none

/-- The instant an ISO text denotes. -/
def fromisoformat (text : List Char) : Option ℤ := do
  let days ← readDate (text.take 10)
  let minutes ← readMinutes ((text.drop 11).take 5)
  let seconds ← readDigits ((text.drop 17).take 2)
  let rest := text.drop 19
  let microseconds ← readFraction (rest.takeWhile fun c => c ≠ '+' ∧ c ≠ '-')
  let offset ← readOffset (rest.dropWhile fun c => c ≠ '+' ∧ c ≠ '-')
  if text[16]? = some ':' ∧ (text.drop 17).length ≥ 2 ∧ seconds ≤ 59 then
    some ((((days * 24 * 60 + minutes - offset) * 60) + seconds) * 1000000 + microseconds)
  else none

end Milo.Python
