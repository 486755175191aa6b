/-!
# Dates and times

A moment is a date, a time of day, or a date and a time with a letter T or a space between; only the
last may name its distance from universal time.  Seconds may be left out.
-/

namespace ArmControl.Toml.Moment

/-- Takes a number of exactly `width` digits that lies between the bounds. -/
def number? (width low high : Nat) (s : List Char) : Option (Nat × List Char) :=
  let digits := s.take width
  let n := digits.foldl (fun n c => 10 * n + (c.toNat - '0'.toNat)) 0
  if digits.length = width ∧ digits.all Char.isDigit ∧ low ≤ n ∧ n ≤ high then
    some (n, s.drop width)
  else none

/-- The text behind a character that it begins with. -/
def after? (c : Char) : List Char → Option (List Char)
  | d :: rest => if d = c then some rest else none
  | [] => none

def isLeapYear (year : Nat) : Bool :=
  year % 4 = 0 && (year % 100 ≠ 0 || year % 400 = 0)

def daysIn (year month : Nat) : Nat :=
  if month = 2 then (if isLeapYear year then 29 else 28)
  else if month = 4 ∨ month = 6 ∨ month = 9 ∨ month = 11 then 30
  else 31

/-- The text behind a date. -/
def date? (s : List Char) : Option (List Char) := do
  let (year, s) ← number? 4 0 9999 s
  let (month, s) ← number? 2 1 12 (← after? '-' s)
  let (_, s) ← number? 2 1 (daysIn year month) (← after? '-' s)
  return s

/-- The text behind a fraction of a second, if there is one. -/
def fraction? : List Char → Option (List Char)
  | '.' :: rest =>
    match rest.takeWhile Char.isDigit with
    | [] => none
    | _ => some (rest.dropWhile Char.isDigit)
  | s => some s

/-- The text behind the seconds, if there are any. -/
def seconds? : List Char → Option (List Char)
  | ':' :: rest => do
    let (_, s) ← number? 2 0 60 rest
    fraction? s
  | s => some s

/-- The text behind a time of day. -/
def time? (s : List Char) : Option (List Char) := do
  let (_, s) ← number? 2 0 23 s
  let (_, s) ← number? 2 0 59 (← after? ':' s)
  seconds? s

/-- The text behind a distance from universal time, if there is one. -/
def distance? : List Char → Option (List Char)
  | 'Z' :: rest => some rest
  | 'z' :: rest => some rest
  | '+' :: rest => hours rest
  | '-' :: rest => hours rest
  | s => some s
where
  hours (s : List Char) : Option (List Char) := do
    let (_, s) ← number? 2 0 23 s
    let (_, s) ← number? 2 0 59 (← after? ':' s)
    return s

/-- The text is a moment. -/
def isMoment (s : List Char) : Bool :=
  match date? s with
  | some [] => true
  | some (c :: rest) =>
    (c = 'T' || c = 't' || c = ' ') && (time? rest).bind distance? = some []
  | none => time? s = some []

/-- The text is a date, behind which a time may follow. -/
def isDate (s : List Char) : Bool := date? s = some []

end ArmControl.Toml.Moment
