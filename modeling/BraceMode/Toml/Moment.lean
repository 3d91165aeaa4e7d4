import BraceMode.Toml.Scalar

/-! Dates and times of a settings file. A date is a day of the Gregorian calendar, carried back to the year
zero; a time may name a leap second. A date and a time together may say how far the clock is ahead of the
common one. -/

namespace BraceMode.Toml

structure Date where
  year : Nat
  month : Nat
  day : Nat
  deriving DecidableEq, Repr

structure Time where
  hour : Nat
  minute : Nat
  second : Nat
  nanosecond : Nat
  deriving DecidableEq, Repr

/-- A day, a time of no particular day, or a time of a day, with the clock's lead in minutes if given. -/
inductive Moment where
  | date (d : Date)
  | time (t : Time)
  | dateTime (d : Date) (t : Time) (lead : Option Int)
  deriving DecidableEq, Repr

def isLeapYear (year : Nat) : Bool := year % 4 == 0 && (year % 100 != 0 || year % 400 == 0)

/-- The days of a month, counted from 1 for January. -/
def monthLength (year month : Nat) : Nat :=
  if month = 2 then (if isLeapYear year then 29 else 28)
  else if month = 4 ∨ month = 6 ∨ month = 9 ∨ month = 11 then 30
  else 31

/-- A number of exactly `size` digits from `low` to `high`. -/
def field? (size low high : Nat) : Reader Nat := fun t =>
  let digits := t.take size
  let n := digitsValue 10 digits
  if digits.length = size ∧ digits.all Lexis.isDigit = true ∧ low ≤ n ∧ n ≤ high then
    some (n, t.drop size)
  else none

/-- A number that follows a given character. -/
def fieldAfter? (c : Char) (size low high : Nat) : Reader Nat
  | d :: t => if d = c then field? size low high t else none
  | [] => none

def date? : Reader Date := fun t => do
  let (year, t) ← field? 4 0 9999 t
  let (month, t) ← fieldAfter? '-' 2 1 12 t
  let (day, t) ← fieldAfter? '-' 2 1 (monthLength year month) t
  return (⟨year, month, day⟩, t)

/-- The nanoseconds behind a point, if any; digits after the ninth do not count. -/
def fraction : List Char → Nat × List Char
  | '.' :: t =>
    match t.takeWhile Lexis.isDigit with
    | [] => (0, '.' :: t)
    | digits => (digitsValue 10 ((digits ++ List.replicate 9 '0').take 9), t.dropWhile Lexis.isDigit)
  | t => (0, t)

def time? : Reader Time := fun t => do
  let (hour, t) ← field? 2 0 23 t
  let (minute, t) ← fieldAfter? ':' 2 0 59 t
  let (second, t) ← fieldAfter? ':' 2 0 60 t
  let (nanosecond, t) := fraction t
  return (⟨hour, minute, second, nanosecond⟩, t)

/-- How far a clock is ahead of the common one, in minutes. -/
def lead? : Reader Int
  | [] => none
  | c :: t =>
    if c = 'Z' ∨ c = 'z' then some (0, t)
    else if c = '+' ∨ c = '-' then do
      let (hours, t) ← field? 2 0 23 t
      let (minutes, t) ← fieldAfter? ':' 2 0 59 t
      let n := Int.ofNat (hours * 60 + minutes)
      return (if c = '-' then -n else n, t)
    else none

/-- The time behind a date: a `T` or one space divides them. -/
def timeOfDay? : Reader (Time × Option Int)
  | [] => none
  | c :: t => do
    let (time, t) ← if c = 'T' ∨ c = 't' ∨ c = ' ' then time? t else none
    match lead? t with
    | some (lead, t) => return ((time, some lead), t)
    | none => return ((time, none), t)

def moment? : Reader Moment := fun t =>
  match date? t with
  | none => (time? t).map fun (time, rest) => (.time time, rest)
  | some (date, t) =>
    match timeOfDay? t with
    | some ((time, lead), rest) => some (.dateTime date time lead, rest)
    | none => some (.date date, t)

end BraceMode.Toml
