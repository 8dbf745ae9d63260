import CompilerSession.Text.Blank

/-
Points in time and their text.

A point in time is a number of seconds since 1970 and a fraction in nanoseconds;
a fraction of a whole second and more stands for a leap second. It is written in
UTC as `2024-01-02T03:04:05Z`, with as many digits of the fraction as it takes,
in groups of three. Reading is more generous: any offset, one digit where two are
usual, blanks between the parts.
-/

set_option autoImplicit false

namespace CompilerSession

/-- **A point in time.** -/
structure Timestamp where
  /-- Whole seconds since 1970-01-01T00:00:00Z. -/
  seconds : Int
  /-- The fraction; at least `10^9` inside a leap second. -/
  nanos : Nat
  deriving DecidableEq, Repr, Inhabited

namespace Timestamp

/-! ## The calendar -/

/-- A day of the calendar. -/
structure Date where
  year : Int
  month : Nat
  day : Nat
  deriving DecidableEq, Repr

/-- The days from 1970-01-01 to a date. Years begin in March here, so that the day that
a leap year adds is the last one; four hundred years have 146097 days. -/
def daysOf (d : Date) : Int :=
  let y : Int := if d.month ≤ 2 then d.year - 1 else d.year
  let era := y.fdiv 400
  let yearOfEra := y - era * 400
  let monthIndex : Int := if d.month ≤ 2 then d.month + 9 else (d.month : Int) - 3
  let dayOfYear := (153 * monthIndex + 2).fdiv 5 + d.day - 1
  let dayOfEra := yearOfEra * 365 + yearOfEra.fdiv 4 - yearOfEra.fdiv 100 + dayOfYear
  era * 146097 + dayOfEra - 719468

/-- The date that many days after 1970-01-01. -/
def dateOf (days : Int) : Date :=
  let z := days + 719468
  let era := z.fdiv 146097
  let dayOfEra := z - era * 146097
  let yearOfEra :=
    (dayOfEra - dayOfEra.fdiv 1460 + dayOfEra.fdiv 36524 - dayOfEra.fdiv 146096).fdiv 365
  let dayOfYear := dayOfEra - (365 * yearOfEra + yearOfEra.fdiv 4 - yearOfEra.fdiv 100)
  let monthIndex := (5 * dayOfYear + 2).fdiv 153
  let day := dayOfYear - (153 * monthIndex + 2).fdiv 5 + 1
  let month := if monthIndex < 10 then monthIndex + 3 else monthIndex - 9
  let year := yearOfEra + era * 400 + (if month ≤ 2 then 1 else 0)
  ⟨year, month.toNat, day.toNat⟩

def isLeap (year : Int) : Bool :=
  year % 4 = 0 && (year % 100 != 0 || year % 400 = 0)

def daysIn (year : Int) (month : Nat) : Nat :=
  if month = 2 then (if isLeap year then 29 else 28)
  else if month = 4 ∨ month = 6 ∨ month = 9 ∨ month = 11 then 30 else 31

/-! ## Reading -/

/-- An ASCII digit. -/
def isAsciiDigit (c : Char) : Bool :=
  '0' ≤ c && c ≤ '9'

/-- A number of at least one digit and at most `most`, and what follows it. -/
def number? (most : Nat) (s : List Char) : Option (Nat × List Char) :=
  let ds := (s.takeWhile isAsciiDigit).take most
  if ds.isEmpty then none
  else some (ds.foldl (fun n c => n * 10 + (c.toNat - 48)) 0, s.drop ds.length)

/-- A field of at most two digits, blanks before it allowed. -/
def field? (s : List Char) : Option (Nat × List Char) :=
  number? 2 (Text.trimFront s)

/-- A separator, blanks before it allowed. -/
def separator? (c : Char) (s : List Char) : Option (List Char) :=
  match Text.trimFront s with
  | d :: rest => if d = c then some rest else none
  | [] => none

/-- A year: four digits at most, or any number of them behind a sign. -/
def year? (s : List Char) : Option (Int × List Char) :=
  match Text.trimFront s with
  | '-' :: rest => (number? rest.length rest).map fun (n, left) => (-(n : Int), left)
  | '+' :: rest => (number? rest.length rest).map fun (n, left) => ((n : Int), left)
  | s => (number? 4 s).map fun (n, left) => ((n : Int), left)

/-- The fraction of a second behind its point, in nanoseconds; digits past the ninth do
not count. -/
def fraction? (s : List Char) : Option (Nat × List Char) :=
  match s with
  | '.' :: rest =>
    let ds := rest.takeWhile isAsciiDigit
    match number? 9 rest with
    | some (n, _) => some (n * Nat.pow 10 (9 - min 9 ds.length), rest.drop ds.length)
    | none => none
  | _ => some (0, s)

def twoDigits? (s : List Char) : Option (Nat × List Char) :=
  match s with
  | a :: b :: rest =>
    if isAsciiDigit a && isAsciiDigit b then
      some ((a.toNat - 48) * 10 + (b.toNat - 48), rest)
    else none
  | _ => none

/-- The offset from UTC in seconds, and what follows it. -/
def offset? (s : List Char) : Option (Int × List Char) :=
  match s with
  | [] => none
  | c :: rest =>
    if (s.take 3).map Char.toUpper = ['U', 'T', 'C'] then some (0, s.drop 3)
    else if c = 'Z' ∨ c = 'z' then some (0, rest)
    else
      let sign? : Option Int :=
        if c = '+' then some 1 else if c = '-' ∨ c = '−' then some (-1) else none
      do
        let sign ← sign?
        let (hours, s) ← twoDigits? rest
        let (minutes, s) ← twoDigits? (s.dropWhile fun c => c = ':' || Text.isBlank c)
        if minutes < 60 then some (sign * (hours * 3600 + minutes * 60 : Nat), s) else none

/-- **Reading a point in time.** -/
def parse? (s : List Char) : Option Timestamp := do
  let (year, s) ← year? s
  let s ← separator? '-' s
  let (month, s) ← field? s
  let s ← separator? '-' s
  let (day, s) ← field? s
  let s ← match s with
    | c :: rest => if c = 'T' ∨ c = 't' ∨ c = ' ' then some rest else none
    | [] => none
  let (hour, s) ← field? s
  let s ← separator? ':' s
  let (minute, s) ← field? s
  let s ← separator? ':' s
  let (second, s) ← field? s
  let (nanos, s) ← fraction? s
  let (offset, s) ← offset? (Text.trimFront s)
  guard (Text.trimFront s = [])
  guard (-262143 ≤ year ∧ year ≤ 262142 ∧ 1 ≤ month ∧ month ≤ 12)
  guard (1 ≤ day ∧ day ≤ daysIn year month)
  guard (hour ≤ 23 ∧ minute ≤ 59 ∧ second ≤ 60 ∧ offset.natAbs < 86400)
  let leap := second = 60
  let clock : Nat := hour * 3600 + minute * 60 + (if leap then 59 else second)
  return ⟨daysOf ⟨year, month, day⟩ * 86400 + clock - offset,
    if leap then nanos + 1000000000 else nanos⟩

/-! ## Writing -/

/-- A number with leading zeros up to a width. -/
def padded (width n : Nat) : String :=
  let ds := Nat.toDigits 10 n
  String.ofList (List.replicate (width - ds.length) '0' ++ ds)

/-- A year; outside four digits it has a sign. -/
def yearText (year : Int) : String :=
  if 0 ≤ year ∧ year ≤ 9999 then padded 4 year.toNat
  else (if year < 0 then "-" else "+") ++ padded 4 year.natAbs

/-- The fraction, in as few groups of three digits as show it. -/
def fractionText (nanos : Nat) : String :=
  if nanos = 0 then ""
  else if nanos % 1000000 = 0 then "." ++ padded 3 (nanos / 1000000)
  else if nanos % 1000 = 0 then "." ++ padded 6 (nanos / 1000)
  else "." ++ padded 9 nanos

/-- **The text of a point in time**, in UTC. -/
def text (t : Timestamp) : String :=
  let days := t.seconds.fdiv 86400
  let clock := (t.seconds - days * 86400).toNat
  let date := dateOf days
  let leap := 1000000000 ≤ t.nanos
  let second := clock % 60 + (if leap then 1 else 0)
  let nanos := if leap then t.nanos - 1000000000 else t.nanos
  yearText date.year ++ "-" ++ padded 2 date.month ++ "-" ++ padded 2 date.day ++ "T" ++
    padded 2 (clock / 3600) ++ ":" ++ padded 2 (clock / 60 % 60) ++ ":" ++ padded 2 second ++
    fractionText nanos ++ "Z"

end Timestamp

end CompilerSession
