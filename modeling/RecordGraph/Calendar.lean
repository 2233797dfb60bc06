import RecordGraph.Text.Blank
import RecordGraph.Text.Digits

/-!
# Dates and instants

Days of the proleptic Gregorian calendar and moments counted from the beginning of 1970. Two
written forms are read: the plain one, `2024-05-01 12:00:00.25`, whose fields may be short or
have blanks before them, and the exact one with an offset, `2024-05-01T12:00:00.25-07:30`. A
sixtieth second is a leap second: it is the fifty-ninth with a thousand million nanoseconds more.
-/

namespace RecordGraph

structure Date where
  year : Int
  month : Nat
  day : Nat
  deriving DecidableEq, Repr, Inhabited

structure TimeOfDay where
  hour : Nat
  minute : Nat
  second : Nat
  deriving DecidableEq, Repr, Inhabited

/-- A moment: whole seconds since the beginning of 1970, and nanoseconds. -/
structure Instant where
  seconds : Int
  nanos : Nat
  deriving DecidableEq, Repr

def Instant.epoch : Instant := ⟨0, 0⟩

instance : Inhabited Instant := ⟨Instant.epoch⟩

/-! ### The calendar -/

namespace Date

def isLeapYear (year : Int) : Bool :=
  year % 4 = 0 && (year % 100 ≠ 0 || year % 400 = 0)

def monthLength (year : Int) (month : Nat) : Nat :=
  if month = 2 then (if isLeapYear year then 29 else 28)
  else if month = 4 || month = 6 || month = 9 || month = 11 then 30
  else 31

def isValid (d : Date) : Bool :=
  -262143 ≤ d.year && d.year ≤ 262142 && 1 ≤ d.month && d.month ≤ 12 && 1 ≤ d.day
    && d.day ≤ monthLength d.year d.month

/-- The number of days from the first day of 1970. Years are counted from March, in eras of 400
years, so that the leap day is the last day of its year. -/
def toDays (d : Date) : Int :=
  let year := if d.month ≤ 2 then d.year - 1 else d.year
  let era := year.fdiv 400
  let yearOfEra := year - era * 400
  let monthFromMarch : Int := ((d.month : Int) + 9) % 12
  let dayOfYear : Int := (153 * monthFromMarch + 2) / 5 + d.day - 1
  let dayOfEra := yearOfEra * 365 + yearOfEra / 4 - yearOfEra / 100 + dayOfYear
  era * 146097 + dayOfEra - 719468

end Date

def paddedNat (width n : Nat) : String :=
  let digits := Nat.toDigits 10 n
  String.ofList (List.replicate (width - digits.length) '0' ++ digits)

def Date.text (d : Date) : String :=
  (if d.year < 0 then "-" else "") ++ paddedNat 4 d.year.natAbs ++ "-" ++ paddedNat 2 d.month
    ++ "-" ++ paddedNat 2 d.day

def TimeOfDay.text (t : TimeOfDay) : String :=
  paddedNat 2 t.hour ++ ":" ++ paddedNat 2 t.minute ++ ":" ++ paddedNat 2 t.second

/-! ### Fields of a written form -/

namespace Calendar

/-- A number of at least `least` and at most `most` digits. -/
def number (least most : Nat) (s : List Char) : Option (Nat × List Char) :=
  let digits := (s.take most).takeWhile Char.isDigit
  if digits.length < least then none
  else some (Text.digitsValue digits, s.drop digits.length)

def literal (c : Char) : List Char → Option (List Char)
  | d :: rest => if d = c then some rest else none
  | [] => none

/-- The nanoseconds written by a fraction, if there is one; digits after the ninth are ignored. -/
def fraction : List Char → Option (Nat × List Char)
  | '.' :: rest =>
    let digits := rest.takeWhile Char.isDigit
    if digits.isEmpty then none
    else
      let kept := digits.take 9
      some (Text.digitsValue kept * Nat.pow 10 (9 - kept.length), rest.dropWhile Char.isDigit)
  | s => some (0, s)

/-- The moment of a day and a time of day; `none` if either does not exist. -/
def instant? (date : Date) (hour minute second nanos : Nat) : Option Instant :=
  if date.isValid && hour < 24 && minute < 60 && second ≤ 60 then
    let (second, nanos) := if second = 60 then (59, nanos + 1000000000) else (second, nanos)
    some ⟨date.toDays * 86400 + (hour * 3600 + minute * 60 + second : Nat), nanos⟩
  else none

/-! ### The plain form -/

def year (s : List Char) : Option (Int × List Char) :=
  match Text.trimStart s with
  | '-' :: rest => (number 1 rest.length rest).map fun p => (-(p.1 : Int), p.2)
  | '+' :: rest => (number 1 rest.length rest).map fun p => ((p.1 : Int), p.2)
  | s => (number 1 4 s).map fun p => ((p.1 : Int), p.2)

def field (s : List Char) : Option (Nat × List Char) := number 1 2 (Text.trimStart s)

def readPlain? (s : String) : Option Instant := do
  let (year, s) ← year s.toList
  let s ← literal '-' s
  let (month, s) ← field s
  let s ← literal '-' s
  let (day, s) ← field s
  let (hour, s) ← field (Text.trimStart s)
  let s ← literal ':' s
  let (minute, s) ← field s
  let s ← literal ':' s
  let (second, s) ← field s
  let (nanos, s) ← fraction s
  if s.isEmpty then instant? ⟨year, month, day⟩ hour minute second nanos else none

/-! ### The form with an offset -/

/-- An offset in seconds: a letter for none, or a sign, hours and minutes. -/
def offset (s : List Char) : Option (Int × List Char) :=
  match s with
  | 'Z' :: rest => some (0, rest)
  | 'z' :: rest => some (0, rest)
  | sign :: rest => do
    let negative ← if sign = '+' then some false
      else if sign = '-' || sign = '\u2212' then some true
      else none
    let (hours, rest) ← number 2 2 rest
    let rest ← literal ':' rest
    let (minutes, rest) ← number 2 2 rest
    if hours < 24 && minutes < 60 then
      let n : Int := (hours * 3600 + minutes * 60 : Nat)
      return (if negative then -n else n, rest)
    else none
  | [] => none

/-- Reads a day and a time of day with fields of full width, and an offset. -/
def readExact? (s : String) : Option Instant := do
  let (year, s) ← number 4 4 s.toList
  let s ← literal '-' s
  let (month, s) ← number 2 2 s
  let s ← literal '-' s
  let (day, s) ← number 2 2 s
  let s ← match s with
    | c :: rest => if c = 'T' || c = 't' || c = ' ' then some rest else none
    | [] => none
  let (hour, s) ← number 2 2 s
  let s ← literal ':' s
  let (minute, s) ← number 2 2 s
  let s ← literal ':' s
  let (second, s) ← number 2 2 s
  let (nanos, s) ← fraction s
  let (offset, s) ← offset s
  if s.isEmpty then
    (instant? ⟨year, month, day⟩ hour minute second nanos).map fun i =>
      ⟨i.seconds - offset, i.nanos⟩
  else none

def readDate? (s : String) : Option Date := do
  let (negative, s) := match s.toList with
    | '-' :: rest => (true, rest)
    | rest => (false, rest)
  let (year, s) ← number 4 6 s
  let s ← literal '-' s
  let (month, s) ← number 2 2 s
  let s ← literal '-' s
  let (day, s) ← number 2 2 s
  let date : Date := ⟨if negative then -(year : Int) else year, month, day⟩
  if s.isEmpty && date.isValid then some date else none

def readTime? (s : String) : Option TimeOfDay := do
  let (hour, s) ← number 2 2 s.toList
  let s ← literal ':' s
  let (minute, s) ← number 2 2 s
  let s ← literal ':' s
  let (second, s) ← number 2 2 s
  if s.isEmpty && hour < 24 && minute < 60 && second < 60 then some ⟨hour, minute, second⟩
  else none

end Calendar

end RecordGraph
