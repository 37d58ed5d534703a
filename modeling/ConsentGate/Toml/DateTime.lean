/-!
# Dates and times

A date, a time, or both, with or without an offset from universal time. Seconds may be left out, and
so may their fraction; what is left out is not written back either. A date-time is written back with
the letter `T` between date and time, and a fraction with at most nine digits, one at least, without
further zeros at its end.
-/

namespace ConsentGate.Toml

/-- A number of exactly so many digits, and what follows it. -/
def fixedNumber? (count : Nat) (s : List Char) : Option (Nat × List Char) :=
  let digits := s.take count
  if digits.length = count ∧ digits.all Char.isDigit then
    some (Nat.ofDigitChars 10 digits 0, s.drop count)
  else none

/-- What follows an expected character. -/
def after? (c : Char) : List Char → Option (List Char)
  | d :: rest => if d = c then some rest else none
  | [] => none

/-- Whether a year has a 29th of February. -/
def isLeapYear (year : Nat) : Bool := year % 4 == 0 && (year % 100 != 0 || year % 400 == 0)

/-- The number of days in a month. -/
def daysIn (year month : Nat) : Nat :=
  if month = 2 then if isLeapYear year then 29 else 28
  else if month = 4 ∨ month = 6 ∨ month = 9 ∨ month = 11 then 30
  else 31

/-- A calendar date. -/
structure Date where
  year : Nat
  month : Nat
  day : Nat

/-- The seconds of a time; their fraction is a list of digits. -/
structure Seconds where
  whole : Nat
  fraction : Option (List Char)

/-- A time of day. -/
structure Time where
  hour : Nat
  minute : Nat
  seconds : Option Seconds

/-- The distance from universal time. -/
inductive Offset where
  | universal
  /-- Ahead of universal time, or behind it, by hours and minutes. -/
  | shifted (behind : Bool) (hours minutes : Nat)

/-- The date that a text starts with, and what follows it. -/
def date? (s : List Char) : Option (Date × List Char) := do
  let (year, s) ← fixedNumber? 4 s
  let (month, s) ← fixedNumber? 2 (← after? '-' s)
  let (day, s) ← fixedNumber? 2 (← after? '-' s)
  if 1 ≤ month ∧ month ≤ 12 ∧ 1 ≤ day ∧ day ≤ daysIn year month then some (⟨year, month, day⟩, s)
  else none

/-- The fraction of a second that a text starts with, if there is one, and what follows it. -/
def secondFraction? (s : List Char) : Option (Option (List Char) × List Char) :=
  match s with
  | '.' :: s =>
    let fraction := s.takeWhile Char.isDigit
    if fraction.isEmpty then none else some (some fraction, s.dropWhile Char.isDigit)
  | s => some (none, s)

/-- The seconds that a text starts with, if there are any, and what follows them. -/
def seconds? (s : List Char) : Option (Option Seconds × List Char) :=
  match s with
  | ':' :: s => do
    let (whole, s) ← fixedNumber? 2 s
    let (fraction, s) ← secondFraction? s
    if whole ≤ 60 then some (some ⟨whole, fraction⟩, s) else none
  | s => some (none, s)

/-- The time that a text starts with, and what follows it. -/
def time? (s : List Char) : Option (Time × List Char) := do
  let (hour, s) ← fixedNumber? 2 s
  let (minute, s) ← fixedNumber? 2 (← after? ':' s)
  let (seconds, s) ← seconds? s
  if hour ≤ 23 ∧ minute ≤ 59 then some (⟨hour, minute, seconds⟩, s) else none

/-- The offset that a text is, or none for an empty text. -/
def offset? (s : List Char) : Option (Option Offset) :=
  match s with
  | [] => some none
  | ['Z'] | ['z'] => some (some .universal)
  | sign :: s => do
    if sign ≠ '+' ∧ sign ≠ '-' then none
    let (hours, s) ← fixedNumber? 2 s
    let (minutes, s) ← fixedNumber? 2 (← after? ':' s)
    if hours ≤ 23 ∧ minutes ≤ 59 ∧ s.isEmpty then some (some (.shifted (sign = '-') hours minutes))
    else none

/-- A number with zeros on the left up to a width. -/
def padded (width n : Nat) : List Char :=
  let digits := Nat.toDigits 10 n
  List.replicate (width - digits.length) '0' ++ digits

/-- The characters of a date. -/
def Date.chars (d : Date) : List Char :=
  padded 4 d.year ++ '-' :: padded 2 d.month ++ '-' :: padded 2 d.day

/-- The digits of a fraction that are kept: nine at most, without zeros at the end, or one zero. -/
def shortFraction (fraction : List Char) : List Char :=
  match ((fraction.take 9).reverse.dropWhile (· == '0')).reverse with
  | [] => ['0']
  | digits => digits

/-- The characters of seconds, from their colon on. -/
def Seconds.chars (s : Seconds) : List Char :=
  ':' :: padded 2 s.whole ++ s.fraction.elim [] fun digits => '.' :: shortFraction digits

/-- The characters of a time. -/
def Time.chars (t : Time) : List Char :=
  padded 2 t.hour ++ ':' :: padded 2 t.minute ++ t.seconds.elim [] Seconds.chars

/-- The characters of an offset; no distance is written as ahead. -/
def Offset.chars : Offset → List Char
  | .universal => ['Z']
  | .shifted behind hours minutes =>
    (if behind && (hours != 0 || minutes != 0) then '-' else '+') ::
      padded 2 hours ++ ':' :: padded 2 minutes

/-- The text of the date-time that a text writes. -/
def dateTime? (s : List Char) : Option String :=
  match date? s with
  | some (d, []) => some (.ofList d.chars)
  | some (d, separator :: s) => do
    if separator ≠ 'T' ∧ separator ≠ 't' ∧ separator ≠ ' ' then none
    let (t, s) ← time? s
    let offset ← offset? s
    some (.ofList (d.chars ++ 'T' :: t.chars ++ offset.elim [] Offset.chars))
  | none =>
    match time? s with
    | some (t, []) => some (.ofList t.chars)
    | _ => none

end ConsentGate.Toml
