namespace JsonFilter.Calendar

structure Moment where
  seconds : Int
  nanos : Nat := 0
deriving DecidableEq, Repr

structure Date where
  year : Int
  month : Nat
  day : Nat
deriving DecidableEq, Repr

namespace Date

def isLeap (year : Int) : Bool := year % 4 == 0 && (year % 100 != 0 || year % 400 == 0)

def daysInMonth (year : Int) (month : Nat) : Nat :=
  match month with
  | 2 => if isLeap year then 29 else 28
  | 4 | 6 | 9 | 11 => 30
  | _ => 31

def daysInYear (year : Int) : Nat := if isLeap year then 366 else 365

def firstYear : Int := -262143

def lastYear : Int := 262142

def isValid (d : Date) : Bool :=
  firstYear ≤ d.year && d.year ≤ lastYear && 1 ≤ d.month && d.month ≤ 12 && 1 ≤ d.day &&
    d.day ≤ daysInMonth d.year d.month

/-- The number of days between the first of January 1970 and the first of January of a year. -/
def daysBefore (year : Int) : Int :=
  let y := year - 1
  y * 365 + y / 4 - y / 100 + y / 400 - 719162

def daysBeforeMonth (year : Int) (month : Nat) : Nat :=
  (List.range (month - 1)).foldl (fun n m => n + daysInMonth year (m + 1)) 0

def dayOfYear (d : Date) : Nat := daysBeforeMonth d.year d.month + (d.day - 1)

def toDays (d : Date) : Int := daysBefore d.year + d.dayOfYear

def monthAndDay (year : Int) : Nat → Nat → Nat → Nat × Nat
  | 0, month, day => (month, day + 1)
  | fuel + 1, month, day =>
    let n := daysInMonth year month
    if day < n then (month, day + 1) else monthAndDay year fuel (month + 1) (day - n)

def ofYearAndDay (year : Int) (day : Nat) : Date :=
  let (m, d) := monthAndDay year 11 1 day
  ⟨year, m, d⟩

def ofDays (days : Int) : Date :=
  let guess := 1970 + days * 400 / 146097
  let candidates := [guess + 1, guess, guess - 1]
  let year := (candidates.find? fun y => daysBefore y ≤ days).getD guess
  ofYearAndDay year (days - daysBefore year).toNat

def weekday (d : Date) : Nat := ((d.toDays + 4) % 7).toNat

def weekdayFromMonday (d : Date) : Nat := (d.weekday + 6) % 7

/-- The number of the week that starts on Sunday; the days in front of the first Sunday are in week
zero. -/
def weekFromSunday (d : Date) : Nat := (d.dayOfYear + 7 - d.weekday) / 7

def weekFromMonday (d : Date) : Nat := (d.dayOfYear + 7 - d.weekdayFromMonday) / 7

/-- The number of the first day of the first week of a year: the week that holds the fourth of
January. -/
def firstWeek (year : Int) : Int :=
  let fourth : Date := ⟨year, 1, 4⟩
  fourth.toDays - fourth.weekdayFromMonday

/-- The year and the number of the week of a day, where weeks belong to the year of their
Thursday. -/
def isoWeek (d : Date) : Int × Nat :=
  let days := d.toDays
  let year :=
    if days < firstWeek d.year then d.year - 1
    else if firstWeek (d.year + 1) ≤ days then d.year + 1 else d.year
  (year, ((days - firstWeek year) / 7).toNat + 1)

end Date

namespace Moment

def date (t : Moment) : Date := .ofDays (t.seconds / 86400)

def secondOfDay (t : Moment) : Nat := (t.seconds % 86400).toNat

def hour (t : Moment) : Nat := t.secondOfDay / 3600

def minute (t : Moment) : Nat := t.secondOfDay / 60 % 60

def second (t : Moment) : Nat := t.secondOfDay % 60

def micros (t : Moment) : Nat := t.nanos / 1000

def ofParts (d : Date) (hour minute second nanos : Nat) : Moment :=
  ⟨d.toDays * 86400 + (hour * 3600 + minute * 60 + second : Nat), nanos⟩

/-- What clocks show that are so many seconds ahead. -/
def ahead (t : Moment) (offset : Int) : Moment := { t with seconds := t.seconds + offset }

def ofMicros? (n : Int) : Option Moment :=
  let t : Moment := ⟨n / 1000000, (n % 1000000).toNat * 1000⟩
  let low := Date.daysBefore Date.firstYear * 86400
  let high := Date.daysBefore (Date.lastYear + 1) * 86400
  if low ≤ t.seconds ∧ t.seconds < high then some t else none

end Moment

end JsonFilter.Calendar
