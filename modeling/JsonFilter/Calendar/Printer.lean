import JsonFilter.Calendar.Moment

namespace JsonFilter.Calendar

inductive Pad
  | none | zero | space
deriving DecidableEq, Repr

def monthNames : List String := [
  "January", "February", "March", "April", "May", "June", "July", "August", "September", "October",
  "November", "December"]

def dayNames : List String := [
  "Sunday", "Monday", "Tuesday", "Wednesday", "Thursday", "Friday", "Saturday"]

def short (name : String) : String := String.ofList (name.toList.take 3)

def padded (pad : Pad) (width n : Nat) : String :=
  let digits := toString n
  let fill := width - digits.length
  match pad with
  | .none => digits
  | .zero => String.ofList (List.replicate fill '0') ++ digits
  | .space => String.ofList (List.replicate fill ' ') ++ digits

def yearText (pad : Pad) (year : Int) : String :=
  if 0 ≤ year ∧ year ≤ 9999 then padded pad 4 year.toNat
  else (if year < 0 then "-" else "+") ++ padded pad 4 year.natAbs

def fractionText (nanos : Nat) : String :=
  if nanos = 0 then ""
  else if nanos % 1000000 = 0 then "." ++ padded .zero 3 (nanos / 1000000)
  else if nanos % 1000 = 0 then "." ++ padded .zero 6 (nanos / 1000)
  else "." ++ padded .zero 9 nanos

def offsetHours (offset : Int) (size : Nat) : String :=
  (if offset < 0 then "-" else "+") ++ padded .zero 2 (size / 3600)

def offsetMinutes (colon : String) (offset : Int) : String :=
  let size := (offset.natAbs + 30) / 60 * 60
  offsetHours offset size ++ colon ++ padded .zero 2 (size / 60 % 60)

def offsetSeconds (offset : Int) : String :=
  let size := offset.natAbs
  offsetHours offset size ++ ":" ++ padded .zero 2 (size / 60 % 60) ++ ":" ++
    padded .zero 2 (size % 60)

def zoneName (offset : Int) : String :=
  if offset % 60 = 0 then offsetMinutes ":" offset else offsetSeconds offset

namespace Moment

-- what local clocks show, and by how much they are ahead of the zero meridian
variable (t : Moment) (offset : Int)

def hour12 : Nat := if t.hour % 12 = 0 then 12 else t.hour % 12

/-- A number by its letter, with its width and its usual padding. -/
def number? (letter : Char) : Option (Nat × Pad × Nat) :=
  let d := t.date
  match letter with
  | 'C' => some (2, .zero, (d.year / 100).toNat)
  | 'y' => some (2, .zero, (d.year % 100).toNat)
  | 'm' => some (2, .zero, d.month)
  | 'd' => some (2, .zero, d.day)
  | 'e' => some (2, .space, d.day)
  | 'w' => some (1, .zero, d.weekday)
  | 'u' => some (1, .zero, d.weekdayFromMonday + 1)
  | 'U' => some (2, .zero, d.weekFromSunday)
  | 'W' => some (2, .zero, d.weekFromMonday)
  | 'g' => some (2, .zero, (d.isoWeek.1 % 100).toNat)
  | 'V' => some (2, .zero, d.isoWeek.2)
  | 'q' => some (1, .zero, (d.month + 2) / 3)
  | 'j' => some (3, .zero, d.dayOfYear + 1)
  | 'H' => some (2, .zero, t.hour)
  | 'k' => some (2, .space, t.hour)
  | 'I' => some (2, .zero, t.hour12)
  | 'l' => some (2, .space, t.hour12)
  | 'M' => some (2, .zero, t.minute)
  | 'S' => some (2, .zero, t.second)
  | 'f' => some (9, .zero, t.nanos)
  | _ => none

def compound? : Char → Option String
  | 'D' | 'x' => some "%m/%d/%y"
  | 'F' => some "%Y-%m-%d"
  | 'v' => some "%e-%b-%Y"
  | 'R' => some "%H:%M"
  | 'T' | 'X' => some "%H:%M:%S"
  | 'r' => some "%I:%M:%S %p"
  | 'c' => some "%a %b %e %H:%M:%S %Y"
  | '+' => some "%Y-%m-%dT%H:%M:%S%.f%:z"
  | _ => none

def word? (letter : Char) : Option String :=
  let d := t.date
  match letter with
  | 'b' | 'h' => some (short (monthNames.getD (d.month - 1) ""))
  | 'B' => some (monthNames.getD (d.month - 1) "")
  | 'a' => some (short (dayNames.getD d.weekday ""))
  | 'A' => some (dayNames.getD d.weekday "")
  | 'p' => some (if t.hour < 12 then "AM" else "PM")
  | 'P' => some (if t.hour < 12 then "am" else "pm")
  | 'Z' => some (zoneName offset)
  | 'z' => some (offsetMinutes "" offset)
  | 's' => some (toString (t.seconds - offset))
  | 't' => some "\t"
  | 'n' => some "\n"
  | '%' => some "%"
  | _ => none

/-- Writes a moment after a format, most recent first in `acc`. The fuel bounds the letters. -/
def formatWith : Nat → List Char → List Char → List Char
  | 0, acc, _ => acc.reverse
  | fuel + 1, acc, cs =>
    let give (s : String) (rest : List Char) : List Char :=
      formatWith fuel (s.toList.reverse ++ acc) rest
    let numeral (pad : Option Pad) (letter : Char) (rest : List Char) : Option (List Char) :=
      match letter with
      | 'Y' => some (give (yearText (pad.getD .zero) t.date.year) rest)
      | 'G' => some (give (yearText (pad.getD .zero) t.date.isoWeek.1) rest)
      | letter => (t.number? letter).map fun (width, usual, n) =>
        give (padded (pad.getD usual) width n) rest
    match cs with
    | [] => acc.reverse
    | '%' :: '.' :: 'f' :: rest => give (fractionText t.nanos) rest
    | '%' :: '.' :: '3' :: 'f' :: rest => give ("." ++ padded .zero 3 (t.nanos / 1000000)) rest
    | '%' :: '.' :: '6' :: 'f' :: rest => give ("." ++ padded .zero 6 (t.nanos / 1000)) rest
    | '%' :: '.' :: '9' :: 'f' :: rest => give ("." ++ padded .zero 9 t.nanos) rest
    | '%' :: '3' :: 'f' :: rest => give (padded .zero 3 (t.nanos / 1000000)) rest
    | '%' :: '6' :: 'f' :: rest => give (padded .zero 6 (t.nanos / 1000)) rest
    | '%' :: '9' :: 'f' :: rest => give (padded .zero 9 t.nanos) rest
    | '%' :: ':' :: ':' :: ':' :: 'z' :: rest => give (offsetHours offset offset.natAbs) rest
    | '%' :: ':' :: ':' :: 'z' :: rest => give (offsetSeconds offset) rest
    | '%' :: ':' :: 'z' :: rest => give (offsetMinutes ":" offset) rest
    | '%' :: '#' :: 'z' :: rest => give (offsetMinutes "" offset) rest
    | '%' :: '-' :: c :: rest => (numeral (some .none) c rest).getD (give "" rest)
    | '%' :: '_' :: c :: rest => (numeral (some .space) c rest).getD (give "" rest)
    | '%' :: '0' :: c :: rest => (numeral (some .zero) c rest).getD (give "" rest)
    | '%' :: c :: rest =>
      match numeral none c rest, t.word? offset c, compound? c with
      | some cs, _, _ => cs
      | none, some s, _ => give s rest
      | none, none, some s => formatWith fuel acc (s.toList ++ rest)
      | none, none, none => give "" rest
    | c :: rest => formatWith fuel (c :: acc) rest

def format (form : String) : String :=
  String.ofList ((t.ahead offset).formatWith offset (8 * form.length + 8) [] form.toList)

def stamp (micros : Bool) : String :=
  t.format 0 (if micros then "%Y-%m-%dT%H:%M:%S.%6fZ" else "%Y-%m-%dT%H:%M:%SZ")

end Moment

end JsonFilter.Calendar
