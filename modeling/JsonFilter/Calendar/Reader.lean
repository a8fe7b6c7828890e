import JsonFilter.Calendar.Printer
import JsonFilter.Text.Blank
import JsonFilter.Text.Utf8

namespace JsonFilter.Calendar

inductive ReadFault
  | outOfRange | impossible | notEnough | invalid | tooShort | tooLong | badFormat
deriving DecidableEq, Repr

def ReadFault.text : ReadFault → String
  | .outOfRange => "input is out of range"
  | .impossible => "no possible date and time matching input"
  | .notEnough => "input is not enough for unique date and time"
  | .invalid => "input contains invalid characters"
  | .tooShort => "premature end of input"
  | .tooLong => "trailing input"
  | .badFormat => "bad or unsupported format string"

namespace Reader

abbrev Read (α : Type) := List Char → Except ReadFault (α × List Char)

def digits : Nat → Nat → Nat → Read Nat
  | 0, _, n, cs => .ok (n, cs)
  | most + 1, least, n, c :: cs =>
    if c.isDigit then digits most (least - 1) (n * 10 + (c.toNat - '0'.toNat)) cs
    else if least > 0 then .error .invalid else .ok (n, c :: cs)
  | _ + 1, _, n, [] => .ok (n, [])

def number (least most : Nat) : Read Nat := fun cs =>
  if Utf8.byteCount cs < least then .error .tooShort
  else
    match digits most least 0 cs with
    | .ok (n, rest) => if n < 0x8000000000000000 then .ok (n, rest) else .error .outOfRange
    | .error f => .error f

def char (c : Char) : List Char → Except ReadFault (List Char)
  | d :: cs => if c = d then .ok cs else .error .invalid
  | [] => .error .tooShort

def fraction (cs : List Char) : Except ReadFault (Nat × List Char) := do
  let (n, rest) ← number 1 9 cs
  return (n * Nat.pow 10 (9 - (cs.length - rest.length)), rest.dropWhile Char.isDigit)

/-- Two digits, of which the first is at most `top`. -/
def twoDigits (top : Char) : Read Nat
  | a :: b :: rest =>
    if a.isDigit ∧ b.isDigit then
      if a ≤ top then .ok ((a.toNat - '0'.toNat) * 10 + (b.toNat - '0'.toNat), rest)
      else .error .outOfRange
    else .error .invalid
  | _ => .error .tooShort

def offset (zulu : Bool) (colon : List Char → Except ReadFault (List Char)) : Read Int := fun cs =>
  let signed (negative : Bool) (cs : List Char) : Except ReadFault (Int × List Char) := do
    let (hours, rest) ← twoDigits '9' cs
    let rest ← colon rest
    let (minutes, rest) ← twoDigits '5' rest
    let seconds : Int := (hours * 3600 + minutes * 60 : Nat)
    return (if negative then -seconds else seconds, rest)
  match cs with
  | '+' :: rest => signed false rest
  | '-' :: rest | '\u2212' :: rest => signed true rest
  | 'Z' :: rest | 'z' :: rest => if zulu then .ok (0, rest) else .error .invalid
  | _ :: _ => .error .invalid
  | [] => .error .tooShort

def looseColon (cs : List Char) : Except ReadFault (List Char) :=
  .ok (cs.dropWhile fun c => c = ':' || Blank.isBlank c)

def names (table : List String) (cs : List Char) : Option (Nat × List Char) :=
  let lower (cs : List Char) := cs.map Char.toLower
  let head := lower (cs.take 3)
  (table.findIdx? fun n => lower (n.toList.take 3) = head).map fun i =>
    let tail := lower ((table.getD i "").toList.drop 3)
    let rest := cs.drop 3
    (i, if lower (rest.take tail.length) = tail then rest.drop tail.length else rest)

def shortNames (table : List String) (cs : List Char) : Option (Nat × List Char) :=
  names (table.map short) cs

end Reader

/-- What has been said about a moment. -/
structure Facts where
  year : Option Int := none
  century : Option Int := none
  yearOfCentury : Option Int := none
  month : Option Int := none
  day : Option Int := none
  dayOfYear : Option Int := none
  weekday : Option Int := none
  weekFromSunday : Option Int := none
  weekFromMonday : Option Int := none
  isoYear : Option Int := none
  isoWeek : Option Int := none
  half : Option Int := none
  hour12 : Option Int := none
  minute : Option Int := none
  second : Option Int := none
  nanos : Option Int := none
  timestamp : Option Int := none
  offset : Option Int := none

namespace Facts

/-- What is said twice has to agree. -/
def agree (old : Option Int) (new : Int) : Except ReadFault (Option Int) :=
  match old with
  | none => .ok (some new)
  | some o => if o = new then .ok (some o) else .error .impossible

def within (low high n : Int) : Except ReadFault Unit :=
  if low ≤ n ∧ n ≤ high then .ok () else .error .outOfRange

def setHour (f : Facts) (n : Int) : Except ReadFault Facts := do
  within 0 23 n
  return { f with half := ← agree f.half (n / 12), hour12 := ← agree f.hour12 (n % 12) }

def set (f : Facts) (letter : Char) (n : Int) : Except ReadFault Facts :=
  match letter with
  | 'Y' => do return { f with year := ← agree f.year n }
  | 'C' => do return { f with century := ← agree f.century n }
  | 'y' => do
    within 0 99 n
    return { f with yearOfCentury := ← agree f.yearOfCentury n }
  | 'm' => do
    within 1 12 n
    return { f with month := ← agree f.month n }
  | 'd' | 'e' => do
    within 1 31 n
    return { f with day := ← agree f.day n }
  | 'j' => do
    within 1 366 n
    return { f with dayOfYear := ← agree f.dayOfYear n }
  | 'w' => do
    within 0 6 n
    return { f with weekday := ← agree f.weekday n }
  | 'u' => do
    within 1 7 n
    return { f with weekday := ← agree f.weekday (n % 7) }
  | 'U' => do
    within 0 53 n
    return { f with weekFromSunday := ← agree f.weekFromSunday n }
  | 'W' => do
    within 0 53 n
    return { f with weekFromMonday := ← agree f.weekFromMonday n }
  | 'G' => do return { f with isoYear := ← agree f.isoYear n }
  | 'V' => do
    within 1 53 n
    return { f with isoWeek := ← agree f.isoWeek n }
  | 'H' | 'k' => f.setHour n
  | 'I' | 'l' => do
    within 1 12 n
    return { f with hour12 := ← agree f.hour12 (n % 12) }
  | 'M' => do
    within 0 59 n
    return { f with minute := ← agree f.minute n }
  | 'S' => do
    within 0 60 n
    return { f with second := ← agree f.second n }
  | 'f' => do
    within 0 999999999 n
    return { f with nanos := ← agree f.nanos n }
  | 's' => do return { f with timestamp := ← agree f.timestamp n }
  | _ => .error .badFormat

def fullYear (f : Facts) : Except ReadFault (Option Int) :=
  match f.year, f.century, f.yearOfCentury with
  | some y, c, r =>
    if (c.getD (y / 100) = y / 100) ∧ (r.getD (y % 100) = y % 100) then .ok (some y)
    else .error .impossible
  | none, some c, some r => .ok (some (c * 100 + r))
  | none, none, some r => .ok (some (if r < 70 then 2000 + r else 1900 + r))
  | none, some _, none => .error .notEnough
  | none, none, none => .ok none

def holds (f : Facts) (d : Date) : Bool :=
  let same (said : Option Int) (n : Int) : Bool := said.getD n == n
  same f.month d.month && same f.day d.day && same f.dayOfYear (d.dayOfYear + 1) &&
    same f.weekday d.weekday && same f.weekFromSunday d.weekFromSunday &&
    same f.weekFromMonday d.weekFromMonday && same f.isoYear d.isoWeek.1 &&
    same f.isoWeek d.isoWeek.2

def date (f : Facts) : Except ReadFault Date := do
  let year ← f.fullYear
  let d ← match year, f.month, f.day, f.dayOfYear, f.weekday with
    | some y, some m, some d, _, _ =>
      let date : Date := ⟨y, m.toNat, d.toNat⟩
      if date.isValid then pure date else .error .outOfRange
    | some y, _, _, some n, _ =>
      if n ≤ Date.daysInYear y ∧ Date.isValid ⟨y, 1, 1⟩ then
        pure (Date.ofYearAndDay y (n.toNat - 1))
      else .error .outOfRange
    | some y, _, _, none, some w =>
      let first := Date.daysBefore y
      let start : Date := ⟨y, 1, 1⟩
      match f.weekFromSunday, f.weekFromMonday with
      | some n, _ => pure (Date.ofDays (first + (n * 7 + w - start.weekday)))
      | none, some n =>
        pure (Date.ofDays (first + (n * 7 + (w + 6) % 7 - start.weekdayFromMonday)))
      | none, none => .error .notEnough
    | none, _, _, _, some w =>
      match f.isoYear, f.isoWeek with
      | some y, some n => pure (Date.ofDays (Date.firstWeek y + (n - 1) * 7 + (w + 6) % 7))
      | _, _ => .error .notEnough
    | _, _, _, _, _ => .error .notEnough
  if f.holds d then return d else .error .impossible

def time (f : Facts) : Except ReadFault (Nat × Nat × Nat × Nat) :=
  match f.half, f.hour12, f.minute with
  | some h, some n, some m =>
    match f.second, f.nanos with
    | none, some _ => .error .notEnough
    | s, nanos =>
      let s := s.getD 0
      let leap := if s = 60 then 1000000000 else 0
      .ok ((h * 12 + n).toNat, m.toNat, (min s 59).toNat, (nanos.getD 0).toNat + leap)
  | _, _, _ => .error .notEnough

def localMoment (f : Facts) : Except ReadFault Moment :=
  match f.date, f.time, f.timestamp with
  | .ok d, .ok (h, m, s, nanos), stamp =>
    let t := Moment.ofParts d h m s nanos
    if stamp.getD t.seconds = t.seconds then .ok t else .error .impossible
  | _, _, some stamp => .ok ⟨stamp, (f.nanos.getD 0).toNat⟩
  | .error e, _, none => .error e
  | _, .error e, none => .error e

end Facts

namespace Reader

def width? : Char → Option Nat
  | 'C' | 'y' | 'm' | 'd' | 'e' | 'U' | 'W' | 'V' | 'H' | 'k' | 'I' | 'l' | 'M' | 'S' => some 2
  | 'w' | 'u' => some 1
  | 'j' => some 3
  | 'f' => some 9
  | 's' => some 1000
  | _ => none

def year : Read Int
  | '-' :: cs => do
    let (n, rest) ← number 1 1000 cs
    return (-(n : Int), rest)
  | '+' :: cs => do
    let (n, rest) ← number 1 1000 cs
    return (n, rest)
  | cs => do
    let (n, rest) ← number 1 4 cs
    return (n, rest)

def numeral (f : Facts) (letter : Char) (cs : List Char) :
    Except ReadFault (Facts × List Char) := do
  let cs := Blank.trimStart cs
  match letter, width? letter with
  | 'Y', _ | 'G', _ => do
    let (n, rest) ← year cs
    return (← f.set letter n, rest)
  | _, some w => do
    let (n, rest) ← number 1 w cs
    return (← f.set letter n, rest)
  | _, none => .error .badFormat

def half : Read Int
  | a :: m :: rest =>
    if m = 'm' ∨ m = 'M' then
      if a = 'a' ∨ a = 'A' then .ok (0, rest)
      else if a = 'p' ∨ a = 'P' then .ok (1, rest)
      else .error .invalid
    else .error .invalid
  | _ => .error .tooShort

def named (found : Option (Nat × List Char)) (cs : List Char) :
    Except ReadFault (Nat × List Char) :=
  match found with
  | some r => .ok r
  | none => .error (if cs.length < 3 then .tooShort else .invalid)

/-- Takes a text in after a format. The fuel bounds the letters of the format. -/
def follow : Nat → Facts → List Char → List Char → Except ReadFault Facts
  | 0, f, _, _ => .ok f
  | fuel + 1, f, form, cs =>
    match form with
    | [] => if cs.isEmpty then .ok f else .error .tooLong
    | '%' :: '-' :: c :: form | '%' :: '_' :: c :: form | '%' :: '0' :: c :: form => do
      let (f, rest) ← numeral f c cs
      follow fuel f form rest
    | '%' :: '.' :: 'f' :: form =>
      match cs with
      | '.' :: cs => do
        let (n, rest) ← fraction cs
        follow fuel (← f.set 'f' n) form rest
      | cs => follow fuel f form cs
    | '%' :: ':' :: 'z' :: form | '%' :: 'z' :: form => do
      let (n, rest) ← offset false looseColon (Blank.trimStart cs)
      follow fuel { f with offset := ← Facts.agree f.offset n } form rest
    | '%' :: '#' :: 'z' :: form => do
      let (n, rest) ← offset true looseColon (Blank.trimStart cs)
      follow fuel { f with offset := ← Facts.agree f.offset n } form rest
    | '%' :: c :: form =>
      if c = 'b' ∨ c = 'h' then do
        let (i, rest) ← named (shortNames monthNames cs) cs
        follow fuel (← f.set 'm' (i + 1)) form rest
      else if c = 'B' then do
        let (i, rest) ← named (names monthNames cs) cs
        follow fuel (← f.set 'm' (i + 1)) form rest
      else if c = 'a' then do
        let (i, rest) ← named (shortNames dayNames cs) cs
        follow fuel (← f.set 'w' i) form rest
      else if c = 'A' then do
        let (i, rest) ← named (names dayNames cs) cs
        follow fuel (← f.set 'w' i) form rest
      else if c = 'p' ∨ c = 'P' then do
        let (n, rest) ← half cs
        follow fuel { f with half := ← Facts.agree f.half n } form rest
      else if c = 'Z' then follow fuel f form (cs.dropWhile fun c => !Blank.isBlank c)
      else if c = 'n' ∨ c = 't' then follow fuel f form (Blank.trimStart cs)
      else if c = '%' then do
        let rest ← char '%' cs
        follow fuel f form rest
      else
        match Moment.compound? c with
        | some s => follow fuel f (s.toList ++ form) cs
        | none => do
          let (f, rest) ← numeral f c cs
          follow fuel f form rest
    | c :: form =>
      if c = '%' then .error .badFormat
      else if Blank.isBlank c then follow fuel f form (Blank.trimStart cs)
      else do
        let rest ← char c cs
        follow fuel f form rest

def stamp (cs : List Char) : Except ReadFault Moment := do
  let (y, cs) ← number 4 4 cs
  let cs ← char '-' cs
  let (m, cs) ← number 2 2 cs
  let f ← Facts.set {} 'Y' y
  let f ← f.set 'm' m
  let cs ← char '-' cs
  let (d, cs) ← number 2 2 cs
  let f ← f.set 'd' d
  let cs ← match cs with
    | [] => .error .tooShort
    | c :: cs => if c = 't' ∨ c = 'T' ∨ c = ' ' then pure cs else .error .invalid
  let (h, cs) ← number 2 2 cs
  let f ← f.set 'H' h
  let cs ← char ':' cs
  let (m, cs) ← number 2 2 cs
  let f ← f.set 'M' m
  let cs ← char ':' cs
  let (s, cs) ← number 2 2 cs
  let f ← f.set 'S' s
  let (f, cs) ← match cs with
    | '.' :: cs => do
      let (n, cs) ← fraction cs
      let f ← f.set 'f' n
      pure (f, cs)
    | cs => pure (f, cs)
  let (z, cs) ← offset true (char ':') cs
  if z.natAbs > (23 * 60 + 59) * 60 then .error .outOfRange
  else if !cs.isEmpty then .error .tooLong
  else do
    let t ← f.localMoment
    return { t with seconds := t.seconds - z }

end Reader

def Moment.ofStamp (text : String) : Except ReadFault Moment := Reader.stamp text.toList

def Moment.ofFormat (text form : String) : Except ReadFault Moment := do
  let f ← Reader.follow (8 * form.length + 8) {} form.toList text.toList
  f.localMoment

end JsonFilter.Calendar
