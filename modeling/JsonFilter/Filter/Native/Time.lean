import JsonFilter.Calendar.Reader
import JsonFilter.Filter.Native.Text
import JsonFilter.Numeric.Exact

namespace JsonFilter.Filter.Native

open Calendar

def microsOf : Value → Except EvalError Int
  | .int i => .ok (i * 1000000)
  | v => do return Value.wordOfFloat ((← v.asFloat) * 1000000)

def momentOfSeconds (v : Value) : Except EvalError Moment := do
  let micros ← microsOf v
  match Moment.ofMicros? micros with
  | some t => return t
  | none => .error (.text ("cannot parse " ++ v.text ++ " as epoch timestamp"))

/-- The seconds of a moment, as a float where parts of a second count. -/
def secondsOf (exact : Bool) (t : Moment) : Value :=
  if exact then .float (Value.intFloat (t.seconds * 1000000 + t.micros) / 1000000)
  else .int t.seconds

def natOf : Value → Option Nat
  | .int i => if 0 ≤ i then some i.toNat else none
  | _ => none

def secondParts (v : Value) : Option (Nat × Nat) :=
  match v.asFloat with
  | .ok x =>
    let n := Value.wordOfFloat x.floor
    let nanos := Value.wordOfFloat ((x - Numeric.truncate x) * 1e9)
    if n < 0 then none else some (n.toNat, nanos.toNat)
  | .error _ => none

def momentOfParts : List Value → Option Moment
  | .int year :: month :: day :: hour :: minute :: second :: _ => do
    let month ← natOf month
    let day ← natOf day
    let hour ← natOf hour
    let minute ← natOf minute
    let (second, nanos) ← secondParts second
    let d : Date := ⟨year, month + 1, day⟩
    if d.isValid ∧ hour < 24 ∧ minute < 60 ∧ second < 60 then
      some (Moment.ofParts d hour minute second nanos)
    else none
  | _ => none

def partsOf (t : Moment) : Value :=
  let d := t.date
  let second : Value :=
    if t.nanos > 0 then .float (Float.ofNat t.second + Float.ofNat t.micros / 1000000)
    else .int t.second
  .arr [.int d.year, .int ((d.month : Int) - 1), .int d.day, .int t.hour, .int t.minute, second,
    .int d.weekday, .int d.dayOfYear]

def noTime (v : Value) : EvalError := .text ("cannot convert " ++ v.text ++ " to time")

def toStamp : Native := ofInput fun v => do
  let t ← momentOfSeconds v
  return .str (t.stamp (match v with
    | .int _ => false
    | _ => true))

def ofStamp : Native := ofText fun s =>
  match Moment.ofStamp s with
  | .ok t => .ok (secondsOf (s.contains '.') t)
  | .error f => .error (.text ("cannot parse " ++ s ++ " as ISO-8601 timestamp: " ++ f.text))

def timeParts : Native := ofInput fun v => do return partsOf (← momentOfSeconds v)

def localTimeParts : Native := fun v _ => do
  let t ← momentOfSeconds v
  return .ask fun h => .ok (partsOf (t.ahead (h.zone t.seconds)))

def ofTimeParts : Native := ofInput fun v => do
  let xs ← v.asArray
  match momentOfParts xs with
  | some t => return secondsOf (t.micros > 0) t
  | none => .error (noTime v)

def momentOf (v : Value) : Except EvalError Moment :=
  match v with
  | .arr xs => ((momentOfParts xs).map .ok).getD (.error (noTime v))
  | v => momentOfSeconds v

def formatTime : Native := ofOne fun v form => do
  let form ← form.asString
  let t ← momentOf v
  return .str (t.format 0 form)

def formatLocalTime : Native
  | v, form :: _ => do
    let form ← form.asString
    let t ← momentOf v
    return .ask fun h => .ok (.str (t.format (h.zone t.seconds) form))
  | _, [] => give .null

def readTime : Native := ofOne fun v form => do
  let s ← v.asString
  let form ← form.asString
  match Moment.ofFormat s form with
  | .ok t => return partsOf t
  | .error f => .error (.text ("cannot parse " ++ s ++ " using " ++ form ++ ": " ++ f.text))

end JsonFilter.Filter.Native
