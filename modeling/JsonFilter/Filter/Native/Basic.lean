import JsonFilter.Numeric.Special
import JsonFilter.Stream
import JsonFilter.Value.Error

namespace JsonFilter.Filter

inductive Note
  | debugged (text : String)
  | printed (text : String)

def Note.event : Note → Event
  | .debugged t => .debugged t
  | .printed t => .printed t

/-- What filters see of the machine that they run on. -/
structure Host where
  /-- Seconds since the start of 1970, when an evaluation looks at the clock for the n-th time. -/
  clock : Nat → Float
  environ : List (String × String)
  /-- The seconds by which local time is ahead of the zero meridian, by the seconds since 1970. -/
  zone : Int → Int
  special : Numeric.Special

/-- What a native filter does. -/
inductive Reply
  | values (vs : List Value)
  | note (note : Note) (v : Value)
  | exit (e : Exit)
  | ask (f : Host → Except EvalError Value)
  | clock (f : Float → Except EvalError Value)

abbrev Native := Value → List Value → Except EvalError Reply

namespace Native

def give (v : Value) : Except EvalError Reply := .ok (.values [v])

def ofInput (f : Value → Except EvalError Value) : Native := fun v _ => do give (← f v)

def ofOne (f : Value → Value → Except EvalError Value) : Native
  | v, a :: _ => do give (← f v a)
  | v, [] => do give (← f v .null)

def ofTwo (f : Value → Value → Value → Except EvalError Value) : Native
  | v, a :: b :: _ => do give (← f v a b)
  | v, _ => do give (← f v .null .null)

end Native

end JsonFilter.Filter
