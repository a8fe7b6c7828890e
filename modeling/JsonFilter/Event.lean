namespace JsonFilter

inductive State
  | created | compiled | inputParsed | evaluating | done | failed
deriving DecidableEq, Repr

def State.name : State → String
  | .created => "Created"
  | .compiled => "Compiled"
  | .inputParsed => "InputParsed"
  | .evaluating => "Evaluating"
  | .done => "Done"
  | .failed => "Failed"

inductive Level
  | error | warn | info | debug | trace
deriving DecidableEq, Repr

def Level.rank : Level → Nat
  | .error => 1
  | .warn => 2
  | .info => 3
  | .debug => 4
  | .trace => 5

def Level.label : Level → String
  | .error => "ERROR"
  | .warn => "WARN"
  | .info => "INFO"
  | .debug => "DEBUG"
  | .trace => "TRACE"

inductive Event
  | engineRefused
  | engineCreated
  | compileFailed (message : String)
  | parseFailed (message : String)
  | resultPulled (index : Nat)
  | evaluationFailed (message : String)
  | tornDown (state : State)
  | debugged (text : String)
  | printed (text : String)
deriving DecidableEq, Repr

namespace Event

def level : Event → Level
  | .resultPulled _ => .trace
  | .printed _ => .error
  | _ => .debug

def target : Event → String
  | .resultPulled _ => "jqfilter::engine"
  | .debugged _ | .printed _ => "jaq_std"
  | _ => "jqfilter::session"

/-- Controls that a terminal would obey are spelled out in what filters print. -/
def spelled (c : Char) : List Char :=
  let n := c.toNat
  let hex := Nat.toDigits 16 n
  if n = 0x1B ∨ n = 0x7F then '\\' :: 'x' :: hex
  else if n = 0x07 ∨ n = 0x08 ∨ n = 0x0C then '\\' :: 'x' :: '0' :: hex
  else if 0x80 ≤ n ∧ n ≤ 0x9F then '\\' :: 'u' :: '\x7b' :: (hex ++ ['\x7d'])
  else [c]

def text : Event → String
  | .engineRefused => "engine allocation failed"
  | .engineCreated => "engine created"
  | .compileFailed m => "filter failed to compile error=" ++ m
  | .parseFailed m => "input failed to parse error=" ++ m
  | .resultPulled i => "result pulled index=" ++ toString i
  | .evaluationFailed m => "evaluation failed error=" ++ m
  | .tornDown s => "engine torn down state=" ++ s.name
  | .debugged t | .printed t => String.ofList (t.toList.flatMap spelled)

end Event

end JsonFilter
