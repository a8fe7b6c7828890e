import JsonFilter.Document
import JsonFilter.Event

namespace JsonFilter

/-- The end of the whole process, as a filter asks for it. -/
structure Exit where
  code : Int
  output : String
deriving DecidableEq, Repr

/-- Why an evaluation gives nothing more: it ended the process, or it was still running when nobody
watched it any longer. -/
inductive Interruption
  | exit (e : Exit)
  | unfinished
deriving DecidableEq, Repr

/-- What an engine produces, in order; the rest is computed on demand. Results are finite: of a
backend that gives items for ever, or goes on giving them behind its end, they are the part in front
of some point. -/
inductive Results
  | done
  | item (result : Except String Json) (rest : Unit → Results)
  | note (event : Event) (rest : Unit → Results)
  | interrupted (i : Interruption)

namespace Results

instance : Inhabited Results := ⟨.done⟩

def ofList : List (Except String Json) → Results
  | [] => .done
  | r :: rs => .item r fun _ => ofList rs

def toList : Results → List (Except String Json)
  | .done | .interrupted _ => []
  | .item r rest => r :: toList (rest ())
  | .note _ rest => toList (rest ())

@[simp] theorem toList_ofList (rs : List (Except String Json)) : (ofList rs).toList = rs := by
  induction rs with
  | nil => rfl
  | cons r rs ih => simp [ofList, toList, ih]

end Results

/-- What is left to compute, and how many values were handed out. With nothing left it has ended. -/
structure Stream where
  source : Option (Unit → Results)
  pulled : Nat := 0

/-- One pull: what it gives, the stream after it, what was logged, and what kept it from its end. -/
structure Pull where
  value : Document
  stream : Stream
  events : List Event := []
  interruption : Option Interruption := none

namespace Stream

def ofResults (rs : Results) : Stream := ⟨some fun _ => rs, 0⟩

/-- A stream that ends at once: with the message of a marker, or without one. -/
def ended (terminal : Document) : Stream :=
  match terminal.message? with
  | some m => ofResults (.ofList [.error m])
  | none => ofResults .done

def pull (pulled : Nat) : Results → Pull
  | .done => { value := .invalid none, stream := ⟨none, pulled⟩ }
  | .item (.ok j) rest =>
    { value := .json j, stream := ⟨some rest, pulled + 1⟩, events := [.resultPulled pulled] }
  | .item (.error m) _ => { value := .invalid (some m), stream := ⟨none, pulled⟩ }
  | .note e rest =>
    let p := pull pulled (rest ())
    { p with events := e :: p.events }
  | .interrupted i => { value := .invalid none, stream := ⟨none, pulled⟩, interruption := some i }

def next (s : Stream) : Pull :=
  match s.source with
  | none => { value := .invalid none, stream := s }
  | some rest => pull s.pulled (rest ())

def pulls : Stream → Nat → List Document
  | _, 0 => []
  | s, n + 1 => s.next.value :: pulls s.next.stream n

def after : Stream → Nat → Stream
  | s, 0 => s
  | s, n + 1 => after s.next.stream n

def interruption? : Stream → Nat → Option Interruption
  | _, 0 => none
  | s, n + 1 => s.next.interruption.or (interruption? s.next.stream n)

def isEnded (s : Stream) : Bool := s.source.isNone

def summary (s : Stream) : String :=
  "ResultStream \x7b pulled: " ++ toString s.pulled ++ ", terminated: " ++ toString s.isEnded ++
    " \x7d"

end Stream

end JsonFilter
