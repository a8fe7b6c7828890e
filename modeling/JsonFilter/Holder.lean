import JsonFilter.Options
import JsonFilter.Session

namespace JsonFilter

structure Holder (ω ε : Type) where
  held : Option (Session ε)
  trace : Trace ω

namespace Holder

variable {ω ε : Type}

inductive Step
  | create
  | compile (filter : String)
  | run (json : String) (options : Json)
  | drop
  | debug

inductive Answer
  | done
  | failed (f : Failure)
  | rejected (message : String)
  | noSession
  | outcome (o : Outcome)
  | summary (text : String)

def Answer.ofResult : Except Failure Unit → Answer
  | .ok () => .done
  | .error f => .failed f

def state? (h : Holder ω ε) : Option State := h.held.map Session.state

def release (eng : Engine ω ε) (h : Holder ω ε) : Trace ω :=
  match h.held with
  | some s => s.teardown eng h.trace
  | none => h.trace

def step (eng : Engine ω ε) (h : Holder ω ε) (step : Step) : Answer × Holder ω ε :=
  match step, h.held with
  | .create, _ =>
    match Session.create eng (h.release eng) with
    | (.ok s, t) => (.done, ⟨some s, t⟩)
    | (.error f, t) => (.failed f, ⟨none, t⟩)
  | _, none => (.noSession, h)
  | .compile filter, some s =>
    let ((r, s), t) := s.compile eng filter h.trace
    (.ofResult r, ⟨some s, t⟩)
  | .run json options, some s =>
    match Options.ofJson options with
    | .error m => (.rejected m, h)
    | .ok o =>
      let (r, t) := s.run eng json o h.trace
      (.outcome r, ⟨none, t⟩)
  | .drop, some _ => (.done, ⟨none, h.release eng⟩)
  | .debug, some s => (.summary s.summary, h)

end Holder

end JsonFilter
