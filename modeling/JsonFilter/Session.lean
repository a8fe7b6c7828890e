import JsonFilter.Engine.Basic
import JsonFilter.Format
import JsonFilter.Output

namespace JsonFilter

/-- The world of the engines, and what was logged so far. -/
structure Trace (ω : Type) where
  world : ω
  events : List Event := []

def Trace.log {ω : Type} (t : Trace ω) (es : List Event) : Trace ω :=
  { t with events := t.events ++ es }

/-- How a request ends, if it does. -/
inductive Outcome
  | output (o : Output)
  | failed (f : Failure)
  | interrupted (i : Interruption)
deriving DecidableEq, Repr

/-- What a drained or sampled stream gave. -/
structure Drain (α : Type) where
  value : Except Interruption (Except Failure α)
  events : List Event

/-- The text of the first result. An empty stream reads as `null`. -/
def Stream.first (shape : Shape) (s : Stream) : Drain String :=
  let p := s.next
  let value : Except Interruption (Except Failure String) :=
    match p.interruption, p.value with
    | some i, _ => .error i
    | none, .json j => .ok (shape.format (.json j))
    | none, .invalid (some m) => .ok (.error (Failure.ofDocument (.invalid (some m)) .runtime))
    | none, .invalid none => .ok (.ok "null")
  ⟨value, p.events⟩

/-- The texts of all results, in order. An error discards the texts before it. -/
def Results.drain (shape : Shape) (pulled : Nat) : Results → List String → List Event →
    Drain (List String)
  | .done, acc, es => ⟨.ok (.ok acc.reverse), es.reverse⟩
  | .interrupted i, _, es => ⟨.error i, es.reverse⟩
  | .note e rest, acc, es => drain shape pulled (rest ()) acc (e :: es)
  | .item (.error m) _, _, es =>
    ⟨.ok (.error (Failure.ofDocument (.invalid (some m)) .runtime)), es.reverse⟩
  | .item (.ok j) rest, acc, es =>
    match shape.format (.json j) with
    | .ok text => drain shape (pulled + 1) (rest ()) (text :: acc) (.resultPulled pulled :: es)
    | .error f => ⟨.ok (.error f), (.resultPulled pulled :: es).reverse⟩

def Stream.collect (shape : Shape) (s : Stream) : Drain (List String) :=
  match s.source with
  | none => ⟨.ok (.ok []), []⟩
  | some rest => (rest ()).drain shape s.pulled [] []

structure Session (ε : Type) where
  engine : ε
  state : State

namespace Session

variable {ω ε : Type}

def summary (s : Session ε) : String := "Session \x7b state: " ++ s.state.name ++ " \x7d"

def create (eng : Engine ω ε) (t : Trace ω) : Except Failure (Session ε) × Trace ω :=
  match eng.create t.world with
  | (none, w) => (.error ⟨.base, Failure.noEngine⟩, { t with world := w }.log [.engineRefused])
  | (some e, w) => (.ok ⟨e, .created⟩, { t with world := w }.log [.engineCreated])

def compile (eng : Engine ω ε) (s : Session ε) (filter : String) (t : Trace ω) :
    (Except Failure Unit × Session ε) × Trace ω :=
  match eng.compile s.engine filter t.world with
  | ((.ok (), e), w) => ((.ok (), ⟨e, .compiled⟩), { t with world := w })
  | ((.error d, e), w) =>
    let f := Failure.ofDiagnostic d
    ((.error f, ⟨e, .failed⟩), { t with world := w }.log [.compileFailed f.message])

def teardown (eng : Engine ω ε) (s : Session ε) (t : Trace ω) : Trace ω :=
  { t with world := eng.release s.engine t.world }.log [.tornDown s.state]

def evaluate (options : Options) (rs : Results) : Drain Output :=
  let s := Stream.ofResults rs
  if options.multipleOutputs then
    let d := s.collect options.shape
    ⟨d.value.map (·.map .multiple), d.events⟩
  else
    let d := s.first options.shape
    ⟨d.value.map (·.map .single), d.events⟩

def run (eng : Engine ω ε) (s : Session ε) (json : String) (options : Options) (t : Trace ω) :
    Outcome × Trace ω :=
  match Document.ofText json with
  | .invalid m =>
    let f := Failure.ofInput (.invalid m)
    (.failed f, teardown eng { s with state := .failed } (t.log [.parseFailed f.message]))
  | .json j =>
    let (rs, w) := eng.start s.engine (.json j) t.world
    let d := evaluate options rs
    let t := { t with world := w }.log d.events
    match d.value with
    | .error i => (.interrupted i, t)
    | .ok (.ok o) => (.output o, teardown eng { s with state := .done } t)
    | .ok (.error f) =>
      (.failed f, teardown eng { s with state := .failed } (t.log [.evaluationFailed f.message]))

end Session

end JsonFilter
