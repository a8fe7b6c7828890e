import JsonFilter.Filter.Native.Text
import JsonFilter.Pattern.Search

namespace JsonFilter.Filter.Native

structure SearchMode where
  global : Bool := false
  ignoreEmpty : Bool := false
  flags : Pattern.Flags := {}

namespace SearchMode

def with? (m : SearchMode) : Char → Option SearchMode
  | 'g' => some { m with global := true }
  | 'n' => some { m with ignoreEmpty := true }
  | 'i' => some { m with flags.ignoreCase := true }
  | 'm' => some { m with flags.multiLine := true }
  | 's' => some { m with flags.dotTakesLineFeed := true }
  | 'l' => some { m with flags.swapGreed := true }
  | 'x' => some { m with flags.ignoreBlanks := true }
  | 'p' => some { m with flags.multiLine := true, flags.dotTakesLineFeed := true }
  | _ => none

def ofLetters (cs : List Char) : Except Char SearchMode :=
  cs.foldlM (fun m c => (m.with? c).elim (.error c) .ok) {}

end SearchMode

def sliceOf (text : List Char) (start stop : Nat) : Value :=
  .str (String.ofList ((text.drop start).take (stop - start)))

def partValue (text : List Char) (p : Pattern.Part) : Value :=
  let name : Members Value := match p.name with
    | some n => [("name", .str n)]
    | none => []
  .obj ([("offset", .int p.start), ("length", .int ((p.stop : Int) - p.start)),
    ("string", sliceOf text p.start p.stop)] ++ name)

/-- Matches and what stands between them, as far as each is asked for. -/
def pieces (between matched : Bool) (text : List Char) : Nat → List (List Pattern.Part) → List Value
  | last, [] => if between then [sliceOf text last text.length] else []
  | last, m :: ms =>
    let (start, stop) := match m with
      | p :: _ => (p.start, p.stop)
      | [] => (last, last)
    (if between then [sliceOf text last start] else []) ++
      (if matched then [.arr (m.map (partValue text))] else []) ++
      pieces between matched text stop ms

def searching (between matched : Bool) : Native := ofTwo fun v re letters => do
  let s ← v.asString
  let re ← re.asString
  let letters ← letters.asString
  match SearchMode.ofLetters letters.toList with
  | .error c => .error (.text ("invalid regex flag: " ++ c.toString))
  | .ok mode =>
    match Pattern.compile mode.flags re with
    | .error f => .error (.text ("invalid regex: " ++ f.text))
    | .ok p =>
      let text := s.toList
      let found := (p.findAll text).filter fun m =>
        !mode.ignoreEmpty || m.head?.any fun w => w.start < w.stop
      let found := if mode.global then found else found.take 1
      return .arr (pieces between matched text 0 found)

end JsonFilter.Filter.Native
