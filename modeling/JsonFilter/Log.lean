import JsonFilter.Event

namespace JsonFilter

abbrev Threshold := Option Level

namespace Threshold

def hears (t : Threshold) (l : Level) : Bool := t.any fun most => l.rank ≤ most.rank

def names : List (String × Threshold) := [
  ("off", none), ("error", some .error), ("warn", some .warn), ("info", some .info),
  ("debug", some .debug), ("trace", some .trace), ("0", none), ("1", some .error),
  ("2", some .warn), ("3", some .info), ("4", some .debug), ("5", some .trace)]

def ofName? (name : String) : Option Threshold := names.lookup (name.map Char.toLower)

end Threshold

namespace Log

structure Directive where
  target : Option String
  threshold : Threshold
  /-- Only inside of named spans, of which there are none. -/
  inSpan : Bool := false
deriving DecidableEq, Repr

namespace Directive

def concerns (d : Directive) (e : Event) : Bool :=
  !d.inSpan && d.target.all fun t => t.toList.isPrefixOf e.target.toList

def weight (d : Directive) : Nat := (d.target.map fun t => t.length + 1).getD 0

def isTargetStart (c : Char) : Bool := c.isAlphanum || c = '_' || c = ':' || c = '-'

def thresholdOf? (text : List Char) : Option Threshold :=
  if text.isEmpty then some (some .trace) else Threshold.ofName? (String.ofList text)

def ofSpan? (target : Option String) (cs : List Char) : Option Directive :=
  match cs.dropWhile (· ≠ ']') with
  | [_] => some ⟨target, some .trace, true⟩
  | _ :: '=' :: level => (thresholdOf? level).map fun t => ⟨target, t, true⟩
  | _ => none

/-- Reads a level, a target, or both with an equals sign in between. A target alone is heard from
the lowest level on. -/
def ofChars? : List Char → Option Directive
  | [] => none
  | '[' :: cs => ofSpan? none cs
  | c :: cs =>
    if !isTargetStart c then none
    else
      let (front, rest) := (c :: cs).span fun c => c ≠ '=' && c ≠ '['
      let name := String.ofList front
      match rest, Threshold.ofName? name with
      | '=' :: level, _ => (thresholdOf? level).map fun t => ⟨some name, t, false⟩
      | _ :: cs, _ => ofSpan? (some name) cs
      | [], some t => some ⟨none, t, false⟩
      | [], none => some ⟨some name, some .trace, false⟩

end Directive

structure Selection where
  directives : List Directive
deriving DecidableEq, Repr

namespace Selection

/-- The directive that decides about an event. -/
def decisive (f : Selection) (e : Event) : Option Directive :=
  (f.directives.filter (·.concerns e)).foldl (fun best d =>
    if best.any fun b => d.weight < b.weight then best else some d) none

def hears (f : Selection) (e : Event) : Bool :=
  (f.decisive e).any fun d => d.threshold.hears e.level

def heard (f : Selection) (es : List Event) : List Event := es.filter f.hears

def ofText? (s : String) : Option Selection := do
  let parts := (s.toList.splitOn ',').filter (!·.isEmpty)
  let ds ← parts.mapM Directive.ofChars?
  return ⟨if ds.isEmpty then [⟨none, some .error, false⟩] else ds⟩

def warnings : Selection := ⟨[⟨none, some .warn, false⟩]⟩

def lifecycle : Selection := ⟨[⟨some "jqfilter", some .debug, false⟩]⟩

end Selection

end Log

def Event.line (e : Event) : String := e.level.label ++ " " ++ e.target ++ ": " ++ e.text

end JsonFilter
