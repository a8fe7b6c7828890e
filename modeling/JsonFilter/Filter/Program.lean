import JsonFilter.Filter.Definitions
import JsonFilter.Filter.Machine.Step

namespace JsonFilter.Filter

inductive Diagnostic
  | spelling (e : SyntaxError)
  | unavailable (path : String)
  | undefined (u : Undefined)
deriving DecidableEq

def Diagnostic.message : Diagnostic → String
  | .spelling e => e.message
  | .unavailable path => "cannot load module " ++ path ++ ": module loading not supported"
  | .undefined u => u.message

def Diagnostic.joined (ds : List Diagnostic) : String :=
  String.intercalate "; " (ds.map Diagnostic.message)

/-- Where an evaluation runs, and how patiently it is watched. Evaluations themselves have no limit:
what one comes to is what is seen of it with enough patience. -/
structure Setting where
  host : Host
  patience : Nat

def Setting.bare : Setting where
  host := ⟨fun _ => 0, [], fun _ => 0, .approximate⟩
  patience := 0x2000000000000000

structure Program where
  code : Code
  imported : Nat := 0

namespace Program

def variableOf : Import → Option Entry
  | .data _ x => some (.var x)
  | .program _ => none

def pathOf : Import → Option String
  | .program path => some path
  | .data _ _ => none

def ofTerm (fuel : Nat) (s : Source) : Except (List Diagnostic) Program :=
  let scope := (s.imports.filterMap variableOf).reverse
  match (Resolve.term library fuel scope s.term).run [] with
  | (code, []) => .ok ⟨code, scope.length⟩
  | (_, us) => .error (us.reverse.map .undefined)

def compile (source : String) : Except (List Diagnostic) Program :=
  let cs := source.toList
  match Source.parse cs with
  | .error es => .error (es.map .spelling)
  | .ok s =>
    match s.imports.filterMap pathOf with
    | [] => ofTerm (Source.steps cs) s
    | paths => .error (paths.map .unavailable)

/-- The number of steps that an evaluation is watched for. Whatever the patience, one that goes
through its input once comes to its end. -/
def watched (s : Setting) (input : Json) : Nat := s.patience + 64 * input.size

def results (p : Program) (s : Setting) (input : Json) : Results :=
  let env : Env := List.replicate p.imported (.value .null)
  (Machine.start p.code env (.ofJson input)).results library s.host (watched s input)

end Program

end JsonFilter.Filter
