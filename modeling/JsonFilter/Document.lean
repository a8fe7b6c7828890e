import JsonFilter.Json.Printer
import JsonFilter.Json.Reader

namespace JsonFilter

inductive Document
  | json (value : Json)
  | invalid (message : Option String)
deriving Inhabited

namespace Document

def kindName : Document → String
  | .json j => j.kind.name
  | .invalid _ => "invalid"

def isValid : Document → Bool
  | .json _ => true
  | .invalid _ => false

def hasMessage : Document → Bool
  | .invalid (some _) => true
  | _ => false

def message? : Document → Option String
  | .invalid m => m
  | .json _ => none

def string? : Document → Option String
  | .json (.str s) => some s
  | _ => none

def rejection (text : List Char) (f : Json.Fault) : String :=
  f.message text ++ " (while parsing '" ++ Json.preview text ++ "')"

def ofText (text : String) : Document :=
  match Json.ofText text with
  | .ok j => .json j
  | .error f => .invalid (some (rejection text.toList f))

/-- The text of a value as a string value; markers stay as they are. -/
def toText (pretty sortKeys : Bool) : Document → Document
  | .json j =>
    let j := if sortKeys then j.sortKeys else j
    .json (.str (if pretty then j.pretty else j.compact))
  | .invalid m => .invalid m

end Document

end JsonFilter
