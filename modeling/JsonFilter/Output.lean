import JsonFilter.Json.Printer

namespace JsonFilter

inductive Output
  | single (text : String)
  | multiple (texts : List String)
deriving DecidableEq, Repr

namespace Output

def single? : Output → Option String
  | .single t => some t
  | .multiple _ => none

def toList : Output → List String
  | .single t => [t]
  | .multiple ts => ts

def length (o : Output) : Nat := o.toList.length

def isEmpty (o : Output) : Bool := o.toList.isEmpty

/-- A single text is a string, several are an array of strings. -/
def toJson : Output → Json
  | .single t => .str t
  | .multiple ts => .arr (ts.map .str)

end Output

end JsonFilter
