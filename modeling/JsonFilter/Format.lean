import JsonFilter.Failure
import JsonFilter.Options

namespace JsonFilter

def Shape.text (shape : Shape) (j : Json) : String :=
  match shape.raw, j with
  | true, .str s => s
  | _, j =>
    let j := if shape.sortKeys then j.sortKeys else j
    if shape.compact then j.compact else j.pretty

/-- The text of a document; a marker has none. -/
def Shape.format (shape : Shape) (d : Document) : Except Failure String :=
  match d with
  | .json j => .ok (shape.text j)
  | .invalid _ => .error ⟨.runtime, Failure.unprintable⟩

end JsonFilter
