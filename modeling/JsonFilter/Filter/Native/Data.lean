import JsonFilter.Filter.Native.Basic
import JsonFilter.Value.Access
import JsonFilter.Value.Arithmetic
import JsonFilter.Value.Reader

namespace JsonFilter.Filter.Native

def bool (b : Bool) : Except EvalError Value := .ok (.bool b)

def has : Native := ofOne fun v k => do bool (← v.has k)

def contains : Native := ofOne fun v w => bool (v.contains w)

def search : Native := ofOne fun v x => do
  let xs ← v.asArray
  return .int (Value.search xs.toArray x)

def toJson : Native := ofInput fun v => .ok (.str v.text)

def fromJson : Native := ofInput fun v => do Value.ofText (← v.asString)

def sort : Native := ofInput fun v => do
  let xs ← v.asArray
  return .arr (Value.sortedBy id xs)

def reverse : Native := ofInput fun v => do
  let xs ← v.asArray
  return .arr xs.reverse

def paths : Native := fun v _ => .ok (.values ((v.pathValues []).map fun (p, _) => .arr p))

def pathValues : Native := fun v _ =>
  .ok (.values ((v.pathValues []).map fun (p, x) => .arr [.arr p, x]))

def inputs : Native := fun _ _ => .ok (.values [])

def debug : Native := fun v _ => .ok (.note (.debugged v.text) v)

def stderr : Native := fun v _ => .ok (.note (.printed v.display) v)

def halt : Native := fun _ _ => .ok (.exit ⟨0, ""⟩)

/-- What is printed before the end: strings as they are, other values as a line of JSON. -/
def lastWords : Value → String
  | .str s => s
  | v => v.text ++ "\n"

def haltError : Native
  | v, code :: _ => do
    let n ← code.asInt
    return .exit ⟨n, lastWords v⟩
  | v, [] => .ok (.exit ⟨5, lastWords v⟩)

def now : Native := fun _ _ => .ok (.clock fun x =>
  if x < 0 then .error (.text "second time provided was later than self") else .ok (.float x))

def environment : Native := fun _ _ => .ok (.ask fun h =>
  .ok (.obj (Members.ofPairs (h.environ.map fun (name, text) => (name, .str text)))))

end JsonFilter.Filter.Native
