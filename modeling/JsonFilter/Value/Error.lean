import JsonFilter.Value.Order

namespace JsonFilter

inductive MathOp
  | add | sub | mul | div | rem
deriving DecidableEq, Repr

def MathOp.text : MathOp → String
  | .add => "+"
  | .sub => "-"
  | .mul => "*"
  | .div => "/"
  | .rem => "%"

inductive Expected
  | integer | float | number | string | array | iterable | rangeable
deriving DecidableEq, Repr

def Expected.text : Expected → String
  | .integer => "integer"
  | .float => "floating-point number"
  | .number => "number"
  | .string => "string"
  | .array => "array"
  | .iterable => "iterable (array or object)"
  | .rangeable => "rangeable (array or string)"

inductive EvalError
  | raised (value : Value)
  | mismatch (value : Value) (expected : Expected)
  | calculation (left : Value) (op : MathOp) (right : Value)
  | index (value index : Value)
  | notPath
  | breakTo (label : Nat)
deriving Inhabited

namespace EvalError

def text (message : String) : EvalError := .raised (.str message)

def caught : EvalError → Value
  | .raised v => v
  | .mismatch v e => .str ("cannot use " ++ v.text ++ " as " ++ e.text)
  | .calculation l op r => .str ("cannot calculate " ++ l.text ++ " " ++ op.text ++ " " ++ r.text)
  | .index v i => .str ("cannot index " ++ v.text ++ " with " ++ i.text)
  | .notPath => .str "invalid path expression"
  | .breakTo _ => .str "break"

def message (e : EvalError) : String :=
  match e with
  | .raised v => v.text
  | e => e.caught.display

end EvalError

namespace Value

def asInt : Value → Except EvalError Int
  | .int i => .ok i
  | v => .error (.mismatch v .integer)

def asFloat : Value → Except EvalError Float
  | .int i => .ok (intFloat i)
  | .float x => .ok x
  | .literal t => .ok (literalFloat t)
  | v => .error (.mismatch v .float)

def asString : Value → Except EvalError String
  | .str s => .ok s
  | v => .error (.mismatch v .string)

def asArray : Value → Except EvalError (List Value)
  | .arr xs => .ok xs
  | v => .error (.mismatch v .array)

end Value

end JsonFilter
