import JsonFilter.Value.Error

namespace JsonFilter.Filter

inductive Comparison
  | lt | le | gt | ge | eq | ne
deriving DecidableEq, Repr

inductive Operator
  | comma
  | assign | update | updateMath (op : MathOp) | updateAlt
  | alt | or | and
  | compare (c : Comparison)
  | math (op : MathOp)
deriving DecidableEq, Repr

mutual

inductive Term
  | identity
  | recurse
  | number (text : String)
  | string (format : Option String) (parts : List StringPart)
  | array (content : Option Term)
  | object (entries : List (Term × Option Term))
  | negate (t : Term)
  | pipe (left right : Term)
  | bind (source : Term) (pattern : Pattern) (body : Term)
  | binary (left : Term) (op : Operator) (right : Term)
  | label (name : String) (body : Term)
  | breakTo (name : String)
  | fold (name : String) (source : Term) (pattern : Pattern) (args : List Term)
  | attempt (body : Term) (handler : Option Term)
  | cond (branches : List (Term × Term)) (otherwise : Option Term)
  | define (definition : Definition) (body : Term)
  | call (name : String) (args : List Term)
  | var (name : String)
  | path (start : Term) (parts : List PathPart)

inductive StringPart
  | text (s : String)
  | filter (t : Term)

inductive PathPart
  | index (i : Term) (optional : Bool)
  | range (lower upper : Option Term) (optional : Bool)

inductive Pattern
  | var (name : String)
  | parts (entries : List (Term × Pattern))

inductive Definition
  /-- Parameters that start with `$` take values, the others filters. -/
  | mk (name : String) (params : List String) (body : Term)

end

instance : Inhabited Term := ⟨.identity⟩

instance : Inhabited Pattern := ⟨.var ""⟩

instance : Inhabited Definition := ⟨.mk "" [] .identity⟩

def Definition.name : Definition → String
  | .mk n _ _ => n

def Definition.params : Definition → List String
  | .mk _ ps _ => ps

def Definition.body : Definition → Term
  | .mk _ _ b => b

def Term.bareName (x : String) : String := String.ofList (x.toList.drop 1)

def Term.text (s : String) : Term := .string none [.text s]

def Operator.level : Operator → Nat
  | .comma => 0
  | .assign | .update | .updateMath _ | .updateAlt => 1
  | .alt => 2
  | .or => 3
  | .and => 4
  | .compare .eq | .compare .ne => 5
  | .compare _ => 6
  | .math .add | .math .sub => 7
  | .math .mul | .math .div => 8
  | .math .rem => 9

def Operator.groupsRight (op : Operator) : Bool := op.level == 1

def Operator.ofSymbol? : String → Option Operator
  | "," => some .comma
  | "=" => some .assign
  | "|=" => some .update
  | "+=" => some (.updateMath .add)
  | "-=" => some (.updateMath .sub)
  | "*=" => some (.updateMath .mul)
  | "/=" => some (.updateMath .div)
  | "%=" => some (.updateMath .rem)
  | "//=" => some .updateAlt
  | "//" => some .alt
  | "<" => some (.compare .lt)
  | "<=" => some (.compare .le)
  | ">" => some (.compare .gt)
  | ">=" => some (.compare .ge)
  | "==" => some (.compare .eq)
  | "!=" => some (.compare .ne)
  | "+" => some (.math .add)
  | "-" => some (.math .sub)
  | "*" => some (.math .mul)
  | "/" => some (.math .div)
  | "%" => some (.math .rem)
  | _ => none

/-- The place of the operator that is applied last: of those that bind least, the first one if
they group to the right, else the last one. -/
def Operator.lastApplied : List Operator → Nat
  | [] => 0
  | op :: ops =>
    let i := lastApplied ops
    match ops[i]? with
    | none => 0
    | some best =>
      if op.level < best.level || (op.level == best.level && op.groupsRight) then 0 else i + 1

/-- Groups a chain of operators and operands. The fuel bounds the length of the chain. -/
def Term.grouped : Nat → Term → List (Operator × Term) → Term
  | 0, head, _ => head
  | _ + 1, head, [] => head
  | fuel + 1, head, chain =>
    let i := Operator.lastApplied (chain.map Prod.fst)
    match chain[i]? with
    | none => head
    | some (op, operand) =>
      .binary (grouped fuel head (chain.take i)) op (grouped fuel operand (chain.drop (i + 1)))

end JsonFilter.Filter
