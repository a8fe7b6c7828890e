import JsonFilter.Filter.Code
import JsonFilter.Filter.Native.Table

namespace JsonFilter.Filter

inductive Undefined
  | filter (name : String) (arity : Nat)
  | var (name : String)
  | label (name : String)
  | module (name : String)
deriving DecidableEq, Repr

def Undefined.message : Undefined → String
  | .filter n k => "undefined filter " ++ n ++ "/" ++ toString k
  | .var n => "undefined variable " ++ n
  | .label n => "undefined label " ++ n
  | .module n => "undefined module " ++ n

inductive Entry
  | var (name : String)
  | hidden
  | filter (name : String)
  | function (name : String) (params : List String)
  | label (name : String)
deriving DecidableEq

/-- The innermost binding comes first. -/
abbrev Scope := List Entry

namespace Scope

def hide (n : Nat) (s : Scope) : Scope := List.replicate n .hidden ++ s

def placeOf? (s : Scope) (name : String) : Option Nat := s.findIdx? (· = .var name)

def label? (s : Scope) (name : String) : Option Nat := s.findIdx? (· = .label name)

end Scope

def takesValue (param : String) : Bool := param.startsWith "$"

def Entry.ofParam (param : String) : Entry :=
  if takesValue param then .var param else .filter param

def Scope.within (s : Scope) (params : List String) : Scope :=
  (params.map Entry.ofParam).reverse ++ s

/-- What a name that is called stands for. -/
inductive Callee
  | argument (place : Nat)
  | function (place : Nat) (params : List String)
  | global (index : Nat) (params : List String)
  | builtin (b : Builtin)

namespace Callee

def valued (arity : Nat) : Callee → List Bool
  | .argument _ => []
  | .function _ ps | .global _ ps => ps.map takesValue
  | .builtin b => b.valued arity

def local? (name : String) (arity : Nat) : Nat → Scope → Option Callee
  | _, [] => none
  | i, .filter n :: s =>
    if n = name ∧ arity = 0 then some (.argument i) else local? name arity (i + 1) s
  | i, .function n ps :: s =>
    if n = name ∧ ps.length = arity then some (.function i ps) else local? name arity (i + 1) s
  | i, _ :: s => local? name arity (i + 1) s

def global? (lib : Library) (name : String) (arity : Nat) : Nat → Option Callee
  | 0 => none
  | i + 1 =>
    match lib[i]? with
    | some g =>
      if g.name = name ∧ g.params.length = arity then some (.global i g.params)
      else global? lib name arity i
    | none => global? lib name arity i

def find? (lib : Library) (s : Scope) (name : String) (arity : Nat) : Option Callee :=
  (local? name arity 0 s).orElse fun _ =>
    (global? lib name arity lib.size).orElse fun _ =>
      (Builtin.find? name arity).map .builtin

def place : Arg → Nat
  | .value i => i
  | .filter _ => 0

def code : Arg → Code
  | .filter c => c
  | .value i => .var i

def invoke (n : Nat) (args : List Arg) : Callee → Code
  | .argument i => .argument (i + n)
  | .function i _ => .callLocal (i + n) args
  | .global i _ => .callGlobal i args
  | .builtin (.plain f) => .native f (args.map place)
  | .builtin .raise => .raise
  | .builtin .span =>
    match args with
    | [a, b, c] => .span (place a) (place b) (place c)
    | _ => .identity
  | .builtin .limit =>
    match args with
    | [n, c] => .limit (place n) (code c)
    | _ => .identity
  | .builtin .first => .first ((args.head?.map code).getD .identity)
  | .builtin .last => .last ((args.head?.map code).getD .identity)
  | .builtin (.keyed k) => .keyed k ((args.head?.map code).getD .identity)

end Callee

/-- Looking up names collects those that are not found, the most recent first. -/
abbrev Resolve := StateM (List Undefined)

namespace Resolve

def missing (u : Undefined) : Resolve Code := do
  modify (u :: ·)
  return .identity

def qualifier? : List Char → Option (List Char)
  | ':' :: ':' :: _ => some []
  | c :: cs => (qualifier? cs).map (c :: ·)
  | [] => none

def module? (name : String) : Option String := (qualifier? name.toList).map String.ofList

def names : Nat → Pattern → List String
  | 0, _ => []
  | _ + 1, .var x => [x]
  | fuel + 1, .parts es => es.flatMap fun (_, p) => names fuel p

/-- A variable alone takes the whole value, other patterns spread what they find. -/
def spreads : Pattern → Bool
  | .var _ => false
  | .parts _ => true

def bound (fuel : Nat) (s : Scope) (p : Pattern) : Scope :=
  (names fuel p).reverse.map .var ++ s

mutual

/-- The code of a term. The fuel bounds the size of the term. -/
def term (lib : Library) : Nat → Scope → Term → Resolve Code
  | 0, _, _ => return .identity
  | fuel + 1, s, t => do
    match t with
    | .identity => return .identity
    | .recurse => return .recurse
    | .number n => return .const (.ofNumeral n.toList)
    | .string format parts =>
      let print ← match format with
        | none => pure Code.toText
        | some f => call lib fuel s f []
      let codes ← parts.mapM fun
        | .text t => pure (.const (.str t))
        | .filter t => do return .pipe (← term lib fuel s t) print
      return .sum (.str "") codes
    | .array none => return .const (.arr [])
    | .array (some t) => return .collect (← term lib fuel s t)
    | .object es => return .sum (.obj []) (← es.mapM (entry lib fuel s))
    | .negate t => return .negate (← term lib fuel s t)
    | .pipe l r =>
      let l ← term lib fuel s l
      return .pipe l (← term lib fuel s r)
    | .bind source p body =>
      let body ← term lib fuel (bound fuel s p) body
      let source ← term lib fuel s source
      return .bind (spreads p) (← taken lib fuel s source p) body
    | .binary l op r =>
      let l ← term lib fuel s l
      let r ← term lib fuel s r
      return match op with
        | .comma => .comma l r
        | .assign => .assign l r
        | .update => .update l r
        | .updateMath op => .updateMath l op r
        | .updateAlt => .updateAlt l r
        | .alt => .alt l r
        | .or => .logic true l r
        | .and => .logic false l r
        | .compare c => .compare l c r
        | .math op => .math l op r
    | .label name body => return .label (← term lib fuel (.label name :: s) body)
    | .breakTo name =>
      match s.label? name with
      | some i => return .breakTo i
      | none => missing (.label name)
    | .fold name source p args =>
      let source ← term lib fuel s source
      let source ← taken lib fuel s source p
      let inner := bound fuel s p
      match args with
      | start :: step :: rest =>
        let start ← term lib fuel s start
        let step ← term lib fuel inner step
        match name, rest with
        | "reduce", [] => return .fold .reduce (spreads p) source start step none
        | "foreach", [] => return .fold .foreach (spreads p) source start step none
        | "foreach", [proj] =>
          let proj ← term lib fuel inner proj
          return .fold .foreach (spreads p) source start step (some proj)
        | _, _ => missing (.filter name args.length)
      | _ => missing (.filter name args.length)
    | .attempt body handler =>
      let body ← term lib fuel s body
      match handler with
      | none => return .attempt body none
      | some h => return .attempt body (some (← term lib fuel s h))
    | .cond branches otherwise =>
      let last ← match otherwise with
        | none => pure Code.identity
        | some t => term lib fuel s t
      branches.reverse.foldlM (fun rest (test, yes) => do
        let test ← term lib fuel s test
        return .cond test (← term lib fuel s yes) rest) last
    | .define d rest =>
      let inner : Scope := .function d.name d.params :: s
      let rest ← term lib fuel inner rest
      return .define (← term lib fuel (Scope.within inner d.params) d.body) rest
    | .call name args => call lib fuel s name args
    | .var name =>
      match s.placeOf? name with
      | some i => return .var i
      | none => missing (.var name)
    | .path start parts =>
      let start ← term lib fuel s start
      let (indices, steps) ← pathSteps lib fuel s parts [] []
      return .along start indices steps

/-- The arrays of what a pattern binds in the values of the source; for a variable, the source. -/
def taken (lib : Library) : Nat → Scope → Code → Pattern → Resolve Code
  | 0, _, source, _ => return source
  | _ + 1, _, source, .var _ => return source
  | fuel + 1, s, source, p => return .pipe source (← parts lib fuel s p)

def parts (lib : Library) : Nat → Scope → Pattern → Resolve Code
  | 0, _, _ => return .identity
  | _ + 1, _, .var _ => return .collect .identity
  | fuel + 1, s, .parts es => do
    let codes ← es.zipIdx.mapM fun ((k, p), i) => do
      let k ← term lib fuel (s.hide i) k
      return .pipe k.part (← parts lib fuel (s.hide i) p)
    match codes with
    | [c] => return c
    | cs =>
      let bound := (List.range cs.length).map fun i => Code.var (cs.length - 1 - i)
      return cs.foldr (fun c rest => .bind false c rest) (.sum (.arr []) bound)

def entry (lib : Library) : Nat → Scope → Term × Option Term → Resolve Code
  | 0, _, _ => return .identity
  | fuel + 1, s, (k, some v) => do
    let k ← term lib fuel s k
    return .single k (← term lib fuel s v)
  | fuel + 1, s, (.var x, none) => do
    let v ← term lib fuel s (.var x)
    return .single (.const (.str (Term.bareName x))) v
  | fuel + 1, s, (k, none) => do
    let k ← term lib fuel s k
    return .single k k.part

def call (lib : Library) : Nat → Scope → String → List Term → Resolve Code
  | 0, _, _, _ => return .identity
  | fuel + 1, s, name, args => do
    let callee := Callee.find? lib s name args.length
    let valued := (callee.map (·.valued args.length)).getD []
    let count := valued.count true
    let (values, args') ← arguments lib fuel s count args valued [] []
    match module? name, callee with
    | some m, _ => missing (.module m)
    | none, none => missing (.filter name args.length)
    | none, some c => return .binding values (c.invoke count args')

def arguments (lib : Library) : Nat → Scope → Nat → List Term → List Bool → List Code →
    List Arg → Resolve (List Code × List Arg)
  | 0, _, _, _, _, values, args => return (values.reverse, args.reverse)
  | _ + 1, _, _, [], _, values, args => return (values.reverse, args.reverse)
  | fuel + 1, s, count, t :: ts, true :: valued, values, args => do
    let c ← term lib fuel (s.hide values.length) t
    arguments lib fuel s count ts valued (c :: values) (.value (count - 1 - values.length) :: args)
  | fuel + 1, s, count, t :: ts, valued, values, args => do
    let c ← term lib fuel (s.hide count) t
    arguments lib fuel s count ts valued.tail values (.filter c :: args)

def pathSteps (lib : Library) : Nat → Scope → List PathPart → List Code → List Step →
    Resolve (List Code × List Step)
  | 0, _, _, codes, steps => return (codes.reverse, steps.reverse)
  | _ + 1, _, [], codes, steps => return (codes.reverse, steps.reverse)
  | fuel + 1, s, .index i optional :: ps, codes, steps => do
    let (slot, codes) ← slot lib fuel s codes i
    pathSteps lib fuel s ps codes (.index slot optional :: steps)
  | fuel + 1, s, .range a b optional :: ps, codes, steps => do
    let (a, codes) ← bound? lib fuel s codes a
    let (b, codes) ← bound? lib fuel s codes b
    pathSteps lib fuel s ps codes (.range a b optional :: steps)

def slot (lib : Library) : Nat → Scope → List Code → Term → Resolve (Slot × List Code)
  | 0, _, codes, _ => return (.const .null, codes)
  | fuel + 1, s, codes, t => do
    match ← term lib fuel (s.hide codes.length) t with
    | .const v => return (.const v, codes)
    | c => return (.nth codes.length, c :: codes)

def bound? (lib : Library) : Nat → Scope → List Code → Option Term →
    Resolve (Option Slot × List Code)
  | 0, _, codes, _ => return (none, codes)
  | _ + 1, _, codes, none => return (none, codes)
  | fuel + 1, s, codes, some t => do
    let (slot, codes) ← slot lib fuel s codes t
    return (some slot, codes)

end

end Resolve

end JsonFilter.Filter
