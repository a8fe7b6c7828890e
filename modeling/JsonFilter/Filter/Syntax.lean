import JsonFilter.Filter.Token.Lexer
import JsonFilter.Filter.Term

namespace JsonFilter.Filter

/-- The tokens that are left, and the errors so far, the most recent first. -/
structure Parsing where
  tokens : List Token
  errors : List SyntaxError := []

/-- Reading can fail; the state is kept when it does. -/
abbrev Parse (α : Type) := Parsing → Except SyntaxError α × Parsing

namespace Parse

variable {α β : Type}

def pure (x : α) : Parse α := fun s => (.ok x, s)

def bind (p : Parse α) (f : α → Parse β) : Parse β := fun s =>
  match p s with
  | (.ok x, s) => f x s
  | (.error e, s) => (.error e, s)

instance : Monad Parse where
  pure := pure
  bind := bind

def fail (wanted : Wanted) (found : Option Token) : Parse α := fun s =>
  (.error ⟨wanted, (found.map Token.source).getD []⟩, s)

def peek : Parse (Option Token) := fun s => (.ok s.tokens.head?, s)

def next : Parse (Option Token) := fun s => (.ok s.tokens.head?, { s with tokens := s.tokens.tail })

def skip : Parse Unit := fun s => (.ok (), { s with tokens := s.tokens.tail })

def taken (text : String) : Parse Bool := fun s =>
  match s.tokens with
  | t :: ts =>
    if t.isSymbol text || t.isWord text then (.ok true, { s with tokens := ts }) else (.ok false, s)
  | [] => (.ok false, s)

def just (text : String) : Parse Unit := fun s =>
  match s.tokens with
  | t :: ts =>
    if t.isSymbol text || t.isWord text then (.ok (), { s with tokens := ts })
    else (.error ⟨.exactly text, t.source⟩, s)
  | [] => (.error ⟨.exactly text, []⟩, s)

/-- Reads `tokens` to their end, which is the token `last` if that is not empty. Errors are kept,
and `default` stands for what could not be read. -/
def finish (last : String) (default : α) (p : Parse α) : Parsing → α × List SyntaxError := fun s =>
  match p s with
  | (.error e, s) => (default, e :: s.errors)
  | (.ok x, s) =>
    match s.tokens with
    | [] => if last.isEmpty then (x, s.errors) else (default, ⟨.exactly last, []⟩ :: s.errors)
    | t :: ts =>
      if !last.isEmpty && t.isSymbol last && ts.isEmpty then (x, s.errors)
      else
        let wanted := if last.isEmpty then Wanted.nothing else .exactly last
        (default, ⟨wanted, t.source⟩ :: s.errors)

def within (tokens : List Token) (last : String) (default : α) (p : Parse α) : Parse α := fun s =>
  let (x, errors) := finish last default p ⟨tokens, s.errors⟩
  (.ok x, { s with errors := errors })

def separated (separator last : String) (wanted : Wanted) (trailing : Bool) (item : Parse α) :
    Nat → List α → Parse (List α)
  | 0, acc => Parse.pure acc.reverse
  | fuel + 1, acc => do
    let x ← item
    match ← next with
    | some t =>
      if t.isSymbol last then return (x :: acc).reverse
      else if t.isSymbol separator then
        let ended ← if trailing then taken last else pure false
        if ended then return (x :: acc).reverse
        else separated separator last wanted trailing item fuel (x :: acc)
      else fail wanted (some t)
    | none => fail wanted none

def arguments (fuel : Nat) (item : Parse α) : Parse (List α) := do
  match ← peek with
  | some (.block _ '(' ts) =>
    skip
    within ts "" [] (separated ";" ")" .semicolonOrParen false item fuel [])
  | _ => return []

end Parse

namespace Term

open Parse

def variableName : Parse String := do
  match ← next with
  | some (.var x) => return x
  | found => fail .var found

def argumentName : Parse String := do
  match ← next with
  | some (.word x) | some (.var x) => return x
  | found => fail .argument found

def operator? (withComma : Bool) : Parse (Option Operator) := do
  match ← peek with
  | some (.word "and") => skip; return some .and
  | some (.word "or") => skip; return some .or
  | some (.symbol s) =>
    match Operator.ofSymbol? s with
    | some op =>
      if op == .comma && !withComma then return none
      else skip; return some op
    | none => return none
  | _ => return none

def questions : Nat → Parse Nat
  | 0 => Parse.pure 0
  | fuel + 1 => do
    if ← taken "?" then return (← questions fuel) + 1 else return 0

def attempts : Nat → Term → Term
  | 0, t => t
  | n + 1, t => attempts n (.attempt t none)

mutual

/-- A whole term; the operator `,` is left out inside object values. -/
def term : Nat → Bool → Parse Term
  | 0, _ => fail .term none
  | fuel + 1, withComma => do
    let head ← atom fuel
    let chain ← operands fuel withComma []
    let t := grouped (chain.length + 1) head chain
    if ← taken "|" then return .pipe t (← term fuel withComma)
    else if ← taken "as" then
      let p ← pattern fuel
      just "|"
      return .bind t p (← term fuel withComma)
    else return t

def operands : Nat → Bool → List (Operator × Term) → Parse (List (Operator × Term))
  | 0, _, acc => Parse.pure acc.reverse
  | fuel + 1, withComma, acc => do
    match ← operator? withComma with
    | none => return acc.reverse
    | some op =>
      let t ← atom fuel
      operands fuel withComma ((op, t) :: acc)

def atom : Nat → Parse Term
  | 0 => fail .term none
  | fuel + 1 => do
    match ← next with
    | some (.symbol "-") => steps fuel (.negate (← atom fuel)) []
    | some (.symbol "..") => steps fuel .recurse []
    | some (.symbol ".") =>
      match ← key? fuel with
      | some k =>
        let optional := (← questions fuel) > 0
        steps fuel .identity [.index k optional]
      | none => steps fuel .identity []
    | some (.symbol s) =>
      match s.toList with
      | '.' :: name =>
        let optional := (← questions fuel) > 0
        steps fuel .identity [.index (.text (String.ofList name)) optional]
      | _ => fail .term (some (.symbol s))
    | some (.word "def") =>
      let d ← definition fuel
      return .define d (← term fuel true)
    | some (.word "if") =>
      let c ← term fuel true
      just "then"
      let t ← term fuel true
      steps fuel (← branches fuel [(c, t)]) []
    | some (.word "try") =>
      let t ← atom fuel
      if ← taken "catch" then steps fuel (.attempt t (some (← atom fuel))) []
      else steps fuel (.attempt t none) []
    | some (.word "label") =>
      let x ← variableName
      just "|"
      return .label x (← term fuel true)
    | some (.word "break") => steps fuel (.breakTo (← variableName)) []
    | some (.word "reduce") => steps fuel (← folding fuel "reduce") []
    | some (.word "foreach") => steps fuel (← folding fuel "foreach") []
    | some (.word name) => steps fuel (.call name (← arguments fuel (term fuel true))) []
    | some (.var x) => steps fuel (.var x) []
    | some (.format f) =>
      match ← peek with
      | some (.string _ parts) =>
        skip
        steps fuel (.string (some f) (← stringParts fuel parts [])) []
      | _ => steps fuel (.call f (← arguments fuel (term fuel true))) []
    | some (.number n) => steps fuel (.number n) []
    | some (.string _ parts) => steps fuel (.string none (← stringParts fuel parts [])) []
    | some (.block _ '(' ts) => steps fuel (← within ts ")" .identity (term fuel true)) []
    | some (.block _ '[' [_]) => steps fuel (.array none) []
    | some (.block _ '[' ts) =>
      steps fuel (.array (some (← within ts "]" .identity (term fuel true)))) []
    | some (.block _ _ ts) => steps fuel (.object (← within ts "" [] (entries fuel))) []
    | none => fail .term none

def steps : Nat → Term → List PathPart → Parse Term
  | 0, t, _ => Parse.pure t
  | fuel + 1, t, [] => do
    let t := attempts (← questions fuel) t
    let parts ← pathParts fuel []
    return if parts.isEmpty then t else .path t parts
  | fuel + 1, t, first => do
    return .path t (← pathParts fuel first)

def pathParts : Nat → List PathPart → Parse (List PathPart)
  | 0, acc => Parse.pure acc.reverse
  | fuel + 1, acc => do
    match ← peek with
    | some (.block _ '[' ts) =>
      skip
      let part ← within ts "]" (.range none none false) (bracketed fuel)
      let optional := (← questions fuel) > 0
      let part := match part with
        | .index i _ => PathPart.index i optional
        | .range a b _ => .range a b optional
      pathParts fuel (part :: acc)
    | some (.symbol ".") =>
      skip
      match ← key? fuel with
      | some k =>
        let optional := (← questions fuel) > 0
        pathParts fuel (.index k optional :: acc)
      | none => fail .key (← next)
    | some (.symbol s) =>
      match s.toList with
      | '.' :: c :: name =>
        if c = '.' then return acc.reverse
        else
          skip
          let optional := (← questions fuel) > 0
          pathParts fuel (.index (.text (String.ofList (c :: name))) optional :: acc)
      | _ => return acc.reverse
    | _ => return acc.reverse

def bracketed : Nat → Parse PathPart
  | 0 => fail .term none
  | fuel + 1 => do
    if (← peek).map (·.isSymbol "]") == some true then return .range none none false
    else if ← taken ":" then return .range none (some (← term fuel true)) false
    else
      let t ← term fuel true
      if ← taken ":" then
        if (← peek).map (·.isSymbol "]") == some true then return .range (some t) none false
        else return .range (some t) (some (← term fuel true)) false
      else return .index t false

def key? : Nat → Parse (Option Term)
  | 0 => Parse.pure none
  | fuel + 1 => do
    match ← (fun s => (.ok (s.tokens.take 2), s) : Parse (List Token)) with
    | .string _ parts :: _ =>
      skip
      return some (.string none (← stringParts fuel parts []))
    | [.format f, .string _ parts] =>
      skip
      skip
      return some (.string (some f) (← stringParts fuel parts []))
    | _ => return none

def stringParts : Nat → List TokenPart → List StringPart → Parse (List StringPart)
  | 0, _, acc => Parse.pure acc.reverse
  | _ + 1, [], acc => Parse.pure acc.reverse
  | fuel + 1, .text s :: ps, acc => stringParts fuel ps (.text s :: acc)
  | fuel + 1, .filter _ ts :: ps, acc => do
    let t ← within ts ")" .identity (term fuel true)
    stringParts fuel ps (.filter t :: acc)

def branches : Nat → List (Term × Term) → Parse Term
  | 0, acc => Parse.pure (.cond acc.reverse none)
  | fuel + 1, acc => do
    match ← next with
    | some (.word "elif") =>
      let c ← term fuel true
      just "then"
      let t ← term fuel true
      branches fuel ((c, t) :: acc)
    | some (.word "else") =>
      let t ← term fuel true
      just "end"
      return .cond acc.reverse (some t)
    | some (.word "end") => return .cond acc.reverse none
    | found => fail .elseOrEnd found

def folding : Nat → String → Parse Term
  | 0, _ => fail .term none
  | fuel + 1, name => do
    let xs ← atom fuel
    just "as"
    let p ← pattern fuel
    return .fold name xs p (← arguments fuel (term fuel true))

def entries : Nat → Parse (List (Term × Option Term))
  | 0 => Parse.pure []
  | fuel + 1 => do
    if ← taken "\x7d" then return []
    else separated "," "\x7d" .commaOrBrace true (entry fuel) fuel []

def entry : Nat → Parse (Term × Option Term)
  | 0 => fail .key none
  | fuel + 1 => do
    match ← key? fuel with
    | some k => entryValue fuel k
    | none =>
      match ← next with
      | some (.word k) => entryValue fuel (.text k)
      | some (.var x) => entryValue fuel (.var x)
      | some (.block _ '(' ts) =>
        let k ← within ts ")" .identity (term fuel true)
        just ":"
        return (k, some (← term fuel false))
      | found => fail .key found

def entryValue : Nat → Term → Parse (Term × Option Term)
  | 0, k => Parse.pure (k, none)
  | fuel + 1, k => do
    if ← taken ":" then return (k, some (← term fuel false)) else return (k, none)

def pattern : Nat → Parse Pattern
  | 0 => fail .pattern none
  | fuel + 1 => do
    match ← next with
    | some (.var x) => return .var x
    | some (.block _ '[' ts) =>
      let ps ← within ts "" [] (separated "," "]" .commaOrBracket false (pattern fuel) fuel [])
      return .parts ((List.range ps.length).zipWith (fun i p => (.number (toString i), p)) ps)
    | some (.block _ '\x7b' ts) =>
      let entries := separated "," "\x7d" .commaOrBrace true (patternEntry fuel) fuel []
      return .parts (← within ts "" [] entries)
    | found => fail .pattern found

def patternEntry : Nat → Parse (Term × Pattern)
  | 0 => fail .key none
  | fuel + 1 => do
    match ← key? fuel with
    | some k =>
      just ":"
      return (k, ← pattern fuel)
    | none =>
      match ← next with
      | some (.var x) => return (.text (bareName x), .var x)
      | some (.word k) =>
        just ":"
        return (.text k, ← pattern fuel)
      | some (.block _ '(' ts) =>
        let k ← within ts ")" .identity (term fuel true)
        just ":"
        return (k, ← pattern fuel)
      | found => fail .key found

def definition : Nat → Parse Definition
  | 0 => fail .identifier none
  | fuel + 1 => do
    let name ← (do
      match ← next with
      | some (.word n) | some (.format n) => return n
      | found => fail .identifier found)
    let params ← arguments fuel argumentName
    just ":"
    let body ← term fuel true
    just ";"
    return .mk name params body

end

end Term

inductive Import
  | program (path : String)
  | data (path name : String)
deriving DecidableEq, Repr

structure Source where
  imports : List Import
  term : Term

namespace Source

open Parse Term

def plainString : Parse String := do
  match ← next with
  | some (.string _ []) => return ""
  | some (.string _ [.text s]) => return s
  | found => fail .string found

def rest (fuel : Nat) : Parse Unit := do
  if ← taken ";" then return ()
  else
    let _ ← Term.term fuel true
    just ";"

def importsBefore (fuel : Nat) : Nat → List Import → Parse (List Import)
  | 0, acc => Parse.pure acc.reverse
  | n + 1, acc => do
    if ← taken "include" then
      let path ← plainString
      rest fuel
      importsBefore fuel n (.program path :: acc)
    else if ← taken "import" then
      let path ← plainString
      just "as"
      let item ← (do
        match ← next with
        | some (.word _) => return Import.program path
        | some (.var x) => return .data path x
        | found => fail .identifier found)
      rest fuel
      importsBefore fuel n (item :: acc)
    else return acc.reverse

def module (fuel : Nat) : Parse Source := do
  if ← taken "module" then
    let _ ← Term.term fuel true
    just ";"
  let is ← importsBefore fuel fuel []
  return ⟨is, ← Term.term fuel true⟩

/-- Steps that reading a source of this length can take. -/
def steps (source : List Char) : Nat := 8 * source.length + 16

def parse (source : List Char) : Except (List SyntaxError) Source := do
  let ts ← lex source
  match finish "" ⟨[], .identity⟩ (module (steps source)) ⟨ts, []⟩ with
  | (x, []) => .ok x
  | (_, es) => .error es.reverse

end Source

namespace Definition

open Parse

def many (fuel : Nat) : Nat → List Definition → Parse (List Definition)
  | 0, acc => Parse.pure acc.reverse
  | n + 1, acc => do
    if ← taken "def" then many fuel n ((← Term.definition fuel) :: acc) else return acc.reverse

def parse (source : List Char) : Except (List SyntaxError) (List Definition) := do
  let ts ← lex source
  let fuel := Source.steps source
  match finish "" [] (many fuel fuel []) ⟨ts, []⟩ with
  | (x, []) => .ok x
  | (_, es) => .error es.reverse

end Definition

end JsonFilter.Filter
