import JsonFilter.Filter.SyntaxError
import JsonFilter.Filter.Token.Basic
import JsonFilter.Text.Quoted

namespace JsonFilter.Filter

/-- The source that is left, and the errors so far, the most recent first. -/
structure Lexing where
  input : List Char
  errors : List SyntaxError := []

namespace Lexing

def fail (s : Lexing) (wanted : Wanted) : Lexing :=
  { s with errors := ⟨wanted, s.input⟩ :: s.errors }

def isNameStart (c : Char) : Bool := c.isAlpha || c = '_'

def isNamePart (c : Char) : Bool := c.isAlphanum || c = '_'

def isOperator (c : Char) : Bool := "|=!<>+-*/%".toList.contains c

/-- Whether a line goes on after its line feed: it ends in an odd number of backslashes. -/
def continues (line : List Char) : Bool :=
  let line := match line.reverse with
    | '\r' :: r => r
    | r => r
  (line.takeWhile (· = '\\')).length % 2 = 1

def skipComment : Nat → List Char → List Char
  | 0, cs => cs
  | fuel + 1, cs =>
    let (line, rest) := cs.span (· != '\n')
    if continues line then skipComment fuel (rest.drop 1) else rest.drop 1

def skipSpace : Nat → List Char → List Char
  | 0, cs => cs
  | fuel + 1, cs =>
    match Blank.trimStart cs with
    | '#' :: rest => skipSpace fuel (skipComment (rest.length + 1) rest)
    | rest => rest

def space (s : Lexing) : Lexing := { s with input := skipSpace (s.input.length + 1) s.input }

def digits (s : Lexing) : Lexing :=
  match s.input with
  | c :: cs => if c.isDigit then { s with input := cs.dropWhile Char.isDigit } else s.fail .digit
  | [] => s.fail .digit

def number (s : Lexing) : Lexing :=
  let s := { s with input := s.input.dropWhile Char.isDigit }
  let s := match s.input with
    | '.' :: cs => digits { s with input := cs }
    | _ => s
  match s.input with
  | 'e' :: '+' :: cs | 'E' :: '+' :: cs | 'e' :: '-' :: cs | 'E' :: '-' :: cs
  | 'e' :: cs | 'E' :: cs => digits { s with input := cs }
  | _ => s

def nameRest (s : Lexing) : Lexing := { s with input := s.input.dropWhile isNamePart }

def name (s : Lexing) : Lexing :=
  match s.input with
  | c :: _ => if isNameStart c then s.nameRest else s.fail .identifier
  | [] => s.fail .identifier

def qualified (s : Lexing) : Lexing :=
  let s := s.nameRest
  match s.input with
  | ':' :: ':' :: '@' :: cs | ':' :: ':' :: '$' :: cs | ':' :: ':' :: cs =>
    name { s with input := cs }
  | _ => s

def consumed (start : List Char) (s : Lexing) : List Char :=
  start.take (start.length - s.input.length)

def consumedText (start : List Char) (s : Lexing) : String := String.ofList (consumed start s)

/-- Up to four hexadecimal digits, with the number of digits that are missing. -/
def hexDigits : Nat → Nat → List Char → Nat × Nat × List Char
  | 0, n, cs => (n, 0, cs)
  | k + 1, n, [] => (n, k + 1, [])
  | k + 1, n, c :: cs =>
    match Quoted.hexValue? c with
    | some d => hexDigits k (n * 16 + d) cs
    | none => (n, k + 1, c :: cs)

/-- The code point of an escape behind its `u`. Surrogates are none. -/
def codePoint (s : Lexing) : Option Char × Lexing :=
  let (n, missing, rest) := hexDigits 4 0 s.input
  if missing > 0 then (none, { s with input := rest }.fail .codePoint)
  else if n.isValidChar then (some (Char.ofNat n), { s with input := rest })
  else (none, s.fail .codePoint)

def escaped (s : Lexing) : Option Char × Lexing :=
  let letter (c : Char) (cs : List Char) : Option Char × Lexing := (some c, { s with input := cs })
  match s.input with
  | '\\' :: cs => letter '\\' cs
  | '/' :: cs => letter '/' cs
  | '"' :: cs => letter '"' cs
  | 'b' :: cs => letter '\x08' cs
  | 'f' :: cs => letter '\x0c' cs
  | 'n' :: cs => letter '\n' cs
  | 'r' :: cs => letter '\r' cs
  | 't' :: cs => letter '\t' cs
  | 'u' :: cs => codePoint { s with input := cs }
  | _ => (none, s.fail .escape)

def closingOf : Char → Char
  | '(' => ')'
  | '[' => ']'
  | _ => '\x7d'

mutual

def tokens : Nat → Lexing → List Token → List Token × Lexing
  | 0, s, acc => (acc.reverse, s)
  | fuel + 1, s, acc =>
    match token fuel s.space with
    | (some t, s) => tokens fuel s (t :: acc)
    | (none, s) => (acc.reverse, s)

def token : Nat → Lexing → Option Token × Lexing
  | 0, s => (none, s)
  | fuel + 1, s =>
    match s.input with
    | [] => (none, s)
    | '.' :: '.' :: cs => (some (.symbol ".."), { s with input := cs })
    | '.' :: cs =>
      let t := { s with input := cs }
      let t := if (cs.head?.map isNameStart).getD false then t.nameRest else t
      (some (.symbol (consumedText s.input t)), t)
    | '$' :: cs =>
      let t := name { s with input := cs }
      (some (.var (consumedText s.input t)), t)
    | '@' :: cs =>
      let t := name { s with input := cs }
      (some (.format (consumedText s.input t)), t)
    | '"' :: cs =>
      let (parts, t) := stringParts fuel { s with input := cs } [] []
      (some (.string (consumed s.input t) parts), t)
    | c :: cs =>
      if c = '(' ∨ c = '[' ∨ c = '\x7b' then
        let (ts, t) := block fuel c { s with input := cs }
        (some (.block (consumed s.input t) c ts), t)
      else if isNameStart c then
        let t := s.qualified
        (some (.word (consumedText s.input t)), t)
      else if c.isDigit then
        let t := s.number
        (some (.number (consumedText s.input t)), t)
      else if isOperator c then
        let t := { s with input := cs.dropWhile fun d => isOperator d && d != '-' }
        (some (.symbol (consumedText s.input t)), t)
      else if c = ':' ∨ c = ';' ∨ c = ',' ∨ c = '?' then
        (some (.symbol (String.ofList [c])), { s with input := cs })
      else (none, s)

def block : Nat → Char → Lexing → List Token × Lexing
  | 0, _, s => ([], s)
  | fuel + 1, opening, s =>
    let (ts, s) := tokens fuel s []
    let s := s.space
    match s.input with
    | c :: cs =>
      if c = closingOf opening then (ts ++ [.symbol (String.ofList [c])], { s with input := cs })
      else (ts, s.fail (.closing opening))
    | [] => (ts, s.fail (.closing opening))

/-- The parts of a string behind its opening quote; `run` is the text since the last part. -/
def stringParts : Nat → Lexing → List Char → List TokenPart → List TokenPart × Lexing
  | 0, s, _, acc => (acc.reverse, s)
  | fuel + 1, s, run, acc =>
    let flushed := if run.isEmpty then acc else .text (String.ofList run.reverse) :: acc
    match s.input with
    | [] => (flushed.reverse, s.fail (.closing '"'))
    | '"' :: cs => (flushed.reverse, { s with input := cs })
    | '\\' :: '(' :: cs =>
      let (ts, t) := block fuel '(' { s with input := cs }
      stringParts fuel t [] (.filter (consumed ('(' :: cs) t) ts :: flushed)
    | '\\' :: cs =>
      match escaped { s with input := cs } with
      | (some c, t) => stringParts fuel t (c :: run) acc
      | (none, t) => stringParts fuel t run acc
    | c :: cs => stringParts fuel { s with input := cs } (c :: run) acc

end

end Lexing

/-- The tokens of a program, or everything that is wrong with its spelling. -/
def lex (source : List Char) : Except (List SyntaxError) (List Token) :=
  let (ts, s) := Lexing.tokens (4 * source.length + 4) ⟨source, []⟩ []
  let s := s.space
  let s := if s.input.isEmpty then s else s.fail .token
  if s.errors.isEmpty then .ok ts else .error s.errors.reverse

end JsonFilter.Filter
