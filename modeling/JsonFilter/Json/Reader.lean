import JsonFilter.Json.Numeral
import JsonFilter.Text.Quoted

namespace JsonFilter.Json

abbrev Reader (α : Type) := List Char → Except Fault (α × List Char)

def isBlank (c : Char) : Bool := c = ' ' || c = '\t' || c = '\n' || c = '\r'

def skipBlanks (cs : List Char) : List Char := cs.dropWhile isBlank

def word (expected : List Char) (cs : List Char) : Except Fault (List Char) :=
  match expected, cs with
  | [], cs => .ok cs
  | _ :: _, [] => .error (.at .eofValue [])
  | e :: es, c :: cs => if e = c then word es cs else .error (.at .expectedIdent (c :: cs))

/-- Four hexadecimal digits. Any four bytes count as taken before they are looked at. -/
def hex4 (cs : List Char) : Except Fault (Nat × List Char) :=
  if Utf8.byteCount (cs.take 4) < 4 then .error (.at .eofString [])
  else
    match cs with
    | a :: b :: c :: d :: rest =>
      match Quoted.hexValue? a, Quoted.hexValue? b, Quoted.hexValue? c, Quoted.hexValue? d with
      | some a, some b, some c, some d => .ok (((a * 16 + b) * 16 + c) * 16 + d, rest)
      | _, _, _, _ => .error ⟨.invalidEscape, cs, 4⟩
    | _ => .error ⟨.invalidEscape, cs, 4⟩

def isLeading (n : Nat) : Bool := 0xD800 ≤ n && n ≤ 0xDBFF

def isTrailing (n : Nat) : Bool := 0xDC00 ≤ n && n ≤ 0xDFFF

def trailingHalf (lead : Nat) : Reader Char
  | '\\' :: 'u' :: cs => do
    let (n, rest) ← hex4 cs
    if isTrailing n then
      return (Char.ofNat (0x10000 + (lead - 0xD800) * 0x400 + (n - 0xDC00)), rest)
    else .error (.behind .loneSurrogate rest)
  | [] => .error (.at .eofString [])
  | ['\\'] => .error (.at .eofString [])
  | '\\' :: cs => .error (.at .endOfHexEscape cs)
  | cs => .error (.at .endOfHexEscape cs)

def unicodeEscape (cs : List Char) : Except Fault (Char × List Char) := do
  let (n, rest) ← hex4 cs
  if isTrailing n then .error (.behind .loneSurrogate rest)
  else if isLeading n then trailingHalf n rest
  else return (Char.ofNat n, rest)

def escape : Reader Char
  | [] => .error (.at .eofString [])
  | '"' :: cs => .ok ('"', cs)
  | '\\' :: cs => .ok ('\\', cs)
  | '/' :: cs => .ok ('/', cs)
  | 'b' :: cs => .ok ('\x08', cs)
  | 'f' :: cs => .ok ('\x0c', cs)
  | 'n' :: cs => .ok ('\n', cs)
  | 'r' :: cs => .ok ('\r', cs)
  | 't' :: cs => .ok ('\t', cs)
  | 'u' :: cs => unicodeEscape cs
  | c :: cs => .error (.at .invalidEscape (c :: cs))

/-- The characters of a string up to its closing quote, most recent first in `acc`. The fuel bounds
the characters left. -/
def stringChars : Nat → List Char → Reader (List Char)
  | 0, _, _ => .error (.at .eofString [])
  | _ + 1, _, [] => .error (.at .eofString [])
  | fuel + 1, acc, c :: cs =>
    if c = '"' then .ok (acc.reverse, cs)
    else if c = '\\' then
      match escape cs with
      | .ok (e, rest) => stringChars fuel (e :: acc) rest
      | .error f => .error f
    else if c.toNat < 0x20 then .error (.at .controlCharacter (c :: cs))
    else stringChars fuel (c :: acc) cs

def string (fuel : Nat) (cs : List Char) : Except Fault (String × List Char) := do
  let (s, rest) ← stringChars fuel [] cs
  return (String.ofList s, rest)

def itemsAfter (item : Reader Json) : Nat → List Json → Reader (List Json)
  | 0, _, _ => .error (.at .eofList [])
  | fuel + 1, acc, cs =>
    match skipBlanks cs with
    | ']' :: rest => .ok (acc.reverse, rest)
    | ',' :: rest =>
      match skipBlanks rest with
      | [] => .error (.at .eofValue [])
      | ']' :: more => .error (.at .trailingComma (']' :: more))
      | more =>
        match item more with
        | .ok (x, rest) => itemsAfter item fuel (x :: acc) rest
        | .error f => .error f
    | [] => .error (.at .eofList [])
    | other => .error (.at .expectedListComma other)

def items (item : Reader Json) (fuel : Nat) (cs : List Char) :
    Except Fault (List Json × List Char) :=
  match skipBlanks cs with
  | [] => .error (.at .eofList [])
  | ']' :: rest => .ok ([], rest)
  | more =>
    match item more with
    | .ok (x, rest) => itemsAfter item fuel [x] rest
    | .error f => .error f

def memberValue (item : Reader Json) (cs : List Char) : Except Fault (Json × List Char) :=
  match skipBlanks cs with
  | ':' :: rest => item rest
  | [] => .error (.at .eofObject [])
  | other => .error (.at .expectedColon other)

def member (item : Reader Json) (fuel : Nat) (cs : List Char) :
    Except Fault ((String × Json) × List Char) := do
  let (key, rest) ← string fuel cs
  let (value, rest) ← memberValue item rest
  return ((key, value), rest)

def membersAfter (item : Reader Json) : Nat → Members Json → Reader (Members Json)
  | 0, _, _ => .error (.at .eofObject [])
  | fuel + 1, acc, cs =>
    match skipBlanks cs with
    | '\x7d' :: rest => .ok (acc, rest)
    | ',' :: rest =>
      match skipBlanks rest with
      | [] => .error (.at .eofValue [])
      | '"' :: more =>
        match member item fuel more with
        | .ok ((k, v), rest) => membersAfter item fuel (acc.put k v) rest
        | .error f => .error f
      | '\x7d' :: more => .error (.at .trailingComma ('\x7d' :: more))
      | more => .error (.at .keyNotString more)
    | [] => .error (.at .eofObject [])
    | other => .error (.at .expectedObjectComma other)

def members (item : Reader Json) (fuel : Nat) (cs : List Char) :
    Except Fault (Members Json × List Char) :=
  match skipBlanks cs with
  | [] => .error (.at .eofObject [])
  | '\x7d' :: rest => .ok ([], rest)
  | '"' :: more =>
    match member item fuel more with
    | .ok ((k, v), rest) => membersAfter item fuel (Members.put [] k v) rest
    | .error f => .error f
  | more => .error (.at .keyNotString more)

def scalar (fuel : Nat) : Reader Json
  | [] => .error (.at .eofValue [])
  | 'n' :: cs => do return (.null, ← word "ull".toList cs)
  | 't' :: cs => do return (.bool true, ← word "rue".toList cs)
  | 'f' :: cs => do return (.bool false, ← word "alse".toList cs)
  | '"' :: cs => do
    let (s, rest) ← string fuel cs
    return (.str s, rest)
  | c :: cs =>
    if c = '-' ∨ c.isDigit then do
      let (n, rest) ← readNumber (c :: cs)
      return (.num n, rest)
    else .error (.at .expectedValue (c :: cs))

/-- A value with at most `depth` containers inside each other. The fuel bounds the input left. -/
def value (fuel : Nat) : Nat → Reader Json
  | 0, cs =>
    match skipBlanks cs with
    | '[' :: rest => .error (.at .depthLimit ('[' :: rest))
    | '\x7b' :: rest => .error (.at .depthLimit ('\x7b' :: rest))
    | other => scalar fuel other
  | depth + 1, cs =>
    match skipBlanks cs with
    | '[' :: rest => do
      let (xs, rest) ← items (value fuel depth) fuel rest
      return (.arr xs, rest)
    | '\x7b' :: rest => do
      let (ms, rest) ← members (value fuel depth) fuel rest
      return (.obj ms, rest)
    | other => scalar fuel other

def depthLimit : Nat := 127

def finish {α : Type} : α × List Char → Except Fault α
  | (x, cs) =>
    match skipBlanks cs with
    | [] => .ok x
    | other => .error (.at .trailingCharacters other)

def ofChars (cs : List Char) : Except Fault Json := do
  finish (← value (cs.length + 1) depthLimit cs)

def ofText (text : String) : Except Fault Json := ofChars text.toList

end JsonFilter.Json
