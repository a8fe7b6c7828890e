import JsonFilter.Value.Error

namespace JsonFilter.Value

inductive ReadFault
  | value | valueOrEnd | commaOrEnd | string | colon | endOfText | digit
  | unterminated | control | escape | hex | surrogate
deriving DecidableEq, Repr

def ReadFault.text : ReadFault → String
  | .value => "value expected"
  | .valueOrEnd => "value or end of sequence expected"
  | .commaOrEnd => "comma or end of sequence expected"
  | .string => "string expected"
  | .colon => "colon expected"
  | .endOfText => "end of file expected"
  | .digit => "expected digit"
  | .unterminated => "unterminated string"
  | .control => "invalid string control character"
  | .escape => "unknown escape sequence type"
  | .hex => "invalid hexadecimal sequence"
  | .surrogate => "expected low surrogate"

namespace Reader

def digits (taken : List Char) (cs : List Char) : Except ReadFault (List Char × List Char) :=
  match cs.span Char.isDigit with
  | ([], _) => .error .digit
  | (ds, rest) => .ok (ds.reverse ++ taken, rest)

def whole (taken : List Char) : List Char → Except ReadFault (List Char × List Char)
  | '0' :: rest => .ok ('0' :: taken, rest)
  | cs => digits taken cs

def fraction (taken : List Char) : List Char → Except ReadFault (List Char × List Char)
  | '.' :: rest => digits ('.' :: taken) rest
  | cs => .ok (taken, cs)

def exponent (taken : List Char) : List Char → Except ReadFault (List Char × List Char)
  | e :: s :: rest =>
    if e = 'e' ∨ e = 'E' then
      if s = '+' ∨ s = '-' then digits (s :: e :: taken) rest else digits (e :: taken) (s :: rest)
    else .ok (taken, e :: s :: rest)
  | [e] => if e = 'e' ∨ e = 'E' then .error .digit else .ok (taken, [e])
  | [] => .ok (taken, [])

def number (cs : List Char) : Except ReadFault (Value × List Char) := do
  let (taken, rest) ← match cs with
    | '-' :: rest => whole ['-'] rest
    | cs => whole [] cs
  let (taken, rest) ← fraction taken rest
  let (taken, rest) ← exponent taken rest
  return (.ofNumeral taken.reverse, rest)

def hex4 : List Char → Except ReadFault (Nat × List Char)
  | a :: b :: c :: d :: rest =>
    match Quoted.hexValue? a, Quoted.hexValue? b, Quoted.hexValue? c, Quoted.hexValue? d with
    | some a, some b, some c, some d => .ok (((a * 16 + b) * 16 + c) * 16 + d, rest)
    | _, _, _, _ => .error .hex
  | _ => .error .hex

def unicode (cs : List Char) : Except ReadFault (Char × List Char) := do
  let (n, rest) ← hex4 cs
  if Json.isLeading n then
    match rest with
    | '\\' :: 'u' :: rest => do
      let (m, rest) ← hex4 rest
      if Json.isTrailing m then
        return (Char.ofNat (0x10000 + (n - 0xD800) * 0x400 + (m - 0xDC00)), rest)
      else .error .surrogate
    | _ => .error .surrogate
  else if Json.isTrailing n then .error .surrogate
  else return (Char.ofNat n, rest)

def escape : List Char → Except ReadFault (Char × List Char)
  | [] => .error .unterminated
  | '"' :: cs => .ok ('"', cs)
  | '\\' :: cs => .ok ('\\', cs)
  | '/' :: cs => .ok ('/', cs)
  | 'b' :: cs => .ok ('\x08', cs)
  | 'f' :: cs => .ok ('\x0c', cs)
  | 'n' :: cs => .ok ('\n', cs)
  | 'r' :: cs => .ok ('\r', cs)
  | 't' :: cs => .ok ('\t', cs)
  | 'u' :: cs => unicode cs
  | _ => .error .escape

def stringChars : Nat → List Char → List Char → Except ReadFault (List Char × List Char)
  | 0, _, _ => .error .unterminated
  | _ + 1, _, [] => .error .unterminated
  | fuel + 1, acc, c :: cs =>
    if c = '"' then .ok (acc.reverse, cs)
    else if c = '\\' then
      match escape cs with
      | .ok (e, rest) => stringChars fuel (e :: acc) rest
      | .error f => .error f
    else if c.toNat < 0x20 then .error .control
    else stringChars fuel (c :: acc) cs

def string (cs : List Char) : Except ReadFault (String × List Char) := do
  let (s, rest) ← stringChars (cs.length + 1) [] cs
  return (String.ofList s, rest)

mutual

def value : Nat → List Char → Except ReadFault (Value × List Char)
  | 0, _ => .error .value
  | fuel + 1, cs =>
    match cs with
    | 'n' :: 'u' :: 'l' :: 'l' :: rest => .ok (.null, rest)
    | 't' :: 'r' :: 'u' :: 'e' :: rest => .ok (.bool true, rest)
    | 'f' :: 'a' :: 'l' :: 's' :: 'e' :: rest => .ok (.bool false, rest)
    | '"' :: rest => do
      let (s, rest) ← string rest
      return (.str s, rest)
    | '[' :: rest =>
      match Json.skipBlanks rest with
      | [] => .error .valueOrEnd
      | ']' :: rest => .ok (.arr [], rest)
      | rest => items fuel [] rest
    | '\x7b' :: rest =>
      match Json.skipBlanks rest with
      | [] => .error .valueOrEnd
      | '\x7d' :: rest => .ok (.obj [], rest)
      | rest => members fuel [] rest
    | c :: _ => if c = '-' ∨ c.isDigit then number cs else .error .value
    | [] => .error .value

def items : Nat → List Value → List Char → Except ReadFault (Value × List Char)
  | 0, _, _ => .error .commaOrEnd
  | fuel + 1, acc, cs => do
    let (x, rest) ← value fuel cs
    match Json.skipBlanks rest with
    | ']' :: rest => return (.arr (x :: acc).reverse, rest)
    | ',' :: rest => items fuel (x :: acc) (Json.skipBlanks rest)
    | _ => .error .commaOrEnd

def members : Nat → Members Value → List Char → Except ReadFault (Value × List Char)
  | 0, _, _ => .error .commaOrEnd
  | fuel + 1, acc, cs =>
    match cs with
    | [] => .error .value
    | '"' :: rest => do
      let (k, rest) ← string rest
      match Json.skipBlanks rest with
      | ':' :: rest => do
        let (x, rest) ← value fuel (Json.skipBlanks rest)
        match Json.skipBlanks rest with
        | '\x7d' :: rest => return (.obj (acc.put k x), rest)
        | ',' :: rest => members fuel (acc.put k x) (Json.skipBlanks rest)
        | _ => .error .commaOrEnd
      | _ => .error .colon
    | _ => .error .string

end

end Reader

def read (text : String) : Except ReadFault Value := do
  let cs := Json.skipBlanks text.toList
  let (v, rest) ← Reader.value (cs.length + 1) cs
  if (Json.skipBlanks rest).isEmpty then return v else .error .endOfText

def ofText (text : String) : Except EvalError Value :=
  (read text).mapError fun f => .text ("cannot parse " ++ text ++ " as JSON: " ++ f.text)

end JsonFilter.Value
