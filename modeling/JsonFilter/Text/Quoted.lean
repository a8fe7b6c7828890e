namespace JsonFilter.Quoted

def hexDigit (n : Nat) : Char :=
  if n < 10 then Char.ofNat ('0'.toNat + n) else Char.ofNat ('a'.toNat + (n - 10))

def hexValue? (c : Char) : Option Nat :=
  if '0' ≤ c ∧ c ≤ '9' then some (c.toNat - '0'.toNat)
  else if 'a' ≤ c ∧ c ≤ 'f' then some (c.toNat - 'a'.toNat + 10)
  else if 'A' ≤ c ∧ c ≤ 'F' then some (c.toNat - 'A'.toNat + 10)
  else none

def unicodeEscape (c : Char) : List Char :=
  ['\\', 'u', '0', '0', hexDigit (c.toNat / 16), hexDigit (c.toNat % 16)]

def letter? : Char → Option Char
  | '\n' => some 'n'
  | '\r' => some 'r'
  | '\t' => some 't'
  | '\x08' => some 'b'
  | '\x0c' => some 'f'
  | _ => none

def plainLetter? : Char → Option Char
  | '\n' => some 'n'
  | '\r' => some 'r'
  | '\t' => some 't'
  | _ => none

def escapeWith (letter : Char → Option Char) (c : Char) : List Char :=
  if c = '"' ∨ c = '\\' then ['\\', c]
  else if c.toNat < 0x20 then
    match letter c with
    | some l => ['\\', l]
    | none => unicodeEscape c
  else [c]

def quoteWith (letter : Char → Option Char) (s : List Char) : List Char :=
  '"' :: (s.flatMap (escapeWith letter) ++ ['"'])

def document (s : String) : List Char := quoteWith letter? s.toList

def plain (s : String) : List Char := quoteWith plainLetter? s.toList

end JsonFilter.Quoted
