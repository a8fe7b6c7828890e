import JsonFilter.Text.Quoted
import JsonFilter.Text.Utf8

namespace JsonFilter.Percent

def isPlain (c : Char) : Bool := c.isAlphanum || c = '-' || c = '_' || c = '.' || c = '~'

def hexDigit (n : Nat) : Char := (Quoted.hexDigit n).toUpper

def encodeChar (c : Char) : List Char :=
  if isPlain c then [c]
  else (Utf8.encodeChar c).flatMap fun b => ['%', hexDigit (b / 16), hexDigit (b % 16)]

def encode (s : String) : String := String.ofList (s.toList.flatMap encodeChar)

/-- The bytes of a text; a sign without two digits behind it stands for itself. -/
def bytes : List Char → List Nat
  | '%' :: a :: b :: rest =>
    match Quoted.hexValue? a, Quoted.hexValue? b with
    | some x, some y => (x * 16 + y) :: bytes rest
    | _, _ => '%'.toNat :: bytes (a :: b :: rest)
  | c :: rest => Utf8.encodeChar c ++ bytes rest
  | [] => []

def decode (s : String) : Except Utf8.Fault String := Utf8.decode (bytes s.toList)

end JsonFilter.Percent
