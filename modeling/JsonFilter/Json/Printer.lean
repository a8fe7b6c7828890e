import JsonFilter.Json.Basic
import JsonFilter.Text.Quoted
import JsonFilter.Decimal.Layout

namespace JsonFilter

/-- Floats in documents: positions from `10 ^ -5` up to below `10 ^ 16`, signed exponents beyond. -/
def Json.decimals : DecimalLayout := ⟨-5, 15, true⟩

def Number.chars : Number → List Char
  | .int i => Decimal.intChars i
  | .float x => (Json.decimals.float? x).getD "null".toList

namespace Json

/-- A new line at the given depth in the indented layout, nothing in the compact one. -/
def lineBreak (pretty : Bool) (depth : Nat) : List Char :=
  if pretty then '\n' :: List.replicate (2 * depth) ' ' else []

def colon (pretty : Bool) : List Char := if pretty then [':', ' '] else [':']

mutual

def chars (pretty : Bool) (depth : Nat) : Json → List Char
  | .null => "null".toList
  | .bool true => "true".toList
  | .bool false => "false".toList
  | .num n => n.chars
  | .str s => Quoted.document s
  | .arr [] => ['[', ']']
  | .arr (x :: xs) =>
    '[' :: (lineBreak pretty (depth + 1) ++ x.chars pretty (depth + 1) ++
      itemsChars pretty (depth + 1) xs ++ lineBreak pretty depth ++ [']'])
  | .obj [] => ['\x7b', '\x7d']
  | .obj ((k, x) :: xs) =>
    '\x7b' :: (lineBreak pretty (depth + 1) ++ Quoted.document k ++ colon pretty ++
      x.chars pretty (depth + 1) ++ membersChars pretty (depth + 1) xs ++
      lineBreak pretty depth ++ ['\x7d'])

def itemsChars (pretty : Bool) (depth : Nat) : List Json → List Char
  | [] => []
  | x :: xs => ',' :: (lineBreak pretty depth ++ x.chars pretty depth ++ itemsChars pretty depth xs)

def membersChars (pretty : Bool) (depth : Nat) : List (String × Json) → List Char
  | [] => []
  | (k, x) :: xs =>
    ',' :: (lineBreak pretty depth ++ Quoted.document k ++ colon pretty ++ x.chars pretty depth ++
      membersChars pretty depth xs)

end

def compact (j : Json) : String := String.ofList (j.chars false 0)

def pretty (j : Json) : String := String.ofList (j.chars true 0)

end Json

end JsonFilter
