namespace JsonFilter.Filter

mutual

inductive Token
  | word (text : String)
  | var (text : String)
  | format (text : String)
  | number (text : String)
  | symbol (text : String)
  | string (text : List Char) (parts : List TokenPart)
  | block (text : List Char) (opening : Char) (tokens : List Token)

inductive TokenPart
  | text (s : String)
  | filter (text : List Char) (tokens : List Token)

end

instance : Inhabited Token := ⟨.symbol ""⟩

namespace Token

def source : Token → List Char
  | .word t | .var t | .format t | .number t | .symbol t => t.toList
  | .string t _ | .block t _ _ => t

def isSymbol (t : Token) (s : String) : Bool :=
  match t with
  | .symbol u => u == s
  | _ => false

def isWord (t : Token) (s : String) : Bool :=
  match t with
  | .word u => u == s
  | _ => false

end Token

end JsonFilter.Filter
