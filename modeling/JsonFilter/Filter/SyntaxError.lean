import JsonFilter.Text.Blank

namespace JsonFilter.Filter

inductive Wanted
  | digit | identifier | escape | codePoint | token
  | closing (opening : Char)
  | term | key | var | pattern | argument | string
  | elseOrEnd | commaOrBracket | commaOrBrace | semicolonOrParen
  | nothing
  | exactly (text : String)
deriving DecidableEq, Repr

def Wanted.text : Wanted → String
  | .digit => "digit"
  | .identifier => "identifier"
  | .escape => "string escape sequence"
  | .codePoint => "4-digit hexadecimal UTF-8 code point"
  | .token => "token"
  | .closing '(' => "closing parenthesis"
  | .closing '[' => "closing bracket"
  | .closing '\x7b' => "closing brace"
  | .closing _ => "closing quote"
  | .term => "term"
  | .key => "key"
  | .var => "variable"
  | .pattern => "pattern"
  | .argument => "argument"
  | .string => "string"
  | .elseOrEnd => "else or end"
  | .commaOrBracket => "comma or right bracket"
  | .commaOrBrace => "comma or right brace"
  | .semicolonOrParen => "semicolon or right parenthesis"
  | .nothing => "nothing"
  | .exactly t => t

/-- `rest` is the source that was not taken in. -/
structure SyntaxError where
  wanted : Wanted
  rest : List Char
deriving DecidableEq, Repr

namespace SyntaxError

def excerptLength : Nat := 24

def firstLine (cs : List Char) : List Char := Blank.trimEnd (cs.takeWhile (· != '\n'))

/-- What is shown of the source; nothing stands for its end. -/
def excerpt? (cs : List Char) : Option (List Char) :=
  match firstLine cs with
  | [] => none
  | line => some (line.take excerptLength)

def message (e : SyntaxError) : String :=
  "syntax error: expected " ++ e.wanted.text ++ ", found " ++
    match excerpt? e.rest with
    | none => "end of input"
    | some cs => "'" ++ String.ofList cs ++ "'"

end SyntaxError

end JsonFilter.Filter
