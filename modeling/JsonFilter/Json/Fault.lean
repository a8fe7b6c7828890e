import JsonFilter.Text.Utf8

namespace JsonFilter.Json

inductive Cause
  | eofValue | eofList | eofObject | eofString
  | expectedValue | expectedIdent | expectedColon | expectedListComma | expectedObjectComma
  | keyNotString | trailingComma | trailingCharacters | depthLimit
  | controlCharacter | invalidEscape | loneSurrogate | endOfHexEscape
  | invalidNumber | numberOutOfRange
deriving DecidableEq, Repr

def Cause.text : Cause → String
  | .eofValue => "EOF while parsing a value"
  | .eofList => "EOF while parsing a list"
  | .eofObject => "EOF while parsing an object"
  | .eofString => "EOF while parsing a string"
  | .expectedValue => "expected value"
  | .expectedIdent => "expected ident"
  | .expectedColon => "expected `:`"
  | .expectedListComma => "expected `,` or `]`"
  | .expectedObjectComma => "expected `,` or `\x7d`"
  | .keyNotString => "key must be a string"
  | .trailingComma => "trailing comma"
  | .trailingCharacters => "trailing characters"
  | .depthLimit => "recursion limit exceeded"
  | .controlCharacter => "control character (\\u0000-\\u001F) found while parsing a string"
  | .invalidEscape => "invalid escape"
  | .loneSurrogate => "lone leading surrogate in hex escape"
  | .endOfHexEscape => "unexpected end of hex escape"
  | .invalidNumber => "invalid number"
  | .numberOutOfRange => "number out of range"

def Cause.isEof : Cause → Bool
  | .eofValue | .eofList | .eofObject | .eofString => true
  | _ => false

/-- The input that was left, and the bytes of it that count as read. -/
structure Fault where
  cause : Cause
  rest : List Char
  seen : Nat
deriving DecidableEq, Repr

/-- At the next byte, or at the end of the input. -/
def Fault.at (cause : Cause) : List Char → Fault
  | [] => ⟨cause, [], 0⟩
  | rest => ⟨cause, rest, 1⟩

def Fault.behind (cause : Cause) (rest : List Char) : Fault := ⟨cause, rest, 0⟩

/-- Lines count from one, columns are bytes since the last line feed. -/
structure Position where
  line : Nat
  column : Nat
deriving DecidableEq, Repr

def Position.advance : Position → List Char → Nat → Position
  | p, [], _ => p
  | p, c :: cs, bytes =>
    if bytes < c.utf8Size then ⟨p.line, p.column + bytes⟩
    else if c = '\n' then advance ⟨p.line + 1, 0⟩ cs (bytes - 1)
    else advance ⟨p.line, p.column + c.utf8Size⟩ cs (bytes - c.utf8Size)

def Position.behind (text : List Char) (bytes : Nat) : Position := advance ⟨1, 0⟩ text bytes

/-- The number of bytes of `text` in front of the fault. -/
def Fault.offset (f : Fault) (text : List Char) : Nat :=
  Utf8.byteCount text - Utf8.byteCount f.rest + f.seen

def Fault.position (f : Fault) (text : List Char) : Position := .behind text (f.offset text)

def located (what : String) (p : Position) : String :=
  what ++ " at line " ++ toString p.line ++ " column " ++ toString p.column

def Fault.message (f : Fault) (text : List Char) : String := located f.cause.text (f.position text)

/-- The number of characters of a rejected text that its message quotes. -/
def previewLength : Nat := 32

def preview (text : List Char) : String := String.ofList (text.take previewLength)

end JsonFilter.Json
