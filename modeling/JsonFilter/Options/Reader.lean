import JsonFilter.Json.Skip
import JsonFilter.Options
import JsonFilter.Text.Literal

namespace JsonFilter.Options

open Json

inductive Refusal
  | fault (f : Fault)
  | duplicate (field : Field) (rest : List Char)
  /-- A value of another kind stands in front of `rest`. -/
  | kind (found : Json) (rest : List Char)

namespace Refusal

def describe : Json → String
  | .null => "null"
  | .bool b => "boolean `" ++ toString b ++ "`"
  | .num (.int i) => "integer `" ++ toString i ++ "`"
  | .num (.float x) => "floating point `" ++ String.ofList (Number.float x).chars ++ "`"
  | .str s => "string " ++ Literal.quote s
  | .arr _ => "sequence"
  | .obj _ => "map"

def offset (text rest : List Char) : Nat := Utf8.byteCount text - Utf8.byteCount rest

def message (text : List Char) : Refusal → String
  | .fault f => f.message text
  | .duplicate field rest =>
    located ("duplicate field `" ++ field.name ++ "`") (.behind text (offset text rest))
  | .kind found rest =>
    located ("invalid type: " ++ describe found ++ ", expected struct RequestOptions")
      (.behind text (offset text rest))

end Refusal

def lift {α : Type} (r : Except Fault α) : Except Refusal α := r.mapError .fault

def valueDepth : Nat := depthLimit - 1

def again (field : Field) (cs : List Char) : Refusal :=
  match skipBlanks cs with
  | '\x7d' :: rest => .duplicate field rest
  | rest => .duplicate field rest

def member (fuel : Nat) (seen : List Field) (o : Options) (key : String) (cs : List Char) :
    Except Refusal ((List Field × Options) × List Char) :=
  match Field.ofName? key with
  | some field =>
    if seen.contains field then .error (again field cs)
    else do
      let (v, rest) ← lift (memberValue (value fuel valueDepth) cs)
      return ((field :: seen, o.read field v), rest)
  | none =>
    match skipBlanks cs with
    | ':' :: rest => do
      let rest ← lift (Skip.value fuel rest)
      return ((seen, o), rest)
    | [] => .error (.fault (.at .eofObject []))
    | other => .error (.fault (.at .expectedColon other))

def members : Nat → List Field → Options → List Char → Except Refusal (Options × List Char)
  | 0, _, _, _ => .error (.fault (.at .eofObject []))
  | fuel + 1, seen, o, cs => do
    let (key, rest) ← lift (string fuel cs)
    let ((seen, o), rest) ← member fuel seen o key rest
    match skipBlanks rest with
    | '\x7d' :: rest => return (o, rest)
    | ',' :: rest =>
      match skipBlanks rest with
      | [] => .error (.fault (.at .eofValue []))
      | '"' :: more => members fuel seen o more
      | '\x7d' :: more => .error (.fault (.at .trailingComma ('\x7d' :: more)))
      | more => .error (.fault (.at .keyNotString more))
    | [] => .error (.fault (.at .eofObject []))
    | other => .error (.fault (.at .expectedObjectComma other))

def close (cs : List Char) : Except Refusal (List Char) :=
  match skipBlanks cs with
  | ']' :: rest => .ok rest
  | ',' :: rest =>
    match skipBlanks rest with
    | ']' :: more => .error (.fault (.at .trailingComma (']' :: more)))
    | more => .error (.fault (.at .trailingCharacters more))
  | [] => .error (.fault (.at .eofList []))
  | other => .error (.fault (.at .trailingCharacters other))

def items (fuel : Nat) : List Field → Options → List Char → Except Refusal (Options × List Char)
  | [], o, cs => do
    let rest ← close cs
    return (o, rest)
  | field :: fields, o, cs =>
    match skipBlanks cs with
    | ']' :: rest => .ok (o, rest)
    | ',' :: rest =>
      match skipBlanks rest with
      | [] => .error (.fault (.at .eofValue []))
      | ']' :: more => .error (.fault (.at .trailingComma (']' :: more)))
      | more => do
        let (v, rest) ← lift (value fuel valueDepth more)
        items fuel fields (o.read field v) rest
    | [] => .error (.fault (.at .eofList []))
    | other => .error (.fault (.at .expectedListComma other))

def array (fuel : Nat) (cs : List Char) : Except Refusal (Options × List Char) :=
  match Field.all, skipBlanks cs with
  | _, [] => .error (.fault (.at .eofList []))
  | _, ']' :: rest => .ok (default, rest)
  | first :: fields, more => do
    let (v, rest) ← lift (value fuel valueDepth more)
    items fuel fields (default.read first v) rest
  | [], more => .error (.fault (.at .trailingCharacters more))

def object (fuel : Nat) (cs : List Char) : Except Refusal (Options × List Char) :=
  match skipBlanks cs with
  | [] => .error (.fault (.at .eofObject []))
  | '\x7d' :: rest => .ok (default, rest)
  | '"' :: more => members fuel [] default more
  | more => .error (.fault (.at .keyNotString more))

def structured (fuel : Nat) (cs : List Char) : Except Refusal (Options × List Char) :=
  match skipBlanks cs with
  | '[' :: rest => array fuel rest
  | '\x7b' :: rest => object fuel rest
  | other => do
    let (found, rest) ← lift (scalar fuel other)
    .error (.kind found rest)

def ofChars (cs : List Char) : Except Refusal Options := do
  let r ← structured (cs.length + 1) cs
  lift (finish r)

def ofText (text : String) : Except String Options :=
  (ofChars text.toList).mapError (Refusal.message text.toList)

end JsonFilter.Options
