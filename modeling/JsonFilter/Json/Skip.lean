import JsonFilter.Json.Reader

namespace JsonFilter.Json.Skip

abbrev Skipper := List Char → Except Fault (List Char)

def badNumber (cs : List Char) : Fault := .at .invalidNumber cs

def exponent : Skipper
  | 'e' :: cs | 'E' :: cs =>
    let cs := match cs with
      | '+' :: cs | '-' :: cs => cs
      | cs => cs
    match cs.span Char.isDigit with
    | ([], rest) => .error (badNumber rest)
    | (_, rest) => .ok rest
  | cs => .ok cs

def fraction : Skipper
  | '.' :: cs =>
    match cs.span Char.isDigit with
    | ([], rest) => .error (badNumber rest)
    | (_, rest) => exponent rest
  | cs => exponent cs

def number : Skipper := fun cs =>
  match cs.span Char.isDigit with
  | ([], rest) => .error (badNumber rest)
  | ('0' :: d :: ds, rest) => .error (badNumber (d :: ds ++ rest))
  | (_, rest) => fraction rest

def escape : Skipper
  | [] => .error (.at .eofString [])
  | 'u' :: cs => do return (← hex4 cs).2
  | c :: cs =>
    if "\"\\/bfnrt".toList.contains c then .ok cs else .error (.at .invalidEscape (c :: cs))

def string : Nat → Skipper
  | 0, _ => .error (.at .eofString [])
  | _ + 1, [] => .error (.at .eofString [])
  | fuel + 1, c :: cs =>
    if c = '"' then .ok cs
    else if c = '\\' then
      match escape cs with
      | .ok rest => string fuel rest
      | .error f => .error f
    else if c.toNat < 0x20 then .error (.behind .controlCharacter (c :: cs))
    else string fuel cs

mutual

def value : Nat → Skipper
  | 0, _ => .error (.at .eofValue [])
  | fuel + 1, cs =>
    match skipBlanks cs with
    | [] => .error (.at .eofValue [])
    | 'n' :: rest => word "ull".toList rest
    | 't' :: rest => word "rue".toList rest
    | 'f' :: rest => word "alse".toList rest
    | '-' :: rest => number rest
    | '"' :: rest => string fuel rest
    | '[' :: rest =>
      match skipBlanks rest with
      | [] => .error (.at .eofList [])
      | ']' :: rest => .ok rest
      | rest => items fuel rest
    | '\x7b' :: rest =>
      match skipBlanks rest with
      | [] => .error (.at .eofObject [])
      | '\x7d' :: rest => .ok rest
      | rest => members fuel rest
    | c :: rest => if c.isDigit then number (c :: rest) else .error (.at .expectedValue (c :: rest))

def items : Nat → Skipper
  | 0, _ => .error (.at .eofList [])
  | fuel + 1, cs =>
    match value fuel cs with
    | .error f => .error f
    | .ok rest =>
      match skipBlanks rest with
      | ',' :: rest => items fuel rest
      | ']' :: rest => .ok rest
      | [] => .error (.at .eofList [])
      | other => .error (.at .expectedListComma other)

def members : Nat → Skipper
  | 0, _ => .error (.at .eofObject [])
  | fuel + 1, cs =>
    match skipBlanks cs with
    | '"' :: rest =>
      match string fuel rest with
      | .error f => .error f
      | .ok rest =>
        match skipBlanks rest with
        | ':' :: rest =>
          match value fuel rest with
          | .error f => .error f
          | .ok rest =>
            match skipBlanks rest with
            | ',' :: rest => members fuel rest
            | '\x7d' :: rest => .ok rest
            | [] => .error (.at .eofObject [])
            | other => .error (.at .expectedObjectComma other)
        | [] => .error (.at .eofObject [])
        | other => .error (.at .expectedColon other)
    | [] => .error (.at .eofObject [])
    | other => .error (.at .keyNotString other)

end

end JsonFilter.Json.Skip
