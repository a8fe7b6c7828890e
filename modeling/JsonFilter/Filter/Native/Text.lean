import JsonFilter.Filter.Native.Basic
import JsonFilter.Text.Base64
import JsonFilter.Text.Blank
import JsonFilter.Text.Percent

namespace JsonFilter.Filter.Native

def ofText (f : String → Except EvalError Value) : Native := ofInput fun v => do f (← v.asString)

def mapText (f : List Char → List Char) : Native :=
  ofText fun s => .ok (.str (String.ofList (f s.toList)))

def withText (f : String → String → Value) : Native := ofOne fun v w => do
  let s ← v.asString
  let t ← w.asString
  return f s t

def startsWith : Native := withText fun s t => .bool (t.toList.isPrefixOf s.toList)

def endsWith : Native := withText fun s t => .bool (t.toList.isSuffixOf s.toList)

def dropStart : Native := withText fun s t =>
  .str (if t.toList.isPrefixOf s.toList then String.ofList (s.toList.drop t.length) else s)

def dropEnd : Native := withText fun s t =>
  .str (if t.toList.isSuffixOf s.toList then String.ofList (s.toList.take (s.length - t.length))
    else s)

def byteLength : Native := ofText fun s => .ok (.int s.utf8ByteSize)

def explode : Native := ofText fun s => .ok (.arr (s.toList.map fun c => .int c.toNat))

def tooSmall : EvalError := .text "number too small to fit in target type"

def tooLarge : EvalError := .text "number too large to fit in target type"

def charOf (v : Value) : Except EvalError Char := do
  let i ← v.asInt
  if i < 0 then .error tooSmall
  else if i ≥ 0x100000000 then .error tooLarge
  else if i.toNat.isValidChar then .ok (Char.ofNat i.toNat)
  else .error (.text ("cannot use " ++ toString i ++ " as character"))

def implode : Native := ofInput fun v => do
  let xs ← v.asArray
  let cs ← xs.mapM charOf
  return .str (String.ofList cs)

def replacing (table : List (Char × String)) : Native :=
  mapText fun cs => cs.flatMap fun c => ((table.lookup c).map String.toList).getD [c]

def escapeCsv : Native := replacing [('"', "\"\"")]

def escapeTsv : Native :=
  replacing [('\n', "\\n"), ('\r', "\\r"), ('\t', "\\t"), ('\\', "\\\\")]

def escapeShell : Native := replacing [('\'', "'\\''")]

def escapeMarkup : Native :=
  replacing [('<', "&lt;"), ('>', "&gt;"), ('&', "&amp;"), ('\'', "&#39;"), ('"', "&quot;")]

def encodePercent : Native := ofText fun s => .ok (.str (Percent.encode s))

def decodePercent : Native := ofText fun s =>
  match Percent.decode s with
  | .ok t => .ok (.str t)
  | .error f => .error (.text f.message)

def encodeBase64 : Native := ofText fun s =>
  .ok (.str (String.ofList (Base64.encode (Utf8.encode s))))

def decodeBase64 : Native := ofText fun s =>
  match Base64.decode (Utf8.encode s) with
  | .error f => .error (.text f.message)
  | .ok bytes =>
    match Utf8.decode bytes with
    | .ok t => .ok (.str t)
    | .error f => .error (.text f.message)

end JsonFilter.Filter.Native
