import JsonFilter.Filter.Code
import JsonFilter.Filter.Native.Data
import JsonFilter.Filter.Native.Number
import JsonFilter.Filter.Native.Search
import JsonFilter.Filter.Native.Text
import JsonFilter.Filter.Native.Time

namespace JsonFilter.Filter

inductive Builtin
  | plain (f : Native)
  | raise | first | last | limit | span
  | keyed (what : Keyed)

namespace Builtin

open Native

def valued (arity : Nat) : Builtin → List Bool
  | .plain _ => List.replicate arity true
  | .raise => []
  | .first | .last | .keyed _ => [false]
  | .limit => [true, false]
  | .span => [true, true, true]

def control : List (String × Nat × Builtin) := [
  ("error", 0, .raise), ("first", 1, .first), ("last", 1, .last), ("limit", 2, .limit),
  ("range", 3, .span), ("sort_by", 1, .keyed .sort), ("group_by", 1, .keyed .group),
  ("min_by_or_empty", 1, .keyed .least), ("max_by_or_empty", 1, .keyed .greatest)]

def data : List (String × Nat × Native) := [
  ("length", 0, ofInput Value.length), ("keys_unsorted", 0, ofInput Value.keys),
  ("has", 1, has), ("contains", 1, contains), ("indices", 1, ofOne Value.indices),
  ("bsearch", 1, search), ("sort", 0, sort), ("reverse", 0, reverse),
  ("paths", 0, paths), ("path_values", 0, pathValues),
  ("tojson", 0, toJson), ("fromjson", 0, fromJson),
  ("inputs", 0, inputs), ("debug", 0, debug), ("stderr", 0, stderr),
  ("halt", 0, halt), ("halt_error", 1, haltError), ("now", 0, now), ("env", 0, environment)]

def text : List (String × Nat × Native) := [
  ("startswith", 1, startsWith), ("endswith", 1, endsWith),
  ("ltrimstr", 1, dropStart), ("rtrimstr", 1, dropEnd),
  ("trim", 0, mapText Blank.trim), ("ltrim", 0, mapText Blank.trimStart),
  ("rtrim", 0, mapText Blank.trimEnd),
  ("ascii_downcase", 0, mapText (List.map Char.toLower)),
  ("ascii_upcase", 0, mapText (List.map Char.toUpper)),
  ("utf8bytelength", 0, byteLength), ("explode", 0, explode), ("implode", 0, implode),
  ("escape_csv", 0, escapeCsv), ("escape_tsv", 0, escapeTsv), ("escape_sh", 0, escapeShell),
  ("escape_html", 0, escapeMarkup), ("encode_uri", 0, encodePercent),
  ("decode_uri", 0, decodePercent), ("encode_base64", 0, encodeBase64),
  ("decode_base64", 0, decodeBase64), ("matches", 2, searching false true),
  ("split_matches", 2, searching true true), ("split_", 2, searching true false)]

def number : List (String × Nat × Native) :=
  [("floor", 0, rounding Float.floor), ("round", 0, rounding Float.round),
    ("ceil", 0, rounding Float.ceil), ("frexp", 0, splitFloat), ("modf", 0, floatParts),
    ("ilogb", 0, exponent), ("ldexp", 2, scaling), ("scalbln", 2, scaling),
    ("jn", 2, ofOrder (·.bessel)), ("yn", 2, ofOrder (·.besselSecond)), ("hypot", 2, hypotenuse),
    ("fma", 3, ofThreeFloats Numeric.multiplyAdd)] ++
  floatFunctions.map (fun (name, f) => (name, 0, ofFloat fun x => .float (f x))) ++
  specialFunctions.map (fun (name, f) => (name, 0, ofSpecial f)) ++
  pairFunctions.map (fun (name, f) => (name, 2, ofFloats f))

def time : List (String × Nat × Native) := [
  ("fromdateiso8601", 0, ofStamp), ("todateiso8601", 0, toStamp),
  ("strftime", 1, formatTime), ("strflocaltime", 1, formatLocalTime), ("strptime", 1, readTime),
  ("gmtime", 0, timeParts), ("localtime", 0, localTimeParts), ("mktime", 0, ofTimeParts)]

def table : List (String × Nat × Builtin) :=
  control ++ (data ++ text ++ number ++ time).map fun (name, arity, f) => (name, arity, .plain f)

def find? (name : String) (arity : Nat) : Option Builtin :=
  (table.find? fun (n, k, _) => n = name ∧ k = arity).map fun (_, _, b) => b

end Builtin

end JsonFilter.Filter
