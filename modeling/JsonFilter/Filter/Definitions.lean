import JsonFilter.Filter.Resolve
import JsonFilter.Filter.Syntax

namespace JsonFilter.Filter

namespace Definitions

def basics : List String := [
  "def empty: \x7b\x7d[] as $x | .;",
  "def null: [][0];",
  "def debug(msgs): ((msgs | debug) as $x | empty), .;",
  "def error(msgs): ((msgs | error) as $x | empty), .;",
  "def halt_error: halt_error(5);"]

def booleans : List String := [
  "def true: 0 == 0;",
  "def false: 0 != 0;",
  "def not: if . then false else true end;"]

def kinds : List String := [
  "def isboolean: . == true or . == false;",
  "def isnumber: . > true and . < \"\";",
  "def isstring: . >= \"\" and . < [];",
  "def isarray: . >= [] and . < \x7b\x7d;",
  "def isobject: . >= \x7b\x7d;"]

def numbers : List String := [
  "def nan: 0 / 0;",
  "def infinite: 1 / 0;",
  "def isnan: . < nan and nan < .;",
  "def isinfinite: . == infinite or . == -infinite;",
  "def isfinite: isnumber and (isinfinite | not);",
  "def isnormal: isnumber and ((. == 0 or isnan or isinfinite) | not);"]

def mathematics : List String := [
  "def abs: if . < 0 then - . end;",
  "def logb:
    if . == 0.0 then -infinite
    elif isinfinite then infinite
    elif isnan then .
    else ilogb | . + 0.0 end;",
  "def significand:
    if isinfinite or isnan then .
    elif . == 0.0 then 0.0
    else scalbln(.; ilogb | -1 * .) end;",
  "def pow10: pow(10.0; .);",
  "def drem($l; r): remainder($l; r) | if . == 0 then copysign(.; $l) end;",
  "def nexttoward(x; y): nextafter(x; y);",
  "def scalb(x; e): x * pow(2.0; e);",
  "def gamma: tgamma;"]

def typeName : List String := [
  "def type:
    if . == null then \"null\"
    elif isboolean then \"boolean\"
    elif . < \"\" then \"number\"
    elif . < [] then \"string\"
    elif . < \x7b\x7d then \"array\"
    else \"object\" end;"]

def selections : List String := [
  "def select(f): if f then . else empty end;",
  "def values: select(. != null);",
  "def nulls: select(. == null);",
  "def booleans: select(isboolean);",
  "def numbers: select(isnumber);",
  "def finites: select(isfinite);",
  "def normals: select(isnormal);",
  "def strings: select(isstring);",
  "def arrays: select(isarray);",
  "def objects: select(isobject);",
  "def iterables: select(. >= []);",
  "def scalars: select(. < []);"]

def texts : List String := [
  "def tostring: \"\\(.)\";"]

def generators : List String := [
  "def range(from; to): range(from; to; 1);",
  "def range(to): range(0; to);",
  "def repeat(f): def rec: f, rec; rec;",
  "def recurse(f): def rec: ., (f | rec); rec;",
  "def recurse: recurse(.[]?);",
  "def recurse(f; cond): recurse(f | select(cond));",
  "def while(cond; update): def rec: if cond then ., (update | rec) else empty end; rec;",
  "def until(cond; update): def rec: if cond then . else update | rec end; rec;"]

def iterators : List String := [
  "def map(f): [.[] | f];",
  "def map_values(f): .[] |= f;",
  "def add(f): reduce f as $x (null; . + $x);",
  "def add: add(.[]);",
  "def join($x): .[] |= tostring | .[:-1][] += $x | add + \"\";",
  "def min_by(f): reduce min_by_or_empty(f) as $x (null; $x);",
  "def max_by(f): reduce max_by_or_empty(f) as $x (null; $x);",
  "def min: min_by(.);",
  "def max: max_by(.);",
  "def unique_by(f): [group_by(f)[] | .[0]];",
  "def unique: unique_by(.);",
  "def getpath($path): reduce $path[] as $p (.; .[$p]);",
  "def del(f): f |= empty;"]

def elements : List String := [
  "def first: .[ 0];",
  "def last: .[-1];",
  "def nth(n): .[ n];",
  "def skip($n; g): foreach g as $x ($n; . - 1; if . < 0 then $x else empty end);",
  "def nth(n; g): last(limit(n + 1; g));"]

def predicates : List String := [
  "def isempty(g): first((g | false), true);",
  "def all(g; cond): isempty(g | cond and empty);",
  "def any(g; cond): isempty(g | cond or empty) | not;",
  "def all(cond): all(.[]; cond);",
  "def any(cond): any(.[]; cond);",
  "def all: all(.[]; .);",
  "def any: any(.[]; .);"]

def walks : List String := [
  "def walk(f): def rec: (.[]? |= rec) | f; rec;",
  "def flatten: [recurse(arrays[]) | select(isarray | not)];",
  "def flatten($d): if $d > 0 then map(if isarray then flatten($d-1) else [.] end) | add end;"]

def patterns : List String := [
  "def capture_of_match: map(select(.name) | \x7b (.name): .string\x7d ) | add + \x7b\x7d;",
  "def test(re; flags): matches(re; flags) | any;",
  "def scan(re; flags): matches(re; flags)[] | .[0].string;",
  "def match(re; flags): matches(re; flags)[] | .[0] + \x7b captures: .[1:] \x7d;",
  "def capture(re; flags): matches(re; flags)[] | capture_of_match;",
  "def split($sep):
    if isstring and ($sep | isstring) then . / $sep
    else error(\"split input and separator must be strings\") end;",
  "def split (re; flags): split_(re; flags + \"g\");",
  "def splits(re; flags): split(re; flags)[];",
  "def sub(re; f; flags):
    def handle: if isarray then capture_of_match | f end;
    reduce split_matches(re; flags)[] as $x (\"\"; . + ($x | handle));",
  "def gsub(re; f; flags): sub(re; f; \"g\" + flags);",
  "def test(re): test(re; \"\");",
  "def scan(re): scan(re; \"\");",
  "def match(re): match(re; \"\");",
  "def capture(re): capture(re; \"\");",
  "def splits(re): splits(re; \"\");",
  "def sub(re; f): sub(re; f; \"\");",
  "def gsub(re; f): sub(re; f; \"g\");"]

def inputs : List String := [
  "def input: first(inputs);"]

def dates : List String := [
  "def todate: todateiso8601;",
  "def fromdate: fromdateiso8601;"]

def formats : List String := [
  "def fmt_row(n; s): if . >= \"\" then s elif . == null then n else \"\\(.)\" end;",
  "def @csv: .[] |= fmt_row(\"\"; \"\\\"\\(escape_csv)\\\"\") | join(\",\" );",
  "def @tsv: .[] |= fmt_row(\"\"; escape_tsv ) | join(\"\\t\");",
  "def @sh: [if isarray then .[] end | fmt_row(\"null\"; \"'\\(escape_sh)'\")] | join(\" \");",
  "def @text: \"\\(.)\";",
  "def @html : tostring | escape_html;",
  "def @uri : tostring | encode_uri;",
  "def @urid : tostring | decode_uri;",
  "def @base64 : tostring | encode_base64;",
  "def @base64d: tostring | decode_base64;"]

def conversions : List String := [
  "def tonumber: if isnumber then . else fromjson end;"]

def columns : List String := [
  "def transpose: [range([.[] | length] | max) as $i | [.[][$i]]];"]

def entries : List String := [
  "def keys: keys_unsorted | sort;",
  "def to_entries: [keys_unsorted[] as $k | \x7b key: $k, value: .[$k] \x7d];",
  "def from_entries: map(\x7b (.key): .value \x7d) | add + \x7b\x7d;",
  "def with_entries(f): to_entries | map(f) | from_entries;"]

def paths : List String := [
  "def paths(f): path_values | if .[1] | f then .[0] else empty end;"]

def searches : List String := [
  "def in(xs) : . as $x | xs | has ($x);",
  "def inside(xs): . as $x | xs | contains($x);",
  "def index($i): indices($i)[ 0];",
  "def rindex($i): indices($i)[-1];"]

def documentFormat : List String := [
  "def @json: tojson;"]

def lastInput : List String := [
  "def input: first(inputs, error(\"No more inputs\"));"]

def sources : List String :=
  basics ++ booleans ++ kinds ++ numbers ++ mathematics ++ typeName ++ selections ++ texts ++
    generators ++ iterators ++ elements ++ predicates ++ walks ++ patterns ++ inputs ++ dates ++
    formats ++ conversions ++ columns ++ entries ++ paths ++ searches ++ documentFormat ++
    lastInput

def addTo (lib : Library) (source : String) : Library :=
  let cs := source.toList
  match Definition.parse cs with
  | .ok [d] =>
    let own := lib.push ⟨d.name, d.params, .identity⟩
    let (body, _) := (Resolve.term own (Source.steps cs) (Scope.within [] d.params) d.body).run []
    lib.push ⟨d.name, d.params, body⟩
  | _ => lib

end Definitions

/-- The definitions that every program can call. -/
def library : Library := Definitions.sources.foldl Definitions.addTo #[]

end JsonFilter.Filter
