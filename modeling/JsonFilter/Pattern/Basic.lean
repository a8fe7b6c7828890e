namespace JsonFilter.Pattern

inductive Place
  | start | stop | lineStart | lineStop
  | wordEdge | noWordEdge | wordStart | wordStop | wordStartHalf | wordStopHalf
deriving DecidableEq, Repr

inductive Node
  | empty
  | one (negated : Bool) (ranges : List (Nat × Nat))
  | place (p : Place)
  | seq (a b : Node)
  | alt (a b : Node)
  /-- At least `least` times, at most `most` times if there is a bound. -/
  | times (least : Nat) (most : Option Nat) (greedy : Bool) (n : Node)
  | group (index : Nat) (n : Node)
deriving Inhabited, Repr

namespace Node

def ofChar (c : Char) : Node := .one false [(c.toNat, c.toNat)]

/-- How much of a pattern there is to go through, repetitions counted out. -/
def weight : Node → Nat
  | .empty | .one .. | .place _ => 1
  | .seq a b | .alt a b => a.weight + b.weight + 1
  | .times least most _ n => (n.weight + 1) * (most.getD least + 1) + 1
  | .group _ n => n.weight + 1

end Node

structure Flags where
  ignoreCase : Bool := false
  multiLine : Bool := false
  dotTakesLineFeed : Bool := false
  swapGreed : Bool := false
  ignoreBlanks : Bool := false
  carriageReturns : Bool := false
deriving DecidableEq, Repr

inductive Fault
  | duplicateName | unclosedGroup | unclosedQuestion | unopenedGroup | lookAround | noFlags
  | missingName | badName | unclosedName | emptyName
  | unknownFlag | repeatedNegation | duplicateFlag | flagsEnd | danglingNegation
  | noDigits | badDecimal
  | hexBraceDigit | hexBraceEnd | hexBraceEmpty | hexBraceValue | hexEnd | hexDigit | hexValue
  | hexStart
  | escapeEnd | backReference | unicodeClass | unknownEscape
  | nothingToRepeat | nothingToCount | countUnclosed | countMinUnclosed | countCommaUnclosed
  | countBothUnclosed | countBrace | countRange
  | classAfterItem | classRangeItem | classItem | classAfterDash | classAfterNegation
  | classAfterClosing | classRange | classUnclosed | classNested | classIntersection
  | classDifference | classSymmetric
  | edgeUnclosed | edgeUnknown | edgeEnd
deriving DecidableEq, Repr

def Fault.text : Fault → String
  | .duplicateName => "duplicate capture group name"
  | .unclosedGroup => "found open group without closing ')'"
  | .unclosedQuestion => "expected closing ')', but got end of pattern"
  | .unopenedGroup => "found closing ')' without matching '('"
  | .lookAround => "look-around is not supported"
  | .noFlags => "empty flag directive '(?)' is not allowed"
  | .missingName => "expected capture group name, but got end of pattern"
  | .badName => "invalid group name"
  | .unclosedName => "expected end of capture group name, but got end of pattern"
  | .emptyName => "empty capture group names are not allowed"
  | .unknownFlag => "unrecognized inline flag"
  | .repeatedNegation => "inline flag negation cannot be repeated"
  | .duplicateFlag => "duplicate inline flag is not allowed"
  | .flagsEnd => "expected ':' or ')' to end inline flags, but got end of pattern"
  | .danglingNegation => "inline flags cannot end with negation directive"
  | .noDigits => "expected decimal number, but found no digits"
  | .badDecimal => "got invalid decimal number"
  | .hexBraceDigit => "expected hexadecimal number in braces, but got non-hex digit"
  | .hexBraceEnd =>
    "expected hexadecimal number, but saw end of pattern before closing brace"
  | .hexBraceEmpty => "expected hexadecimal number in braces, but got no digits"
  | .hexBraceValue => "got invalid hexadecimal number in braces"
  | .hexEnd => "expected fixed length hexadecimal number, but saw end of pattern first"
  | .hexDigit => "expected fixed length hexadecimal number, but got non-hex digit"
  | .hexValue => "got invalid fixed length hexadecimal number"
  | .hexStart => "expected hexadecimal number, but saw end of pattern first"
  | .escapeEnd => "saw start of escape sequence, but saw end of pattern before it finished"
  | .backReference => "backreferences are not supported"
  | .unicodeClass => "Unicode character classes are not supported"
  | .unknownEscape => "unrecognized escape sequence"
  | .nothingToRepeat => "uncounted repetition operator must be applied to a sub-expression"
  | .nothingToCount => "counted repetition operator must be applied to a sub-expression"
  | .countUnclosed => "found unclosed counted repetition operator"
  | .countMinUnclosed => "found incomplete and unclosed counted repetition operator"
  | .countCommaUnclosed => "found counted repetition operator with a comma that is unclosed"
  | .countBothUnclosed => "found counted repetition with min and max that is unclosed"
  | .countBrace => "expected closing brace for counted repetition, but got something else"
  | .countRange => "found counted repetition with a min bigger than its max"
  | .classAfterItem => "non-empty character class has no closing bracket"
  | .classRangeItem => "character class ranges must start and end with a single character"
  | .classItem => "invalid escape sequence in character class"
  | .classAfterDash => "non-empty character class has no closing bracket after dash"
  | .classAfterNegation => "negated character class has no closing bracket"
  | .classAfterClosing => "character class begins with literal ']' but has no closing bracket"
  | .classRange => "invalid range in character class"
  | .classUnclosed => "found unclosed character class"
  | .classNested => "nested character classes are not supported"
  | .classIntersection => "character class intersection is not supported"
  | .classDifference => "character class difference is not supported"
  | .classSymmetric => "character class symmetric difference is not supported"
  | .edgeUnclosed => "special word boundary assertion is unclosed or has an invalid character"
  | .edgeUnknown => "special word boundary assertion is unrecognized"
  | .edgeEnd => "found start of special word boundary or repetition without an end"

end JsonFilter.Pattern
