import JsonFilter.Pattern.Basic
import JsonFilter.Text.Blank
import JsonFilter.Text.Quoted

namespace JsonFilter.Pattern

structure Compiled where
  node : Node
  names : List (Nat × String) := []
deriving Inhabited, Repr

namespace Reader

structure State where
  rest : List Char
  next : Nat := 1
  names : List (Nat × String) := []

inductive Item
  | char (c : Char)
  | set (negated : Bool) (ranges : List (Nat × Nat))
  | place (p : Place)

def range (a b : Char) : Nat × Nat := (a.toNat, b.toNat)

def digitRanges : List (Nat × Nat) := [range '0' '9']

def blankRanges : List (Nat × Nat) := [(9, 13), (32, 32)]

def wordRanges : List (Nat × Nat) := [range '0' '9', range 'A' 'Z', range '_' '_', range 'a' 'z']

def lastCode : Nat := 0x10FFFF

def orderRanges (rs : List (Nat × Nat)) : List (Nat × Nat) := rs.mergeSort fun a b => a.1 ≤ b.1

def gaps (low : Nat) : List (Nat × Nat) → List (Nat × Nat)
  | [] => if low ≤ lastCode then [(low, lastCode)] else []
  | (a, b) :: rs => if low < a then (low, a - 1) :: gaps (b + 1) rs else gaps (max low (b + 1)) rs

def complement (rs : List (Nat × Nat)) : List (Nat × Nat) := gaps 0 (orderRanges rs)

def shifted (r : Nat × Nat) (low high : Nat) (delta : Int) : List (Nat × Nat) :=
  let a := max r.1 low
  let b := min r.2 high
  if a ≤ b then [((a + delta).toNat, (b + delta).toNat)] else []

/-- Letters of both cases for each letter. -/
def foldCase (rs : List (Nat × Nat)) : List (Nat × Nat) :=
  rs ++ rs.flatMap fun r => shifted r 65 90 32 ++ shifted r 97 122 (-32)

/-- Skips blanks and comments if they do not count. -/
def space (f : Flags) : Nat → List Char → List Char
  | 0, cs => cs
  | fuel + 1, cs =>
    if f.ignoreBlanks then
      match cs.dropWhile Blank.isBlank with
      | '#' :: rest => space f fuel ((rest.dropWhile (· != '\n')).drop 1)
      | rest => rest
    else cs

def skip (f : Flags) (cs : List Char) : List Char := space f (cs.length + 1) cs

def Item.node (f : Flags) : Item → Node
  | .char c =>
    if f.ignoreCase then .one false (foldCase [range c c]) else .ofChar c
  | .set negated rs => .one negated rs
  | .place p => .place p

def dot (f : Flags) : Node :=
  if f.dotTakesLineFeed then .one true []
  else if f.carriageReturns then .one true [range '\n' '\n', range '\r' '\r']
  else .one true [range '\n' '\n']

def isMeta (c : Char) : Bool := "\\.+*?()|[]\x7b\x7d^$#&-~".toList.contains c

def isEscapable (c : Char) : Bool :=
  isMeta c || (c.toNat < 128 && !c.isAlphanum && c != '<' && c != '>')

def codePoint (fault : Fault) (n : Nat) : Except Fault Char :=
  if n.isValidChar then .ok (Char.ofNat n) else .error fault

def hexFixed (f : Flags) : Nat → Nat → List Char → Except Fault (Nat × List Char)
  | 0, n, cs => .ok (n, cs)
  | _ + 1, _, [] => .error .hexEnd
  | k + 1, n, c :: cs =>
    match Quoted.hexValue? c with
    | some d => hexFixed f k (n * 16 + d) (if k = 0 then cs else skip f cs)
    | none => .error .hexDigit

def hexBrace : Nat → Nat → List Char → Except Fault (Nat × List Char)
  | _, _, [] => .error .hexBraceEnd
  | count, n, c :: cs =>
    if c = '\x7d' then if count = 0 then .error .hexBraceEmpty else .ok (n, cs)
    else
      match Quoted.hexValue? c with
      | some d => hexBrace (count + 1) (n * 16 + d) cs
      | none => .error .hexBraceDigit

def hex (f : Flags) (kind : Char) (cs : List Char) : Except Fault (Item × List Char) := do
  match skip f cs with
  | [] => .error .hexStart
  | '\x7b' :: rest => do
    let (n, rest) ← hexBrace 0 0 (skip f rest)
    return (.char (← codePoint .hexBraceValue n), rest)
  | rest => do
    let (n, rest) ← hexFixed f (if kind = 'x' then 2 else if kind = 'u' then 4 else 8) 0 rest
    return (.char (← codePoint .hexValue n), rest)

def wordEdge (cs : List Char) : Except Fault (Item × List Char) :=
  match cs with
  | '\x7b' :: rest =>
    let named (c : Char) : Bool := c.isAlpha || c = '-'
    match rest with
    | [] => .error .edgeEnd
    | c :: _ =>
      if named c then
        let (name, after) := rest.span named
        match after with
        | '\x7d' :: after =>
          match String.ofList name with
          | "start" => .ok (.place .wordStart, after)
          | "end" => .ok (.place .wordStop, after)
          | "start-half" => .ok (.place .wordStartHalf, after)
          | "end-half" => .ok (.place .wordStopHalf, after)
          | _ => .error .edgeUnknown
        | _ => .error .edgeUnclosed
      else .ok (.place .wordEdge, cs)
  | _ => .ok (.place .wordEdge, cs)

def escape (f : Flags) : List Char → Except Fault (Item × List Char)
  | [] => .error .escapeEnd
  | c :: cs =>
    if c.isDigit then .error .backReference
    else if c = 'p' ∨ c = 'P' then .error .unicodeClass
    else if c = 'x' ∨ c = 'u' ∨ c = 'U' then hex f c cs
    else if isEscapable c then .ok (.char c, cs)
    else
      match c with
      | 'd' => .ok (.set false digitRanges, cs)
      | 'D' => .ok (.set true digitRanges, cs)
      | 's' => .ok (.set false blankRanges, cs)
      | 'S' => .ok (.set true blankRanges, cs)
      | 'w' => .ok (.set false wordRanges, cs)
      | 'W' => .ok (.set true wordRanges, cs)
      | 'a' => .ok (.char '\x07', cs)
      | 'f' => .ok (.char '\x0c', cs)
      | 't' => .ok (.char '\t', cs)
      | 'n' => .ok (.char '\n', cs)
      | 'r' => .ok (.char '\r', cs)
      | 'v' => .ok (.char '\x0b', cs)
      | 'A' => .ok (.place .start, cs)
      | 'z' => .ok (.place .stop, cs)
      | 'b' => wordEdge cs
      | 'B' => .ok (.place .noWordEdge, cs)
      | '<' => .ok (.place .wordStart, cs)
      | '>' => .ok (.place .wordStop, cs)
      | _ => .error .unknownEscape

def namedClass? : String → Option (List (Nat × Nat))
  | "alnum" => some [range '0' '9', range 'A' 'Z', range 'a' 'z']
  | "alpha" => some [range 'A' 'Z', range 'a' 'z']
  | "ascii" => some [(0, 127)]
  | "blank" => some [(9, 9), (32, 32)]
  | "cntrl" => some [(0, 31), (127, 127)]
  | "digit" => some digitRanges
  | "graph" => some [range '!' '~']
  | "lower" => some [range 'a' 'z']
  | "print" => some [range ' ' '~']
  | "punct" => some [range '!' '/', range ':' '@', (91, 96), (123, 126)]
  | "space" => some blankRanges
  | "upper" => some [range 'A' 'Z']
  | "word" => some wordRanges
  | "xdigit" => some [range '0' '9', range 'A' 'F', range 'a' 'f']
  | _ => none

def posixClass? (cs : List Char) : Option (List (Nat × Nat) × List Char) :=
  let (negated, cs) := match cs with
    | '^' :: cs => (true, cs)
    | cs => (false, cs)
  let (name, rest) := cs.span (· != ':')
  match rest, namedClass? (String.ofList name) with
  | ':' :: ']' :: rest, some rs => some (if negated then complement rs else rs, rest)
  | _, _ => none

def Item.ranges : Item → Except Fault (List (Nat × Nat))
  | .char c => .ok [range c c]
  | .set false rs => .ok rs
  | .set true rs => .ok (complement rs)
  | .place _ => .error .classItem

def classItem (f : Flags) : List Char → Except Fault (Item × List Char)
  | '\\' :: cs => do
    let (i, rest) ← escape f cs
    match i with
    | .place _ => .error .classItem
    | i => return (i, rest)
  | c :: cs => .ok (.char c, cs)
  | [] => .error .classUnclosed

def classRange (f : Flags) (cs : List Char) : Except Fault (List (Nat × Nat) × List Char) := do
  let (i, rest) ← classItem f cs
  match skip f rest with
  | [] => .error .classAfterItem
  | '-' :: more =>
    match skip f more with
    | ']' :: _ | '-' :: _ => return (← i.ranges, '-' :: more)
    | [] => .error .classAfterDash
    | after => do
      let (j, rest) ← classItem f after
      match i, j with
      | .char a, .char b =>
        if a ≤ b then return ([range a b], rest) else .error .classRange
      | _, _ => .error .classRangeItem
  | rest => return (← i.ranges, rest)

def classItems (f : Flags) : Nat → List (Nat × Nat) → List Char →
    Except Fault (List (Nat × Nat) × List Char)
  | 0, _, _ => .error .classUnclosed
  | fuel + 1, acc, cs =>
    match skip f cs with
    | [] => .error .classUnclosed
    | ']' :: rest => .ok (acc, rest)
    | '&' :: '&' :: _ => .error .classIntersection
    | '-' :: '-' :: _ => .error .classDifference
    | '~' :: '~' :: _ => .error .classSymmetric
    | '[' :: ':' :: rest =>
      match posixClass? rest with
      | some (rs, rest) => classItems f fuel (acc ++ rs) rest
      | none => .error .classNested
    | '[' :: _ => .error .classNested
    | cs =>
      match classRange f cs with
      | .ok (rs, rest) => classItems f fuel (acc ++ rs) rest
      | .error e => .error e

def bracket (f : Flags) (cs : List Char) : Except Fault (Node × List Char) := do
  let cs := skip f cs
  let (negated, cs) := match cs with
    | '^' :: cs => (true, skip f cs)
    | cs => (false, cs)
  if cs.isEmpty then .error (if negated then .classAfterNegation else .classUnclosed)
  let dashes := cs.takeWhile (· = '-')
  let cs := skip f (cs.drop dashes.length)
  let start := dashes.map fun _ => range '-' '-'
  if cs.isEmpty then .error .classAfterDash
  let (start, cs) ← match start, cs with
    | [], ']' :: rest =>
      let rest := skip f rest
      if rest.isEmpty then .error .classAfterClosing else pure ([range ']' ']'], rest)
    | start, cs => pure (start, cs)
  let (rs, rest) ← classItems f (cs.length + 1) start cs
  return (.one negated (if f.ignoreCase then foldCase rs else rs), rest)

def decimal (cs : List Char) : Except Fault (Nat × List Char) :=
  let cs := cs.dropWhile Blank.isBlank
  let (ds, rest) := cs.span Char.isDigit
  let n := ds.foldl (fun n c => n * 10 + (c.toNat - '0'.toNat)) 0
  if ds.isEmpty then .error .noDigits
  else if n ≥ 0x100000000 then .error .badDecimal
  else .ok (n, rest.dropWhile Blank.isBlank)

def greed (f : Flags) (cs : List Char) : Bool × List Char :=
  match skip f cs with
  | '?' :: rest => (f.swapGreed, rest)
  | _ => (!f.swapGreed, cs)

def counted (f : Flags) (n : Node) (cs : List Char) : Except Fault (Node × List Char) := do
  let cs := skip f cs
  if cs.isEmpty then .error .countUnclosed
  let (least, cs) ← decimal cs
  let (most, cs) ← match cs with
    | [] => .error .countMinUnclosed
    | ',' :: rest =>
      match skip f rest with
      | [] => .error .countCommaUnclosed
      | '\x7d' :: rest => pure (none, '\x7d' :: rest)
      | rest => do
        let (most, rest) ← decimal rest
        if rest.isEmpty then .error .countBothUnclosed
        pure (some most, rest)
    | cs => pure (some least, cs)
  match cs with
  | '\x7d' :: rest =>
    let (greedy, rest) := greed f rest
    if most.any (· < least) then .error .countRange
    return (.times least most greedy n, rest)
  | _ => .error .countBrace

def setFlag (f : Flags) (value : Bool) : Char → Except Fault Flags
  | 'i' => .ok { f with ignoreCase := value }
  | 'm' => .ok { f with multiLine := value }
  | 's' => .ok { f with dotTakesLineFeed := value }
  | 'U' => .ok { f with swapGreed := value }
  | 'x' => .ok { f with ignoreBlanks := value }
  | 'R' => .ok { f with carriageReturns := value }
  | _ => .error .unknownFlag

def flags : Flags → Bool → List Char → List Char → Except Fault (Flags × List Char)
  | _, _, _, [] => .error .flagsEnd
  | f, negated, seen, c :: cs =>
    if c = ':' ∨ c = ')' then
      if seen.head? = some '-' then .error .danglingNegation else .ok (f, c :: cs)
    else if c = '-' then
      if negated then .error .repeatedNegation else flags f true ('-' :: seen) cs
    else
      match setFlag f (!negated) c with
      | .ok f => if seen.contains c then .error .duplicateFlag else flags f negated (c :: seen) cs
      | .error e => .error e

def isNameChar (first : Bool) (c : Char) : Bool :=
  c = '_' || c.isAlpha || c.toNat ≥ 128 ||
    (!first && (c.isDigit || c = '.' || c = '[' || c = ']'))

def groupName (cs : List Char) : Except Fault (String × List Char) :=
  if cs.isEmpty then .error .missingName
  else
    let (name, rest) := cs.span (· != '>')
    let good := match name with
      | c :: more => isNameChar true c && more.all (isNameChar false)
      | [] => true
    if !good then .error .badName
    else if rest.isEmpty then .error .unclosedName
    else if name.isEmpty then .error .emptyName
    else .ok (String.ofList name, rest.drop 1)

def sequence (nodes : List Node) : Node :=
  match nodes.reverse with
  | [] => .empty
  | n :: ns => ns.foldl (fun acc m => .seq m acc) n

def choice (branches : List Node) : Node :=
  match branches with
  | [] => .empty
  | n :: ns => ns.foldl (fun acc m => .alt m acc) n

/-- The nodes up to the end of the group, the most recent first in `nodes`; `branches` holds the
branches in front, most recent first. The fuel bounds the nodes. -/
def nodes : Nat → Bool → Flags → List Node → List Node → State →
    Except Fault (Node × State)
  | 0, _, _, branches, ns, s => .ok (choice (sequence ns.reverse :: branches), s)
  | fuel + 1, inner, f, branches, ns, s =>
    let next (n : Node) (rest : List Char) : Except Fault (Node × State) :=
      nodes fuel inner f branches (n :: ns) { s with rest := rest }
    let repeated (least : Nat) (most : Option Nat) (rest : List Char) :
        Except Fault (Node × State) :=
      match ns with
      | [] => .error .nothingToRepeat
      | n :: ns =>
        let (greedy, rest) := greed f rest
        nodes fuel inner f branches (.times least most greedy n :: ns) { s with rest := rest }
    let group (f' : Flags) (s : State) (wrap : Node → Node) : Except Fault (Node × State) :=
      match nodes fuel true f' [] [] s with
      | .ok (n, s) => nodes fuel inner f branches (wrap n :: ns) s
      | .error e => .error e
    match skip f s.rest with
    | [] =>
      if inner then .error .unclosedGroup
      else .ok (choice (sequence ns.reverse :: branches), s)
    | ')' :: rest =>
      if inner then .ok (choice (sequence ns.reverse :: branches), { s with rest := rest })
      else .error .unopenedGroup
    | '|' :: rest => nodes fuel inner f (sequence ns.reverse :: branches) [] { s with rest := rest }
    | '*' :: rest => repeated 0 none rest
    | '+' :: rest => repeated 1 none rest
    | '?' :: rest => repeated 0 (some 1) rest
    | '\x7b' :: rest =>
      match ns with
      | [] => .error .nothingToCount
      | n :: ns =>
        match counted f n rest with
        | .ok (n, rest) => nodes fuel inner f branches (n :: ns) { s with rest := rest }
        | .error e => .error e
    | '.' :: rest => next (dot f) rest
    | '^' :: rest => next (.place (if f.multiLine then .lineStart else .start)) rest
    | '$' :: rest => next (.place (if f.multiLine then .lineStop else .stop)) rest
    | '[' :: rest =>
      match bracket f rest with
      | .ok (n, rest) => next n rest
      | .error e => .error e
    | '\\' :: rest =>
      match escape f rest with
      | .ok (i, rest) => next (i.node f) rest
      | .error e => .error e
    | '(' :: rest =>
      let named (rest : List Char) : Except Fault (Node × State) :=
        match groupName rest with
        | .ok (name, rest) =>
          if s.names.any (·.2 = name) then .error .duplicateName
          else
            group f ⟨rest, s.next + 1, (s.next, name) :: s.names⟩ (.group s.next)
        | .error e => .error e
      match skip f rest with
      | '?' :: '=' :: _ | '?' :: '!' :: _ | '?' :: '<' :: '=' :: _ | '?' :: '<' :: '!' :: _ =>
        .error .lookAround
      | '?' :: 'P' :: '<' :: rest | '?' :: '<' :: rest => named rest
      | ['?'] => .error .unclosedQuestion
      | '?' :: rest =>
        match flags f false [] rest with
        | .error e => .error e
        | .ok (f', ')' :: after) =>
          if rest.head? = some ')' then .error .noFlags
          else nodes fuel inner f' branches ns { s with rest := after }
        | .ok (f', after) => group f' { s with rest := after.drop 1 } id
      | rest => group f { s with rest := rest, next := s.next + 1 } (.group s.next)
    | c :: rest => next ((Item.char c).node f) rest

end Reader

def compile (f : Flags) (text : String) : Except Fault Compiled :=
  match Reader.nodes (2 * text.length + 2) false f [] [] ⟨text.toList, 1, []⟩ with
  | .ok (n, s) => .ok ⟨n, s.names⟩
  | .error e => .error e

end JsonFilter.Pattern
