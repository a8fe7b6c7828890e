import JsonFilter.Pattern.Reader

namespace JsonFilter.Pattern

/-- A place in a text: its number, the character in front, and what follows. -/
structure Cursor where
  index : Nat
  before : Option Char
  rest : List Char
deriving Repr

/-- Where the groups matched, the most recent one first. -/
abbrev Spans := List (Nat × Nat × Nat)

namespace Cursor

def start (text : List Char) : Cursor := ⟨0, none, text⟩

def isWordChar (c : Char) : Bool := c.isAlphanum || c = '_'

def wordBefore (k : Cursor) : Bool := k.before.any isWordChar

def wordAfter (k : Cursor) : Bool := k.rest.head?.any isWordChar

def holds (k : Cursor) : Place → Bool
  | .start => k.before.isNone
  | .stop => k.rest.isEmpty
  | .lineStart => k.before.all (· = '\n')
  | .lineStop => k.rest.head?.all (· = '\n')
  | .wordEdge => k.wordBefore != k.wordAfter
  | .noWordEdge => k.wordBefore == k.wordAfter
  | .wordStart => !k.wordBefore && k.wordAfter
  | .wordStop => k.wordBefore && !k.wordAfter
  | .wordStartHalf => !k.wordBefore
  | .wordStopHalf => !k.wordAfter

end Cursor

abbrev Follow := Cursor → Spans → Option (Nat × Spans)

mutual

def run : Nat → Node → Cursor → Spans → Follow → Option (Nat × Spans)
  | 0, _, _, _, _ => none
  | fuel + 1, n, k, spans, follow =>
    match n with
    | .empty => follow k spans
    | .one negated ranges =>
      match k.rest with
      | c :: rest =>
        if (ranges.any fun (a, b) => a ≤ c.toNat && c.toNat ≤ b) != negated then
          follow ⟨k.index + 1, some c, rest⟩ spans
        else none
      | [] => none
    | .place p => if k.holds p then follow k spans else none
    | .seq a b => run fuel a k spans fun k spans => run fuel b k spans follow
    | .alt a b =>
      match run fuel a k spans follow with
      | some r => some r
      | none => run fuel b k spans follow
    | .group i n => run fuel n k spans fun k' spans => follow k' ((i, k.index, k'.index) :: spans)
    | .times least most greedy n => again fuel least most greedy n k spans follow

def again : Nat → Nat → Option Nat → Bool → Node → Cursor → Spans → Follow → Option (Nat × Spans)
  | 0, _, _, _, _, _, _, _ => none
  | fuel + 1, least + 1, most, greedy, n, k, spans, follow =>
    run fuel n k spans fun k spans => again fuel least (most.map (· - 1)) greedy n k spans follow
  | fuel + 1, 0, most, greedy, n, k, spans, follow =>
    let more (_ : Unit) : Option (Nat × Spans) :=
      run fuel n k spans fun k' spans =>
        if k'.index = k.index then follow k' spans
        else again fuel 0 (most.map (· - 1)) greedy n k' spans follow
    if most = some 0 then follow k spans
    else if greedy then
      match more () with
      | some r => some r
      | none => follow k spans
    else
      match follow k spans with
      | some r => some r
      | none => more ()

end

def find (fuel : Nat) (n : Node) : List Char → Nat → Option Char → Option (Nat × Nat × Spans)
  | rest, index, before =>
    match run fuel n ⟨index, before, rest⟩ [] fun k spans => some (k.index, spans) with
    | some (stop, spans) => some (index, stop, spans)
    | none =>
      match rest with
      | [] => none
      | c :: rest => find fuel n rest (index + 1) (some c)

def findFrom (fuel : Nat) (n : Node) (text : List Char) (index : Nat) :
    Option (Nat × Nat × Spans) :=
  let before := if index = 0 then none else text[index - 1]?
  find fuel n (text.drop index) index before

/-- All matches from a place on, none inside another one. A match of nothing right behind a match
does not count. -/
def matchesFrom (fuel : Nat) (n : Node) (text : List Char) :
    Nat → Nat → Option Nat → List (Nat × Nat × Spans)
  | 0, _, _ => []
  | steps + 1, index, last =>
    if index > text.length then []
    else
      match findFrom fuel n text index with
      | none => []
      | some (a, b, spans) =>
        if a = b ∧ last = some b then matchesFrom fuel n text steps (index + 1) none
        else (a, b, spans) :: matchesFrom fuel n text steps b (some b)

structure Part where
  start : Nat
  stop : Nat
  name : Option String := none
deriving DecidableEq, Repr

def parts (names : List (Nat × String)) (groups : Nat) (m : Nat × Nat × Spans) : List Part :=
  ⟨m.1, m.2.1, none⟩ :: (List.range groups).filterMap fun i =>
    (m.2.2.lookup (i + 1)).map fun (a, b) => ⟨a, b, names.lookup (i + 1)⟩

def Node.groups : Node → Nat
  | .seq a b | .alt a b => a.groups + b.groups
  | .times _ _ _ n => n.groups
  | .group _ n => n.groups + 1
  | _ => 0

def Compiled.findAll (p : Compiled) (text : List Char) : List (List Part) :=
  let fuel := 4 * (p.node.weight + 1) * (text.length + 2)
  (matchesFrom fuel p.node text (2 * text.length + 2) 0 none).map
    (parts p.names p.node.groups)

end JsonFilter.Pattern
