namespace JsonFilter.Base64

def alphabet : List Char :=
  "ABCDEFGHIJKLMNOPQRSTUVWXYZabcdefghijklmnopqrstuvwxyz0123456789+/".toList

def symbol (n : Nat) : Char := alphabet.getD (n % 64) 'A'

def encode : List Nat → List Char
  | a :: b :: c :: rest =>
    symbol (a / 4) :: symbol (a % 4 * 16 + b / 16) :: symbol (b % 16 * 4 + c / 64) :: symbol c ::
      encode rest
  | [a, b] => [symbol (a / 4), symbol (a % 4 * 16 + b / 16), symbol (b % 16 * 4), '=']
  | [a] => [symbol (a / 4), symbol (a % 4 * 16), '=', '=']
  | [] => []

inductive Fault
  | symbol (byte index : Nat)
  | length (n : Nat)
  | lastSymbol (byte index : Nat)
  | padding
deriving DecidableEq, Repr

def Fault.message : Fault → String
  | .symbol b i => "Invalid symbol " ++ toString b ++ ", offset " ++ toString i ++ "."
  | .length n => "Invalid input length: " ++ toString n
  | .lastSymbol b i => "Invalid last symbol " ++ toString b ++ ", offset " ++ toString i ++ "."
  | .padding => "Invalid padding"

def value? (b : Nat) : Option Nat := alphabet.findIdx? fun c => c.toNat = b

def value (i b : Nat) : Except Fault Nat :=
  match value? b with
  | some n => .ok n
  | none => .error (.symbol b i)

def pad : Nat := '='.toNat

/-- The values of the symbols in the last group, which starts at `start`, and the padding behind
them. `first` is where the padding starts. -/
def lastGroup (start : Nat) : Nat → Option Nat → List Nat → List Nat →
    Except Fault (List Nat × Nat)
  | i, first, acc, [] => .ok (acc.reverse, (first.map (i - ·)).getD 0)
  | i, first, acc, b :: bs =>
    if b = pad then
      if i < 2 then .error (.symbol b (start + i))
      else lastGroup start (i + 1) (first.getD i) acc bs
    else
      match first with
      | some p => .error (.symbol pad (start + p))
      | none =>
        match value (start + i) b with
        | .ok n => lastGroup start (i + 1) none (n :: acc) bs
        | .error f => .error f

def finish (start : Nat) (bs : List Nat) : Except Fault (List Nat) := do
  let (ns, padding) ← lastGroup start 0 none [] bs
  let last (bits : Nat) : Except Fault Unit :=
    match ns.getLast? with
    | some n =>
      if n % (1 <<< bits) = 0 then .ok ()
      else .error (.lastSymbol (bs.getD (ns.length - 1) 0) (start + ns.length - 1))
    | none => .ok ()
  if ns.length < 2 then .error (.length (start + ns.length))
  else if (ns.length + padding) % 4 ≠ 0 then .error .padding
  else
    match ns with
    | [a, b] => do
      last 4
      return [a * 4 + b / 16]
    | [a, b, c] => do
      last 2
      return [a * 4 + b / 16, b % 16 * 16 + c / 4]
    | [a, b, c, d] => return [a * 4 + b / 16, b % 16 * 16 + c / 4, c % 4 * 64 + d]
    | _ => .error .padding

def groups : Nat → List Nat → List Nat → Except Fault (List Nat)
  | i, acc, a :: b :: c :: d :: e :: rest => do
    let w ← value i a
    let x ← value (i + 1) b
    let y ← value (i + 2) c
    let z ← value (i + 3) d
    let three := [y % 4 * 64 + z, x % 16 * 16 + y / 4, w * 4 + x / 16]
    groups (i + 4) (three ++ acc) (e :: rest)
  | i, acc, bs => do
    let last ← finish i bs
    return acc.reverse ++ last

def checkLast (bytes : List Nat) : Except Fault Unit :=
  match bytes.length % 4, bytes.getLast? with
  | 1, some b =>
    if b ≠ pad ∧ (value? b).isNone then .error (.symbol b (bytes.length - 1)) else .ok ()
  | _, _ => .ok ()

def decode (bytes : List Nat) : Except Fault (List Nat) := do
  if bytes.isEmpty then return []
  checkLast bytes
  groups 0 [] bytes

end JsonFilter.Base64
