namespace JsonFilter.Utf8

def byteCount (cs : List Char) : Nat := cs.foldr (fun c n => c.utf8Size + n) 0

/-- Where a text is broken; no length if it ends too early. -/
structure Fault where
  index : Nat
  length : Option Nat
deriving DecidableEq, Repr

def Fault.message (f : Fault) : String :=
  match f.length with
  | some n => "invalid utf-8 sequence of " ++ toString n ++ " bytes from index " ++ toString f.index
  | none => "incomplete utf-8 byte sequence from index " ++ toString f.index

/-- The bytes that may follow a first byte: the range of the second one, and how many there are. -/
def following (b : Nat) : Option (Nat × Nat × Nat) :=
  if 0xC2 ≤ b ∧ b ≤ 0xDF then some (0x80, 0xBF, 1)
  else if b = 0xE0 then some (0xA0, 0xBF, 2)
  else if b = 0xED then some (0x80, 0x9F, 2)
  else if 0xE1 ≤ b ∧ b ≤ 0xEF then some (0x80, 0xBF, 2)
  else if b = 0xF0 then some (0x90, 0xBF, 3)
  else if b = 0xF4 then some (0x80, 0x8F, 3)
  else if 0xF1 ≤ b ∧ b ≤ 0xF3 then some (0x80, 0xBF, 3)
  else none

def leadBits (b count : Nat) : Nat :=
  match count with
  | 1 => b % 0x20
  | 2 => b % 0x10
  | _ => b % 0x08

/-- Takes `count` bytes after a first one into `n`, or gives how many of them fit. -/
def continued (low high count n taken : Nat) : List Nat → Except (Option Nat) (Nat × List Nat)
  | bs =>
    match count, bs with
    | 0, bs => .ok (n, bs)
    | _ + 1, [] => .error none
    | count + 1, b :: bs =>
      if low ≤ b ∧ b ≤ high then continued 0x80 0xBF count (n * 64 + b % 64) (taken + 1) bs
      else .error (some taken)

/-- Reads bytes from place `i` on, the most recent character first in `acc`. -/
def decodeFrom : Nat → Nat → List Char → List Nat → Except Fault (List Char)
  | 0, _, acc, _ => .ok acc.reverse
  | _ + 1, _, acc, [] => .ok acc.reverse
  | fuel + 1, i, acc, b :: bs =>
    if b < 0x80 then decodeFrom fuel (i + 1) (Char.ofNat b :: acc) bs
    else
      match following b with
      | none => .error ⟨i, some 1⟩
      | some (low, high, count) =>
        match continued low high count (leadBits b count) 1 bs with
        | .ok (n, rest) => decodeFrom fuel (i + count + 1) (Char.ofNat n :: acc) rest
        | .error length => .error ⟨i, length⟩

def decode (bytes : List Nat) : Except Fault String :=
  (decodeFrom (bytes.length + 1) 0 [] bytes).map String.ofList

def encodeChar (c : Char) : List Nat :=
  let n := c.toNat
  if n < 0x80 then [n]
  else if n < 0x800 then [0xC0 + n / 64, 0x80 + n % 64]
  else if n < 0x10000 then [0xE0 + n / 4096, 0x80 + n / 64 % 64, 0x80 + n % 64]
  else [0xF0 + n / 262144, 0x80 + n / 4096 % 64, 0x80 + n / 64 % 64, 0x80 + n % 64]

def encode (s : String) : List Nat := s.toList.flatMap encodeChar

end JsonFilter.Utf8
