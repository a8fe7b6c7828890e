import JsonFilter.Json.Reader

namespace JsonFilter.Json

theorem bind_eq_ok {ε α β : Type} {m : Except ε α} {k : α → Except ε β} {y : β} :
    (m >>= k) = .ok y ↔ ∃ x, m = .ok x ∧ k x = .ok y := by
  cases m with
  | error e =>
    constructor
    · intro h
      cases h
    · rintro ⟨x, h, -⟩
      cases h
  | ok x =>
    constructor
    · exact fun h => ⟨x, rfl, h⟩
    · rintro ⟨_, h, read⟩
      cases h
      exact read

namespace Grammar

variable {α : Type}

def Blanks (b : List Char) : Prop := ∀ c ∈ b, c ∈ [' ', '\t', '\n', '\r']

section Strings

def letters : List (Char × Char) :=
  [('"', '"'), ('\\', '\\'), ('/', '/'), ('b', '\x08'), ('f', '\x0c'), ('n', '\n'), ('r', '\r'),
    ('t', '\t')]

inductive CodeUnit : Nat → List Char → Prop
  | mk {a b c d : Char} {w x y z : Nat} (first : Quoted.hexValue? a = some w)
      (second : Quoted.hexValue? b = some x) (third : Quoted.hexValue? c = some y)
      (fourth : Quoted.hexValue? d = some z) :
      CodeUnit (((w * 16 + x) * 16 + y) * 16 + z) [a, b, c, d]

def HighSurrogate (n : Nat) : Prop := 0xD800 ≤ n ∧ n ≤ 0xDBFF

def LowSurrogate (n : Nat) : Prop := 0xDC00 ≤ n ∧ n ≤ 0xDFFF

/-- A character as itself, by its letter, by its number, or by two surrogates one right behind the
other. -/
inductive Character : Char → List Char → Prop
  | plain {c : Char} (quote : c ≠ '"') (backslash : c ≠ '\\') (visible : 0x20 ≤ c.toNat) :
      Character c [c]
  | letter {l c : Char} (stands : (l, c) ∈ letters) : Character c ['\\', l]
  | single {n : Nat} {t : List Char} (unit : CodeUnit n t) (high : ¬ HighSurrogate n)
      (low : ¬ LowSurrogate n) : Character (Char.ofNat n) ('\\' :: 'u' :: t)
  | pair {m n : Nat} {t u : List Char} (lead : CodeUnit m t) (high : HighSurrogate m)
      (trail : CodeUnit n u) (low : LowSurrogate n) :
      Character (Char.ofNat (0x10000 + (m - 0xD800) * 0x400 + (n - 0xDC00)))
        ('\\' :: 'u' :: (t ++ '\\' :: 'u' :: u))

inductive Characters : List Char → List Char → Prop
  | nil : Characters [] []
  | cons {c : Char} {s t u : List Char} (first : Character c t) (others : Characters s u) :
      Characters (c :: s) (t ++ u)

inductive Quotation : String → List Char → Prop
  | mk {s t : List Char} (inside : Characters s t) : Quotation (String.ofList s) ('"' :: (t ++ ['"']))

end Strings

section Numbers

def Digits (ds : List Char) : Prop := ds ≠ [] ∧ ∀ c ∈ ds, c.isDigit = true

inductive Sign : Bool → List Char → Prop
  | none : Sign false []
  | minus : Sign true ['-']

inductive Fraction : Option (List Char) → List Char → Prop
  | none : Fraction none []
  | some {ds : List Char} (digits : Digits ds) : Fraction (some ds) ('.' :: ds)

inductive ExponentSign : Bool → List Char → Prop
  | none : ExponentSign false []
  | plus : ExponentSign false ['+']
  | minus : ExponentSign true ['-']

inductive Exponent : Option (Bool × List Char) → List Char → Prop
  | none : Exponent none []
  | some {e : Char} {negative : Bool} {s ds : List Char} (letter : e = 'e' ∨ e = 'E')
      (sign : ExponentSign negative s) (digits : Digits ds) :
      Exponent (some (negative, ds)) (e :: (s ++ ds))

inductive Literal : Numeral → List Char → Prop
  | mk {negative : Bool} {whole : List Char} {fraction : Option (List Char)}
      {exponent : Option (Bool × List Char)} {s f e : List Char} (sign : Sign negative s)
      (digits : Digits whole) (leading : whole.head? = some '0' → whole = ['0'])
      (point : Fraction fraction f) (power : Exponent exponent e) :
      Literal ⟨negative, whole, fraction, exponent⟩ (s ++ (whole ++ (f ++ e)))

end Numbers

/-- Literals that denote no number are those beyond the largest float. -/
inductive Scalar : Json → List Char → Prop
  | null : Scalar .null "null".toList
  | true : Scalar (.bool true) "true".toList
  | false : Scalar (.bool false) "false".toList
  | number {n : Numeral} {v : Number} {t : List Char} (literal : Literal n t)
      (denotes : n.number? = some v) : Scalar (.num v) t
  | string {s : String} {t : List Char} (quoted : Quotation s t) : Scalar (.str s) t

section Containers

inductive Padded (P : α → List Char → Prop) (x : α) : List Char → Prop
  | mk {b t b' : List Char} (before : Blanks b) (spelled : P x t) (behind : Blanks b') :
      Padded P x (b ++ (t ++ b'))

inductive Separated (P : α → List Char → Prop) : List α → List Char → Prop
  | one {x : α} {t : List Char} (only : P x t) : Separated P [x] t
  | cons {x : α} {xs : List α} {t u : List Char} (first : P x t) (others : Separated P xs u) :
      Separated P (x :: xs) (t ++ ',' :: u)

variable (P : Json → List Char → Prop)

inductive Member : String × Json → List Char → Prop
  | mk {k : String} {x : Json} {t b b' u : List Char} (key : Quotation k t) (before : Blanks b)
      (behind : Blanks b') (value : P x u) : Member (k, x) (t ++ (b ++ ':' :: (b' ++ u)))

/-- A member whose key was there before takes the place of that one. -/
inductive Container : Json → List Char → Prop
  | noItems {b : List Char} (blanks : Blanks b) : Container (.arr []) ('[' :: (b ++ [']']))
  | items {xs : List Json} {t : List Char} (items : Separated (Padded P) xs t) :
      Container (.arr xs) ('[' :: (t ++ [']']))
  | noMembers {b : List Char} (blanks : Blanks b) : Container (.obj []) ('\x7b' :: (b ++ ['\x7d']))
  | members {ms : Members Json} {t : List Char} (members : Separated (Padded (Member P)) ms t) :
      Container (.obj (Members.ofPairs ms)) ('\x7b' :: (t ++ ['\x7d']))

end Containers

def Value : Nat → Json → List Char → Prop
  | 0, j, t => Scalar j t
  | depth + 1, j, t => Scalar j t ∨ Container (Value depth) j t

end Grammar

end JsonFilter.Json
