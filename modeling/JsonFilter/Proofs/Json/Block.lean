import JsonFilter.Proofs.Json.Layout

namespace JsonFilter.Json

def inside (pretty : Bool) (depth : Nat) : List (List Char) → List Char
  | [] => []
  | part :: parts => lineBreak pretty (depth + 1) ++ (part ++
      (parts.flatMap (fun p => ',' :: (lineBreak pretty (depth + 1) ++ p)) ++
        lineBreak pretty depth))

def memberChars (pretty : Bool) (depth : Nat) (m : String × Json) : List Char :=
  Quoted.document m.1 ++ (colon pretty ++ m.2.chars pretty depth)

theorem itemsChars_eq_flatMap (pretty : Bool) (depth : Nat) (xs : List Json) :
    itemsChars pretty depth xs =
      (xs.map (chars pretty depth)).flatMap fun p => ',' :: (lineBreak pretty depth ++ p) := by
  induction xs with
  | nil => rfl
  | cons x xs ih => simp [itemsChars, ih]

theorem membersChars_eq_flatMap (pretty : Bool) (depth : Nat) (ms : Members Json) :
    membersChars pretty depth ms =
      (ms.map (memberChars pretty depth)).flatMap
        fun p => ',' :: (lineBreak pretty depth ++ p) := by
  induction ms with
  | nil => rfl
  | cons m ms ih =>
    obtain ⟨k, x⟩ := m
    simp [membersChars, memberChars, ih]

theorem chars_arr (pretty : Bool) (depth : Nat) (xs : List Json) :
    (Json.arr xs).chars pretty depth =
      '[' :: (inside pretty depth (xs.map (chars pretty (depth + 1))) ++ [']']) := by
  cases xs with
  | nil => rfl
  | cons x xs => simp [chars, inside, itemsChars_eq_flatMap]

theorem chars_obj (pretty : Bool) (depth : Nat) (ms : Members Json) :
    (Json.obj ms).chars pretty depth =
      '\x7b' :: (inside pretty depth (ms.map (memberChars pretty (depth + 1))) ++ ['\x7d']) := by
  cases ms with
  | nil => rfl
  | cons m ms =>
    obtain ⟨k, x⟩ := m
    simp [chars, inside, memberChars, membersChars_eq_flatMap]

end JsonFilter.Json
