import JsonFilter.Session

namespace JsonFilter

namespace Results

def interruption? : Results → Option Interruption
  | .done => none
  | .interrupted i => some i
  | .item _ rest => interruption? (rest ())
  | .note _ rest => interruption? (rest ())

@[simp] theorem interruption?_ofList (items : List (Except String Json)) :
    (ofList items).interruption? = none := by
  induction items with
  | nil => rfl
  | cons item items ih => exact ih

def message? : Except String Json → Option String
  | .error m => some m
  | .ok _ => none

def firstError? (items : List (Except String Json)) : Option String := items.findSome? message?

def values (items : List (Except String Json)) : List Json := items.filterMap Except.toOption

@[simp] theorem firstError?_ok (j : Json) (items : List (Except String Json)) :
    firstError? (.ok j :: items) = firstError? items := rfl

@[simp] theorem values_ok (j : Json) (items : List (Except String Json)) :
    values (.ok j :: items) = j :: values items := rfl

def drained (shape : Shape) (texts : List String) (items : List (Except String Json))
    (cut : Option Interruption) : Except Interruption (Except Failure (List String)) :=
  match firstError? items, cut with
  | some m, _ => .ok (.error ⟨.runtime, m⟩)
  | none, some i => .error i
  | none, none => .ok (.ok (texts ++ (values items).map shape.text))

theorem drained_ok (shape : Shape) (texts : List String) (j : Json)
    (items : List (Except String Json)) (cut : Option Interruption) :
    drained shape texts (.ok j :: items) cut =
      drained shape (texts ++ [shape.text j]) items cut := by
  unfold drained
  rw [firstError?_ok]
  cases firstError? items with
  | some m => rfl
  | none =>
    cases cut with
    | some i => rfl
    | none => simp only [values_ok, List.map_cons, List.append_assoc, List.singleton_append]

theorem drain_value (shape : Shape) (rs : Results) (pulled : Nat) (acc : List String)
    (es : List Event) :
    (rs.drain shape pulled acc es).value = drained shape acc.reverse rs.toList rs.interruption? := by
  -- the accumulator holds the texts of the values before `rs`
  induction rs generalizing pulled acc es with
  | done => simp only [drain, toList, interruption?, drained, firstError?, values, List.findSome?_nil,
      List.filterMap_nil, List.map_nil, List.append_nil]
  | interrupted i => rfl
  | note e rest ih => exact ih () pulled acc (e :: es)
  | item result rest ih =>
    cases result with
    | error m => rfl
    | ok j =>
      have later := ih () (pulled + 1) (shape.text j :: acc) (.resultPulled pulled :: es)
      rw [List.reverse_cons] at later
      rw [toList, drained_ok]
      exact later

end Results

namespace Stream

theorem collect_value (shape : Shape) (rs : Results) :
    ((ofResults rs).collect shape).value = Results.drained shape [] rs.toList rs.interruption? :=
  Results.drain_value shape rs 0 [] []

def sampled (shape : Shape) : List (Except String Json) → Option Interruption →
    Except Interruption (Except Failure String)
  | .ok j :: _, _ => .ok (.ok (shape.text j))
  | .error m :: _, _ => .ok (.error ⟨.runtime, m⟩)
  | [], some i => .error i
  | [], none => .ok (.ok "null")

theorem first_value (shape : Shape) (rs : Results) :
    ((ofResults rs).first shape).value = sampled shape rs.toList rs.interruption? := by
  induction rs with
  | done => rfl
  | interrupted i => rfl
  | note e rest ih => exact ih ()
  | item result rest =>
    cases result with
    | error m => rfl
    | ok j => rfl

theorem pulls_ended (pulled n : Nat) :
    pulls ⟨none, pulled⟩ n = List.replicate n (Document.invalid none) := by
  induction n with
  | zero => rfl
  | succ n ih =>
    rw [List.replicate_succ, ← ih]
    rfl

theorem after_ended (pulled n : Nat) : after ⟨none, pulled⟩ n = ⟨none, pulled⟩ := by
  induction n with
  | zero => rfl
  | succ n ih => exact ih

theorem uninterrupted_ended (pulled n : Nat) : interruption? ⟨none, pulled⟩ n = none := by
  induction n with
  | zero => rfl
  | succ n ih => exact ih

theorem next_marker (m : Option String) :
    (ended (.invalid m)).next.value = .invalid m ∧ (ended (.invalid m)).next.stream = ⟨none, 0⟩ := by
  cases m <;> exact ⟨rfl, rfl⟩

/-- A stream that ends at once hands out its marker, and then end markers for ever. -/
theorem pulls_marker (m : Option String) (n : Nat) :
    (ended (.invalid m)).pulls n =
      (Document.invalid m :: List.replicate n (Document.invalid none)).take n := by
  obtain ⟨value, stream⟩ := next_marker m
  cases n with
  | zero => rfl
  | succ n =>
    rw [pulls, value, stream, pulls_ended]
    simp

theorem after_marker (m : Option String) (n : Nat) :
    ((ended (.invalid m)).after n).pulled = 0 ∧
      ((ended (.invalid m)).after n).isEnded = decide (0 < n) := by
  obtain ⟨-, stream⟩ := next_marker m
  cases n with
  | zero => cases m <;> exact ⟨rfl, rfl⟩
  | succ n =>
    rw [after, stream, after_ended]
    exact ⟨rfl, (decide_eq_true n.succ_pos).symm⟩

theorem uninterrupted_marker (m : Option String) (n : Nat) :
    (ended (.invalid m)).interruption? n = none := by
  obtain ⟨-, stream⟩ := next_marker m
  cases n with
  | zero => rfl
  | succ n =>
    have first : (ended (.invalid m)).next.interruption = none := by cases m <;> rfl
    rw [interruption?, first, stream, Option.none_or, uninterrupted_ended]

theorem pulls_prefix (s : Stream) {n m : Nat} (h : n ≤ m) : s.pulls n <+: s.pulls m := by
  induction n generalizing s m with
  | zero => exact List.nil_prefix
  | succ n ih =>
    obtain ⟨m, rfl⟩ : ∃ k, m = k + 1 := ⟨m - 1, by omega⟩
    exact List.cons_prefix_cons.mpr ⟨rfl, ih s.next.stream (by omega)⟩

end Stream

end JsonFilter
