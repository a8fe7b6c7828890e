import JsonFilter.Proofs.Stream

namespace JsonFilter

namespace Results

def leading : List (Except String Json) → List Json
  | .ok j :: items => j :: leading items
  | _ => []

/-- The marker behind the leading values: the message of the item there, if it is an error. -/
def marker (items : List (Except String Json)) : Document :=
  match items[(leading items).length]? with
  | some (.error m) => .invalid (some m)
  | _ => .invalid none

@[simp] theorem leading_ok (j : Json) (items : List (Except String Json)) :
    leading (.ok j :: items) = j :: leading items := rfl

def asked (place : Nat) : Event := .debugged (toString place)

/-- Items from a place on whose backend logs every request, also the one at their end. -/
def watched (place : Nat) : List (Except String Json) → Results
  | [] => .note (asked place) fun _ => .done
  | r :: items => .note (asked place) fun _ => .item r fun _ => watched (place + 1) items

@[simp] theorem toList_watched (place : Nat) (items : List (Except String Json)) :
    (watched place items).toList = items := by
  induction items generalizing place with
  | nil => rfl
  | cons r items ih => exact congrArg (r :: ·) (ih (place + 1))

end Results

namespace Stream

open Results (leading leading_ok marker asked watched)

theorem next_source (rs : Results) (pulled : Nat) :
    let p := next ⟨some fun _ => rs, pulled⟩
    (∃ j rest, rs.toList = .ok j :: (rest ()).toList ∧ p.value = .json j ∧
        p.stream = ⟨some rest, pulled + 1⟩) ∨
      leading rs.toList = [] ∧ p.value = marker rs.toList ∧ p.stream = ⟨none, pulled⟩ := by
  induction rs with
  | done | interrupted i => exact .inr ⟨rfl, rfl, rfl⟩
  | note e rest ih => exact ih ()
  | item r rest =>
    cases r with
    | error m => exact .inr ⟨rfl, rfl, rfl⟩
    | ok j => exact .inl ⟨j, rest, rfl, rfl, rfl⟩

/-- What a stream hands out and how it counts, over any number of pulls. -/
structure Fused (s : Stream) (values : List Json) (terminal : Document) : Prop where
  pulls (n : Nat) : s.pulls n =
    (values.map Document.json ++ terminal :: List.replicate n (.invalid none)).take n
  pulled (n : Nat) : (s.after n).pulled = min n values.length
  isEnded (n : Nat) : (s.after n).isEnded = true ↔ values.length < n

/-- Invariant of a run: so many pulls later the stream has handed out the leading values and the
marker, as far as it was asked for them, and stands behind them. -/
theorem run_source (rs : Results) (pulled : Nat) {n m : Nat} (enough : n ≤ m) :
    let s : Stream := ⟨some fun _ => rs, pulled⟩
    let values := leading rs.toList
    s.pulls n = (values.map Document.json ++ marker rs.toList ::
        List.replicate m (.invalid none)).take n ∧
      (s.after n).pulled = pulled + min n values.length ∧
      ((s.after n).isEnded = true ↔ values.length < n) := by
  induction n generalizing rs pulled with
  | zero => exact ⟨rfl, rfl, by simp [after, isEnded]⟩
  | succ n ih =>
    have fewer : n ≤ m := Nat.le_of_succ_le enough
    dsimp only
    rw [Stream.pulls, after]
    rcases next_source rs pulled with ⟨j, rest, items, value, stream⟩ | ⟨none, value, stream⟩
    · obtain ⟨pulls, count, ended⟩ := ih (rest ()) (pulled + 1) fewer
      rw [items, value, stream]
      refine ⟨congrArg (Document.json j :: ·) pulls, ?_, ?_⟩
      · refine count.trans ?_
        rw [leading_ok, List.length_cons]
        omega
      · refine ended.trans ?_
        rw [leading_ok, List.length_cons]
        omega
    · rw [none, value, stream, pulls_ended, after_ended]
      exact ⟨by simp [fewer], by simp, by simp [isEnded]⟩

theorem fused_ofResults (rs : Results) :
    (ofResults rs).Fused (leading rs.toList) (marker rs.toList) where
  pulls n := (run_source rs 0 (Nat.le_refl n)).1
  pulled n := (run_source rs 0 (Nat.le_refl n)).2.1.trans (Nat.zero_add _)
  isEnded n := (run_source rs 0 (Nat.le_refl n)).2.2

theorem fused_ended (terminal : Document) :
    (ended terminal).Fused [] (if terminal.isValid then .invalid none else terminal) := by
  cases terminal with
  | json j => exact fused_ofResults .done
  | invalid m =>
    cases m with
    | none => exact fused_ofResults .done
    | some m => exact fused_ofResults (.ofList [.error m])

def logged : Stream → Nat → List Event
  | _, 0 => []
  | s, n + 1 => s.next.events ++ logged s.next.stream n

theorem logged_ended (pulled n : Nat) : logged ⟨none, pulled⟩ n = [] := by
  induction n with
  | zero => rfl
  | succ n ih => exact ih

def requests (es : List Event) : List Event :=
  es.filter fun e => e matches .debugged _

theorem requests_watched (items : List (Except String Json)) (place pulled n : Nat) :
    requests (logged ⟨some fun _ => watched place items, pulled⟩ n) =
      (List.range' place (min n ((leading items).length + 1))).map asked := by
  induction n generalizing items place pulled with
  | zero => simp [logged, requests]
  | succ n ih =>
    have request (r : Except String Json) (items : List (Except String Json)) (es : List Event) :
        requests (asked place :: es) = asked place :: requests es := rfl
    rcases items with _ | ⟨m | j, items⟩
    · have log : logged ⟨some fun _ => watched place [], pulled⟩ (n + 1) =
          asked place :: logged ⟨none, pulled⟩ n := rfl
      rw [log, logged_ended]
      simp [leading, requests, asked]
    · have log : logged ⟨some fun _ => watched place (.error m :: items), pulled⟩ (n + 1) =
          asked place :: logged ⟨none, pulled⟩ n := rfl
      rw [log, logged_ended]
      simp [leading, requests, asked]
    · have log : logged ⟨some fun _ => watched place (.ok j :: items), pulled⟩ (n + 1) =
          asked place :: .resultPulled pulled ::
            logged ⟨some fun _ => watched (place + 1) items, pulled + 1⟩ n := rfl
      have later := ih items (place + 1) (pulled + 1)
      have least : min (n + 1) ((leading (.ok j :: items)).length + 1) =
          min n ((leading items).length + 1) + 1 := by
        rw [leading_ok, List.length_cons]
        omega
      rw [log, least, List.range'_succ, List.map_cons, ← later]
      rfl

/-- Over any number of pulls a stream hands out the values in front of the first error, then one
marker, and then end markers; it counts the values, has ended once it was pulled behind them, and
asks its backend for nothing behind the place of the marker. A stream that ends at once is one
without values. -/
theorem fused :
    (∀ rs : Results, (ofResults rs).Fused (leading rs.toList) (marker rs.toList)) ∧
    (∀ (items : List (Except String Json)) (n : Nat), (watched 0 items).toList = items ∧
      requests (logged (ofResults (watched 0 items)) n) =
        (List.range (min n ((leading items).length + 1))).map asked) ∧
    ∀ terminal : Document,
      (ended terminal).Fused [] (if terminal.isValid then .invalid none else terminal) := by
  refine ⟨fused_ofResults, fun items n => ⟨Results.toList_watched 0 items, ?_⟩, fused_ended⟩
  rw [List.range_eq_range']
  exact requests_watched items 0 0 n

example : (ofResults (.ofList [.ok .null, .error "boom", .ok (.bool true)])).pulls 4 =
    [.json .null, .invalid (some "boom"), .invalid none, .invalid none] := rfl

end Stream

end JsonFilter
