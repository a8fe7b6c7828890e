import JsonFilter.Proofs.Interpreted

namespace JsonFilter

/-- The same results, and any at all where the first ones are unfinished. -/
inductive Results.Extends : Results → Results → Prop
  | unfinished (rs : Results) : Extends (.interrupted .unfinished) rs
  | done : Extends .done .done
  | exit (e : Exit) : Extends (.interrupted (.exit e)) (.interrupted (.exit e))
  | item {r : Except String Json} {rest rest' : Unit → Results}
    (later : Extends (rest ()) (rest' ())) : Extends (.item r rest) (.item r rest')
  | note {e : Event} {rest rest' : Unit → Results}
    (later : Extends (rest ()) (rest' ())) : Extends (.note e rest) (.note e rest')

theorem Filter.Machine.results_extends (lib : Library) (host : Host) (m : Machine)
    (steps more : Nat) :
    (m.results lib host steps).Extends (m.results lib host (steps + more)) := by
  induction steps generalizing m with
  | zero => exact .unfinished _
  | succ steps ih =>
    rw [Nat.add_right_comm, results, results]
    cases m.step lib host with
    | next m => exact ih m
    | item v m => exact .item (ih m)
    | note n m => exact .note (ih m)
    | failed e => exact .item .done
    | exit e => exact .exit e
    | done => exact .done

def Filter.Setting.longer (s : Setting) (more : Nat) : Setting :=
  { s with patience := s.patience + more }

theorem Filter.Program.results_longer (p : Program) (s : Setting) (more : Nat) (input : Json) :
    (p.results s input).Extends (p.results (s.longer more) input) := by
  have watched : watched (s.longer more) input = watched s input + more :=
    Nat.add_right_comm s.patience more (64 * input.size)
  unfold results
  rw [watched]
  exact Machine.results_extends library s.host _ _ more

/-- Settings in which each evaluation is watched for more steps. -/
def Interpreter.World.longer (w : World) (more : Nat → Nat) : World :=
  fun n => (w n).longer (more n)

namespace Results.Extends

variable {rs rs' : Results} (grown : rs.Extends rs') (shape : Shape)

include grown

theorem drain_value (pulled : Nat) (acc : List String) (es : List Event)
    (finished : (rs.drain shape pulled acc es).value ≠ .error .unfinished) :
    (rs'.drain shape pulled acc es).value = (rs.drain shape pulled acc es).value := by
  induction grown generalizing pulled acc es with
  | unfinished rs => exact absurd rfl finished
  | done => rfl
  | exit e => rfl
  | @note e rest rest' later ih => exact ih pulled acc (e :: es) finished
  | @item r rest rest' later ih =>
    cases r with
    | error m => rfl
    | ok j => exact ih (pulled + 1) (shape.text j :: acc) (.resultPulled pulled :: es) finished

theorem pull_eq (pulled : Nat)
    (finished : (Stream.pull pulled rs).interruption ≠ some .unfinished) :
    (Stream.pull pulled rs').value = (Stream.pull pulled rs).value ∧
      (Stream.pull pulled rs').interruption = (Stream.pull pulled rs).interruption := by
  induction grown with
  | unfinished rs => exact absurd rfl finished
  | done => exact ⟨rfl, rfl⟩
  | exit e => exact ⟨rfl, rfl⟩
  | note later ih => exact ih finished
  | @item r rest rest' later ih => cases r <;> exact ⟨rfl, rfl⟩

theorem first_value
    (finished : ((Stream.ofResults rs).first shape).value ≠ .error .unfinished) :
    ((Stream.ofResults rs').first shape).value = ((Stream.ofResults rs).first shape).value := by
  have seen : (Stream.pull 0 rs).interruption ≠ some .unfinished := by
    intro unfinished
    refine finished ?_
    simp only [Stream.first, Stream.next, Stream.ofResults, unfinished]
  obtain ⟨value, interruption⟩ := grown.pull_eq 0 seen
  simp only [Stream.first, Stream.next, Stream.ofResults, value, interruption]

theorem evaluate_value (o : Options)
    (finished : (Session.evaluate o rs).value ≠ .error .unfinished) :
    (Session.evaluate o rs').value = (Session.evaluate o rs).value := by
  unfold Session.evaluate at finished ⊢
  cases multiple : o.multipleOutputs with
  | true =>
    simp only [multiple, if_true] at finished ⊢
    refine congrArg (Except.map _) (grown.drain_value o.shape 0 [] [] fun unfinished => ?_)
    exact finished (congrArg (Except.map _) unfinished)
  | false =>
    simp only [multiple, Bool.false_eq_true, if_false] at finished ⊢
    refine congrArg (Except.map _) (grown.first_value o.shape fun unfinished => ?_)
    exact finished (congrArg (Except.map _) unfinished)

end Results.Extends

/-- What a request comes to does not depend on how long it was watched: once it is seen, more
patience shows the same. -/
theorem filterWith_longer (text filter : String) (o : Options) (t : Trace Interpreter.World)
    (more : Nat → Nat)
    (finished : (filterWith Interpreter.engine text filter o t).1 ≠ .interrupted .unfinished) :
    (filterWith Interpreter.engine text filter o { t with world := t.world.longer more }).1 =
      (filterWith Interpreter.engine text filter o t).1 := by
  cases compiled : Filter.Program.compile filter with
  | error ds =>
    rw [Interpreter.filterWith_refused o _ compiled, Interpreter.filterWith_refused o t compiled]
  | ok p =>
    rcases Document.ofText_cases text with ⟨j, parsed⟩ | ⟨m, rejected⟩
    · have outcome (t : Trace Interpreter.World) :
          (filterWith Interpreter.engine text filter o t).1 =
            .ofDrained (Session.evaluate o (p.results (t.world 0) j)).value := by
        rw [Interpreter.filterWith_evaluated o t compiled parsed, Session.evaluate_outcome]
      have longer := p.results_longer (t.world 0) (more 0) j
      rw [outcome] at finished
      rw [outcome, outcome]
      refine congrArg Outcome.ofDrained (longer.evaluate_value o fun unfinished => ?_)
      rw [unfinished] at finished
      exact finished rfl
    · rw [Interpreter.filterWith_unread o _ compiled rejected,
        Interpreter.filterWith_unread o t compiled rejected]

end JsonFilter
