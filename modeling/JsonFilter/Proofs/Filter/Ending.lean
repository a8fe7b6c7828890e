import JsonFilter.Proofs.Filter.Library
import JsonFilter.Proofs.Filter.Machine

namespace JsonFilter.Filter

theorem Resolve.term_native {lib : Library} {name : String} {f : Native} (fuel : Nat)
    (bare : module? name = none)
    (found : Callee.find? lib [] name 0 = some (.builtin (.plain f))) :
    (term lib (fuel + 4) [] (.call name [])).run [] = (.native f [], []) := by
  rw [term, call, List.length_nil, found, bare]
  rfl

theorem Resolve.term_native_one {lib : Library} {name number : String} {f : Native} (fuel : Nat)
    (bare : module? name = none)
    (found : Callee.find? lib [] name 1 = some (.builtin (.plain f))) :
    (term lib (fuel + 4) [] (.call name [.number number])).run [] =
      (.bind false (.const (.ofNumeral number.toList)) (.native f [0]), []) := by
  rw [term, call, List.length_singleton, found, bare]
  rfl

theorem Resolve.term_innermost (lib : Library) {name : String} (bare : module? name = none)
    (s : Scope) (fuel : Nat) :
    (term lib (fuel + 3) (.function name [] :: s) (.call name [])).run [] =
      (.callLocal 0 [], []) := by
  have found : Callee.find? lib (.function name [] :: s) name 0 = some (.function 0 []) := by
    simp [Callee.find?, Callee.local?]
  rw [term, call, List.length_nil, found, bare]
  rfl

theorem Resolve.term_circle (lib : Library) {name : String} (bare : module? name = none)
    (fuel : Nat) :
    (term lib (fuel + 4) [] (.define (.mk name [] (.call name [])) (.call name []))).run [] =
      (.define (.callLocal 0 []) (.callLocal 0 []), []) := by
  have called : term lib (fuel + 3) [.function name []] (.call name []) [] =
      (.callLocal 0 [], []) := term_innermost lib bare [] fuel
  rw [term]
  simp only [Definition.name, Definition.params, Definition.body, Scope.within, List.map_nil,
    List.reverse_nil, List.nil_append, StateT.run, bind, StateT.bind, called]
  rfl

namespace Program

theorem compile_bare {source : String} {t : Term} {c : Code}
    (read : Source.parse source.toList = .ok ⟨[], t⟩)
    (named : ∀ fuel, (Resolve.term library (fuel + 4) [] t).run [] = (c, [])) :
    compile source = .ok ⟨c, 0⟩ := by
  obtain ⟨fuel, steps⟩ : ∃ fuel, Source.steps source.toList = fuel + 4 :=
    ⟨8 * source.toList.length + 12, rfl⟩
  unfold compile ofTerm
  simp only [read, List.filterMap_nil, List.reverse_nil, steps, named, List.length_nil]

theorem compile_native {source : String} {f : Native}
    (read : Source.parse source.toList = .ok ⟨[], .call source []⟩)
    (bare : Resolve.module? source = none) (native : source ∈ ["halt", "halt_error", "stderr"])
    (found : Builtin.find? source 0 = some (.plain f)) (given : source ≠ "halt_error") :
    compile source = .ok ⟨.native f [], 0⟩ := by
  refine compile_bare read fun fuel => Resolve.term_native fuel bare ?_
  rw [Callee.find?_native native fun same => absurd same given, found]
  rfl

theorem compile_halt : compile "halt" = .ok ⟨.native Native.halt [], 0⟩ :=
  compile_native rfl (by decide) (by simp) rfl (by decide)

theorem compile_stderr : compile "stderr" = .ok ⟨.native Native.stderr [], 0⟩ :=
  compile_native rfl (by decide) (by simp) rfl (by decide)

def numberFor? (name : String) : Source → Option String
  | ⟨[], .call n [.number k]⟩ => if n = name then some k else none
  | _ => none

theorem numberFor?_eq_some {name number : String} {s : Source}
    (h : numberFor? name s = some number) : s = ⟨[], .call name [.number number]⟩ := by
  unfold numberFor? at h
  split at h
  · split at h <;> cases h
    subst_vars
    rfl
  · cases h

theorem parse_of_bind {α : Type} {source : String} {f : Source → Option α} {x : α}
    (read : (Source.parse source.toList).toOption.bind f = some x) :
    ∃ s, Source.parse source.toList = .ok s ∧ f s = some x := by
  obtain ⟨s, parsed, found⟩ := Option.bind_eq_some_iff.mp read
  cases whole : Source.parse source.toList with
  | error es =>
    rw [whole] at parsed
    cases parsed
  | ok s' =>
    rw [whole] at parsed
    cases parsed
    exact ⟨s, rfl, found⟩

theorem compile_haltError {source number : String}
    (read : (Source.parse source.toList).toOption.bind (numberFor? "halt_error") = some number) :
    compile source =
      .ok ⟨.bind false (.const (.ofNumeral number.toList)) (.native Native.haltError [0]), 0⟩ := by
  obtain ⟨s, parsed, call⟩ := parse_of_bind read
  rw [numberFor?_eq_some call] at parsed
  refine compile_bare parsed fun fuel => Resolve.term_native_one fuel (by decide) ?_
  rw [Callee.find?_native (by simp) fun _ => Nat.one_ne_zero]
  rfl

/-- The name of the definition that a program calls, if the definition only calls itself. -/
def circle? : Source → Option String
  | ⟨[], .define (.mk f [] (.call g [])) (.call h [])⟩ => if f = g ∧ g = h then some f else none
  | _ => none

theorem circle?_eq_some {name : String} {s : Source} (h : circle? s = some name) :
    s = ⟨[], .define (.mk name [] (.call name [])) (.call name [])⟩ := by
  unfold circle? at h
  split at h
  · split at h
    · rename_i same
      obtain ⟨rfl, rfl⟩ := same
      cases h
      rfl
    · cases h
  · cases h

theorem compile_circle {source name : String}
    (read : (Source.parse source.toList).toOption.bind circle? = some name)
    (bare : Resolve.module? name = none) :
    compile source = .ok ⟨.define (.callLocal 0 []) (.callLocal 0 []), 0⟩ := by
  obtain ⟨s, parsed, round⟩ := parse_of_bind read
  rw [circle?_eq_some round] at parsed
  exact compile_bare parsed (Resolve.term_circle library bare)

example : (Source.parse "def f: f; f".toList).toOption.bind circle? = some "f" := by
  decide +kernel

end Program

namespace Machine

variable {lib : Library} {host : Host} {f : Native} {env : Env} {args : List Nat} {v w : Value}

theorem results_exit {e : Exit} (replied : f v (args.map env.value) = .ok (.exit e)) (fuel : Nat) :
    (start (.native f args) env v).results lib host (fuel + 1) = .interrupted (.exit e) := by
  have ended : (start (.native f args) env v).step lib host = .exit e := by
    show native _ host f (args.map env.value) v = _
    rw [native, replied]
  rw [results, ended]

theorem results_exit_bound {e : Exit} (replied : f v [w] = .ok (.exit e)) (fuel : Nat) :
    (start (.bind false (.const w) (.native f [0])) [] v).results lib host (fuel + 4) =
      .interrupted (.exit e) := by
  -- three steps bind the argument
  show (start (.native f [0]) [.value w] v).results lib host (fuel + 1) = .interrupted (.exit e)
  exact results_exit replied fuel

def calling (v : Value) : Machine :=
  { focus := .eval (.callLocal 0 []) [.function (.callLocal 0 [])] v }

theorem results_calling (steps : Nat) :
    (calling v).results lib host steps = .interrupted .unfinished := by
  induction steps with
  | zero => rfl
  | succ steps ih =>
    -- a call comes back to the state that it was made in
    have again : (calling v).step lib host = .next (calling v) := rfl
    rw [results, again]
    exact ih

theorem results_circle (steps : Nat) :
    (start (.define (.callLocal 0 []) (.callLocal 0 [])) [] v).results lib host steps =
      .interrupted .unfinished := by
  cases steps with
  | zero => rfl
  | succ steps => exact results_calling steps

theorem results_note {note : Note} (replied : f v (args.map env.value) = .ok (.note note w))
    (fuel : Nat) : (start (.native f args) env v).results lib host (fuel + 3) =
      .note note.event fun _ => .item (.ok w.toJson) fun _ => .done := by
  have noted : (start (.native f args) env v).step lib host =
      .note note { start (.native f args) env v with focus := .deliver w } := by
    show native _ host f (args.map env.value) v = _
    rw [native, replied]
  rw [results, noted]
  rfl

end Machine

namespace Program

theorem results_halt (s : Setting) (input : Json) :
    results ⟨.native Native.halt [], 0⟩ s input = .interrupted (.exit ⟨0, ""⟩) := by
  obtain ⟨fuel, enough⟩ := exists_watched s input
  rw [results, enough]
  exact Machine.results_exit rfl (fuel + 3)

theorem results_circle (s : Setting) (input : Json) :
    results ⟨.define (.callLocal 0 []) (.callLocal 0 []), 0⟩ s input = .interrupted .unfinished :=
  Machine.results_circle (watched s input)

theorem results_haltError {number : Value} {code : Int} (whole : number.asInt = .ok code)
    (s : Setting) (input : Json) :
    results ⟨.bind false (.const number) (.native Native.haltError [0]), 0⟩ s input =
      .interrupted (.exit ⟨code, Native.lastWords (.ofJson input)⟩) := by
  have replied : Native.haltError (.ofJson input) [number] =
      .ok (.exit ⟨code, Native.lastWords (.ofJson input)⟩) := by
    rw [Native.haltError, whole]
    rfl
  obtain ⟨fuel, enough⟩ := exists_watched s input
  rw [results, enough]
  exact Machine.results_exit_bound replied fuel

theorem results_stderr (s : Setting) (input : Json) : results ⟨.native Native.stderr [], 0⟩ s input =
    .note (.printed (Value.ofJson input).display)
      fun _ => .item (.ok (Value.ofJson input).toJson) fun _ => .done := by
  have replied : Native.stderr (.ofJson input) (List.map (Env.value []) []) =
      .ok (.note (.printed (Value.ofJson input).display) (.ofJson input)) := rfl
  obtain ⟨fuel, enough⟩ := exists_watched s input
  rw [results, enough]
  exact Machine.results_note replied (fuel + 1)

end Program

end JsonFilter.Filter
