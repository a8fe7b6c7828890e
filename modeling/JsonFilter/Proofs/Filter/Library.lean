import JsonFilter.Filter.Definitions

namespace JsonFilter.Filter

namespace Lexing

theorem tokens_prefix (fuel : Nat) (s : Lexing) (acc : List Token) :
    acc.reverse <+: (tokens fuel s acc).1 := by
  induction fuel generalizing s acc with
  | zero => exact List.prefix_rfl
  | succ fuel ih =>
    rw [tokens]
    rcases token fuel s.space with ⟨_ | t, s⟩
    · exact List.prefix_rfl
    · have later := ih s (t :: acc)
      rw [List.reverse_cons] at later
      exact (List.prefix_append _ _).trans later

def second? (source : List Char) : Option Token :=
  let steps := 4 * source.length
  (token (steps + 2) (token (steps + 3) (space ⟨source, []⟩)).2.space).1

theorem second?_tokens {source : List Char} {t u : Token} {ts : List Token}
    (lexed : (tokens (4 * source.length + 4) ⟨source, []⟩ []).1 = t :: u :: ts) :
    second? source = some u := by
  unfold second?
  rw [tokens] at lexed
  rcases one : token (4 * source.length + 3) (space ⟨source, []⟩) with ⟨_ | first, s⟩
  · rw [one] at lexed
    cases lexed
  · rw [one] at lexed
    dsimp only at lexed ⊢
    rw [tokens] at lexed
    rcases two : token (4 * source.length + 2) s.space with ⟨_ | next, s⟩
    · rw [two] at lexed
      cases lexed
    · rw [two] at lexed
      have front := tokens_prefix (4 * source.length + 2) s [next, first]
      dsimp only at lexed
      rw [lexed] at front
      obtain ⟨later, same⟩ := front
      cases same
      rw [one]
      dsimp only
      rw [two]

end Lexing

theorem lex_tokens {source : List Char} {ts : List Token} (lexed : lex source = .ok ts) :
    (Lexing.tokens (4 * source.length + 4) ⟨source, []⟩ []).1 = ts := by
  unfold lex at lexed
  dsimp only at lexed
  split at lexed <;> split at lexed <;> cases lexed <;> rfl

namespace Parse

variable {α β : Type}

theorem bind_ok {p : Parse α} {f : α → Parse β} {s s' : Parsing} {y : β}
    (done : (p >>= f) s = (.ok y, s')) : ∃ x t, p s = (.ok x, t) ∧ f x t = (.ok y, s') := by
  change Parse.bind p f s = _ at done
  unfold Parse.bind at done
  rcases h : p s with ⟨e | x, t⟩
  · rw [h] at done
    cases done
  · rw [h] at done
    exact ⟨x, t, rfl, done⟩

theorem taken_true {text : String} {s t : Parsing} (done : taken text s = (.ok true, t)) :
    ∃ first, s.tokens = first :: t.tokens := by
  unfold taken at done
  split at done
  · split at done <;> cases done
    exact ⟨_, ‹_›⟩
  · cases done

theorem finish_ok {last : String} {p : Parse (List α)} {s : Parsing} {x : α} {xs : List α}
    {es : List SyntaxError} (done : finish last [] p s = (x :: xs, es)) :
    ∃ t, p s = (.ok (x :: xs), t) := by
  unfold finish at done
  rcases h : p s with ⟨e | ys, t⟩
  · rw [h] at done
    cases done
  · rw [h] at done
    dsimp only at done
    split at done <;> split at done <;> cases done <;> exact ⟨t, rfl⟩

end Parse

namespace Token

def name? : Token → Option String
  | .word n | .format n => some n
  | _ => none

end Token

open Parse

theorem Term.definition_name {fuel : Nat} {s t : Parsing} {d : Definition}
    (done : Term.definition fuel s = (.ok d, t)) :
    ∃ first rest, s.tokens = first :: rest ∧ first.name? = some d.name := by
  cases fuel with
  | zero => cases done
  | succ fuel =>
    rw [Term.definition] at done
    obtain ⟨name, s₁, named, done⟩ := bind_ok done
    obtain ⟨params, s₂, -, done⟩ := bind_ok done
    obtain ⟨-, s₃, -, done⟩ := bind_ok done
    obtain ⟨body, s₄, -, done⟩ := bind_ok done
    obtain ⟨-, s₅, -, done⟩ := bind_ok done
    cases done
    obtain ⟨found, s₆, taken, named⟩ := bind_ok named
    cases taken
    rcases tokens : s.tokens with _ | ⟨first, rest⟩
    · rw [tokens] at named
      cases named
    · rw [tokens] at named
      refine ⟨first, rest, rfl, ?_⟩
      cases first <;> cases named <;> rfl

namespace Definition

theorem many_first {fuel n : Nat} {acc ds : List Definition} {s t : Parsing}
    (done : many fuel n acc s = (.ok ds, t)) : acc.reverse <+: ds := by
  induction n generalizing acc s with
  | zero =>
    cases done
    exact List.prefix_rfl
  | succ n ih =>
    rw [many] at done
    obtain ⟨more, s₁, -, done⟩ := bind_ok done
    cases more with
    | false =>
      cases done
      exact List.prefix_rfl
    | true =>
      obtain ⟨d, s₂, -, done⟩ := bind_ok done
      have later := ih done
      rw [List.reverse_cons] at later
      exact (List.prefix_append _ _).trans later

theorem parse_name {source : List Char} {d : Definition} {ds : List Definition}
    (read : parse source = .ok (d :: ds)) :
    (Lexing.second? source).bind Token.name? = some d.name := by
  unfold parse at read
  cases lexed : lex source with
  | error es =>
    rw [lexed] at read
    cases read
  | ok ts =>
    rw [lexed] at read
    dsimp only [Bind.bind, Except.bind] at read
    have done : finish "" [] (many (Source.steps source) (Source.steps source) []) ⟨ts, []⟩ =
        (d :: ds, []) := by
      split at read
      · cases read
        assumption
      · cases read
    obtain ⟨s, done⟩ := finish_ok done
    rw [Source.steps, many] at done
    obtain ⟨more, s₁, begun, done⟩ := bind_ok done
    cases more with
    | false => cases done
    | true =>
      obtain ⟨word, tokens⟩ := taken_true begun
      obtain ⟨d', s₂, defined, done⟩ := bind_ok done
      obtain ⟨name, rest, next, named⟩ := Term.definition_name defined
      obtain ⟨later, same⟩ := many_first done
      cases same
      have front : ts = word :: name :: rest := by
        rw [← next]
        exact tokens
      rw [Lexing.second?_tokens ((lex_tokens lexed).trans front)]
      exact named

end Definition

namespace Definitions

def name? (source : List Char) : Option String := (Lexing.second? source).bind Token.name?

theorem source_of_mem_library {g : Global} (defined : g ∈ library) :
    ∃ source ∈ sources, ∃ d, Definition.parse source.toList = .ok [d] ∧ g.name = d.name ∧
      g.params = d.params := by
  suffices grown : ∀ (ss : List String) (lib : Library), g ∈ ss.foldl addTo lib → g ∈ lib ∨
      ∃ source ∈ ss, ∃ d, Definition.parse source.toList = .ok [d] ∧ g.name = d.name ∧
        g.params = d.params from
    (grown sources #[] defined).resolve_left (Array.not_mem_empty g)
  intro ss
  -- a source that is not one definition adds nothing
  induction ss with
  | nil => exact fun lib old => .inl old
  | cons source ss ih =>
    intro lib grown
    rcases ih (addTo lib source) grown with last | ⟨s, later, d, facts⟩
    · unfold addTo at last
      dsimp only at last
      split at last
      · rename_i d read
        rcases Array.mem_push.mp last with old | rfl
        · exact .inl old
        · exact .inr ⟨source, List.mem_cons_self, d, read, rfl, rfl⟩
      · exact .inl last
    · exact .inr ⟨s, List.mem_cons_of_mem _ later, d, facts⟩

theorem forall_literal {P : List Char → Prop} (l : List Char) (h : P l) :
    P (String.ofList l).toList := by
  rwa [String.toList_ofList]

/-- No definition takes one of these names, but for one that takes no arguments. -/
def Spares (source : List Char) : Prop :=
  ∀ name ∈ ["halt", "halt_error", "stderr"], name? source = some name →
    source = "def halt_error: halt_error(5);".toList

instance (source : List Char) : Decidable (Spares source) := by
  unfold Spares
  infer_instance

set_option maxRecDepth 4000 in
theorem sources_spare : ∀ source ∈ sources, Spares source.toList := by
  unfold sources
  -- the characters of each literal are taken one by one, which its decoding is too slow for
  repeat'
    first
    | refine List.forall_mem_append.mpr ⟨?_, ?_⟩
    | refine List.forall_mem_cons.mpr ⟨forall_literal _ (by decide +kernel), ?_⟩
    | exact List.forall_mem_nil _

theorem parse_haltError : (Definition.parse "def halt_error: halt_error(5);".toList).toOption.map
    (List.map fun d => (d.name, d.params)) = some [("halt_error", [])] := by decide +kernel

theorem library_spares {g : Global} (defined : g ∈ library)
    (native : g.name ∈ ["halt", "halt_error", "stderr"]) :
    g.name = "halt_error" ∧ g.params = [] := by
  obtain ⟨source, listed, d, read, name, params⟩ := source_of_mem_library defined
  have named : name? source.toList = some g.name := name ▸ Definition.parse_name read
  have only := parse_haltError
  rw [← sources_spare source listed g.name native named, read] at only
  simp only [Except.toOption, Option.map_some, List.map_cons, List.map_nil, Option.some.injEq,
    List.cons.injEq, Prod.mk.injEq, and_true] at only
  rw [name, params]
  exact only

end Definitions

theorem Callee.global?_eq_none {lib : Library} {name : String} {arity : Nat}
    (free : ∀ g ∈ lib, g.name = name → g.params.length ≠ arity) (count : Nat) :
    global? lib name arity count = none := by
  induction count with
  | zero => rfl
  | succ i ih =>
    rw [global?]
    split
    · rename_i g found
      have other := free g (Array.mem_of_getElem? found)
      rw [if_neg fun same => other same.1 same.2]
      exact ih
    · exact ih

theorem Callee.find?_native {name : String} {arity : Nat}
    (native : name ∈ ["halt", "halt_error", "stderr"]) (given : name = "halt_error" → arity ≠ 0) :
    find? library [] name arity = (Builtin.find? name arity).map .builtin := by
  have free : ∀ g ∈ library, g.name = name → g.params.length ≠ arity := by
    rintro g defined rfl
    obtain ⟨named, params⟩ := Definitions.library_spares defined native
    rw [params]
    exact (given named).symm
  rw [find?, global?_eq_none free]
  rfl

end JsonFilter.Filter
