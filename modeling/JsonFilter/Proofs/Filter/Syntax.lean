import JsonFilter.Filter.Syntax
import JsonFilter.Proofs.Filter.Lexer

namespace JsonFilter.Filter

namespace Parse

variable {source : List Char} {α β : Type}

structure Sound (source : List Char) (s : Parsing) : Prop where
  tokens : ∀ t ∈ s.tokens, t.From source
  errors : ∀ e ∈ s.errors, Piece source e.rest

/-- What a reader came to: something that is as `Q` says, or an error at a piece of the source. -/
structure Came (source : List Char) (Q : α → Prop) (r : Except SyntaxError α × Parsing) : Prop where
  ok : ∀ x, r.1 = .ok x → Q x
  error : ∀ e, r.1 = .error e → Piece source e.rest
  state : Sound source r.2

def Yields (source : List Char) (Q : α → Prop) (p : Parse α) : Prop :=
  ∀ s, Sound source s → Came source Q (p s)

def Keeps (source : List Char) (p : Parse α) : Prop := Yields source (fun _ => True) p

variable {p : Parse α} {f : α → Parse β} {Q : α → Prop} {R : β → Prop} {s : Parsing}

theorem came_ok {x : α} (holds : Q x) (sound : Sound source s) : Came source Q (.ok x, s) :=
  ⟨fun _ same => Except.ok.inj same ▸ holds, nofun, sound⟩

theorem came_error {e : SyntaxError} (place : Piece source e.rest) (sound : Sound source s) :
    Came source Q (.error e, s) :=
  ⟨nofun, fun _ same => Except.error.inj same ▸ place, sound⟩

theorem Sound.behind {t : Token} {ts : List Token} (sound : Sound source s)
    (begins : s.tokens = t :: ts) : Sound source ⟨ts, s.errors⟩ :=
  ⟨fun u member => sound.tokens u (begins ▸ List.mem_cons_of_mem t member), sound.errors⟩

theorem Sound.tail (sound : Sound source s) : Sound source ⟨s.tokens.tail, s.errors⟩ :=
  ⟨fun u member => sound.tokens u (List.mem_of_mem_tail member), sound.errors⟩

theorem Sound.head {t : Token} {ts : List Token} (sound : Sound source s)
    (begins : s.tokens = t :: ts) : t.From source :=
  sound.tokens t (begins ▸ List.mem_cons_self)

theorem Sound.head? (sound : Sound source s) : ∀ t ∈ s.tokens.head?, t.From source :=
  fun t member => sound.tokens t (List.mem_of_head? member)

theorem Yields.bind (h : Yields source Q p) (k : ∀ x, Q x → Yields source R (f x)) :
    Yields source R (p >>= f) := by
  intro s sound
  obtain ⟨ok, error, state⟩ := h s sound
  change Came source R (Parse.bind p f s)
  unfold Parse.bind
  rcases read : p s with ⟨e | x, t⟩
  · rw [read] at error state
    exact came_error (error e rfl) state
  · rw [read] at ok state
    exact k x (ok x rfl) t state

theorem Keeps.bind (h : Keeps source p) (k : ∀ x, Yields source R (f x)) :
    Yields source R (p >>= f) := Yields.bind h fun x _ => k x

theorem keeps_pure (x : α) : Keeps source (Parse.pure x) := fun _ sound => came_ok trivial sound

theorem keeps_fail (wanted : Wanted) {found : Option Token} (here : ∀ t ∈ found, t.From source) :
    Keeps source (fail wanted found : Parse α) := by
  intro s sound
  refine came_error ?_ sound
  cases found with
  | none => exact piece_nil source
  | some t => exact (here t rfl).source

theorem keeps_fail_none (wanted : Wanted) : Keeps source (fail wanted none : Parse α) :=
  keeps_fail wanted nofun

theorem yields_peek : Yields source (fun found => ∀ t ∈ found, t.From source) peek :=
  fun _ sound => came_ok sound.head? sound

theorem yields_next : Yields source (fun found => ∀ t ∈ found, t.From source) next :=
  fun _ sound => came_ok sound.head? sound.tail

theorem keeps_skip : Keeps source skip := fun _ sound => came_ok trivial sound.tail

theorem keeps_taken (text : String) : Keeps source (taken text) := by
  intro s sound
  unfold taken
  split
  · split
    · exact came_ok trivial (sound.behind ‹_›)
    · exact came_ok trivial sound
  · exact came_ok trivial sound

theorem keeps_just (text : String) : Keeps source (just text) := by
  intro s sound
  unfold just
  split
  · rename_i begins
    split
    · exact came_ok trivial (sound.behind begins)
    · exact came_error (sound.head begins).source sound
  · exact came_error (piece_nil source) sound

theorem finish_errors {last : String} {default : α} (h : Keeps source p) (sound : Sound source s) :
    ∀ e ∈ (finish last default p s).2, Piece source e.rest := by
  obtain ⟨-, error, state⟩ := h s sound
  unfold finish
  rcases read : p s with ⟨e | x, t⟩
  · rw [read] at error state
    exact List.forall_mem_cons.mpr ⟨error e rfl, state.errors⟩
  · rw [read] at state
    dsimp only
    split
    · split
      · exact state.errors
      · exact List.forall_mem_cons.mpr ⟨piece_nil source, state.errors⟩
    · rename_i begins
      split
      · exact state.errors
      · exact List.forall_mem_cons.mpr ⟨(state.head begins).source, state.errors⟩

theorem keeps_within {ts : List Token} (inside : ∀ t ∈ ts, t.From source) (last : String)
    (default : α) (h : Keeps source p) : Keeps source (within ts last default p) :=
  fun _ sound => came_ok trivial ⟨sound.tokens, finish_errors h ⟨inside, sound.errors⟩⟩

theorem keeps_separated (separator last : String) (wanted : Wanted) (trailing : Bool)
    (h : Keeps source p) (fuel : Nat) (acc : List α) :
    Keeps source (separated separator last wanted trailing p fuel acc) := by
  induction fuel generalizing acc with
  | zero => exact keeps_pure _
  | succ fuel ih =>
    rw [separated]
    refine h.bind fun x => yields_next.bind fun found here => ?_
    split
    · split
      · exact keeps_pure _
      · split
        · extract_lets goOn
          have kept (ended : Bool) : Keeps source (goOn ended) := by
            unfold goOn
            split
            · exact keeps_pure _
            · exact ih _
          split
          · exact (keeps_taken last).bind fun ended => kept ended
          · exact (keeps_pure false).bind fun ended => kept ended
        · exact keeps_fail _ here
    · exact keeps_fail_none _

theorem keeps_arguments (h : Keeps source p) (fuel : Nat) : Keeps source (arguments fuel p) := by
  refine yields_peek.bind fun found here => ?_
  split
  · exact keeps_skip.bind fun _ =>
      keeps_within (here _ rfl).inside _ _ (keeps_separated _ _ _ _ h fuel [])
  · exact keeps_pure _

end Parse

namespace Term

open Parse

variable {source : List Char}

theorem keeps_variableName : Keeps source variableName := by
  refine yields_next.bind fun found here => ?_
  split
  · exact keeps_pure _
  · exact keeps_fail _ here

theorem keeps_argumentName : Keeps source argumentName := by
  refine yields_next.bind fun found here => ?_
  split
  · exact keeps_pure _
  · exact keeps_pure _
  · exact keeps_fail _ here

theorem keeps_operator? (withComma : Bool) : Keeps source (operator? withComma) := by
  refine yields_peek.bind fun found _ => ?_
  split
  · exact keeps_skip.bind fun _ => keeps_pure _
  · exact keeps_skip.bind fun _ => keeps_pure _
  · split
    · split
      · exact keeps_pure _
      · exact keeps_skip.bind fun _ => keeps_pure _
    · exact keeps_pure _
  · exact keeps_pure _

theorem keeps_questions (fuel : Nat) : Keeps source (questions fuel) := by
  induction fuel with
  | zero => exact keeps_pure 0
  | succ fuel ih =>
    refine (keeps_taken "?").bind fun more => ?_
    split
    · exact ih.bind fun _ => keeps_pure _
    · exact keeps_pure _

/-- Reading terms with some fuel. The readers call each other with one step less, so that what they
keep is known of all of them at once. -/
structure Careful (source : List Char) (fuel : Nat) : Prop where
  term (withComma : Bool) : Keeps source (term fuel withComma)
  operands (withComma : Bool) (acc : List (Operator × Term)) :
    Keeps source (operands fuel withComma acc)
  atom : Keeps source (atom fuel)
  steps (t : Term) (first : List PathPart) : Keeps source (steps fuel t first)
  pathParts (acc : List PathPart) : Keeps source (pathParts fuel acc)
  bracketed : Keeps source (bracketed fuel)
  key? : Keeps source (key? fuel)
  stringParts {parts : List TokenPart} (acc : List StringPart)
    (inside : ∀ p ∈ parts, p.From source) : Keeps source (stringParts fuel parts acc)
  branches (acc : List (Term × Term)) : Keeps source (branches fuel acc)
  folding (name : String) : Keeps source (folding fuel name)
  entries : Keeps source (entries fuel)
  entry : Keeps source (entry fuel)
  entryValue (k : Term) : Keeps source (entryValue fuel k)
  pattern : Keeps source (pattern fuel)
  patternEntry : Keeps source (patternEntry fuel)
  definition : Keeps source (definition fuel)

variable {fuel : Nat}

theorem keeps_term (ih : Careful source fuel) (withComma : Bool) :
    Keeps source (term (fuel + 1) withComma) := by
  rw [term]
  refine ih.atom.bind fun head => (ih.operands withComma []).bind fun chain => ?_
  refine (keeps_taken "|").bind fun pipe => ?_
  split
  · exact (ih.term withComma).bind fun _ => keeps_pure _
  · refine (keeps_taken "as").bind fun binds => ?_
    split
    · exact ih.pattern.bind fun _ => (keeps_just "|").bind fun _ =>
        (ih.term withComma).bind fun _ => keeps_pure _
    · exact keeps_pure _

theorem keeps_operands (ih : Careful source fuel) (withComma : Bool) (acc : List (Operator × Term)) :
    Keeps source (operands (fuel + 1) withComma acc) := by
  rw [operands]
  refine (keeps_operator? withComma).bind fun found => ?_
  split
  · exact keeps_pure _
  · exact ih.atom.bind fun _ => ih.operands withComma _

theorem keeps_atom (ih : Careful source fuel) : Keeps source (atom (fuel + 1)) := by
  have done (t : Term) : Keeps source (steps fuel t []) := ih.steps t []
  have optional (t : Term) (part : Bool → PathPart) :
      Keeps source (questions fuel >>= fun n => steps fuel t [part (n > 0)]) :=
    (keeps_questions fuel).bind fun _ => ih.steps t _
  rw [atom]
  refine yields_next.bind fun found here => ?_
  split
  case h_1 => exact ih.atom.bind fun _ => done _
  case h_2 => exact done _
  case h_3 =>
    refine ih.key?.bind fun k => ?_
    split
    · exact optional _ fun b => .index _ b
    · exact done _
  case h_4 =>
    split
    · exact optional _ fun b => .index _ b
    · exact keeps_fail _ here
  case h_5 => exact ih.definition.bind fun _ => (ih.term true).bind fun _ => keeps_pure _
  case h_6 =>
    exact (ih.term true).bind fun _ => (keeps_just "then").bind fun _ =>
      (ih.term true).bind fun _ => (ih.branches _).bind fun _ => done _
  case h_7 =>
    refine ih.atom.bind fun _ => (keeps_taken "catch").bind fun caught => ?_
    split
    · exact ih.atom.bind fun _ => done _
    · exact done _
  case h_8 =>
    exact keeps_variableName.bind fun _ => (keeps_just "|").bind fun _ =>
      (ih.term true).bind fun _ => keeps_pure _
  case h_9 => exact keeps_variableName.bind fun _ => done _
  case h_10 | h_11 => exact (ih.folding _).bind fun _ => done _
  case h_12 => exact (keeps_arguments (ih.term true) fuel).bind fun _ => done _
  case h_13 | h_15 | h_18 => exact done _
  case h_14 =>
    refine yields_peek.bind fun next there => ?_
    split
    · exact keeps_skip.bind fun _ => (ih.stringParts [] (there _ rfl).parts).bind fun _ => done _
    · exact (keeps_arguments (ih.term true) fuel).bind fun _ => done _
  case h_16 => exact (ih.stringParts [] (here _ rfl).parts).bind fun _ => done _
  case h_17 => exact (keeps_within (here _ rfl).inside ")" _ (ih.term true)).bind fun _ => done _
  case h_19 => exact (keeps_within (here _ rfl).inside "]" _ (ih.term true)).bind fun _ => done _
  case h_20 => exact (keeps_within (here _ rfl).inside "" [] ih.entries).bind fun _ => done _
  case h_21 => exact keeps_fail_none _

theorem keeps_steps (ih : Careful source fuel) (t : Term) (first : List PathPart) :
    Keeps source (steps (fuel + 1) t first) := by
  cases first with
  | nil =>
    rw [steps]
    exact (keeps_questions fuel).bind fun _ => (ih.pathParts []).bind fun _ => keeps_pure _
  | cons part parts =>
    rw [steps]
    · exact (ih.pathParts _).bind fun _ => keeps_pure _
    · exact nofun

theorem keeps_pathParts (ih : Careful source fuel) (acc : List PathPart) :
    Keeps source (pathParts (fuel + 1) acc) := by
  rw [pathParts]
  refine yields_peek.bind fun found here => ?_
  split
  · exact keeps_skip.bind fun _ => (keeps_within (here _ rfl).inside "]" _ ih.bracketed).bind
      fun _ => (keeps_questions fuel).bind fun _ => ih.pathParts _
  · refine keeps_skip.bind fun _ => ih.key?.bind fun k => ?_
    split
    · exact (keeps_questions fuel).bind fun _ => ih.pathParts _
    · exact yields_next.bind fun found here => keeps_fail _ here
  · split
    · split
      · exact keeps_pure _
      · exact keeps_skip.bind fun _ => (keeps_questions fuel).bind fun _ => ih.pathParts _
    · exact keeps_pure _
  · exact keeps_pure _

theorem keeps_bracketed (ih : Careful source fuel) : Keeps source (bracketed (fuel + 1)) := by
  rw [bracketed]
  refine yields_peek.bind fun found _ => ?_
  split
  · exact keeps_pure _
  · refine (keeps_taken ":").bind fun open_ => ?_
    split
    · exact (ih.term true).bind fun _ => keeps_pure _
    · refine (ih.term true).bind fun t => (keeps_taken ":").bind fun range => ?_
      split
      · refine yields_peek.bind fun found _ => ?_
        split
        · exact keeps_pure _
        · exact (ih.term true).bind fun _ => keeps_pure _
      · exact keeps_pure _

theorem keeps_key? (ih : Careful source fuel) : Keeps source (key? (fuel + 1)) := by
  have front : Yields source (fun ts => ∀ t ∈ ts, t.From source)
      (fun s => (.ok (s.tokens.take 2), s) : Parse (List Token)) :=
    fun _ sound => came_ok (fun t member => sound.tokens t (List.mem_of_mem_take member)) sound
  rw [key?]
  refine front.bind fun found here => ?_
  split
  · have parts := (here _ List.mem_cons_self).parts
    exact keeps_skip.bind fun _ => (ih.stringParts [] parts).bind fun _ => keeps_pure _
  · have parts := (here _ (List.mem_cons_of_mem _ List.mem_cons_self)).parts
    exact keeps_skip.bind fun _ => keeps_skip.bind fun _ =>
      (ih.stringParts [] parts).bind fun _ => keeps_pure _
  · exact keeps_pure _

theorem keeps_stringParts (ih : Careful source fuel) {parts : List TokenPart}
    (acc : List StringPart) (inside : ∀ p ∈ parts, p.From source) :
    Keeps source (stringParts (fuel + 1) parts acc) := by
  rcases parts with _ | ⟨part, parts⟩
  · rw [stringParts]
    exact keeps_pure _
  · obtain ⟨here, later⟩ := List.forall_mem_cons.mp inside
    cases here with
    | text s =>
      rw [stringParts]
      exact ih.stringParts _ later
    | filter tokens =>
      rw [stringParts]
      exact (keeps_within tokens ")" _ (ih.term true)).bind fun _ => ih.stringParts _ later

theorem keeps_branches (ih : Careful source fuel) (acc : List (Term × Term)) :
    Keeps source (branches (fuel + 1) acc) := by
  rw [branches]
  refine yields_next.bind fun found here => ?_
  split
  · exact (ih.term true).bind fun _ => (keeps_just "then").bind fun _ =>
      (ih.term true).bind fun _ => ih.branches _
  · exact (ih.term true).bind fun _ => (keeps_just "end").bind fun _ => keeps_pure _
  · exact keeps_pure _
  · exact keeps_fail _ here

theorem keeps_folding (ih : Careful source fuel) (name : String) :
    Keeps source (folding (fuel + 1) name) := by
  rw [folding]
  exact ih.atom.bind fun _ => (keeps_just "as").bind fun _ => ih.pattern.bind fun _ =>
    (keeps_arguments (ih.term true) fuel).bind fun _ => keeps_pure _

theorem keeps_entries (ih : Careful source fuel) : Keeps source (entries (fuel + 1)) := by
  rw [entries]
  refine (keeps_taken "\x7d").bind fun empty => ?_
  split
  · exact keeps_pure _
  · exact keeps_separated _ _ _ _ ih.entry fuel []

theorem keeps_entry (ih : Careful source fuel) : Keeps source (entry (fuel + 1)) := by
  rw [entry]
  refine ih.key?.bind fun k => ?_
  split
  · exact ih.entryValue _
  · refine yields_next.bind fun found here => ?_
    split
    · exact ih.entryValue _
    · exact ih.entryValue _
    · exact (keeps_within (here _ rfl).inside ")" _ (ih.term true)).bind fun _ =>
        (keeps_just ":").bind fun _ => (ih.term false).bind fun _ => keeps_pure _
    · exact keeps_fail _ here

theorem keeps_entryValue (ih : Careful source fuel) (k : Term) :
    Keeps source (entryValue (fuel + 1) k) := by
  rw [entryValue]
  refine (keeps_taken ":").bind fun given => ?_
  split
  · exact (ih.term false).bind fun _ => keeps_pure _
  · exact keeps_pure _

theorem keeps_pattern (ih : Careful source fuel) : Keeps source (pattern (fuel + 1)) := by
  rw [pattern]
  refine yields_next.bind fun found here => ?_
  split
  · exact keeps_pure _
  · have items := keeps_separated "," "]" .commaOrBracket false ih.pattern fuel []
    exact (keeps_within (here _ rfl).inside "" [] items).bind fun _ => keeps_pure _
  · have items := keeps_separated "," "\x7d" .commaOrBrace true ih.patternEntry fuel []
    exact (keeps_within (here _ rfl).inside "" [] items).bind fun _ => keeps_pure _
  · exact keeps_fail _ here

theorem keeps_patternEntry (ih : Careful source fuel) : Keeps source (patternEntry (fuel + 1)) := by
  rw [patternEntry]
  refine ih.key?.bind fun k => ?_
  split
  · exact (keeps_just ":").bind fun _ => ih.pattern.bind fun _ => keeps_pure _
  · refine yields_next.bind fun found here => ?_
    split
    · exact keeps_pure _
    · exact (keeps_just ":").bind fun _ => ih.pattern.bind fun _ => keeps_pure _
    · exact (keeps_within (here _ rfl).inside ")" _ (ih.term true)).bind fun _ =>
        (keeps_just ":").bind fun _ => ih.pattern.bind fun _ => keeps_pure _
    · exact keeps_fail _ here

theorem keeps_definition (ih : Careful source fuel) : Keeps source (definition (fuel + 1)) := by
  rw [definition]
  refine Keeps.bind ?_ fun name => (keeps_arguments keeps_argumentName fuel).bind fun _ =>
    (keeps_just ":").bind fun _ => (ih.term true).bind fun _ => (keeps_just ";").bind fun _ =>
      keeps_pure _
  refine yields_next.bind fun found here => ?_
  split
  · exact keeps_pure _
  · exact keeps_pure _
  · exact keeps_fail _ here

theorem careful (source : List Char) (fuel : Nat) : Careful source fuel := by
  induction fuel with
  | zero =>
    exact {
      term _ := keeps_fail_none _
      operands _ _ := keeps_pure _
      atom := keeps_fail_none _
      steps _ _ := keeps_pure _
      pathParts _ := keeps_pure _
      bracketed := keeps_fail_none _
      key? := keeps_pure _
      stringParts _ _ := keeps_pure _
      branches _ := keeps_pure _
      folding _ := keeps_fail_none _
      entries := keeps_pure _
      entry := keeps_fail_none _
      entryValue _ := keeps_pure _
      pattern := keeps_fail_none _
      patternEntry := keeps_fail_none _
      definition := keeps_fail_none _ }
  | succ fuel ih =>
    exact {
      term := keeps_term ih
      operands := keeps_operands ih
      atom := keeps_atom ih
      steps := keeps_steps ih
      pathParts := keeps_pathParts ih
      bracketed := keeps_bracketed ih
      key? := keeps_key? ih
      stringParts := keeps_stringParts ih
      branches := keeps_branches ih
      folding := keeps_folding ih
      entries := keeps_entries ih
      entry := keeps_entry ih
      entryValue := keeps_entryValue ih
      pattern := keeps_pattern ih
      patternEntry := keeps_patternEntry ih
      definition := keeps_definition ih }

end Term

namespace Source

open Parse

variable {source : List Char}

theorem keeps_plainString : Keeps source plainString := by
  refine yields_next.bind fun found here => ?_
  split
  · exact keeps_pure _
  · exact keeps_pure _
  · exact keeps_fail _ here

theorem keeps_rest (fuel : Nat) : Keeps source (rest fuel) := by
  refine (keeps_taken ";").bind fun ended => ?_
  split
  · exact keeps_pure _
  · exact ((Term.careful source fuel).term true).bind fun _ => keeps_just ";"

theorem keeps_importsBefore (fuel n : Nat) (acc : List Import) :
    Keeps source (importsBefore fuel n acc) := by
  induction n generalizing acc with
  | zero => exact keeps_pure _
  | succ n ih =>
    rw [importsBefore]
    refine (keeps_taken "include").bind fun includes => ?_
    split
    · exact keeps_plainString.bind fun _ => (keeps_rest fuel).bind fun _ => ih _
    · refine (keeps_taken "import").bind fun imports => ?_
      split
      · refine keeps_plainString.bind fun path => (keeps_just "as").bind fun _ =>
          Keeps.bind ?_ fun item => (keeps_rest fuel).bind fun _ => ih _
        refine yields_next.bind fun found here => ?_
        split
        · exact keeps_pure _
        · exact keeps_pure _
        · exact keeps_fail _ here
      · exact keeps_pure _

theorem keeps_module (fuel : Nat) : Keeps source (module fuel) := by
  have body : Keeps source (importsBefore fuel fuel [] >>= fun is => do
      return (⟨is, ← Term.term fuel true⟩ : Source)) :=
    (keeps_importsBefore fuel fuel []).bind fun _ =>
      ((Term.careful source fuel).term true).bind fun _ => keeps_pure _
  refine (keeps_taken "module").bind fun begins => ?_
  extract_lets
  split
  · exact ((Term.careful source fuel).term true).bind fun _ => (keeps_just ";").bind fun _ => body
  · exact body

/-- Where an error of a source stands: lexing leaves the end of the source, reading one of its
tokens or nothing, and only inside a token blanks are not skipped first. -/
structure Placed (source : List Char) (e : SyntaxError) : Prop where
  part : e.rest <:+: source
  unread : (lex source).isOk = false → e.rest <:+ source
  outside : e.wanted.inToken = false ∨ (lex source).isOk = true → Blank.Trimmed e.rest

theorem parse_refused {es : List SyntaxError} (refused : parse source = .error es) :
    es ≠ [] ∧ ∀ e ∈ es, Placed source e := by
  unfold parse at refused
  cases lexed : lex source with
  | error ls =>
    rw [lexed] at refused
    cases refused
    obtain ⟨some, places⟩ := lex_refused lexed
    refine ⟨some, fun e member => ?_⟩
    obtain ⟨place, outside⟩ := places e member
    refine ⟨place.isInfix, fun _ => place, ?_⟩
    rw [lexed]
    rintro (apart | ⟨⟨⟩⟩)
    exact outside apart
  | ok ts =>
    rw [lexed] at refused
    have sound : Sound source ⟨ts, []⟩ := ⟨lex_from lexed, nofun⟩
    have places : ∀ e ∈ (finish "" ⟨[], .identity⟩ (module (steps source)) ⟨ts, []⟩).2,
        Piece source e.rest := finish_errors (keeps_module _) sound
    dsimp only [Bind.bind, Except.bind] at refused
    split at refused
    · cases refused
    · rename_i es' found read
      cases refused
      rw [read] at places
      refine ⟨fun empty => found (List.reverse_eq_nil_iff.mp empty), fun e member => ?_⟩
      obtain ⟨part, trimmed⟩ := places e (List.mem_reverse.mp member)
      refine ⟨part, ?_, fun _ => trimmed⟩
      rw [lexed]
      exact nofun

end Source

end JsonFilter.Filter
