import JsonFilter.CommandLine.Reader
import JsonFilter.Proofs.Json.Grammar
import Mathlib.Data.List.InsertIdx

namespace JsonFilter.CommandLine

open Json (bind_eq_ok)

def withVerbose (n : Nat) (flags : List Flag) : List Flag := flags.insertIdx n .verbose

section Flags

variable {n : Nat} {flags : List Flag} {f : Flag}

theorem withVerbose_append (inside : n ≤ flags.length) (more : List Flag) :
    withVerbose n (flags ++ more) = withVerbose n flags ++ more := by
  induction flags generalizing n with
  | nil =>
    cases Nat.le_zero.mp inside
    rfl
  | cons g flags ih =>
    cases n with
    | zero => rfl
    | succ n => exact congrArg (g :: ·) (ih (Nat.le_of_succ_le_succ inside))

theorem filter_withVerbose {p : Flag → Bool} (other : p .verbose = false) :
    (withVerbose n flags).filter p = flags.filter p := by
  induction flags generalizing n with
  | nil => cases n <;> simp [withVerbose, other]
  | cons g flags ih =>
    cases n with
    | zero => simp [withVerbose, other]
    | succ n =>
      have rest := ih (n := n)
      simp only [withVerbose, List.insertIdx_succ_cons, List.filter_cons] at rest ⊢
      rw [rest]

theorem mem_withVerbose (other : f ≠ .verbose) : f ∈ withVerbose n flags ↔ f ∈ flags := by
  have same : (withVerbose n flags).filter (· = f) = flags.filter (· = f) :=
    filter_withVerbose (decide_eq_false other.symm)
  have inside (fs : List Flag) : f ∈ fs ↔ f ∈ fs.filter (· = f) := by simp
  rw [inside, same, ← inside]

end Flags

namespace Arguments

variable {t : Topic} {a b c : Arguments} {n : Nat} {word : String}

def withVerbose (n : Nat) (a : Arguments) : Arguments :=
  { a with flags := CommandLine.withVerbose n a.flags }

/-- What was read is kept, and no more operands are taken than there is room for. -/
structure Grown (t : Topic) (a b : Arguments) : Prop where
  flags : a.flags <+: b.flags
  operands : a.operands <+: b.operands
  bounded : b.operands.length ≤ max a.operands.length t.operands.length

namespace Grown

theorem refl (a : Arguments) : Grown t a a :=
  ⟨List.prefix_rfl, List.prefix_rfl, Nat.le_max_left _ _⟩

theorem trans (h : Grown t a b) (k : Grown t b c) : Grown t a c := by
  refine ⟨h.flags.trans k.flags, h.operands.trans k.operands, ?_⟩
  have first := h.bounded
  have second := k.bounded
  omega

theorem settled (h : Grown t a b) (fits : b.settled t = .ok ()) : a.settled t = .ok () := by
  unfold Arguments.settled at fits ⊢
  split
  case h_2 => rfl
  case h_1 filter empty =>
    have bounded := h.bounded
    have operands := h.operands
    rw [empty] at operands bounded
    have same : [filter, ""] = b.operands := operands.eq_of_length_le bounded
    rw [← same] at fits
    cases fits

end Grown

/-- A step of the reader that only adds to what was read, and that does the same with the flag for
logging among the flags in front. -/
def Steady (t : Topic) (g : Arguments → Except Stop Arguments) : Prop :=
  ∀ a b, g a = .ok b → Grown t a b ∧
    ∀ n, n ≤ a.flags.length → .verbose ∉ b.flags → g (a.withVerbose n) = .ok (b.withVerbose n)

namespace Steady

variable {g h : Arguments → Except Stop Arguments}

theorem pure : Steady t Except.ok := by
  rintro a _ ⟨⟩
  exact ⟨.refl a, fun _ _ _ => rfl⟩

theorem error (stop : Stop) : Steady t fun _ => .error stop := nofun

theorem bind (first : Steady t g) (second : Steady t h) : Steady t fun a => g a >>= h := by
  intro a c done
  obtain ⟨b, taken, rest⟩ := bind_eq_ok.mp done
  obtain ⟨grown, same⟩ := first a b taken
  obtain ⟨more, later⟩ := second b c rest
  refine ⟨grown.trans more, fun n inside absent => bind_eq_ok.mpr ⟨b.withVerbose n, ?_, ?_⟩⟩
  · exact same n inside fun present => absent (more.flags.subset present)
  · exact later n (Nat.le_trans inside grown.flags.length_le) absent

end Steady

theorem steady_take (s : Switch) : Steady t fun a => a.take t s := by
  intro a b taken
  obtain ⟨_, fits, taken⟩ := bind_eq_ok.mp taken
  cases s with
  | help | version => cases taken
  | flag f =>
    simp only at taken
    split at taken
    · cases taken
    · rename_i new
      cases taken
      refine ⟨⟨List.prefix_append _ _, List.prefix_rfl, Nat.le_max_left _ _⟩,
        fun n inside absent => bind_eq_ok.mpr ⟨(), fits, ?_⟩⟩
      have other : f ≠ .verbose := by
        rintro rfl
        exact absent (List.mem_append_right _ List.mem_cons_self)
      have still : f ∉ (a.withVerbose n).flags := by
        rwa [withVerbose, mem_withVerbose other]
      refine (if_neg still).trans ?_
      simp only [withVerbose, withVerbose_append inside]
      rfl

theorem steady_takeLong (cs : List Char) : Steady t fun a => a.takeLong t cs := by
  unfold takeLong
  dsimp only
  split
  · exact .error _
  · exact .error _
  · exact steady_take _

theorem steady_takeShort (cs : List Char) : Steady t fun a => a.takeShort t cs := by
  induction cs with
  | nil => exact .pure
  | cons c cs ih =>
    unfold takeShort
    split
    · exact .error _
    · exact .bind (steady_take _) ih

theorem steady_takeOperand (arg : String) : Steady t fun a => a.takeOperand t arg := by
  intro a b taken
  dsimp only [takeOperand] at taken
  split at taken
  · rename_i room
    cases taken
    refine ⟨⟨List.prefix_rfl, List.prefix_append _ _, ?_⟩, fun n _ _ => if_pos room⟩
    rw [List.length_append, List.length_singleton]
    omega
  · cases taken

theorem steady_takeArg (arg : String) : Steady t fun a => a.takeArg t arg := by
  unfold takeArg
  split
  · exact steady_takeLong _
  · exact steady_takeShort _
  · exact steady_takeOperand _

theorem steady_operands (args : List String) : Steady t fun a => args.foldlM (takeOperand t) a := by
  induction args with
  | nil => exact .pure
  | cons arg args ih =>
    simp only [List.foldlM_cons]
    exact .bind (steady_takeOperand arg) ih

theorem takeAll_cons {arg : String} (other : arg ≠ "--") (args : List String) (a : Arguments) :
    takeAll t a (arg :: args) = a.takeArg t arg >>= fun a => takeAll t a args := by
  rw [takeAll.eq_3]
  rintro rfl
  exact other rfl

theorem steady_takeAll (args : List String) : Steady t fun a => takeAll t a args := by
  induction args with
  | nil => exact .pure
  | cons arg args ih =>
    by_cases dashes : arg = "--"
    · subst dashes
      exact steady_operands args
    · simp only [takeAll_cons dashes]
      exact .bind (steady_takeArg arg) ih

theorem takeAll_append {front : List String} (ahead : "--" ∉ front) (rest : List String)
    (a : Arguments) :
    takeAll t a (front ++ rest) = takeAll t a front >>= fun a => takeAll t a rest := by
  induction front generalizing a with
  | nil => rfl
  | cons arg front ih =>
    have other : arg ≠ "--" := fun same => ahead (same ▸ List.mem_cons_self)
    have later := ih fun member => ahead (List.mem_cons_of_mem arg member)
    rw [List.cons_append, takeAll_cons other, takeAll_cons other, bind_assoc]
    exact congrArg (a.takeArg t arg >>= ·) (funext later)

theorem find_verbose (known : .verbose ∈ t.flags) :
    t.switches.find? (fun s => s.short = 'v') = some (.flag .verbose) ∧
      t.switches.find? (fun s => s.long = "verbose") = some (.flag .verbose) := by
  cases t with
  | help => cases known
  | program | run | validate => decide

def IsVerbose (word : String) : Prop := word = "-v" ∨ word = "--verbose"

theorem takeArg_verbose (spelled : IsVerbose word) (known : .verbose ∈ t.flags)
    (fits : a.settled t = .ok ()) (absent : .verbose ∉ a.flags) :
    a.takeArg t word = .ok (a.withVerbose a.flags.length) := by
  have taken : a.take t (.flag .verbose) = .ok (a.withVerbose a.flags.length) := by
    refine bind_eq_ok.mpr ⟨(), fits, (if_neg absent).trans ?_⟩
    simp only [withVerbose, CommandLine.withVerbose, List.insertIdx_length_self]
    rfl
  obtain ⟨short, long⟩ := find_verbose known
  rcases spelled with rfl | rfl
  · show takeShort t a ['v'] = _
    rw [takeShort, short]
    exact bind_eq_ok.mpr ⟨_, taken, rfl⟩
  · show takeLong t a "verbose".toList = _
    have name : "verbose".toList.span (· ≠ '=') = ("verbose".toList, []) := by decide
    simp only [takeLong, name, String.ofList_toList, long, taken]

theorem check_withVerbose : (b.withVerbose n).check t = b.check t := by
  have same : (b.withVerbose n).flags.filter (· ∈ [Flag.compactOutput, .pretty]) =
      b.flags.filter (· ∈ [Flag.compactOutput, .pretty]) := filter_withVerbose (by decide)
  rw [check, same]
  rfl

theorem takeAll_verbose {front back : List String} (spelled : IsVerbose word)
    (known : .verbose ∈ t.flags) (ahead : "--" ∉ front)
    (taken : takeAll t {} (front ++ back) = .ok b) (absent : .verbose ∉ b.flags)
    (fits : b.settled t = .ok ()) :
    ∃ n, n ≤ b.flags.length ∧ takeAll t {} (front ++ word :: back) = .ok (b.withVerbose n) := by
  rw [takeAll_append ahead] at taken
  obtain ⟨a, first, rest⟩ := bind_eq_ok.mp taken
  obtain ⟨grown, same⟩ := steady_takeAll back a b rest
  have bare : word ≠ "--" := by
    rcases spelled with rfl | rfl
    · decide
    · decide
  -- the flag stands behind those that the words in front of it gave
  refine ⟨a.flags.length, grown.flags.length_le, ?_⟩
  rw [takeAll_append ahead, first]
  show takeAll t a (word :: back) = _
  rw [takeAll_cons bare, takeArg_verbose spelled known (grown.settled fits)
    fun present => absent (grown.flags.subset present)]
  exact same _ (Nat.le_refl _) absent

end Arguments

def Task.quiet : Task → Task
  | .run filter file flags => .run filter file (flags.filter (· ≠ .verbose))
  | .validate filter => .validate filter

section Reading

open Arguments (IsVerbose)

variable {front back args : List String} {word : String} {t : Topic} {a : Arguments}
  {task : Task} {verbose v : Bool} {i : Invocation}

def Task.ofArguments (t : Topic) (a : Arguments) : Task :=
  match t with
  | .run => .run (a.operands.headD "") a.operands[1]? a.flags
  | _ => .validate (a.operands.headD "")

theorem Task.quiet_ofArguments (n : Nat) :
    (Task.ofArguments t (a.withVerbose n)).quiet = (Task.ofArguments t a).quiet := by
  cases t with
  | run =>
    have same : (withVerbose n a.flags).filter (· ≠ .verbose) = a.flags.filter (· ≠ .verbose) :=
      filter_withVerbose (by decide)
    exact congrArg (Task.run _ _) same
  | program | validate | help => rfl

theorem ofCommand_eq_ok :
    Invocation.ofCommand verbose t args = .ok i ↔
      .verbose ∈ t.flags ∧ t ≠ .program ∧ ∃ a, Arguments.takeAll t {} args = .ok a ∧
        a.check t = .ok () ∧ i = ⟨verbose || a.flags.contains .verbose, .ofArguments t a⟩ := by
  unfold Invocation.ofCommand
  cases t with
  | program | help =>
    refine ⟨fun asked => ?_, fun ⟨known, command, _⟩ => ?_⟩
    · obtain ⟨topic, -, asked⟩ := bind_eq_ok.mp asked
      cases asked
    · first
        | exact absurd rfl command
        | cases known
  | run | validate =>
    refine ⟨fun asked => ⟨by decide, by decide, ?_⟩, fun ⟨_, _, a, taken, fits, same⟩ => ?_⟩
    · obtain ⟨a, taken, asked⟩ := bind_eq_ok.mp asked
      obtain ⟨_, fits, asked⟩ := bind_eq_ok.mp asked
      cases asked
      exact ⟨a, taken, fits, rfl⟩
    · exact bind_eq_ok.mpr ⟨a, taken, bind_eq_ok.mpr ⟨(), fits, congrArg Except.ok same.symm⟩⟩

theorem ofArgs_command {name : String} (found : Topic.ofCommand? name = some t) :
    Invocation.ofArgs a (name :: args) =
      Invocation.ofCommand (a.flags.contains .verbose) t args := by
  unfold Invocation.ofArgs
  rw [found]

theorem ofCommand_verbose (spelled : IsVerbose word) (ahead : "--" ∉ front)
    (asked : Invocation.ofCommand false t (front ++ back) = .ok ⟨false, task⟩) :
    ∃ task', Invocation.ofCommand false t (front ++ word :: back) = .ok ⟨true, task'⟩ ∧
      task'.quiet = task.quiet := by
  obtain ⟨known, command, a, taken, fits, same⟩ := ofCommand_eq_ok.mp asked
  obtain ⟨quiet, rfl⟩ := Invocation.mk.inj same
  have absent : .verbose ∉ a.flags := by simpa using quiet.symm
  obtain ⟨_, settled, -⟩ := bind_eq_ok.mp fits
  obtain ⟨n, inside, taken⟩ := Arguments.takeAll_verbose spelled known ahead taken absent settled
  have loud : (withVerbose n a.flags).contains .verbose = true :=
    List.contains_iff_mem.mpr ((List.mem_insertIdx inside).mpr (.inl rfl))
  refine ⟨.ofArguments t (a.withVerbose n), ofCommand_eq_ok.mpr
    ⟨known, command, _, taken, Arguments.check_withVerbose.trans fits, ?_⟩,
    Task.quiet_ofArguments n⟩
  exact congrArg (Invocation.mk · _) loud.symm

theorem ofCommand_loud (asked : Invocation.ofCommand false t args = .ok ⟨v, task⟩) :
    Invocation.ofCommand true t args = .ok ⟨true, task⟩ := by
  obtain ⟨known, command, a, taken, fits, same⟩ := ofCommand_eq_ok.mp asked
  obtain ⟨-, rfl⟩ := Invocation.mk.inj same
  exact ofCommand_eq_ok.mpr ⟨known, command, a, taken, fits, rfl⟩

theorem ofArgs_loud (loud : .verbose ∈ a.flags) (asked : Invocation.ofArgs a args = .ok i) :
    i.verbose = true := by
  induction args generalizing a with
  | nil => cases asked
  | cons arg args ih =>
    unfold Invocation.ofArgs at asked
    split at asked
    · obtain ⟨-, -, b, -, -, rfl⟩ := ofCommand_eq_ok.mp asked
      simp [loud]
    · split at asked
      · exact ih loud asked
      · cases asked
      · split at asked
        · obtain ⟨b, taken, asked⟩ := bind_eq_ok.mp asked
          exact ih ((Arguments.steady_takeArg arg a b taken).1.flags.subset loud) asked
        · cases asked

theorem take_program {b : Arguments} {s : Switch} (known : s ∈ Topic.program.switches)
    (taken : a.take .program s = .ok b) : .verbose ∈ b.flags := by
  obtain ⟨_, -, taken⟩ := bind_eq_ok.mp taken
  have listed : s ∈ [.flag .verbose, .help, .version] := known
  simp only [List.mem_cons, List.not_mem_nil, or_false] at listed
  rcases listed with rfl | rfl | rfl
  · dsimp only at taken
    split at taken <;> cases taken
    exact List.mem_append_right _ List.mem_cons_self
  · cases taken
  · cases taken

theorem takeArg_program {b : Arguments} {arg : String} {c : Char} {cs : List Char}
    (dashed : arg.toList = '-' :: c :: cs) (taken : a.takeArg .program arg = .ok b) :
    .verbose ∈ b.flags := by
  unfold Arguments.takeArg at taken
  split at taken
  · unfold Arguments.takeLong at taken
    dsimp only at taken
    split at taken
    · cases taken
    · cases taken
    · rename_i found _
      exact take_program (List.mem_of_find?_eq_some found) taken
  · unfold Arguments.takeShort at taken
    split at taken
    · cases taken
    · rename_i found
      obtain ⟨d, first, rest⟩ := bind_eq_ok.mp taken
      have kept := (Arguments.steady_takeShort _ d b rest).1.flags
      exact kept.subset (take_program (List.mem_of_find?_eq_some found) first)
  · rename_i short
    exact absurd dashed (short c cs)

theorem read_quiet (asked : read args = .ok ⟨false, task⟩) :
    ∃ name t rest, args = name :: rest ∧ Topic.ofCommand? name = some t ∧
      Invocation.ofCommand false t rest = .ok ⟨false, task⟩ := by
  rcases args with _ | ⟨name, rest⟩
  · cases asked
  · unfold read Invocation.ofArgs at asked
    split at asked
    · rename_i t found
      exact ⟨name, t, rest, rfl, found, asked⟩
    · split at asked
      · cases asked
      · cases asked
      · split at asked
        · rename_i dashed
          obtain ⟨a, taken, asked⟩ := bind_eq_ok.mp asked
          cases ofArgs_loud (takeArg_program dashed taken) asked
        · cases asked

theorem ofArgs_verbose (spelled : IsVerbose word) :
    Invocation.ofArgs a (word :: args) =
      a.takeArg .program word >>= fun a => Invocation.ofArgs a args := by
  rcases spelled with rfl | rfl
  · rfl
  · rfl

/-- A command line with the flag for logging added in front of `--` asks for the same task, and for
the log. -/
theorem read_verbose (spelled : IsVerbose word) (ahead : "--" ∉ front)
    (asked : read (front ++ back) = .ok ⟨false, task⟩) :
    ∃ task', read (front ++ word :: back) = .ok ⟨true, task'⟩ ∧ task'.quiet = task.quiet := by
  obtain ⟨name, t, rest, args, found, command⟩ := read_quiet asked
  rcases front with _ | ⟨first, front⟩
  · -- in front of the command the flag is the program's own
    cases args
    refine ⟨task, ?_, rfl⟩
    have opened : Arguments.takeArg .program {} word = .ok ⟨[.verbose], []⟩ :=
      Arguments.takeArg_verbose spelled (by decide) rfl (by simp)
    rw [List.nil_append, read, ofArgs_verbose spelled, opened]
    exact (ofArgs_command found).trans (ofCommand_loud command)
  · obtain ⟨rfl, rfl⟩ := List.cons.inj args
    obtain ⟨task', loud, same⟩ := ofCommand_verbose spelled
      (fun member => ahead (List.mem_cons_of_mem _ member)) command
    refine ⟨task', ?_, same⟩
    rw [List.cons_append, read, ofArgs_command found]
    exact loud

end Reading

end JsonFilter.CommandLine
