import JsonFilter.CommandLine.Help

namespace JsonFilter.CommandLine

inductive Misuse
  | unknownCommand (name : String)
  | missingCommand
  | unexpected (arg : String)
  | unneededValue (value : String) (switch : Switch)
  | repeated (f : Flag)
  | excluded (f g : Flag)
  | emptyOperand (operand : String)
  | missingOperand
deriving DecidableEq, Repr

def Misuse.message : Misuse → String
  | .unknownCommand name => "unrecognized subcommand '" ++ name ++ "'"
  | .missingCommand => "'" ++ program ++ "' requires a subcommand but one was not provided"
  | .unexpected arg => "unexpected argument '" ++ arg ++ "' found"
  | .unneededValue value switch =>
    "unexpected value '" ++ value ++ "' for '--" ++ switch.long ++
      "' found; no more were expected"
  | .repeated f => "the argument '--" ++ f.long ++ "' cannot be used multiple times"
  | .excluded f g =>
    "the argument '--" ++ f.long ++ "' cannot be used with '--" ++ g.long ++ "'"
  | .emptyOperand operand => "a value is required for '" ++ operand ++ "' but none was supplied"
  | .missingOperand => "the following required arguments were not provided:"

inductive Stop
  | help (t : Topic)
  | version
  | noArguments
  | misuse (m : Misuse)
deriving DecidableEq, Repr

structure Arguments where
  /-- In the order in which they stand. -/
  flags : List Flag := []
  operands : List String := []
deriving DecidableEq, Repr

namespace Arguments

/-- A file has a name. It is looked at when the next switch is taken, and at the end. -/
def settled (t : Topic) (a : Arguments) : Except Stop Unit :=
  match t, a.operands with
  | .run, [_, ""] => .error (.misuse (.emptyOperand "[FILE]"))
  | _, _ => .ok ()

def take (t : Topic) (a : Arguments) (s : Switch) : Except Stop Arguments := do
  a.settled t
  match s with
  | .help => throw (.help t)
  | .version => throw .version
  | .flag f =>
    if f ∈ a.flags then throw (.misuse (.repeated f))
    return { a with flags := a.flags ++ [f] }

def takeLong (t : Topic) (a : Arguments) (cs : List Char) : Except Stop Arguments :=
  let (name, value) := cs.span (· ≠ '=')
  let name := String.ofList name
  match t.switches.find? (fun s => s.long = name), value with
  | none, _ => .error (.misuse (.unexpected ("--" ++ name)))
  | some s, _ :: v => .error (.misuse (.unneededValue (String.ofList v) s))
  | some s, [] => a.take t s

def takeShort (t : Topic) : Arguments → List Char → Except Stop Arguments
  | a, [] => .ok a
  | a, c :: cs => do
    match t.switches.find? fun s => s.short = c with
    | none => throw (.misuse (.unexpected ("-" ++ c.toString)))
    | some s => takeShort t (← a.take t s) cs

def takeOperand (t : Topic) (a : Arguments) (arg : String) : Except Stop Arguments :=
  if a.operands.length < t.operands.length then
    .ok { a with operands := a.operands ++ [arg] }
  else .error (.misuse (.unexpected arg))

def takeArg (t : Topic) (a : Arguments) (arg : String) : Except Stop Arguments :=
  match arg.toList with
  | '-' :: '-' :: cs => a.takeLong t cs
  | '-' :: c :: cs => a.takeShort t (c :: cs)
  | _ => a.takeOperand t arg

def takeAll (t : Topic) : Arguments → List String → Except Stop Arguments
  | a, [] => .ok a
  | a, "--" :: args => args.foldlM (takeOperand t) a
  | a, arg :: args => do takeAll t (← a.takeArg t arg) args

def check (t : Topic) (a : Arguments) : Except Stop Unit := do
  a.settled t
  match a.flags.filter (· ∈ [Flag.compactOutput, .pretty]) with
  | f :: g :: _ => throw (.misuse (.excluded f g))
  | _ => pure ()
  if a.operands.isEmpty then throw (.misuse .missingOperand)

end Arguments

inductive Task
  | run (filter : String) (file : Option String) (flags : List Flag)
  | validate (filter : String)
deriving DecidableEq, Repr

structure Invocation where
  verbose : Bool
  task : Task
deriving DecidableEq, Repr

def helpTopic : List String → Except Stop Topic
  | [] => .ok .program
  | name :: rest =>
    match Topic.ofCommand? name, rest with
    | none, _ => .error (.misuse (.unknownCommand name))
    | some t, [] => .ok t
    | some _, next :: _ => .error (.misuse (.unknownCommand next))

def Invocation.ofCommand (verbose : Bool) (t : Topic) (args : List String) :
    Except Stop Invocation := do
  match t with
  | .program | .help => throw (.help (← helpTopic args))
  | t =>
    let a ← Arguments.takeAll t {} args
    a.check t
    let filter := a.operands.headD ""
    return ⟨verbose || a.flags.contains .verbose,
      match t with
      | .run => .run filter a.operands[1]? a.flags
      | _ => .validate filter⟩

def Invocation.ofArgs : Arguments → List String → Except Stop Invocation
  | a, [] => .error (if a.flags.isEmpty then .noArguments else .misuse .missingCommand)
  | a, arg :: args =>
    match Topic.ofCommand? arg with
    | some t => Invocation.ofCommand (a.flags.contains .verbose) t args
    | none =>
      match arg, args with
      | "--", [] => ofArgs a []
      | "--", next :: _ => .error (.misuse (match Topic.ofCommand? next with
        | some _ => .unexpected next
        | none => .unknownCommand next))
      | arg, args =>
        match arg.toList with
        | '-' :: _ :: _ => do ofArgs (← a.takeArg .program arg) args
        | _ => .error (.misuse (.unknownCommand arg))

def read (args : List String) : Except Stop Invocation := Invocation.ofArgs {} args

end JsonFilter.CommandLine
