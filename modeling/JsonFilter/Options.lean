import JsonFilter.Json.Printer

namespace JsonFilter

structure Options where
  rawOutput : Bool := false
  compactOutput : Bool := true
  sortKeys : Bool := false
  multipleOutputs : Bool := false
deriving DecidableEq, Repr

namespace Options

inductive Field
  | rawOutput | compactOutput | sortKeys | multipleOutputs
deriving DecidableEq, Repr

def Field.all : List Field := [.rawOutput, .compactOutput, .sortKeys, .multipleOutputs]

def Field.name : Field → String
  | .rawOutput => "raw_output"
  | .compactOutput => "compact_output"
  | .sortKeys => "sort_keys"
  | .multipleOutputs => "multiple_outputs"

def Field.ofName? (name : String) : Option Field := all.find? fun f => f.name = name

def get (o : Options) : Field → Bool
  | .rawOutput => o.rawOutput
  | .compactOutput => o.compactOutput
  | .sortKeys => o.sortKeys
  | .multipleOutputs => o.multipleOutputs

def set (o : Options) (f : Field) (value : Bool) : Options :=
  match f with
  | .rawOutput => { o with rawOutput := value }
  | .compactOutput => { o with compactOutput := value }
  | .sortKeys => { o with sortKeys := value }
  | .multipleOutputs => { o with multipleOutputs := value }

def default : Options := {}

/-- The truth of an option's value; `none` keeps the default. -/
def truth? : Json → Option Bool
  | .null => none
  | .bool b => some b
  | _ => some true

def read (o : Options) (f : Field) (value : Json) : Options :=
  o.set f ((truth? value).getD (default.get f))

def ofMembers (ms : Members Json) : Options :=
  Field.all.foldl (fun o f => match ms.get? f.name with
    | some v => o.read f v
    | none => o) default

def refusal (j : Json) : String := "options must be an object, got " ++ j.compact

def ofJson : Json → Except String Options
  | .null => .ok default
  | .obj ms => .ok (ofMembers ms)
  | other => .error (refusal other)

def toJson (o : Options) : Json := .obj (Field.all.map fun f => (f.name, .bool (o.get f)))

end Options

structure Shape where
  raw : Bool := false
  compact : Bool := true
  sortKeys : Bool := false
deriving DecidableEq, Repr

def Options.shape (o : Options) : Shape := ⟨o.rawOutput, o.compactOutput, o.sortKeys⟩

end JsonFilter
