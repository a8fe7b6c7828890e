import JsonFilter.Document

namespace JsonFilter

namespace Failure

inductive Kind
  | parse | compile | runtime | base
deriving DecidableEq, Repr

def Kind.isA (kind other : Kind) : Bool := other = .base || kind = other

def Kind.label : Kind → String
  | .parse => "parse"
  | .compile => "compile"
  | .runtime => "runtime"
  | .base => "jq"

def Kind.tag : Kind → String
  | .parse => "Parse"
  | .compile => "Compile"
  | .runtime => "Runtime"
  | .base => "Init"

def noEngine : String := "Failed to initialize jq"

def badFilter : String := "Syntax error in jq filter"

def badInput : String := "Invalid JSON input"

def unknown : String := "Unknown error"

def unprintable : String := "Failed to convert result to JSON"

end Failure

structure Failure where
  kind : Failure.Kind
  message : String
deriving DecidableEq, Repr

namespace Failure

/-- The failure that a document stands for; one without a message takes the fallback. -/
def ofDocumentOr (d : Document) (kind : Kind) (fallback : String) : Failure :=
  ⟨kind, d.message?.getD fallback⟩

def ofDocument (d : Document) (kind : Kind) : Failure := ofDocumentOr d kind unknown

def ofDiagnostic (d : Document) : Failure := ofDocumentOr d .compile badFilter

def ofInput (d : Document) : Failure := ofDocumentOr d .parse badInput

end Failure

end JsonFilter
