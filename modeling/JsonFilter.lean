import JsonFilter.Main
import JsonFilter.Options.Reader
import JsonFilter.Proofs.CommandLine.Lines
import JsonFilter.Proofs.Document
import JsonFilter.Proofs.Engine.Interpreter
import JsonFilter.Proofs.Json.Canonical
import JsonFilter.Proofs.Json.Grammar.Value
import JsonFilter.Proofs.Holder
import JsonFilter.Proofs.Identity
import JsonFilter.Proofs.Modes
import JsonFilter.Proofs.Json.Source
import JsonFilter.Proofs.Indented
import JsonFilter.Proofs.Integers
import JsonFilter.Proofs.Json.Skip
import JsonFilter.Proofs.Json.Source.Denoted
import JsonFilter.Proofs.Json.Source.Printed
import JsonFilter.Proofs.Options.Agreement
import JsonFilter.Proofs.RepeatedKeys
import JsonFilter.Proofs.Filter.Iteration
import JsonFilter.Proofs.Iteration
import JsonFilter.Proofs.Stream.Fused
import JsonFilter.Proofs.CommandLine.Lifecycle
import JsonFilter.Proofs.Diagnostics
import JsonFilter.Proofs.Rejection
