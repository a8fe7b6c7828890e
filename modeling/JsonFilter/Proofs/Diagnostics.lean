import JsonFilter.Document
import JsonFilter.Proofs.Json.Position
import JsonFilter.Proofs.Json.Repeats.Value

namespace JsonFilter.Document

def diagnostic (cause : Json.Cause) (front : List Nat) (text : String) : String :=
  cause.text ++ " at line " ++ toString (1 + front.count 0x0A) ++ " column " ++
    toString (front.reverse.takeWhile (· ≠ 0x0A)).length ++ " (while parsing '" ++
    String.ofList (text.toList.take 32) ++ "')"

variable {text : String} {f : Json.Fault}

theorem rejection_eq_diagnostic (text : String) (f : Json.Fault) :
    rejection text.toList f =
      diagnostic f.cause ((Utf8.encode text).take (f.offset text.toList)) text := by
  rw [rejection, Json.Fault.message, Json.Fault.position, Json.Position.behind_eq]
  rfl

/-- The bytes in front of a fault that they decide give every text the same fault. -/
theorem ofText_alike (refused : Json.ofText text = .error f) (final : f.cause.isEof = false)
    (range : f.cause ≠ .numberOutOfRange) {text' : String}
    (alike : (Utf8.encode text').take (f.offset text.toList) =
      (Utf8.encode text).take (f.offset text.toList)) :
    ofText text' = .invalid
      (some (diagnostic f.cause ((Utf8.encode text).take (f.offset text.toList)) text')) := by
  obtain ⟨g, again, cause, place⟩ := Json.ofChars_alike refused final range alike.symm
  have rejected : Json.ofText text' = .error g := again
  rw [ofText, rejected]
  dsimp only
  rw [rejection_eq_diagnostic, cause, place, alike]

/-- What a message about a text has to do with its first bytes. -/
structure Diagnosed (text : String) (cause : Json.Cause) (p : Nat) (m : Option String) : Prop where
  message : m = some (diagnostic cause ((Utf8.encode text).take p) text)
  inside : p ≤ (Utf8.encode text).length
  ended : cause.isEof = true → p = (Utf8.encode text).length
  settled : cause.isEof = false → cause ≠ .numberOutOfRange → ∀ text' : String,
    (Utf8.encode text').take p = (Utf8.encode text).take p →
      ofText text' = .invalid (some (diagnostic cause ((Utf8.encode text).take p) text'))

/-- The message about a rejected text points at the failure, and depends only on what was read. -/
theorem ofText_diagnosed {m : Option String} (rejected : ofText text = .invalid m) :
    ∃ cause p, Diagnosed text cause p m := by
  cases read : Json.ofText text with
  | ok j =>
    rw [ofText, read] at rejected
    cases rejected
  | error f =>
    rw [ofText, read] at rejected
    cases rejected
    have size : (Utf8.encode text).length = Utf8.byteCount text.toList := Utf8.bytes_length _
    obtain ⟨inside, last⟩ := Json.ofChars_offset read
    refine ⟨f.cause, f.offset text.toList, ⟨?_, ?_, ?_, fun final range text' alike => ?_⟩⟩
    · rw [rejection_eq_diagnostic]
    · rwa [size]
    · rwa [size]
    · exact ofText_alike read final range alike

theorem ofText_diagnosed_escape :
    ofText "[\"\\ud8\n0é\"]" =
        .invalid (some "invalid escape at line 2 column 1 (while parsing '[\"\\ud8\n0é\"]')") ∧
      ∃ cause p, Diagnosed "[\"\\ud8\n0é\"]" cause p
        (some "invalid escape at line 2 column 1 (while parsing '[\"\\ud8\n0é\"]')") := by
  have rejected : ofText "[\"\\ud8\n0é\"]" =
      .invalid (some "invalid escape at line 2 column 1 (while parsing '[\"\\ud8\n0é\"]')") := by rfl
  exact ⟨rejected, ofText_diagnosed rejected⟩

end JsonFilter.Document
