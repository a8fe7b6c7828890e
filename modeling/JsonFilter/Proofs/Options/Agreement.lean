import JsonFilter.Document
import JsonFilter.Proofs.Options.Text

namespace JsonFilter.Options

open Json.Grammar

variable {text : String} {ms : Members Json}

theorem ofText_named_once (spelled : Padded ObjectText ms text.toList)
    (once : ∀ f : Field, ms.keys.count f.name ≤ 1) :
    ofText text = ofJson (.obj (Members.ofPairs ms)) :=
  (ofText_object spelled).1 _ (assign_once once)

theorem ofText_named_again (spelled : Padded ObjectText ms text.toList) {f : Field}
    (twice : 2 ≤ ms.keys.count f.name) :
    ∃ g p, FirstAgain g ms ∧
      ofText text = .error (Json.located ("duplicate field `" ++ g.name ++ "`") p) := by
  obtain ⟨g, again, first⟩ := assign_twice twice
  obtain ⟨p, refused⟩ := (ofText_object spelled).2 g again
  exact ⟨g, p, first, refused⟩

theorem ofText_positional {xs : List Json} (spelled : Padded ArrayText xs text.toList) :
    (xs.length ≤ 4 → ofText text = ofJson (.obj ((Field.all.map Field.name).zip xs))) ∧
      (4 < xs.length → ∃ message, ofText text = .error message) := by
  obtain ⟨few, many⟩ := ofText_array spelled
  refine ⟨fun h => ?_, many⟩
  rw [few h, place_all]
  rfl

/-- Options straight from a text, against those of the document that it gives. The members are those
of an object as they are written, so that a name in any spelling counts. -/
theorem ofText_agrees (text : String) :
    (∀ os, Document.ofText text = .json (.obj os) ↔
      ∃ ms, Padded ObjectText ms text.toList ∧ os = Members.ofPairs ms) ∧
    (∀ ms, Padded ObjectText ms text.toList →
      ((∀ f : Field, ms.keys.count f.name ≤ 1) →
        ofText text = ofJson (.obj (Members.ofPairs ms))) ∧
      (∀ f : Field, 2 ≤ ms.keys.count f.name →
        ∃ g p, FirstAgain g ms ∧
          ofText text = .error (Json.located ("duplicate field `" ++ g.name ++ "`") p)) ∧
      ∃ o, ofJson (.obj (Members.ofPairs ms)) = .ok o ∧ Assigned default ms o) ∧
    ∀ xs, Document.ofText text = .json (.arr xs) →
      (∃ message, ofJson (.arr xs) = .error message) ∧
      ((∃ o, ofText text = .ok o) ↔ xs.length ≤ 4) ∧
      ∀ o, ofText text = .ok o → ofJson (.obj ((Field.all.map Field.name).zip xs)) = .ok o := by
  refine ⟨fun os => ?_, fun ms spelled => ⟨?_, ?_, ?_⟩, fun xs parsed => ?_⟩
  · rw [Document.ofText_eq_json, padded_obj_iff]
  · exact ofText_named_once spelled
  · exact fun f twice => ofText_named_again spelled twice
  · exact ⟨_, rfl, assigned_ofPairs ms⟩
  · obtain ⟨few, many⟩ := ofText_positional (padded_arr_iff.mp (Document.ofText_eq_json.mp parsed))
    have short {o : Options} (read : ofText text = .ok o) : xs.length ≤ 4 := by
      by_contra long
      obtain ⟨message, refused⟩ := many (Nat.lt_of_not_le long)
      rw [refused] at read
      cases read
    refine ⟨⟨_, rfl⟩, ⟨?_, fun h => ⟨_, few h⟩⟩, fun o read => ?_⟩
    · rintro ⟨o, read⟩
      exact short read
    · rw [← few (short read), read]

def escapedText : String :=
  "\x7b\"sort\\u005fkeys\": [], \"x\": \x7b\"raw_output\": [true]\x7d, \"compact_output\": null\x7d"

def escaped : Json :=
  .obj [("sort_keys", .arr []), ("x", .obj [("raw_output", .arr [.bool true])]),
    ("compact_output", .null)]

example : Document.ofText escapedText = .json escaped ∧
    ofText escapedText = .ok { sortKeys := true } ∧ ofJson escaped = .ok { sortKeys := true } :=
  ⟨by rfl, by decide +kernel, by rfl⟩

example : ofText "\x7b\"sort_keys\": 1, \"sort\\u005fkeys\": 1\x7d" =
    .error "duplicate field `sort_keys` at line 1 column 33" := by decide +kernel

end JsonFilter.Options
