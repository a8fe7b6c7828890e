import JsonFilter.Proofs.Json.Sorted
import JsonFilter.Proofs.Json.Source.Denoted
import JsonFilter.Proofs.Json.Source.Printed

namespace JsonFilter.Document

open Json (Source)
open Json.Source

theorem exists_written {text : String} {j : Json} (parsed : ofText text = .json j) :
    ∃ s : Source, s.Written text ∧ s.Denotes j := by
  have spelled := ofText_eq_json.mp parsed
  obtain ⟨s, written, denotes⟩ :=
    (padded_iff (value_iff Json.depthLimit) j text.toList).mp spelled
  exact ⟨s, ⟨_, written⟩, denotes⟩

theorem written_toText {j : Json} (distinct : j.Distinct) (sortKeys : Bool) :
    ∃ line, toText false sortKeys (.json j) = .json (.str line) ∧
      ∃ s : Source, (∀ s' : Source, s'.Written line ↔ s' = s) ∧ s.Distinct := by
  have printed : (if sortKeys then j.sortKeys else j).Distinct := by
    cases sortKeys with
    | false => exact distinct
    | true => exact Json.distinct_sortKeys distinct
  obtain ⟨s, written, distinct⟩ := written_chars printed false
  refine ⟨_, rfl, s, fun s' => ⟨fun written' => written'.unique written, ?_⟩, distinct⟩
  rintro rfl
  exact written

/-- Each object literal of a text stands for exactly one object, in which its repeated keys are
resolved; the objects that are read are among those, and written again they repeat no key. -/
theorem ofText_resolved {text : String} {j : Json} (parsed : ofText text = .json j) :
    ∃ s : Source, (∀ s' : Source, s'.Written text ↔ s' = s) ∧ s.Denotes j ∧
      (∀ ms, Part (.obj ms) s →
        ∃ os, (∀ j', Denotes (.obj ms) j' ↔ j' = .obj os) ∧ Resolved ms os) ∧
      (∀ os, Json.Part (.obj os) j → ∃ ms, Part (.obj ms) s ∧ Denotes (.obj ms) (.obj os)) ∧
      j.Distinct ∧
      ∀ sortKeys, ∃ line, toText false sortKeys (.json j) = .json (.str line) ∧
        ∃ s' : Source, (∀ s'' : Source, s''.Written line ↔ s'' = s') ∧ s'.Distinct := by
  obtain ⟨s, written, denotes⟩ := exists_written parsed
  refine ⟨s, fun s' => ⟨fun written' => written'.unique written, ?_⟩, denotes, ?_, ?_,
    denotes.distinct, written_toText denotes.distinct⟩
  · rintro rfl
    exact written
  · intro ms part
    obtain ⟨q, stands⟩ := denotes.of_part part
    obtain ⟨os, rfl⟩ := stands.obj_left
    refine ⟨os, fun j' => ⟨fun stands' => stands'.unique stands, ?_⟩, stands.resolved⟩
    rintro rfl
    exact stands
  · intro os part
    obtain ⟨p, part, stands⟩ := denotes.exists_part part
    obtain ⟨ms, rfl⟩ := stands.obj_right
    exact ⟨ms, part, stands⟩

/-- A key that comes again in an escaped spelling, and repeated keys inside the value that it
replaces and inside the one that replaces it. -/
def repeatedText : String :=
  "\x7b\"b\": \x7b\"c\": 1, \"c\": 2\x7d, \"a\": [], " ++
    "\"\\u0062\": [\x7b\"k\": null, \"k\": true\x7d]\x7d"

def repeated : Json := .obj [("b", .arr [.obj [("k", .bool true)]]), ("a", .arr [])]

def repeatedLine : String := "\x7b\"b\":[\x7b\"k\":true\x7d],\"a\":[]\x7d"

theorem ofText_repeated : ofText repeatedText = .json repeated := by rfl

theorem repeatedText_resolved :
    ofText repeatedText = .json repeated ∧ repeated.Distinct ∧
      ∃ s : Source, (∀ s' : Source, s'.Written repeatedText ↔ s' = s) ∧ s.Denotes repeated ∧
        (∀ ms, Part (.obj ms) s →
          ∃ os, (∀ j', Denotes (.obj ms) j' ↔ j' = .obj os) ∧ Resolved ms os) ∧
        ∃ s' : Source, s'.Written repeatedLine ∧ s'.Distinct := by
  obtain ⟨s, written, denotes, literals, -, distinct, printed⟩ := ofText_resolved ofText_repeated
  obtain ⟨line, compact, s', written', plain⟩ := printed false
  have same : repeatedLine = line := by
    have text : toText false false (.json repeated) = .json (.str repeatedLine) := by rfl
    rw [text] at compact
    cases compact
    rfl
  rw [same]
  exact ⟨ofText_repeated, distinct, s, written, denotes, literals, s', (written' s').mpr rfl, plain⟩

end JsonFilter.Document
