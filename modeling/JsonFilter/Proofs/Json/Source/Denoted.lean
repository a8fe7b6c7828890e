import JsonFilter.Proofs.Json.Part
import JsonFilter.Proofs.Json.Source
import JsonFilter.Proofs.Related

namespace JsonFilter

namespace Members

variable {α β : Type} {R : α → β → Prop} {ms : Members α} {ns : Members β}

theorem Last.of_forall₂ (related : List.Forall₂ (fun m n => m.1 = n.1 ∧ R m.2 n.2) ms ns)
    {key : String} {w : β} (last : ns.Last key w) : ∃ v, ms.Last key v ∧ R v w := by
  obtain ⟨front, behind, rfl, absent⟩ := last
  induction front generalizing ms with
  | nil =>
    obtain _ | ⟨⟨rfl, value⟩, others⟩ := related
    refine ⟨_, ⟨[], _, rfl, ?_⟩, value⟩
    rwa [(forall₂_iff.mp others).1]
  | cons n front ih =>
    obtain _ | ⟨-, others⟩ := related
    obtain ⟨v, ⟨front, behind, rfl, absent⟩, value⟩ := ih others
    exact ⟨v, ⟨_ :: front, behind, rfl, absent⟩, value⟩

end Members

namespace Json.Source

@[elab_as_elim]
theorem parts_induction {motive : Source → Prop} (null : motive .null)
    (bool : ∀ b, motive (.bool b)) (num : ∀ n, motive (.num n)) (str : ∀ s, motive (.str s))
    (arr : ∀ xs : List Source, (∀ x ∈ xs, motive x) → motive (.arr xs))
    (obj : ∀ ms : Members Source, (∀ m ∈ ms, motive m.2) → motive (.obj ms)) (s : Source) :
    motive s := by
  refine @Source.rec motive (fun xs => ∀ x ∈ xs, motive x) (fun ms => ∀ m ∈ ms, motive m.2)
    (fun m => motive m.2) null bool num str arr obj nofun ?_ nofun ?_ (fun _ _ h => h) s
  · exact fun _ _ first others => List.forall_mem_cons.mpr ⟨first, others⟩
  · exact fun _ _ first others => List.forall_mem_cons.mpr ⟨first, others⟩

theorem Denotes.unique {s : Source} {j j' : Json} (h : Denotes s j) (h' : Denotes s j') :
    j = j' := by
  induction s using parts_induction generalizing j j' with
  | null => cases h; cases h'; rfl
  | bool b => cases h; cases h'; rfl
  | num n =>
    obtain _ | _ | value := h
    obtain _ | _ | value' := h'
    rw [value, Option.some.injEq] at value'
    rw [value']
  | str s => cases h; cases h'; rfl
  | arr xs ih =>
    obtain _ | _ | _ | _ | items := h
    obtain _ | _ | _ | _ | items' := h'
    rw [forall₂_unique (fun x hx _ _ => ih x hx) items items']
  | obj ms ih =>
    obtain _ | _ | _ | _ | _ | ⟨keys, values, resolves⟩ := h
    obtain _ | _ | _ | _ | _ | ⟨keys', values', resolves'⟩ := h'
    have pairs := forall₂_unique (fun m hm _ _ one other => Prod.ext (one.1.symm.trans other.1)
      (ih m hm one.2 other.2)) (Members.forall₂_iff.mpr ⟨keys, values⟩)
      (Members.forall₂_iff.mpr ⟨keys', values'⟩)
    subst pairs
    rw [resolves.unique resolves']

/-- What an object literal stands for: each key stands where it was written first, with what was
written last for it. -/
structure Resolved (ms : Members Source) (os : Members Json) : Prop where
  distinct : os.Distinct
  known {key : String} : key ∈ os.keys ↔ key ∈ ms.keys
  places : os.keys.Pairwise fun a b => ms.keys.idxOf a < ms.keys.idxOf b
  values {key : String} {value : Json} :
    (key, value) ∈ os ↔ ∃ s, ms.Last key s ∧ Denotes s value

theorem Denotes.resolved {ms : Members Source} {os : Members Json}
    (h : Denotes (.obj ms) (.obj os)) : Resolved ms os := by
  obtain _ | _ | _ | _ | _ | ⟨keys, values, resolves⟩ := h
  have related := Members.forall₂_iff.mpr ⟨keys, values⟩
  refine ⟨resolves.distinct, keys ▸ resolves.mem_keys, keys ▸ resolves.places, ?_⟩
  intro key value
  rw [resolves.values]
  refine ⟨Members.Last.of_forall₂ related, ?_⟩
  rintro ⟨s, last, denotes⟩
  have known := Members.mem_keys_of_mem last.mem
  rw [keys] at known
  obtain ⟨value', last'⟩ := Members.exists_last known
  obtain ⟨s', same, denotes'⟩ := Members.Last.of_forall₂ related last'
  cases last.unique same
  cases denotes.unique denotes'
  exact last'

theorem Denotes.obj_left {ms : Members Source} {j : Json} (h : Denotes (.obj ms) j) :
    ∃ os, j = .obj os := by
  cases h
  exact ⟨_, rfl⟩

theorem Denotes.obj_right {s : Source} {os : Members Json} (h : Denotes s (.obj os)) :
    ∃ ms, s = .obj ms := by
  cases h
  exact ⟨_, rfl⟩

theorem Denotes.of_part {p s : Source} (part : Part p s) {j : Json} (h : Denotes s j) :
    ∃ q, Denotes p q := by
  induction part generalizing j with
  | self => exact ⟨j, h⟩
  | item hx _ ih =>
    obtain _ | _ | _ | _ | items := h
    obtain ⟨y, -, denotes⟩ := forall₂_mem_left items hx
    exact ih denotes
  | value hm _ ih =>
    obtain _ | _ | _ | _ | _ | ⟨keys, values, -⟩ := h
    obtain ⟨n, -, -, denotes⟩ := forall₂_mem_left (Members.forall₂_iff.mpr ⟨keys, values⟩) hm
    exact ih denotes

theorem Denotes.exists_part {q j : Json} (part : Json.Part q j) {s : Source} (h : Denotes s j) :
    ∃ p, Part p s ∧ Denotes p q := by
  induction part generalizing s with
  | self => exact ⟨s, .self, h⟩
  | item hy _ ih =>
    obtain _ | _ | _ | _ | items := h
    obtain ⟨x, hx, denotes⟩ := forall₂_mem_right items hy
    obtain ⟨p, part, stands⟩ := ih denotes
    exact ⟨p, .item hx part, stands⟩
  | @value m os hm _ ih =>
    obtain ⟨ms, rfl⟩ := h.obj_right
    obtain ⟨x, last, denotes⟩ := h.resolved.values.mp hm
    obtain ⟨p, part, stands⟩ := ih denotes
    exact ⟨p, .value last.mem part, stands⟩

theorem Denotes.distinct {s : Source} {j : Json} (h : Denotes s j) : j.Distinct := by
  intro os part
  obtain ⟨p, -, stands⟩ := h.exists_part part
  obtain ⟨ms, rfl⟩ := stands.obj_right
  exact stands.resolved.distinct

end Json.Source

end JsonFilter
