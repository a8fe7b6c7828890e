import JsonFilter.Proofs.Members
import Mathlib.Data.List.Induction
import Mathlib.Data.List.Nodup

namespace JsonFilter.Members

variable {α : Type}

def Last (pairs : Members α) (key : String) (value : α) : Prop :=
  ∃ front behind, pairs = front ++ (key, value) :: behind ∧ key ∉ keys behind

/-- Each key stands where its first pair puts it and has the value of its last one. -/
structure Resolves (pairs ms : Members α) : Prop where
  places : ms.keys.Pairwise fun a b => pairs.keys.idxOf a < pairs.keys.idxOf b
  values {key : String} {value : α} : (key, value) ∈ ms ↔ pairs.Last key value

theorem keys_append (ms ns : Members α) : keys (ms ++ ns) = keys ms ++ keys ns := List.map_append

theorem mem_keys_of_mem {ms : Members α} {key : String} {value : α} (h : (key, value) ∈ ms) :
    key ∈ ms.keys := List.mem_map_of_mem h

theorem exists_mem_of_mem_keys {ms : Members α} {key : String} (h : key ∈ ms.keys) :
    ∃ value, (key, value) ∈ ms := by
  obtain ⟨⟨k, value⟩, member, rfl⟩ := List.mem_map.mp h
  exact ⟨value, member⟩

theorem Last.mem {pairs : Members α} {key : String} {value : α} (h : pairs.Last key value) :
    (key, value) ∈ pairs := by
  obtain ⟨front, behind, rfl, -⟩ := h
  simp

theorem last_concat {pairs : Members α} {k key : String} {v value : α} :
    Last (pairs ++ [(k, v)]) key value ↔ key = k ∧ value = v ∨ key ≠ k ∧ pairs.Last key value := by
  constructor
  · rintro ⟨front, behind, split, absent⟩
    rcases List.eq_nil_or_concat behind with rfl | ⟨behind, m, rfl⟩
    · obtain ⟨-, same⟩ := List.append_inj' split rfl
      cases same
      exact .inl ⟨rfl, rfl⟩
    · rw [List.concat_eq_append] at split absent
      rw [← List.cons_append, ← List.append_assoc] at split
      obtain ⟨rfl, same⟩ := List.append_inj' split rfl
      cases same
      rw [keys_append, List.mem_append, not_or] at absent
      exact .inr ⟨fun same => absent.2 (by simp [keys, same]), front, behind, rfl, absent.1⟩
  · rintro (⟨rfl, rfl⟩ | ⟨different, front, behind, rfl, absent⟩)
    · exact ⟨pairs, [], rfl, List.not_mem_nil⟩
    · refine ⟨front, behind ++ [(k, v)], by simp, ?_⟩
      rw [keys_append, List.mem_append, not_or]
      exact ⟨absent, by simpa [keys] using different⟩

theorem last_cons {pairs : Members α} {m : String × α} {key : String} {value : α} :
    Last (m :: pairs) key value ↔
      key ∉ pairs.keys ∧ m = (key, value) ∨ pairs.Last key value := by
  constructor
  · rintro ⟨front, behind, split, absent⟩
    rcases List.cons_eq_append_iff.mp split with ⟨rfl, same⟩ | ⟨front, rfl, rfl⟩
    · cases same
      exact .inl ⟨absent, rfl⟩
    · exact .inr ⟨front, behind, rfl, absent⟩
  · rintro (⟨absent, rfl⟩ | ⟨front, behind, rfl, absent⟩)
    · exact ⟨[], pairs, rfl, absent⟩
    · exact ⟨m :: front, behind, rfl, absent⟩

theorem exists_last {pairs : Members α} {key : String} (h : key ∈ pairs.keys) :
    ∃ value, pairs.Last key value := by
  induction pairs using List.reverseRecOn with
  | nil => cases h
  | append_singleton pairs m ih =>
    obtain ⟨k, v⟩ := m
    by_cases same : key = k
    · exact ⟨v, last_concat.mpr (.inl ⟨same, rfl⟩)⟩
    · rw [keys_append, List.mem_append] at h
      obtain ⟨value, last⟩ := ih (h.resolve_right fun h => same (by simpa [keys] using h))
      exact ⟨value, last_concat.mpr (.inr ⟨same, last⟩)⟩

theorem Last.unique {pairs : Members α} {key : String} {v w : α} (h : pairs.Last key v)
    (h' : pairs.Last key w) : v = w := by
  induction pairs using List.reverseRecOn with
  | nil =>
    obtain ⟨front, behind, split, -⟩ := h
    simp at split
  | append_singleton pairs m ih =>
    obtain ⟨k, u⟩ := m
    rcases last_concat.mp h with ⟨same, rfl⟩ | ⟨different, h⟩
    · rcases last_concat.mp h' with ⟨-, rfl⟩ | ⟨different, -⟩
      · rfl
      · exact absurd same different
    · rcases last_concat.mp h' with ⟨same, -⟩ | ⟨-, h'⟩
      · exact absurd same different
      · exact ih h h'

theorem keys_put_known {ms : Members α} {key : String} (known : key ∈ ms.keys) (value : α) :
    (ms.put key value).keys = ms.keys := by
  induction ms with
  | nil => cases known
  | cons m ms ih =>
    obtain ⟨k, v⟩ := m
    by_cases same : k = key
    · simp only [put, same, if_true, keys, List.map_cons]
    · have rest : key ∈ keys ms := (List.mem_cons.mp known).resolve_left fun h => same h.symm
      simp only [keys] at ih rest
      simp only [put, same, if_false, keys, List.map_cons, ih rest]

theorem mem_put {ms : Members α} (distinct : ms.Distinct) {k key : String} {v value : α} :
    (key, value) ∈ ms.put k v ↔ key = k ∧ value = v ∨ key ≠ k ∧ (key, value) ∈ ms := by
  induction ms with
  | nil => simp [put]
  | cons m ms ih =>
    obtain ⟨k', v'⟩ := m
    obtain ⟨absent, others⟩ := List.nodup_cons.mp distinct
    have away (h : (key, value) ∈ ms) : key ≠ k' := by
      rintro rfl
      exact absent (mem_keys_of_mem h)
    by_cases same : k' = k
    · subst same
      simp only [put, if_true, List.mem_cons, Prod.mk.injEq]
      constructor
      · rintro (⟨rfl, rfl⟩ | h)
        · exact .inl ⟨rfl, rfl⟩
        · exact .inr ⟨away h, .inr h⟩
      · rintro (⟨rfl, rfl⟩ | ⟨different, ⟨rfl, -⟩ | h⟩)
        · exact .inl ⟨rfl, rfl⟩
        · exact absurd rfl different
        · exact .inr h
    · simp only [put, same, if_false, List.mem_cons, Prod.mk.injEq, ih others]
      constructor
      · rintro (⟨rfl, rfl⟩ | ⟨rfl, rfl⟩ | ⟨different, h⟩)
        · exact .inr ⟨same, .inl ⟨rfl, rfl⟩⟩
        · exact .inl ⟨rfl, rfl⟩
        · exact .inr ⟨different, .inr h⟩
      · rintro (⟨rfl, rfl⟩ | ⟨different, ⟨rfl, rfl⟩ | h⟩)
        · exact .inr (.inl ⟨rfl, rfl⟩)
        · exact .inl ⟨rfl, rfl⟩
        · exact .inr (.inr ⟨different, h⟩)

section Resolves

variable {pairs ms ns : Members α}

theorem Resolves.distinct (h : Resolves pairs ms) : ms.Distinct :=
  h.places.imp fun before => by rintro rfl; exact lt_irrefl _ before

theorem Resolves.mem_keys (h : Resolves pairs ms) {key : String} :
    key ∈ ms.keys ↔ key ∈ pairs.keys := by
  constructor
  · intro member
    obtain ⟨value, member⟩ := exists_mem_of_mem_keys member
    exact mem_keys_of_mem (h.values.mp member).mem
  · intro member
    obtain ⟨value, last⟩ := exists_last member
    exact mem_keys_of_mem (h.values.mpr last)

theorem Resolves.put (h : Resolves pairs ms) (k : String) (v : α) :
    Resolves (pairs ++ [(k, v)]) (ms.put k v) := by
  -- the places of the keys that are there do not change
  have before {a : String} (ha : a ∈ ms.keys) : (pairs.keys ++ [k]).idxOf a = pairs.keys.idxOf a :=
    List.idxOf_append_of_mem (h.mem_keys.mp ha)
  have kept :
      ms.keys.Pairwise fun a b => (pairs.keys ++ [k]).idxOf a < (pairs.keys ++ [k]).idxOf b :=
    h.places.imp_of_mem fun ha hb less => by rwa [before ha, before hb]
  constructor
  · rw [keys_append]
    show List.Pairwise (fun a b => (pairs.keys ++ [k]).idxOf a < (pairs.keys ++ [k]).idxOf b) _
    by_cases known : k ∈ ms.keys
    · rw [keys_put_known known]
      exact kept
    · rw [put_new known, keys_append]
      refine List.pairwise_append.mpr ⟨kept, List.pairwise_singleton _ _, ?_⟩
      intro a ha b hb
      rw [List.mem_singleton.mp hb]
      have new : k ∉ pairs.keys := fun member => known (h.mem_keys.mpr member)
      have least := List.idxOf_lt_length_iff.mpr (h.mem_keys.mp ha)
      rw [before ha, List.idxOf_append_of_notMem new]
      omega
  · intro key value
    rw [mem_put h.distinct, last_concat, h.values]

theorem resolves_ofPairs (pairs : Members α) : Resolves pairs (ofPairs pairs) := by
  -- the pairs are written one behind the other, so the last of them is the last to be written
  induction pairs using List.reverseRecOn with
  | nil =>
    refine ⟨List.Pairwise.nil, ?_⟩
    intro key value
    constructor
    · intro h
      cases h
    · exact fun last => last.mem
  | append_singleton pairs m ih =>
    rw [ofPairs, putAll, List.foldl_append]
    exact ih.put m.1 m.2

theorem Resolves.unique (h : Resolves pairs ms) (h' : Resolves pairs ns) : ms = ns := by
  have perm : ms.Perm ns := by
    refine (List.perm_ext_iff_of_nodup (List.Nodup.of_map _ h.distinct)
      (List.Nodup.of_map _ h'.distinct)).mpr ?_
    rintro ⟨key, value⟩
    rw [h.values, h'.values]
  have places {ms : Members α} (h : Resolves pairs ms) :
      ms.Pairwise fun a b => pairs.keys.idxOf a.1 < pairs.keys.idxOf b.1 := by
    have places : (ms.map Prod.fst).Pairwise fun a b => pairs.keys.idxOf a < pairs.keys.idxOf b :=
      h.places
    rwa [List.pairwise_map] at places
  exact perm.eq_of_pairwise (fun _ _ _ _ ab ba => absurd ba (lt_asymm ab)) (places h) (places h')

theorem resolves_iff : Resolves pairs ms ↔ ms = ofPairs pairs := by
  constructor
  · exact fun h => h.unique (resolves_ofPairs pairs)
  · rintro rfl
    exact resolves_ofPairs pairs

end Resolves

theorem get?_eq_some {ms : Members α} (distinct : ms.Distinct) {key : String} {value : α} :
    ms.get? key = some value ↔ (key, value) ∈ ms := by
  induction ms with
  | nil => simp [get?]
  | cons m ms ih =>
    obtain ⟨k, v⟩ := m
    obtain ⟨absent, others⟩ := List.nodup_cons.mp distinct
    by_cases same : k = key
    · subst same
      simp only [get?, if_true, Option.some.injEq, List.mem_cons, Prod.mk.injEq, true_and]
      constructor
      · exact fun h => .inl h.symm
      · rintro (h | h)
        · exact h.symm
        · exact absurd (mem_keys_of_mem h) absent
    · simp only [get?, same, if_false, ih others, List.mem_cons, Prod.mk.injEq]
      exact ⟨.inr, fun h => h.resolve_left fun h => same h.1.symm⟩

theorem get?_ofPairs {pairs : Members α} {key : String} {value : α} :
    (ofPairs pairs).get? key = some value ↔ pairs.Last key value := by
  rw [get?_eq_some (distinct_ofPairs pairs), (resolves_ofPairs pairs).values]

theorem get?_ofPairs_eq_none {pairs : Members α} {key : String} :
    (ofPairs pairs).get? key = none ↔ key ∉ pairs.keys := by
  constructor
  · intro absent member
    obtain ⟨value, last⟩ := exists_last member
    rw [get?_ofPairs.mpr last] at absent
    cases absent
  · intro absent
    cases found : (ofPairs pairs).get? key with
    | none => rfl
    | some value => exact absurd (mem_keys_of_mem (get?_ofPairs.mp found).mem) absent

end JsonFilter.Members
