namespace JsonFilter

abbrev Members (α : Type) := List (String × α)

namespace Members

variable {α β : Type}

def keys (ms : Members α) : List String := ms.map Prod.fst

def values (ms : Members α) : List α := ms.map Prod.snd

def get? : Members α → String → Option α
  | [], _ => none
  | (k, v) :: ms, key => if k = key then some v else get? ms key

/-- A new key goes to the end, a known one keeps its place and takes the new value. -/
def put : Members α → String → α → Members α
  | [], key, value => [(key, value)]
  | (k, v) :: ms, key, value =>
    if k = key then (k, value) :: ms else (k, v) :: put ms key value

def putAll (ms : Members α) (pairs : Members α) : Members α :=
  pairs.foldl (fun acc pair => acc.put pair.1 pair.2) ms

def ofPairs (pairs : Members α) : Members α := putAll [] pairs

/-- Takes a key out; the last pair moves into the gap. -/
def remove : Members α → String → Members α
  | [], _ => []
  | (k, v) :: ms, key =>
    if k = key then
      match ms.getLast? with
      | none => []
      | some last => last :: ms.dropLast
    else (k, v) :: remove ms key

def mapValues (f : α → β) (ms : Members α) : Members β := ms.map fun (k, v) => (k, f v)

/-- Ascending by key, by code points, which is the byte order of UTF-8. -/
def sorted (ms : Members α) : Members α := ms.mergeSort fun a b => decide (a.1 ≤ b.1)

def Distinct (ms : Members α) : Prop := ms.keys.Nodup

theorem mem_keys_put {ms : Members α} {key k : String} {value : α} :
    k ∈ (ms.put key value).keys ↔ k = key ∨ k ∈ ms.keys := by
  induction ms with
  | nil => simp [put, keys]
  | cons m ms ih =>
    obtain ⟨k', v⟩ := m
    by_cases h : k' = key
    · simp only [put, h, if_true, keys, List.map_cons, List.mem_cons]
      exact ⟨.inr, fun hk => hk.elim .inl id⟩
    · simp only [keys] at ih
      simp only [put, h, if_false, keys, List.map_cons, List.mem_cons, ih]
      exact or_left_comm

theorem Distinct.put {ms : Members α} (h : ms.Distinct) (key : String) (value : α) :
    (ms.put key value).Distinct := by
  induction ms with
  | nil => simp [Members.put, Distinct, keys]
  | cons m ms ih =>
    obtain ⟨k, v⟩ := m
    have hk : k ∉ keys ms := (List.nodup_cons.mp h).1
    have hms : Distinct ms := (List.nodup_cons.mp h).2
    by_cases e : k = key
    · simp only [Members.put, e, if_true]
      exact List.nodup_cons.mpr ⟨e ▸ hk, hms⟩
    · simp only [Members.put, e, if_false]
      exact List.nodup_cons.mpr ⟨fun m => (mem_keys_put.mp m).elim e hk, ih hms⟩

theorem distinct_nil : Distinct ([] : Members α) := List.nodup_nil

theorem Distinct.putAll {ms : Members α} (h : ms.Distinct) (pairs : Members α) :
    (ms.putAll pairs).Distinct := by
  induction pairs generalizing ms with
  | nil => exact h
  | cons p ps ih => exact ih (h.put p.1 p.2)

theorem distinct_ofPairs (pairs : Members α) : (ofPairs pairs).Distinct :=
  distinct_nil.putAll pairs

end Members

end JsonFilter
