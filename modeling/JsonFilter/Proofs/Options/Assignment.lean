import JsonFilter.Options
import JsonFilter.Proofs.Members.Repeated

namespace JsonFilter.Options

def Field.chosen (f : Field) : Json → Bool
  | .null => default.get f
  | .bool b => b
  | _ => true

theorem Field.name_inj {f g : Field} : f.name = g.name ↔ f = g := by
  cases f <;> cases g <;> decide

theorem Field.ofName?_eq_some {key : String} {f : Field} :
    ofName? key = some f ↔ key = f.name := by
  constructor
  · intro found
    have named := List.find?_some found
    exact (of_decide_eq_true named).symm
  · rintro rfl
    cases f <;> rfl

theorem Field.ofName?_eq_none {key : String} :
    ofName? key = none ↔ ∀ f : Field, key ≠ f.name := by
  constructor
  · rintro unknown f rfl
    rw [ofName?_eq_some.mpr rfl] at unknown
    cases unknown
  · intro other
    cases found : ofName? key with
    | none => rfl
    | some f => exact absurd (ofName?_eq_some.mp found) (other f)

theorem ext_get {o o' : Options} (h : ∀ f, o.get f = o'.get f) : o = o' := by
  obtain ⟨a, b, c, d⟩ := o
  obtain ⟨a', b', c', d'⟩ := o'
  obtain ⟨rfl, rfl, rfl, rfl⟩ : a = a' ∧ b = b' ∧ c = c' ∧ d = d' :=
    ⟨h .rawOutput, h .compactOutput, h .sortKeys, h .multipleOutputs⟩
  rfl

theorem get_read (o : Options) (f g : Field) (v : Json) :
    (o.read f v).get g = if f = g then f.chosen v else o.get g := by
  have value : (truth? v).getD (default.get f) = f.chosen v := by cases v <;> rfl
  rw [read, value]
  cases f <;> cases g <;> rfl

/-- What members make of options: the last value under the name of an option counts, and an option
that is not named is kept. -/
def Assigned (start : Options) (ms : Members Json) (o : Options) : Prop :=
  ∀ f : Field, (f.name ∉ ms.keys → o.get f = start.get f) ∧
    ∀ v, ms.Last f.name v → o.get f = f.chosen v

theorem Assigned.unique {start o o' : Options} {ms : Members Json} (h : Assigned start ms o)
    (h' : Assigned start ms o') : o = o' := by
  apply ext_get
  intro f
  by_cases named : f.name ∈ ms.keys
  · obtain ⟨v, last⟩ := Members.exists_last named
    rw [(h f).2 v last, (h' f).2 v last]
  · rw [(h f).1 named, (h' f).1 named]

def FirstAgain (f : Field) (ms : Members Json) : Prop :=
  ∃ (front : Members Json) (v : Json) (behind : Members Json),
    ms = front ++ (f.name, v) :: behind ∧ f.name ∈ front.keys ∧
      ∀ g : Field, front.keys.count g.name ≤ 1

/-- The options after the members that are given, or the first one of them that is named again. -/
def assign (seen : List Field) (o : Options) : Members Json → Except Field Options
  | [] => .ok o
  | (key, v) :: ms =>
    match Field.ofName? key with
    | some f => if f ∈ seen then .error f else assign (f :: seen) (o.read f v) ms
    | none => assign seen o ms

section Assign

variable {seen : List Field} {o o' : Options} {ms : Members Json} {f : Field} {v : Json}

theorem assign_known (new : f ∉ seen) :
    assign seen o ((f.name, v) :: ms) = assign (f :: seen) (o.read f v) ms := by
  rw [assign, Field.ofName?_eq_some.mpr rfl]
  exact if_neg new

theorem assign_again (again : f ∈ seen) : assign seen o ((f.name, v) :: ms) = .error f := by
  rw [assign, Field.ofName?_eq_some.mpr rfl]
  exact if_pos again

theorem assign_unknown {key : String} (unknown : ∀ f : Field, key ≠ f.name) :
    assign seen o ((key, v) :: ms) = assign seen o ms := by
  rw [assign, Field.ofName?_eq_none.mpr unknown]

theorem key_cases (key : String) (seen : List Field) :
    (∃ f : Field, key = f.name ∧ f ∉ seen) ∨ (∃ f : Field, key = f.name ∧ f ∈ seen) ∨
      ∀ f : Field, key ≠ f.name := by
  cases named : Field.ofName? key with
  | none => exact .inr (.inr (Field.ofName?_eq_none.mp named))
  | some f =>
    have same := Field.ofName?_eq_some.mp named
    by_cases again : f ∈ seen
    · exact .inr (.inl ⟨f, same, again⟩)
    · exact .inl ⟨f, same, again⟩

def Unrepeated (seen : List Field) (ms : Members Json) : Prop :=
  ∀ g : Field, ms.keys.count g.name ≤ 1 ∧ (g ∈ seen → g.name ∉ ms.keys)

theorem unrepeated_nil : Unrepeated seen [] := by simp [Unrepeated, Members.keys]

theorem Unrepeated.known (h : Unrepeated (f :: seen) ms) (new : f ∉ seen) :
    Unrepeated seen ((f.name, v) :: ms) := by
  have first : f.name ∉ ms.keys := (h f).2 List.mem_cons_self
  intro g
  obtain ⟨once, absent⟩ := h g
  by_cases same : f = g
  · subst same
    have none : ms.keys.count f.name = 0 := List.count_eq_zero.mpr first
    refine ⟨?_, fun again => absurd again new⟩
    simp [Members.keys] at none ⊢
    omega
  · have other : f.name ≠ g.name := fun names => same (Field.name_inj.mp names)
    refine ⟨?_, fun again => ?_⟩
    · simpa [Members.keys, List.count_cons, other] using once
    · simpa [Members.keys, other.symm] using absent (List.mem_cons_of_mem f again)

theorem Unrepeated.unknown (h : Unrepeated seen ms) {key : String}
    (unknown : ∀ f : Field, key ≠ f.name) : Unrepeated seen ((key, v) :: ms) := by
  intro g
  obtain ⟨once, absent⟩ := h g
  refine ⟨?_, fun again => ?_⟩
  · simpa [Members.keys, List.count_cons, unknown g] using once
  · simpa [Members.keys, (unknown g).symm] using absent again

theorem unrepeated_of_assign (done : assign seen o ms = .ok o') : Unrepeated seen ms := by
  induction ms generalizing seen o with
  | nil => exact unrepeated_nil
  | cons m ms ih =>
    obtain ⟨key, v⟩ := m
    rcases key_cases key seen with ⟨f, rfl, new⟩ | ⟨f, rfl, again⟩ | unknown
    · rw [assign_known new] at done
      exact (ih done).known new
    · rw [assign_again again] at done
      cases done
    · rw [assign_unknown unknown] at done
      exact (ih done).unknown unknown

theorem assigned_of_assign (done : assign seen o ms = .ok o') : Assigned o ms o' := by
  induction ms generalizing seen o with
  | nil =>
    cases done
    exact fun g => ⟨fun _ => rfl, fun v last => absurd last.mem List.not_mem_nil⟩
  | cons m ms ih =>
    intro g
    obtain ⟨key, v⟩ := m
    rcases key_cases key seen with ⟨f, rfl, new⟩ | ⟨f, rfl, again⟩ | unknown
    · rw [assign_known new] at done
      obtain ⟨kept, given⟩ := ih done g
      constructor
      · intro absent
        obtain ⟨other, absent⟩ := not_or.mp (fun h => absent (List.mem_cons.mpr h))
        rw [kept absent, get_read, if_neg fun same => other (Field.name_inj.mpr same.symm)]
      · intro w last
        rcases Members.last_cons.mp last with ⟨absent, same⟩ | last
        · obtain ⟨named, rfl⟩ := Prod.mk.inj same
          obtain rfl := Field.name_inj.mp named
          rw [kept absent, get_read, if_pos rfl]
        · exact given w last
    · rw [assign_again again] at done
      cases done
    · rw [assign_unknown unknown] at done
      obtain ⟨kept, given⟩ := ih done g
      constructor
      · exact fun absent => kept fun h => absent (List.mem_cons_of_mem _ h)
      · intro w last
        rcases Members.last_cons.mp last with ⟨-, same⟩ | last
        · exact absurd (Prod.mk.inj same).1 (unknown g)
        · exact given w last

theorem assign_error (failed : assign seen o ms = .error f) :
    ∃ (front : Members Json) (v : Json) (behind : Members Json),
      ms = front ++ (f.name, v) :: behind ∧ (f ∈ seen ∨ f.name ∈ front.keys) ∧
        Unrepeated seen front := by
  induction ms generalizing seen o with
  | nil => cases failed
  | cons m ms ih =>
    obtain ⟨key, v⟩ := m
    rcases key_cases key seen with ⟨g, rfl, new⟩ | ⟨g, rfl, again⟩ | unknown
    · rw [assign_known new] at failed
      obtain ⟨front, w, behind, rfl, named, before⟩ := ih failed
      refine ⟨(g.name, v) :: front, w, behind, rfl, ?_, before.known new⟩
      rcases named with named | named
      · rcases List.mem_cons.mp named with rfl | named
        · exact .inr List.mem_cons_self
        · exact .inl named
      · exact .inr (List.mem_cons_of_mem _ named)
    · rw [assign_again again] at failed
      cases failed
      exact ⟨[], v, ms, rfl, .inl again, unrepeated_nil⟩
    · rw [assign_unknown unknown] at failed
      obtain ⟨front, w, behind, rfl, named, before⟩ := ih failed
      exact ⟨(key, v) :: front, w, behind, rfl,
        named.imp id (List.mem_cons_of_mem _), before.unknown unknown⟩

end Assign

section Resolved

variable {ms : Members Json}

theorem get_foldl_all {step : Options → Field → Options} (given : Field → Bool → Bool)
    (h : ∀ o f g, (step o f).get g = if f = g then given g (o.get g) else o.get g) (o : Options)
    (g : Field) : (Field.all.foldl step o).get g = given g (o.get g) := by
  simp only [Field.all, List.foldl_cons, List.foldl_nil, h]
  cases g <;> rfl

theorem get_ofMembers (ms : Members Json) (g : Field) :
    (ofMembers ms).get g = ((ms.get? g.name).map g.chosen).getD (default.get g) := by
  -- every option is written in one step, and left alone in the others
  refine get_foldl_all (fun g b => ((ms.get? g.name).map g.chosen).getD b) ?_ default g
  intro o f g
  split
  · rename_i v found
    refine (get_read o f g v).trans (ite_congr rfl (fun same => ?_) fun _ => rfl)
    rw [← same, found]
    rfl
  · rename_i absent
    by_cases same : f = g
    · rw [if_pos same, ← same, absent]
      rfl
    · rw [if_neg same]

theorem assigned_ofPairs (ms : Members Json) :
    Assigned default ms (ofMembers (Members.ofPairs ms)) := by
  intro g
  constructor
  · intro absent
    rw [get_ofMembers, Members.get?_ofPairs_eq_none.mpr absent]
    rfl
  · intro v last
    rw [get_ofMembers, Members.get?_ofPairs.mpr last]
    rfl

theorem assign_once (once : ∀ f : Field, ms.keys.count f.name ≤ 1) :
    assign [] default ms = .ok (ofMembers (Members.ofPairs ms)) := by
  cases result : assign [] default ms with
  | ok o => rw [(assigned_of_assign result).unique (assigned_ofPairs ms)]
  | error f =>
    obtain ⟨front, v, behind, rfl, named | named, -⟩ := assign_error result
    · cases named
    · have twice := once f
      have before := List.count_pos_iff.mpr named
      simp only [Members.keys, List.map_append, List.map_cons, List.count_append,
        List.count_cons_self] at twice before
      omega

theorem assign_twice {f : Field} (twice : 2 ≤ ms.keys.count f.name) :
    ∃ g, assign [] default ms = .error g ∧ FirstAgain g ms := by
  cases result : assign [] default ms with
  | ok o =>
    have once := (unrepeated_of_assign result f).1
    omega
  | error g =>
    obtain ⟨front, v, behind, split, named | named, before⟩ := assign_error result
    · cases named
    · exact ⟨g, rfl, front, v, behind, split, named, fun h => (before h).1⟩

end Resolved

end JsonFilter.Options
