import JsonFilter.Document
import JsonFilter.Proofs.Json.Layout
import JsonFilter.Proofs.Json.Quoted
import JsonFilter.Proofs.Members

namespace JsonFilter.Json

variable {α β : Type}

/-- What reading a written text comes to: its content, or a refusal where it does not fit. -/
def Reads (fits : Prop) (x : α) (rest : List Char)
    (r : Except Fault (α × List Char)) : Prop :=
  (fits → r = .ok (x, rest)) ∧ (¬ fits → ∃ f, r = .error f ∧ f.cause = .depthLimit)

theorem Reads.ok {fits : Prop} {x : α} {rest : List Char} (h : fits) :
    Reads fits x rest (.ok (x, rest)) := ⟨fun _ => rfl, fun deep => absurd h deep⟩

theorem Reads.refused {fits : Prop} {x : α} {rest : List Char} {f : Fault}
    (h : ¬ fits) (cause : f.cause = .depthLimit) : Reads fits x rest (.error f) :=
  ⟨fun shallow => absurd shallow h, fun _ => ⟨f, rfl, cause⟩⟩

theorem Reads.bind {first second both : Prop} {x : α} {y : β} {middle rest : List Char}
    {r : Except Fault (α × List Char)} {next : α × List Char → Except Fault (β × List Char)}
    (fits : both ↔ first ∧ second) (h : Reads first x middle r)
    (h' : Reads second y rest (next (x, middle))) : Reads both y rest (r >>= next) := by
  constructor
  · intro shallow
    rw [h.1 (fits.mp shallow).1]
    exact h'.1 (fits.mp shallow).2
  · intro deep
    by_cases shallow : first
    · rw [h.1 shallow]
      exact h'.2 fun others => deep (fits.mpr ⟨shallow, others⟩)
    · obtain ⟨f, refused, cause⟩ := h.2 shallow
      exact ⟨f, by rw [refused]; rfl, cause⟩

theorem Reads.map {fits : Prop} {x : α} {y : β} {rest : List Char}
    {r : Except Fault (α × List Char)} {next : α × List Char → Except Fault (β × List Char)}
    (h : Reads fits x rest r) (h' : next (x, rest) = .ok (y, rest)) :
    Reads fits y rest (r >>= next) :=
  h.bind (iff_self_and.mpr fun _ => True.intro) (h' ▸ Reads.ok True.intro)

section Elements

variable {item : Reader Json} {depth : Nat} {pretty : Bool} {nesting : Nat}

/-- What a reader of elements is to make of every text of `x` inside a container. -/
def ItemReads (item : Reader Json) (depth : Nat) (pretty : Bool) (nesting : Nat) (x : Json) : Prop :=
  ∀ rest, Delimited rest → Reads (x.depth ≤ depth) x rest (item (x.chars pretty nesting ++ rest))

theorem itemsAfter_itemsChars (outer : Nat) (xs : List Json)
    (reads : ∀ x ∈ xs, ItemReads item depth pretty nesting x) (exact : ∀ x ∈ xs, Exact x)
    (fuel : Nat) (enough : xs.length < fuel) (acc : List Json) (rest : List Char) :
    Reads (depthItems xs ≤ depth) (acc.reverse ++ xs) rest
      (itemsAfter item fuel acc (itemsChars pretty nesting xs ++
        (lineBreak pretty outer ++ ']' :: rest))) := by
  -- each element costs one unit of fuel and moves to the accumulator
  induction xs generalizing fuel acc with
  | nil =>
    obtain ⟨fuel, rfl⟩ : ∃ n, fuel = n + 1 := ⟨fuel - 1, by omega⟩
    have close : skipBlanks (lineBreak pretty outer ++ ']' :: rest) = ']' :: rest := by
      rw [skipBlanks_lineBreak, skipBlanks_cons rfl]
    simp only [itemsChars, List.nil_append, itemsAfter, close, List.append_nil]
    exact .ok (Nat.zero_le depth)
  | cons x xs ih =>
    obtain ⟨fuel, rfl⟩ : ∃ n, fuel = n + 1 := ⟨fuel - 1, by omega⟩
    have first := reads x List.mem_cons_self _
      (delimited_itemsChars pretty nesting xs (delimited_close pretty outer (.inl rfl) rest))
    have others := ih (fun y hy => reads y (List.mem_cons_of_mem x hy))
      (fun y hy => exact y (List.mem_cons_of_mem x hy)) fuel (by simpa using enough) (x :: acc)
    rw [List.reverse_cons, List.append_assoc] at others
    obtain ⟨c, cs, chars, blank, bracket⟩ := head_chars (exact x List.mem_cons_self) pretty nesting
    simp only [itemsChars, List.cons_append, List.append_assoc]
    rw [chars, List.cons_append] at first ⊢
    rw [itemsAfter_element (by rw [skipBlanks_lineBreak, skipBlanks_cons blank]) bracket]
    exact first.bind Nat.max_le others

theorem items_itemsChars (outer : Nat) (x : Json) (xs : List Json)
    (reads : ∀ y ∈ x :: xs, ItemReads item depth pretty nesting y)
    (exact : ∀ y ∈ x :: xs, Exact y) (fuel : Nat) (enough : xs.length < fuel) (rest : List Char) :
    Reads (depthItems (x :: xs) ≤ depth) (x :: xs) rest
      (items item fuel (lineBreak pretty nesting ++ (x.chars pretty nesting ++
        (itemsChars pretty nesting xs ++ (lineBreak pretty outer ++ ']' :: rest))))) := by
  have first := reads x List.mem_cons_self _
    (delimited_itemsChars pretty nesting xs (delimited_close pretty outer (.inl rfl) rest))
  have others := itemsAfter_itemsChars outer xs (fun y hy => reads y (List.mem_cons_of_mem x hy))
    (fun y hy => exact y (List.mem_cons_of_mem x hy)) fuel enough [x] rest
  obtain ⟨c, cs, chars, blank, bracket⟩ := head_chars (exact x List.mem_cons_self) pretty nesting
  rw [chars, List.cons_append] at first ⊢
  rw [items_element (by rw [skipBlanks_lineBreak, skipBlanks_cons blank]) bracket]
  exact first.bind Nat.max_le others

theorem member_append (k : String) {x : Json} (reads : ItemReads item depth pretty nesting x)
    (blank : ∀ cs, item (' ' :: cs) = item cs) (fuel : Nat)
    (enough : (Quoted.document k).length ≤ fuel) {tail : List Char} (delimited : Delimited tail) :
    ∃ body, Quoted.document k ++ (colon pretty ++ (x.chars pretty nesting ++ tail)) = '"' :: body ∧
      Reads (x.depth ≤ depth) (k, x) tail (member item fuel body) := by
  refine ⟨_, document_append k _, ?_⟩
  have value : memberValue item (colon pretty ++ (x.chars pretty nesting ++ tail)) =
      item (x.chars pretty nesting ++ tail) := by
    cases pretty with
    | false => simp [colon, memberValue, skipBlanks, isBlank]
    | true => simp [colon, memberValue, skipBlanks, isBlank, blank]
  simp only [member, string_document enough, Bind.bind, Except.bind, value]
  exact (reads tail delimited).map rfl

theorem membersAfter_membersChars (blank : ∀ cs, item (' ' :: cs) = item cs) (outer : Nat)
    (ms : Members Json) (reads : ∀ m ∈ ms, ItemReads item depth pretty nesting m.2) (fuel : Nat)
    (enough : (membersChars pretty nesting ms).length < fuel) (acc : Members Json)
    (distinct : Members.Distinct (acc ++ ms)) (rest : List Char) :
    Reads (depthMembers ms ≤ depth) (acc ++ ms) rest
      (membersAfter item fuel acc (membersChars pretty nesting ms ++
        (lineBreak pretty outer ++ '\x7d' :: rest))) := by
  induction ms generalizing fuel acc with
  | nil =>
    obtain ⟨fuel, rfl⟩ : ∃ n, fuel = n + 1 := ⟨fuel - 1, by omega⟩
    have close : skipBlanks (lineBreak pretty outer ++ '\x7d' :: rest) = '\x7d' :: rest := by
      rw [skipBlanks_lineBreak, skipBlanks_cons rfl]
    simp only [membersChars, List.nil_append, membersAfter, close, List.append_nil]
    exact .ok (Nat.zero_le depth)
  | cons m ms ih =>
    obtain ⟨k, x⟩ := m
    obtain ⟨fuel, rfl⟩ : ∃ n, fuel = n + 1 := ⟨fuel - 1, by omega⟩
    simp only [membersChars, List.length_cons, List.length_append] at enough
    have delimited := delimited_membersChars pretty nesting ms
      (delimited_close pretty outer (.inr rfl) rest)
    obtain ⟨body, quote, first⟩ := member_append k (reads (k, x) List.mem_cons_self) blank fuel
      (by omega) delimited
    have appended : Members.Distinct ((acc ++ [(k, x)]) ++ ms) := by
      simpa using distinct
    have quoted := Quoted.length_quoteWith Quoted.letter? k.toList
    have others := ih (fun n hn => reads n (List.mem_cons_of_mem _ hn)) fuel
      (by unfold Quoted.document at enough; omega) (acc ++ [(k, x)]) appended
    rw [List.append_assoc] at others
    simp only [membersChars, List.cons_append, List.append_assoc]
    rw [membersAfter_quote (by rw [skipBlanks_lineBreak, quote, skipBlanks_cons rfl])]
    refine first.bind Nat.max_le ?_
    rw [Members.Distinct.put_cons distinct]
    exact others

theorem members_membersChars (blank : ∀ cs, item (' ' :: cs) = item cs) (outer : Nat) (k : String)
    (x : Json) (ms : Members Json)
    (reads : ∀ m ∈ (k, x) :: ms, ItemReads item depth pretty nesting m.2) (fuel : Nat)
    (enough : (Quoted.document k).length + (membersChars pretty nesting ms).length < fuel)
    (distinct : Members.Distinct ((k, x) :: ms)) (rest : List Char) :
    Reads (depthMembers ((k, x) :: ms) ≤ depth) ((k, x) :: ms) rest
      (members item fuel (lineBreak pretty nesting ++ (Quoted.document k ++ (colon pretty ++
        (x.chars pretty nesting ++ (membersChars pretty nesting ms ++
          (lineBreak pretty outer ++ '\x7d' :: rest))))))) := by
  have delimited := delimited_membersChars pretty nesting ms
    (delimited_close pretty outer (.inr rfl) rest)
  obtain ⟨body, quote, first⟩ := member_append k (reads (k, x) List.mem_cons_self) blank fuel
    (by omega) delimited
  have others := membersAfter_membersChars blank outer ms
    (fun n hn => reads n (List.mem_cons_of_mem _ hn)) fuel (by omega) [(k, x)] distinct rest
  rw [members_quote (by rw [skipBlanks_lineBreak, quote, skipBlanks_cons rfl])]
  exact first.bind Nat.max_le others

end Elements

theorem length_le_itemsChars (pretty : Bool) (nesting : Nat) (xs : List Json) :
    xs.length ≤ (itemsChars pretty nesting xs).length := by
  induction xs with
  | nil => exact Nat.le_refl 0
  | cons x xs ih =>
    simp only [itemsChars, List.length_cons, List.length_append]
    omega

theorem length_chars_le_itemsChars (pretty : Bool) (nesting : Nat) {x : Json} {xs : List Json}
    (h : x ∈ xs) : (x.chars pretty nesting).length ≤ (itemsChars pretty nesting xs).length := by
  induction xs with
  | nil => cases h
  | cons y xs ih =>
    simp only [itemsChars, List.length_cons, List.length_append]
    rcases List.mem_cons.mp h with rfl | h
    · omega
    · have := ih h
      omega

theorem length_chars_le_membersChars (pretty : Bool) (nesting : Nat) {m : String × Json}
    {ms : Members Json} (h : m ∈ ms) :
    (m.2.chars pretty nesting).length ≤ (membersChars pretty nesting ms).length := by
  induction ms with
  | nil => cases h
  | cons n ms ih =>
    simp only [membersChars, List.length_cons, List.length_append]
    rcases List.mem_cons.mp h with rfl | h
    · omega
    · have := ih h
      omega

theorem value_blank (fuel depth : Nat) (cs : List Char) :
    value fuel depth (' ' :: cs) = value fuel depth cs :=
  value_skipBlanks (by simp [skipBlanks, isBlank]) fuel depth

theorem value_bool (b : Bool) (pretty : Bool) (nesting fuel depth : Nat) (rest : List Char) :
    value fuel depth ((Json.bool b).chars pretty nesting ++ rest) = .ok (.bool b, rest) := by
  cases b with
  | false => exact value_false fuel depth rest
  | true => exact value_true fuel depth rest

theorem value_int {i : Int} (h : (Number.int i).InRange) {rest : List Char}
    (delimited : Delimited rest) (fuel depth : Nat) :
    value fuel depth (Decimal.intChars i ++ rest) = .ok (.num (.int i), rest) := by
  obtain ⟨c, cs, chars, first⟩ := head_intChars i
  have read := readNumber_intChars h delimited
  have other : c ≠ '[' ∧ c ≠ '\x7b' := by
    constructor <;> rintro rfl <;> revert first <;> decide
  rw [chars, List.cons_append] at read ⊢
  rw [value_scalar (opens_of_number first).1 other.1 other.2, scalar_number first, read]
  rfl

theorem value_document {s : String} {fuel : Nat} (enough : (Quoted.document s).length ≤ fuel)
    (depth : Nat) (rest : List Char) :
    value fuel depth (Quoted.document s ++ rest) = .ok (.str s, rest) := by
  rw [document_append, value_scalar rfl (by decide) (by decide)]
  simp only [scalar, string_document enough, Bind.bind, Except.bind, Pure.pure, Except.pure]

theorem value_arr {fuel : Nat} {pretty : Bool} {nesting : Nat} {xs : List Json}
    (reads : ∀ x ∈ xs, (x.chars pretty (nesting + 1)).length < fuel →
      ∀ depth, ItemReads (value fuel depth) depth pretty (nesting + 1) x)
    (exact : ∀ x ∈ xs, Exact x) (enough : ((Json.arr xs).chars pretty nesting).length < fuel)
    (depth : Nat) : ItemReads (value fuel depth) depth pretty nesting (.arr xs) := by
  intro rest _
  cases depth with
  | zero => cases xs <;> exact .refused (Nat.not_succ_le_zero _) rfl
  | succ depth =>
    cases xs with
    | nil => exact .ok (Nat.succ_le_succ (Nat.zero_le depth))
    | cons x xs =>
      simp only [chars, List.cons_append, List.append_assoc, List.nil_append, List.length_cons,
        List.length_append] at enough ⊢
      have shorter : ∀ y ∈ x :: xs, (y.chars pretty (nesting + 1)).length < fuel := by
        intro y hy
        rcases List.mem_cons.mp hy with rfl | hy
        · omega
        · have := length_chars_le_itemsChars pretty (nesting + 1) hy
          omega
      have count := length_le_itemsChars pretty (nesting + 1) xs
      have elements := items_itemsChars nesting x xs (fun y hy => reads y hy (shorter y hy) depth)
        exact fuel (by omega) rest
      have fits : (Json.arr (x :: xs)).depth ≤ depth + 1 ↔ depthItems (x :: xs) ≤ depth :=
        Nat.add_le_add_iff_right
      rw [value_bracket, fits]
      exact elements.map rfl

theorem value_obj {fuel : Nat} {pretty : Bool} {nesting : Nat} {ms : Members Json}
    (reads : ∀ m ∈ ms, (m.2.chars pretty (nesting + 1)).length < fuel →
      ∀ depth, ItemReads (value fuel depth) depth pretty (nesting + 1) m.2)
    (distinct : ms.Distinct) (enough : ((Json.obj ms).chars pretty nesting).length < fuel)
    (depth : Nat) : ItemReads (value fuel depth) depth pretty nesting (.obj ms) := by
  intro rest _
  cases depth with
  | zero => cases ms <;> exact .refused (Nat.not_succ_le_zero _) rfl
  | succ depth =>
    cases ms with
    | nil => exact .ok (Nat.succ_le_succ (Nat.zero_le depth))
    | cons m ms =>
      obtain ⟨k, x⟩ := m
      simp only [chars, List.cons_append, List.append_assoc, List.nil_append, List.length_cons,
        List.length_append] at enough ⊢
      have shorter : ∀ m ∈ (k, x) :: ms, (m.2.chars pretty (nesting + 1)).length < fuel := by
        intro m hm
        rcases List.mem_cons.mp hm with rfl | hm
        · show (x.chars pretty (nesting + 1)).length < fuel
          omega
        · have := length_chars_le_membersChars pretty (nesting + 1) hm
          omega
      have elements := members_membersChars (value_blank fuel depth) nesting k x ms
        (fun m hm => reads m hm (shorter m hm) depth) fuel (by omega) distinct rest
      have fits : (Json.obj ((k, x) :: ms)).depth ≤ depth + 1 ↔ depthMembers ((k, x) :: ms) ≤ depth :=
        Nat.add_le_add_iff_right
      rw [value_brace, fits]
      exact elements.map rfl

theorem value_chars {j : Json} (exact : Exact j) (distinct : Distinct j) (pretty : Bool)
    (nesting fuel : Nat) (enough : (j.chars pretty nesting).length < fuel) (depth : Nat) :
    ItemReads (value fuel depth) depth pretty nesting j := by
  -- a container is one level further in, and leaves its elements one level of depth less
  induction j using parts_induction generalizing nesting depth with
  | null =>
    intro rest _
    rw [chars, value_null]
    exact .ok (Nat.zero_le depth)
  | bool b =>
    intro rest _
    rw [value_bool]
    exact .ok (Nat.zero_le depth)
  | num n =>
    intro rest delimited
    cases n with
    | float x => exact (numbers_num.mp exact).elim
    | int i =>
      rw [chars, Number.chars, value_int (numbers_num.mp exact) delimited]
      exact .ok (Nat.zero_le depth)
  | str s =>
    intro rest _
    rw [chars, value_document (Nat.le_of_lt enough)]
    exact .ok (Nat.zero_le depth)
  | arr xs ih =>
    have exact := numbers_arr.mp exact
    have distinct := objects_arr.mp distinct
    exact value_arr (fun x hx => ih x hx (exact x hx) (distinct x hx) (nesting + 1)) exact enough
      depth
  | obj ms ih =>
    have exact := numbers_obj.mp exact
    obtain ⟨keys, distinct⟩ := objects_obj.mp distinct
    exact value_obj (fun m hm => ih m hm (exact m hm) (distinct m hm) (nesting + 1)) keys enough depth

theorem ofChars_chars {j : Json} (exact : Exact j) (distinct : Distinct j) (pretty : Bool) :
    (j.depth ≤ depthLimit → ofChars (j.chars pretty 0) = .ok j) ∧
      (depthLimit < j.depth →
        ∃ f, ofChars (j.chars pretty 0) = .error f ∧ f.cause = .depthLimit) := by
  have read := value_chars exact distinct pretty 0 _ (Nat.lt_succ_self _) depthLimit [] .nil
  rw [List.append_nil] at read
  constructor
  · intro shallow
    simp only [ofChars, read.1 shallow, Bind.bind, Except.bind, finish, skipBlanks,
      List.dropWhile_nil]
  · intro deep
    obtain ⟨f, refused, cause⟩ := read.2 (Nat.not_le_of_lt deep)
    exact ⟨f, by simp only [ofChars, refused, Bind.bind, Except.bind], cause⟩

end JsonFilter.Json
