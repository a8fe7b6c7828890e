import JsonFilter.Json.Fault
import JsonFilter.Proofs.Text.Alike

namespace JsonFilter.Json.Position

open Utf8 (bytes encodeChar)

def ofBytes (front : List Nat) : Position :=
  ⟨1 + front.count 0x0A, (front.reverse.takeWhile (· ≠ 0x0A)).length⟩

variable {front more : List Nat}

theorem ofBytes_lineFeed (front : List Nat) :
    ofBytes (front ++ [0x0A]) = ⟨(ofBytes front).line + 1, 0⟩ := by
  simp [ofBytes, Nat.add_assoc]

theorem ofBytes_append (inLine : 0x0A ∉ more) :
    ofBytes (front ++ more) =
      ⟨(ofBytes front).line, (ofBytes front).column + more.length⟩ := by
  have passed : ∀ b ∈ more.reverse, decide (b ≠ 0x0A) = true := by
    intro b member
    refine decide_eq_true ?_
    rintro rfl
    exact inLine (List.mem_reverse.mp member)
  have lines : (front ++ more).count 0x0A = front.count 0x0A := by
    rw [List.count_append, List.count_eq_zero_of_not_mem inLine, Nat.add_zero]
  have columns : ((front ++ more).reverse.takeWhile (· ≠ 0x0A)).length =
      (front.reverse.takeWhile (· ≠ 0x0A)).length + more.length := by
    rw [List.reverse_append, List.takeWhile_append_of_pos passed, List.length_append,
      List.length_reverse, Nat.add_comm]
  unfold ofBytes
  rw [lines, columns]

theorem lineFeed_not_mem {c : Char} (other : c ≠ '\n') : 0x0A ∉ encodeChar c := by
  intro member
  unfold encodeChar at member
  dsimp only at member
  split_ifs at member
  · exact other (Char.toNat_inj.mp (List.mem_singleton.mp member).symm)
  all_goals
    simp only [List.mem_cons, List.not_mem_nil, or_false] at member
    omega

theorem advance_ofBytes (cs : List Char) (n : Nat) (front : List Nat) :
    advance (ofBytes front) cs n = ofBytes (front ++ (bytes cs).take n) := by
  induction cs generalizing n front with
  | nil =>
    have none : (bytes []).take n = [] := List.take_nil
    rw [none, List.append_nil]
    rfl
  | cons c cs ih =>
    have size := Utf8.encodeChar_length c
    rw [advance, Utf8.bytes_cons]
    by_cases inside : n < c.utf8Size
    · -- only a character of several bytes can be cut, and none of them is a line feed
      have inLine : 0x0A ∉ (encodeChar c).take n := by
        by_cases lineFeed : c = '\n'
        · subst lineFeed
          have none : n = 0 := Nat.lt_one_iff.mp inside
          rw [none]
          exact List.not_mem_nil
        · exact fun member => lineFeed_not_mem lineFeed (List.mem_of_mem_take member)
      rw [if_pos inside, List.take_append_of_le_length (by omega), ofBytes_append inLine,
        List.length_take, size, Nat.min_eq_left (Nat.le_of_lt inside)]
    · have whole : (encodeChar c ++ bytes cs).take n =
          encodeChar c ++ (bytes cs).take (n - c.utf8Size) := by
        rw [List.take_append, List.take_of_length_le (by omega), size]
      rw [if_neg inside, whole, ← List.append_assoc]
      by_cases lineFeed : c = '\n'
      · subst lineFeed
        rw [if_pos rfl, ← ofBytes_lineFeed]
        exact ih _ _
      · rw [if_neg lineFeed, ← size, ← ofBytes_append (lineFeed_not_mem lineFeed)]
        exact ih _ _

theorem behind_eq (cs : List Char) (n : Nat) : behind cs n = ofBytes ((bytes cs).take n) :=
  advance_ofBytes cs n []

end JsonFilter.Json.Position
