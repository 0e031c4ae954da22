import BridgeGuardian.Proofs.Gap
import Mathlib.Data.Finset.Card

/-! # Exact gaps — every number from the first to the last is accounted for

    Between two neighbours of an ascending list lie as many numbers as their
    difference says, less one; so the stored and the missing ones together
    are all from the first to the last.

    The walk adds to a number only while a greater one is to be found, and
    asks for a successor before it goes on.  With a watch on every sum it
    comes to the same, also where the greatest number is stored. -/

namespace BridgeGuardian

namespace GapReport

/-! ## Counting -/

theorem length_strictlyBetween (low high : UInt64) :
    (strictlyBetween low high).length = high.toNat - low.toNat - 1 := by
  rw [strictlyBetween, List.length_map, List.length_range]

/-- Members of an ascending list and what lies between them are as many as the
    numbers from the first to the last. -/
theorem length_betweenNeighbours {first : UInt64} {rest : List UInt64}
    (h : (first :: rest).Pairwise (· < ·)) :
    (betweenNeighbours (first :: rest)).length + (first :: rest).length
      = ((first :: rest).getLast (List.cons_ne_nil _ _)).toNat - first.toNat + 1 := by
  induction rest generalizing first with
  | nil =>
      show 0 + 1 = first.toNat - first.toNat + 1
      rw [Nat.sub_self]
  | cons second rest ih =>
      obtain ⟨hfirst, hrest⟩ := List.pairwise_cons.mp h
      have hcount := ih hrest
      have hlt := UInt64.lt_iff_toNat_lt.mp (hfirst second List.mem_cons_self)
      have hle : second.toNat ≤ ((second :: rest).getLast (List.cons_ne_nil _ _)).toNat :=
        UInt64.le_iff_toNat_le.mp ((hrest.imp UInt64.le_of_lt).rel_getLast_of_rel_getLast_getLast
          List.mem_cons_self (UInt64.le_refl _))
      rw [betweenNeighbours, List.length_append, length_strictlyBetween,
        List.getLast_cons (List.cons_ne_nil _ _), List.length_cons]
      omega

/-- The distinct ones among the stored numbers are those of the ascending list. -/
theorem card_toFinset_eq (stored : List UInt64) :
    stored.toFinset.card = (ascending stored).length := by
  have hnodup : (ascending stored).Nodup :=
    (pairwise_ascending stored).imp fun hlt => UInt64.ne_of_lt hlt
  rw [← List.toFinset_card_of_nodup hnodup]
  congr 1
  ext n
  rw [List.mem_toFinset, List.mem_toFinset, mem_ascending]

/-- Every number from the first to the last is stored or missing. -/
theorem length_missing_add_card {stored : List UInt64} (h : stored ≠ []) :
    (ofSequences stored).missing.length + stored.toFinset.card
      = (ofSequences stored).last.toNat - (ofSequences stored).first.toNat + 1 := by
  have hne := ascending_ne_nil h
  have hsorted := pairwise_ascending stored
  rw [card_toFinset_eq, ofSequences_eq hne]
  generalize ascending stored = sorted at *
  cases sorted with
  | nil => exact absurd rfl hne
  | cons first rest => exact length_betweenNeighbours hsorted

end GapReport

/-! ## Words of 64 bits -/

namespace GapWalk

/-- Counting with a watch on every sum: it fails where a sum would leave
    64 bits, and where it would be cut short. -/
def countTo? (found : UInt64) : (left : Nat) → GapWalk → Option GapWalk
  | 0, w => if w.expected < found then none else some w
  | left + 1, w =>
      if w.expected < found then do
        let next ← successor? w.expected
        countTo? found left ⟨next, w.expected :: w.missing⟩
      else some w

/-- A walk with a watch on every sum. -/
def along? : List UInt64 → GapWalk → Option GapWalk
  | [], w => some w
  | found :: rest, w => do
      let reached ← w.countTo? found (found.toNat - w.expected.toNat)
      match successor? found with
      | some next => along? rest ⟨next, reached.missing⟩
      | none => some reached

/-- Counting adds to a number only while a greater one is to be found. -/
theorem countTo?_eq {found : UInt64} {left : Nat} {w : GapWalk}
    (hleft : found.toNat - w.expected.toNat ≤ left) :
    w.countTo? found left = some (w.countTo found left) := by
  induction left generalizing w with
  | zero =>
      rw [countTo?, if_neg]
      · rfl
      · rw [UInt64.lt_iff_toNat_lt]
        omega
  | succ left ih =>
      by_cases hlt : w.expected < found
      · have hnext := successor?_of_lt hlt
        rw [countTo?, if_pos hlt, hnext, countTo, if_pos hlt]
        refine ih ?_
        show found.toNat - (w.expected + 1).toNat ≤ left
        rw [successor?_eq_some_iff.mp hnext]
        omega
      · rw [countTo?, if_neg hlt, countTo, if_neg hlt]

theorem along?_eq (l : List UInt64) (w : GapWalk) : w.along? l = some (w.along l) := by
  induction l generalizing w with
  | nil => rfl
  | cons found rest ih =>
      rw [along?, along, countTo?_eq (Nat.le_refl _)]
      cases successor? found with
      | some next => exact ih _
      | none => rfl

end GapWalk

namespace GapReport

/-- The report, with a watch on every sum. -/
def ofSequences? (stored : List UInt64) : Option GapReport :=
  match (ascending stored).head?, (ascending stored).getLast? with
  | some first, some last =>
      (GapWalk.along? (ascending stored) ⟨first, []⟩).map fun w => ⟨w.missing.reverse, first, last⟩
  | _, _ => some none

theorem ofSequences?_eq (stored : List UInt64) :
    ofSequences? stored = some (ofSequences stored) := by
  rw [ofSequences?, ofSequences]
  cases (ascending stored).head? with
  | none => rfl
  | some first =>
      cases (ascending stored).getLast? with
      | none => rfl
      | some last =>
          show (GapWalk.along? (ascending stored) ⟨first, []⟩).map _ = _
          rw [GapWalk.along?_eq]
          rfl

/-- **Gap detection is exact**, for stored numbers in any order and with any
    repetition: no sum leaves 64 bits, nothing is reported on nothing, the
    ends are the least and the greatest number, and what is missing is listed
    in ascending order: everything strictly between the ends that is not
    stored.  So the set of the stored numbers decides. -/
theorem gaps_are_exact (stored : List UInt64) :
    ofSequences? stored = some (ofSequences stored) ∧
    (stored = [] → ofSequences stored = ⟨[], 0, 0⟩) ∧
    (stored ≠ [] →
      (ofSequences stored).Describes stored ∧
      (ofSequences stored).missing.length + stored.toFinset.card
        = (ofSequences stored).last.toNat - (ofSequences stored).first.toNat + 1) ∧
    (ofSequences stored).missing.Pairwise (· < ·) ∧
    ∀ other, (∀ n, n ∈ stored ↔ n ∈ other) → ofSequences stored = ofSequences other := by
  refine ⟨ofSequences?_eq stored, ?_, ?_, pairwise_missing_ofSequences stored,
    fun other h => ofSequences_congr h⟩
  · rintro rfl
    exact ofSequences_nil
  · intro hne
    exact ⟨describes_ofSequences hne, length_missing_add_card hne⟩

/-- The greatest number is stored, twice, and the one three below it. -/
theorem two_missing_below_the_greatest :
    [18446744073709551615, 18446744073709551612, 18446744073709551615] ≠ ([] : List UInt64) ∧
    (∀ n : UInt64, n ∈ [18446744073709551615, 18446744073709551612, 18446744073709551615] ↔
      n ∈ [18446744073709551612, 18446744073709551615]) ∧
    ofSequences [18446744073709551615, 18446744073709551612, 18446744073709551615]
      = ofSequences [18446744073709551612, 18446744073709551615] ∧
    (ofSequences [18446744073709551612, 18446744073709551615]).missing.length = 2 := by
  have hset : ∀ n : UInt64,
      n ∈ [18446744073709551615, 18446744073709551612, 18446744073709551615] ↔
        n ∈ [18446744073709551612, 18446744073709551615] := by
    intro n
    simp only [List.mem_cons, List.not_mem_nil, or_false]
    exact ⟨fun h => h.elim .inr id, .inr⟩
  have hsame := (gaps_are_exact _).2.2.2.2 _ hset
  refine ⟨List.cons_ne_nil _ _, hset, hsame, ?_⟩
  obtain ⟨hdescribes, hcount⟩ :=
    (gaps_are_exact [18446744073709551612, 18446744073709551615]).2.2.1 (List.cons_ne_nil _ _)
  have hfirst : (ofSequences [18446744073709551612, 18446744073709551615]).first
      = 18446744073709551612 :=
    UInt64.le_antisymm (hdescribes.first_le _ List.mem_cons_self) (by
      rcases List.mem_cons.mp hdescribes.first_mem with h | h
      · exact UInt64.le_of_eq h.symm
      · rw [List.mem_singleton.mp h]
        decide)
  have hlast : (ofSequences [18446744073709551612, 18446744073709551615]).last
      = 18446744073709551615 :=
    UInt64.le_antisymm (by
      rcases List.mem_cons.mp hdescribes.last_mem with h | h
      · rw [h]
        decide
      · exact UInt64.le_of_eq (List.mem_singleton.mp h))
      (hdescribes.le_last _ (List.mem_cons_of_mem _ List.mem_cons_self))
  rw [hfirst, hlast] at hcount
  exact Nat.add_right_cancel (hcount.trans (by decide))

example : ofSequences [9, 5, 5, 7] = ⟨[6, 8], 5, 9⟩ := by cbv

end GapReport

end BridgeGuardian
