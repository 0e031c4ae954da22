import BridgeGuardian.Gap
import Mathlib.Data.List.Pairwise
import Mathlib.Data.List.Sort

/-! # Gaps in proofs — what is missing lies between what is stored

    A number is missing if it is not stored while a smaller and a greater
    one are.  On an ascending list this is the same as lying strictly
    between two neighbours.  A walk over the list notes just these numbers:
    behind a neighbour it expects the next number, and what it has noted so
    far lies between the neighbours passed so far. -/

namespace BridgeGuardian

/-! ## Successors -/

theorem successor?_eq_some_iff {n next : UInt64} :
    successor? n = some next ↔ next.toNat = n.toNat + 1 := by
  have hnext : next.toNat < UInt64.size := next.toNat_lt_size
  have hsum : n.toNat + 1 < UInt64.size → (n + 1).toNat = n.toNat + 1 := by
    intro hlt
    rw [UInt64.toNat_add]
    exact Nat.mod_eq_of_lt hlt
  unfold successor?
  by_cases hlt : n.toNat + 1 < UInt64.size
  · rw [if_pos hlt, Option.some.injEq, ← UInt64.toNat_inj, hsum hlt]
    exact eq_comm
  · rw [if_neg hlt]
    refine ⟨nofun, fun h => absurd ?_ hlt⟩
    rwa [← h]

/-- Only the greatest number has no successor. -/
theorem not_lt_of_successor?_eq_none {n : UInt64} (h : successor? n = none) (m : UInt64) :
    ¬ n < m := by
  have hm : m.toNat < UInt64.size := m.toNat_lt_size
  rw [UInt64.lt_iff_toNat_lt]
  intro hlt
  unfold successor? at h
  rw [if_pos (by omega)] at h
  cases h

theorem successor?_of_lt {n m : UInt64} (h : n < m) : successor? n = some (n + 1) := by
  have hm : m.toNat < UInt64.size := m.toNat_lt_size
  rw [UInt64.lt_iff_toNat_lt] at h
  exact if_pos (by omega)

namespace GapReport

/-! ## Between neighbours -/

/-- The numbers strictly between two numbers, ascending. -/
def strictlyBetween (low high : UInt64) : List UInt64 :=
  (List.range (high.toNat - low.toNat - 1)).map fun k => UInt64.ofNat (low.toNat + 1 + k)

/-- The numbers strictly between neighbours of an ascending list. -/
def betweenNeighbours : List UInt64 → List UInt64
  | low :: high :: rest => strictlyBetween low high ++ betweenNeighbours (high :: rest)
  | _ => []

/-- The first number between two numbers is the successor of the lower one. -/
theorem strictlyBetween_cons {low next high : UInt64} (hnext : next.toNat = low.toNat + 1)
    (hlt : next < high) : strictlyBetween low high = next :: strictlyBetween next high := by
  rw [UInt64.lt_iff_toNat_lt] at hlt
  have hcount : high.toNat - low.toNat - 1 = (high.toNat - next.toNat - 1) + 1 := by omega
  rw [strictlyBetween, hcount, List.range_succ_eq_map, List.map_cons, List.map_map, Nat.add_zero,
    ← hnext, UInt64.ofNat_toNat, strictlyBetween]
  congr 1
  refine List.map_congr_left fun k hk => ?_
  show UInt64.ofNat (next.toNat + (k + 1)) = UInt64.ofNat (next.toNat + 1 + k)
  rw [Nat.add_right_comm, Nat.add_assoc]

/-- Nothing lies between a number and its successor, nor one below. -/
theorem strictlyBetween_eq_nil {low next high : UInt64} (hnext : next.toNat = low.toNat + 1)
    (hle : ¬ next < high) : strictlyBetween low high = [] := by
  rw [UInt64.lt_iff_toNat_lt] at hle
  rw [strictlyBetween, show high.toNat - low.toNat - 1 = 0 by omega]
  rfl

theorem mem_strictlyBetween_iff {low high n : UInt64} :
    n ∈ strictlyBetween low high ↔ low < n ∧ n < high := by
  have hhigh : high.toNat < UInt64.size := high.toNat_lt_size
  simp only [strictlyBetween, List.mem_map, List.mem_range, UInt64.lt_iff_toNat_lt]
  constructor
  · rintro ⟨k, hk, rfl⟩
    have hfits : low.toNat + 1 + k < UInt64.size := by omega
    rw [UInt64.toNat_ofNat_of_lt' hfits]
    omega
  · rintro ⟨hlow, hn⟩
    refine ⟨n.toNat - low.toNat - 1, by omega, ?_⟩
    have hsum : low.toNat + 1 + (n.toNat - low.toNat - 1) = n.toNat := by omega
    rw [hsum, UInt64.ofNat_toNat]

/-- Between neighbours of an ascending list lies what is no member but has
    members on both sides. -/
theorem mem_betweenNeighbours_iff {l : List UInt64} (hl : l.Pairwise (· ≤ ·)) {n : UInt64} :
    n ∈ betweenNeighbours l ↔ n ∉ l ∧ (∃ low ∈ l, low < n) ∧ ∃ high ∈ l, n < high := by
  fun_induction betweenNeighbours l with
  | case1 low high rest ih =>
      obtain ⟨hfirst, hrest⟩ := List.pairwise_cons.mp hl
      have hsecond : ∀ m ∈ rest, high ≤ m := (List.pairwise_cons.mp hrest).1
      rw [List.mem_append, mem_strictlyBetween_iff, ih hrest]
      constructor
      · rintro (⟨hlow, hhigh⟩ | ⟨hnot, ⟨below, hbelow, hlt⟩, above, habove, hgt⟩)
        · refine ⟨?_, ⟨low, List.mem_cons_self, hlow⟩,
            high, List.mem_cons_of_mem _ List.mem_cons_self, hhigh⟩
          -- what comes behind the two neighbours is not smaller than the second
          simp only [List.mem_cons, not_or]
          exact ⟨(UInt64.ne_of_lt hlow).symm, UInt64.ne_of_lt hhigh,
            fun hmem => UInt64.not_le.mpr hhigh (hsecond n hmem)⟩
        · have hlow : low < n := UInt64.lt_of_le_of_lt (hfirst below hbelow) hlt
          refine ⟨?_, ⟨low, List.mem_cons_self, hlow⟩,
            above, List.mem_cons_of_mem _ habove, hgt⟩
          exact List.not_mem_cons_of_ne_of_not_mem (UInt64.ne_of_lt hlow).symm hnot
      · rintro ⟨hnot, ⟨below, hbelow, hlt⟩, above, habove, hgt⟩
        have hnot' : n ∉ high :: rest := fun hmem => hnot (List.mem_cons_of_mem _ hmem)
        have hlow : low < n := by
          rcases List.mem_cons.mp hbelow with rfl | hmem
          · exact hlt
          · exact UInt64.lt_of_le_of_lt (hfirst below hmem) hlt
        by_cases hhigh : n < high
        · exact .inl ⟨hlow, hhigh⟩
        · have hne : high ≠ n := fun heq => hnot' (heq ▸ List.mem_cons_self)
          have hlt' : high < n := UInt64.lt_of_le_of_ne (UInt64.not_lt.mp hhigh) hne
          have habove' : above ∈ high :: rest := by
            rcases List.mem_cons.mp habove with rfl | hmem
            · exact absurd hgt (UInt64.lt_asymm hlow)
            · exact hmem
          exact .inr ⟨hnot', ⟨high, List.mem_cons_self, hlt'⟩, above, habove', hgt⟩
  | case2 l hshort =>
      -- a list without two neighbours has no member on one of the sides
      refine ⟨fun h => absurd h List.not_mem_nil, ?_⟩
      rintro ⟨-, ⟨low, hlow, hlt⟩, high, hhigh, hgt⟩
      match l, hshort, hlow, hhigh with
      | [m], _, hlow, hhigh =>
          obtain rfl := List.mem_singleton.mp hlow
          obtain rfl := List.mem_singleton.mp hhigh
          exact absurd hgt (UInt64.lt_asymm hlt)
      | first :: second :: rest, hshort, _, _ => exact (hshort first second rest rfl).elim

theorem pairwise_strictlyBetween (low high : UInt64) :
    (strictlyBetween low high).Pairwise (· < ·) := by
  have hhigh : high.toNat < UInt64.size := high.toNat_lt_size
  refine List.pairwise_map.mpr (List.pairwise_lt_range.imp_of_mem ?_)
  intro j k hj hk hlt
  have hj := List.mem_range.mp hj
  have hk := List.mem_range.mp hk
  rw [UInt64.lt_iff_toNat_lt, UInt64.toNat_ofNat_of_lt' (by omega),
    UInt64.toNat_ofNat_of_lt' (by omega)]
  omega

/-- What is missing is listed in ascending order, and once. -/
theorem pairwise_betweenNeighbours {l : List UInt64} (hl : l.Pairwise (· ≤ ·)) :
    (betweenNeighbours l).Pairwise (· < ·) := by
  fun_induction betweenNeighbours l with
  | case1 low high rest ih =>
      have hrest := (List.pairwise_cons.mp hl).2
      have hsecond : ∀ m ∈ high :: rest, high ≤ m :=
        List.forall_mem_cons.mpr ⟨UInt64.le_refl high, (List.pairwise_cons.mp hrest).1⟩
      refine List.pairwise_append.mpr ⟨pairwise_strictlyBetween low high, ih hrest, ?_⟩
      intro n hn m hm
      -- the one lies in front of the second neighbour, the other behind some later one
      obtain ⟨-, ⟨below, hbelow, hlt⟩, -⟩ := (mem_betweenNeighbours_iff hrest).mp hm
      exact UInt64.lt_trans (mem_strictlyBetween_iff.mp hn).2
        (UInt64.lt_of_le_of_lt (hsecond below hbelow) hlt)
  | case2 l hshort => exact .nil

end GapReport

/-! ## The walk -/

namespace GapWalk

open GapReport

/-- Counting notes the numbers between the one passed before and the one
    that is found. -/
theorem missing_countTo {low found : UInt64} {left : Nat} {w : GapWalk}
    (hexpected : w.expected.toNat = low.toNat + 1)
    (hleft : found.toNat - w.expected.toNat ≤ left) :
    (w.countTo found left).missing = (strictlyBetween low found).reverse ++ w.missing := by
  induction left generalizing low w with
  | zero =>
      have hstop : ¬ w.expected < found := by
        rw [UInt64.lt_iff_toNat_lt]
        omega
      rw [strictlyBetween_eq_nil hexpected hstop]
      rfl
  | succ left ih =>
      by_cases hlt : w.expected < found
      · rw [countTo, if_pos hlt, strictlyBetween_cons hexpected hlt]
        have hnext := successor?_eq_some_iff.mp (successor?_of_lt hlt)
        rw [UInt64.lt_iff_toNat_lt] at hlt
        rw [ih hnext (by show found.toNat - (w.expected + 1).toNat ≤ left; omega)]
        rw [List.reverse_cons, List.append_assoc]
        rfl
      · rw [countTo, if_neg hlt, strictlyBetween_eq_nil hexpected hlt]
        rfl

/-- A walk behind a number has noted, when it ends, what lies between it and
    the first of the others, and between these. -/
theorem missing_along {low : UInt64} {rest : List UInt64} {w : GapWalk}
    (hrest : (low :: rest).Pairwise (· < ·)) (hexpected : w.expected.toNat = low.toNat + 1) :
    (w.along rest).missing = (betweenNeighbours (low :: rest)).reverse ++ w.missing := by
  induction rest generalizing low w with
  | nil => rfl
  | cons found rest ih =>
      obtain ⟨-, hbehind⟩ := List.pairwise_cons.mp hrest
      have hcount := missing_countTo hexpected (Nat.le_refl (found.toNat - w.expected.toNat))
      rw [along, betweenNeighbours, List.reverse_append, List.append_assoc, ← hcount]
      cases hnext : successor? found with
      | some next => exact ih hbehind (successor?_eq_some_iff.mp hnext)
      | none =>
          -- behind the greatest number the list has come to its end
          cases rest with
          | nil => rfl
          | cons m rest =>
              exact absurd ((List.pairwise_cons.mp hbehind).1 m List.mem_cons_self)
                (not_lt_of_successor?_eq_none hnext m)

/-- A walk that starts by expecting the first number finds it. -/
theorem missing_along_cons {first : UInt64} {rest : List UInt64}
    (h : (first :: rest).Pairwise (· < ·)) :
    (along (first :: rest) ⟨first, []⟩).missing
      = (betweenNeighbours (first :: rest)).reverse := by
  rw [along, Nat.sub_self, countTo]
  cases hnext : successor? first with
  | some next =>
      show (along rest ⟨next, []⟩).missing = _
      rw [missing_along h (successor?_eq_some_iff.mp hnext), List.append_nil]
  | none =>
      cases rest with
      | nil => rfl
      | cons m rest =>
          exact absurd ((List.pairwise_cons.mp h).1 m List.mem_cons_self)
            (not_lt_of_successor?_eq_none hnext m)

end GapWalk

namespace GapReport

/-! ## Ascending numbers -/

theorem eraseRepsBy_loop {α : Type} (r : α → α → Bool) (a : α) (l kept : List α) :
    List.eraseRepsBy.loop r a l kept = kept.reverse ++ List.eraseRepsBy.loop r a l [] := by
  induction l generalizing a kept with
  | nil =>
      show (a :: kept).reverse = kept.reverse ++ [a].reverse
      rw [List.reverse_cons]
      rfl
  | cons b l ih =>
      rw [List.eraseRepsBy.loop, List.eraseRepsBy.loop]
      cases r a b with
      | true => exact ih a kept
      | false =>
          show List.eraseRepsBy.loop r b l (a :: kept)
            = kept.reverse ++ List.eraseRepsBy.loop r b l [a]
          rw [ih b (a :: kept), ih b [a], List.reverse_cons, List.append_assoc]
          rfl

/-- Of two equal neighbours one is kept. -/
theorem eraseReps_cons_cons (a b : UInt64) (l : List UInt64) :
    (a :: b :: l).eraseReps = if a = b then (b :: l).eraseReps else a :: (b :: l).eraseReps := by
  show List.eraseRepsBy.loop (fun x y => x == y) a (b :: l) [] = _
  rw [List.eraseRepsBy.loop]
  by_cases h : a = b
  · subst h
    rw [if_pos rfl, beq_self_eq_true]
    rfl
  · rw [if_neg h, beq_eq_false_iff_ne.mpr h]
    show List.eraseRepsBy.loop _ b l [a] = _
    rw [eraseRepsBy_loop]
    rfl

theorem mem_eraseReps {l : List UInt64} {n : UInt64} : n ∈ l.eraseReps ↔ n ∈ l := by
  induction l with
  | nil => exact Iff.rfl
  | cons a l ih =>
      cases l with
      | nil => exact Iff.rfl
      | cons b l =>
          rw [eraseReps_cons_cons]
          by_cases h : a = b
          · subst h
            rw [if_pos rfl, ih]
            simp only [List.mem_cons, or_self_left]
          · rw [if_neg h, List.mem_cons, ih, ← List.mem_cons]

theorem pairwise_eraseReps {l : List UInt64} (h : l.Pairwise (· ≤ ·)) :
    l.eraseReps.Pairwise (· < ·) := by
  induction l with
  | nil => exact .nil
  | cons a l ih =>
      cases l with
      | nil => exact List.pairwise_singleton _ _
      | cons b l =>
          obtain ⟨hfirst, hrest⟩ := List.pairwise_cons.mp h
          rw [eraseReps_cons_cons]
          by_cases hab : a = b
          · rw [if_pos hab]
            exact ih hrest
          · rw [if_neg hab]
            refine List.pairwise_cons.mpr ⟨?_, ih hrest⟩
            -- what comes behind is no less than the second, which differs from the first
            intro n hn
            have hlt : a < b := UInt64.lt_of_le_of_ne (hfirst b List.mem_cons_self) hab
            rcases List.mem_cons.mp (mem_eraseReps.mp hn) with rfl | hmem
            · exact hlt
            · exact UInt64.lt_of_lt_of_le hlt ((List.pairwise_cons.mp hrest).1 n hmem)

theorem mem_ascending {stored : List UInt64} {n : UInt64} : n ∈ ascending stored ↔ n ∈ stored :=
  mem_eraseReps.trans List.mem_mergeSort

theorem pairwise_mergeSort_le (stored : List UInt64) :
    (stored.mergeSort (· ≤ ·)).Pairwise (· ≤ ·) := by
  have hle := @List.pairwise_mergeSort UInt64 (fun a b => decide (a ≤ b))
    (fun a b c hab hbc =>
      decide_eq_true (UInt64.le_trans (of_decide_eq_true hab) (of_decide_eq_true hbc)))
    (fun a b => by simpa using UInt64.le_total a b) stored
  exact hle.imp of_decide_eq_true

theorem pairwise_ascending (stored : List UInt64) : (ascending stored).Pairwise (· < ·) :=
  pairwise_eraseReps (pairwise_mergeSort_le stored)

theorem ascending_ne_nil {stored : List UInt64} (h : stored ≠ []) : ascending stored ≠ [] := by
  obtain ⟨n, hn⟩ := List.exists_mem_of_ne_nil stored h
  exact List.ne_nil_of_mem (mem_ascending.mpr hn)

/-- What is missing lies between neighbours among the stored numbers. -/
theorem missing_ofSequences (stored : List UInt64) :
    (ofSequences stored).missing = betweenNeighbours (ascending stored) := by
  have hsorted := pairwise_ascending stored
  rw [ofSequences]
  generalize ascending stored = sorted at *
  cases sorted with
  | nil => rfl
  | cons first rest =>
      rw [List.head?_cons, List.getLast?_cons]
      show (GapWalk.along (first :: rest) ⟨first, []⟩).missing.reverse = _
      rw [GapWalk.missing_along_cons hsorted, List.reverse_reverse]

/-! ## What a report says -/

/-- A report on stored numbers: their least, their greatest, and whatever
    is not stored between these two. -/
structure Describes (r : GapReport) (stored : List UInt64) : Prop where
  first_mem : r.first ∈ stored
  last_mem : r.last ∈ stored
  first_le : ∀ n ∈ stored, r.first ≤ n
  le_last : ∀ n ∈ stored, n ≤ r.last
  mem_missing_iff : ∀ n, n ∈ r.missing ↔ n ∉ stored ∧ r.first < n ∧ n < r.last

theorem ofSequences_nil : ofSequences [] = none := by
  rw [ofSequences, ascending, List.mergeSort_nil]
  rfl

/-- A report has the first and the last of the ascending numbers for its ends. -/
theorem ofSequences_eq {stored : List UInt64} (h : ascending stored ≠ []) :
    ofSequences stored = ⟨betweenNeighbours (ascending stored), (ascending stored).head h,
      (ascending stored).getLast h⟩ := by
  rw [← missing_ofSequences, ofSequences, List.head?_eq_some_head h,
    List.getLast?_eq_some_getLast h]

/-- Whatever their order, the report describes the stored numbers. -/
theorem describes_ofSequences {stored : List UInt64} (h : stored ≠ []) :
    (ofSequences stored).Describes stored := by
  have hne := ascending_ne_nil h
  have hsorted : (ascending stored).Pairwise (· ≤ ·) :=
    (pairwise_ascending stored).imp UInt64.le_of_lt
  rw [ofSequences_eq hne]
  have hfirst : ∀ n ∈ stored, (ascending stored).head hne ≤ n :=
    fun n hn => hsorted.rel_head_of_rel_head_head (mem_ascending.mpr hn) (UInt64.le_refl _)
  have hlast : ∀ n ∈ stored, n ≤ (ascending stored).getLast hne :=
    fun n hn => hsorted.rel_getLast_of_rel_getLast_getLast (mem_ascending.mpr hn)
      (UInt64.le_refl _)
  refine ⟨mem_ascending.mp (List.head_mem hne), mem_ascending.mp (List.getLast_mem hne), hfirst,
    hlast, ?_⟩
  intro n
  show n ∈ betweenNeighbours (ascending stored) ↔ _
  rw [mem_betweenNeighbours_iff hsorted, mem_ascending]
  constructor
  · rintro ⟨hnot, ⟨low, hlow, hlt⟩, high, hhigh, hgt⟩
    exact ⟨hnot, UInt64.lt_of_le_of_lt (hfirst low (mem_ascending.mp hlow)) hlt,
      UInt64.lt_of_lt_of_le hgt (hlast high (mem_ascending.mp hhigh))⟩
  · rintro ⟨hnot, hlt, hgt⟩
    exact ⟨hnot, ⟨_, List.head_mem hne, hlt⟩, _, List.getLast_mem hne, hgt⟩

/-! ## Only the set matters -/

theorem Describes.congr {r : GapReport} {stored stored' : List UInt64} (h : r.Describes stored)
    (hsame : ∀ n, n ∈ stored ↔ n ∈ stored') : r.Describes stored' where
  first_mem := (hsame _).mp h.first_mem
  last_mem := (hsame _).mp h.last_mem
  first_le n hn := h.first_le n ((hsame n).mpr hn)
  le_last n hn := h.le_last n ((hsame n).mpr hn)
  mem_missing_iff n := by rw [h.mem_missing_iff, hsame]

theorem pairwise_missing_ofSequences (stored : List UInt64) :
    (ofSequences stored).missing.Pairwise (· < ·) := by
  rw [missing_ofSequences]
  exact pairwise_betweenNeighbours ((pairwise_ascending stored).imp UInt64.le_of_lt)

/-- Neither the order of the stored numbers nor their repetition changes the
    report. -/
theorem ofSequences_congr {stored stored' : List UInt64} (h : ∀ n, n ∈ stored ↔ n ∈ stored') :
    ofSequences stored = ofSequences stored' := by
  by_cases hnil : stored = []
  · subst hnil
    obtain rfl := List.eq_nil_iff_forall_not_mem.mpr fun n hn =>
      List.not_mem_nil ((h n).mpr hn)
    rfl
  · have hdescribes := (describes_ofSequences hnil).congr h
    have hnil' : stored' ≠ [] := List.ne_nil_of_mem hdescribes.first_mem
    have hdescribes' := describes_ofSequences hnil'
    have hfirst : (ofSequences stored).first = (ofSequences stored').first :=
      UInt64.le_antisymm (hdescribes.first_le _ hdescribes'.first_mem)
        (hdescribes'.first_le _ hdescribes.first_mem)
    have hlast : (ofSequences stored).last = (ofSequences stored').last :=
      UInt64.le_antisymm (hdescribes'.le_last _ hdescribes.last_mem)
        (hdescribes.le_last _ hdescribes'.last_mem)
    have hmissing : (ofSequences stored).missing = (ofSequences stored').missing := by
      refine (pairwise_missing_ofSequences stored).eq_of_mem_iff
        (pairwise_missing_ofSequences stored') fun n => ?_
      rw [hdescribes.mem_missing_iff, hdescribes'.mem_missing_iff, hfirst, hlast]
    calc ofSequences stored
        = ⟨(ofSequences stored).missing, (ofSequences stored).first,
            (ofSequences stored).last⟩ := rfl
      _ = ofSequences stored' := by rw [hmissing, hfirst, hlast]

end GapReport

end BridgeGuardian
