import BridgeGuardian.Storage
import Mathlib.Algebra.Group.Nat.Defs

/-! # Numbers in a database — what is handed over, and what is refused

    A database keeps signed numbers of 64 bits.  The numbers of a query are
    converted one after the other before the query is executed, and the
    first one that has no signed counterpart ends it: whatever executing
    does, it is not done.  A query that is executed comes with the very
    numbers it was put with, and no bit of them is read as a sign. -/

namespace BridgeGuardian.Storage

/-- The number a database keeps for a number. -/
def toDatabase (n : UInt64) : Except StoreFault Int64 :=
  if greatestNumber < n.toNat then .error (.outOfRange n) else .ok n.toInt64

/-- Ask a database: convert the numbers of a query, then execute it. -/
def askDatabase {m : Type → Type} [Monad m]
    (execute : (q : StoreQuery) → List Int64 → m (Except StoreFault q.Result)) (q : StoreQuery) :
    m (Except StoreFault q.Result) :=
  match q.numbers.mapM toDatabase with
  | .error fault => pure (.error fault)
  | .ok numbers => execute q numbers

/-- A number is the first of a list that needs more than 63 bits. -/
def IsFirstBeyond (numbers : List UInt64) (n : UInt64) : Prop :=
  ∃ before after, numbers = before ++ n :: after ∧ (∀ k ∈ before, k.toNat < 2 ^ 63) ∧
    2 ^ 63 ≤ n.toNat

/-- The greatest number has 63 bits. -/
theorem greatestNumber_lt_iff {n : Nat} : greatestNumber < n ↔ 2 ^ 63 ≤ n :=
  Iff.rfl

theorem isFirstBeyond_singleton {n : UInt64} (h : 2 ^ 63 ≤ n.toNat) : IsFirstBeyond [n] n :=
  ⟨[], [], rfl, fun _ hk => absurd hk List.not_mem_nil, h⟩

theorem toDatabase_of_lt {n : UInt64} (h : n.toNat < 2 ^ 63) : toDatabase n = .ok n.toInt64 :=
  if_neg fun hlarge => Nat.not_le_of_lt h (greatestNumber_lt_iff.mp hlarge)

theorem toDatabase_of_le {n : UInt64} (h : 2 ^ 63 ≤ n.toNat) :
    toDatabase n = .error (.outOfRange n) :=
  if_pos (greatestNumber_lt_iff.mpr h)

/-- A number of at most 63 bits has no sign. -/
theorem toInt_toInt64 {n : UInt64} (h : n.toNat < 2 ^ 63) : n.toInt64.toInt = n.toNat := by
  rw [← UInt64.ofNat_toNat (x := n), UInt64.toInt64_ofNat', UInt64.ofNat_toNat]
  exact Int64.toInt_ofNat_of_lt h

/-- Numbers of at most 63 bits are all converted. -/
theorem mapM_toDatabase_of_lt {numbers : List UInt64} (h : ∀ n ∈ numbers, n.toNat < 2 ^ 63) :
    numbers.mapM toDatabase = .ok (numbers.map UInt64.toInt64) := by
  induction numbers with
  | nil => rfl
  | cons n rest ih =>
      obtain ⟨hn, hrest⟩ := List.forall_mem_cons.mp h
      rw [List.mapM_cons, toDatabase_of_lt hn, ih hrest]
      rfl

/-- The first number that cannot be converted is named. -/
theorem mapM_toDatabase_of_isFirstBeyond {numbers : List UInt64} {n : UInt64}
    (h : IsFirstBeyond numbers n) : numbers.mapM toDatabase = .error (.outOfRange n) := by
  obtain ⟨before, after, rfl, hbefore, hn⟩ := h
  rw [List.mapM_append, mapM_toDatabase_of_lt hbefore, List.mapM_cons, toDatabase_of_le hn]
  rfl

/-- Either all numbers fit, or one is the first that does not. -/
theorem fit_or_isFirstBeyond (numbers : List UInt64) :
    (∀ n ∈ numbers, n.toNat < 2 ^ 63) ∨ ∃ n, IsFirstBeyond numbers n := by
  induction numbers with
  | nil => exact .inl fun n hn => absurd hn List.not_mem_nil
  | cons first rest ih =>
      by_cases hfirst : first.toNat < 2 ^ 63
      · refine ih.imp (fun hrest => List.forall_mem_cons.mpr ⟨hfirst, hrest⟩) ?_
        rintro ⟨n, before, after, rfl, hbefore, hn⟩
        exact ⟨n, first :: before, after, rfl, List.forall_mem_cons.mpr ⟨hfirst, hbefore⟩, hn⟩
      · exact .inr ⟨first, [], rest, rfl, fun k hk => absurd hk List.not_mem_nil,
          Nat.le_of_not_lt hfirst⟩

section

variable {q : StoreQuery}

/-- A query with a number beyond the range is not executed. -/
theorem askDatabase_of_isFirstBeyond {n : UInt64} (h : IsFirstBeyond q.numbers n)
    {m : Type → Type} [Monad m]
    (execute : (q : StoreQuery) → List Int64 → m (Except StoreFault q.Result)) :
    askDatabase execute q = pure (.error (.outOfRange n)) := by
  rw [askDatabase, mapM_toDatabase_of_isFirstBeyond h]

/-- Any other query is executed with its numbers. -/
theorem askDatabase_of_lt (h : ∀ n ∈ q.numbers, n.toNat < 2 ^ 63) {m : Type → Type} [Monad m]
    (execute : (q : StoreQuery) → List Int64 → m (Except StoreFault q.Result)) :
    askDatabase execute q = execute q (q.numbers.map UInt64.toInt64) := by
  rw [askDatabase, mapM_toDatabase_of_lt h]

/-- The numbers that are handed over are those of the query. -/
theorem map_toInt_numbers (h : ∀ n ∈ q.numbers, n.toNat < 2 ^ 63) :
    (q.numbers.map UInt64.toInt64).map Int64.toInt = q.numbers.map fun n => (n.toNat : Int) := by
  rw [List.map_map]
  exact List.map_congr_left fun n hn => toInt_toInt64 (h n hn)

/-- A database that does not answer names the first number it cannot keep. -/
theorem askUnreachable_of_isFirstBeyond {n : UInt64} (h : IsFirstBeyond q.numbers n)
    (outage : Outage) : askUnreachable outage q = .outOfRange n := by
  obtain ⟨before, after, hnumbers, hbefore, hn⟩ := h
  have hfind : q.numbers.find? (fun k => greatestNumber < k.toNat) = some n := by
    refine List.find?_eq_some_iff_append.mpr
      ⟨decide_eq_true (greatestNumber_lt_iff.mpr hn), before, after, hnumbers, fun k hk => ?_⟩
    have hfits : ¬ greatestNumber < k.toNat := fun hlarge =>
      Nat.not_le_of_lt (hbefore k hk) (greatestNumber_lt_iff.mp hlarge)
    rw [decide_eq_false hfits]
    rfl
  rw [askUnreachable, hfind]

theorem askUnreachable_of_lt (h : ∀ n ∈ q.numbers, n.toNat < 2 ^ 63) (outage : Outage) :
    askUnreachable outage q = .unavailable q.attempt outage := by
  have hfind : q.numbers.find? (fun k => greatestNumber < k.toNat) = none := by
    refine List.find?_eq_none.mpr fun k hk hlarge => ?_
    exact Nat.not_le_of_lt (h k hk) (greatestNumber_lt_iff.mp (of_decide_eq_true hlarge))
  rw [askUnreachable, hfind]

/-- A database that does not answer fails when a query is executed. -/
theorem answer_database (outage : Outage) (q : StoreQuery) :
    ((database outage).answer q).1
      = askDatabase (m := Id) (fun q _ => .error (.unavailable q.attempt outage)) q := by
  show Except.error (askUnreachable outage q) = _
  rcases fit_or_isFirstBeyond q.numbers with hfit | ⟨n, hn⟩
  · rw [askUnreachable_of_lt hfit, askDatabase_of_lt hfit]
  · rw [askUnreachable_of_isFirstBeyond hn, askDatabase_of_isFirstBeyond hn]
    rfl

end

end BridgeGuardian.Storage
