import BridgeGuardian.Proofs.Table
import BridgeGuardian.Storage

/-! # The archive in proofs — what a query can change

    Two facts about every query carry the rest.  Entries of signed messages
    only come in addition, and only by `storeVaa`.  A transfer whose undoing
    has begun stays so, and `markExecuting` is answered with success only
    when the undoing had not begun before. -/

namespace BridgeGuardian

/-! ## Signed messages -/

namespace StoreQuery

variable {q : StoreQuery} {a : Archive}

/-- A stored message stays. -/
theorem mem_vaas_answer {entry : Coordinate × Bytes} (h : entry ∈ a.vaas) :
    entry ∈ (q.answer a).2.vaas := by
  cases q with
  | storeVaa c bytes => exact Table.mem_putNew_of_mem h
  | markExecuting chain sequence =>
      simp only [answer, Archive.markExecuting]
      split <;> exact h
  | vaa | gaps | localWrapper | remoteWrapper | addLocalWrapper | addRemoteWrapper | addUndone
  | undone | nextIndex | setNextIndex => exact h

/-- A message that is stored after a query was stored before or is the one
    that the query stores. -/
theorem mem_vaas_of_answer {entry : Coordinate × Bytes} (h : entry ∈ (q.answer a).2.vaas) :
    entry ∈ a.vaas ∨ q = .storeVaa entry.1 entry.2 := by
  cases q with
  | storeVaa c bytes =>
      rcases Table.mem_or_eq_of_mem_putNew h with h | rfl
      · exact .inl h
      · exact .inr rfl
  | markExecuting chain sequence =>
      simp only [answer, Archive.markExecuting] at h
      split at h <;> exact .inl h
  | vaa | gaps | localWrapper | remoteWrapper | addLocalWrapper | addRemoteWrapper | addUndone
  | undone | nextIndex | setNextIndex => exact .inl h

end StoreQuery

namespace Archive

variable {a : Archive} {c : Coordinate}

/-- A message is kept under a coordinate. -/
def Keeps (a : Archive) (c : Coordinate) : Prop := (a.vaa? c).isSome

/-- A coordinate is looked up. -/
instance (a : Archive) (c : Coordinate) : Decidable (a.Keeps c) :=
  inferInstanceAs (Decidable ((a.vaa? c).isSome = true))

/-- Where a message is kept, storing another changes nothing. -/
theorem storeVaa_of_keeps (h : a.Keeps c) (bytes : Bytes) : a.storeVaa c bytes = a := by
  obtain ⟨kept, hkept⟩ := Option.isSome_iff_exists.mp h
  unfold storeVaa Table.putNew
  rw [show a.vaas.get? c = some kept from hkept]

/-- Storing a message keeps one under its coordinate, and all that are kept
    already. -/
theorem keeps_storeVaa_iff {other : Coordinate} {bytes : Bytes} :
    (a.storeVaa c bytes).Keeps other ↔ c = other ∨ a.Keeps other := by
  unfold Keeps vaa? storeVaa
  rw [Table.get?_putNew]
  by_cases heq : c = other
  · simp [heq]
  · simp [heq]

/-- A message that is stored where none is kept is found there. -/
theorem vaa?_storeVaa (h : ¬ a.Keeps c) (bytes : Bytes) :
    (a.storeVaa c bytes).vaa? c = some bytes := by
  have hnone : a.vaas.get? c = none := Option.not_isSome_iff_eq_none.mp h
  unfold vaa? storeVaa
  rw [Table.get?_putNew, if_pos rfl, hnone, Option.getD_none]

/-- The stored sequence numbers of an emitter are those of the messages
    that are kept. -/
theorem mem_sequences_iff {e : Emitter} {n : UInt64} : n ∈ a.sequences e ↔ a.Keeps ⟨e, n⟩ := by
  unfold Keeps vaa? sequences
  rw [Table.isSome_get?_iff]
  simp only [List.mem_map, List.mem_filter, beq_iff_eq]
  constructor
  · rintro ⟨⟨⟨e', n'⟩, bytes⟩, ⟨hmem, rfl⟩, rfl⟩
    exact ⟨bytes, hmem⟩
  · rintro ⟨bytes, hmem⟩
    exact ⟨(⟨e, n⟩, bytes), ⟨hmem, rfl⟩, rfl⟩

end Archive

/-! ## Transfers to undo -/

section

variable {a : Archive} {chain : ChainId} {sequence : UInt64}

namespace Archive

/-- Noting transfers leaves alone what has begun. -/
theorem undoStatus?_addUndone (other : ChainId) (sequences : List UInt64)
    (h : a.undoStatus? chain sequence = some .executing) :
    (a.addUndone other sequences).undoStatus? chain sequence = some .executing := by
  unfold undoStatus? addUndone at *
  generalize a.undoing = t at h
  induction sequences generalizing t with
  | nil => exact h
  | cons first rest ih =>
      refine ih _ ?_
      rw [Table.get?_putNew]
      split
      · next heq =>
          rw [heq, h]
          rfl
      · exact h

/-- Whoever succeeds in claiming a transfer finds it unclaimed. -/
theorem undoStatus?_of_markExecuting (h : (a.markExecuting chain sequence).1 = true) :
    a.undoStatus? chain sequence ≠ some .executing := by
  intro hbegun
  rw [markExecuting, if_pos hbegun] at h
  cases h

/-- After an attempt to claim a transfer it is claimed. -/
theorem undoStatus?_markExecuting (a : Archive) (chain : ChainId) (sequence : UInt64) :
    (a.markExecuting chain sequence).2.undoStatus? chain sequence = some .executing := by
  unfold markExecuting
  split
  · next h => exact h
  · simp only [undoStatus?, Table.get?_put, if_true]

/-- Listed are the transfers that are known and have not begun. -/
theorem mem_undone_iff (hkeys : a.undoing.Distinct) :
    sequence ∈ a.undone chain ↔ a.undoStatus? chain sequence = some .undone := by
  simp only [undone, List.mem_mergeSort, List.mem_map, List.mem_filter, Bool.and_eq_true,
    beq_iff_eq]
  constructor
  · rintro ⟨⟨⟨c, n⟩, status⟩, ⟨hentry, hc, hstatus⟩, hn⟩
    change c = chain at hc
    change n = sequence at hn
    change status = .undone at hstatus
    subst hc hn hstatus
    exact Table.get?_of_mem hkeys hentry
  · intro h
    exact ⟨((chain, sequence), .undone), ⟨Table.mem_of_get? h, rfl, rfl⟩, rfl⟩

/-- What has begun is no longer listed. -/
theorem not_mem_undone (hkeys : a.undoing.Distinct)
    (h : a.undoStatus? chain sequence = some .executing) : sequence ∉ a.undone chain := by
  rw [mem_undone_iff hkeys, h]
  exact nofun

end Archive

namespace StoreQuery

variable {q : StoreQuery}

/-- What has begun has begun for good. -/
theorem undoStatus?_answer (h : a.undoStatus? chain sequence = some .executing) :
    (q.answer a).2.undoStatus? chain sequence = some .executing := by
  cases q with
  | addUndone other sequences => exact Archive.undoStatus?_addUndone other sequences h
  | markExecuting other n =>
      simp only [answer, Archive.markExecuting]
      split
      · exact h
      · simp only [Archive.undoStatus?, Table.get?_put]
        split
        · rfl
        · exact h
  | vaa | gaps | localWrapper | remoteWrapper | addLocalWrapper | addRemoteWrapper | storeVaa
  | undone | nextIndex | setNextIndex => exact h

/-- The entries of transfers keep distinct keys. -/
theorem distinct_undoing_answer (h : a.undoing.Distinct) : (q.answer a).2.undoing.Distinct := by
  cases q with
  | addUndone other sequences =>
      simp only [answer, Archive.addUndone]
      generalize a.undoing = t at h
      induction sequences generalizing t with
      | nil => exact h
      | cons first rest ih => exact ih _ (Table.distinct_putNew h)
  | markExecuting other n =>
      simp only [answer, Archive.markExecuting]
      split
      · exact h
      · exact Table.distinct_put h
  | vaa | gaps | localWrapper | remoteWrapper | addLocalWrapper | addRemoteWrapper | storeVaa
  | undone | nextIndex | setNextIndex => exact h

end StoreQuery

end

end BridgeGuardian
