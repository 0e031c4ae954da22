import BridgeGuardian.Proofs.Archive
import BridgeGuardian.Proofs.Gap

/-! # Histories — what an archive answers behind any queries

    A history lists everything that was asked of an archive, in order.  What
    is found for a message is told by the history: `vaa?_after` carries one
    step, in which only `storeVaa` counts and only where nothing is kept,
    through a whole history.  The stored sequence numbers are those of the
    kept messages, and a gap report depends on their set alone, so the
    report is told by the history, too. -/

namespace BridgeGuardian

/-! ## What a query stores -/

namespace StoreQuery

/-- The bytes that a query stores for a message. -/
def bytesFor? (c : Coordinate) : StoreQuery → Option Bytes
  | .storeVaa other bytes => if other = c then some bytes else none
  | _ => none

/-- The sequence number of the message of an emitter that a query stores. -/
def sequenceOf? (e : Emitter) : StoreQuery → Option UInt64
  | .storeVaa c _ => if c.emitter = e then some c.sequence else none
  | _ => none

/-- A query stores a message of an emitter. -/
def storesOf (e : Emitter) (q : StoreQuery) : Bool := (q.sequenceOf? e).isSome

/-- The first bytes that a history stores for a message. -/
def firstStored? (c : Coordinate) (history : List StoreQuery) : Option Bytes :=
  history.findSome? (bytesFor? c)

/-- The sequence numbers that a history stores for an emitter, in order and
    with repetitions. -/
def storedSequences (e : Emitter) (history : List StoreQuery) : List UInt64 :=
  history.filterMap (sequenceOf? e)

theorem sequenceOf?_eq_some_iff {q : StoreQuery} {e : Emitter} {n : UInt64} :
    q.sequenceOf? e = some n ↔ (q.bytesFor? ⟨e, n⟩).isSome := by
  cases q with
  | storeVaa c bytes =>
      obtain ⟨emitter, sequence⟩ := c
      simp only [sequenceOf?, bytesFor?, Coordinate.mk.injEq]
      by_cases he : emitter = e <;> by_cases hn : sequence = n <;> simp [he, hn]
  | vaa | gaps | localWrapper | remoteWrapper | addLocalWrapper | addRemoteWrapper | addUndone
  | undone | markExecuting | nextIndex | setNextIndex => simp [sequenceOf?, bytesFor?]

/-- The numbers stored for an emitter are those of the messages for which
    bytes are stored. -/
theorem mem_storedSequences_iff {e : Emitter} {n : UInt64} {history : List StoreQuery} :
    n ∈ storedSequences e history ↔ (firstStored? ⟨e, n⟩ history).isSome := by
  rw [storedSequences, firstStored?, List.mem_filterMap, List.isSome_findSome?, List.any_eq_true]
  simp only [sequenceOf?_eq_some_iff]

/-- A query that stores bytes for a message stores a message of its emitter. -/
theorem storesOf_of_bytesFor? {q : StoreQuery} {c : Coordinate} (h : (q.bytesFor? c).isSome) :
    q.storesOf c.emitter = true := by
  obtain ⟨e, n⟩ := c
  exact Option.isSome_iff_exists.mpr ⟨n, sequenceOf?_eq_some_iff.mpr h⟩

theorem firstStored?_cons (c : Coordinate) (q : StoreQuery) (rest : List StoreQuery) :
    firstStored? c (q :: rest) = (q.bytesFor? c).or (firstStored? c rest) := by
  rw [firstStored?, List.findSome?_cons]
  cases q.bytesFor? c <;> rfl

theorem firstStored?_append (c : Coordinate) (earlier later : List StoreQuery) :
    firstStored? c (earlier ++ later) = (firstStored? c earlier).or (firstStored? c later) :=
  List.findSome?_append

/-- What is stored first for a message is told by what is stored for its
    emitter. -/
theorem firstStored?_filter (e : Emitter) (n : UInt64) (history : List StoreQuery) :
    firstStored? ⟨e, n⟩ (history.filter (storesOf e)) = firstStored? ⟨e, n⟩ history := by
  induction history with
  | nil => rfl
  | cons q rest ih =>
      rw [List.filter_cons, firstStored?_cons]
      split
      · rw [firstStored?_cons, ih]
      · next hforeign =>
          have hnone : q.bytesFor? ⟨e, n⟩ = none :=
            Option.not_isSome_iff_eq_none.mp fun h => hforeign (storesOf_of_bytesFor? h)
          rw [ih, hnone, Option.none_or]

/-- The numbers stored for an emitter are told by what is stored for it. -/
theorem storedSequences_filter (e : Emitter) (history : List StoreQuery) :
    storedSequences e (history.filter (storesOf e)) = storedSequences e history := by
  rw [storedSequences, List.filterMap_filter]
  refine congrArg (history.filterMap ·) (funext fun q => ?_)
  unfold storesOf
  cases q.sequenceOf? e <;> rfl

end StoreQuery

/-! ## Asking one query after the other -/

/-- Storage behind queries that are asked one by one. -/
def Storage.after (s : Storage) (history : List StoreQuery) : Storage :=
  history.foldl (fun s q => (s.answer q).2) s

namespace Archive

/-- An archive behind queries that are asked one by one. -/
def after (a : Archive) (history : List StoreQuery) : Archive :=
  history.foldl (fun a q => (q.answer a).2) a

/-- Storage in memory goes through a history as its archive does. -/
theorem memory_after (a : Archive) (history : List StoreQuery) :
    (Storage.memory a).after history = .memory (a.after history) := by
  induction history generalizing a with
  | nil => rfl
  | cons q rest ih => exact ih _

/-- A query keeps what is found for a message; where nothing is found, the
    bytes count that the query stores. -/
theorem vaa?_answer (a : Archive) (q : StoreQuery) (c : Coordinate) :
    (q.answer a).2.vaa? c = (a.vaa? c).or (q.bytesFor? c) := by
  cases q with
  | storeVaa other bytes =>
      show (a.vaas.putNew other bytes).get? c = (a.vaas.get? c).or (if other = c then _ else _)
      rw [Table.get?_putNew]
      by_cases h : other = c
      · subst h
        rw [if_pos rfl, if_pos rfl]
        cases a.vaas.get? other <;> rfl
      · rw [if_neg h, if_neg h, Option.or_none]
  | markExecuting chain sequence =>
      simp only [StoreQuery.answer, markExecuting]
      split <;> exact Option.or_none.symm
  | vaa | gaps | localWrapper | remoteWrapper | addLocalWrapper | addRemoteWrapper | addUndone
  | undone | nextIndex | setNextIndex => exact Option.or_none.symm

/-- Behind a history a message is found as before, or else the first bytes
    that the history stores for it. -/
theorem vaa?_after (a : Archive) (history : List StoreQuery) (c : Coordinate) :
    (a.after history).vaa? c = (a.vaa? c).or (StoreQuery.firstStored? c history) := by
  induction history generalizing a with
  | nil => exact Option.or_none.symm
  | cons q rest ih =>
      calc (a.after (q :: rest)).vaa? c
          = ((q.answer a).2.vaa? c).or (StoreQuery.firstStored? c rest) := ih _
        _ = ((a.vaa? c).or (q.bytesFor? c)).or (StoreQuery.firstStored? c rest) := by
            rw [vaa?_answer]
        _ = (a.vaa? c).or (StoreQuery.firstStored? c (q :: rest)) := by
            rw [Option.or_assoc, StoreQuery.firstStored?_cons]

/-- From nothing, exactly the first stored bytes are found. -/
theorem vaa?_empty_after (history : List StoreQuery) (c : Coordinate) :
    (empty.after history).vaa? c = StoreQuery.firstStored? c history := by
  rw [vaa?_after]
  exact Option.none_or

/-- From nothing, the gaps are those of the sequence numbers that were
    stored. -/
theorem gaps_empty_after (history : List StoreQuery) (e : Emitter) :
    (empty.after history).gaps e = .ofSequences (StoreQuery.storedSequences e history) := by
  refine GapReport.ofSequences_congr fun n => ?_
  rw [mem_sequences_iff, Keeps, vaa?_empty_after, StoreQuery.mem_storedSequences_iff]

end Archive

namespace Storage

/-- Storage in memory that has been asked what a history lists. -/
def recalling (history : List StoreQuery) : Storage := (memory .empty).after history

theorem recalling_eq (history : List StoreQuery) :
    recalling history = .memory (Archive.empty.after history) :=
  Archive.memory_after .empty history

theorem vaa_recalling (history : List StoreQuery) (c : Coordinate) :
    ((recalling history).answer (.vaa c)).1 = .ok (StoreQuery.firstStored? c history) := by
  rw [recalling_eq]
  exact congrArg Except.ok (Archive.vaa?_empty_after history c)

theorem gaps_recalling (history : List StoreQuery) (e : Emitter) :
    ((recalling history).answer (.gaps e)).1
      = .ok (.ofSequences (StoreQuery.storedSequences e history)) := by
  rw [recalling_eq]
  exact congrArg Except.ok (Archive.gaps_empty_after history e)

/-- **Messages are written once, and gaps are exact**, behind any history of
    queries to storage in memory.  What is found for a message is what was
    stored for it first, and nothing if nothing was; it stays so, whatever is
    asked later.  The gaps of an emitter are those of the sequence numbers
    that were stored for exactly this emitter.  All these answers for an
    emitter are the same if nothing had been asked but to store its own
    messages: other emitters, wrappers, transfers to undo and event indexes
    never change them. -/
theorem messages_are_written_once (history : List StoreQuery) :
    (∀ c, ((recalling history).answer (.vaa c)).1 = .ok (StoreQuery.firstStored? c history)) ∧
    (∀ c bytes, ((recalling history).answer (.vaa c)).1 = .ok (some bytes) →
      ∀ later, ((recalling (history ++ later)).answer (.vaa c)).1 = .ok (some bytes)) ∧
    (∀ e, ((recalling history).answer (.gaps e)).1
      = .ok (.ofSequences (StoreQuery.storedSequences e history))) ∧
    (∀ e, let own := recalling (history.filter (StoreQuery.storesOf e))
      ((recalling history).answer (.gaps e)).1 = (own.answer (.gaps e)).1 ∧
      ∀ n, ((recalling history).answer (.vaa ⟨e, n⟩)).1 = (own.answer (.vaa ⟨e, n⟩)).1) := by
  refine ⟨vaa_recalling history, ?_, gaps_recalling history, ?_⟩
  · intro c bytes h later
    rw [vaa_recalling] at h ⊢
    rw [StoreQuery.firstStored?_append, Except.ok.inj h, Option.some_or]
  · intro e own
    refine ⟨?_, fun n => ?_⟩
    · rw [gaps_recalling, gaps_recalling, StoreQuery.storedSequences_filter]
    · rw [vaa_recalling, vaa_recalling, StoreQuery.firstStored?_filter]

end Storage

namespace Site

/-- A contract on chain 2. -/
def contract : Emitter := ⟨⟨2⟩, ⟨List.replicate 32 7, rfl⟩⟩

/-- The contract with the same address on another chain. -/
def namesake : Emitter := ⟨⟨4⟩, contract.address⟩

/-- Message 3 of the contract is stored twice; in between, its namesake has a
    message and a transfer is noted. -/
def storedTwice : List StoreQuery :=
  [.storeVaa ⟨contract, 3⟩ [1], .storeVaa ⟨namesake, 4⟩ [9], .addUndone ⟨2⟩ [4],
    .storeVaa ⟨contract, 3⟩ [2], .storeVaa ⟨contract, 6⟩ [3]]

/-- The first bytes stay, also when the message is stored once more, and the
    namesake's message leaves a gap. -/
theorem first_bytes_stay :
    ((Storage.recalling storedTwice).answer (.vaa ⟨contract, 3⟩)).1 = .ok (some [1]) ∧
    ((Storage.recalling (storedTwice ++ [.storeVaa ⟨contract, 3⟩ [5]])).answer
      (.vaa ⟨contract, 3⟩)).1 = .ok (some [1]) ∧
    ((Storage.recalling storedTwice).answer (.gaps contract)).1 = .ok (.ofSequences [3, 3, 6]) := by
  obtain ⟨hfound, hstays, hgaps, -⟩ := Storage.messages_are_written_once storedTwice
  have hfirst : ((Storage.recalling storedTwice).answer (.vaa ⟨contract, 3⟩)).1 = .ok (some [1]) :=
    hfound ⟨contract, 3⟩
  exact ⟨hfirst, hstays _ _ hfirst _, hgaps contract⟩

end Site

end BridgeGuardian
