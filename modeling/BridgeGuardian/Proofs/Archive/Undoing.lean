import BridgeGuardian.Proofs.Archive.History
import Mathlib.Data.List.Induction
import Mathlib.Data.List.Nodup

/-! # Undoing in histories — each transfer is a machine of its own

    A transfer to undo is unknown, noted or claimed.  `undoStep` says how one
    query moves it, and only notes and claims of this very transfer do; a
    claim leads to the last state from every other, and nothing leads out of
    it.  So where a transfer stands behind a history is told by two
    questions, whether it has been claimed and whether it has been noted, in
    whichever order. -/

namespace BridgeGuardian

namespace StoreQuery

/-! ## One transfer -/

/-- A query notes that a transfer is to be undone. -/
def notes (chain : ChainId) (sequence : UInt64) : StoreQuery → Bool
  | .addUndone other sequences => other = chain ∧ sequence ∈ sequences
  | _ => false

/-- The chain on whose transfers a query bears. -/
def undoChain? : StoreQuery → Option ChainId
  | .addUndone chain _ => some chain
  | .undone chain => some chain
  | .markExecuting chain _ => some chain
  | _ => none

/-- Where a query moves a transfer. -/
def undoStep (chain : ChainId) (sequence : UInt64) (status : Option UndoStatus)
    (q : StoreQuery) : Option UndoStatus :=
  if q = .markExecuting chain sequence then some .executing
  else if q.notes chain sequence then some (status.getD .undone)
  else status

/-- Where a transfer stands behind a history: claimed, or else noted, or
    else unknown. -/
def undoBehind (chain : ChainId) (sequence : UInt64) (history : List StoreQuery) :
    Option UndoStatus :=
  if .markExecuting chain sequence ∈ history then some .executing
  else if history.any (notes chain sequence) then some .undone
  else none

variable {chain : ChainId} {sequence : UInt64} {history : List StoreQuery}

theorem notes_iff {q : StoreQuery} :
    q.notes chain sequence = true ↔ ∃ sequences, q = .addUndone chain sequences ∧
      sequence ∈ sequences := by
  cases q with
  | addUndone other sequences =>
      rw [notes, decide_eq_true_iff]
      constructor
      · rintro ⟨rfl, hmem⟩
        exact ⟨sequences, rfl, hmem⟩
      · rintro ⟨_, heq, hmem⟩
        cases heq
        exact ⟨rfl, hmem⟩
  | vaa | gaps | localWrapper | remoteWrapper | addLocalWrapper | addRemoteWrapper | storeVaa
  | undone | markExecuting | nextIndex | setNextIndex =>
      exact ⟨nofun, fun ⟨_, heq, _⟩ => nomatch heq⟩

/-- One more query moves the transfer by one step. -/
theorem undoBehind_append_singleton (chain : ChainId) (sequence : UInt64)
    (history : List StoreQuery) (q : StoreQuery) :
    undoBehind chain sequence (history ++ [q])
      = undoStep chain sequence (undoBehind chain sequence history) q := by
  unfold undoBehind undoStep
  rw [List.any_append, List.any_cons, List.any_nil, Bool.or_false]
  by_cases hq : q = .markExecuting chain sequence
  · rw [if_pos hq, if_pos (List.mem_append_right _ (List.mem_singleton.mpr hq.symm))]
  · have hmem : .markExecuting chain sequence ∈ history ++ [q] ↔
        .markExecuting chain sequence ∈ history := by
      rw [List.mem_append, List.mem_singleton, or_iff_left fun h => hq h.symm]
    rw [if_neg hq]
    simp only [hmem]
    split
    · exact (ite_self _).symm
    · cases q.notes chain sequence <;> cases history.any (notes chain sequence) <;> rfl

/-- A query that bears on no transfer of the chain moves none of them. -/
theorem undoStep_of_undoChain?_ne {q : StoreQuery} (h : q.undoChain? ≠ some chain)
    (status : Option UndoStatus) : undoStep chain sequence status q = status := by
  have hclaim : q ≠ .markExecuting chain sequence := by
    rintro rfl
    exact h rfl
  have hnote : ¬ q.notes chain sequence = true := by
    intro hnotes
    obtain ⟨sequences, rfl, -⟩ := notes_iff.mp hnotes
    exact h rfl
  rw [undoStep, if_neg hclaim, if_neg hnote]

/-- What bears on other chains may be left out. -/
theorem undoBehind_filter (chain : ChainId) (sequence : UInt64) (history : List StoreQuery) :
    undoBehind chain sequence (history.filter fun q => q.undoChain? = some chain)
      = undoBehind chain sequence history := by
  induction history using List.reverseRecOn with
  | nil => rfl
  | append_singleton earlier q ih =>
      rw [List.filter_append, List.filter_singleton, undoBehind_append_singleton]
      by_cases hq : q.undoChain? = some chain
      · rw [decide_eq_true hq, cond_true, undoBehind_append_singleton, ih]
      · rw [decide_eq_false hq, cond_false, List.append_nil, ih, undoStep_of_undoChain?_ne hq]

theorem undoBehind_eq_executing_iff :
    undoBehind chain sequence history = some .executing ↔
      .markExecuting chain sequence ∈ history := by
  unfold undoBehind
  by_cases hclaim : .markExecuting chain sequence ∈ history
  · exact iff_of_true (if_pos hclaim) hclaim
  · refine iff_of_false ?_ hclaim
    rw [if_neg hclaim]
    cases history.any (notes chain sequence) <;> decide

theorem undoBehind_eq_undone_iff :
    undoBehind chain sequence history = some .undone ↔
      (∃ sequences, .addUndone chain sequences ∈ history ∧ sequence ∈ sequences) ∧
        .markExecuting chain sequence ∉ history := by
  have hnoted : history.any (notes chain sequence) = true ↔
      ∃ sequences, .addUndone chain sequences ∈ history ∧ sequence ∈ sequences := by
    rw [List.any_eq_true]
    constructor
    · rintro ⟨q, hmem, hq⟩
      obtain ⟨sequences, rfl, hin⟩ := notes_iff.mp hq
      exact ⟨sequences, hmem, hin⟩
    · rintro ⟨sequences, hmem, hin⟩
      exact ⟨_, hmem, notes_iff.mpr ⟨sequences, rfl, hin⟩⟩
  rw [← hnoted]
  unfold undoBehind
  by_cases hclaim : .markExecuting chain sequence ∈ history
  · refine iff_of_false ?_ fun h => h.2 hclaim
    rw [if_pos hclaim]
    nofun
  · rw [if_neg hclaim, and_iff_left hclaim]
    cases history.any (notes chain sequence) <;> decide

end StoreQuery

/-! ## All transfers in an archive -/

namespace Archive

open StoreQuery

variable {chain : ChainId} {sequence : UInt64}

/-- Noting transfers lets those that are known stand where they are. -/
theorem undoStatus?_addUndone_eq (a : Archive) (other : ChainId) (sequences : List UInt64) :
    (a.addUndone other sequences).undoStatus? chain sequence
      = undoStep chain sequence (a.undoStatus? chain sequence) (.addUndone other sequences) := by
  unfold undoStatus? addUndone undoStep
  rw [if_neg nofun]
  dsimp only
  generalize a.undoing = t
  induction sequences generalizing t with
  | nil => simp [notes]
  | cons first rest ih =>
      rw [List.foldl_cons, ih, Table.get?_putNew]
      by_cases hother : other = chain
      · subst hother
        by_cases hfirst : first = sequence
        · subst hfirst
          simp [notes]
        · have hne : ¬ sequence = first := fun h => hfirst h.symm
          simp [notes, hfirst, hne]
      · simp [notes, hother]

/-- A query moves every transfer by one step. -/
theorem undoStatus?_answer_eq (a : Archive) (q : StoreQuery) :
    (q.answer a).2.undoStatus? chain sequence
      = undoStep chain sequence (a.undoStatus? chain sequence) q := by
  cases q with
  | addUndone other sequences => exact a.undoStatus?_addUndone_eq other sequences
  | markExecuting other n =>
      by_cases heq : StoreQuery.markExecuting other n = .markExecuting chain sequence
      · cases heq
        rw [undoStep, if_pos rfl]
        exact undoStatus?_markExecuting a chain sequence
      · have hnote : ¬ notes chain sequence (.markExecuting other n) = true := Bool.false_ne_true
        rw [undoStep, if_neg heq, if_neg hnote]
        have hkey : ¬ (other, n) = (chain, sequence) := fun h => heq (by cases h; rfl)
        simp only [answer, markExecuting]
        split
        · rfl
        · exact (Table.get?_put _ _ _ _).trans (if_neg hkey)
  | vaa | gaps | localWrapper | remoteWrapper | addLocalWrapper | addRemoteWrapper | storeVaa
  | undone | nextIndex | setNextIndex => rfl

theorem distinct_undoing_after {a : Archive} (h : a.undoing.Distinct)
    (history : List StoreQuery) : (a.after history).undoing.Distinct := by
  induction history generalizing a with
  | nil => exact h
  | cons q rest ih => exact ih (distinct_undoing_answer h)

/-- From nothing, a transfer stands where its history has moved it. -/
theorem undoStatus?_empty_after (history : List StoreQuery) :
    (empty.after history).undoStatus? chain sequence = undoBehind chain sequence history := by
  induction history using List.reverseRecOn with
  | nil => rfl
  | append_singleton earlier q ih =>
      rw [undoBehind_append_singleton, ← ih, after, List.foldl_append]
      exact undoStatus?_answer_eq _ q

/-- Whoever claims a transfer is told whether it was still unclaimed. -/
theorem markExecuting_fst (a : Archive) (chain : ChainId) (sequence : UInt64) :
    (a.markExecuting chain sequence).1
      = decide (a.undoStatus? chain sequence ≠ some .executing) := by
  unfold markExecuting
  split
  · next h => rw [decide_eq_false (not_not.mpr h)]
  · next h => rw [decide_eq_true h]

/-- The listed transfers are in strictly ascending order. -/
theorem pairwise_undone {a : Archive} (hkeys : a.undoing.Distinct) (chain : ChainId) :
    (a.undone chain).Pairwise (· < ·) := by
  let listed := a.undoing.filter fun entry => entry.1.1 == chain && entry.2 == .undone
  have hchain : ∀ key ∈ listed.map Prod.fst, key.1 = chain := by
    intro key hkey
    obtain ⟨entry, hentry, rfl⟩ := List.mem_map.mp hkey
    exact beq_iff_eq.mp (Bool.and_eq_true_iff.mp (List.mem_filter.mp hentry).2).1
  have hdistinct : (listed.map fun entry => entry.1.2).Nodup := by
    have hlisted : (listed.map Prod.fst).Nodup :=
      hkeys.sublist (List.filter_sublist.map Prod.fst)
    have hseconds := hlisted.map_on fun key hkey other hother heq =>
      Prod.ext ((hchain key hkey).trans (hchain other hother).symm) heq
    rwa [List.map_map] at hseconds
  have hnodup : (a.undone chain).Nodup := (List.mergeSort_perm _ _).nodup_iff.mpr hdistinct
  exact ((GapReport.pairwise_mergeSort_le _).and hnodup).imp fun h =>
    UInt64.lt_of_le_of_ne h.1 h.2

theorem distinct_undoing_empty_after (history : List StoreQuery) :
    (empty.after history).undoing.Distinct :=
  distinct_undoing_after (a := empty) List.nodup_nil history

end Archive

namespace Storage

open StoreQuery

variable {chain : ChainId} {sequence : UInt64}

theorem undoStatus?_recalling (history : List StoreQuery) (chain : ChainId) (sequence : UInt64) :
    (recalling history).undoStatus? chain sequence = undoBehind chain sequence history := by
  rw [recalling_eq]
  exact Archive.undoStatus?_empty_after history

/-- A claim behind a history succeeds if the transfer is still unclaimed. -/
theorem markExecuting_recalling (history : List StoreQuery) (chain : ChainId)
    (sequence : UInt64) :
    ((recalling history).answer (.markExecuting chain sequence)).1
      = .ok (decide (undoBehind chain sequence history ≠ some .executing)) := by
  rw [recalling_eq]
  show Except.ok (Archive.markExecuting _ chain sequence).1 = _
  rw [Archive.markExecuting_fst, Archive.undoStatus?_empty_after]

/-- The list behind a history is told by where each transfer stands. -/
theorem exists_undone_recalling (history : List StoreQuery) (chain : ChainId) :
    ∃ listed, ((recalling history).answer (.undone chain)).1 = .ok listed ∧
      listed.Pairwise (· < ·) ∧
      ∀ n, n ∈ listed ↔ undoBehind chain n history = some .undone := by
  have hkeys := Archive.distinct_undoing_empty_after history
  rw [recalling_eq]
  refine ⟨_, rfl, Archive.pairwise_undone hkeys chain, fun n => ?_⟩
  rw [Archive.mem_undone_iff hkeys, Archive.undoStatus?_empty_after]

/-- **Each transfer is claimed once**, behind any history of queries to
    storage in memory.  A claim succeeds exactly if it is the first one for
    the transfer, noted or not.  Listed are, in ascending order, the
    transfers of a chain that were noted and never claimed, whichever came
    first.  This is where each transfer stands: claimed, or else noted, or
    else unknown.  What is answered about one chain is the same if nothing
    had been asked about any other. -/
theorem transfers_are_claimed_once (history : List StoreQuery) :
    (∀ chain sequence, ((recalling history).answer (.markExecuting chain sequence)).1
      = .ok (decide (.markExecuting chain sequence ∉ history))) ∧
    (∀ chain, ∃ listed, ((recalling history).answer (.undone chain)).1 = .ok listed ∧
      listed.Pairwise (· < ·) ∧
      ∀ n, n ∈ listed ↔
        (∃ sequences, .addUndone chain sequences ∈ history ∧ n ∈ sequences) ∧
          .markExecuting chain n ∉ history) ∧
    (∀ chain sequence,
      (recalling history).undoStatus? chain sequence = undoBehind chain sequence history) ∧
    (∀ q chain, q.undoChain? = some chain →
      let own := recalling (history.filter fun q => q.undoChain? = some chain)
      ((recalling history).answer q).1 = (own.answer q).1) := by
  refine ⟨?_, ?_, undoStatus?_recalling history, ?_⟩
  · intro chain sequence
    rw [markExecuting_recalling]
    simp only [ne_eq, undoBehind_eq_executing_iff]
  · intro chain
    obtain ⟨listed, hanswer, hsorted, hmem⟩ := exists_undone_recalling history chain
    exact ⟨listed, hanswer, hsorted, fun n => (hmem n).trans undoBehind_eq_undone_iff⟩
  · intro q chain hq own
    cases q with
    | addUndone other sequences =>
        show _ = ((recalling _).answer _).1
        rw [recalling_eq, recalling_eq]
        rfl
    | undone other =>
        cases hq
        obtain ⟨listed, hanswer, hsorted, hmem⟩ := exists_undone_recalling history chain
        obtain ⟨listed', hanswer', hsorted', hmem'⟩ :=
          exists_undone_recalling (history.filter fun q => q.undoChain? = some chain) chain
        rw [hanswer, hanswer']
        refine congrArg Except.ok (hsorted.eq_of_mem_iff hsorted' fun n => ?_)
        rw [hmem, hmem', undoBehind_filter]
    | markExecuting other n =>
        cases hq
        rw [markExecuting_recalling, markExecuting_recalling, undoBehind_filter]
    | vaa | gaps | localWrapper | remoteWrapper | addLocalWrapper | addRemoteWrapper | storeVaa
    | nextIndex | setNextIndex => cases hq

end Storage

namespace Site

/-- Transfer 7 of chain 2 is claimed before it is noted, and claimed again;
    chain 4 has a transfer of its own. -/
def claimedEarly : List StoreQuery :=
  [.markExecuting ⟨2⟩ 7, .addUndone ⟨2⟩ [9, 7, 8, 9], .addUndone ⟨4⟩ [1], .markExecuting ⟨2⟩ 7]

/-- Transfer 7 cannot be claimed once more, and transfer 8 can; the list of
    chain 2 is the same without chain 4. -/
theorem early_claim_counts :
    ((Storage.recalling claimedEarly).answer (.markExecuting ⟨2⟩ 7)).1 = .ok false ∧
    ((Storage.recalling claimedEarly).answer (.markExecuting ⟨2⟩ 8)).1 = .ok true ∧
    StoreQuery.undoChain? (.undone ⟨2⟩) = some ⟨2⟩ ∧
    ((Storage.recalling claimedEarly).answer (.undone ⟨2⟩)).1
      = ((Storage.recalling [.markExecuting ⟨2⟩ 7, .addUndone ⟨2⟩ [9, 7, 8, 9],
          .markExecuting ⟨2⟩ 7]).answer (.undone ⟨2⟩)).1 := by
  obtain ⟨hclaims, -, -, hown⟩ := Storage.transfers_are_claimed_once claimedEarly
  exact ⟨hclaims ⟨2⟩ 7, hclaims ⟨2⟩ 8, rfl, hown (.undone ⟨2⟩) ⟨2⟩ rfl⟩

example : ((Storage.recalling [.markExecuting ⟨2⟩ 7, .addUndone ⟨2⟩ [9, 7, 8, 9]]).answer
    (.undone ⟨2⟩)).1 = .ok [8, 9] := by cbv

end Site

end BridgeGuardian
