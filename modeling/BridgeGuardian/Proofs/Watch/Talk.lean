import BridgeGuardian.Proofs.Work
import BridgeGuardian.Watch.Cycle

/-! # A watcher's talk — what it asked of the world, and what was said

    The first answer of the node to a question is what counts within a
    stretch of talk, since a watcher does not put a question twice there.
    The batches that were handed over, and those of them that the consumer
    accepted, can be read off a transcript as well. -/

namespace BridgeGuardian.Watch

open Program

/-! ## Answers of the node -/

/-- The answer to a question, if an exchange is the question with an
    answer. -/
def reply? (q : NodeQuery) : Exchange Surroundings → Option q.Result
  | ⟨.node asked, .ok answer⟩ => if h : asked = q then some (h ▸ answer) else none
  | _ => none

/-- The first answer to a question. -/
def firstReply? (q : NodeQuery) (t : Transcript Surroundings) : Option q.Result :=
  t.findSome? (reply? q)

/-- A question with its answer. -/
def answered (q : NodeQuery) (answer : q.Result) : Exchange Surroundings :=
  ⟨.node q, (.ok answer : Except WatchFailure q.Result)⟩

theorem reply?_answered (q : NodeQuery) (answer : q.Result) :
    reply? q (answered q answer) = some answer :=
  dif_pos rfl

theorem reply?_answered_ne {q asked : NodeQuery} (answer : asked.Result) (h : asked ≠ q) :
    reply? q (answered asked answer) = none :=
  dif_neg h

/-- Another query has no answer to a question. -/
theorem reply?_eq_none {q : NodeQuery} {e : Exchange Surroundings} (h : e.query ≠ .node q) :
    reply? q e = none := by
  obtain ⟨query, answer⟩ := e
  cases query with
  | node asked =>
      match answer with
      | .error _ => rfl
      | .ok answer =>
          have hne : asked ≠ q := fun heq => h (congrArg Surroundings.Query.node heq)
          exact reply?_answered_ne answer hne
  | readIndex | writeIndex | deliver | pause | record => rfl

/-- An exchange with an answer to a question is the question with it. -/
theorem eq_answered_of_reply? {q : NodeQuery} {e : Exchange Surroundings} {answer : q.Result}
    (h : reply? q e = some answer) : e = answered q answer := by
  obtain ⟨query, found⟩ := e
  cases query with
  | node asked =>
      match found with
      | .error _ => cases h
      | .ok found =>
          by_cases heq : asked = q
          · subst heq
            obtain rfl := Option.some.inj ((reply?_answered asked found).symm.trans h)
            rfl
          · cases (reply?_answered_ne found heq).symm.trans h
  | readIndex | writeIndex | deliver | pause | record => cases h

/-- The first answer to a question was said. -/
theorem answered_mem_of_firstReply? {q : NodeQuery} {t : Transcript Surroundings}
    {answer : q.Result} (h : firstReply? q t = some answer) : answered q answer ∈ t := by
  obtain ⟨e, he, hreply⟩ := List.exists_of_findSome?_eq_some h
  rwa [← eq_answered_of_reply? hreply]

theorem firstReply?_append (q : NodeQuery) (t t' : Transcript Surroundings) :
    firstReply? q (t ++ t') = (firstReply? q t).or (firstReply? q t') :=
  List.findSome?_append

/-- A question that was not put has no answer. -/
theorem firstReply?_eq_none {q : NodeQuery} {t : Transcript Surroundings}
    (h : ∀ e ∈ t, e.query ≠ .node q) : firstReply? q t = none :=
  List.findSome?_eq_none_iff.mpr fun e he => reply?_eq_none (h e he)

/-! ## Batches -/

/-- The batch that an exchange hands over. -/
def handedBatch? : Exchange Surroundings → Option Batch
  | ⟨.deliver batch, _⟩ => some batch
  | _ => none

/-- The batches that were handed over, in order. -/
def handed (t : Transcript Surroundings) : List Batch := t.filterMap handedBatch?

/-- The batch that the consumer accepts in an exchange. -/
def acceptedBatch? : Exchange Surroundings → Option Batch
  | ⟨.deliver batch, .ok _⟩ => some batch
  | _ => none

/-- The batches that the consumer accepted, in order. -/
def accepted (t : Transcript Surroundings) : List Batch := t.filterMap acceptedBatch?

theorem handed_append (t t' : Transcript Surroundings) : handed (t ++ t') = handed t ++ handed t' :=
  List.filterMap_append

theorem accepted_append (t t' : Transcript Surroundings) :
    accepted (t ++ t') = accepted t ++ accepted t' :=
  List.filterMap_append

/-! ## Kinds of queries -/

namespace Surroundings.Query

/-- Ask the node about blocks, or report a measurement. -/
def IsAboutBlocks : Query → Prop
  | .node (.header _) | .node (.isInMainChain _) | .node (.height _ _) | .record _ => True
  | _ => False

/-- Ask something that changes neither the index nor the consumer. -/
def OnlyReads : Query → Prop
  | .readIndex _ | .node _ | .record _ => True
  | _ => False

theorem IsAboutBlocks.onlyReads {q : Query} (h : q.IsAboutBlocks) : q.OnlyReads := by
  cases q with
  | node | record => trivial
  | readIndex | writeIndex | deliver | pause => cases h

end Surroundings.Query

/-- Nobody is handed anything while things are only read. -/
theorem handed_eq_nil {t : Transcript Surroundings} (h : ∀ e ∈ t, e.query.OnlyReads) :
    handed t = [] := by
  refine List.filterMap_eq_nil_iff.mpr fun e he => ?_
  obtain ⟨query, answer⟩ := e
  cases query with
  | deliver batch => cases h _ he
  | readIndex | writeIndex | node | pause | record => rfl

/-- What was not handed over was not accepted. -/
theorem accepted_eq_nil {t : Transcript Surroundings} (h : handed t = []) : accepted t = [] := by
  refine List.filterMap_eq_nil_iff.mpr fun e he => ?_
  have hnone := List.filterMap_eq_nil_iff.mp h e he
  obtain ⟨query, answer⟩ := e
  cases query with
  | deliver batch => cases hnone
  | readIndex | writeIndex | node | pause | record => rfl

/-! ## Steps of a cycle -/

namespace Step

variable {t : Transcript Surroundings}

theorem yields_node_iff {q : NodeQuery} {result : Except WatchFailure q.Result} :
    Yields (node q).run t result ↔ t = [⟨.node q, result⟩] :=
  yields_query_iff

/-- The index is read once. -/
theorem yields_readIndex_iff {contract : String} {result : Except WatchFailure (Option UInt64)} :
    Yields (readIndex contract).run t result ↔
      ∃ answer : Except String (Option UInt64), t = [⟨.readIndex contract, answer⟩] ∧
        result = answer.mapError .store := by
  constructor
  · intro h
    obtain ⟨answer, rest, rfl, hrest⟩ := yields_ask_iff.mp h
    obtain ⟨rfl, rfl⟩ := yields_done_iff.mp hrest
    exact ⟨answer, rfl, rfl⟩
  · rintro ⟨answer, rfl, rfl⟩
    exact .ask (.done _)

/-- A batch is handed over once. -/
theorem yields_deliver_iff {batch : Batch} {result : Except WatchFailure Unit} :
    Yields (deliver batch).run t result ↔
      ∃ answer : Except String Unit, t = [⟨.deliver batch, answer⟩] ∧
        result = answer.mapError .consumer := by
  constructor
  · intro h
    obtain ⟨answer, rest, rfl, hrest⟩ := yields_ask_iff.mp h
    obtain ⟨rfl, rfl⟩ := yields_done_iff.mp hrest
    exact ⟨answer, rfl, rfl⟩
  · rintro ⟨answer, rfl, rfl⟩
    exact .ask (.done _)

/-- A measurement is reported once. -/
theorem yields_record_iff {m : Measurement} {result : Except WatchFailure Unit} :
    Yields (record m).run t result ↔ t = [⟨.record m, ()⟩] ∧ result = .ok () := by
  refine yields_lift_iff.trans ?_
  constructor
  · rintro ⟨value, h, rfl⟩
    exact ⟨yields_query_iff.mp h, rfl⟩
  · rintro ⟨rfl, rfl⟩
    exact ⟨(), yields_query_iff.mpr rfl, rfl⟩

variable {asks : Surroundings.Query → Prop}

theorem onlyAsks_node {q : NodeQuery} (h : asks (.node q)) : (node q).run.OnlyAsks asks :=
  ⟨h, fun _ => trivial⟩

theorem onlyAsks_record {m : Measurement} (h : asks (.record m)) :
    (record m).run.OnlyAsks asks :=
  ⟨h, fun _ => trivial⟩

end Step

end BridgeGuardian.Watch
