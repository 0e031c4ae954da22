import BridgeGuardian.Proofs.Watch.Reading
import Mathlib.Control.Monad.Basic

/-! # Watch cycles in transcripts — what a cycle delivers

    A cycle fails before it hands anything over, or comes to zero because
    no index is kept, or reads the events in sight and hands over what was
    confirmed, which the consumer accepts or refuses.  What it hands over
    is what the reading comes to. -/

namespace BridgeGuardian.Watch

open Program

/-- The index that a cycle reads. -/
def indexRead (contract : String) (index? : Option UInt64) : Exchange Surroundings :=
  ⟨.readIndex contract, (.ok index? : Except String (Option UInt64))⟩

/-- A batch that the consumer accepts. -/
def delivered (batch : Batch) : Exchange Surroundings :=
  ⟨.deliver batch, (.ok () : Except String Unit)⟩

/-- Everything that a cycle can be. -/
inductive CycleTalk (s : Settings) (contract : String) :
    Transcript Surroundings → Except WatchFailure UInt64 → Prop
  /-- It fails on the way. -/
  | failed {t : Transcript Surroundings} (failure : WatchFailure)
      (h : ∀ e ∈ t, e.query.OnlyReads) : CycleTalk s contract t (.error failure)
  /-- No index is kept. -/
  | unset (count : UInt64) :
      CycleTalk s contract
        [indexRead contract none, answered (.eventCount contract) count] (.ok 0)
  /-- The consumer refuses the batch. -/
  | refused (start count : UInt64) {t : Transcript Surroundings} {events : List ConfirmedEvent}
      {next : UInt64} (reason : String)
      (h : Yields (readRanges s contract start
        (EventRange.cover s.batchSize start count)).run t (.ok (events, next))) :
      CycleTalk s contract
        (indexRead contract (some start) :: answered (.eventCount contract) count ::
          (t ++ [⟨.deliver ⟨contract, events, next⟩, (.error reason : Except String Unit)⟩]))
        (.error (.consumer reason))
  /-- The consumer accepts the batch. -/
  | accepted (start count : UInt64) {t : Transcript Surroundings} {events : List ConfirmedEvent}
      {next : UInt64}
      (h : Yields (readRanges s contract start
        (EventRange.cover s.batchSize start count)).run t (.ok (events, next))) :
      CycleTalk s contract
        (indexRead contract (some start) :: answered (.eventCount contract) count ::
          (t ++ [delivered ⟨contract, events, next⟩,
            ⟨.record (.eventsConfirmed contract events.length), ()⟩]))
        (.ok next)

/-- A cycle is one of these. -/
theorem cycleTalk_of_yields {s : Settings} {contract : String} {t : Transcript Surroundings}
    {outcome : Except WatchFailure UInt64} (h : Yields (cycle s contract).outcome t outcome) :
    CycleTalk s contract t outcome := by
  -- the index, the count, the ranges, the batch: each step may be where the cycle fails
  change Yields (cycle s contract).run t outcome at h
  rcases yields_bindExcept_iff.mp h with ⟨failure, h₁, rfl⟩ | ⟨index?, t₁, t₂, rfl, h₁, h₂⟩
  · obtain ⟨answer, rfl, -⟩ := Step.yields_readIndex_iff.mp h₁
    refine .failed failure fun e he => ?_
    obtain rfl := List.mem_singleton.mp he
    trivial
  · obtain ⟨answer, rfl, hanswer⟩ := Step.yields_readIndex_iff.mp h₁
    obtain rfl : answer = .ok index? := mapError_eq_ok_iff.mp hanswer.symm
    rcases yields_bindExcept_iff.mp h₂ with ⟨failure, h₃, rfl⟩ | ⟨count, t₃, t₄, rfl, h₃, h₄⟩
    · obtain rfl := Step.yields_node_iff.mp h₃
      refine .failed failure fun e he => ?_
      rcases List.mem_cons.mp he with rfl | he
      · trivial
      · obtain rfl := List.mem_singleton.mp he
        trivial
    · obtain rfl := Step.yields_node_iff.mp h₃
      cases index? with
      | none =>
          obtain ⟨rfl, rfl⟩ := yields_done_iff.mp h₄
          exact .unset count
      | some start =>
          rcases yields_bindExcept_iff.mp h₄ with
            ⟨failure, h₅, rfl⟩ | ⟨⟨events, next⟩, t₅, t₆, rfl, h₅, h₆⟩
          · have hreads := h₅.onlyAsks (onlyAsks_readRanges _ _ _ _)
            refine .failed failure fun e he => ?_
            rcases List.mem_cons.mp he with rfl | he
            · trivial
            · rcases List.mem_cons.mp he with rfl | he
              · trivial
              · exact hreads e he
          · rcases yields_bindExcept_iff.mp h₆ with
              ⟨failure, h₇, rfl⟩ | ⟨⟨⟩, t₇, t₈, rfl, h₇, h₈⟩
            · obtain ⟨answer, rfl, hfailure⟩ := Step.yields_deliver_iff.mp h₇
              cases answer with
              | ok accepted => cases hfailure
              | error reason =>
                  cases hfailure
                  exact .refused start count reason h₅
            · obtain ⟨answer, rfl, hok⟩ := Step.yields_deliver_iff.mp h₇
              obtain rfl : answer = .ok () := mapError_eq_ok_iff.mp hok.symm
              rcases yields_bindExcept_iff.mp h₈ with
                ⟨failure, h₉, -⟩ | ⟨⟨⟩, t₉, t₀, rfl, h₉, h₀⟩
              · cases (Step.yields_record_iff.mp h₉).2
              · obtain ⟨rfl, -⟩ := Step.yields_record_iff.mp h₉
                obtain ⟨rfl, rfl⟩ := yields_done_iff.mp h₀
                exact .accepted start count h₅

/-- A cycle that fails has handed nothing over, or the consumer has refused
    what it was handed. -/
theorem handed_of_cycle_error {s : Settings} {contract : String} {t : Transcript Surroundings}
    {failure : WatchFailure} (h : Yields (cycle s contract).outcome t (.error failure)) :
    handed t = [] ∨ ∃ batch reason, failure = .consumer reason ∧
      ⟨.deliver batch, (.error reason : Except String Unit)⟩ ∈ t := by
  generalize houtcome : (.error failure : Except WatchFailure UInt64) = outcome at h
  cases cycleTalk_of_yields h with
  | failed failure hreads => exact .inl (handed_eq_nil hreads)
  | unset count => cases houtcome
  | refused start count reason hread =>
      cases houtcome
      exact .inr ⟨_, reason, rfl, List.mem_cons_of_mem _ (List.mem_cons_of_mem _
        (List.mem_append_right _ (List.mem_singleton_self _)))⟩
  | accepted start count hread => cases houtcome

/-! ## What a cycle delivers -/

theorem one_le_max (batchSize : UInt64) : 1 ≤ max batchSize 1 := by
  show 1 ≤ if batchSize ≤ 1 then 1 else batchSize
  split
  · exact UInt64.le_refl 1
  · next h => exact UInt64.le_of_lt (UInt64.not_le.mp h)

/-- What covers the events in sight is one reading. -/
theorem isReading_of_cover {minConfirmations batchSize : UInt64} {nodeUrl contract : String}
    {start count next : UInt64} {t : Transcript Surroundings} {events : List ConfirmedEvent}
    (hfits : RangesFit (max batchSize 1) t)
    (h : Yields (readRanges (.of minConfirmations batchSize nodeUrl) contract start
      (EventRange.cover (max batchSize 1) start count)).run t (.ok (events, next))) :
    ∃ sections : List Section, t = sections.flatMap (Section.transcript contract) ∧
      IsReading minConfirmations start count sections events next :=
  isReading_of_readRanges (one_le_max batchSize) (Nat.le_refl _) hfits h

/-- Nothing is handed over while ranges are read. -/
theorem handed_of_readRanges {s : Settings} {contract : String} {start : UInt64}
    {ranges : List EventRange} {t : Transcript Surroundings}
    {result : Except WatchFailure (List ConfirmedEvent × UInt64)}
    (h : Yields (readRanges s contract start ranges).run t result) : handed t = [] :=
  handed_eq_nil (h.onlyAsks (onlyAsks_readRanges s contract start ranges))

/-- A cycle that comes to an index has delivered exactly the settled events
    of the main chain up to it, in one batch; without an index to start
    from it comes to zero and delivers nothing. -/
theorem cycle_delivers_settled_main_chain {minConfirmations batchSize : UInt64}
    {nodeUrl contract : String} {t : Transcript Surroundings} {next : UInt64}
    (h : Yields (cycle (.of minConfirmations batchSize nodeUrl) contract).outcome t (.ok next))
    (hfits : RangesFit (max batchSize 1) t) :
    ∃ index? count rest,
      t = indexRead contract index? :: answered (.eventCount contract) count :: rest ∧
      match index? with
      | none => next = 0 ∧ handed t = []
      | some start => ∃ sections batch,
          rest = sections.flatMap (Section.transcript contract) ++
            [delivered batch, ⟨.record (.eventsConfirmed contract batch.events.length), ()⟩] ∧
          handed t = [batch] ∧ batch.contract = contract ∧ batch.nextIndex = next ∧
          IsReading minConfirmations start count sections batch.events next := by
  generalize hnext : (.ok next : Except WatchFailure UInt64) = outcome at h
  cases cycleTalk_of_yields h with
  | failed failure hreads => cases hnext
  | unset count =>
      cases hnext
      exact ⟨none, count, [], rfl, rfl, rfl⟩
  | refused start count reason hread => cases hnext
  | @accepted start count talk events stop hread =>
      cases hnext
      have hfit : RangesFit (max batchSize 1) talk := hfits.subset fun e he =>
        List.mem_cons_of_mem _ (List.mem_cons_of_mem _ (List.mem_append_left _ he))
      obtain ⟨sections, rfl, hreading⟩ := isReading_of_cover hfit hread
      refine ⟨some start, count, _, rfl, sections, ⟨contract, events, next⟩, rfl, ?_, rfl, rfl,
        hreading⟩
      have hquiet := handed_of_readRanges hread
      show handed (sections.flatMap (Section.transcript contract) ++ [_, _]) = _
      rw [handed_append, hquiet]
      rfl

/-! ## A cycle that stops halfway -/

/-- A world with two events, of which the second is too young. -/
def youngWorld : Unit → (q : Surroundings.Query) → q.Answer × Unit
  | (), .readIndex _ => (.ok (some 0), ())
  | (), .writeIndex _ _ => (.ok (), ())
  | (), .node (.eventCount _) => (.ok (2 : UInt64), ())
  | (), .node (.events contract _ _) =>
      (.ok [⟨"old", contract, "", 0, []⟩, ⟨"young", contract, "", 0, []⟩], ())
  | (), .node (.header hash) => (.ok ⟨hash, 0, 0, 0, if hash = "old" then 5 else 9⟩, ())
  | (), .node (.isInMainChain _) => (.ok true, ())
  | (), .node (.height _ _) => (.ok (9 : UInt64), ())
  | (), .deliver _ => (.ok (), ())
  | (), .pause _ => (.elapsed, ())
  | (), .record _ => ((), ())

/-- The talk of a cycle in this world. -/
def youngTalk : Transcript Surroundings :=
  (cycle (.of 1 10 "") "bridge").outcome.transcript youngWorld ()

/-- The first event is delivered, and the second one is next. -/
theorem old_event_delivered :
    Yields (cycle (.of 1 10 "") "bridge").outcome youngTalk (.ok 1) ∧
      ∃ start count sections batch, handed youngTalk = [batch] ∧ batch.nextIndex = 1 ∧
        IsReading 1 start count sections batch.events 1 := by
  have hrun := yields_transcript youngWorld (cycle (.of 1 10 "") "bridge").outcome ()
  have hresult : ((cycle (.of 1 10 "") "bridge").outcome.run youngWorld ()).1 = .ok 1 := by
    decide +kernel
  rw [hresult] at hrun
  have hfits : RangesFit (max 10 1) youngTalk := by decide +kernel
  refine ⟨hrun, ?_⟩
  obtain ⟨index?, count, rest, -, hcycle⟩ := cycle_delivers_settled_main_chain hrun hfits
  cases index? with
  | none => exact absurd hcycle.1 (by decide)
  | some start =>
      obtain ⟨sections, batch, -, hhanded, -, hnext, hreading⟩ := hcycle
      exact ⟨start, count, sections, batch, hhanded, hnext, hreading⟩

end BridgeGuardian.Watch
