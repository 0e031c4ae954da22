import BridgeGuardian.Proofs.Watch.Cycle
import BridgeGuardian.Storage
import Mathlib.Logic.ExistsUnique

/-! # Rounds of a watcher — every event exactly once

    A watcher's talk falls into rounds: a cycle, and what closes it.  With
    an archive that keeps the index, a round either changes nothing or
    moves the index from where its cycle started to where it ended, and the
    events in between are the ones it consumed.  So the rounds of a run lie
    end to end: what they deliver increases, and every index that the run
    has passed was consumed by exactly one of them. -/

namespace BridgeGuardian.Watch

open Program

/-! ## The kept index -/

/-- A query that does not write the index. -/
def Surroundings.Query.LeavesIndex : Surroundings.Query → Prop
  | .writeIndex _ _ => False
  | _ => True

theorem Surroundings.Query.OnlyReads.leavesIndex {q : Surroundings.Query} (h : q.OnlyReads) :
    q.LeavesIndex := by
  cases q with
  | readIndex | node | record => trivial
  | writeIndex | deliver | pause => cases h

/-- What an exchange does to the archive that keeps the index. -/
inductive Keeps (a : Archive) : Exchange Surroundings → Archive → Prop
  | read (contract : String) : Keeps a (indexRead contract (a.nextIndex? contract)) a
  | write (contract : String) (index : UInt64) :
      Keeps a ⟨.writeIndex contract index, (.ok () : Except String Unit)⟩
        (a.setNextIndex contract index)
  | other (query : Surroundings.Query) (answer : query.Answer)
      (hread : ∀ contract, query ≠ .readIndex contract)
      (hwrite : ∀ contract index, query ≠ .writeIndex contract index) :
      Keeps a ⟨query, answer⟩ a

/-- What a transcript does to it. -/
inductive KeepsAll : Archive → Transcript Surroundings → Archive → Prop
  | nil (a : Archive) : KeepsAll a [] a
  | cons {a b a' : Archive} {e : Exchange Surroundings} {t : Transcript Surroundings}
      (first : Keeps a e b) (rest : KeepsAll b t a') : KeepsAll a (e :: t) a'

/-- The index of a contract, which is zero as long as none is kept. -/
def indexIn (contract : String) (a : Archive) : UInt64 := (a.nextIndex? contract).getD 0

/-- The archive is kept through one stretch after the other. -/
theorem keepsAll_append_iff {a a' : Archive} {t t' : Transcript Surroundings} :
    KeepsAll a (t ++ t') a' ↔ ∃ b, KeepsAll a t b ∧ KeepsAll b t' a' := by
  induction t generalizing a with
  | nil =>
      constructor
      · intro h
        exact ⟨a, .nil a, h⟩
      · rintro ⟨b, h, h'⟩
        cases h
        exact h'
  | cons e rest ih =>
      constructor
      · intro h
        cases h with
        | cons first hrest =>
            obtain ⟨b, h, h'⟩ := ih.mp hrest
            exact ⟨b, .cons first h, h'⟩
      · rintro ⟨b, h, h'⟩
        cases h with
        | cons first hrest => exact .cons first (ih.mpr ⟨b, hrest, h'⟩)

/-- An index that is read is the one that is kept. -/
theorem Keeps.of_read {a b : Archive} {contract : String} {index? : Option UInt64}
    (h : Keeps a (indexRead contract index?) b) : index? = a.nextIndex? contract := by
  generalize he : indexRead contract index? = e at h
  cases h with
  | read other =>
      obtain ⟨hquery, hanswer⟩ := Exchange.mk.inj he
      cases hquery
      exact Except.ok.inj (eq_of_heq hanswer)
  | write other index => cases (Exchange.mk.inj he).1
  | other query answer hread hwrite => exact absurd (Exchange.mk.inj he).1.symm (hread contract)

/-- Only writing the index changes the archive. -/
theorem Keeps.eq_of_leavesIndex {a b : Archive} {e : Exchange Surroundings} (h : Keeps a e b)
    (hleaves : e.query.LeavesIndex) : b = a := by
  cases h with
  | read contract => rfl
  | write contract index => cases hleaves
  | other query answer hread hwrite => rfl

theorem KeepsAll.eq_of_leavesIndex {a b : Archive} {t : Transcript Surroundings}
    (h : KeepsAll a t b) (hleaves : ∀ e ∈ t, e.query.LeavesIndex) : b = a := by
  induction h with
  | nil a => rfl
  | cons first rest ih =>
      rw [ih fun e he => hleaves e (List.mem_cons_of_mem _ he)]
      exact first.eq_of_leavesIndex (hleaves _ List.mem_cons_self)

/-- A write that is answered has been made. -/
theorem Keeps.of_write {a b : Archive} {contract : String} {index : UInt64}
    {answer : Except String Unit} (h : Keeps a ⟨.writeIndex contract index, answer⟩ b) :
    b = a.setNextIndex contract index := by
  generalize he : (⟨.writeIndex contract index, answer⟩ : Exchange Surroundings) = e at h
  cases h with
  | read other => cases (Exchange.mk.inj he).1
  | write other n =>
      cases (Exchange.mk.inj he).1
      rfl
  | other query _ hread hwrite => exact absurd (Exchange.mk.inj he).1.symm (hwrite _ _)

theorem indexIn_setNextIndex (a : Archive) (contract : String) (index : UInt64) :
    indexIn contract (a.setNextIndex contract index) = index := by
  simp only [indexIn, Archive.nextIndex?, Archive.setNextIndex, Table.get?_put, if_true,
    Option.getD_some]

/-! ## Rounds -/

/-- A cycle with its outcome, and what closes it. -/
structure Round where
  talk : Transcript Surroundings
  outcome : Except WatchFailure UInt64
  closing : Transcript Surroundings

namespace Round

/-- All that was said in a round. -/
def transcript (r : Round) : Transcript Surroundings := r.talk ++ r.closing

/-- A round consumes the indexes from where its cycle started up to where
    it ended. -/
def Consumes (contract : String) (r : Round) (i : UInt64) : Prop :=
  ∃ start next, r.talk.head? = some (indexRead contract (some start)) ∧
    r.outcome = .ok next ∧ start ≤ i ∧ i < next

end Round

/-- How a round is closed, by the outcome of its cycle. -/
inductive Closes (contract : String) (interval : UInt64) :
    Except WatchFailure UInt64 → Transcript Surroundings → Prop
  | stopped : Closes contract interval (.error .cancelled) []
  | failed (failure : WatchFailure) (pause : Pause) :
      Closes contract interval (.error failure)
        [⟨.record (.watchCycle contract false), ()⟩, ⟨.pause interval, pause⟩]
  | kept (next : UInt64) (answer : Except String Unit) (pause : Pause) :
      Closes contract interval (.ok next)
        [⟨.record (.watchCycle contract true), ()⟩, ⟨.record (.eventIndex contract next), ()⟩,
          ⟨.writeIndex contract next, answer⟩, ⟨.pause interval, pause⟩]

/-- A round of a watcher. -/
structure Round.IsOf (s : Settings) (contract : String) (interval : UInt64) (r : Round) : Prop where
  cycle : Yields (cycle s contract).outcome r.talk r.outcome
  closing : Closes contract interval r.outcome r.closing

/-- The end of a round, as far as it depends on the outcome. -/
theorem closes_of_yields_report {contract : String} {interval : UInt64}
    {outcome : Except WatchFailure UInt64} {t : Transcript Surroundings}
    (h : Yields (report contract outcome) t ()) (pause : Pause) :
    Closes contract interval outcome (t ++ [⟨.pause interval, pause⟩]) := by
  cases outcome with
  | error failure =>
      obtain rfl := yields_query_iff.mp h
      exact .failed failure pause
  | ok next =>
      obtain ⟨⟨⟩, t₁, t₂, rfl, h₁, h₂⟩ := yields_bind_iff.mp h
      obtain ⟨⟨⟩, t₃, t₄, rfl, h₃, h₄⟩ := yields_bind_iff.mp h₂
      obtain ⟨answer, t₅, t₆, rfl, h₅, h₆⟩ := yields_bind_iff.mp h₄
      obtain rfl := yields_query_iff.mp h₁
      obtain rfl := yields_query_iff.mp h₃
      obtain rfl := yields_query_iff.mp h₅
      obtain ⟨rfl, -⟩ := yields_done_iff.mp h₆
      exact .kept next answer pause

/-- A watcher's talk falls into rounds. -/
theorem rounds_of_watch {s : Settings} {contract : String} {interval : UInt64} {cycles : Nat}
    {t : Transcript Surroundings} (h : Yields (watch s contract interval cycles) t ()) :
    ∃ rounds : List Round, t = rounds.flatMap Round.transcript ∧
      ∀ r ∈ rounds, r.IsOf s contract interval := by
  induction cycles generalizing t with
  | zero =>
      obtain ⟨rfl, -⟩ := yields_done_iff.mp h
      exact ⟨[], rfl, fun r hr => absurd hr List.not_mem_nil⟩
  | succ cycles ih =>
      obtain ⟨outcome, t₁, t₂, rfl, h₁, h₂⟩ := yields_bind_iff.mp h
      -- a cycle that was stopped is the last one, and nothing closes it
      split at h₂
      · obtain ⟨rfl, -⟩ := yields_done_iff.mp h₂
        refine ⟨[⟨t₁, .error .cancelled, []⟩], ?_, ?_⟩
        · simp only [List.flatMap_cons, List.flatMap_nil, Round.transcript, List.append_nil]
        · intro r hr
          obtain rfl := List.mem_singleton.mp hr
          exact ⟨h₁, .stopped⟩
      · obtain ⟨⟨⟩, t₃, t₄, rfl, h₃, h₄⟩ := yields_bind_iff.mp h₂
        obtain ⟨pause, t₅, rfl, h₅⟩ := yields_ask_iff.mp h₄
        let round : Round := ⟨t₁, outcome, t₃ ++ [⟨.pause interval, pause⟩]⟩
        have hround : round.IsOf s contract interval :=
          ⟨h₁, closes_of_yields_report h₃ pause⟩
        have hrest : ∃ rounds : List Round, t₅ = rounds.flatMap Round.transcript ∧
            ∀ r ∈ rounds, r.IsOf s contract interval := by
          cases pause with
          | cancelled =>
              obtain ⟨rfl, -⟩ := yields_done_iff.mp h₅
              exact ⟨[], rfl, fun r hr => absurd hr List.not_mem_nil⟩
          | elapsed => exact ih h₅
        obtain ⟨rounds, rfl, hrounds⟩ := hrest
        refine ⟨round :: rounds, ?_, ?_⟩
        · simp only [round, List.flatMap_cons, Round.transcript, List.append_assoc,
            List.singleton_append]
        · intro r hr
          rcases List.mem_cons.mp hr with rfl | hr
          · exact hround
          · exact hrounds r hr

/-! ## What is delivered, and what is written -/

/-- The indexes of the events that the consumer accepted, in order. -/
def deliveredIndexes (t : Transcript Surroundings) : List UInt64 :=
  (accepted t).flatMap fun batch => batch.events.map ConfirmedEvent.index

theorem deliveredIndexes_append (t t' : Transcript Surroundings) :
    deliveredIndexes (t ++ t') = deliveredIndexes t ++ deliveredIndexes t' := by
  rw [deliveredIndexes, accepted_append, List.flatMap_append]
  rfl

/-- The index of a contract that an exchange writes. -/
def writtenIndex? (contract : String) : Exchange Surroundings → Option UInt64
  | ⟨.writeIndex c index, _⟩ => if c = contract then some index else none
  | _ => none

/-- The indexes of a contract that were written, in order. -/
def written (contract : String) (t : Transcript Surroundings) : List UInt64 :=
  t.filterMap (writtenIndex? contract)

theorem written_append (contract : String) (t t' : Transcript Surroundings) :
    written contract (t ++ t') = written contract t ++ written contract t' :=
  List.filterMap_append

theorem written_eq_nil {contract : String} {t : Transcript Surroundings}
    (h : ∀ e ∈ t, e.query.LeavesIndex) : written contract t = [] := by
  refine List.filterMap_eq_nil_iff.mpr fun e he => ?_
  obtain ⟨query, answer⟩ := e
  cases query with
  | writeIndex c index => cases h _ he
  | readIndex | node | deliver | pause | record => rfl

/-- A cycle does not write the index. -/
theorem onlyAsks_cycle (s : Settings) (contract : String) :
    (cycle s contract).run.OnlyAsks Surroundings.Query.LeavesIndex := by
  refine onlyAsks_bindExcept ⟨trivial, fun _ => trivial⟩ fun index? => ?_
  refine onlyAsks_bindExcept (Step.onlyAsks_node trivial) fun count => ?_
  cases index? with
  | none => trivial
  | some start =>
      refine onlyAsks_bindExcept ?_ fun found => ?_
      · exact (onlyAsks_readRanges s contract start _).mono fun _ hq => hq.leavesIndex
      · refine onlyAsks_bindExcept ⟨trivial, fun _ => trivial⟩ fun _ => ?_
        exact onlyAsks_bindExcept (Step.onlyAsks_record trivial) fun _ => trivial

theorem Closes.handed {contract : String} {interval : UInt64}
    {outcome : Except WatchFailure UInt64} {t : Transcript Surroundings}
    (h : Closes contract interval outcome t) : handed t = [] := by
  cases h with
  | stopped => rfl
  | failed failure pause => rfl
  | kept next answer pause => rfl

/-- What closes a round writes the index of a cycle that succeeded. -/
theorem Closes.written {contract : String} {interval : UInt64}
    {outcome : Except WatchFailure UInt64} {t : Transcript Surroundings}
    (h : Closes contract interval outcome t) :
    written contract t = match outcome with | .ok next => [next] | .error _ => [] := by
  cases h with
  | stopped => rfl
  | failed failure pause => rfl
  | kept next answer pause =>
      simp only [Watch.written, List.filterMap_cons, writtenIndex?, if_true, List.filterMap_nil]

/-- What closes a round keeps the index of a cycle that succeeded, and
    otherwise leaves the archive alone. -/
theorem Closes.keepsAll {contract : String} {interval : UInt64}
    {outcome : Except WatchFailure UInt64} {t : Transcript Surroundings} {a a' : Archive}
    (h : Closes contract interval outcome t) (hkept : KeepsAll a t a') :
    a' = match outcome with | .ok next => a.setNextIndex contract next | .error _ => a := by
  cases h with
  | stopped =>
      cases hkept
      rfl
  | failed failure pause =>
      refine hkept.eq_of_leavesIndex ?_
      intro e he
      simp only [List.mem_cons, List.not_mem_nil, or_false] at he
      rcases he with rfl | rfl <;> trivial
  | kept next answer pause =>
      obtain _ | ⟨hcycle, hkept⟩ := hkept
      obtain _ | ⟨hindex, hkept⟩ := hkept
      obtain _ | ⟨hwrite, hkept⟩ := hkept
      obtain _ | ⟨hpause, hkept⟩ := hkept
      cases hkept
      obtain rfl := hcycle.eq_of_leavesIndex trivial
      obtain rfl := hindex.eq_of_leavesIndex trivial
      obtain rfl := hpause.eq_of_leavesIndex trivial
      exact hwrite.of_write

/-! ## One round -/

/-- An index that a cycle has passed: its event was confirmed and is in an
    accepted batch as the node returned it, or its block was reported
    outside the main chain and the event is not in any batch of `run`. -/
def IsDisposedOf (contract : String) (talk run : Transcript Surroundings) (i : UInt64) : Prop :=
  ∃ (sect : Section) (event : Event),
    sect.transcript contract <:+: talk ∧ sect.event? i = some event ∧
      ((canonicalBy? sect.talk event = some true ∧
          ∃ batch ∈ accepted talk, ⟨i, event⟩ ∈ batch.events) ∨
        (canonicalBy? sect.talk event = some false ∧ i ∉ deliveredIndexes run))

/-- A round moves the index from `before` to `after`, and consumes what is
    in between. -/
structure Round.IsAdvance (contract : String) (before after : UInt64) (r : Round) : Prop where
  le : before ≤ after
  inside : ∀ i ∈ deliveredIndexes r.transcript, before ≤ i ∧ i < after
  increasing : (deliveredIndexes r.transcript).Pairwise (· < ·)
  written : written contract r.transcript = [] ∨ written contract r.transcript = [after]
  consumes : ∀ i, r.Consumes contract i ↔ before ≤ i ∧ i < after
  disposes : ∀ i, before ≤ i → i < after → IsDisposedOf contract r.talk r.transcript i

/-- A round that delivers and consumes nothing is no move. -/
theorem Round.isAdvance_of_idle {contract : String} {index : UInt64} {r : Round}
    (hdelivered : deliveredIndexes r.transcript = [])
    (hwritten : Watch.written contract r.transcript = [] ∨
      Watch.written contract r.transcript = [index])
    (hconsumes : ∀ i, ¬ r.Consumes contract i) : r.IsAdvance contract index index := by
  have hnone : ∀ i : UInt64, index ≤ i → ¬ i < index := fun i hle => UInt64.not_lt.mpr hle
  constructor
  case le => exact UInt64.le_refl index
  case inside =>
    intro i hi
    rw [hdelivered] at hi
    cases hi
  case increasing =>
    rw [hdelivered]
    exact .nil
  case written => exact hwritten
  case consumes =>
    intro i
    exact ⟨fun h => absurd h (hconsumes i), fun h => absurd h.2 (hnone i h.1)⟩
  case disposes => exact fun i hle hlt => absurd hlt (hnone i hle)

/-- A section of a reading is part of the talk. -/
theorem transcript_infix {contract : String} {sections : List Section} {s : Section}
    (hs : s ∈ sections) (first second : Exchange Surroundings) (tail : Transcript Surroundings) :
    s.transcript contract <:+:
      first :: second :: (sections.flatMap (Section.transcript contract) ++ tail) := by
  obtain ⟨l, l', rfl⟩ := List.append_of_mem hs
  refine ⟨first :: second :: l.flatMap (Section.transcript contract),
    l'.flatMap (Section.transcript contract) ++ tail, ?_⟩
  simp only [List.flatMap_append, List.flatMap_cons, List.cons_append, List.append_assoc]

/-- A round that reads, and whose batch is accepted, moves the index to the
    end of the reading. -/
theorem Round.isAdvance_of_isReading {minConfirmations start count next : UInt64}
    {contract : String} {sections : List Section} {batch : Batch} {r : Round}
    (hreading : IsReading minConfirmations start count sections batch.events next)
    (hhead : r.talk.head? = some (indexRead contract (some start)))
    (houtcome : r.outcome = .ok next)
    (hsections : ∀ s ∈ sections, s.transcript contract <:+: r.talk)
    (haccepted : batch ∈ accepted r.talk)
    (hindexes : deliveredIndexes r.transcript = batch.events.map ConfirmedEvent.index)
    (hwritten : Watch.written contract r.transcript = [next]) :
    r.IsAdvance contract start next := by
  constructor
  case le => exact hreading.le_next
  case inside =>
    intro i hi
    rw [hindexes] at hi
    obtain ⟨e, he, rfl⟩ := List.mem_map.mp hi
    exact hreading.inside e he
  case increasing =>
    rw [hindexes]
    exact hreading.increasing.map _ fun _ _ hlt => hlt
  case written => exact .inr hwritten
  case consumes =>
    intro i
    constructor
    · rintro ⟨first, stop, hfirst, hstop, hrange⟩
      rw [hhead] at hfirst
      rw [houtcome] at hstop
      cases hfirst
      cases hstop
      exact hrange
    · exact fun hrange => ⟨start, next, hhead, houtcome, hrange⟩
  case disposes =>
    intro i hle hlt
    obtain ⟨sect, hsect, event, hevent, -, isCanonical, hcanonical, hiff⟩ :=
      hreading.passed i hle hlt
    refine ⟨sect, event, hsections sect hsect, hevent, ?_⟩
    cases isCanonical with
    | true => exact .inl ⟨hcanonical, batch, haccepted, (hiff event).mpr ⟨rfl, rfl⟩⟩
    | false =>
        -- no event at all is delivered under this index
        refine .inr ⟨hcanonical, ?_⟩
        rw [hindexes]
        intro hmem
        obtain ⟨⟨index, other⟩, he, rfl⟩ := List.mem_map.mp hmem
        cases ((hiff other).mp he).1

/-- Every round of a watcher advances the index that is kept. -/
theorem Round.IsOf.isAdvance {minConfirmations batchSize : UInt64} {nodeUrl contract : String}
    {interval : UInt64} {r : Round} {a a' : Archive}
    (h : r.IsOf (.of minConfirmations batchSize nodeUrl) contract interval)
    (hkept : KeepsAll a r.transcript a') (hfits : RangesFit (max batchSize 1) r.transcript) :
    r.IsAdvance contract (indexIn contract a) (indexIn contract a') := by
  obtain ⟨talk, outcome, closing⟩ := r
  obtain ⟨hcycle, hclosing⟩ := h
  simp only at hcycle hclosing
  obtain ⟨b, htalk, hrest⟩ := keepsAll_append_iff.mp hkept
  -- only what closes the round can write the index
  have hleaves : ∀ e ∈ talk, e.query.LeavesIndex := hcycle.onlyAsks (onlyAsks_cycle _ contract)
  obtain rfl := htalk.eq_of_leavesIndex hleaves
  have hafter := hclosing.keepsAll hrest
  have hwritten : Watch.written contract (talk ++ closing) = Watch.written contract closing := by
    rw [written_append, written_eq_nil hleaves]
    rfl
  have hdelivered : deliveredIndexes (talk ++ closing) = deliveredIndexes talk := by
    rw [deliveredIndexes_append, deliveredIndexes, deliveredIndexes,
      accepted_eq_nil hclosing.handed]
    exact List.append_nil _
  cases cycleTalk_of_yields hcycle with
  | failed failure hreads =>
      obtain rfl := hafter
      refine isAdvance_of_idle ?_ (.inl (hwritten.trans hclosing.written)) ?_
      · show deliveredIndexes (talk ++ closing) = []
        rw [hdelivered, deliveredIndexes, accepted_eq_nil (handed_eq_nil hreads)]
        rfl
      · rintro i ⟨start, next, -, houtcome, -⟩
        cases houtcome
  | unset count =>
      have hbefore : indexIn contract b = 0 := by
        obtain _ | ⟨hread, -⟩ := htalk
        rw [indexIn, ← hread.of_read]
        rfl
      have hnow : indexIn contract a' = 0 := by
        rw [hafter]
        exact indexIn_setNextIndex b contract 0
      rw [hbefore, hnow]
      refine isAdvance_of_idle hdelivered (.inr (hwritten.trans hclosing.written)) ?_
      rintro i ⟨start, next, hhead, -⟩
      cases hhead
  | @refused start count t events next reason hread =>
      obtain rfl := hafter
      refine isAdvance_of_idle ?_ (.inl (hwritten.trans hclosing.written)) ?_
      · show deliveredIndexes (_ ++ closing) = []
        have haccepted : accepted t = [] := accepted_eq_nil (handed_of_readRanges hread)
        rw [hdelivered]
        show (accepted (t ++ [_])).flatMap _ = []
        rw [accepted_append, haccepted]
        rfl
      · rintro i ⟨start, next, -, houtcome, -⟩
        cases houtcome
  | @accepted start count t events next hread =>
      have hbefore : indexIn contract b = start := by
        obtain _ | ⟨hread, -⟩ := htalk
        rw [indexIn, ← hread.of_read]
        rfl
      have hnow : indexIn contract a' = next := by
        rw [hafter]
        exact indexIn_setNextIndex b contract next
      have haccepted : accepted (indexRead contract (some start) ::
          answered (.eventCount contract) count :: (t ++ [delivered ⟨contract, events, next⟩,
            ⟨.record (.eventsConfirmed contract events.length), ()⟩]))
          = [⟨contract, events, next⟩] := by
        show accepted (t ++ [_, _]) = _
        rw [accepted_append, accepted_eq_nil (handed_of_readRanges hread)]
        rfl
      have hfit : RangesFit (max batchSize 1) t := hfits.subset fun e he =>
        List.mem_append_left _
          (List.mem_cons_of_mem _ (List.mem_cons_of_mem _ (List.mem_append_left _ he)))
      obtain ⟨sections, rfl, hreading⟩ := isReading_of_cover hfit hread
      rw [hbefore, hnow]
      let batch : Batch := ⟨contract, events, next⟩
      have hbatch : IsReading minConfirmations start count sections batch.events next := hreading
      refine isAdvance_of_isReading hbatch rfl rfl (fun s hs => transcript_infix hs _ _ _) ?_ ?_
        (hwritten.trans hclosing.written)
      · rw [haccepted]
        exact List.mem_singleton_self _
      · show deliveredIndexes (_ ++ closing) = _
        rw [hdelivered, deliveredIndexes, haccepted]
        exact List.append_nil _

/-! ## Rounds in a row -/

/-- What matters of the batches of a run may be read off a longer run that
    does not deliver the index either. -/
theorem IsDisposedOf.mono {contract : String} {talk run run' : Transcript Surroundings}
    {i : UInt64} (h : IsDisposedOf contract talk run i)
    (hrun : i ∉ deliveredIndexes run → i ∉ deliveredIndexes run') :
    IsDisposedOf contract talk run' i := by
  obtain ⟨sect, event, hinfix, hevent, hfate⟩ := h
  refine ⟨sect, event, hinfix, hevent, hfate.imp_right ?_⟩
  rintro ⟨hcanonical, hmem⟩
  exact ⟨hcanonical, hrun hmem⟩

/-- Rounds in a row move the index from `before` to `after`.  The indexes
    that are kept on the way do not decrease, those that are delivered
    increase, and each index in between is consumed once. -/
structure IsCourse (contract : String) (before after : UInt64) (rounds : List Round) : Prop where
  le : before ≤ after
  inside : ∀ i ∈ deliveredIndexes (rounds.flatMap Round.transcript), before ≤ i ∧ i < after
  increasing : (deliveredIndexes (rounds.flatMap Round.transcript)).Pairwise (· < ·)
  between : ∀ n ∈ written contract (rounds.flatMap Round.transcript), before ≤ n ∧ n ≤ after
  rising : (written contract (rounds.flatMap Round.transcript)).Pairwise (· ≤ ·)
  within : ∀ r ∈ rounds, ∀ i, r.Consumes contract i → before ≤ i ∧ i < after
  once : ∀ i, before ≤ i → i < after →
    ∃! k : Nat, ∃ r, rounds[k]? = some r ∧ r.Consumes contract i
  disposes : ∀ r ∈ rounds, ∀ i, r.Consumes contract i →
    IsDisposedOf contract r.talk (rounds.flatMap Round.transcript) i

/-- No rounds move nothing. -/
theorem isCourse_nil (contract : String) (index : UInt64) :
    IsCourse contract index index [] where
  le := UInt64.le_refl index
  inside _ hi := absurd hi List.not_mem_nil
  increasing := .nil
  between _ hn := absurd hn List.not_mem_nil
  rising := .nil
  within _ hr := absurd hr List.not_mem_nil
  once _ hle hlt := absurd hlt (UInt64.not_lt.mpr hle)
  disposes _ hr := absurd hr List.not_mem_nil

/-- A round in front of a course is a course. -/
theorem IsCourse.cons {contract : String} {before middle after : UInt64} {r : Round}
    {rounds : List Round} (h : r.IsAdvance contract before middle)
    (h' : IsCourse contract middle after rounds) :
    IsCourse contract before after (r :: rounds) := by
  constructor
  case le => exact UInt64.le_trans h.le h'.le
  case inside =>
    intro i hi
    rw [List.flatMap_cons, deliveredIndexes_append] at hi
    rcases List.mem_append.mp hi with hi | hi
    · obtain ⟨hle, hlt⟩ := h.inside i hi
      exact ⟨hle, UInt64.lt_of_lt_of_le hlt h'.le⟩
    · obtain ⟨hle, hlt⟩ := h'.inside i hi
      exact ⟨UInt64.le_trans h.le hle, hlt⟩
  case increasing =>
    rw [List.flatMap_cons, deliveredIndexes_append]
    refine List.pairwise_append.mpr ⟨h.increasing, h'.increasing, ?_⟩
    intro i hi j hj
    exact UInt64.lt_of_lt_of_le (h.inside i hi).2 (h'.inside j hj).1
  case between =>
    intro n hn
    rw [List.flatMap_cons, written_append] at hn
    rcases List.mem_append.mp hn with hn | hn
    · rcases h.written with hnone | hone
      · rw [hnone] at hn
        cases hn
      · rw [hone] at hn
        obtain rfl := List.mem_singleton.mp hn
        exact ⟨h.le, h'.le⟩
    · obtain ⟨hle, hafter⟩ := h'.between n hn
      exact ⟨UInt64.le_trans h.le hle, hafter⟩
  case rising =>
    rw [List.flatMap_cons, written_append]
    rcases h.written with hnone | hone
    · rw [hnone]
      exact h'.rising
    · rw [hone]
      exact List.pairwise_cons.mpr ⟨fun n hn => (h'.between n hn).1, h'.rising⟩
  case within =>
    intro other hother i hconsumes
    rcases List.mem_cons.mp hother with rfl | hother
    · obtain ⟨hle, hlt⟩ := (h.consumes i).mp hconsumes
      exact ⟨hle, UInt64.lt_of_lt_of_le hlt h'.le⟩
    · obtain ⟨hle, hlt⟩ := h'.within other hother i hconsumes
      exact ⟨UInt64.le_trans h.le hle, hlt⟩
  case once =>
    intro i hle hlt
    by_cases hi : i < middle
    · -- the first round consumes the index, and no other does
      refine ⟨0, ⟨r, rfl, (h.consumes i).mpr ⟨hle, hi⟩⟩, ?_⟩
      rintro k ⟨other, hk, hconsumes⟩
      cases k with
      | zero => rfl
      | succ k =>
          have hbehind := h'.within other (List.mem_of_getElem? hk) i hconsumes
          exact absurd hi (UInt64.not_lt.mpr hbehind.1)
    · -- a later round consumes the index, and the first one ends before it
      obtain ⟨k, ⟨other, hk, hconsumes⟩, hunique⟩ := h'.once i (UInt64.not_lt.mp hi) hlt
      refine ⟨k + 1, ⟨other, hk, hconsumes⟩, ?_⟩
      rintro j ⟨another, hj, hsame⟩
      cases j with
      | zero =>
          obtain rfl : r = another := Option.some.inj hj
          exact absurd ((h.consumes i).mp hsame).2 hi
      | succ j => exact congrArg (· + 1) (hunique j ⟨another, hj, hsame⟩)
  case disposes =>
    intro other hother i hconsumes
    rw [List.flatMap_cons]
    rcases List.mem_cons.mp hother with rfl | hother
    · obtain ⟨hle, hlt⟩ := (h.consumes i).mp hconsumes
      -- later rounds deliver nothing in front of where they start
      refine (h.disposes i hle hlt).mono fun hnot hmem => ?_
      rw [deliveredIndexes_append] at hmem
      rcases List.mem_append.mp hmem with hmem | hmem
      · exact hnot hmem
      · exact UInt64.not_lt.mpr (h'.inside i hmem).1 hlt
    · refine (h'.disposes other hother i hconsumes).mono fun hnot hmem => ?_
      rw [deliveredIndexes_append] at hmem
      rcases List.mem_append.mp hmem with hmem | hmem
      · exact UInt64.not_lt.mpr (h'.within other hother i hconsumes).1 (h.inside i hmem).2
      · exact hnot hmem

/-- The rounds of a watcher are a course of the index that is kept. -/
theorem isCourse_of_rounds {minConfirmations batchSize : UInt64} {nodeUrl contract : String}
    {interval : UInt64} {rounds : List Round} {a a' : Archive}
    (hrounds : ∀ r ∈ rounds, r.IsOf (.of minConfirmations batchSize nodeUrl) contract interval)
    (hkept : KeepsAll a (rounds.flatMap Round.transcript) a')
    (hfits : RangesFit (max batchSize 1) (rounds.flatMap Round.transcript)) :
    IsCourse contract (indexIn contract a) (indexIn contract a') rounds := by
  induction rounds generalizing a with
  | nil =>
      cases hkept
      exact isCourse_nil contract _
  | cons r rest ih =>
      rw [List.flatMap_cons] at hkept hfits
      obtain ⟨b, hround, hrest⟩ := keepsAll_append_iff.mp hkept
      have hadvance := (hrounds r List.mem_cons_self).isAdvance hround
        (hfits.subset (List.subset_append_left _ _))
      exact .cons hadvance (ih (fun other hother => hrounds other (List.mem_cons_of_mem _ hother))
        hrest (hfits.subset (List.subset_append_right _ _)))

/-- A round that fails leaves the archive alone, and hands nothing over
    unless it was the consumer that failed. -/
theorem Round.IsOf.of_error {s : Settings} {contract : String} {interval : UInt64} {r : Round}
    {failure : WatchFailure} (h : r.IsOf s contract interval)
    (hfailure : r.outcome = .error failure) :
    ((∀ reason, failure ≠ .consumer reason) → handed r.transcript = []) ∧
      ∀ b b', KeepsAll b r.transcript b' → b' = b := by
  obtain ⟨talk, outcome, closing⟩ := r
  obtain ⟨hcycle, hclosing⟩ := h
  simp only at hcycle hclosing hfailure
  subst hfailure
  constructor
  · intro hother
    rw [transcript, handed_append, hclosing.handed, List.append_nil]
    obtain hnone | ⟨batch, reason, hreason, -⟩ := handed_of_cycle_error hcycle
    · exact hnone
    · exact absurd hreason (hother reason)
  · intro b b' hkept
    obtain ⟨c, htalk, hrest⟩ := keepsAll_append_iff.mp hkept
    rw [hclosing.keepsAll hrest]
    exact htalk.eq_of_leavesIndex (hcycle.onlyAsks (onlyAsks_cycle s contract))

/-- Whatever the node does, a watcher whose index is kept delivers every
    event once.  Its talk falls into rounds, each with a cycle.  The indexes
    of accepted events increase over the whole run; the index that is kept
    never decreases; every index that the run has passed was consumed by
    exactly one round, which succeeded and delivered or dropped it; and a
    round that fails keeps nothing and, unless the consumer failed, hands
    nothing over. -/
theorem watch_delivers_exactly_once {minConfirmations batchSize : UInt64}
    {nodeUrl contract : String} {interval : UInt64} {cycles : Nat}
    {t : Transcript Surroundings} {a a' : Archive}
    (h : Yields (watch (.of minConfirmations batchSize nodeUrl) contract interval cycles) t ())
    (hkept : KeepsAll a t a') (hfits : RangesFit (max batchSize 1) t) :
    ∃ rounds : List Round, t = rounds.flatMap Round.transcript ∧
      (∀ r ∈ rounds, r.IsOf (.of minConfirmations batchSize nodeUrl) contract interval) ∧
      (deliveredIndexes t).Pairwise (· < ·) ∧
      (indexIn contract a :: written contract t).Pairwise (· ≤ ·) ∧
      indexIn contract a ≤ indexIn contract a' ∧
      (∀ i, indexIn contract a ≤ i → i < indexIn contract a' →
        ∃! k : Nat, ∃ r, rounds[k]? = some r ∧ r.Consumes contract i) ∧
      (∀ r ∈ rounds, ∀ i, r.Consumes contract i → IsDisposedOf contract r.talk t i) ∧
      ∀ r ∈ rounds, ∀ failure, r.outcome = .error failure →
        ((∀ reason, failure ≠ .consumer reason) → handed r.transcript = []) ∧
          ∀ b b', KeepsAll b r.transcript b' → b' = b := by
  obtain ⟨rounds, rfl, hrounds⟩ := rounds_of_watch h
  have hcourse := isCourse_of_rounds hrounds hkept hfits
  refine ⟨rounds, rfl, hrounds, hcourse.increasing, ?_, hcourse.le, hcourse.once,
    hcourse.disposes, ?_⟩
  · exact List.pairwise_cons.mpr ⟨fun n hn => (hcourse.between n hn).1, hcourse.rising⟩
  · intro r hr failure hfailure
    exact (hrounds r hr).of_error hfailure

/-! ## A watcher that reads on -/

/-- Answers to everything, the index being kept in an archive. -/
def remember (others : (q : Surroundings.Query) → q.Answer) (a : Archive) :
    (q : Surroundings.Query) → q.Answer × Archive
  | .readIndex contract => (.ok (a.nextIndex? contract), a)
  | .writeIndex contract index => (.ok (), a.setNextIndex contract index)
  | q => (others q, a)

/-- These answers keep the index. -/
theorem keeps_remember (others : (q : Surroundings.Query) → q.Answer) (a : Archive)
    (q : Surroundings.Query) :
    Keeps a ⟨q, (remember others a q).1⟩ (remember others a q).2 := by
  cases q with
  | readIndex contract => exact .read contract
  | writeIndex contract index => exact .write contract index
  | node | deliver | pause | record =>
      refine .other _ _ ?_ ?_
      · exact fun _ hquery => by cases hquery
      · exact fun _ _ hquery => by cases hquery

theorem keepsAll_transcript {α : Type} (others : (q : Surroundings.Query) → q.Answer)
    (p : Program Surroundings α) (a : Archive) :
    KeepsAll a (p.transcript (remember others) a) (p.run (remember others) a).2 := by
  induction p generalizing a with
  | done value => exact .nil a
  | ask query next ih => exact .cons (keeps_remember others a query) (ih _ _)

/-- A watcher of the young world, which keeps its index from zero on. -/
def patientTalk : Transcript Surroundings :=
  (watch (.of 1 10 "") "bridge" 1000 2).transcript (remember fun q => (youngWorld () q).1)
    (.setNextIndex .empty "bridge" 0)

/-- The first event is delivered by one round; the second round fails, for
    this world has two events in every range. -/
theorem old_event_delivered_once :
    deliveredIndexes patientTalk = [0] ∧ written "bridge" patientTalk = [1] ∧
      ∃ rounds : List Round, patientTalk = rounds.flatMap Round.transcript ∧
        ∃! k : Nat, ∃ r, rounds[k]? = some r ∧ r.Consumes "bridge" 0 := by
  let world := remember fun q => (youngWorld () q).1
  let first : Archive := .setNextIndex .empty "bridge" 0
  let watcher := watch (.of 1 10 "") "bridge" 1000 2
  have hrun : Yields watcher patientTalk () :=
    yields_transcript (I := Surroundings) world watcher first
  have hkept : KeepsAll first patientTalk (watcher.run world first).2 :=
    keepsAll_transcript _ watcher first
  have hfits : RangesFit (max 10 1) patientTalk := by decide +kernel
  obtain ⟨rounds, hrounds, -, -, -, -, honce, -⟩ := watch_delivers_exactly_once hrun hkept hfits
  refine ⟨by decide +kernel, by decide +kernel, rounds, hrounds, honce 0 ?_ ?_⟩
  · decide +kernel
  · decide +kernel

end BridgeGuardian.Watch
