import BridgeGuardian.Proofs.Watch.Ledger

/-! # Schedules — batches and cycles do not matter while the chain only grows

    A visit is one cycle, with batches of its own size, at one stage of the
    chain.  In a schedule the index that a visit comes to is kept for the
    next one, and a visit that fails keeps nothing.  What a schedule has
    delivered, with what the last stage confirms from the kept index on, is
    always what the last stage confirms from the first index on; so a
    schedule that ends with a success there has done what a single cycle
    would have done. -/

namespace BridgeGuardian.Watch

open Program

/-! ## One cycle -/

/-- A cycle that succeeds while the node tells a ledger hands over what the
    ledger confirms from the kept index on. -/
theorem cycle_on_ledger {l : Ledger} {minConfirmations batchSize start next : UInt64}
    {nodeUrl contract : String} {t : Transcript Surroundings}
    (h : Yields (cycle (.of minConfirmations batchSize nodeUrl) contract).outcome t (.ok next))
    (hreads : ∀ index?, indexRead contract index? ∈ t → index? = some start)
    (htells : l.Tells t) (hfits : RangesFit (max batchSize 1) t) :
    next = l.behind minConfirmations contract start ∧
      handed t = [⟨contract, l.confirmedFrom minConfirmations contract start, next⟩] := by
  generalize hnext : (.ok next : Except WatchFailure UInt64) = outcome at h
  cases cycleTalk_of_yields h with
  | failed failure honly => cases hnext
  | unset count => cases hreads none List.mem_cons_self
  | refused first count reason hread => cases hnext
  | @accepted first count talk events stop hread =>
      cases hnext
      obtain rfl := Option.some.inj (hreads (some first) List.mem_cons_self)
      obtain rfl : count = l.count contract :=
        htells (.eventCount contract) count (List.mem_cons_of_mem _ List.mem_cons_self)
      have hsub : talk ⊆ indexRead contract (some first) ::
          answered (.eventCount contract) (l.count contract) ::
          (talk ++ [delivered ⟨contract, events, next⟩,
            ⟨.record (.eventsConfirmed contract events.length), ()⟩]) := fun e he =>
        List.mem_cons_of_mem _ (List.mem_cons_of_mem _ (List.mem_append_left _ he))
      obtain ⟨sections, rfl, hreading⟩ := isReading_of_cover (hfits.subset hsub) hread
      obtain ⟨rfl, hbehind⟩ := hreading.eq_of_tells (htells.subset hsub)
      refine ⟨hbehind, ?_⟩
      have hquiet := handed_of_readRanges hread
      show handed (sections.flatMap (Section.transcript contract) ++ [_, _]) = _
      rw [handed_append, hquiet]
      rfl

/-! ## Visits -/

/-- One cycle at one stage of the chain. -/
structure Visit where
  batchSize : UInt64
  ledger : Ledger
  talk : Transcript Surroundings
  outcome : Except WatchFailure UInt64

namespace Visit

/-- What the consumer is handed, event by event. -/
def deliveries (v : Visit) : List ConfirmedEvent := (handed v.talk).flatMap Batch.events

/-- The index that is kept behind a visit. -/
def leaves (v : Visit) (index? : Option UInt64) : Option UInt64 :=
  match v.outcome with
  | .ok next => some next
  | .error _ => index?

/-- A visit of a watcher that has kept an index: the node tells the ledger
    when it answers, no range leaves 64 bits, and a visit that fails does so
    before the consumer is called. -/
structure IsOf (minConfirmations : UInt64) (nodeUrl contract : String) (index? : Option UInt64)
    (v : Visit) : Prop where
  cycle : Yields (cycle (.of minConfirmations v.batchSize nodeUrl) contract).outcome
    v.talk v.outcome
  reads : ∀ found?, indexRead contract found? ∈ v.talk → found? = index?
  tells : v.ledger.Tells v.talk
  fits : RangesFit (max v.batchSize 1) v.talk
  failsEarly : ∀ failure, v.outcome = .error failure → handed v.talk = []

variable {minConfirmations start next : UInt64} {nodeUrl contract : String} {v : Visit}

/-- A visit that succeeds. -/
theorem IsOf.of_ok (h : v.IsOf minConfirmations nodeUrl contract (some start))
    (hok : v.outcome = .ok next) :
    next = v.ledger.behind minConfirmations contract start ∧
      v.deliveries = v.ledger.confirmedFrom minConfirmations contract start := by
  have hcycle := h.cycle
  rw [hok] at hcycle
  obtain ⟨hnext, hhanded⟩ := cycle_on_ledger hcycle h.reads h.tells h.fits
  refine ⟨hnext, ?_⟩
  rw [deliveries, hhanded, List.flatMap_singleton]

/-- A visit that fails. -/
theorem IsOf.of_error {index? : Option UInt64} {failure : WatchFailure}
    (h : v.IsOf minConfirmations nodeUrl contract index?) (herror : v.outcome = .error failure) :
    v.deliveries = [] := by
  rw [deliveries, h.failsEarly failure herror, List.flatMap_nil]

/-- A visit without a kept index sets it to zero if it succeeds, and
    delivers nothing. -/
theorem IsOf.of_none (h : v.IsOf minConfirmations nodeUrl contract none) :
    v.deliveries = [] ∧ ∀ next, v.outcome = .ok next → next = 0 := by
  obtain ⟨batchSize, ledger, talk, outcome⟩ := v
  have hreads : ∀ found?, indexRead contract found? ∈ talk → found? = none := h.reads
  cases cycleTalk_of_yields h.cycle with
  | failed failure honly => exact ⟨h.of_error rfl, nofun⟩
  | unset count => exact ⟨rfl, fun next hok => (Except.ok.inj hok).symm⟩
  | refused first count reason hread => cases hreads (some first) List.mem_cons_self
  | accepted first count hread => cases hreads (some first) List.mem_cons_self

end Visit

/-! ## Schedules -/

/-- Visits one after the other, from one kept index to another. -/
inductive IsSchedule (minConfirmations : UInt64) (nodeUrl contract : String) :
    Option UInt64 → List Visit → Option UInt64 → Prop
  | nil (index? : Option UInt64) : IsSchedule minConfirmations nodeUrl contract index? [] index?
  | cons {index? last? : Option UInt64} {v : Visit} {visits : List Visit}
      (first : v.IsOf minConfirmations nodeUrl contract index?)
      (rest : IsSchedule minConfirmations nodeUrl contract (v.leaves index?) visits last?) :
      IsSchedule minConfirmations nodeUrl contract index? (v :: visits) last?

namespace IsSchedule

variable {minConfirmations start next next' : UInt64} {nodeUrl contract : String}
variable {visits earlier : List Visit} {final single : Visit} {index? last? : Option UInt64}

/-- The last visit starts where those before it have ended. -/
theorem of_concat (h : IsSchedule minConfirmations nodeUrl contract index? (earlier ++ [final])
      last?) :
    ∃ middle?, IsSchedule minConfirmations nodeUrl contract index? earlier middle? ∧
      final.IsOf minConfirmations nodeUrl contract middle? ∧ last? = final.leaves middle? := by
  induction earlier generalizing index? with
  | nil =>
      obtain _ | ⟨hfinal, hnil⟩ := h
      cases hnil
      exact ⟨index?, .nil index?, hfinal, rfl⟩
  | cons v visits ih =>
      obtain _ | ⟨hfirst, hrest⟩ := h
      obtain ⟨middle?, hvisits, hfinal⟩ := ih hrest
      exact ⟨middle?, .cons hfirst hvisits, hfinal⟩

/-- What was delivered before a stage, with what the stage confirms from the
    kept index on, is what it confirms from the first index on. -/
theorem deliveries_append {l : Ledger}
    (h : IsSchedule minConfirmations nodeUrl contract (some start) visits last?)
    (hgrows : ∀ v ∈ visits, v.ledger.Grows l) :
    ∃ kept, last? = some kept ∧
      l.behind minConfirmations contract kept = l.behind minConfirmations contract start ∧
      visits.flatMap Visit.deliveries ++ l.confirmedFrom minConfirmations contract kept
        = l.confirmedFrom minConfirmations contract start := by
  generalize hindex : some start = index? at h
  induction h generalizing start with
  | nil index? => exact ⟨start, hindex.symm, rfl, rfl⟩
  | @cons index? last? v visits first rest ih =>
      subst hindex
      have hlater : ∀ v ∈ visits, v.ledger.Grows l := fun v hv =>
        hgrows v (List.mem_cons_of_mem _ hv)
      rw [List.flatMap_cons]
      cases houtcome : v.outcome with
      | error failure =>
          have hleaves : some start = v.leaves (some start) := by rw [Visit.leaves, houtcome]
          rw [first.of_error houtcome, List.nil_append]
          exact ih hlater hleaves
      | ok next =>
          have hgrow := hgrows v List.mem_cons_self
          have hleaves : some next = v.leaves (some start) := by rw [Visit.leaves, houtcome]
          obtain ⟨hnext, hdeliveries⟩ := first.of_ok houtcome
          obtain ⟨kept, hkept, hbehind, hrest⟩ := ih hlater hleaves
          rw [hnext] at hbehind hrest
          refine ⟨kept, hkept, hbehind.trans (hgrow.behind _ _ _), ?_⟩
          rw [hdeliveries, List.append_assoc, hrest, hgrow.confirmedFrom]

end IsSchedule

/-- Batching and scheduling do not matter while the chain only grows: visits
    at its stages, with batches of any sizes, some of which may fail, that
    start from a kept index and end with a success at the last stage, have
    delivered together what a single cycle delivers there, and keep the
    index that it comes to. -/
theorem schedule_amounts_to_one_cycle {minConfirmations start next next' : UInt64}
    {nodeUrl contract : String} {earlier : List Visit} {final single : Visit}
    {last? : Option UInt64}
    (hvisits : IsSchedule minConfirmations nodeUrl contract (some start) (earlier ++ [final])
      last?)
    (hgrows : ((earlier ++ [final]).map Visit.ledger).Pairwise Ledger.Grows)
    (hfinal : final.outcome = .ok next)
    (hsingle : single.IsOf minConfirmations nodeUrl contract (some start))
    (hledger : single.ledger = final.ledger) (hok : single.outcome = .ok next') :
    (earlier ++ [final]).flatMap Visit.deliveries = single.deliveries ∧
      next = next' ∧ last? = some next' := by
  obtain ⟨middle?, hearlier, hlast, hleaves⟩ := hvisits.of_concat
  have hlater : ∀ v ∈ earlier, v.ledger.Grows final.ledger := by
    rw [List.map_append, List.map_singleton, List.pairwise_append] at hgrows
    exact fun v hv => hgrows.2.2 _ (List.mem_map_of_mem hv) _ (List.mem_singleton_self _)
  obtain ⟨kept, rfl, hbehind, hdelivered⟩ := hearlier.deliveries_append hlater
  obtain ⟨hnext, hrest⟩ := hlast.of_ok hfinal
  obtain ⟨hnext', hdeliveries⟩ := hsingle.of_ok hok
  have hequal : next = next' := by rw [hnext, hnext', hledger, hbehind]
  refine ⟨?_, hequal, ?_⟩
  · rw [List.flatMap_append, List.flatMap_singleton, hrest, hdelivered, hdeliveries, hledger]
  · rw [hleaves, Visit.leaves, hfinal, hequal]

/-! ## Three cycles on a growing chain -/

/-- Answers from a ledger, save to questions for which the node is down. -/
def Ledger.world (l : Ledger) (index? : Option UInt64) (isDown : NodeQuery → Bool) :
    (q : Surroundings.Query) → q.Answer
  | .readIndex _ => .ok index?
  | .writeIndex _ _ => .ok ()
  | .node q => if isDown q then .error (.unreachable "" "") else .ok (l.answer q)
  | .deliver _ => .ok ()
  | .pause _ => .elapsed
  | .record _ => ()

/-- A visit in this world. -/
def Ledger.visit (l : Ledger) (minConfirmations batchSize : UInt64) (contract : String)
    (index? : Option UInt64) (isDown : NodeQuery → Bool) : Visit :=
  let program := (cycle (.of minConfirmations batchSize "") contract).outcome
  let world := fun (state : Unit) q => (l.world index? isDown q, state)
  ⟨batchSize, l, program.transcript world (), (program.run world ()).1⟩

/-- It is a visit from the index that is kept there. -/
theorem Ledger.isOf_visit (l : Ledger) {minConfirmations batchSize : UInt64} {contract : String}
    (index? : Option UInt64) (isDown : NodeQuery → Bool)
    (hfits : RangesFit (max batchSize 1)
      (l.visit minConfirmations batchSize contract index? isDown).talk) :
    (l.visit minConfirmations batchSize contract index? isDown).IsOf minConfirmations "" contract
      index? := by
  have hanswers : ∀ e ∈ (l.visit minConfirmations batchSize contract index? isDown).talk,
      e.answer = l.world index? isDown e.query := fun e he =>
    answer_of_mem_transcript (I := Surroundings) (l.world index? isDown) he
  have hcycle := yields_transcript (I := Surroundings)
    (fun (state : Unit) q => (l.world index? isDown q, state))
    (cycle (.of minConfirmations batchSize "") contract).outcome ()
  refine ⟨hcycle, ?_, ?_, hfits, ?_⟩
  · intro found? hmem
    exact Except.ok.inj (hanswers _ hmem)
  · intro q answer hmem
    have hsaid : (.ok answer : Except WatchFailure q.Result)
        = if isDown q then .error (.unreachable "" "") else .ok (l.answer q) := hanswers _ hmem
    split at hsaid
    · cases hsaid
    · exact Except.ok.inj hsaid
  · intro failure herror
    have hfailed : (Program.run (I := Surroundings)
        (fun (state : Unit) q => (l.world index? isDown q, state))
        (cycle (.of minConfirmations batchSize "") contract).outcome ()).1 = .error failure :=
      herror
    rw [hfailed] at hcycle
    obtain hnone | ⟨batch, reason, -, hmem⟩ := handed_of_cycle_error hcycle
    · exact hnone
    · cases hanswers _ hmem

/-- An event of a block. -/
def eventIn (hash : String) : Event := ⟨hash, "bridge", "", 0, []⟩

/-- A stage with events and a current height; each block is as high as its
    name is long. -/
def stage (events : List Event) (current : UInt64) (h : events.length < 2 ^ 64) : Ledger where
  events _ := events
  header hash := ⟨hash, 0, 0, 0, .ofNat hash.length⟩
  isInMainChain hash := hash ≠ "orphan"
  height _ _ := current
  bounded _ := h

/-- Two events, of which the second is too young. -/
def firstStage : Ledger := stage [eventIn "first", eventIn "orphan"] 6 (by decide)

/-- Two more events, of which the last is too young. -/
def lastStage : Ledger :=
  stage [eventIn "first", eventIn "orphan", eventIn "another", eventIn "very young"] 10 (by decide)

theorem firstStage_grows : firstStage.Grows lastStage where
  events _ := ⟨[eventIn "another", eventIn "very young"], rfl⟩
  header := rfl
  isInMainChain := rfl
  height _ _ := show (6 : UInt64) ≤ 10 by decide

/-- A visit at the first stage. -/
def earlyVisit : Visit := firstStage.visit 1 1 "bridge" (some 0) fun _ => false

/-- A visit that learns no heights. -/
def lostVisit : Visit := lastStage.visit 1 2 "bridge" (some 1) fun q => q = .height 0 0

/-- A visit at the last stage. -/
def lateVisit : Visit := lastStage.visit 1 1 "bridge" (some 1) fun _ => false

/-- One that reads everything at once. -/
def singleVisit : Visit := lastStage.visit 1 10 "bridge" (some 0) fun _ => false

/-- The first event is delivered at the first stage and the third one at the
    last; one cycle delivers both. -/
theorem three_cycles_amount_to_one :
    IsSchedule 1 "" "bridge" (some 0) [earlyVisit, lostVisit, lateVisit] (some 3) ∧
      lostVisit.outcome = .error (.unreachable "" "") ∧
      earlyVisit.deliveries.map (·.index) = [0] ∧
      [earlyVisit, lostVisit, lateVisit].flatMap Visit.deliveries = singleVisit.deliveries ∧
      singleVisit.deliveries.map (·.index) = [0, 2] ∧ singleVisit.outcome = .ok 3 := by
  have hearly : earlyVisit.outcome = .ok 1 := by decide +kernel
  have hlost : lostVisit.outcome = .error (.unreachable "" "") := by decide +kernel
  have hlate : lateVisit.outcome = .ok 3 := by decide +kernel
  have hsingle : singleVisit.outcome = .ok 3 := by decide +kernel
  have hvisits : IsSchedule 1 "" "bridge" (some 0) ([earlyVisit, lostVisit] ++ [lateVisit])
      (some 3) := by
    refine .cons (firstStage.isOf_visit _ _ (by decide +kernel)) ?_
    rw [Visit.leaves, hearly]
    refine .cons (lastStage.isOf_visit _ _ (by decide +kernel)) ?_
    rw [Visit.leaves, hlost]
    refine .cons (lastStage.isOf_visit _ _ (by decide +kernel)) ?_
    rw [Visit.leaves, hlate]
    exact .nil (some 3)
  have hgrows : (([earlyVisit, lostVisit] ++ [lateVisit]).map Visit.ledger).Pairwise
      Ledger.Grows := by
    show [firstStage, lastStage, lastStage].Pairwise Ledger.Grows
    refine .cons ?_ (List.pairwise_pair.mpr (.refl lastStage))
    intro l hl
    simp only [List.mem_cons, List.not_mem_nil, or_false, or_self] at hl
    exact hl ▸ firstStage_grows
  obtain ⟨hdeliveries, -⟩ := schedule_amounts_to_one_cycle hvisits hgrows hlate
    (lastStage.isOf_visit _ _ (by decide +kernel)) rfl hsingle
  refine ⟨hvisits, hlost, ?_, hdeliveries, ?_, hsingle⟩
  · decide +kernel
  · decide +kernel

end BridgeGuardian.Watch
