import BridgeGuardian.Proofs.Table
import BridgeGuardian.Proofs.Watch.Classified

/-! # Looked up — shared look-ups against look-ups of each event

    What a step asks of the node can be a plan: questions that are put one
    after the other until one of them fails.  Plans of steps in sequence
    are put one behind the other.  The plan of a classification is the list
    of blocks that are missing in the table, so it starts out as the list of
    all blocks, each where it occurs first; the same holds of chains and
    heights.

    If the node's answers are fixed, so is what a step comes to, and the
    table of a classification never has anything else than what the node
    would say again.  So a classification comes to what looking up each
    event on its own comes to. -/

namespace BridgeGuardian.Watch

open Program

/-! ## Plans -/

/-- What a step failed with, if it did. -/
def fault? {α : Type} : Except WatchFailure α → Option WatchFailure
  | .ok _ => none
  | .error fault => some fault

/-- Questions are put one after the other until one of them fails. -/
inductive PutInOrder : List NodeQuery → Transcript Surroundings → Option WatchFailure → Prop
  | finished : PutInOrder [] [] none
  | answered {q : NodeQuery} {others : List NodeQuery} {t : Transcript Surroundings}
      {outcome : Option WatchFailure} (answer : q.Result) :
      PutInOrder others t outcome → PutInOrder (q :: others) (answered q answer :: t) outcome
  | failed (q : NodeQuery) (others : List NodeQuery) (fault : WatchFailure) :
      PutInOrder (q :: others) [⟨.node q, (.error fault : Except WatchFailure q.Result)⟩]
        (some fault)

namespace PutInOrder

variable {plan later : List NodeQuery} {t t' : Transcript Surroundings}

/-- Behind a plan that was carried out another one can be started. -/
theorem append {outcome : Option WatchFailure} (h : PutInOrder plan t none)
    (h' : PutInOrder later t' outcome) : PutInOrder (plan ++ later) (t ++ t') outcome := by
  generalize hnone : (none : Option WatchFailure) = first at h
  induction h with
  | finished => exact h'
  | answered answer _ ih => exact .answered answer (ih hnone)
  | failed q others fault => cases hnone

/-- Behind a question that failed no other plan matters. -/
theorem append_of_failed {fault : WatchFailure} (h : PutInOrder plan t (some fault))
    (later : List NodeQuery) : PutInOrder (plan ++ later) t (some fault) := by
  generalize hsome : some fault = outcome at h ⊢
  induction h with
  | finished => cases hsome
  | answered answer _ ih => exact .answered answer (ih hsome)
  | failed q others fault' => exact .failed q (others ++ later) fault'

/-- What was asked is the plan up to some question. -/
theorem asked_prefix {outcome : Option WatchFailure} (h : PutInOrder plan t outcome) :
    List.IsPrefix (t.map Exchange.query) (plan.map Surroundings.Query.node) := by
  induction h with
  | finished => exact List.prefix_refl _
  | answered _ _ ih => exact List.cons_prefix_cons.mpr ⟨rfl, ih⟩
  | failed q others fault => exact List.cons_prefix_cons.mpr ⟨rfl, List.nil_prefix⟩

/-- By a plan without repetitions nothing is asked twice. -/
theorem nodup_asked {outcome : Option WatchFailure} (h : PutInOrder plan t outcome)
    (hplan : plan.Nodup) : (t.map Exchange.query).Nodup := by
  have hqueries : (plan.map Surroundings.Query.node).Nodup := by
    refine List.Pairwise.map Surroundings.Query.node (fun q q' hne heq => hne ?_) hplan
    injection heq
  exact hqueries.sublist h.asked_prefix.sublist

end PutInOrder

namespace Step

variable {α β : Type}

/-- A step puts the questions of a plan until one of them fails, and then it
    fails with that. -/
def Follows (step : Step α) (plan : List NodeQuery) : Prop :=
  ∀ (t : Transcript Surroundings) (result : Except WatchFailure α),
    Yields step.run t result → PutInOrder plan t (fault? result)

theorem follows_pure (value : α) : Follows (pure value) [] := by
  intro t result h
  obtain ⟨rfl, rfl⟩ := yields_done_iff.mp h
  exact .finished

theorem follows_node (q : NodeQuery) : Follows (node q) [q] := by
  intro t result h
  obtain rfl := yields_node_iff.mp h
  cases result with
  | error fault => exact .failed q [] fault
  | ok answer => exact .answered answer .finished

/-- The plans of steps in sequence come one behind the other. -/
theorem Follows.bind {step : Step α} {next : α → Step β} {plan later : List NodeQuery}
    (h : step.Follows plan) (hnext : ∀ value, (next value).Follows later) :
    (step >>= next).Follows (plan ++ later) := by
  intro t result hyields
  rcases yields_bindExcept_iff.mp hyields with ⟨fault, h₁, rfl⟩ | ⟨value, t₁, t₂, rfl, h₁, h₂⟩
  · exact (h t _ h₁).append_of_failed later
  · exact (h t₁ _ h₁).append (hnext value t₂ result h₂)

end Step

/-! ## Blocks -/

/-- The questions about a block. -/
def blockQuestions (hash : String) : List NodeQuery := [.header hash, .isInMainChain hash]

/-- The blocks of events. -/
def blockHashes (events : List (UInt64 × Event)) : List String :=
  events.map fun e => e.2.blockHash

theorem follows_lookUp (hash : String) : (lookUp hash).Follows (blockQuestions hash) :=
  (Step.follows_node _).bind fun _ => (Step.follows_node _).bind fun _ => Step.follows_pure _

/-- A classification asks about the blocks that are missing in its table. -/
theorem follows_classifyFrom (known : Table String BlockStatus)
    (events : List (UInt64 × Event)) :
    (classifyFrom known events).Follows
      ((known.missing (blockHashes events)).flatMap blockQuestions) := by
  induction events generalizing known with
  | nil => exact Step.follows_pure _
  | cons first rest ih =>
      obtain ⟨index, event⟩ := first
      show (classifyFrom known ((index, event) :: rest)).Follows
        ((known.missing (event.blockHash :: blockHashes rest)).flatMap blockQuestions)
      cases hfound : known.get? event.blockHash with
      | some block =>
          simp only [classifyFrom, hfound]
          rw [Table.missing_cons_of_get?_eq_some hfound, ← List.append_nil (List.flatMap _ _)]
          exact (ih known).bind fun others => Step.follows_pure _
      | none =>
          simp only [classifyFrom, hfound]
          rw [Table.missing_cons_of_get?_eq_none hfound, List.flatMap_cons,
            ← List.append_nil (List.flatMap _ _)]
          refine (follows_lookUp event.blockHash).bind fun block => ?_
          -- which blocks are missing then does not depend on what was said about this one
          rw [← Table.missing_put known event.blockHash block]
          exact (ih (known.put event.blockHash block)).bind fun others => Step.follows_pure _

/-! ## Chains -/

/-- The question about the height of a chain. -/
def heightQuestion (chain : UInt32 × UInt32) : NodeQuery := .height chain.1 chain.2

/-- The chains of classified events. -/
def chains (events : List ClassifiedEvent) : List (UInt32 × UInt32) :=
  events.map fun e => e.header.chain

/-- Heights are asked for the chains that are missing in the table. -/
theorem follows_heightsFrom (known : Heights) (events : List ClassifiedEvent) :
    (heightsFrom known events).Follows ((known.missing (chains events)).map heightQuestion) := by
  induction events generalizing known with
  | nil => exact Step.follows_pure _
  | cons first rest ih =>
      show (heightsFrom known (first :: rest)).Follows
        ((known.missing (first.header.chain :: chains rest)).map heightQuestion)
      cases hfound : known.get? first.header.chain with
      | some height =>
          simp only [heightsFrom, hfound]
          rw [Table.missing_cons_of_get?_eq_some hfound]
          exact ih known
      | none =>
          simp only [heightsFrom, hfound]
          rw [Table.missing_cons_of_get?_eq_none hfound]
          refine (Step.follows_node (heightQuestion first.header.chain)).bind fun height => ?_
          rw [← Table.missing_put known first.header.chain height]
          exact ih (known.put first.header.chain height)

/-! ## No repetitions -/

/-- No entry occurs twice when repetitions are left out. -/
theorem nodup_eraseDups {α : Type} [BEq α] [LawfulBEq α] (l : List α) : l.eraseDups.Nodup := by
  match l with
  | [] => exact List.nodup_nil
  | a :: rest =>
      rw [List.eraseDups_cons, List.nodup_cons, List.mem_eraseDups, List.mem_filter]
      exact ⟨fun h => by simp at h, nodup_eraseDups (rest.filter fun b => !b == a)⟩
termination_by l.length
decreasing_by
  exact Nat.lt_succ_of_le (List.length_filter_le _ rest)

/-- Different blocks are asked about by different questions. -/
theorem nodup_flatMap_blockQuestions {hashes : List String} (h : hashes.Nodup) :
    (hashes.flatMap blockQuestions).Nodup := by
  refine List.pairwise_flatMap.mpr ⟨fun hash _ => ?_, h.imp fun {hash other} hne => ?_⟩
  · simp [blockQuestions]
  · simp [blockQuestions, hne]

/-- Different chains are asked about by different questions. -/
theorem nodup_map_heightQuestion {cs : List (UInt32 × UInt32)} (h : cs.Nodup) :
    (cs.map heightQuestion).Nodup := by
  refine List.Pairwise.map heightQuestion (fun chain other hne heq => hne ?_) h
  injection heq with hfrom hto
  exact Prod.ext hfrom hto

/-! ## Fixed answers -/

/-- All that was said is what a node with fixed answers says. -/
def SaidBy (node : (q : NodeQuery) → Except WatchFailure q.Result)
    (t : Transcript Surroundings) : Prop :=
  ∀ (q : NodeQuery) (answer : Except WatchFailure q.Result), ⟨.node q, answer⟩ ∈ t →
    answer = node q

section Fixed

variable {node : (q : NodeQuery) → Except WatchFailure q.Result} {α β : Type}

/-- A step comes to one result if the node's answers are fixed. -/
def Step.ComesTo (node : (q : NodeQuery) → Except WatchFailure q.Result) (step : Step α)
    (fixed : Except WatchFailure α) : Prop :=
  ∀ (t : Transcript Surroundings) (result : Except WatchFailure α),
    Yields step.run t result → SaidBy node t → result = fixed

namespace Step

theorem comesTo_pure (value : α) : ComesTo node (pure value) (.ok value) :=
  fun _ _ h _ => (yields_done_iff.mp h).2

theorem comesTo_node (q : NodeQuery) : ComesTo node (Step.node q) (node q) := by
  intro t result h hsaid
  obtain rfl := yields_node_iff.mp h
  exact hsaid q result List.mem_cons_self

/-- Steps in sequence come to their results in sequence. -/
theorem ComesTo.bind {step : Step α} {next : α → Step β} {fixed : Except WatchFailure α}
    {others : α → Except WatchFailure β} (h : ComesTo node step fixed)
    (hnext : ∀ value, fixed = .ok value → ComesTo node (next value) (others value)) :
    ComesTo node (step >>= next) (fixed >>= others) := by
  intro t result hyields hsaid
  rcases yields_bindExcept_iff.mp hyields with ⟨fault, h₁, rfl⟩ | ⟨value, t₁, t₂, rfl, h₁, h₂⟩
  · rw [← h t _ h₁ hsaid]
    rfl
  · have hfirst := h t₁ _ h₁ fun q answer hmem => hsaid q answer (List.mem_append_left t₂ hmem)
    rw [← hfirst]
    exact hnext value hfirst.symm t₂ result h₂ fun q answer hmem =>
      hsaid q answer (List.mem_append_right t₁ hmem)

end Step

/-- What the node says about a block. -/
def blockSaid (node : (q : NodeQuery) → Except WatchFailure q.Result) (hash : String) :
    Except WatchFailure BlockStatus := do
  let header ← node (.header hash)
  let isCanonical ← node (.isInMainChain hash)
  return ⟨header, isCanonical⟩

/-- An event with what the node says about its block. -/
def classifiedAlone (node : (q : NodeQuery) → Except WatchFailure q.Result)
    (e : UInt64 × Event) : Except WatchFailure ClassifiedEvent := do
  let block ← blockSaid node e.2.blockHash
  return ⟨e.1, e.2, block.header, block.isCanonical⟩

theorem comesTo_lookUp (hash : String) : Step.ComesTo node (lookUp hash) (blockSaid node hash) :=
  (Step.comesTo_node _).bind fun _ _ => (Step.comesTo_node _).bind fun _ _ => Step.comesTo_pure _

/-- The table has nothing that the node would not say again. -/
def IsSaidBy (node : (q : NodeQuery) → Except WatchFailure q.Result)
    (known : Table String BlockStatus) : Prop :=
  ∀ hash block, known.get? hash = some block → blockSaid node hash = .ok block

/-- A block that the node tells about can be kept. -/
theorem IsSaidBy.put {known : Table String BlockStatus} (h : IsSaidBy node known)
    {hash : String} {block : BlockStatus} (hblock : blockSaid node hash = .ok block) :
    IsSaidBy node (known.put hash block) := by
  intro other found hfound
  rw [Table.get?_put] at hfound
  by_cases heq : hash = other
  · rw [if_pos heq] at hfound
    cases hfound
    rwa [← heq]
  · rw [if_neg heq] at hfound
    exact h other found hfound

/-- A classification comes to what looking up each event comes to. -/
theorem comesTo_classifyFrom {known : Table String BlockStatus} (hknown : IsSaidBy node known)
    (events : List (UInt64 × Event)) :
    Step.ComesTo node (classifyFrom known events) (events.mapM (classifiedAlone node)) := by
  induction events generalizing known with
  | nil => exact Step.comesTo_pure _
  | cons first rest ih =>
      obtain ⟨index, event⟩ := first
      rw [List.mapM_cons]
      cases hfound : known.get? event.blockHash with
      | some block =>
          have hfirst : classifiedAlone node (index, event)
              = .ok ⟨index, event, block.header, block.isCanonical⟩ := by
            rw [classifiedAlone, hknown _ _ hfound]
            rfl
          simp only [classifyFrom, hfound]
          rw [hfirst]
          exact (ih hknown).bind fun others _ => Step.comesTo_pure _
      | none =>
          simp only [classifyFrom, hfound]
          rw [classifiedAlone, bind_assoc]
          refine (comesTo_lookUp event.blockHash).bind fun block hblock => ?_
          exact (ih (hknown.put hblock)).bind fun others _ => Step.comesTo_pure _

end Fixed

/-! ## Surveys -/

/-- Classification of events by a talk about each of their blocks. -/
structure IsClassification (events : List (UInt64 × Event)) (t : Transcript Surroundings)
    (result : Except WatchFailure (List ClassifiedEvent)) : Prop where
  /-- Every block is asked about where it occurs first, up to a failure. -/
  inOrder : PutInOrder ((blockHashes events).eraseDups.flatMap blockQuestions) t (fault? result)
  once : (t.map Exchange.query).Nodup
  kept : ∀ classified, result = .ok classified →
    classified.map (fun e => (e.index, e.event)) = events
  /-- An event has what was said about its own block. -/
  said : ∀ classified, result = .ok classified → ∀ e ∈ classified,
    answered (.header e.event.blockHash) e.header ∈ t ∧
      answered (.isInMainChain e.event.blockHash) e.isCanonical ∈ t
  /-- With fixed answers each event might have been looked up on its own. -/
  alone : ∀ node, SaidBy node t → result = events.mapM (classifiedAlone node)

/-- The heights of the chains of classified events by a talk about each. -/
structure IsSurvey (minConfirmations : UInt64) (events : List ClassifiedEvent)
    (t : Transcript Surroundings) (result : Except WatchFailure Heights) : Prop where
  unneeded : minConfirmations = 0 → t = [] ∧ result = .ok []
  /-- Every chain is asked about where it occurs first, up to a failure. -/
  inOrder : minConfirmations ≠ 0 →
    PutInOrder ((chains events).eraseDups.map heightQuestion) t (fault? result)
  once : (t.map Exchange.query).Nodup
  /-- An event finds what was said about its own chain. -/
  found : minConfirmations ≠ 0 → ∀ heights, result = .ok heights → ∀ e ∈ events,
    ∃ height, heights.get? e.header.chain = some height ∧
      answered (heightQuestion e.header.chain) height ∈ t

theorem isClassification_of_yields {events : List (UInt64 × Event)}
    {t : Transcript Surroundings} {result : Except WatchFailure (List ClassifiedEvent)}
    (h : Yields (classify events).run t result) : IsClassification events t result := by
  have horder : PutInOrder ((blockHashes events).eraseDups.flatMap blockQuestions) t
      (fault? result) := by
    rw [← Table.missing_nil (α := BlockStatus)]
    exact follows_classifyFrom [] events t result h
  have hclassified : ∀ classified, result = .ok classified →
      classified.map (fun e => (e.index, e.event)) = events ∧
        ∀ e ∈ classified, IsClassifiedBy t e := by
    rintro classified rfl
    exact yields_classifyFrom_ok knowsBlocks_nil h
  refine ⟨horder, ?_, fun classified hok => (hclassified classified hok).1, ?_, ?_⟩
  · exact horder.nodup_asked (nodup_flatMap_blockQuestions (nodup_eraseDups _))
  · intro classified hok e he
    have hsaid := (hclassified classified hok).2 e he
    exact ⟨answered_mem_of_firstReply? hsaid.header,
      answered_mem_of_firstReply? hsaid.isCanonical⟩
  · intro node hsaid
    have hnothing : IsSaidBy node [] := fun hash block hfound => nomatch hfound
    exact comesTo_classifyFrom hnothing events t result h hsaid

theorem isSurvey_of_yields {minConfirmations : UInt64} {events : List ClassifiedEvent}
    {t : Transcript Surroundings} {result : Except WatchFailure Heights}
    (h : Yields (currentHeights minConfirmations events).run t result) :
    IsSurvey minConfirmations events t result := by
  unfold currentHeights at h
  by_cases hzero : minConfirmations = 0
  · rw [if_pos hzero] at h
    obtain ⟨rfl, rfl⟩ := yields_done_iff.mp h
    exact ⟨fun _ => ⟨rfl, rfl⟩, fun hne => absurd hzero hne, List.nodup_nil,
      fun hne => absurd hzero hne⟩
  · rw [if_neg hzero] at h
    have horder : PutInOrder ((chains events).eraseDups.map heightQuestion) t
        (fault? result) := by
      rw [← Table.missing_nil (α := UInt64)]
      exact follows_heightsFrom [] events t result h
    refine ⟨fun heq => absurd heq hzero, fun _ => horder, ?_, fun _ => ?_⟩
    · exact horder.nodup_asked (nodup_map_heightQuestion (nodup_eraseDups _))
    · rintro heights rfl e he
      have hnothing : KnowsHeights [] [] := fun _ => rfl
      obtain ⟨hheights, hall⟩ := yields_heightsFrom_ok hnothing h
      obtain ⟨height, hheight⟩ := hall e he
      refine ⟨height, hheight, answered_mem_of_firstReply? ?_⟩
      exact (hheights e.header.chain).trans hheight

/-- Whatever the node answers, a classification asks about each block once
    and comes to what looking up each event comes to; and heights are asked
    for once for each chain, if any are needed. -/
theorem shared_lookups_are_own_lookups {σ : Type}
    (answer : σ → (q : Surroundings.Query) → q.Answer × σ) (s : σ) :
    (∀ events, IsClassification events
        (@transcript Surroundings _ _ answer (classify events).outcome s)
        (@run Surroundings _ _ answer (classify events).outcome s).1) ∧
      ∀ minConfirmations events, IsSurvey minConfirmations events
        (@transcript Surroundings _ _ answer (currentHeights minConfirmations events).outcome s)
        (@run Surroundings _ _ answer (currentHeights minConfirmations events).outcome s).1 := by
  constructor
  · intro events
    exact isClassification_of_yields (@yields_transcript Surroundings _ _ answer _ s)
  · intro minConfirmations events
    exact isSurvey_of_yields (@yields_transcript Surroundings _ _ answer _ s)

/-- Events of two blocks, with those of the first around the other. -/
def interleaved : List (UInt64 × Event) :=
  [(5, ⟨"a", "bridge", "first", 0, []⟩), (6, ⟨"b", "bridge", "second", 0, []⟩),
    (7, ⟨"a", "bridge", "third", 1, []⟩)]

/-- A node with fixed answers: the block `b` is an orphan. -/
def orphanNode : (q : NodeQuery) → Except WatchFailure q.Result
  | .eventCount _ => .ok 8
  | .events _ _ _ => .ok []
  | .header hash => .ok ⟨hash, 0, 1, 2, if hash = "a" then 30 else 31⟩
  | .isInMainChain hash => .ok (hash ≠ "b")
  | .height _ _ => .ok 40

/-- Surroundings with this node. -/
def orphanWorld : (q : Surroundings.Query) → q.Answer
  | .readIndex _ => .ok none
  | .writeIndex _ _ => .ok ()
  | .node q => orphanNode q
  | .deliver _ => .ok ()
  | .pause _ => .cancelled
  | .record _ => ()

/-- The first block is asked about once for both of its events. -/
theorem interleaved_events_share_a_block :
    (Program.run (I := Surroundings) (fun (s : Unit) q => (orphanWorld q, s))
        (classify interleaved).outcome ()).1 = interleaved.mapM (classifiedAlone orphanNode) ∧
      (Program.asked (I := Surroundings) (fun (s : Unit) q => (orphanWorld q, s))
        (classify interleaved).outcome ()) =
        [.node (.header "a"), .node (.isInMainChain "a"), .node (.header "b"),
          .node (.isInMainChain "b")] := by
  refine ⟨?_, rfl⟩
  refine ((shared_lookups_are_own_lookups (fun (s : Unit) q => (orphanWorld q, s)) ()).1
    interleaved).alone orphanNode fun q answer hmem => ?_
  exact answer_of_mem_transcript (I := Surroundings) orphanWorld hmem

end BridgeGuardian.Watch
