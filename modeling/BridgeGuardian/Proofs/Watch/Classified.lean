import BridgeGuardian.Proofs.Watch.Talk

/-! # Classified events — what the node said about their blocks

    While events are classified, the table of known blocks is exactly what
    the node has answered so far: a block is in the table if and only if it
    has been asked about, and the table has the first answers.  The same
    holds of the table of heights.  So whether an event is final is decided
    by the first answers of the talk about its batch, however many events
    share a block or a chain. -/

namespace BridgeGuardian.Watch

open Program

/-! ## Blocks -/

/-- Ask about one block. -/
def Surroundings.Query.IsLookUp : Surroundings.Query → Prop
  | .node (.header _) | .node (.isInMainChain _) => True
  | _ => False

/-- Asking about one block is asking about blocks. -/
theorem Surroundings.Query.IsLookUp.isAboutBlocks {q : Surroundings.Query} (h : q.IsLookUp) :
    q.IsAboutBlocks := by
  cases q with
  | node asked =>
      cases asked with
      | header | isInMainChain => trivial
      | eventCount | events | height => cases h
  | readIndex | writeIndex | deliver | pause | record => cases h

/-- The questions about a block with their answers. -/
def blockTalk (hash : String) (block : BlockStatus) : Transcript Surroundings :=
  [answered (.header hash) block.header, answered (.isInMainChain hash) block.isCanonical]

/-- A block is asked about twice: for its header, then for its chain. -/
theorem yields_lookUp_ok {hash : String} {t : Transcript Surroundings} {block : BlockStatus}
    (h : Yields (lookUp hash).run t (.ok block)) : t = blockTalk hash block := by
  obtain ⟨header, t₁, t₂, rfl, h₁, h₂⟩ := yields_bindExcept_ok_iff.mp h
  obtain ⟨isCanonical, t₃, t₄, rfl, h₃, h₄⟩ := yields_bindExcept_ok_iff.mp h₂
  obtain rfl := Step.yields_node_iff.mp h₁
  obtain rfl := Step.yields_node_iff.mp h₃
  obtain ⟨rfl, hblock⟩ := yields_done_iff.mp h₄
  cases hblock
  rfl

theorem onlyAsks_lookUp (hash : String) :
    (lookUp hash).run.OnlyAsks Surroundings.Query.IsLookUp := by
  refine onlyAsks_bindExcept (Step.onlyAsks_node trivial) fun header => ?_
  exact onlyAsks_bindExcept (Step.onlyAsks_node trivial) fun isCanonical => trivial

theorem firstReply?_header_blockTalk (hash other : String) (block : BlockStatus) :
    firstReply? (.header other) (blockTalk hash block)
      = if hash = other then some block.header else none := by
  by_cases heq : hash = other
  · subst heq
    rw [if_pos rfl]
    simp only [firstReply?, blockTalk, List.findSome?_cons, reply?_answered]
  · rw [if_neg heq]
    refine firstReply?_eq_none ?_
    intro e he hquery
    simp only [blockTalk, List.mem_cons, List.not_mem_nil, or_false] at he
    rcases he with rfl | rfl
    · cases hquery
      exact heq rfl
    · cases hquery

theorem firstReply?_isInMainChain_blockTalk (hash other : String) (block : BlockStatus) :
    firstReply? (.isInMainChain other) (blockTalk hash block)
      = if hash = other then some block.isCanonical else none := by
  have hfirst : reply? (.isInMainChain other) (answered (.header hash) block.header) = none :=
    reply?_answered_ne _ (by intro h; cases h)
  by_cases heq : hash = other
  · subst heq
    rw [if_pos rfl]
    simp only [firstReply?, blockTalk, List.findSome?_cons, hfirst, reply?_answered]
  · have hne : NodeQuery.isInMainChain hash ≠ .isInMainChain other := by
      intro h
      cases h
      exact heq rfl
    rw [if_neg heq]
    simp only [firstReply?, blockTalk, List.findSome?_cons, hfirst, reply?_answered_ne _ hne,
      List.findSome?_nil]

/-- The table has the first answers about every block that was asked
    about, and no other. -/
def KnowsBlocks (known : Table String BlockStatus) (t : Transcript Surroundings) : Prop :=
  ∀ hash, firstReply? (.header hash) t = (known.get? hash).map BlockStatus.header ∧
    firstReply? (.isInMainChain hash) t = (known.get? hash).map BlockStatus.isCanonical

/-- Nothing is known before anything is asked. -/
theorem knowsBlocks_nil : KnowsBlocks [] [] := fun _ => ⟨rfl, rfl⟩

/-- A block that is looked up becomes known. -/
theorem KnowsBlocks.put {known : Table String BlockStatus} {t : Transcript Surroundings}
    {hash : String} (h : KnowsBlocks known t) (hnew : known.get? hash = none)
    (block : BlockStatus) :
    KnowsBlocks (known.put hash block) (t ++ blockTalk hash block) := by
  intro other
  obtain ⟨hheader, hchain⟩ := h other
  rw [firstReply?_append, firstReply?_append, hheader, hchain, firstReply?_header_blockTalk,
    firstReply?_isInMainChain_blockTalk, Table.get?_put]
  by_cases heq : hash = other
  · subst heq
    rw [hnew, if_pos rfl, if_pos rfl, if_pos rfl]
    exact ⟨rfl, rfl⟩
  · rw [if_neg heq, if_neg heq, if_neg heq, Option.or_none, Option.or_none]
    exact ⟨rfl, rfl⟩

/-- An answer stays the first one whatever is said later. -/
theorem firstReply?_append_of_eq_some {q : NodeQuery} {t : Transcript Surroundings}
    {answer : q.Result} (h : firstReply? q t = some answer) (t' : Transcript Surroundings) :
    firstReply? q (t ++ t') = some answer := by
  rw [firstReply?_append, h]
  rfl

/-- Whether a block is reported in the main chain, if that was asked. -/
def canonicalBy? (t : Transcript Surroundings) (event : Event) : Option Bool :=
  firstReply? (.isInMainChain event.blockHash) t

/-- An event is classified by what was said about its block. -/
structure IsClassifiedBy (t : Transcript Surroundings) (e : ClassifiedEvent) : Prop where
  header : firstReply? (.header e.event.blockHash) t = some e.header
  isCanonical : canonicalBy? t e.event = some e.isCanonical

/-- What is said later does not change a classification. -/
theorem IsClassifiedBy.append {t : Transcript Surroundings} {e : ClassifiedEvent}
    (h : IsClassifiedBy t e) (t' : Transcript Surroundings) : IsClassifiedBy (t ++ t') e :=
  ⟨firstReply?_append_of_eq_some h.header t', firstReply?_append_of_eq_some h.isCanonical t'⟩

/-- What is known about a block classifies its events. -/
theorem KnowsBlocks.isClassifiedBy {known : Table String BlockStatus}
    {t : Transcript Surroundings} (h : KnowsBlocks known t) {event : Event} {block : BlockStatus}
    (hfound : known.get? event.blockHash = some block) (index : UInt64) :
    IsClassifiedBy t ⟨index, event, block.header, block.isCanonical⟩ := by
  obtain ⟨hheader, hchain⟩ := h event.blockHash
  rw [hfound] at hheader hchain
  exact ⟨hheader, hchain⟩

/-- Classification keeps the events and their order, and classifies each by
    what was said about its block. -/
theorem yields_classifyFrom_ok {known : Table String BlockStatus}
    {earlier t : Transcript Surroundings} {events : List (UInt64 × Event)}
    {classified : List ClassifiedEvent} (hknown : KnowsBlocks known earlier)
    (h : Yields (classifyFrom known events).run t (.ok classified)) :
    classified.map (fun e => (e.index, e.event)) = events ∧
      ∀ e ∈ classified, IsClassifiedBy (earlier ++ t) e := by
  induction events generalizing known earlier t classified with
  | nil =>
      obtain ⟨rfl, hclassified⟩ := yields_done_iff.mp h
      cases hclassified
      exact ⟨rfl, fun e he => absurd he List.not_mem_nil⟩
  | cons first rest ih =>
      obtain ⟨index, event⟩ := first
      cases hfound : known.get? event.blockHash with
      | some block =>
          -- a known block is not asked about again
          simp only [classifyFrom, hfound] at h
          obtain ⟨others, t₁, t₂, rfl, h₁, h₂⟩ := yields_bindExcept_ok_iff.mp h
          obtain ⟨rfl, hclassified⟩ := yields_done_iff.mp h₂
          cases hclassified
          obtain ⟨hpairs, hothers⟩ := ih hknown h₁
          rw [List.append_nil]
          refine ⟨congrArg ((index, event) :: ·) hpairs, ?_⟩
          intro e he
          rcases List.mem_cons.mp he with rfl | hmem
          · exact (hknown.isClassifiedBy hfound index).append t₁
          · exact hothers e hmem
      | none =>
          simp only [classifyFrom, hfound] at h
          obtain ⟨block, t₁, t₂, rfl, h₁, h₂⟩ := yields_bindExcept_ok_iff.mp h
          obtain ⟨others, t₃, t₄, rfl, h₃, h₄⟩ := yields_bindExcept_ok_iff.mp h₂
          obtain rfl := yields_lookUp_ok h₁
          obtain ⟨rfl, hclassified⟩ := yields_done_iff.mp h₄
          cases hclassified
          -- what was asked first classifies the event, and all later ones of its block
          have hput := hknown.put hfound block
          obtain ⟨hpairs, hothers⟩ := ih hput h₃
          rw [List.append_nil, ← List.append_assoc]
          refine ⟨congrArg ((index, event) :: ·) hpairs, ?_⟩
          intro e he
          rcases List.mem_cons.mp he with rfl | hmem
          · have hnow : (known.put event.blockHash block).get? event.blockHash = some block := by
              rw [Table.get?_put, if_pos rfl]
            exact (hput.isClassifiedBy hnow index).append t₃
          · exact hothers e hmem

/-- Classification asks about blocks. -/
theorem onlyAsks_classifyFrom (known : Table String BlockStatus)
    (events : List (UInt64 × Event)) :
    (classifyFrom known events).run.OnlyAsks Surroundings.Query.IsLookUp := by
  induction events generalizing known with
  | nil => trivial
  | cons first rest ih =>
      obtain ⟨index, event⟩ := first
      rw [classifyFrom]
      split
      · exact onlyAsks_bindExcept (ih known) fun others => trivial
      · refine onlyAsks_bindExcept (onlyAsks_lookUp _) fun block => ?_
        exact onlyAsks_bindExcept (ih _) fun others => trivial

/-! ## Heights -/

/-- The table has the first answer about the height of every chain that
    was asked about, and no other. -/
def KnowsHeights (known : Heights) (t : Transcript Surroundings) : Prop :=
  ∀ chain : UInt32 × UInt32, firstReply? (.height chain.1 chain.2) t = known.get? chain

/-- Asking about blocks tells no height. -/
theorem knowsHeights_of_isLookUp {t : Transcript Surroundings}
    (h : ∀ e ∈ t, e.query.IsLookUp) : KnowsHeights [] t := by
  intro chain
  refine firstReply?_eq_none ?_
  intro e he hquery
  have hlookUp := h e he
  rw [hquery] at hlookUp
  cases hlookUp

/-- A height that is asked for becomes known. -/
theorem KnowsHeights.put {known : Heights} {t : Transcript Surroundings}
    {chain : UInt32 × UInt32} (h : KnowsHeights known t) (hnew : known.get? chain = none)
    (height : UInt64) :
    KnowsHeights (known.put chain height) (t ++ [answered (.height chain.1 chain.2) height]) := by
  intro other
  rw [firstReply?_append, h other, Table.get?_put]
  by_cases heq : chain = other
  · subst heq
    rw [hnew, if_pos rfl]
    simp only [firstReply?, List.findSome?_cons, reply?_answered, Option.none_or]
  · have hne : NodeQuery.height chain.1 chain.2 ≠ .height other.1 other.2 := by
      intro hsame
      injection hsame with hfrom hto
      exact heq (Prod.ext hfrom hto)
    rw [if_neg heq]
    simp only [firstReply?, List.findSome?_cons, reply?_answered_ne _ hne, List.findSome?_nil,
      Option.or_none]

/-- Every chain of the events gets its height. -/
theorem yields_heightsFrom_ok {known heights : Heights} {earlier t : Transcript Surroundings}
    {events : List ClassifiedEvent} (hknown : KnowsHeights known earlier)
    (h : Yields (heightsFrom known events).run t (.ok heights)) :
    KnowsHeights heights (earlier ++ t) ∧
      ∀ e ∈ events, ∃ current, heights.get? e.header.chain = some current := by
  induction events generalizing known earlier t with
  | nil =>
      obtain ⟨rfl, hheights⟩ := yields_done_iff.mp h
      cases hheights
      rw [List.append_nil]
      exact ⟨hknown, fun e he => absurd he List.not_mem_nil⟩
  | cons first rest ih =>
      cases hfound : known.get? first.header.chain with
      | some height =>
          simp only [heightsFrom, hfound] at h
          obtain ⟨hheights, hothers⟩ := ih hknown h
          refine ⟨hheights, ?_⟩
          intro e he
          rcases List.mem_cons.mp he with rfl | hmem
          · have hearlier := hknown e.header.chain
            rw [hfound] at hearlier
            exact ⟨height, (hheights _).symm.trans (firstReply?_append_of_eq_some hearlier t)⟩
          · exact hothers e hmem
      | none =>
          simp only [heightsFrom, hfound] at h
          obtain ⟨height, t₁, t₂, rfl, h₁, h₂⟩ := yields_bindExcept_ok_iff.mp h
          obtain rfl := Step.yields_node_iff.mp h₁
          have hput := hknown.put hfound height
          obtain ⟨hheights, hothers⟩ := ih hput h₂
          rw [← List.append_assoc]
          refine ⟨hheights, ?_⟩
          intro e he
          rcases List.mem_cons.mp he with rfl | hmem
          · have hnow := hput e.header.chain
            rw [Table.get?_put, if_pos rfl] at hnow
            exact ⟨height, (hheights _).symm.trans (firstReply?_append_of_eq_some hnow t₂)⟩
          · exact hothers e hmem

/-- Heights are asked for. -/
theorem onlyAsks_heightsFrom (known : Heights) (events : List ClassifiedEvent) :
    (heightsFrom known events).run.OnlyAsks Surroundings.Query.IsAboutBlocks := by
  induction events generalizing known with
  | nil => trivial
  | cons first rest ih =>
      rw [heightsFrom]
      split
      · exact ih known
      · exact onlyAsks_bindExcept (Step.onlyAsks_node trivial) fun height => ih _

/-- Asking for the heights that matter is asking about blocks. -/
theorem onlyAsks_currentHeights (minConfirmations : UInt64) (events : List ClassifiedEvent) :
    (currentHeights minConfirmations events).run.OnlyAsks Surroundings.Query.IsAboutBlocks := by
  unfold currentHeights
  split
  · trivial
  · exact onlyAsks_heightsFrom [] events

/-! ## Finality -/

/-- Whether the block of an event was settled by what was said: no blocks
    on top are needed, or the height of its chain exceeds its own by as many
    as needed. -/
def settledBy? (minConfirmations : UInt64) (t : Transcript Surroundings) (event : Event) :
    Option Bool :=
  if minConfirmations = 0 then some true
  else do
    let header ← firstReply? (.header event.blockHash) t
    let current ← firstReply? (.height header.chainFrom header.chainTo) t
    return decide (minConfirmations.toNat ≤ current.toNat - header.height.toNat)

/-- An event is judged by what was said about its block and its chain. -/
structure IsJudgedBy (minConfirmations : UInt64) (heights : Heights)
    (t : Transcript Surroundings) (e : ClassifiedEvent) : Prop where
  isFinal : settledBy? minConfirmations t e.event = some (e.isFinal minConfirmations heights)
  isCanonical : canonicalBy? t e.event = some e.isCanonical

/-- With the heights that were asked for, classified events are judged. -/
theorem isJudgedBy_of_currentHeights {minConfirmations : UInt64} {heights : Heights}
    {earlier t : Transcript Surroundings} {events : List ClassifiedEvent}
    (hearlier : ∀ e ∈ earlier, e.query.IsLookUp)
    (hclassified : ∀ e ∈ events, IsClassifiedBy earlier e)
    (h : Yields (currentHeights minConfirmations events).run t (.ok heights))
    (later : Transcript Surroundings) :
    ∀ e ∈ events, IsJudgedBy minConfirmations heights (earlier ++ t ++ later) e := by
  intro e he
  have hsaid := ((hclassified e he).append t).append later
  refine ⟨?_, hsaid.isCanonical⟩
  unfold currentHeights at h
  unfold settledBy? ClassifiedEvent.isFinal
  by_cases hzero : minConfirmations = 0
  · rw [if_pos hzero] at h ⊢
    obtain ⟨-, hheights⟩ := yields_done_iff.mp h
    cases hheights
    rw [Table.get?_nil]
    exact congrArg some (decide_eq_true hzero).symm
  · -- looking up blocks tells no height, so the first answer is one of those asked for here
    rw [if_neg hzero] at h ⊢
    obtain ⟨hheights, hall⟩ := yields_heightsFrom_ok (knowsHeights_of_isLookUp hearlier) h
    obtain ⟨current, hcurrent⟩ := hall e he
    have hreply : firstReply? (.height e.header.chainFrom e.header.chainTo)
        (earlier ++ t ++ later) = some current :=
      firstReply?_append_of_eq_some ((hheights e.header.chain).trans hcurrent) later
    rw [hsaid.header, hcurrent]
    show (firstReply? (.height e.header.chainFrom e.header.chainTo) (earlier ++ t ++ later)).bind
      _ = _
    rw [hreply]
    rfl

end BridgeGuardian.Watch
