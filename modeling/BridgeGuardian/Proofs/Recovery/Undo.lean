import BridgeGuardian.Proofs.Intake
import BridgeGuardian.Proofs.Work
import BridgeGuardian.Recovery.Undo

/-! # Undoing a transfer in transcripts — what is asked, and what comes of it

    A reconstruction has two parts.  `prepare` gathers everything the
    message is made of and only reads from storage; `issue` claims the
    transfer, which is the one write, and builds the message.  So the
    transcript of a reconstruction holds at most one claim, and its answer
    decides the outcome: `undoTransfer_cases` says everything that
    `undoTransfer` can do. -/

namespace BridgeGuardian

open Program

/-! ## Asking peers -/

namespace Backfill

variable {asks : Surroundings.Query → Prop} {c : Coordinate}

/-- Asking peers for a message is fetching it, reporting and handing over. -/
theorem onlyAsks_tryPeers (hfetch : ∀ peer deadline, asks (.fetch (address peer c) deadline))
    (hrecord : ∀ m, asks (.record m)) (hsubmit : ∀ message, asks (.submit message))
    (deadline : Nat) (peers : List String) :
    (tryPeers c deadline peers).run.OnlyAsks asks := by
  induction peers with
  | nil => trivial
  | cons peer others ih =>
      refine onlyAsks_bindExcept (onlyAsks_lift ⟨hfetch _ _, fun _ => trivial⟩) ?_
      intro reply
      cases PeerVerdict.ofReply c reply with
      | serving message =>
          refine onlyAsks_bindExcept (Work.onlyAsks_record (hrecord _)) fun _ => ?_
          exact onlyAsks_bindExcept (Work.onlyAsks_submit (hsubmit message)) fun _ => trivial
      | missing => exact onlyAsks_bindExcept (Work.onlyAsks_record (hrecord _)) fun _ => ih
      | failing => exact onlyAsks_bindExcept (Work.onlyAsks_record (hrecord _)) fun _ => ih
      | violating reason =>
          exact onlyAsks_bindExcept (Work.onlyAsks_record (hrecord _)) fun _ => trivial
      | cancelled => trivial

/-- A backfill asks for an order and the time, and then peers. -/
theorem onlyAsks_fetch (horder : ∀ peers, asks (.peerOrder peers)) (hnow : asks .now)
    (hfetch : ∀ peer deadline, asks (.fetch (address peer c) deadline))
    (hrecord : ∀ m, asks (.record m)) (hsubmit : ∀ message, asks (.submit message))
    (timeout : UInt64) (peers : List String) : (fetch timeout peers c).run.OnlyAsks asks := by
  refine onlyAsks_bindExcept (onlyAsks_lift ⟨horder peers, fun _ => trivial⟩) fun order => ?_
  refine onlyAsks_bindExcept (onlyAsks_lift ⟨hnow, fun _ => trivial⟩) fun start => ?_
  exact onlyAsks_tryPeers hfetch hrecord hsubmit (start + timeout.toNat) order

/-- A backfill does not look at storage. -/
theorem leavesStorage_fetch (timeout : UInt64) (peers : List String) (c : Coordinate) :
    (fetch timeout peers c).run.OnlyAsks Surroundings.Query.LeavesStorage :=
  onlyAsks_fetch (fun _ => trivial) trivial (fun _ _ => trivial) (fun _ => trivial)
    (fun _ => trivial) timeout peers

end Backfill

namespace Recovery

variable {s : Settings} {peers : List String} {c : Coordinate}

/-! ## Loading the signed transfer -/

/-- Loading looks at storage, and may ask peers and wait. -/
theorem onlyAsks_loadVaa_of {asks : Surroundings.Query → Prop}
    (hvaa : asks (.store (.vaa c))) (hpause : ∀ milliseconds, asks (.pause milliseconds))
    (hfetch : (Backfill.fetch s.backfillTimeout peers c).run.OnlyAsks asks) :
    (loadVaa s peers c).run.OnlyAsks asks := by
  refine onlyAsks_bindExcept (Work.onlyAsks_store hvaa) fun found => ?_
  match found with
  | some bytes => trivial
  | none =>
      refine onlyAsks_bindExcept hfetch fun found => ?_
      cases found with
      | true =>
          have hwait : (Surroundings.ask (.pause s.polling.interval)).OnlyAsks asks :=
            ⟨hpause _, fun _ => trivial⟩
          have hcheck : (Work.store (.vaa c)).outcome.OnlyAsks asks := Work.onlyAsks_store hvaa
          exact PollPolicy.onlyAsks_pollFor hwait hcheck _
      | false => trivial

/-- Loading does not write to storage. -/
theorem onlyAsks_loadVaa (s : Settings) (peers : List String) (c : Coordinate) :
    (loadVaa s peers c).run.OnlyAsks Surroundings.Query.OnlyReads :=
  onlyAsks_loadVaa_of rfl (fun _ => trivial)
    ((Backfill.leavesStorage_fetch _ peers c).mono fun _ hq => hq.onlyReads)

/-- The octets that are loaded are what storage answered for the
    coordinate; what a peer served is never used directly. -/
theorem mem_of_yields_loadVaa {t : Transcript Surroundings} {bytes : Bytes}
    (h : Yields (loadVaa s peers c).run t (.ok bytes)) :
    ⟨.store (.vaa c), .ok (some bytes)⟩ ∈ t := by
  obtain ⟨found, t₁, t₂, rfl, h₁, h₂⟩ := yields_bindExcept_ok_iff.mp h
  obtain rfl := Work.yields_store_ok_iff.mp h₁
  match found, h₂ with
  | some stored, h₂ =>
      obtain ⟨rfl, hstored⟩ := yields_done_iff.mp h₂
      cases hstored
      exact List.mem_append_left _ List.mem_cons_self
  | none, h₂ =>
      obtain ⟨isFound, t₃, t₄, rfl, -, h₄⟩ := yields_bindExcept_ok_iff.mp h₂
      cases isFound with
      | true =>
          -- what was submitted is read back from storage by the last check
          obtain ⟨t₅, t₆, rfl, h₆⟩ := PollPolicy.yields_pollFor_ok h₄
          obtain rfl := Work.yields_store_ok_iff.mp h₆
          simp only [List.mem_append]
          exact .inr (.inr (.inr List.mem_cons_self))
      | false => cases (yields_done_iff.mp h₄).2

/-- Once storage has answered with octets for the coordinate, these are what is
    loaded. -/
theorem yields_loadVaa_of_mem {t : Transcript Surroundings} {bytes : Bytes}
    {result : Except Failure Bytes} (h : Yields (loadVaa s peers c).run t result)
    (hmem : ⟨.store (.vaa c), .ok (some bytes)⟩ ∈ t) : result = .ok bytes := by
  rcases yields_bindExcept_iff.mp h with ⟨failure, h₁, rfl⟩ | ⟨found, t₁, t₂, rfl, h₁, h₂⟩
  · obtain ⟨answer, rfl, hanswer⟩ := Work.yields_store_iff.mp h₁
    cases List.mem_singleton.mp hmem
    cases hanswer
  obtain rfl := Work.yields_store_ok_iff.mp h₁
  match found, h₂ with
  | some stored, h₂ =>
      obtain ⟨rfl, rfl⟩ := yields_done_iff.mp h₂
      cases List.mem_singleton.mp hmem
      rfl
  | none, h₂ =>
      have hlater : ⟨.store (.vaa c), .ok (some bytes)⟩ ∈ t₂ :=
        (List.mem_cons.mp hmem).resolve_left nofun
      rcases yields_bindExcept_iff.mp h₂ with ⟨failure, h₃, rfl⟩ | ⟨isFound, t₃, t₄, rfl, h₃, h₄⟩
      · exact (h₃.onlyAsks (Backfill.leavesStorage_fetch _ peers c) _ hlater).elim
      -- it is one of the checks that storage has answered so
      have hcheck : ⟨.store (.vaa c), .ok (some bytes)⟩ ∈ t₄ :=
        (List.mem_append.mp hlater).resolve_left fun hfetched =>
          h₃.onlyAsks (Backfill.leavesStorage_fetch _ peers c) _ hfetched
      cases isFound with
      | false =>
          obtain ⟨rfl, -⟩ := yields_done_iff.mp h₄
          exact absurd hcheck List.not_mem_nil
      | true =>
          refine PollPolicy.yields_pollFor_of_mem h₄ ?_ ?_ hcheck
          · intro t paused hpaused hin
            obtain rfl := yields_query_iff.mp hpaused
            cases List.mem_singleton.mp hin
          · intro t outcome hchecked hin
            obtain ⟨answer, rfl, rfl⟩ := Work.yields_store_iff.mp hchecked
            cases List.mem_singleton.mp hin
            rfl

/-! ## The two parts of a reconstruction -/

/-- Finding the wrapper asks one of the two registries. -/
theorem onlyAsks_findWrapper {asks : Surroundings.Query → Prop} {transfer : Transfer}
    {remoteChain : ChainId} (hlocal : asks (.store (.localWrapper transfer.token remoteChain)))
    (hremote : asks (.store (.remoteWrapper transfer.token))) :
    (findWrapper s transfer remoteChain).run.OnlyAsks asks := by
  unfold findWrapper
  split
  · refine onlyAsks_bindExcept (Work.onlyAsks_store hlocal) fun wrapper => ?_
    match wrapper with
    | some wrapper => trivial
    | none => trivial
  · refine onlyAsks_bindExcept (Work.onlyAsks_store hremote) fun wrapper => ?_
    match wrapper with
    | some wrapper => trivial
    | none => trivial

/-- The failure of a transfer whose token has no wrapper. -/
def noWrapper (transfer : Transfer) (remoteChain : ChainId) : Failure :=
  .notFound (s!"no token wrapper for token {transfer.token.toHex} " ++
    s!"(token chain {transfer.tokenChain}, remote chain {remoteChain})")

/-- What looking up a wrapper comes to, by what storage says. -/
def wrapperResult (transfer : Transfer) (remoteChain : ChainId) :
    Except StoreFault (Option Bytes32) → Except Failure Bytes32
  | .error fault => .error (.internal fault.message)
  | .ok (some wrapper) => .ok wrapper
  | .ok none => .error (noWrapper transfer remoteChain)

theorem wrapperResult_eq_ok_iff {transfer : Transfer} {remoteChain : ChainId}
    {found : Option Bytes32} {wrapper : Bytes32} :
    wrapperResult transfer remoteChain (.ok found) = .ok wrapper ↔ found = some wrapper := by
  cases found with
  | none => simp only [wrapperResult, reduceCtorEq]
  | some other => simp only [wrapperResult, Except.ok.injEq, Option.some.injEq]

theorem wrapperResult_eq_error_iff {transfer : Transfer} {remoteChain : ChainId}
    {found : Option Bytes32} {failure : Failure} :
    wrapperResult transfer remoteChain (.ok found) = .error failure ↔
      found = none ∧ failure = noWrapper transfer remoteChain := by
  cases found with
  | none => simp only [wrapperResult, Except.error.injEq, true_and, eq_comm]
  | some wrapper => simp only [wrapperResult, reduceCtorEq, false_and]

/-- One registry is asked: that of local tokens if the token is local, and
    that of remote tokens otherwise. -/
theorem yields_findWrapper {transfer : Transfer} {remoteChain : ChainId}
    {t : Transcript Surroundings} {result : Except Failure Bytes32}
    (h : Yields (findWrapper s transfer remoteChain).run t result) :
    ∃ answer : Except StoreFault (Option Bytes32),
      ((transfer.tokenChain = s.localChain ∧
          t = [⟨.store (.localWrapper transfer.token remoteChain), answer⟩]) ∨
        (transfer.tokenChain ≠ s.localChain ∧
          t = [⟨.store (.remoteWrapper transfer.token), answer⟩])) ∧
      result = wrapperResult transfer remoteChain answer := by
  unfold findWrapper at h
  by_cases hlocal : transfer.tokenChain = s.localChain
  · rw [if_pos hlocal] at h
    obtain ⟨answer, rfl, hresult⟩ :=
      (yields_ask_done_iff (wrapperResult transfer remoteChain) fun answer => by
        match answer with
        | .error fault => rfl
        | .ok (some wrapper) => rfl
        | .ok none => rfl).mp h
    exact ⟨answer, .inl ⟨hlocal, rfl⟩, hresult⟩
  · rw [if_neg hlocal] at h
    obtain ⟨answer, rfl, hresult⟩ :=
      (yields_ask_done_iff (wrapperResult transfer remoteChain) fun answer => by
        match answer with
        | .error fault => rfl
        | .ok (some wrapper) => rfl
        | .ok none => rfl).mp h
    exact ⟨answer, .inr ⟨hlocal, rfl⟩, hresult⟩

/-- What the message that undoes a transfer is made of. -/
structure Ingredients where
  vaa : Vaa
  transfer : Transfer
  wrapper : Bytes32

/-- Everything up to the claim. -/
def prepare (s : Settings) (peers : List String) (c : Coordinate) : Work Ingredients := do
  let bytes ← loadVaa s peers c
  let vaa ← Work.ofExcept (Vaa.parseOrFail bytes)
  let transfer ← Work.ofExcept (Transfer.decodeOrFail vaa.payload)
  let wrapper ← findWrapper s transfer c.chain
  Work.checkCancelled
  return ⟨vaa, transfer, wrapper⟩

/-- Everything between loading and claiming. -/
def gather (s : Settings) (c : Coordinate) (bytes : Bytes) : Work Ingredients := do
  let vaa ← Work.ofExcept (Vaa.parseOrFail bytes)
  let transfer ← Work.ofExcept (Transfer.decodeOrFail vaa.payload)
  let wrapper ← findWrapper s transfer c.chain
  Work.checkCancelled
  return ⟨vaa, transfer, wrapper⟩

theorem prepare_eq (s : Settings) (peers : List String) (c : Coordinate) :
    prepare s peers c = loadVaa s peers c >>= gather s c :=
  rfl

/-- The order that is built from the ingredients. -/
def Ingredients.order (i : Ingredients) (c : Coordinate) : GovernanceRequest :=
  .undoneTransfer i.vaa.consistencyLevel
    (GovernancePayload.undo i.transfer i.wrapper c.sequence).serialize

/-- The claim and everything behind it. -/
def issue (governanceSequence : UInt64) (c : Coordinate) (i : Ingredients) :
    Work GovernanceMessage := do
  claim c
  let nonce ← Work.nonce
  return ⟨governanceSequence, nonce, i.order c⟩

/-- A reconstruction prepares and issues. -/
theorem reconstruct_eq (s : Settings) (governanceSequence : UInt64) (peers : List String)
    (c : Coordinate) :
    reconstruct s governanceSequence peers c
      = prepare s peers c >>= issue governanceSequence c := by
  simp only [reconstruct, prepare, issue, Ingredients.order, bind_assoc, pure_bind]

/-- Gathering asks a registry, and whether the request has been withdrawn. -/
theorem onlyAsks_gather {asks : Surroundings.Query → Prop}
    (hlocal : ∀ token, asks (.store (.localWrapper token c.chain)))
    (hremote : ∀ token, asks (.store (.remoteWrapper token))) (hcancelled : asks .isCancelled)
    (bytes : Bytes) : (gather s c bytes).run.OnlyAsks asks := by
  refine onlyAsks_bindExcept Work.onlyAsks_ofExcept fun vaa => ?_
  refine onlyAsks_bindExcept Work.onlyAsks_ofExcept fun transfer => ?_
  refine onlyAsks_bindExcept (onlyAsks_findWrapper (hlocal _) (hremote _)) fun wrapper => ?_
  refine onlyAsks_bindExcept ⟨hcancelled, fun isCancelled => ?_⟩ fun _ => trivial
  cases (show Bool from isCancelled) <;> trivial

/-- Preparing does not write to storage. -/
theorem onlyAsks_prepare (s : Settings) (peers : List String) (c : Coordinate) :
    (prepare s peers c).run.OnlyAsks Surroundings.Query.OnlyReads :=
  onlyAsks_bindExcept (onlyAsks_loadVaa s peers c)
    (onlyAsks_gather (fun _ => rfl) (fun _ => rfl) trivial)

/-- How gathering can go, by the first step that fails. -/
inductive Gathered (s : Settings) (c : Coordinate) (bytes : Bytes) :
    Transcript Surroundings → Except Failure Ingredients → Prop
  | unreadable {fault : Malformed} (hv : Vaa.parse bytes = .error fault) :
      Gathered s c bytes [] (.error (.undecodable "vaa" fault.message))
  | noTransfer {v : Vaa} {fault : Malformed} (hv : Vaa.parse bytes = .ok v)
      (htransfer : Transfer.decode v.payload = .error fault) :
      Gathered s c bytes [] (.error (.undecodable "transfer" fault.message))
  | unwrapped {v : Vaa} {transfer : Transfer} {t : Transcript Surroundings} {failure : Failure}
      (hv : Vaa.parse bytes = .ok v) (htransfer : Transfer.decode v.payload = .ok transfer)
      (hwrapper : Yields (findWrapper s transfer c.chain).run t (.error failure)) :
      Gathered s c bytes t (.error failure)
  | withdrawn {v : Vaa} {transfer : Transfer} {t : Transcript Surroundings} {wrapper : Bytes32}
      (hv : Vaa.parse bytes = .ok v) (htransfer : Transfer.decode v.payload = .ok transfer)
      (hwrapper : Yields (findWrapper s transfer c.chain).run t (.ok wrapper)) :
      Gathered s c bytes (t ++ [⟨.isCancelled, true⟩]) (.error .cancelled)
  | ready {v : Vaa} {transfer : Transfer} {t : Transcript Surroundings} {wrapper : Bytes32}
      (hv : Vaa.parse bytes = .ok v) (htransfer : Transfer.decode v.payload = .ok transfer)
      (hwrapper : Yields (findWrapper s transfer c.chain).run t (.ok wrapper)) :
      Gathered s c bytes (t ++ [⟨.isCancelled, false⟩]) (.ok ⟨v, transfer, wrapper⟩)

theorem gathered_of_yields {bytes : Bytes} {t : Transcript Surroundings}
    {result : Except Failure Ingredients} (h : Yields (gather s c bytes).run t result) :
    Gathered s c bytes t result := by
  rcases yields_bindExcept_iff.mp h with ⟨failure, h₁, rfl⟩ | ⟨v, t₁, t₂, rfl, h₁, h₂⟩
  · obtain ⟨rfl, hparse⟩ := Work.yields_ofExcept_iff.mp h₁
    obtain ⟨fault, hfault, rfl⟩ := mapError_eq_error_iff.mp hparse.symm
    exact .unreadable hfault
  obtain ⟨rfl, hparse⟩ := Work.yields_ofExcept_iff.mp h₁
  have hv := Vaa.parseOrFail_eq_ok_iff.mp hparse.symm
  rcases yields_bindExcept_iff.mp h₂ with ⟨failure, h₃, rfl⟩ | ⟨transfer, t₃, t₄, rfl, h₃, h₄⟩
  · obtain ⟨rfl, hdecode⟩ := Work.yields_ofExcept_iff.mp h₃
    obtain ⟨fault, hfault, rfl⟩ := mapError_eq_error_iff.mp hdecode.symm
    exact .noTransfer hv hfault
  obtain ⟨rfl, hdecode⟩ := Work.yields_ofExcept_iff.mp h₃
  have htransfer := Transfer.decodeOrFail_eq_ok_iff.mp hdecode.symm
  rcases yields_bindExcept_iff.mp h₄ with ⟨failure, h₅, rfl⟩ | ⟨wrapper, t₅, t₆, rfl, h₅, h₆⟩
  · exact .unwrapped hv htransfer h₅
  -- the last look is at whether the request has been withdrawn
  obtain ⟨isCancelled, rest, rfl, h₇⟩ := yields_ask_iff.mp h₆
  cases isCancelled with
  | true =>
      obtain ⟨rfl, rfl⟩ := yields_done_iff.mp h₇
      exact .withdrawn hv htransfer h₅
  | false =>
      obtain ⟨rfl, rfl⟩ := yields_done_iff.mp h₇
      exact .ready hv htransfer h₅

/-- What is prepared has been gathered from octets that were loaded. -/
theorem gathered_of_yields_prepare {t : Transcript Surroundings} {i : Ingredients}
    (h : Yields (prepare s peers c).run t (.ok i)) :
    ∃ bytes t₁ t₂, t = t₁ ++ t₂ ∧ Yields (loadVaa s peers c).run t₁ (.ok bytes) ∧
      Gathered s c bytes t₂ (.ok i) := by
  obtain ⟨bytes, t₁, t₂, rfl, h₁, h₂⟩ := yields_bindExcept_ok_iff.mp h
  exact ⟨bytes, t₁, t₂, rfl, h₁, gathered_of_yields h₂⟩

/-- The ingredients come from octets that storage answered for the
    coordinate. -/
theorem mem_of_yields_prepare {t : Transcript Surroundings} {i : Ingredients}
    (h : Yields (prepare s peers c).run t (.ok i)) :
    ∃ bytes, ⟨.store (.vaa c), .ok (some bytes)⟩ ∈ t ∧ Vaa.parse bytes = .ok i.vaa ∧
      Transfer.decode i.vaa.payload = .ok i.transfer := by
  obtain ⟨bytes, t₁, t₂, rfl, hloaded, hgathered⟩ := gathered_of_yields_prepare h
  cases hgathered with
  | ready hv htransfer hwrapper =>
      exact ⟨bytes, List.mem_append_left _ (mem_of_yields_loadVaa hloaded), hv, htransfer⟩

/-- How issuing can go, by the answer to the claim. -/
inductive Issued (governanceSequence : UInt64) (c : Coordinate) (i : Ingredients) :
    Transcript Surroundings → Except Failure GovernanceMessage → Prop
  | won (nonce : UInt32) :
      Issued governanceSequence c i
        [⟨.store (.markExecuting c.chain c.sequence), .ok true⟩, ⟨.nonce, nonce⟩]
        (.ok ⟨governanceSequence, nonce, i.order c⟩)
  | lost (reason : String) :
      Issued governanceSequence c i
        [⟨.store (.markExecuting c.chain c.sequence), .ok false⟩] (.error (.conflict reason))
  | broken (fault : StoreFault) :
      Issued governanceSequence c i
        [⟨.store (.markExecuting c.chain c.sequence), .error fault⟩]
        (.error (.internal fault.message))

/-- Issuing claims once, and the claim decides. -/
theorem issued_of_yields {governanceSequence : UInt64} {i : Ingredients}
    {t : Transcript Surroundings} {result : Except Failure GovernanceMessage}
    (h : Yields (issue governanceSequence c i).run t result) :
    Issued governanceSequence c i t result := by
  -- the claim is the first thing that is asked
  obtain ⟨answer, rest, rfl, hrest⟩ := yields_ask_iff.mp h
  match answer, hrest with
  | .error fault, hrest =>
      obtain ⟨rfl, rfl⟩ := yields_done_iff.mp hrest
      exact .broken fault
  | .ok false, hrest =>
      obtain ⟨rfl, rfl⟩ := yields_done_iff.mp hrest
      exact .lost _
  | .ok true, hrest =>
      obtain ⟨nonce, rest, rfl, hdone⟩ := yields_ask_iff.mp hrest
      obtain ⟨rfl, rfl⟩ := yields_done_iff.mp hdone
      exact .won nonce

/-- A query that does not write to storage, or claims a transfer with a
    sequence number. -/
def ReadsOrClaims (sequence : UInt64) (q : Surroundings.Query) : Prop :=
  q.OnlyReads ∨ ∃ chain, q = .store (.markExecuting chain sequence)

/-- Claiming a transfer is one query. -/
theorem onlyAsks_claim {asks : Surroundings.Query → Prop}
    (hclaim : asks (.store (.markExecuting c.chain c.sequence))) :
    (claim c).run.OnlyAsks asks := by
  refine onlyAsks_bindExcept (Work.onlyAsks_store hclaim) fun isFirst => ?_
  cases (show Bool from isFirst) <;> trivial

/-- Issuing claims, and asks for a number. -/
theorem onlyAsks_issue {asks : Surroundings.Query → Prop} {governanceSequence : UInt64}
    (hclaim : asks (.store (.markExecuting c.chain c.sequence))) (hnonce : asks .nonce)
    (i : Ingredients) : (issue governanceSequence c i).run.OnlyAsks asks := by
  refine onlyAsks_bindExcept (onlyAsks_claim hclaim) fun _ => ?_
  exact onlyAsks_bindExcept (onlyAsks_lift ⟨hnonce, fun _ => trivial⟩) fun _ => trivial

/-! ## A whole request -/

/-- A request asks what the reconstruction for its emitter asks, and reports
    how that went. -/
theorem onlyAsks_undoTransfer_of {asks : Surroundings.Query → Prop} {request : UndoRequest}
    (hreconstruct : ∀ e,
      Emitter.ofRequest request.emitterChain request.emitterAddress = .ok e →
      (reconstruct s request.governanceSequence request.peers
        ⟨e, request.sequence⟩).run.OnlyAsks asks)
    (hrecord : ∀ m, asks (.record m)) : (undoTransfer s request).run.OnlyAsks asks := by
  refine Work.onlyAsks_ofExcept_bind fun e he => ?_
  refine onlyAsks_bindExcept (onlyAsks_lift (hreconstruct e he)) fun outcome => ?_
  match outcome with
  | .ok message => exact onlyAsks_bindExcept (Work.onlyAsks_record (hrecord _)) fun _ => trivial
  | .error failure =>
      exact onlyAsks_bindExcept (Work.onlyAsks_record (hrecord _)) fun _ => trivial

/-- The one write that a request can make is a claim. -/
theorem onlyAsks_undoTransfer (s : Settings) (request : UndoRequest) :
    (undoTransfer s request).run.OnlyAsks (ReadsOrClaims request.sequence) := by
  refine onlyAsks_undoTransfer_of (fun e _ => ?_) fun _ => .inl trivial
  rw [reconstruct_eq]
  refine onlyAsks_bindExcept ?_ (onlyAsks_issue (.inr ⟨e.chain, rfl⟩) (.inl trivial))
  exact (onlyAsks_prepare s request.peers _).mono fun _ hq => .inl hq

/-- A request is refused for its emitter, or comes to what the
    reconstruction comes to, which is reported. -/
theorem yields_undoTransfer {request : UndoRequest} {t : Transcript Surroundings}
    {result : Except Failure GovernanceMessage}
    (h : Yields (undoTransfer s request).run t result) :
    (∃ failure, Emitter.ofRequest request.emitterChain request.emitterAddress = .error failure ∧
      t = [] ∧ result = .error failure) ∨
    ∃ e t' m, Emitter.ofRequest request.emitterChain request.emitterAddress = .ok e ∧
      t = t' ++ [⟨.record m, ()⟩] ∧
      Yields (reconstruct s request.governanceSequence request.peers ⟨e, request.sequence⟩).run
        t' result := by
  rcases yields_bindExcept_iff.mp h with ⟨failure, h₁, rfl⟩ | ⟨e, t₁, t₂, rfl, h₁, h₂⟩
  · obtain ⟨rfl, he⟩ := Work.yields_ofExcept_iff.mp h₁
    exact .inl ⟨failure, he.symm, rfl, rfl⟩
  · obtain ⟨rfl, he⟩ := Work.yields_ofExcept_iff.mp h₁
    obtain ⟨outcome, t₃, t₄, rfl, h₃, h₄⟩ := yields_lift_bind_iff.mp h₂
    -- the report does not change the outcome
    have hreport : ∃ m, t₄ = [⟨.record m, ()⟩] ∧ result = outcome := by
      match outcome, h₄ with
      | .ok message, h₄ =>
          obtain ⟨t₅, rfl, h₅⟩ := Work.yields_record_bind_iff.mp h₄
          obtain ⟨rfl, rfl⟩ := yields_done_iff.mp h₅
          exact ⟨_, rfl, rfl⟩
      | .error failure, h₄ =>
          obtain ⟨t₅, rfl, h₅⟩ := Work.yields_record_bind_iff.mp h₄
          obtain ⟨rfl, rfl⟩ := yields_done_iff.mp h₅
          exact ⟨_, rfl, rfl⟩
    obtain ⟨m, rfl, rfl⟩ := hreport
    exact .inr ⟨e, t₃, m, he.symm, rfl, h₃⟩

/-- What a reconstruction comes to is reported, and is the answer. -/
theorem exists_yields_undoTransfer {request : UndoRequest} {e : Emitter}
    {t : Transcript Surroundings} {result : Except Failure GovernanceMessage}
    (he : Emitter.ofRequest request.emitterChain request.emitterAddress = .ok e)
    (h : Yields (reconstruct s request.governanceSequence request.peers ⟨e, request.sequence⟩).run
      t result) :
    ∃ m, Yields (undoTransfer s request).run (t ++ [⟨.record m, ()⟩]) result := by
  have hemitter : Yields (Work.ofExcept
      (Emitter.ofRequest request.emitterChain request.emitterAddress)).run [] (.ok e) :=
    Work.yields_ofExcept_iff.mpr ⟨rfl, he.symm⟩
  -- which report it is depends on the outcome
  cases result with
  | ok message =>
      exact ⟨_, yields_bindExcept_iff.mpr (.inr ⟨e, [], _, rfl, hemitter,
        yields_lift_bind_iff.mpr ⟨.ok message, t, _, rfl, h, .ask (.done _)⟩⟩)⟩
  | error failure =>
      exact ⟨_, yields_bindExcept_iff.mpr (.inr ⟨e, [], _, rfl, hemitter,
        yields_lift_bind_iff.mpr ⟨.error failure, t, _, rfl, h, .ask (.done _)⟩⟩)⟩

/-- Everything that `undoTransfer` can do: it fails without a write, or it
    prepares and issues, and then reports how it went. -/
theorem undoTransfer_cases {request : UndoRequest} {t : Transcript Surroundings}
    {result : Except Failure GovernanceMessage}
    (h : Yields (undoTransfer s request).run t result) :
    ((∀ e ∈ t, e.query.OnlyReads) ∧ ∃ failure, result = .error failure) ∨
    ∃ e i t₁ t₂ m, Emitter.ofRequest request.emitterChain request.emitterAddress = .ok e ∧
      t = t₁ ++ t₂ ++ [⟨.record m, ()⟩] ∧
      Yields (prepare s request.peers ⟨e, request.sequence⟩).run t₁ (.ok i) ∧
      Issued request.governanceSequence ⟨e, request.sequence⟩ i t₂ result := by
  rcases yields_undoTransfer h with ⟨failure, -, rfl, rfl⟩ | ⟨e, t', m, he, rfl, h'⟩
  · exact .inl ⟨fun x hx => absurd hx List.not_mem_nil, failure, rfl⟩
  · rw [reconstruct_eq] at h'
    rcases yields_bindExcept_iff.mp h' with ⟨failure, h₁, rfl⟩ | ⟨i, t₁, t₂, rfl, h₁, h₂⟩
    · have hreads := h₁.onlyAsks (onlyAsks_prepare s request.peers _)
      exact .inl ⟨List.forall_mem_append.mpr ⟨hreads, List.forall_mem_singleton.mpr trivial⟩,
        failure, rfl⟩
    · exact .inr ⟨e, i, t₁, t₂, m, he, rfl, h₁, issued_of_yields h₂⟩

end Recovery

end BridgeGuardian
