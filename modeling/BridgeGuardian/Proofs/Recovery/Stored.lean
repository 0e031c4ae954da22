import BridgeGuardian.Proofs.Envelope
import BridgeGuardian.Proofs.Governance.Returns
import BridgeGuardian.Proofs.Site.Served

/-! # Stored transfers — undoing what is already in storage

    When the signed transfer is stored, everything needed is at hand: no
    peer is asked and nothing is submitted.  Five things can stand in the
    way, and the first of them decides the answer: the octets are no
    message, its payload is no transfer, the token has no wrapper, the
    request is withdrawn, or somebody has claimed the transfer. -/

namespace BridgeGuardian

open Program

/-- A query that leaves peers and queues alone. -/
def Surroundings.Query.StaysInside : Surroundings.Query → Prop
  | .peerOrder _ | .fetch _ _ | .submit _ | .announce _ => False
  | _ => True

namespace Recovery

variable {s : Settings} {peers : List String} {c : Coordinate} {t : Transcript Surroundings}

/-- The wrapper that is registered for a transfer's token: under the token
    and the chain of the emitter if the token is local, and under the token
    otherwise. -/
def Settings.wrapper? (s : Settings) (a : Archive) (transfer : Transfer) (remoteChain : ChainId) :
    Option Bytes32 :=
  if transfer.tokenChain = s.localChain then a.localWrapper? transfer.token remoteChain
  else a.remoteWrapper? transfer.token

/-! ## Preparing from storage -/

/-- What is stored is loaded without asking anybody. -/
theorem yields_loadVaa_of_stored {bytes : Bytes} {result : Except Failure Bytes}
    (h : Yields (loadVaa s peers c).run t result)
    (hread : ∀ answer, ⟨.store (.vaa c), answer⟩ ∈ t → answer = .ok (some bytes)) :
    t = [⟨.store (.vaa c), .ok (some bytes)⟩] ∧ result = .ok bytes := by
  rcases yields_bindExcept_iff.mp h with ⟨failure, h₁, rfl⟩ | ⟨found, t₁, t₂, rfl, h₁, h₂⟩
  · obtain ⟨answer, rfl, hanswer⟩ := Work.yields_store_iff.mp h₁
    obtain rfl := hread answer List.mem_cons_self
    cases hanswer
  · obtain rfl := Work.yields_store_ok_iff.mp h₁
    cases hread (.ok found) List.mem_cons_self
    obtain ⟨rfl, rfl⟩ := yields_done_iff.mp h₂
    exact ⟨rfl, rfl⟩

/-- What storage and the request come to before the claim, by the first
    thing that stands in the way. -/
inductive Verdict (s : Settings) (a : Archive) (c : Coordinate) (cancelled : Bool)
    (bytes : Bytes) : Except Failure Ingredients → Prop
  | unreadable {fault : Malformed} (hv : Vaa.parse bytes = .error fault) :
      Verdict s a c cancelled bytes (.error (.undecodable "vaa" fault.message))
  | noTransfer {v : Vaa} {fault : Malformed} (hv : Vaa.parse bytes = .ok v)
      (htransfer : Transfer.decode v.payload = .error fault) :
      Verdict s a c cancelled bytes (.error (.undecodable "transfer" fault.message))
  | unwrapped {v : Vaa} {transfer : Transfer} (hv : Vaa.parse bytes = .ok v)
      (htransfer : Transfer.decode v.payload = .ok transfer)
      (hwrapper : s.wrapper? a transfer c.chain = none) :
      Verdict s a c cancelled bytes (.error (noWrapper transfer c.chain))
  | withdrawn {v : Vaa} {transfer : Transfer} {wrapper : Bytes32} (hv : Vaa.parse bytes = .ok v)
      (htransfer : Transfer.decode v.payload = .ok transfer)
      (hwrapper : s.wrapper? a transfer c.chain = some wrapper) (h : cancelled = true) :
      Verdict s a c cancelled bytes (.error .cancelled)
  | ready {v : Vaa} {transfer : Transfer} {wrapper : Bytes32} (hv : Vaa.parse bytes = .ok v)
      (htransfer : Transfer.decode v.payload = .ok transfer)
      (hwrapper : s.wrapper? a transfer c.chain = some wrapper) (h : cancelled = false) :
      Verdict s a c cancelled bytes (.ok ⟨v, transfer, wrapper⟩)

section

variable {a : Archive} {cancelled : Bool} {bytes : Bytes}
  {result other : Except Failure Ingredients}

theorem Verdict.unique (h : Verdict s a c cancelled bytes result)
    (hother : Verdict s a c cancelled bytes other) : result = other := by
  cases h <;> cases hother <;>
    simp_all only [Except.ok.injEq, Except.error.injEq, Option.some.injEq, reduceCtorEq]

theorem wrapper?_of_yields {transfer : Transfer} {remoteChain : ChainId}
    {found : Except Failure Bytes32} (h : Yields (findWrapper s transfer remoteChain).run t found)
    (hanswers : ∀ q answer, ⟨.store q, answer⟩ ∈ t → answer = .ok (q.answer a).1) :
    found = wrapperResult transfer remoteChain (.ok (s.wrapper? a transfer remoteChain)) := by
  obtain ⟨answer, ⟨hlocal, rfl⟩ | ⟨hremote, rfl⟩, rfl⟩ := yields_findWrapper h
  · rw [hanswers (.localWrapper _ _) answer List.mem_cons_self, Settings.wrapper?, if_pos hlocal]
    rfl
  · rw [hanswers (.remoteWrapper _) answer List.mem_cons_self, Settings.wrapper?, if_neg hremote]
    rfl

theorem verdict_of_gathered (h : Gathered s c bytes t result)
    (hanswers : ∀ q answer, ⟨.store q, answer⟩ ∈ t → answer = .ok (q.answer a).1)
    (hcancelled : ∀ answer, ⟨.isCancelled, answer⟩ ∈ t → answer = cancelled) :
    Verdict s a c cancelled bytes result := by
  have hlookup : ∀ {t' : Transcript Surroundings} {transfer : Transfer} {found},
      Yields (findWrapper s transfer c.chain).run t' found → (∀ x ∈ t', x ∈ t) →
        found = wrapperResult transfer c.chain (.ok (s.wrapper? a transfer c.chain)) :=
    fun hfound hmem => wrapper?_of_yields hfound fun q answer hq => hanswers q answer (hmem _ hq)
  -- a registry is asked at most once, and first
  cases h with
  | unreadable hv => exact .unreadable hv
  | noTransfer hv htransfer => exact .noTransfer hv htransfer
  | unwrapped hv htransfer hfound =>
      rw [(wrapperResult_eq_error_iff.mp (hlookup hfound fun _ hx => hx).symm).2]
      exact .unwrapped hv htransfer
        (wrapperResult_eq_error_iff.mp (hlookup hfound fun _ hx => hx).symm).1
  | withdrawn hv htransfer hfound =>
      have hwrapper := wrapperResult_eq_ok_iff.mp
        (hlookup hfound fun _ hx => List.mem_append_left _ hx).symm
      have hlast := hcancelled true (List.mem_append_right _ List.mem_cons_self)
      exact .withdrawn hv htransfer hwrapper hlast.symm
  | ready hv htransfer hfound =>
      have hwrapper := wrapperResult_eq_ok_iff.mp
        (hlookup hfound fun _ hx => List.mem_append_left _ hx).symm
      have hlast := hcancelled false (List.mem_append_right _ List.mem_cons_self)
      exact .ready hv htransfer hwrapper hlast.symm

/-- Preparing what is stored comes to the verdict and changes nothing. -/
theorem verdict_of_prepare {a' : Archive} (h : Yields (prepare s peers c).run t result)
    (hbytes : a.vaa? c = some bytes) (hserved : Served (fun _ => False) a t a')
    (hcancelled : ∀ answer, ⟨.isCancelled, answer⟩ ∈ t → answer = cancelled) :
    Verdict s a c cancelled bytes result ∧ a' = a ∧ ∀ x ∈ t, x.query.StaysInside := by
  obtain ⟨rfl, hanswers⟩ := hserved.of_onlyReads (h.onlyAsks (onlyAsks_prepare s peers c))
  have hread : ∀ answer, ⟨.store (.vaa c), answer⟩ ∈ t → answer = .ok (some bytes) := by
    intro answer hmem
    rw [hanswers (.vaa c) answer hmem]
    exact congrArg Except.ok hbytes
  rw [prepare_eq] at h
  rcases yields_bindExcept_iff.mp h with ⟨failure, h₁, -⟩ | ⟨found, t₁, t₂, rfl, h₁, h₂⟩
  · cases (yields_loadVaa_of_stored h₁ hread).2
  · obtain ⟨rfl, hfound⟩ := yields_loadVaa_of_stored h₁
      fun answer hmem => hread answer (List.mem_append_left _ hmem)
    cases hfound
    have hinside : ∀ x ∈ t₂, x.query.StaysInside :=
      h₂.onlyAsks (onlyAsks_gather (fun _ => trivial) (fun _ => trivial) trivial bytes)
    refine ⟨?_, rfl, List.forall_mem_append.mpr ⟨List.forall_mem_singleton.mpr trivial, hinside⟩⟩
    exact verdict_of_gathered (gathered_of_yields h₂)
      (fun q answer hmem => hanswers q answer (List.mem_append_right _ hmem))
      fun answer hmem => hcancelled answer (List.mem_append_right _ hmem)

end

/-! ## From storage to the message -/

variable {request : UndoRequest} {result : Except Failure GovernanceMessage} {e : Emitter}
  {bytes : Bytes} {cancelled : Bool} {a a' : Archive}

/-- What a request comes to: the failure of the verdict, a conflict if the
    transfer is claimed, and otherwise the message. -/
inductive Undone (s : Settings) (a : Archive) (governanceSequence : UInt64) (c : Coordinate)
    (cancelled : Bool) (bytes : Bytes) : Except Failure GovernanceMessage → Prop
  | failed {failure : Failure} (h : Verdict s a c cancelled bytes (.error failure)) :
      Undone s a governanceSequence c cancelled bytes (.error failure)
  | claimed {i : Ingredients} (reason : String) (h : Verdict s a c cancelled bytes (.ok i))
      (hbegun : a.undoStatus? c.chain c.sequence = some .executing) :
      Undone s a governanceSequence c cancelled bytes (.error (.conflict reason))
  | issued {i : Ingredients} (nonce : UInt32) (h : Verdict s a c cancelled bytes (.ok i))
      (hfree : a.undoStatus? c.chain c.sequence ≠ some .executing) :
      Undone s a governanceSequence c cancelled bytes
        (.ok ⟨governanceSequence, nonce, i.order c⟩)

theorem undone_of_yields
    (he : Emitter.ofRequest request.emitterChain request.emitterAddress = .ok e)
    (hbytes : a.vaa? ⟨e, request.sequence⟩ = some bytes)
    (hserved : Served (fun _ => False) a t a')
    (hcancelled : ∀ answer, ⟨.isCancelled, answer⟩ ∈ t → answer = cancelled)
    (h : Yields (undoTransfer s request).run t result) :
    Undone s a request.governanceSequence ⟨e, request.sequence⟩ cancelled bytes result ∧
      ∀ x ∈ t, x.query.StaysInside := by
  rcases yields_undoTransfer h with ⟨failure, hrefused, -, -⟩ | ⟨e', t', m, he', rfl, h'⟩
  · rw [he] at hrefused
    cases hrefused
  rw [he] at he'
  cases he'
  have hreport : ∀ x ∈ [(⟨.record m, ()⟩ : Exchange Surroundings)], x.query.StaysInside :=
    List.forall_mem_singleton.mpr trivial
  obtain ⟨b, hserved, -⟩ := hserved.of_append
  rw [reconstruct_eq] at h'
  rcases yields_bindExcept_iff.mp h' with ⟨failure, h₁, rfl⟩ | ⟨i, t₁, t₂, rfl, h₁, h₂⟩
  · obtain ⟨hverdict, -, hinside⟩ := verdict_of_prepare h₁ hbytes hserved
      fun answer hmem => hcancelled answer (List.mem_append_left _ hmem)
    exact ⟨.failed hverdict, List.forall_mem_append.mpr ⟨hinside, hreport⟩⟩
  · obtain ⟨a₁, hprepared, hissued⟩ := hserved.of_append
    obtain ⟨hverdict, rfl, hinside⟩ := verdict_of_prepare h₁ hbytes hprepared
      fun answer hmem => hcancelled answer (List.mem_append_left _ (List.mem_append_left _ hmem))
    -- the archive is the same behind the preparations, so the claim is about what it was before
    have hinside₂ : ∀ x ∈ t₂, x.query.StaysInside := h₂.onlyAsks (onlyAsks_issue trivial trivial _)
    refine ⟨?_, List.forall_mem_append.mpr
      ⟨List.forall_mem_append.mpr ⟨hinside, hinside₂⟩, hreport⟩⟩
    cases issued_of_yields h₂ with
    | won nonce =>
        obtain ⟨a₂, hclaim, -⟩ := hissued.of_cons
        exact .issued nonce hverdict hclaim.begins.1
    | lost reason =>
        obtain ⟨a₂, hclaim, -⟩ := hissued.of_cons
        exact .claimed reason hverdict hclaim.of_lost.1
    | broken fault =>
        obtain ⟨a₂, hclaim, -⟩ := hissued.of_cons
        exact absurd hclaim Serves.answer_ne_error

theorem Undone.eq_of_error {governanceSequence : UInt64} {failure : Failure}
    (h : Undone s a governanceSequence c cancelled bytes result)
    (hverdict : Verdict s a c cancelled bytes (.error failure)) : result = .error failure := by
  cases h with
  | failed hfailed =>
      cases hfailed.unique hverdict
      rfl
  | claimed reason hready => cases hready.unique hverdict
  | issued nonce hready => cases hready.unique hverdict

theorem Undone.ready_of_ok {governanceSequence : UInt64} {message : GovernanceMessage}
    (h : Undone s a governanceSequence c cancelled bytes (.ok message)) :
    ∃ i nonce, Verdict s a c cancelled bytes (.ok i) ∧
      a.undoStatus? c.chain c.sequence ≠ some .executing ∧
      message = ⟨governanceSequence, nonce, i.order c⟩ := by
  cases h with
  | issued nonce hready hfree => exact ⟨_, nonce, hready, hfree, rfl⟩

/-- Undoing a transfer that is stored, while nobody else asks anything of
    storage.  Peers and queues are left alone.  The request comes to a
    message exactly if the octets are a message, its payload a transfer,
    its token has a wrapper, the request is not withdrawn and nobody has
    claimed the transfer; the first of these that fails is the failure.
    The message orders the return field by field. -/
theorem undone_from_storage
    (he : Emitter.ofRequest request.emitterChain request.emitterAddress = .ok e)
    (hbytes : a.vaa? ⟨e, request.sequence⟩ = some bytes)
    (hserved : Served (fun _ => False) a t a')
    (hcancelled : ∀ answer, ⟨.isCancelled, answer⟩ ∈ t → answer = cancelled)
    (h : Yields (undoTransfer s request).run t result) :
    (∀ x ∈ t, x.query.StaysInside) ∧
    ((∃ message, result = .ok message) ↔
      ∃ v transfer wrapper, Vaa.parse bytes = .ok v ∧ Transfer.decode v.payload = .ok transfer ∧
        s.wrapper? a transfer e.chain = some wrapper ∧ cancelled = false ∧
        a.undoStatus? e.chain request.sequence ≠ some .executing) ∧
    (∀ fault, Vaa.parse bytes = .error fault →
      result = .error (.undecodable "vaa" fault.message)) ∧
    ∀ v, Vaa.parse bytes = .ok v →
      (∀ fault, Transfer.decode v.payload = .error fault →
        result = .error (.undecodable "transfer" fault.message)) ∧
      ∀ transfer, Transfer.decode v.payload = .ok transfer →
        (s.wrapper? a transfer e.chain = none → result = .error (noWrapper transfer e.chain)) ∧
        ∀ wrapper, s.wrapper? a transfer e.chain = some wrapper →
          (cancelled = true → result = .error .cancelled) ∧
          (cancelled = false → a.undoStatus? e.chain request.sequence = some .executing →
            ∃ reason, result = .error (.conflict reason)) ∧
          ∀ message, result = .ok message → message.sequence = request.governanceSequence ∧
            ∃ payload, message.request = .undoneTransfer v.consistencyLevel payload ∧
              IsReturn payload request.sequence wrapper transfer.recipient transfer.amount
                transfer.fee := by
  obtain ⟨hundone, hinside⟩ := undone_of_yields he hbytes hserved hcancelled h
  refine ⟨hinside, ⟨?_, ?_⟩, ?_, ?_⟩
  · rintro ⟨message, rfl⟩
    obtain ⟨i, nonce, hready, hfree, -⟩ := hundone.ready_of_ok
    cases hready with
    | ready hv htransfer hwrapper hgoing =>
        exact ⟨_, _, _, hv, htransfer, hwrapper, hgoing, hfree⟩
  · rintro ⟨v, transfer, wrapper, hv, htransfer, hwrapper, hgoing, hfree⟩
    have hready : Verdict s a ⟨e, request.sequence⟩ cancelled bytes (.ok ⟨v, transfer, wrapper⟩) :=
      .ready hv htransfer hwrapper hgoing
    cases hundone with
    | failed hfailed => cases hfailed.unique hready
    | claimed reason hother hbegun => exact absurd hbegun hfree
    | issued nonce hother => exact ⟨_, rfl⟩
  · intro fault hv
    exact hundone.eq_of_error (.unreadable hv)
  · intro v hv
    refine ⟨fun fault htransfer => hundone.eq_of_error (.noTransfer hv htransfer), ?_⟩
    intro transfer htransfer
    refine ⟨fun hwrapper => hundone.eq_of_error (.unwrapped hv htransfer hwrapper), ?_⟩
    intro wrapper hwrapper
    refine ⟨?_, ?_, ?_⟩
    · intro hwithdrawn
      exact hundone.eq_of_error (.withdrawn hv htransfer hwrapper hwithdrawn)
    · intro hgoing hbegun
      have hready : Verdict s a ⟨e, request.sequence⟩ cancelled bytes
          (.ok ⟨v, transfer, wrapper⟩) := .ready hv htransfer hwrapper hgoing
      cases hundone with
      | failed hfailed => cases hfailed.unique hready
      | claimed reason hother => exact ⟨reason, rfl⟩
      | issued nonce hother hfree => exact absurd hbegun hfree
    · rintro message rfl
      obtain ⟨i, nonce, hready, -, rfl⟩ := hundone.ready_of_ok
      cases hready with
      | ready hv' htransfer' hwrapper' hgoing =>
          -- what was gathered is what the octets and the registry say
          cases hv.symm.trans hv'
          cases htransfer.symm.trans htransfer'
          cases hwrapper.symm.trans hwrapper'
          exact ⟨rfl, _, rfl, isReturn_serialize request.sequence wrapper transfer.recipient
            transfer.amount transfer.fee⟩

end Recovery

/-! ## One transfer from storage -/

namespace Site

/-- The lost transfer of five, which no fee was paid for, is given back by
    an order for the wrapper of its token. -/
theorem lost_transfer_is_returned :
    ∃ t a' message payload, Served (fun _ => False) lostSite.archive t a' ∧
      Yields (Recovery.undoTransfer lostCall.settings lostCall.request).run t (.ok message) ∧
      (∀ x ∈ t, x.query.StaysInside) ∧ message.sequence = 1 ∧
      message.request = .undoneTransfer 15 payload ∧
      IsReturn payload 5 ⟨List.replicate 32 3, rfl⟩ lostTransfer.recipient 5 0 := by
  have he : Emitter.ofRequest lostCall.request.emitterChain lostCall.request.emitterAddress
      = .ok lostMessage.coordinate.emitter := by rfl
  have hbytes : lostSite.archive.vaa? lostMessage.coordinate = some lostMessage.serialize := by
    decide +kernel
  have hv : Vaa.parse lostMessage.serialize = .ok lostMessage := Vaa.parse_serialize rfl (by decide)
  have htransfer : Transfer.decode lostMessage.payload = .ok lostTransfer := by
    have hread : (Transfer.decode lostMessage.payload).toOption = some lostTransfer := by
      decide +kernel
    cases hdecode : Transfer.decode lostMessage.payload with
    | error fault => simp only [hdecode, Except.toOption, reduceCtorEq] at hread
    | ok transfer =>
        rw [hdecode] at hread
        exact congrArg Except.ok (Option.some.inj hread)
  have hwrapper : lostCall.settings.wrapper? lostSite.archive lostTransfer ⟨2⟩
      = some ⟨List.replicate 32 3, rfl⟩ := by decide +kernel
  have hfree : lostSite.archive.undoStatus? ⟨2⟩ 5 ≠ some .executing := by decide +kernel
  obtain ⟨t, result, a', hyields, hserved, hcancelled⟩ :=
    exists_undisturbed (Recovery.undoTransfer lostCall.settings lostCall.request).run
      lostSite.archive
  obtain ⟨hinside, hok, -, hrest⟩ :=
    Recovery.undone_from_storage he hbytes hserved hcancelled hyields
  obtain ⟨message, hmessage⟩ := hok.mpr ⟨_, _, _, hv, htransfer, hwrapper, rfl, hfree⟩
  obtain ⟨hsequence, payload, hrequest, hreturn⟩ :=
    ((hrest _ hv).2 _ htransfer).2 _ hwrapper |>.2.2 message hmessage
  rw [hmessage] at hyields
  exact ⟨t, a', message, payload, hserved, hyields, hinside, hsequence, hrequest, hreturn⟩

end Site

end BridgeGuardian
