import BridgeGuardian.Proofs.Archive
import BridgeGuardian.Proofs.Coordinate
import BridgeGuardian.Proofs.Recovery.Undo
import BridgeGuardian.Proofs.Site.Basic

/-! # Claimed transfers — who gets to undo one

    A call builds its message only behind a claim that storage has answered
    with success.  Storage does so only while the undoing has not begun,
    and a claim begins it for good.  So no two calls of a site ever win the
    same transfer, whatever else is going on, and all that ask for it later
    are told of a conflict. -/

namespace BridgeGuardian

open Program

/-- The chain and the sequence number of the transfer to undo. -/
def UndoRequest.pair? (r : UndoRequest) : Option (ChainId × UInt64) :=
  (ChainId.ofUInt32? r.emitterChain).map fun chain => (chain, r.sequence)

/-- An accepted emitter is on the requested chain. -/
theorem UndoRequest.pair?_of_ofRequest {r : UndoRequest} {e : Emitter}
    (h : Emitter.ofRequest r.emitterChain r.emitterAddress = .ok e) :
    r.pair? = some (e.chain, r.sequence) := by
  rw [pair?, ChainId.ofUInt32?_eq_some_iff.mpr (Emitter.ofRequest_eq_ok_iff.mp h).1]
  rfl

/-! ## Calls -/

namespace Call

variable {call : Call} {chain : ChainId} {sequence : UInt64}

/-- The call has asked for a transfer, and this was the answer. -/
def HasAsked (call : Call) (chain : ChainId) (sequence : UInt64)
    (answer : Except StoreFault Bool) : Prop :=
  ⟨.store (.markExecuting chain sequence), answer⟩ ∈ call.past

/-- The call has claimed a transfer with success. -/
def HasWon (call : Call) (chain : ChainId) (sequence : UInt64) : Prop :=
  call.HasAsked chain sequence (.ok true)

/-- An exchange that only reads is no claim. -/
theorem not_claim_of_onlyReads {answer : Except StoreFault Bool} {t : Transcript Surroundings}
    (h : ∀ e ∈ t, e.query.OnlyReads) :
    ⟨.store (.markExecuting chain sequence), answer⟩ ∉ t := by
  intro hmem
  cases h _ hmem

/-- The answer to its claim decides what a call comes to. -/
theorem IsFaithful.result_of_hasAsked {answer : Except StoreFault Bool}
    {result : Except Failure GovernanceMessage} (h : call.IsFaithful)
    (hresult : call.result? = some result) (hasked : call.HasAsked chain sequence answer) :
    call.request.pair? = some (chain, sequence) ∧
    ((answer = .ok true ∧ ∃ message, result = .ok message) ∨
      (answer = .ok false ∧ ∃ reason, result = .error (.conflict reason)) ∨
      ∃ fault, answer = .error fault) := by
  rcases Recovery.undoTransfer_cases (h.yields hresult) with
    ⟨hreads, -⟩ | ⟨e, i, t₁, t₂, m, he, hpast, hprepare, hissued⟩
  · exact absurd hasked (not_claim_of_onlyReads hreads)
  · have hreads : ∀ x ∈ t₁, x.query.OnlyReads :=
      hprepare.onlyAsks (Recovery.onlyAsks_prepare _ _ _)
    have hpair := UndoRequest.pair?_of_ofRequest he
    unfold HasAsked at hasked
    rw [hpast] at hasked
    -- the claim is neither prepared nor reported, so it is issued
    have hclaim : ⟨.store (.markExecuting chain sequence), answer⟩ ∈ t₂ := by
      rcases List.mem_append.mp hasked with hmem | hmem
      · rcases List.mem_append.mp hmem with hmem | hmem
        · exact absurd hmem (not_claim_of_onlyReads hreads)
        · exact hmem
      · cases List.mem_singleton.mp hmem
    cases hissued with
    | won nonce =>
        rcases List.mem_cons.mp hclaim with heq | hmem
        · cases heq
          exact ⟨hpair, .inl ⟨rfl, _, rfl⟩⟩
        · cases List.mem_singleton.mp hmem
    | lost reason =>
        cases List.mem_singleton.mp hclaim
        exact ⟨hpair, .inr (.inl ⟨rfl, _, rfl⟩)⟩
    | broken fault =>
        cases List.mem_singleton.mp hclaim
        exact ⟨hpair, .inr (.inr ⟨_, rfl⟩)⟩

/-- A call that has come to a message has won its transfer. -/
theorem IsFaithful.hasWon {message : GovernanceMessage} (h : call.IsFaithful)
    (hresult : call.result? = some (.ok message))
    (hpair : call.request.pair? = some (chain, sequence)) : call.HasWon chain sequence := by
  rcases Recovery.undoTransfer_cases (h.yields hresult) with
    ⟨-, failure, hfailure⟩ | ⟨e, i, t₁, t₂, m, he, hpast, -, hissued⟩
  · cases hfailure
  · rw [UndoRequest.pair?_of_ofRequest he] at hpair
    cases hpair
    show _ ∈ call.past
    rw [hpast]
    cases hissued with
    | won nonce =>
        exact List.mem_append_left _ (List.mem_append_right _ List.mem_cons_self)

end Call

/-! ## Exchanges with the archive -/

namespace Serves

variable {a a' : Archive} {e : Exchange Surroundings} {chain : ChainId} {sequence : UInt64}

/-- What has begun has begun for good. -/
theorem undoStatus? (h : Serves a e a') (hbegun : a.undoStatus? chain sequence = some .executing) :
    a'.undoStatus? chain sequence = some .executing := by
  cases h with
  | store q => exact StoreQuery.undoStatus?_answer hbegun
  | other query answer hother => exact hbegun

theorem distinct_undoing (h : Serves a e a') (hkeys : a.undoing.Distinct) :
    a'.undoing.Distinct := by
  cases h with
  | store q => exact StoreQuery.distinct_undoing_answer hkeys
  | other query answer hother => exact hkeys

/-- A claim that succeeds begins the undoing. -/
theorem begins (h : Serves a ⟨.store (.markExecuting chain sequence), .ok true⟩ a') :
    a.undoStatus? chain sequence ≠ some .executing ∧
      a'.undoStatus? chain sequence = some .executing := by
  obtain ⟨hanswer, rfl⟩ := serves_store_iff.mp h
  have hfirst : (a.markExecuting chain sequence).1 = true := (Except.ok.inj hanswer).symm
  exact ⟨Archive.undoStatus?_of_markExecuting hfirst,
    Archive.undoStatus?_markExecuting a chain sequence⟩

theorem answer_ne_error {q : StoreQuery} {fault : StoreFault} :
    ¬ Serves a ⟨.store q, .error fault⟩ a' := by
  intro h
  cases (serves_store_iff.mp h).1

end Serves

/-! ## Sites -/

/-- Whatever a call has won has begun, nobody else has won it, and storage
    has never failed. -/
structure Site.IsClaimedOnce (s : Site) : Prop where
  keys : s.archive.undoing.Distinct
  begun : ∀ call ∈ s.calls, ∀ chain sequence, call.HasWon chain sequence →
    s.archive.undoStatus? chain sequence = some .executing
  once : ∀ (i j : Nat) (a b : Call) chain sequence, s.calls[i]? = some a → s.calls[j]? = some b →
    a.HasWon chain sequence → b.HasWon chain sequence → i = j
  answered : ∀ call ∈ s.calls, ∀ q fault, ⟨.store q, .error fault⟩ ∉ call.past

namespace Site

variable {admits : StoreQuery → Prop} {s s' : Site} {chain : ChainId} {sequence : UInt64}

theorem isClaimedOnce_opened (desks : List IntakeDesk) : (opened desks).IsClaimedOnce where
  keys := List.nodup_nil
  begun call hcall := absurd hcall List.not_mem_nil
  once i j a b chain sequence ha := by cases ha
  answered call hcall := absurd hcall List.not_mem_nil

/-- A change of the archive that undoes no beginning keeps claims unique. -/
theorem IsClaimedOnce.of_archive {archive : Archive} {queue : List Bytes} {workers : List Worker}
    (h : s.IsClaimedOnce) (hkeys : archive.undoing.Distinct)
    (hbegun : ∀ chain sequence, s.archive.undoStatus? chain sequence = some .executing →
      archive.undoStatus? chain sequence = some .executing) :
    IsClaimedOnce { s with archive, queue, workers } where
  keys := hkeys
  begun call hcall chain sequence hwon := hbegun _ _ (h.begun call hcall chain sequence hwon)
  once := h.once
  answered := h.answered

/-- Who is among the calls and a new one has been there before, or is
    new. -/
theorem getElem?_calls_append {calls : List Call} {new call : Call} {i : Nat}
    (h : (calls ++ [new])[i]? = some call) : calls[i]? = some call ∨ call = new := by
  rw [List.getElem?_append] at h
  split at h
  · exact .inl h
  · exact .inr (List.mem_singleton.mp (List.mem_of_getElem? h))

/-- A new call has won nothing. -/
theorem IsClaimedOnce.call (h : s.IsClaimedOnce) (settings : Recovery.Settings)
    (request : UndoRequest) :
    IsClaimedOnce { s with calls := s.calls ++ [.begin settings request] } := by
  have hnothing : ∀ e, e ∉ (Call.begin settings request).past :=
    fun e => List.not_mem_nil
  refine ⟨h.keys, ?_, ?_, ?_⟩
  · intro call hcall chain sequence hwon
    rcases List.mem_append.mp hcall with hold | hnew
    · exact h.begun call hold chain sequence hwon
    · obtain rfl := List.mem_singleton.mp hnew
      exact absurd hwon (hnothing _)
  · intro i j a b chain sequence ha hb hwona hwonb
    rcases getElem?_calls_append ha with hi | rfl
    · rcases getElem?_calls_append hb with hj | rfl
      · exact h.once i j a b chain sequence hi hj hwona hwonb
      · exact absurd hwonb (hnothing _)
    · exact absurd hwona (hnothing _)
  · intro call hcall q fault
    rcases List.mem_append.mp hcall with hold | hnew
    · exact h.answered call hold q fault
    · obtain rfl := List.mem_singleton.mp hnew
      exact hnothing _

/-- Who has won behind an exchange had won before, or wins by it what had
    not begun before. -/
theorem hasWon_or_begins {i k : Nat} {call other : Call} {e : Exchange Surroundings}
    {rest : Program Surroundings (Except Failure GovernanceMessage)} {archive : Archive}
    (hcall : s.calls[k]? = some call) (hserve : Serves s.archive e archive)
    (hother : (s.calls.set k (call.behind e rest))[i]? = some other)
    (hwon : other.HasWon chain sequence) :
    (∃ before, s.calls[i]? = some before ∧ before.HasWon chain sequence) ∨
      (i = k ∧ s.archive.undoStatus? chain sequence ≠ some .executing ∧
        archive.undoStatus? chain sequence = some .executing) := by
  by_cases hik : k = i
  · subst hik
    have hlength : k < s.calls.length := (List.getElem?_eq_some_iff.mp hcall).1
    rw [List.getElem?_set_self hlength] at hother
    cases hother
    rcases List.mem_append.mp hwon with hearlier | hnow
    · exact .inl ⟨call, hcall, hearlier⟩
    · obtain rfl := List.mem_singleton.mp hnow
      exact .inr ⟨rfl, hserve.begins⟩
  · rw [List.getElem?_set_ne hik] at hother
    exact .inl ⟨other, hother, hwon⟩

/-- A step of a call keeps claims unique. -/
theorem IsClaimedOnce.goOn {k : Nat} {call : Call} {e : Exchange Surroundings}
    {rest : Program Surroundings (Except Failure GovernanceMessage)} {archive : Archive}
    {queue : List Bytes} (h : s.IsClaimedOnce) (hcall : s.calls[k]? = some call)
    (hserve : Serves s.archive e archive) :
    IsClaimedOnce { s with archive, queue, calls := s.calls.set k (call.behind e rest) } := by
  refine ⟨hserve.distinct_undoing h.keys, ?_, ?_, ?_⟩
  · intro other hother chain sequence hwon
    obtain ⟨i, hi⟩ := List.getElem?_of_mem hother
    rcases hasWon_or_begins hcall hserve hi hwon with ⟨before, hbefore, hold⟩ | ⟨-, -, hnow⟩
    · exact hserve.undoStatus? (h.begun before (List.mem_of_getElem? hbefore) _ _ hold)
    · exact hnow
  · intro i j a b chain sequence ha hb hwona hwonb
    -- of two winners one at most wins by this exchange, and then the other has not begun
    rcases hasWon_or_begins hcall hserve ha hwona with ⟨a', ha', hwona'⟩ | ⟨hi, hfree, -⟩
    · rcases hasWon_or_begins hcall hserve hb hwonb with ⟨b', hb', hwonb'⟩ | ⟨-, hfree, -⟩
      · exact h.once i j a' b' chain sequence ha' hb' hwona' hwonb'
      · exact absurd (h.begun a' (List.mem_of_getElem? ha') _ _ hwona') hfree
    · rcases hasWon_or_begins hcall hserve hb hwonb with ⟨b', hb', hwonb'⟩ | ⟨hj, -, -⟩
      · exact absurd (h.begun b' (List.mem_of_getElem? hb') _ _ hwonb') hfree
      · exact hi.trans hj.symm
  · intro other hother q fault hmem
    rcases List.mem_or_eq_of_mem_set hother with hold | rfl
    · exact h.answered other hold q fault hmem
    · rcases List.mem_append.mp hmem with hearlier | hnow
      · exact h.answered call (List.mem_of_getElem? hcall) q fault hearlier
      · obtain rfl := List.mem_singleton.mp hnow
        exact hserve.answer_ne_error

/-- Every step keeps claims unique. -/
theorem IsClaimedOnce.of_step (h : s.IsClaimedOnce) (hstep : Step admits s s') :
    s'.IsClaimedOnce := by
  cases hstep with
  | call settings request => exact h.call settings request
  | goOn k call e rest archive hcall hmove hserve => exact h.goOn hcall hserve
  | arrive message => exact h.of_archive h.keys fun _ _ hbegun => hbegun
  | take i desk now message queue hworker hqueue =>
      exact h.of_archive h.keys fun _ _ hbegun => hbegun
  | hand i desk now message hworker => exact h.of_archive h.keys fun _ _ hbegun => hbegun
  | work i worker e rest archive hworker hmove hserve =>
      exact h.of_archive (hserve.distinct_undoing h.keys) fun _ _ hbegun =>
        hserve.undoStatus? hbegun
  | others q hq =>
      exact h.of_archive (StoreQuery.distinct_undoing_answer h.keys) fun _ _ hbegun =>
        StoreQuery.undoStatus?_answer hbegun

theorem IsClaimedOnce.of_steps (h : s.IsClaimedOnce) (hsteps : Steps admits s s') :
    s'.IsClaimedOnce := by
  induction hsteps with
  | refl => exact h
  | tail _ hstep ih => exact ih.of_step hstep

/-- What has begun at a site has begun for good. -/
theorem undoStatus?_of_step (hstep : Step admits s s')
    (hbegun : s.archive.undoStatus? chain sequence = some .executing) :
    s'.archive.undoStatus? chain sequence = some .executing := by
  cases hstep with
  | goOn k call e rest archive hcall hmove hserve => exact hserve.undoStatus? hbegun
  | work i worker e rest archive hworker hmove hserve => exact hserve.undoStatus? hbegun
  | others q hq => exact StoreQuery.undoStatus?_answer hbegun
  | call | arrive | take | hand => exact hbegun

theorem undoStatus?_of_steps (hsteps : Steps admits s s')
    (hbegun : s.archive.undoStatus? chain sequence = some .executing) :
    s'.archive.undoStatus? chain sequence = some .executing := by
  induction hsteps with
  | refl => exact hbegun
  | tail _ hstep ih => exact undoStatus?_of_step hstep ih

/-- A transfer is undone at most once.  Of the calls for it, one at most
    comes to a message, and it has won the claim; a call that has asked for
    the claim and is answered comes to a message if it won, and to a
    conflict otherwise; and once the claim is won, the transfer is being
    executed and not listed any more, for good. -/
theorem at_most_one_reconstruction {desks : List IntakeDesk}
    (h : Steps admits (opened desks) s) (chain : ChainId) (sequence : UInt64) :
    (∀ (i j : Nat) (a b : Call) m n, s.calls[i]? = some a → s.calls[j]? = some b →
      a.request.pair? = some (chain, sequence) → b.request.pair? = some (chain, sequence) →
      a.result? = some (.ok m) → b.result? = some (.ok n) → i = j) ∧
    (∀ call ∈ s.calls, ∀ message, call.request.pair? = some (chain, sequence) →
      call.result? = some (.ok message) → call.HasWon chain sequence) ∧
    (∀ call ∈ s.calls, ∀ answer result, call.HasAsked chain sequence answer →
      call.result? = some result → call.request.pair? = some (chain, sequence) ∧
        ((answer = .ok true ∧ ∃ message, result = .ok message) ∨
          (answer = .ok false ∧ ∃ reason, result = .error (.conflict reason)))) ∧
    (∀ (i j : Nat) (a b : Call), s.calls[i]? = some a → s.calls[j]? = some b →
      a.HasWon chain sequence → b.HasWon chain sequence → i = j) ∧
    ∀ call ∈ s.calls, call.HasWon chain sequence → ∀ s', Steps admits s s' →
      s'.archive.undoStatus? chain sequence = some .executing ∧
        sequence ∉ s'.archive.undone chain := by
  have hclaimed : s.IsClaimedOnce := (isClaimedOnce_opened desks).of_steps h
  have hfaithful : s.IsFaithful := isFaithful_of_steps h
  have hwins : ∀ call ∈ s.calls, ∀ message, call.request.pair? = some (chain, sequence) →
      call.result? = some (.ok message) → call.HasWon chain sequence :=
    fun call hcall message hpair hresult => (hfaithful call hcall).hasWon hresult hpair
  refine ⟨?_, hwins, ?_, ?_, ?_⟩
  · intro i j a b m n ha hb hpaira hpairb hresulta hresultb
    exact hclaimed.once i j a b chain sequence ha hb
      (hwins a (List.mem_of_getElem? ha) m hpaira hresulta)
      (hwins b (List.mem_of_getElem? hb) n hpairb hresultb)
  · intro call hcall answer result hasked hresult
    obtain ⟨hpair, hwon | hlost | ⟨fault, rfl⟩⟩ :=
      (hfaithful call hcall).result_of_hasAsked hresult hasked
    · exact ⟨hpair, .inl hwon⟩
    · exact ⟨hpair, .inr hlost⟩
    · exact absurd hasked (hclaimed.answered call hcall _ fault)
  · exact fun i j a b ha hb => hclaimed.once i j a b chain sequence ha hb
  · intro call hcall hwon s' hsteps
    have hbegun : s'.archive.undoStatus? chain sequence = some .executing :=
      undoStatus?_of_steps hsteps (hclaimed.begun call hcall chain sequence hwon)
    exact ⟨hbegun, Archive.not_mem_undone (hclaimed.of_steps hsteps).keys hbegun⟩

/-! ## One transfer that is undone -/

/-- A transfer from chain two. -/
def lostTransfer : Transfer :=
  ⟨5, ⟨List.replicate 32 1, rfl⟩, ⟨2⟩, ⟨List.replicate 32 2, rfl⟩, .alephium, 0⟩

/-- The message that carries it. -/
def lostMessage : Vaa where
  version := 1
  guardianSetIndex := 0
  signatures := []
  timestamp := 1700000000
  nonce := 7
  coordinate := ⟨⟨⟨2⟩, ⟨List.replicate 32 0xe1, rfl⟩⟩, 5⟩
  consistencyLevel := 15
  payload := lostTransfer.encode

/-- The call to undo it, at its beginning. -/
def lostCall : Call :=
  .begin ⟨.alephium, 1000, ⟨3, 10⟩⟩
    ⟨2, "e1e1e1e1e1e1e1e1e1e1e1e1e1e1e1e1e1e1e1e1e1e1e1e1e1e1e1e1e1e1e1e1", 5, 1, []⟩

/-- The site with the message and the wrapper stored, and the call made. -/
def lostSite : Site where
  archive := (Archive.empty.storeVaa lostMessage.coordinate lostMessage.serialize).addRemoteWrapper
    lostTransfer.token ⟨List.replicate 32 3, rfl⟩
  queue := []
  workers := []
  calls := [lostCall]

/-- Nothing happens besides. -/
def calm : (q : Surroundings.Query) → q.Answer
  | .store q => .error (.unavailable q.attempt .poolTimeout)
  | .now => (0 : Nat)
  | .peerOrder peers => ⟨peers, .refl peers⟩
  | .fetch _ _ => .error .failed
  | .submit _ => .closed
  | .announce _ => false
  | .pause _ => .elapsed
  | .isCancelled => false
  | .nonce => (7 : UInt32)
  | .record _ => ()

/-- The site is reached from its opening. -/
theorem steps_lostSite : Steps (fun _ => True) (opened []) lostSite := by
  have hstore : Step (fun _ => True) (opened [])
      ⟨Archive.empty.storeVaa lostMessage.coordinate lostMessage.serialize, [], [], []⟩ :=
    .others (.storeVaa lostMessage.coordinate lostMessage.serialize) trivial
  have hwrapper : Step (fun _ => True)
      ⟨Archive.empty.storeVaa lostMessage.coordinate lostMessage.serialize, [], [], []⟩
      ⟨lostSite.archive, [], [], []⟩ :=
    .others (.addRemoteWrapper lostTransfer.token ⟨List.replicate 32 3, rfl⟩) trivial
  have hcall : Step (fun _ => True) ⟨lostSite.archive, [], [], []⟩ lostSite :=
    .call lostCall.settings lostCall.request
  exact .tail (.tail (.tail .refl hstore) hwrapper) hcall

/-- The call comes to a message, and from then on the transfer is being
    executed for good. -/
theorem lost_transfer_undone_once :
    ∃ s call message, Steps (fun _ => True) (opened []) s ∧ call ∈ s.calls ∧
      call.result? = some (.ok message) ∧
      ∀ s', Steps (fun _ => True) s s' →
        s'.archive.undoStatus? ⟨2⟩ 5 = some .executing ∧ 5 ∉ s'.archive.undone ⟨2⟩ := by
  have hok : (lostCall.rest.run (serve calm) lostSite.archive).1.isOk = true := by decide +kernel
  cases hrun : (lostCall.rest.run (serve calm) lostSite.archive).1 with
  | error failure =>
      rw [hrun] at hok
      cases hok
  | ok message =>
      obtain ⟨queue, hsteps⟩ := @steps_undisturbed (fun _ => True) lostSite 0 lostCall rfl calm
      rw [hrun] at hsteps
      have hreached := steps_lostSite.trans hsteps
      have honce := at_most_one_reconstruction hreached ⟨2⟩ 5
      have hpair : lostCall.request.pair? = some (⟨2⟩, 5) := rfl
      refine ⟨_, _, message, hreached, List.mem_cons_self, rfl, ?_⟩
      have hwon := honce.2.1 _ List.mem_cons_self message hpair rfl
      exact honce.2.2.2.2 _ List.mem_cons_self hwon

end Site

end BridgeGuardian
