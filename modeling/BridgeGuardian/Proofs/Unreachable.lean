import BridgeGuardian.Proofs.Coordinate
import BridgeGuardian.Proofs.DigestCache
import BridgeGuardian.Proofs.Recovery.Marked
import BridgeGuardian.Proofs.Site.Verified
import BridgeGuardian.Proofs.Storage
import BridgeGuardian.Recovery.Missing
import Mathlib.Data.List.Forall2

/-! # Unreachable storage — everything fails, and nothing is done

    Every operation of a guardian checks what it was given and then turns
    to storage, before it turns to anybody else.  `Operation.opening` is
    this beginning: an objection, or the query that storage is asked first.
    If storage refuses every query, an operation ends right there, so it
    comes to its objection or to the fault of its opening query, and nobody
    but storage has been asked.  A worker that could not store a message
    does not remember it, and a worker without memories takes no message for
    a duplicate; so a run is its operations one by one.

    A database that is out of reach still looks at the numbers of a query
    first, so a number it could not keep is what the failure is about. -/

namespace BridgeGuardian

open Program

/-! ## Requests that make sense -/

/-- A chain number is accepted if it has at most 16 bits. -/
theorem ChainId.exists_ofRequest_iff (field : String) {wide : UInt32} :
    (∃ chain, ChainId.ofRequest field wide = .ok chain) ↔ wide.toNat < 2 ^ 16 := by
  simp only [ofRequest_eq_ok_iff]
  constructor
  · rintro ⟨chain, hchain⟩
    rw [← hchain]
    exact chain.id.toNat_lt_size
  · intro hwidth
    exact ⟨⟨wide.toUInt16⟩, Nat.mod_eq_of_lt hwidth⟩

/-- An emitter is accepted if its chain number is, and its address is a
    block in hexadecimal. -/
theorem Emitter.exists_ofRequest_iff {chain : UInt32} {address : String} :
    (∃ e, Emitter.ofRequest chain address = .ok e) ↔
      chain.toNat < 2 ^ 16 ∧ Bytes32.IsBlockText address := by
  rw [← ChainId.exists_ofRequest_iff "emitter_chain", ← Bytes32.exists_read_iff]
  simp only [ofRequest_eq_ok_iff, ChainId.ofRequest_eq_ok_iff]
  constructor
  · rintro ⟨e, hchain, haddress⟩
    exact ⟨⟨e.chain, hchain⟩, ⟨e.address, haddress⟩⟩
  · rintro ⟨⟨accepted, hchain⟩, ⟨block, hblock⟩⟩
    exact ⟨⟨accepted, block⟩, hchain, hblock⟩

/-! ## Storage that refuses -/

/-- Ask storage, or report a measurement. -/
def Surroundings.Query.IsLocal : Surroundings.Query → Prop
  | .store _ | .record _ => True
  | _ => False

/-- Storage has refused whatever it was asked. -/
def Refused (t : Transcript Surroundings) : Prop :=
  ∀ (q : StoreQuery) (answer : Except StoreFault q.Result), ⟨.store q, answer⟩ ∈ t →
    ∃ fault, answer = .error fault

theorem Refused.of_subset {t t' : Transcript Surroundings} (h : Refused t) (hsub : t' ⊆ t) :
    Refused t' :=
  fun q answer hmem => h q answer (hsub hmem)

/-- How a task ends that begins like this: with its objection, or with the
    fault of its opening query, which may be reported. -/
inductive Stops : Except Failure StoreQuery → Transcript Surroundings → Failure → Prop
  | objected (failure : Failure) : Stops (.error failure) [] failure
  | refused (q : StoreQuery) (fault : StoreFault) (reports : List Measurement) :
      Stops (.ok q)
        (⟨.store q, (.error fault : Except StoreFault q.Result)⟩ ::
          reports.map fun m => ⟨.record m, ()⟩)
        (.internal fault.message)

namespace Stops

variable {opening : Except Failure StoreQuery} {t : Transcript Surroundings} {failure : Failure}

/-- A fault of storage may be reported. -/
theorem report {q : StoreQuery} (h : Stops (.ok q) t failure) (m : Measurement) :
    Stops (.ok q) (t ++ [⟨.record m, ()⟩]) failure := by
  cases h with
  | refused q fault reports =>
      have hreports := refused q fault (reports ++ [m])
      rwa [List.map_append] at hreports

/-- Nobody but storage has been asked. -/
theorem isLocal (h : Stops opening t failure) : ∀ e ∈ t, e.query.IsLocal := by
  cases h with
  | objected failure => exact fun e he => absurd he List.not_mem_nil
  | refused q fault reports =>
      refine List.forall_mem_cons.mpr ⟨trivial, fun e he => ?_⟩
      obtain ⟨m, -, rfl⟩ := List.mem_map.mp he
      trivial

/-- Behind a check that passed it is storage that failed. -/
theorem internal {q : StoreQuery} (h : Stops (.ok q) t failure) :
    ∃ fault : StoreFault, failure = .internal fault.message ∧
      ⟨.store q, (.error fault : Except StoreFault q.Result)⟩ ∈ t := by
  cases h with
  | refused q fault reports => exact ⟨fault, rfl, List.mem_cons_self⟩

end Stops

namespace Work

variable {α β : Type}

/-- A task begins like this: with storage that refuses it goes no further. -/
def Opens (task : Work α) (opening : Except Failure StoreQuery) : Prop :=
  ∀ (t : Transcript Surroundings) (result : Except Failure α), Yields task.run t result →
    Refused t → ∃ failure, result = .error failure ∧ Stops opening t failure

theorem opens_store (q : StoreQuery) : Opens (store q) (.ok q) := by
  intro t result h hrefused
  obtain ⟨answer, rfl, rfl⟩ := yields_store_iff.mp h
  obtain ⟨fault, rfl⟩ := hrefused q answer List.mem_cons_self
  exact ⟨_, rfl, .refused q fault []⟩

/-- What comes next is never reached. -/
theorem Opens.bind {task : Work α} {opening : Except Failure StoreQuery}
    (h : task.Opens opening) (next : α → Work β) : (task >>= next).Opens opening := by
  intro t result hyields hrefused
  rcases yields_bindExcept_iff.mp hyields with ⟨failure, h₁, rfl⟩ | ⟨value, t₁, t₂, rfl, h₁, -⟩
  · obtain ⟨other, heq, hstops⟩ := h t _ h₁ hrefused
    cases heq
    exact ⟨failure, rfl, hstops⟩
  · obtain ⟨failure, hfailure, -⟩ :=
      h t₁ _ h₁ (hrefused.of_subset (List.subset_append_left t₁ t₂))
    cases hfailure

/-- A check comes first, and then storage is asked. -/
theorem opens_ofExcept_bind {check : Except Failure α} {next : α → Work β} {q : α → StoreQuery}
    (h : ∀ value, (next value).Opens (.ok (q value))) :
    (ofExcept check >>= next).Opens (check.map q) := by
  intro t result hyields hrefused
  rcases yields_bindExcept_iff.mp hyields with ⟨failure, h₁, rfl⟩ | ⟨value, t₁, t₂, rfl, h₁, h₂⟩
  · obtain ⟨rfl, rfl⟩ := yields_ofExcept_iff.mp h₁
    exact ⟨failure, rfl, .objected failure⟩
  · obtain ⟨rfl, rfl⟩ := yields_ofExcept_iff.mp h₁
    exact h value t₂ result h₂ hrefused

end Work

/-! ## The services -/

namespace Recovery

theorem opens_findMissing (timeout : UInt64) (request : MissingRequest) :
    (findMissing timeout request).Opens
      ((Emitter.ofRequest request.emitterChain request.emitterAddress).map .gaps) :=
  Work.opens_ofExcept_bind fun e => (Work.opens_store (.gaps e)).bind _

theorem opens_undoneSequences (chain : UInt32) :
    (undoneSequences chain).Opens ((ChainId.ofRequest "remote_chain_id" chain).map .undone) :=
  Work.opens_ofExcept_bind fun chain => Work.opens_store (.undone chain)

/-- A reconstruction begins by loading the signed transfer. -/
theorem opens_reconstruct (s : Settings) (governanceSequence : UInt64) (peers : List String)
    (c : Coordinate) : (reconstruct s governanceSequence peers c).Opens (.ok (.vaa c)) := by
  have hload : (loadVaa s peers c).Opens (.ok (.vaa c)) := (Work.opens_store (.vaa c)).bind _
  rw [reconstruct_eq, prepare_eq]
  exact (hload.bind _).bind _

theorem opens_undoTransfer (s : Settings) (request : UndoRequest) :
    (undoTransfer s request).Opens
      ((Emitter.ofRequest request.emitterChain request.emitterAddress).map fun e =>
        .vaa ⟨e, request.sequence⟩) := by
  intro t result h hrefused
  rcases yields_undoTransfer h with ⟨failure, he, rfl, rfl⟩ | ⟨e, t', m, he, rfl, h'⟩
  · rw [he]
    exact ⟨failure, rfl, .objected failure⟩
  · rw [he]
    obtain ⟨failure, rfl, hstops⟩ := opens_reconstruct s _ _ _ t' result h'
      (hrefused.of_subset (List.subset_append_left t' _))
    exact ⟨failure, rfl, hstops.report m⟩

end Recovery

/-- What a worker without memories does with a message: it checks the message
    and writes it, and if it cannot, it is the same as before. -/
theorem IntakeDesk.process_of_refused {d d' : IntakeDesk} {now : Nat} {message : Bytes}
    {t : Transcript Surroundings} {result : Except Failure Receipt}
    (hempty : d.seen.entries = [])
    (h : Yields (d.process now askToWrite message) t (result, d')) (hrefused : Refused t) :
    d' = d ∧ ∃ failure, result = .error failure ∧
      Stops (do
        let v ← Vaa.parseOrFail message
        d.guardians.verifyOrFail v
        return .storeVaa v.coordinate message) t failure := by
  cases hparse : Vaa.parseOrFail message with
  | error failure =>
      rw [process_of_parse_error hparse] at h
      obtain ⟨rfl, hresult⟩ := yields_done_iff.mp h
      cases hresult
      exact ⟨rfl, failure, rfl, .objected failure⟩
  | ok v =>
      have hv : Vaa.parse message = .ok v := Vaa.parseOrFail_eq_ok_iff.mp hparse
      have hnew : d.seen.contains now v.signingDigest = false := by
        refine Bool.eq_false_iff.mpr fun hseen => ?_
        obtain ⟨e, he, -⟩ := DigestCache.exists_mem_of_contains hseen
        rw [hempty] at he
        exact absurd he List.not_mem_nil
      cases hverify : d.guardians.verifyOrFail v with
      | error failure =>
          rw [process_of_verify_error hv hnew hverify] at h
          obtain ⟨rfl, hresult⟩ := yields_done_iff.mp h
          cases hresult
          refine ⟨rfl, failure, rfl, ?_⟩
          show Stops (d.guardians.verifyOrFail v >>= fun _ => _) [] failure
          rw [hverify]
          exact .objected failure
      | ok verified =>
          rw [process_of_verify hv hnew (GuardianSet.verifyOrFail_eq_ok_iff.mp hverify)] at h
          obtain ⟨answer, t₁, t₂, rfl, h₁, h₂⟩ := yields_bind_iff.mp h
          obtain rfl := yields_query_iff.mp h₁
          obtain ⟨rfl, hresult⟩ := yields_done_iff.mp h₂
          obtain ⟨fault, rfl⟩ :=
            hrefused (.storeVaa v.coordinate message) answer List.mem_cons_self
          cases hresult
          refine ⟨rfl, _, rfl, ?_⟩
          show Stops (d.guardians.verifyOrFail v >>= fun _ => _) _ _
          rw [hverify]
          exact .refused (.storeVaa v.coordinate message) fault []

/-! ## Operations -/

/-- What a guardian may be told to do. -/
inductive Operation
  /-- Undo a transfer. -/
  | undo (settings : Recovery.Settings) (request : UndoRequest)
  /-- Report missing messages, asking peers for so many milliseconds. -/
  | findMissing (timeout : UInt64) (request : MissingRequest)
  /-- List the transfers that are to be undone. -/
  | listUndone (chain : UInt32)
  /-- Deal with a signed message at a moment. -/
  | process (now : Nat) (message : Bytes)
  /-- Put a query to storage. -/
  | call (q : StoreQuery)

namespace Operation

/-- A service at work, which leaves the worker alone. -/
def serve {α : Type} (d : IntakeDesk) (task : Work α) :
    Program Surroundings (Except Failure Unit × IntakeDesk) := do
  let result ← task.outcome
  return (result.map fun _ => (), d)

/-- Do it; only dealing with a message changes what a worker remembers. -/
def task (d : IntakeDesk) : Operation → Program Surroundings (Except Failure Unit × IntakeDesk)
  | .undo settings request => serve d (Recovery.undoTransfer settings request)
  | .findMissing timeout request => serve d (Recovery.findMissing timeout request)
  | .listUndone chain => serve d (Recovery.undoneSequences chain)
  | .call q => serve d (Work.store q)
  | .process now message => do
      let (result, d) ← d.process now IntakeDesk.askToWrite message
      return (result.map fun _ => (), d)

/-- Do one after the other; the result is what each of them comes to. -/
def all (d : IntakeDesk) : List Operation → Program Surroundings (List (Except Failure Unit))
  | [] => return []
  | op :: rest => do
      let (reply, d) ← op.task d
      let replies ← all d rest
      return reply :: replies

/-- How an operation begins. -/
def opening (guardians : GuardianSet) : Operation → Except Failure StoreQuery
  | .undo _ r =>
      (Emitter.ofRequest r.emitterChain r.emitterAddress).map fun e => .vaa ⟨e, r.sequence⟩
  | .findMissing _ r => (Emitter.ofRequest r.emitterChain r.emitterAddress).map .gaps
  | .listUndone chain => (ChainId.ofRequest "remote_chain_id" chain).map .undone
  | .process _ message => do
      let v ← Vaa.parseOrFail message
      guardians.verifyOrFail v
      return .storeVaa v.coordinate message
  | .call q => .ok q

variable {d d' : IntakeDesk} {t : Transcript Surroundings}

/-- A service stops as it begins, and the worker is left alone. -/
theorem stops_serve {α : Type} {task : Work α} {opening : Except Failure StoreQuery}
    {reply : Except Failure Unit} (hopens : task.Opens opening)
    (h : Yields (serve d task) t (reply, d')) (hrefused : Refused t) :
    d' = d ∧ ∃ failure, reply = .error failure ∧ Stops opening t failure := by
  obtain ⟨result, t₁, t₂, rfl, h₁, h₂⟩ := yields_bind_iff.mp h
  obtain ⟨rfl, hreply⟩ := yields_done_iff.mp h₂
  rw [List.append_nil] at hrefused ⊢
  obtain ⟨failure, rfl, hstops⟩ := hopens t₁ result h₁ hrefused
  cases hreply
  exact ⟨rfl, failure, rfl, hstops⟩

/-- Every operation stops as it begins. -/
theorem stops_task (op : Operation) {reply : Except Failure Unit} (hempty : d.seen.entries = [])
    (h : Yields (op.task d) t (reply, d')) (hrefused : Refused t) :
    d' = d ∧ ∃ failure, reply = .error failure ∧ Stops (op.opening d.guardians) t failure := by
  cases op with
  | undo settings request =>
      exact stops_serve (Recovery.opens_undoTransfer settings request) h hrefused
  | findMissing timeout request =>
      exact stops_serve (Recovery.opens_findMissing timeout request) h hrefused
  | listUndone chain => exact stops_serve (Recovery.opens_undoneSequences chain) h hrefused
  | call q => exact stops_serve (Work.opens_store q) h hrefused
  | process now message =>
      obtain ⟨⟨result, d''⟩, t₁, t₂, rfl, h₁, h₂⟩ := yields_bind_iff.mp h
      obtain ⟨rfl, hreply⟩ := yields_done_iff.mp h₂
      rw [List.append_nil] at hrefused ⊢
      obtain ⟨rfl, failure, rfl, hstops⟩ := IntakeDesk.process_of_refused hempty h₁ hrefused
      cases hreply
      exact ⟨rfl, failure, rfl, hstops⟩

/-- In a run each operation stops as it begins, in a talk of its own, and
    nobody but storage is asked. -/
theorem stops_all {ops : List Operation} {replies : List (Except Failure Unit)}
    (hempty : d.seen.entries = []) (h : Yields (all d ops) t replies) (hrefused : Refused t) :
    List.Forall₂ (fun op reply => ∃ t' failure, t' ⊆ t ∧ reply = .error failure ∧
      Stops (op.opening d.guardians) t' failure) ops replies ∧
    ∀ e ∈ t, e.query.IsLocal := by
  induction ops generalizing t replies with
  | nil =>
      obtain ⟨rfl, rfl⟩ := yields_done_iff.mp h
      exact ⟨.nil, fun e he => absurd he List.not_mem_nil⟩
  | cons op rest ih =>
      obtain ⟨⟨reply, d'⟩, t₁, t₂, rfl, h₁, h₂⟩ := yields_bind_iff.mp h
      obtain ⟨others, t₃, t₄, rfl, h₃, h₄⟩ := yields_bind_iff.mp h₂
      obtain ⟨rfl, rfl⟩ := yields_done_iff.mp h₄
      have hsub₁ : t₁ ⊆ t₁ ++ (t₃ ++ []) := List.subset_append_left _ _
      have hsub₃ : t₃ ⊆ t₁ ++ (t₃ ++ []) :=
        List.Subset.trans (List.subset_append_left t₃ []) (List.subset_append_right _ _)
      -- the worker behind the operation is the one before it
      obtain ⟨rfl, failure, rfl, hstops⟩ := stops_task op hempty h₁ (hrefused.of_subset hsub₁)
      obtain ⟨hothers, hlocal⟩ := ih h₃ (hrefused.of_subset hsub₃)
      refine ⟨.cons ⟨t₁, failure, hsub₁, rfl, hstops⟩ (hothers.imp ?_), ?_⟩
      · rintro op reply ⟨t', failure, hsub, hreply, hstops⟩
        exact ⟨t', failure, List.Subset.trans hsub hsub₃, hreply, hstops⟩
      · rw [List.append_nil]
        exact List.forall_mem_append.mpr ⟨hstops.isLocal, hlocal⟩

/-- The chain and the address of a request can be read. -/
def IsWellFormed : Operation → Prop
  | .undo _ r => r.emitterChain.toNat < 2 ^ 16 ∧ Bytes32.IsBlockText r.emitterAddress
  | .findMissing _ r => r.emitterChain.toNat < 2 ^ 16 ∧ Bytes32.IsBlockText r.emitterAddress
  | .listUndone chain => chain.toNat < 2 ^ 16
  | .process _ _ | .call _ => True

/-- How an operation has to fail: a request that cannot be read is invalid,
    for any other it is an internal failure, and a message is rejected. -/
inductive FailsClosed : Operation → Except Failure Unit → Prop
  | malformed (op : Operation) (reason : String) (h : ¬ op.IsWellFormed) :
      FailsClosed op (.error (.invalid reason))
  | stopped (op : Operation) (reason : String) (h : op.IsWellFormed) :
      FailsClosed op (.error (.internal reason))
  | rejected (now : Nat) (message : Bytes) (failure : Failure) :
      FailsClosed (.process now message) (.error failure)

/-- Nothing succeeds. -/
theorem FailsClosed.exists_failure {op : Operation} {reply : Except Failure Unit}
    (h : op.FailsClosed reply) : ∃ failure, reply = .error failure := by
  cases h with
  | malformed op reason h => exact ⟨_, rfl⟩
  | stopped op reason h => exact ⟨_, rfl⟩
  | rejected now message failure => exact ⟨failure, rfl⟩

/-- Behind a check that is passed by what can be read, and by nothing else, an
    operation fails as it has to. -/
theorem failsClosed_of_check {α : Type} {check : Except Failure α} {q : α → StoreQuery}
    {op : Operation} {failure : Failure} (hwell : (∃ value, check = .ok value) ↔ op.IsWellFormed)
    (hinvalid : ∀ {failure}, check = .error failure → ∃ reason, failure = .invalid reason)
    (h : Stops (check.map q) t failure) : op.FailsClosed (.error failure) := by
  cases hcheck : check with
  | error objection =>
      rw [hcheck] at h hwell
      cases h
      obtain ⟨reason, rfl⟩ := hinvalid hcheck
      refine .malformed op reason fun hop => ?_
      obtain ⟨value, hvalue⟩ := hwell.mpr hop
      cases hvalue
  | ok value =>
      rw [hcheck] at h
      obtain ⟨fault, rfl, -⟩ := h.internal
      exact .stopped op _ (hwell.mp ⟨value, hcheck⟩)

/-- An operation that stops as it begins fails as it has to. -/
theorem failsClosed_of_stops {op : Operation} {guardians : GuardianSet} {failure : Failure}
    (h : Stops (op.opening guardians) t failure) : op.FailsClosed (.error failure) := by
  cases op with
  | undo settings request =>
      exact failsClosed_of_check Emitter.exists_ofRequest_iff Emitter.invalid_of_ofRequest h
  | findMissing timeout request =>
      exact failsClosed_of_check Emitter.exists_ofRequest_iff Emitter.invalid_of_ofRequest h
  | listUndone chain =>
      exact failsClosed_of_check (ChainId.exists_ofRequest_iff _) ChainId.invalid_of_ofRequest h
  | process now message => exact .rejected now message failure
  | call q =>
      obtain ⟨fault, rfl, -⟩ := h.internal
      exact .stopped (.call q) _ trivial

/-- A number with which an operation gets as far as storage, and which is the
    first of its query that a database cannot keep. -/
inductive Exceeds (guardians : GuardianSet) : Operation → UInt64 → Prop
  | undo (settings : Recovery.Settings) (request : UndoRequest)
      (hwell : IsWellFormed (.undo settings request)) (hn : 2 ^ 63 ≤ request.sequence.toNat) :
      Exceeds guardians (.undo settings request) request.sequence
  | process (now : Nat) (message : Bytes) (v : Vaa) (hparse : Vaa.parse message = .ok v)
      (hverify : guardians.verify v = .ok ()) (hn : 2 ^ 63 ≤ v.coordinate.sequence.toNat) :
      Exceeds guardians (.process now message) v.coordinate.sequence
  | call (q : StoreQuery) (n : UInt64) (h : Storage.IsFirstBeyond q.numbers n) :
      Exceeds guardians (.call q) n

/-- Such a number is in the opening query. -/
theorem Exceeds.exists_opening {op : Operation} {guardians : GuardianSet} {n : UInt64}
    (h : op.Exceeds guardians n) :
    ∃ q, op.opening guardians = .ok q ∧ Storage.IsFirstBeyond q.numbers n := by
  cases h with
  | undo settings request hwell hn =>
      obtain ⟨e, he⟩ := Emitter.exists_ofRequest_iff.mpr hwell
      refine ⟨.vaa ⟨e, request.sequence⟩, ?_, Storage.isFirstBeyond_singleton hn⟩
      rw [opening, he]
      rfl
  | process now message v hparse hverify hn =>
      refine ⟨.storeVaa v.coordinate message, ?_, Storage.isFirstBeyond_singleton hn⟩
      rw [opening, Vaa.parseOrFail_eq_ok_iff.mpr hparse]
      show (guardians.verifyOrFail v >>= fun _ => _) = _
      rw [GuardianSet.verifyOrFail_eq_ok_iff.mpr hverify]
      rfl
  | call q n h => exact ⟨q, rfl, h⟩

/-- Where storage is a database out of reach, the failure is about the
    number. -/
theorem Exceeds.eq_of_stops {op : Operation} {guardians : GuardianSet} {n : UInt64}
    {failure : Failure} (h : op.Exceeds guardians n)
    (hstops : Stops (op.opening guardians) t failure)
    (hdatabase : ∀ (q : StoreQuery) (answer : Except StoreFault q.Result),
      ⟨.store q, answer⟩ ∈ t → ∃ outage, answer = ((Storage.database outage).answer q).1) :
    failure = .internal (StoreFault.outOfRange n).message := by
  obtain ⟨q, hq, hn⟩ := h.exists_opening
  rw [hq] at hstops
  obtain ⟨fault, rfl, hasked⟩ := hstops.internal
  obtain ⟨outage, hanswer⟩ := hdatabase q _ hasked
  cases hanswer
  rw [Storage.askUnreachable_of_isFirstBeyond hn]

end Operation

/-! ## Runs -/

section

variable {σ : Type}

/-- Storage answers every query with a fault. -/
def RefusesStorage (answer : σ → (q : Surroundings.Query) → q.Answer × σ) : Prop :=
  ∀ s (q : StoreQuery), ∃ fault,
    (answer s (.store q)).1 = (.error fault : Except StoreFault q.Result)

/-- Storage is a database that is out of reach, for whatever reason. -/
def HasDatabaseOut (answer : σ → (q : Surroundings.Query) → q.Answer × σ) : Prop :=
  ∀ s (q : StoreQuery), ∃ outage, (answer s (.store q)).1 = ((Storage.database outage).answer q).1

/-- What passes while operations are done one after the other. -/
def Operation.talk (answer : σ → (q : Surroundings.Query) → q.Answer × σ) (s : σ)
    (d : IntakeDesk) (ops : List Operation) : Transcript Surroundings :=
  @transcript Surroundings _ _ answer (Operation.all d ops) s

/-- What each of them comes to. -/
def Operation.replies (answer : σ → (q : Surroundings.Query) → q.Answer × σ) (s : σ)
    (d : IntakeDesk) (ops : List Operation) : List (Except Failure Unit) :=
  (@run Surroundings _ _ answer (Operation.all d ops) s).1

/-- **Storage that fails, fails closed**, whatever peers, queues and clocks do.
    In every run that starts with a worker without memories, each operation
    fails: requests as invalid if their chain or address cannot be read and
    as an internal failure otherwise, messages always; and nobody but
    storage is asked anything.  If storage is a database out of reach, a
    number of more than 63 bits is what the failure is about.  A database
    is not even used for a query with such a number, the first of them is
    named, and any other query comes to it with its own numbers. -/
theorem storage_failure_fails_closed (answer : σ → (q : Surroundings.Query) → q.Answer × σ)
    (s : σ) (guardians : GuardianSet) (capacity timeToLive : Nat) (ops : List Operation)
    (hrefuses : RefusesStorage answer) :
    (∀ e ∈ Operation.talk answer s ⟨guardians, .empty capacity timeToLive⟩ ops,
      e.query.IsLocal) ∧
    List.Forall₂ Operation.FailsClosed ops
      (Operation.replies answer s ⟨guardians, .empty capacity timeToLive⟩ ops) ∧
    (HasDatabaseOut answer → List.Forall₂
      (fun op reply => ∀ n, op.Exceeds guardians n →
        reply = .error (.internal s!"sequence {n.toNat} exceeds database range"))
      ops (Operation.replies answer s ⟨guardians, .empty capacity timeToLive⟩ ops)) ∧
    ∀ q : StoreQuery,
      (∀ n, Storage.IsFirstBeyond q.numbers n → ∀ (m : Type → Type) [Monad m]
        (execute : (q : StoreQuery) → List Int64 → m (Except StoreFault q.Result)),
        Storage.askDatabase execute q = pure (.error (.outOfRange n))) ∧
      ((∀ n ∈ q.numbers, n.toNat < 2 ^ 63) → ∃ signed : List Int64,
        signed.map Int64.toInt = q.numbers.map (fun n => (n.toNat : Int)) ∧
        ∀ (m : Type → Type) [Monad m]
          (execute : (q : StoreQuery) → List Int64 → m (Except StoreFault q.Result)),
          Storage.askDatabase execute q = execute q signed) ∧
      ∀ outage, ((Storage.database outage).answer q).1
        = Storage.askDatabase (m := Id) (fun q _ => .error (.unavailable q.attempt outage)) q := by
  have hanswered : ∀ (q : StoreQuery) (reply : Except StoreFault q.Result),
      ⟨.store q, reply⟩ ∈ Operation.talk answer s ⟨guardians, .empty capacity timeToLive⟩ ops →
        ∃ s', reply = (answer s' (.store q)).1 :=
    fun q reply hmem => exists_state_of_mem_transcript hmem
  have hrefused : Refused
      (Operation.talk answer s ⟨guardians, .empty capacity timeToLive⟩ ops) := by
    intro q reply hmem
    obtain ⟨s', rfl⟩ := hanswered q reply hmem
    exact hrefuses s' q
  obtain ⟨hstops, hlocal⟩ := Operation.stops_all (d := ⟨guardians, .empty capacity timeToLive⟩) rfl
    (@yields_transcript Surroundings _ _ answer _ s) hrefused
  refine ⟨hlocal, hstops.imp ?_, fun hdatabase => hstops.imp ?_, fun q => ⟨?_, ?_, ?_⟩⟩
  · rintro op reply ⟨t, failure, -, rfl, h⟩
    exact Operation.failsClosed_of_stops h
  · rintro op reply ⟨t, failure, hsub, rfl, h⟩ n hn
    refine congrArg Except.error (hn.eq_of_stops h fun q reply hmem => ?_)
    obtain ⟨s', rfl⟩ := hanswered q reply (hsub hmem)
    exact hdatabase s' q
  · exact fun n hn m _ execute => Storage.askDatabase_of_isFirstBeyond hn execute
  · intro hfits
    exact ⟨_, Storage.map_toInt_numbers hfits, fun m _ execute =>
      Storage.askDatabase_of_lt hfits execute⟩
  · exact fun outage => Storage.answer_database outage q

end

/-! ## An outage -/

namespace Site

/-- Surroundings whose database is out of reach. -/
def outage (s : Unit) : (q : Surroundings.Query) → q.Answer × Unit
  | .store q => (((Storage.database .poolTimeout).answer q).1, s)
  | q => (calm q, s)

/-- One operation of each kind: a number that no database keeps, a chain
    that does not exist, a chain that does, the signed message, and a list
    of transfers of which the second and the third are too large. -/
def duringTheOutage : List Operation :=
  [.undo lostCall.settings { lostCall.request with sequence := 9223372036854775808 },
    .findMissing 1000 ⟨70000, lostCall.request.emitterAddress, true, ["peer"]⟩,
    .listUndone 2,
    .process 0 signedMessage.serialize,
    .call (.addUndone ⟨2⟩ [7, 9223372036854775808, 18446744073709551615])]

theorem refusesStorage_outage : RefusesStorage outage := fun _ _ => ⟨_, rfl⟩

theorem hasDatabaseOut_outage : HasDatabaseOut outage := fun _ _ => ⟨.poolTimeout, rfl⟩

/-- The failure of a number that is one too large. -/
def tooLarge : Failure := .internal "sequence 9223372036854775808 exceeds database range"

/-- Each operation fails in its own way, and the list by its second number. -/
theorem outage_fails_every_operation :
    RefusesStorage outage ∧ HasDatabaseOut outage ∧
    ∃ unknownChain unavailable rejection,
      Operation.replies outage () ⟨soleGuardian, .empty 8 1000⟩ duringTheOutage
        = [.error tooLarge, .error (.invalid unknownChain), .error (.internal unavailable),
          .error rejection, .error tooLarge] := by
  obtain ⟨-, hclosed, hrange, -⟩ := storage_failure_fails_closed outage () soleGuardian 8 1000
    duringTheOutage refusesStorage_outage
  have hnumbers := hrange hasDatabaseOut_outage
  refine ⟨refusesStorage_outage, hasDatabaseOut_outage, ?_⟩
  generalize Operation.replies outage () ⟨soleGuardian, .empty 8 1000⟩ duringTheOutage = replies
    at hclosed hnumbers
  match replies, hclosed, hnumbers with
  | [r₁, r₂, r₃, r₄, r₅], .cons _ (.cons h₂ (.cons h₃ (.cons h₄ _))),
      .cons hfirst (.cons _ (.cons _ (.cons _ (.cons hlast .nil)))) =>
      have hone : r₁ = .error tooLarge := by
        have hreadable : (Operation.undo lostCall.settings
            { lostCall.request with sequence := 9223372036854775808 }).IsWellFormed :=
          Emitter.exists_ofRequest_iff.mp ⟨lostMessage.coordinate.emitter, by decide +kernel⟩
        have hlarge : 2 ^ 63 ≤ (9223372036854775808 : UInt64).toNat := Nat.le_refl _
        refine (hfirst _ (.undo _ _ hreadable hlarge)).trans ?_
        decide +kernel
      have htwo : ∃ reason, r₂ = .error (.invalid reason) := by
        cases h₂ with
        | malformed op reason h => exact ⟨reason, rfl⟩
        | stopped op reason h => exact absurd h.1 (by decide)
      have hthree : ∃ reason, r₃ = .error (.internal reason) := by
        cases h₃ with
        | malformed op reason h => exact absurd (by decide : (2 : UInt32).toNat < 2 ^ 16) h
        | stopped op reason h => exact ⟨reason, rfl⟩
      have hfive : r₅ = .error tooLarge := by
        have hsecond : Storage.IsFirstBeyond [7, 9223372036854775808, 18446744073709551615]
            9223372036854775808 :=
          ⟨[7], [18446744073709551615], rfl, List.forall_mem_singleton.mpr (by decide),
            Nat.le_refl _⟩
        refine (hlast _ (.call _ _ hsecond)).trans ?_
        decide +kernel
      obtain ⟨unknownChain, rfl⟩ := htwo
      obtain ⟨unavailable, rfl⟩ := hthree
      obtain ⟨rejection, rfl⟩ := h₄.exists_failure
      exact ⟨unknownChain, unavailable, rejection, by rw [hone, hfive]⟩

end Site

end BridgeGuardian
