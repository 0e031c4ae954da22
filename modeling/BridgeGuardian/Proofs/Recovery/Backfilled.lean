import BridgeGuardian.Proofs.Duplicates
import BridgeGuardian.Proofs.Recovery.Honest
import BridgeGuardian.Proofs.Recovery.Missing
import Mathlib.Control.Monad.Basic

/-! # Backfilled transfers — a message from peers is as good as a stored one

    A request for a transfer that is not stored makes a detour: peers are
    asked, one message goes to the worker, and storage is looked at until the
    message is there.  Nothing of the detour is left in the answer.  Among
    honest peers the message that is submitted is the one they serve; the
    worker cannot have dropped it, since what it remembers is stored; and once
    a look at storage finds it, what follows is asked of the same archive as
    if the message had been there from the start. -/

namespace BridgeGuardian

open Program

/-! ## What the worker does with it -/

/-- A worker and an archive that it has come to by the messages delivered to
    it, from any archive and without a memory. -/
def IntakeDesk.IsReached (g : GuardianSet) (earlier : List Delivery) (d : IntakeDesk)
    (a : Archive) : Prop :=
  ∃ a₀ capacity timeToLive,
    (⟨g, .empty capacity timeToLive⟩ : IntakeDesk).after (.memory a₀) earlier = (d, .memory a)

theorem IntakeDesk.IsReached.isBacked {g : GuardianSet} {earlier : List Delivery} {d : IntakeDesk}
    {a : Archive} (h : d.IsReached g earlier a) : IsBacked g earlier d a := by
  obtain ⟨a₀, capacity, timeToLive, hafter⟩ := h
  obtain ⟨b, hmemory, hbacked, -⟩ := (IsBacked.of_empty g capacity timeToLive a₀).after earlier
  rw [hafter] at hmemory hbacked
  obtain rfl := Storage.memory.inj hmemory
  rwa [List.nil_append] at hbacked

/-- A verified message that is not stored is stored when it is delivered: the
    worker remembers nothing that it has not stored. -/
theorem IsBacked.storage_of_receive {g : GuardianSet} {earlier : List Delivery} {d : IntakeDesk}
    {a : Archive} {delivery : Delivery} {v : Vaa} (h : IsBacked g earlier d a)
    (hfree : CollisionFree (earlier ++ [delivery])) (hv : Vaa.parse delivery.message = .ok v)
    (hverify : g.verify v = .ok ()) (hunseen : ¬ a.Keeps v.coordinate) :
    (d.receive (.memory a) delivery).2
      = .memory (a.storeVaa v.coordinate delivery.message) := by
  obtain rfl := h.guardians
  cases hseen : d.seen.contains delivery.moment v.signingDigest with
  | false => rw [IntakeDesk.receive_of_verify a hv hseen hverify]
  | true =>
      obtain ⟨e, he, hdigest⟩ := DigestCache.exists_mem_of_contains hseen
      obtain ⟨m, hm, w, hw, -, hentry, hkeeps⟩ := h.remembered e he
      have hbody : w.body = v.body :=
        hfree m (List.mem_append_left _ hm) delivery
          (List.mem_append_right _ (List.mem_singleton_self _)) w v hw hv (hentry.trans hdigest)
      rw [Vaa.coordinate_eq_of_body_eq hbody] at hkeeps
      exact absurd hkeeps hunseen

/-- A run in two parts: an archive answers the first, then a worker deals with
    what has been submitted, and the archive that it leaves answers the
    second. -/
structure IsAttended (d : IntakeDesk) (a : Archive) (before : Transcript Surroundings)
    (deliveries : List Delivery) (behind : Transcript Surroundings) (a' : Archive) : Prop where
  queue : deliveries.map Delivery.message = before.flatMap submitted
  served : ∃ a₁ a₂, Served (fun _ => False) a before a₁ ∧
    (d.after (.memory a₁) deliveries).2 = .memory a₂ ∧ Served (fun _ => False) a₂ behind a'

/-- The worker is in time for a message: everything has been submitted before
    the second part, and storage is looked at again in it. -/
structure IsInTime (c : Coordinate) (behind : Transcript Surroundings) : Prop where
  submitted : behind.flatMap submitted = []
  looks : ∃ answer, ⟨.store (.vaa c), answer⟩ ∈ behind

theorem IsAttended.of_append {d : IntakeDesk} {a a' : Archive}
    {before behind later : Transcript Surroundings} {deliveries : List Delivery}
    (h : IsAttended d a before deliveries (behind ++ later) a') :
    ∃ b, IsAttended d a before deliveries behind b ∧ Served (fun _ => False) b later a' := by
  obtain ⟨a₁, a₂, hbefore, hworker, hrest⟩ := h.served
  obtain ⟨b, hbehind, hlater⟩ := hrest.of_append
  exact ⟨b, ⟨h.queue, a₁, a₂, hbefore, hworker, hbehind⟩, hlater⟩

theorem IsInTime.of_append {c : Coordinate} {behind later : Transcript Surroundings}
    (h : IsInTime c (behind ++ later)) (hlater : ∀ e ∈ later, e.query ≠ .store (.vaa c)) :
    IsInTime c behind where
  submitted := by
    have hnothing := h.submitted
    rw [List.flatMap_append] at hnothing
    exact (List.append_eq_nil_iff.mp hnothing).1
  looks := by
    obtain ⟨answer, hmem⟩ := h.looks
    exact ⟨answer, (List.mem_append.mp hmem).resolve_right fun hin => hlater _ hin rfl⟩

namespace Recovery

variable {s : Settings} {peers : List String} {c : Coordinate} {request : UndoRequest}
  {e : Emitter} {a a' a'' : Archive} {t : Transcript Surroundings} {bytes : Bytes}
  {governanceSequence : UInt64} {result other : Except Failure GovernanceMessage}

/-! ## From the octets to the answer -/

/-- Two answers are the same failure, or messages that are the same but for
    the nonce. -/
def AgreeUpToNonce (result other : Except Failure GovernanceMessage) : Prop :=
  result.map (fun message => { message with nonce := 0 })
    = other.map (fun message => { message with nonce := 0 })

/-- Everything behind the loading. -/
def complete (s : Settings) (governanceSequence : UInt64) (c : Coordinate) (bytes : Bytes) :
    Work GovernanceMessage :=
  gather s c bytes >>= issue governanceSequence c

/-- A reconstruction loads and completes. -/
theorem reconstruct_eq_complete (s : Settings) (governanceSequence : UInt64)
    (peers : List String) (c : Coordinate) :
    reconstruct s governanceSequence peers c
      = loadVaa s peers c >>= complete s governanceSequence c := by
  rw [reconstruct_eq, prepare_eq, bind_assoc]
  rfl

/-- The ingredients, once the transfer is claimed. -/
def secure (s : Settings) (c : Coordinate) (bytes : Bytes) : Work Ingredients := do
  let i ← gather s c bytes
  claim c
  return i

/-- The nonce is asked for when everything else is settled. -/
theorem complete_eq (s : Settings) (governanceSequence : UInt64) (c : Coordinate)
    (bytes : Bytes) :
    complete s governanceSequence c bytes = secure s c bytes >>= fun i => Work.nonce >>=
      fun nonce => pure ⟨governanceSequence, nonce, i.order c⟩ := by
  simp only [complete, secure, bind_assoc, pure_bind]
  rfl

theorem onlyAsks_secure (s : Settings) (c : Coordinate) (bytes : Bytes) :
    (secure s c bytes).run.OnlyAsks Surroundings.Query.IsSettled := by
  refine onlyAsks_bindExcept (onlyAsks_gather (fun _ => .inl ⟨_, rfl⟩) (fun _ => .inl ⟨_, rfl⟩)
    (.inr rfl) bytes) fun i => ?_
  exact onlyAsks_bindExcept (onlyAsks_claim (.inl ⟨_, rfl⟩)) fun _ => trivial

/-- An archive takes octets to an answer, undisturbed and not withdrawn. -/
def Completes (s : Settings) (governanceSequence : UInt64) (c : Coordinate) (bytes : Bytes)
    (a : Archive) (result : Except Failure GovernanceMessage) (a' : Archive) : Prop :=
  ∃ t, Yields (complete s governanceSequence c bytes).run t result ∧
    Served (fun _ => False) a t a' ∧ ∀ answer, ⟨.isCancelled, answer⟩ ∈ t → answer = false

/-- The archive and the octets settle the answer, up to the nonce. -/
theorem Completes.agree (h : Completes s governanceSequence c bytes a result a')
    (h' : Completes s governanceSequence c bytes a other a'') :
    AgreeUpToNonce result other ∧ a' = a'' := by
  obtain ⟨t, hyields, hserved, hgoing⟩ := h
  obtain ⟨u, hyields', hserved', hgoing'⟩ := h'
  rw [complete_eq] at hyields hyields'
  have hsettled := onlyAsks_secure s c bytes
  rcases yields_bindExcept_iff.mp hyields with ⟨failure, h₁, rfl⟩ | ⟨i, t₁, t₂, rfl, h₁, h₂⟩
  · rcases yields_bindExcept_iff.mp hyields' with ⟨failure', h₁', rfl⟩ | ⟨j, u₁, u₂, rfl, h₁', -⟩
    · obtain ⟨hsame, rfl⟩ := Served.eq_of_settled hsettled h₁ hserved hgoing h₁' hserved' hgoing'
      cases hsame
      exact ⟨rfl, rfl⟩
    · obtain ⟨b, hserved', -⟩ := hserved'.of_append
      cases (Served.eq_of_settled hsettled h₁ hserved hgoing h₁' hserved'
        fun answer hmem => hgoing' answer (List.mem_append_left _ hmem)).1
  · obtain ⟨b, hserved₁, hserved₂⟩ := hserved.of_append
    have hgoing₁ := fun answer hmem => hgoing answer (List.mem_append_left _ hmem)
    rcases yields_bindExcept_iff.mp hyields' with
      ⟨failure', h₁', rfl⟩ | ⟨j, u₁, u₂, rfl, h₁', h₂'⟩
    · cases (Served.eq_of_settled hsettled h₁ hserved₁ hgoing₁ h₁' hserved' hgoing').1
    · obtain ⟨b', hserved₁', hserved₂'⟩ := hserved'.of_append
      obtain ⟨hsame, rfl⟩ := Served.eq_of_settled hsettled h₁ hserved₁ hgoing₁ h₁' hserved₁'
        fun answer hmem => hgoing' answer (List.mem_append_left _ hmem)
      cases hsame
      -- only the nonces are left, and they leave the archive alone
      obtain ⟨nonce, rest, rfl, hdone⟩ := yields_ask_iff.mp h₂
      obtain ⟨rfl, rfl⟩ := yields_done_iff.mp hdone
      obtain ⟨nonce', rest', rfl, hdone'⟩ := yields_ask_iff.mp h₂'
      obtain ⟨rfl, rfl⟩ := yields_done_iff.mp hdone'
      obtain ⟨rfl, -⟩ := hserved₂.of_onlyReads (List.forall_mem_singleton.mpr trivial)
      obtain ⟨rfl, -⟩ := hserved₂'.of_onlyReads (List.forall_mem_singleton.mpr trivial)
      exact ⟨rfl, rfl⟩

/-! ## A request in two parts -/

/-- A query that neither leaves the site nor looks for the message. -/
def IsAftermath (c : Coordinate) (q : Surroundings.Query) : Prop :=
  q.StaysInside ∧ q ≠ .store (.vaa c)

theorem onlyAsks_complete (s : Settings) (governanceSequence : UInt64) (c : Coordinate)
    (bytes : Bytes) : (complete s governanceSequence c bytes).run.OnlyAsks (IsAftermath c) := by
  refine onlyAsks_bindExcept (onlyAsks_gather (fun _ => ⟨trivial, nofun⟩)
    (fun _ => ⟨trivial, nofun⟩) ⟨trivial, nofun⟩ bytes) fun i => ?_
  exact onlyAsks_issue ⟨trivial, nofun⟩ ⟨trivial, nofun⟩ i

/-- A request loads octets, and comes to its answer from them. -/
structure Loads (s : Settings) (request : UndoRequest) (c : Coordinate)
    (front rear : Transcript Surroundings) (loaded : Except Failure Bytes)
    (result : Except Failure GovernanceMessage) : Prop where
  load : Yields (loadVaa s request.peers c).run front loaded
  aftermath : ∀ x ∈ rear, IsAftermath c x.query
  complete : ∀ bytes, loaded = .ok bytes → ∃ t m, rear = t ++ [⟨.record m, ()⟩] ∧
    Yields (complete s request.governanceSequence c bytes).run t result

theorem loads_of_yields
    (he : Emitter.ofRequest request.emitterChain request.emitterAddress = .ok e)
    (h : Yields (undoTransfer s request).run t result) :
    ∃ front rear loaded, t = front ++ rear ∧
      Loads s request ⟨e, request.sequence⟩ front rear loaded result := by
  rcases yields_undoTransfer h with ⟨failure, hrefused, -, -⟩ | ⟨e', t', m, he', rfl, h'⟩
  · rw [he] at hrefused
    cases hrefused
  rw [he] at he'
  cases he'
  have hreport : ∀ x ∈ [(⟨.record m, ()⟩ : Exchange Surroundings)],
      IsAftermath ⟨e, request.sequence⟩ x.query :=
    List.forall_mem_singleton.mpr ⟨trivial, nofun⟩
  rw [reconstruct_eq_complete] at h'
  rcases yields_bindExcept_iff.mp h' with ⟨failure, h₁, rfl⟩ | ⟨bytes, t₁, t₂, rfl, h₁, h₂⟩
  · exact ⟨t', _, _, rfl, h₁, hreport, nofun⟩
  · refine ⟨t₁, t₂ ++ [⟨.record m, ()⟩], .ok bytes, List.append_assoc _ _ _, h₁, ?_, ?_⟩
    · exact List.forall_mem_append.mpr ⟨h₂.onlyAsks (onlyAsks_complete _ _ _ bytes), hreport⟩
    · intro found hfound
      cases hfound
      exact ⟨t₂, m, rfl, h₂⟩

/-- Octets that are loaded and completed are what a request comes to. -/
theorem exists_yields_of_loaded {front : Transcript Surroundings}
    (he : Emitter.ofRequest request.emitterChain request.emitterAddress = .ok e)
    (hload : Yields (loadVaa s request.peers ⟨e, request.sequence⟩).run front (.ok bytes))
    (h : Yields (complete s request.governanceSequence ⟨e, request.sequence⟩ bytes).run t result) :
    ∃ m, Yields (undoTransfer s request).run (front ++ (t ++ [⟨.record m, ()⟩])) result := by
  have hreconstruct : Yields (reconstruct s request.governanceSequence request.peers
      ⟨e, request.sequence⟩).run (front ++ t) result := by
    rw [reconstruct_eq_complete]
    exact yields_bindExcept_iff.mpr (.inr ⟨bytes, front, t, rfl, hload, h⟩)
  obtain ⟨m, hrun⟩ := exists_yields_undoTransfer he hreconstruct
  exact ⟨m, List.append_assoc front t _ ▸ hrun⟩

/-- What has been loaded completes on the archive that answers the rest. -/
theorem Loads.completes {front rear : Transcript Surroundings} {loaded : Except Failure Bytes}
    (h : Loads s request c front rear loaded result) (hloaded : loaded = .ok bytes)
    (hserved : Served (fun _ => False) a rear a')
    (hgoing : ∀ answer, ⟨.isCancelled, answer⟩ ∈ rear → answer = false) :
    Completes s request.governanceSequence c bytes a result a' := by
  obtain ⟨t, m, rfl, hcomplete⟩ := h.complete bytes hloaded
  obtain ⟨b, hserved, hreported⟩ := hserved.of_append
  obtain ⟨rfl, -⟩ := hreported.of_onlyReads (List.forall_mem_singleton.mpr trivial)
  exact ⟨t, hcomplete, hserved, fun answer hmem => hgoing answer (List.mem_append_left _ hmem)⟩

/-- A request for what is stored completes on the archive as it is. -/
theorem completes_of_stored
    (he : Emitter.ofRequest request.emitterChain request.emitterAddress = .ok e)
    (hbytes : a.vaa? ⟨e, request.sequence⟩ = some bytes)
    (hserved : Served (fun _ => False) a t a')
    (hgoing : ∀ answer, ⟨.isCancelled, answer⟩ ∈ t → answer = false)
    (h : Yields (undoTransfer s request).run t result) :
    Completes s request.governanceSequence ⟨e, request.sequence⟩ bytes a result a' := by
  obtain ⟨front, rear, loaded, rfl, hloads⟩ := loads_of_yields he h
  obtain ⟨b, hfront, hrear⟩ := hserved.of_append
  obtain ⟨rfl, hanswers⟩ := hfront.of_onlyReads (hloads.load.onlyAsks (onlyAsks_loadVaa s _ _))
  have hloaded := yields_loadVaa_of_stored hloads.load fun answer hmem =>
    (hanswers (.vaa _) answer hmem).trans (congrArg Except.ok hbytes)
  exact hloads.completes hloaded.2 hrear
    fun answer hmem => hgoing answer (List.mem_append_right _ hmem)

/-! ## Loading from peers -/

/-- Loading what is not stored submits the message that honest peers serve. -/
theorem submitted_of_yields_loadVaa {network : String → NetworkReply} {message : Bytes} {v : Vaa}
    {loaded : Except Failure Bytes} (hv : Vaa.parse message = .ok v) (hc : v.coordinate = c)
    (hpeers : CanServe network peers c message) (hcalm : ∀ x ∈ t, IsCalm network x)
    (hlook : ∀ answer rest, t = ⟨.store (.vaa c), answer⟩ :: rest → answer = .ok none)
    (h : Yields (loadVaa s peers c).run t loaded) : t.flatMap submitted = [message] := by
  rcases yields_bindExcept_iff.mp h with ⟨failure, h₁, rfl⟩ | ⟨found, t₁, t₂, rfl, h₁, h₂⟩
  · obtain ⟨answer, rfl, hanswer⟩ := Work.yields_store_iff.mp h₁
    rw [hlook answer [] rfl] at hanswer
    cases hanswer
  obtain rfl := Work.yields_store_ok_iff.mp h₁
  cases hlook (.ok found) t₂ rfl
  have hcalm₂ := (List.forall_mem_append.mp hcalm).2
  rcases yields_bindExcept_iff.mp h₂ with ⟨failure, h₃, rfl⟩ | ⟨isFound, t₃, t₄, rfl, h₃, h₄⟩
  · cases (Backfill.submitted_of_yields_fetch hv hc hpeers hcalm₂ h₃).1
  · obtain ⟨hfound, hone⟩ := Backfill.submitted_of_yields_fetch hv hc hpeers
      (List.forall_mem_append.mp hcalm₂).1 h₃
    cases hfound
    -- the checks submit nothing
    have hchecks : ∀ x ∈ t₄, x.query.StaysInside := by
      refine h₄.onlyAsks (PollPolicy.onlyAsks_pollFor ?_ ?_ _)
      · exact ⟨trivial, fun _ => trivial⟩
      · exact Work.onlyAsks_store trivial
    show (t₃ ++ t₄).flatMap submitted = [message]
    rw [List.flatMap_append, hone, flatMap_submitted_of_staysInside hchecks, List.append_nil]

/-! ## With and without the detour -/

/-- A message that guardians have signed, with a coordinate. -/
def IsSignedAs (g : GuardianSet) (c : Coordinate) (message : Bytes) : Prop :=
  ∃ v, Vaa.parse message = .ok v ∧ v.coordinate = c ∧ g.verify v = .ok ()

section

variable {g : GuardianSet} {earlier deliveries : List Delivery} {d : IntakeDesk}
  {message : Bytes} {network : String → NetworkReply} {before behind : Transcript Surroundings}

/-- The message that honest peers serve comes through a worker that is in
    time: it is submitted, stored, and loaded. -/
theorem loaded_of_attended {loaded : Except Failure Bytes} (hreached : d.IsReached g earlier a)
    (hunseen : ¬ a.Keeps c) (hsigned : IsSignedAs g c message)
    (hpeers : CanServe network peers c message)
    (hcalm : ∀ x ∈ before ++ behind, IsCalm network x)
    (hattended : IsAttended d a before deliveries behind a')
    (hfree : CollisionFree (earlier ++ deliveries)) (hintime : IsInTime c behind)
    (h : Yields (loadVaa s peers c).run (before ++ behind) loaded) :
    before.flatMap submitted = [message] ∧ loaded = .ok message ∧
      a' = a.storeVaa c message := by
  obtain ⟨v, hv, rfl, hverify⟩ := hsigned
  obtain ⟨a₁, a₂, hbefore, hworker, hbehind⟩ := hattended.served
  -- loading only reads, so the worker is the one who changes the archive
  obtain ⟨hreads, hreads'⟩ := List.forall_mem_append.mp (h.onlyAsks (onlyAsks_loadVaa s peers _))
  obtain ⟨rfl, hanswers⟩ := hbefore.of_onlyReads hreads
  obtain ⟨rfl, hanswers'⟩ := hbehind.of_onlyReads hreads'
  have hnone : a₁.vaa? v.coordinate = none := Option.not_isSome_iff_eq_none.mp hunseen
  have hfirst : ∀ answer rest, before ++ behind = ⟨.store (.vaa v.coordinate), answer⟩ :: rest →
      answer = .ok none := by
    intro answer rest hfront
    cases before with
    | nil =>
        -- nothing has been submitted yet, so the worker has left the archive alone
        obtain rfl := List.map_eq_nil_iff.mp hattended.queue
        obtain rfl := Storage.memory.inj hworker
        obtain rfl : behind = _ := hfront
        exact (hanswers' _ answer List.mem_cons_self).trans (congrArg Except.ok hnone)
    | cons look others =>
        obtain ⟨rfl, -⟩ := List.cons.inj hfront
        exact (hanswers _ answer List.mem_cons_self).trans (congrArg Except.ok hnone)
  have hone := submitted_of_yields_loadVaa hv rfl hpeers hcalm hfirst h
  rw [List.flatMap_append, hintime.submitted, List.append_nil] at hone
  obtain ⟨delivery, rfl, rfl⟩ := List.map_eq_singleton_iff.mp (hattended.queue.trans hone)
  have hstored := hreached.isBacked.storage_of_receive hfree hv hverify hunseen
  obtain rfl := Storage.memory.inj (hworker.symm.trans hstored)
  obtain ⟨answer, hlook⟩ := hintime.looks
  obtain rfl := (hanswers' _ answer hlook).trans
    (congrArg Except.ok (Archive.vaa?_storeVaa hunseen delivery.message))
  exact ⟨hone, yields_loadVaa_of_mem h (List.mem_append_right _ hlook), rfl⟩

/-- The detour over peers leaves no trace.  A worker that has come to an
    archive where a message is not stored, honest peers one of which serves
    it, and a request that nothing interferes with: if the worker deals with
    what has been submitted before the last look at storage, then it was this
    message, and the request comes to the same answer, up to the nonce, and
    leaves the same archive behind as where the message is stored beforehand. -/
theorem backfilled_as_if_stored {u : Transcript Surroundings}
    (hreached : d.IsReached g earlier a)
    (he : Emitter.ofRequest request.emitterChain request.emitterAddress = .ok e)
    (hunseen : ¬ a.Keeps ⟨e, request.sequence⟩)
    (hsigned : IsSignedAs g ⟨e, request.sequence⟩ message)
    (hpeers : CanServe network request.peers ⟨e, request.sequence⟩ message)
    (hcalm : ∀ x ∈ before ++ behind, IsCalm network x)
    (hattended : IsAttended d a before deliveries behind a')
    (hfree : CollisionFree (earlier ++ deliveries))
    (hintime : IsInTime ⟨e, request.sequence⟩ behind)
    (h : Yields (undoTransfer s request).run (before ++ behind) result)
    (hserved' : Served (fun _ => False) (a.storeVaa ⟨e, request.sequence⟩ message) u a'')
    (hgoing' : ∀ answer, ⟨.isCancelled, answer⟩ ∈ u → answer = false)
    (h' : Yields (undoTransfer s request).run u other) :
    before.flatMap submitted = [message] ∧ AgreeUpToNonce result other ∧ a' = a'' := by
  obtain ⟨front, rear, loaded, hcut, hloads⟩ := loads_of_yields he h
  have hrear : ∀ x ∈ rear, x.query ≠ .store (.vaa ⟨e, request.sequence⟩) :=
    fun x hx => (hloads.aftermath x hx).2
  -- storage is looked at again, so the worker is done before the loading is
  obtain ⟨checks, rfl, rfl⟩ : ∃ checks, front = before ++ checks ∧ behind = checks ++ rear := by
    rcases List.append_eq_append_iff.mp hcut with ⟨checks, hfront, hbehind⟩ | ⟨rest, -, hrest⟩
    · exact ⟨checks, hfront, hbehind⟩
    · obtain ⟨answer, hlook⟩ := hintime.looks
      exact absurd rfl (hrear _ (hrest ▸ List.mem_append_right _ hlook))
  obtain ⟨b, hattended, hserved⟩ := hattended.of_append
  rw [← List.append_assoc] at hcalm
  obtain ⟨hcalm, hcalm'⟩ := List.forall_mem_append.mp hcalm
  obtain ⟨hone, hloaded, rfl⟩ := loaded_of_attended hreached hunseen hsigned hpeers
    hcalm hattended hfree (hintime.of_append hrear) hloads.load
  -- from here on both requests put the same questions to the same archive
  have hcompletes := hloads.completes hloaded hserved
    fun _ hmem => hcalm' _ hmem
  have hcompletes' := completes_of_stored he (Archive.vaa?_storeVaa hunseen message) hserved'
    hgoing' h'
  obtain ⟨hagree, hsame⟩ := hcompletes.agree hcompletes'
  exact ⟨hone, hagree, hsame⟩

/-! ## A worker that is in time -/

/-- A pause, and a look at storage that finds the octets. -/
def foundLater (s : Settings) (c : Coordinate) (bytes : Bytes) : Transcript Surroundings :=
  [⟨.pause s.polling.interval, .elapsed⟩, ⟨.store (.vaa c), .ok (some bytes)⟩]

/-- What has been submitted may be there at the next look. -/
theorem yields_loadVaa_foundLater (hattempts : s.polling.attempts.toNat ≠ 0)
    (h : Yields (Backfill.fetch s.backfillTimeout peers c).run t (.ok true)) :
    Yields (loadVaa s peers c).run
      (⟨.store (.vaa c), .ok none⟩ :: t ++ foundLater s c bytes) (.ok bytes) := by
  obtain ⟨left, hleft⟩ := Nat.exists_eq_succ_of_ne_zero hattempts
  refine yields_bindExcept_iff.mpr
    (.inr ⟨none, [_], _, rfl, Work.yields_store_ok_iff.mpr rfl, ?_⟩)
  refine yields_bindExcept_iff.mpr (.inr ⟨true, _, _, rfl, h, ?_⟩)
  show Yields (PollPolicy.pollFor _ _ _ s.polling.attempts.toNat) _ _
  rw [hleft]
  exact .ask (.ask (.done _))

/-- What is loaded can be completed. -/
theorem exists_completed (s : Settings) (governanceSequence : UInt64) (c : Coordinate)
    (bytes : Bytes) (a : Archive) (network : String → NetworkReply) :
    ∃ t result a', Yields (complete s governanceSequence c bytes).run t result ∧
      (∀ x ∈ t, IsCalm network x) ∧ (∀ x ∈ t, IsAftermath c x.query) ∧
      Served (fun _ => False) a t a' := by
  have hcomplete := yields_transcript (Site.serve (Site.calmly network))
    (complete s governanceSequence c bytes).run a
  exact ⟨_, _, _, hcomplete, Site.isCalm_of_mem_transcript network _ a,
    hcomplete.onlyAsks (onlyAsks_complete s _ c bytes), Site.served_transcript _ _ a⟩

/-- A worker can be in time: some run goes that way, if storage is looked at
    again at all. -/
theorem exists_attended {moment : Nat} (hreached : d.IsReached g earlier a)
    (he : Emitter.ofRequest request.emitterChain request.emitterAddress = .ok e)
    (hunseen : ¬ a.Keeps ⟨e, request.sequence⟩)
    (hsigned : IsSignedAs g ⟨e, request.sequence⟩ message)
    (hpeers : CanServe network request.peers ⟨e, request.sequence⟩ message)
    (hfree : CollisionFree (earlier ++ [⟨moment, message⟩]))
    (hattempts : s.polling.attempts.toNat ≠ 0) :
    ∃ before behind result a', Yields (undoTransfer s request).run (before ++ behind) result ∧
      (∀ x ∈ before ++ behind, IsCalm network x) ∧
      IsAttended d a before [⟨moment, message⟩] behind a' ∧
      IsInTime ⟨e, request.sequence⟩ behind := by
  obtain ⟨v, hv, hc, hverify⟩ := hsigned
  obtain ⟨asked, hfetch, hcalm, hone, hserved⟩ :=
    Backfill.exists_yields_fetch s.backfillTimeout a hv hc hpeers
  have hstored := hreached.isBacked.storage_of_receive hfree hv hverify (hc ▸ hunseen)
  rw [hc] at hstored
  obtain ⟨completed, result, a', hcomplete, hcalm', haftermath, hserved'⟩ :=
    exists_completed s request.governanceSequence ⟨e, request.sequence⟩ message
      (a.storeVaa ⟨e, request.sequence⟩ message) network
  obtain ⟨m, hrun⟩ :=
    exists_yields_of_loaded he (yields_loadVaa_foundLater hattempts hfetch) hcomplete
  rw [List.append_assoc] at hrun
  have hnone : a.vaa? ⟨e, request.sequence⟩ = none := Option.not_isSome_iff_eq_none.mp hunseen
  refine ⟨_, _, result, a', hrun, ?calm, ⟨hone.symm, a, _, ?asked, hstored, ?completed⟩,
    ?nothing, ?looks⟩
  case calm =>
    refine List.forall_mem_append.mpr ⟨List.forall_mem_cons.mpr ⟨trivial, hcalm⟩, ?_⟩
    refine List.forall_mem_append.mpr ⟨?_, List.forall_mem_append.mpr
      ⟨hcalm', List.forall_mem_singleton.mpr trivial⟩⟩
    exact List.forall_mem_cons.mpr ⟨trivial, List.forall_mem_singleton.mpr trivial⟩
  case asked =>
    exact .exchange (serves_store_iff.mpr ⟨congrArg Except.ok hnone.symm, rfl⟩) hserved
  case completed =>
    refine .exchange (.of_leavesStorage trivial) (.exchange ?_ (hserved'.append ?_))
    · exact serves_store_iff.mpr
        ⟨congrArg Except.ok (Archive.vaa?_storeVaa hunseen message).symm, rfl⟩
    · exact .exchange (.of_leavesStorage trivial) (.nil a')
  case nothing =>
    refine flatMap_submitted_of_staysInside (List.forall_mem_append.mpr ⟨?_,
      List.forall_mem_append.mpr ⟨fun x hx => (haftermath x hx).1, ?_⟩⟩)
    · exact List.forall_mem_cons.mpr ⟨trivial, List.forall_mem_singleton.mpr trivial⟩
    · exact List.forall_mem_singleton.mpr trivial
  case looks =>
    exact ⟨.ok (some message), List.mem_append_left _ (List.mem_cons_of_mem _ List.mem_cons_self)⟩

end

end Recovery

/-! ## A lost transfer that a peer has -/

namespace Site

open Recovery

/-- The message of the lost transfer, as the one guardian signed it. -/
def signedTransfer : Vaa where
  version := 1
  guardianSetIndex := 0
  -- the numbers `r` and `s` of the signature, and its recovery id
  signatures := [⟨0, ⟨
    [236, 112, 91, 154, 124, 15, 252, 84, 90, 138, 187, 41, 131, 77, 118, 12, 206, 156, 182,
      120, 103, 209, 50, 162, 210, 44, 107, 229, 167, 4, 110, 114] ++
    [119, 107, 205, 202, 189, 83, 215, 219, 233, 91, 9, 218, 67, 232, 241, 136, 71, 80, 84,
      37, 156, 211, 55, 42, 192, 209, 55, 188, 165, 85, 89, 7] ++
    [1], rfl⟩⟩]
  timestamp := 1700000000
  nonce := 7
  coordinate := lostMessage.coordinate
  consistencyLevel := 15
  payload := lostTransfer.encode

theorem signingDigest_signedTransfer : signedTransfer.signingDigest
    = .ofNat 32 0x346ac6fbdf3a2596089c964f22d4c446c5b7e2ecbbce28f01fccb9ec0a5280cd := by
  decide +kernel

theorem verify_signedTransfer : soleGuardian.verify signedTransfer = .ok () := by
  refine GuardianSet.verify_of_signingDigest signingDigest_signedTransfer rfl (by decide) ?_
  decide +kernel

theorem isSignedAs_signedTransfer :
    IsSignedAs soleGuardian lostMessage.coordinate signedTransfer.serialize :=
  ⟨signedTransfer, Vaa.parse_serialize rfl (by decide), rfl, verify_signedTransfer⟩

/-- The wrapper of its token is registered, but the message is not stored. -/
def bareArchive : Archive := { lostSite.archive with vaas := [] }

/-- The archive with the message. -/
def filledArchive : Archive :=
  bareArchive.storeVaa lostMessage.coordinate signedTransfer.serialize

/-- The request for it names one peer. -/
def peerRequest : UndoRequest := { lostCall.request with peers := ["peer"] }

/-- This peer serves the message, as every other one does. -/
def oneMessage (_ : String) : NetworkReply := serving signedTransfer.serialize

theorem canServe_peerRequest :
    CanServe oneMessage peerRequest.peers lostMessage.coordinate signedTransfer.serialize where
  honest _ _ := .serving (PeerVerdict.decode_messageShape _)
  found := ⟨"peer", List.mem_singleton_self _, delivers_of_body _⟩

/-- The peer serves the message of the lost transfer, the worker stores it in
    time, and the request comes to the message that it comes to where the
    message is stored beforehand. -/
theorem lost_transfer_comes_from_a_peer :
    ∃ before behind a' u message other,
      Yields (undoTransfer lostCall.settings peerRequest).run (before ++ behind) (.ok message) ∧
      IsAttended soleDesk bareArchive before [⟨0, signedTransfer.serialize⟩] behind a' ∧
      before.flatMap submitted = [signedTransfer.serialize] ∧
      Yields (undoTransfer lostCall.settings peerRequest).run u (.ok other) ∧
      Served (fun _ => False) filledArchive u a' ∧ AgreeUpToNonce (.ok message) (.ok other) := by
  have hreached : soleDesk.IsReached soleGuardian [] bareArchive := ⟨bareArchive, 8, 1000, rfl⟩
  have he : Emitter.ofRequest peerRequest.emitterChain peerRequest.emitterAddress
      = .ok lostMessage.coordinate.emitter := rfl
  have hunseen : ¬ bareArchive.Keeps lostMessage.coordinate := by decide +kernel
  have hfree : CollisionFree ([] ++ [⟨0, signedTransfer.serialize⟩]) := by
    intro m hm n hn v w hv hw _
    obtain rfl := List.mem_singleton.mp hm
    obtain rfl := List.mem_singleton.mp hn
    rw [Except.ok.inj (hv.symm.trans hw)]
  obtain ⟨before, behind, result, a', hrun, hcalm, hattended, hintime⟩ :=
    @exists_attended lostCall.settings _ _ _ _ _ _ _ _ 0 hreached he hunseen
      isSignedAs_signedTransfer canServe_peerRequest hfree (by decide)
  -- the same request where the message is stored
  let stored := (undoTransfer lostCall.settings peerRequest).run
  have hrun' := yields_transcript (serve (calmly oneMessage)) stored filledArchive
  have hserved' := @served_transcript (fun _ => False) _ (calmly oneMessage) stored filledArchive
  have hgoing' : ∀ answer, ⟨.isCancelled, answer⟩ ∈
      stored.transcript (serve (calmly oneMessage)) filledArchive → answer = false :=
    fun answer => isCalm_of_mem_transcript oneMessage stored filledArchive ⟨.isCancelled, answer⟩
  obtain ⟨hone, hagree, hsame⟩ := backfilled_as_if_stored hreached he hunseen
    isSignedAs_signedTransfer canServe_peerRequest hcalm hattended hfree hintime hrun hserved'
    hgoing' hrun'
  rw [← hsame] at hserved'
  have hok : (stored.run (serve (calmly oneMessage)) filledArchive).1.isOk = true := by
    decide +kernel
  cases hother : (stored.run (serve (calmly oneMessage)) filledArchive).1 with
  | error failure =>
      rw [hother] at hok
      cases hok
  | ok other =>
      rw [hother] at hrun' hagree
      cases result with
      | error failure => cases hagree
      | ok message =>
          exact ⟨before, behind, _, _, message, other, hrun, hattended, hone, hrun', hserved',
            hagree⟩

end Site

end BridgeGuardian
