import BridgeGuardian.Proofs.DigestCache
import BridgeGuardian.Proofs.Site.Verified

/-! # Rejected messages — a failure leaves no trace

    A worker fails at one of three places: a message cannot be read, its
    signatures do not verify, or it cannot be written.  A digest is
    remembered behind all three, so as long as a write that fails changes
    nothing, a message that fails changes neither what the worker remembers
    nor what is stored.  `attend_cases` says this of one message, and the
    rest is told by induction along the run.

    Storage may answer differently from one write to the next, so each
    message comes with what storage does when it is written.  While it fails
    nothing is stored; but what was stored before is still remembered, and a
    worker drops what it remembers before it asks storage. -/

namespace BridgeGuardian

/-- A message, the moment at which a worker deals with it, and what storage
    does with it if it is written then. -/
structure Attempt (σ : Type) where
  moment : Nat
  message : Bytes
  write : Coordinate → Bytes → StateM σ (Except StoreFault Unit)

namespace Attempt

variable {σ : Type}

/-- A write that fails changes nothing. -/
def IsAtomic (a : Attempt σ) : Prop :=
  ∀ c bytes s fault, ((a.write c bytes).run s).1 = .error fault → ((a.write c bytes).run s).2 = s

/-- Every write to storage fails. -/
def IsOut (a : Attempt σ) (s : σ) : Prop :=
  ∀ c bytes, ∃ fault, ((a.write c bytes).run s).1 = .error fault

end Attempt

namespace IntakeDesk

variable {σ : Type}

/-- Deal with a message: the reply, and the worker and storage behind it. -/
def attend (d : IntakeDesk) (s : σ) (a : Attempt σ) :
    Except Failure Receipt × IntakeDesk × σ :=
  let ((reply, desk), s) := (d.process a.moment a.write a.message).run s
  (reply, desk, s)

/-- Deal with messages one by one. -/
def attendAll (d : IntakeDesk) (s : σ) :
    List (Attempt σ) → List (Except Failure Receipt) × IntakeDesk × σ
  | [] => ([], d, s)
  | a :: rest =>
      let (reply, desk, s) := d.attend s a
      let (replies, final) := desk.attendAll s rest
      (reply :: replies, final)

/-- The messages that did not fail. -/
def heard (d : IntakeDesk) (s : σ) : List (Attempt σ) → List (Attempt σ)
  | [] => []
  | a :: rest =>
      let (reply, desk, s) := d.attend s a
      if reply.isOk then a :: desk.heard s rest else desk.heard s rest

/-- Where and why a worker fails: reading, verifying or writing a message. -/
inductive Rejects (d : IntakeDesk) (s : σ) (a : Attempt σ) : Failure → Prop
  | unread (failure : Failure) (hparse : Vaa.parseOrFail a.message = .error failure) :
      Rejects d s a failure
  | unverified (v : Vaa) (failure : Failure) (hparse : Vaa.parse a.message = .ok v)
      (hnew : d.seen.contains a.moment v.signingDigest = false)
      (hverify : d.guardians.verifyOrFail v = .error failure) : Rejects d s a failure
  | unwritten (v : Vaa) (fault : StoreFault) (hparse : Vaa.parse a.message = .ok v)
      (hnew : d.seen.contains a.moment v.signingDigest = false)
      (hverify : d.guardians.verify v = .ok ())
      (hwrite : ((a.write v.coordinate a.message).run s).1 = .error fault) :
      Rejects d s a (.internal fault.message)

/-- A worker remembers a message if the digest of its body was recorded a
    short while ago. -/
def Remembers (d : IntakeDesk) (a : Attempt σ) : Prop :=
  ∃ v, Vaa.parse a.message = .ok v ∧ d.seen.contains a.moment v.signingDigest = true

/-- How a message is answered that is not stored: it is dropped if the worker
    remembers it, and rejected otherwise. -/
inductive TurnsAway (d : IntakeDesk) (a : Attempt σ) : Except Failure Receipt → Prop
  | dropped (h : d.Remembers a) : TurnsAway d a (.ok .duplicate)
  | rejected (failure : Failure) (h : ¬ d.Remembers a) : TurnsAway d a (.error failure)

section

variable {d : IntakeDesk} {s : σ} {a : Attempt σ} {failure : Failure}

/-- A worker remembers nothing if its memory is empty. -/
theorem not_remembers (hempty : d.seen.entries = []) : ¬ d.Remembers a := by
  rintro ⟨v, -, hseen⟩
  obtain ⟨e, he, -⟩ := DigestCache.exists_mem_of_contains hseen
  rw [hempty] at he
  exact absurd he List.not_mem_nil

/-- What is remembered is dropped, and storage is not asked. -/
theorem Remembers.attend (h : d.Remembers a) (s : σ) :
    d.attend s a = (.ok .duplicate, d, s) := by
  obtain ⟨v, hparse, hseen⟩ := h
  rw [IntakeDesk.attend, process_of_contains hparse hseen]
  rfl

theorem TurnsAway.ne_stored {reply : Except Failure Receipt} (h : d.TurnsAway a reply) :
    reply ≠ .ok .stored := by
  cases h with
  | dropped h => nofun
  | rejected failure h => nofun

/-- Nothing is dropped by a worker that remembers nothing. -/
theorem TurnsAway.exists_failure {reply : Except Failure Receipt} (h : d.TurnsAway a reply)
    (hempty : d.seen.entries = []) : ∃ failure, reply = .error failure := by
  cases h with
  | dropped h => exact absurd h (not_remembers hempty)
  | rejected failure h => exact ⟨failure, rfl⟩

theorem TurnsAway.of_mem {attempts : List (Attempt σ)} {replies : List (Except Failure Receipt)}
    (h : List.Forall₂ d.TurnsAway attempts replies) :
    ∀ reply ∈ replies, ∃ b : Attempt σ, d.TurnsAway b reply := by
  induction h with
  | nil => exact List.forall_mem_nil _
  | cons hfirst _ ih => exact List.forall_mem_cons.mpr ⟨⟨_, hfirst⟩, ih⟩

/-- A message is written if it is new and verifies. -/
theorem attend_of_verify {v : Vaa} (hparse : Vaa.parse a.message = .ok v)
    (hnew : d.seen.contains a.moment v.signingDigest = false)
    (hverify : d.guardians.verify v = .ok ()) :
    d.attend s a
      = ((d.settle a.moment v ((a.write v.coordinate a.message).run s).1).1,
        (d.settle a.moment v ((a.write v.coordinate a.message).run s).1).2,
        ((a.write v.coordinate a.message).run s).2) := by
  rw [attend, process_of_verify hparse hnew hverify]
  rfl

/-- A worker that fails says why. -/
theorem Rejects.reply (h : d.Rejects s a failure) : (d.attend s a).1 = .error failure := by
  cases h with
  | unread failure hparse =>
      rw [attend, process_of_parse_error hparse]
      rfl
  | unverified v failure hparse hnew hverify =>
      rw [attend, process_of_verify_error hparse hnew hverify]
      rfl
  | unwritten v fault hparse hnew hverify hwrite =>
      rw [attend_of_verify hparse hnew hverify, hwrite]
      rfl

/-- Everything that can become of a message: the worker fails and nothing
    changes, the message is dropped and nothing changes, or it is written and
    remembered. -/
theorem attend_cases (d : IntakeDesk) (s : σ) (hatomic : a.IsAtomic) :
    (∃ failure, d.Rejects s a failure ∧ d.attend s a = (.error failure, d, s)) ∨
    (d.Remembers a ∧ d.attend s a = (.ok .duplicate, d, s)) ∨
    ∃ v : Vaa, ((a.write v.coordinate a.message).run s).1 = .ok () ∧
      d.attend s a = (.ok .stored, { d with seen := (d.seen.insert a.moment v.signingDigest).2 },
        ((a.write v.coordinate a.message).run s).2) := by
  cases hparse : Vaa.parseOrFail a.message with
  | error failure =>
      refine .inl ⟨failure, .unread failure hparse, ?_⟩
      rw [attend, process_of_parse_error hparse]
      rfl
  | ok v =>
      have hv : Vaa.parse a.message = .ok v := Vaa.parseOrFail_eq_ok_iff.mp hparse
      cases hseen : d.seen.contains a.moment v.signingDigest with
      | true =>
          have hremembers : d.Remembers a := ⟨v, hv, hseen⟩
          exact .inr (.inl ⟨hremembers, hremembers.attend s⟩)
      | false =>
          cases hverify : d.guardians.verifyOrFail v with
          | error failure =>
              refine .inl ⟨failure, .unverified v failure hv hseen hverify, ?_⟩
              rw [attend, process_of_verify_error hv hseen hverify]
              rfl
          | ok verified =>
              have hsigned := GuardianSet.verifyOrFail_eq_ok_iff.mp hverify
              rw [attend_of_verify hv hseen hsigned]
              cases hwrite : ((a.write v.coordinate a.message).run s).1 with
              | error fault =>
                  refine .inl ⟨_, .unwritten v fault hv hseen hsigned hwrite, ?_⟩
                  rw [hatomic _ _ _ _ hwrite]
                  rfl
              | ok written => exact .inr (.inr ⟨v, hwrite, rfl⟩)

/-- A message that fails leaves the worker and storage as they were. -/
theorem attend_of_error (hatomic : a.IsAtomic) (h : (d.attend s a).1 = .error failure) :
    d.Rejects s a failure ∧ d.attend s a = (.error failure, d, s) := by
  rcases d.attend_cases s hatomic with ⟨other, hrejects, heq⟩ | ⟨-, heq⟩ | ⟨v, -, heq⟩
  · rw [heq] at h
    cases h
    exact ⟨hrejects, heq⟩
  · rw [heq] at h
    cases h
  · rw [heq] at h
    cases h

/-! ## Along a run -/

theorem attendAll_cons (d : IntakeDesk) (s : σ) (a : Attempt σ) (rest : List (Attempt σ)) :
    d.attendAll s (a :: rest)
      = ((d.attend s a).1 :: ((d.attend s a).2.1.attendAll (d.attend s a).2.2 rest).1,
        ((d.attend s a).2.1.attendAll (d.attend s a).2.2 rest).2) := rfl

theorem heard_cons (d : IntakeDesk) (s : σ) (a : Attempt σ) (rest : List (Attempt σ)) :
    d.heard s (a :: rest)
      = if (d.attend s a).1.isOk then a :: (d.attend s a).2.1.heard (d.attend s a).2.2 rest
        else (d.attend s a).2.1.heard (d.attend s a).2.2 rest := rfl

/-- Behind a message that fails the run is the same as without it. -/
theorem attendAll_cons_of_error (hatomic : a.IsAtomic) (h : (d.attend s a).1 = .error failure)
    (later : List (Attempt σ)) :
    d.attendAll s (a :: later)
      = (.error failure :: (d.attendAll s later).1, (d.attendAll s later).2) := by
  rw [attendAll_cons, (attend_of_error hatomic h).2]

/-- The run without the messages that failed. -/
theorem attendAll_heard (d : IntakeDesk) (s : σ) {attempts : List (Attempt σ)}
    (hatomic : ∀ a ∈ attempts, a.IsAtomic) :
    d.attendAll s (d.heard s attempts)
      = ((d.attendAll s attempts).1.filter Except.isOk, (d.attendAll s attempts).2) := by
  induction attempts generalizing d s with
  | nil => rfl
  | cons a rest ih =>
      have hrest := fun d s => ih d s fun b hb => hatomic b (List.mem_cons_of_mem _ hb)
      cases hreply : (d.attend s a).1 with
      | error failure =>
          have hattend := (attend_of_error (hatomic a List.mem_cons_self) hreply).2
          rw [attendAll_cons, heard_cons, hattend]
          exact hrest d s
      | ok receipt =>
          have hheard : d.heard s (a :: rest)
              = a :: (d.attend s a).2.1.heard (d.attend s a).2.2 rest := by
            rw [heard_cons, hreply]
            rfl
          rw [hheard, attendAll_cons, attendAll_cons, hrest, hreply]
          rfl

/-- While storage fails, a message is turned away and nothing changes. -/
theorem attend_of_isOut (d : IntakeDesk) (hatomic : a.IsAtomic) (hout : a.IsOut s) :
    d.TurnsAway a (d.attend s a).1 ∧ (d.attend s a).2 = (d, s) := by
  rcases d.attend_cases s hatomic with ⟨failure, -, heq⟩ | ⟨hremembers, heq⟩ | ⟨v, hwritten, -⟩
  · have hnew : ¬ d.Remembers a := by
      intro hremembers
      rw [hremembers.attend s] at heq
      cases heq
    rw [heq]
    exact ⟨.rejected failure hnew, rfl⟩
  · rw [heq]
    exact ⟨.dropped hremembers, rfl⟩
  · obtain ⟨fault, hfault⟩ := hout v.coordinate a.message
    rw [hfault] at hwritten
    cases hwritten

/-- Over storage that always fails, a worker turns every message away and
    never changes. -/
theorem attendAll_of_isOut (d : IntakeDesk) (s : σ) {attempts : List (Attempt σ)}
    (hout : ∀ a ∈ attempts, a.IsAtomic ∧ a.IsOut s) :
    (d.attendAll s attempts).2 = (d, s) ∧
      List.Forall₂ d.TurnsAway attempts (d.attendAll s attempts).1 := by
  induction attempts with
  | nil => exact ⟨rfl, .nil⟩
  | cons a rest ih =>
      obtain ⟨hstate, hreplies⟩ := ih fun b hb => hout b (List.mem_cons_of_mem _ hb)
      obtain ⟨hatomic, hfails⟩ := hout a List.mem_cons_self
      obtain ⟨hreply, hsame⟩ := attend_of_isOut d hatomic hfails
      rw [attendAll_cons, hsame]
      exact ⟨hstate, .cons hreply hreplies⟩

end

/-- **Rejected messages leave no trace**, whatever a worker remembers and
    wherever messages are stored, as long as a write that fails changes
    nothing.  The worker fails exactly if the message cannot be read, does
    not verify or cannot be written; then its memory and storage are as they
    were, and the run goes on as without the message.  So a run in which any
    number of messages fail is the run of the others.  Over storage that
    always fails nothing changes and nothing is ever stored: the messages
    that the worker remembers from before are dropped, and all others are
    rejected.  A worker that remembers nothing rejects every message. -/
theorem rejected_messages_leave_no_trace {σ : Type} (d : IntakeDesk) (s : σ) :
    (∀ (a : Attempt σ) failure, a.IsAtomic → (d.attend s a).1 = .error failure →
      (d.attend s a).2 = (d, s) ∧ ∀ later, d.attendAll s (a :: later)
        = (.error failure :: (d.attendAll s later).1, (d.attendAll s later).2)) ∧
    (∀ (a : Attempt σ) failure, a.IsAtomic →
      ((d.attend s a).1 = .error failure ↔ d.Rejects s a failure)) ∧
    (∀ attempts : List (Attempt σ), (∀ a ∈ attempts, a.IsAtomic) →
      d.attendAll s (d.heard s attempts)
        = ((d.attendAll s attempts).1.filter Except.isOk, (d.attendAll s attempts).2)) ∧
    (∀ attempts : List (Attempt σ), (∀ a ∈ attempts, a.IsAtomic ∧ a.IsOut s) →
      (d.attendAll s attempts).2 = (d, s) ∧
      List.Forall₂ d.TurnsAway attempts (d.attendAll s attempts).1 ∧
      ∀ reply ∈ (d.attendAll s attempts).1, reply ≠ .ok .stored ∧
        (d.seen.entries = [] → ∃ failure, reply = .error failure)) := by
  refine ⟨?_, ?_, fun attempts hatomic => attendAll_heard d s hatomic, ?_⟩
  · intro a failure hatomic h
    exact ⟨congrArg Prod.snd (attend_of_error hatomic h).2, attendAll_cons_of_error hatomic h⟩
  · exact fun a failure hatomic => ⟨fun h => (attend_of_error hatomic h).1, Rejects.reply⟩
  · intro attempts hout
    obtain ⟨hstate, hreplies⟩ := attendAll_of_isOut d s hout
    refine ⟨hstate, hreplies, fun reply hreply => ?_⟩
    obtain ⟨a, hturned⟩ := TurnsAway.of_mem hreplies reply hreply
    exact ⟨hturned.ne_stored, hturned.exists_failure⟩

end IntakeDesk

/-- Storage in memory never fails, and an unreachable database never
    changes. -/
theorem Attempt.isAtomic_writeTo (moment : Nat) (message : Bytes) :
    IsAtomic ⟨moment, message, IntakeDesk.writeTo⟩ := by
  intro c bytes s fault h
  cases s with
  | memory archive => cases h
  | database outage => rfl

/-! ## An outage -/

namespace Site

/-- The signed message arrives while the database does not answer. -/
def offline (moment : Nat) : Attempt Storage where
  moment := moment
  message := signedMessage.serialize
  write c bytes := fun s => (((Storage.database .poolTimeout).answer (.storeVaa c bytes)).1, s)

/-- The signed message arrives while storage answers. -/
def online (moment : Nat) : Attempt Storage :=
  ⟨moment, signedMessage.serialize, IntakeDesk.writeTo⟩

theorem isAtomic_offline (moment : Nat) : (offline moment).IsAtomic := fun _ _ _ _ _ => rfl

theorem isOut_offline (moment : Nat) (s : Storage) : (offline moment).IsOut s :=
  fun _ _ => ⟨_, rfl⟩

theorem isAtomic_online (moment : Nat) : (online moment).IsAtomic := Attempt.isAtomic_writeTo _ _

/-- The failure of the outage. -/
def outageFailure : Failure :=
  .internal (Storage.askUnreachable .poolTimeout
    (.storeVaa signedMessage.coordinate signedMessage.serialize)).message

theorem not_seen_soleDesk (moment : Nat) :
    soleDesk.seen.contains moment signedMessage.signingDigest = false :=
  DigestCache.contains_empty 8 1000 moment signedMessage.signingDigest

theorem rejects_offline (moment : Nat) (s : Storage) :
    soleDesk.Rejects s (offline moment) outageFailure :=
  .unwritten signedMessage _ parse_signedMessage (not_seen_soleDesk moment) verify_signedMessage rfl

/-- The worker once it has stored the signed message. -/
def mindfulDesk (moment : Nat) : IntakeDesk := (soleDesk.settle moment signedMessage (.ok ())).2

theorem attend_online (moment : Nat) :
    soleDesk.attend (.memory .empty) (online moment)
      = (.ok .stored, mindfulDesk moment, .memory takenIn.archive) :=
  IntakeDesk.attend_of_verify parse_signedMessage (not_seen_soleDesk moment) verify_signedMessage

/-- The message that could not be written is no duplicate when it comes again,
    and as long as the outage lasts it is rejected. -/
theorem message_is_stored_after_an_outage :
    (offline 0).IsAtomic ∧ (offline 0).IsOut (.memory .empty) ∧
    (soleDesk.attend (.memory .empty) (offline 0)).1 = .error outageFailure ∧
    (soleDesk.attend (.memory .empty) (offline 0)).2 = (soleDesk, .memory .empty) ∧
    (soleDesk.attendAll (.memory .empty) [offline 0, online 1]).1
      = [.error outageFailure, .ok .stored] ∧
    (online 1).IsAtomic ∧
    (soleDesk.attendAll (.memory .empty)
      (soleDesk.heard (.memory .empty) [offline 0, online 1])).1 = [.ok .stored] ∧
    ∀ reply ∈ (soleDesk.attendAll (.memory .empty) [offline 0, offline 1]).1,
      ∃ failure, reply = .error failure := by
  obtain ⟨htrace, hrejects, hheard, hout⟩ :=
    IntakeDesk.rejected_messages_leave_no_trace soleDesk (Storage.memory .empty)
  have hreply := (hrejects _ _ (isAtomic_offline 0)).mpr (rejects_offline 0 _)
  obtain ⟨hsame, hlater⟩ := htrace _ _ (isAtomic_offline 0) hreply
  have hreplies : (soleDesk.attendAll (.memory .empty) [offline 0, online 1]).1
      = [.error outageFailure, .ok .stored] := by
    rw [hlater, IntakeDesk.attendAll_cons, attend_online]
    rfl
  have hatomic : ∀ a ∈ [offline 0, online 1], a.IsAtomic := by
    intro a ha
    rcases List.mem_pair.mp ha with rfl | rfl
    · exact isAtomic_offline 0
    · exact isAtomic_online 1
  have hboth : ∀ a ∈ [offline 0, offline 1], a.IsAtomic ∧ a.IsOut (.memory .empty) := by
    intro a ha
    rcases List.mem_pair.mp ha with rfl | rfl
    · exact ⟨isAtomic_offline 0, isOut_offline 0 _⟩
    · exact ⟨isAtomic_offline 1, isOut_offline 1 _⟩
  refine ⟨isAtomic_offline 0, isOut_offline 0 _, hreply, hsame, hreplies, isAtomic_online 1, ?_,
    fun reply h => ((hout _ hboth).2.2 reply h).2 rfl⟩
  rw [hheard _ hatomic, hreplies]
  rfl

/-- A message that was stored before the outage is remembered, and so it is
    dropped as a duplicate during the outage, although nothing can be
    written. -/
theorem stored_message_is_dropped_during_an_outage :
    soleDesk.attend (.memory .empty) (online 0)
      = (.ok .stored, mindfulDesk 0, .memory takenIn.archive) ∧
    (offline 1).IsAtomic ∧ (offline 1).IsOut (.memory takenIn.archive) ∧
    ((mindfulDesk 0).attendAll (.memory takenIn.archive) [offline 1]).1 = [.ok .duplicate] ∧
    ¬ ∀ (d : IntakeDesk) (s : Storage) (attempts : List (Attempt Storage)),
      (∀ a ∈ attempts, a.IsAtomic ∧ a.IsOut s) →
      ∀ reply ∈ (d.attendAll s attempts).1, reply ≠ .ok .duplicate ∧ reply ≠ .ok .stored := by
  have hremembers : (mindfulDesk 0).Remembers (offline 1) :=
    ⟨signedMessage, parse_signedMessage,
      DigestCache.contains_insert (not_seen_soleDesk 0) (by decide)⟩
  have hreplies : ((mindfulDesk 0).attendAll (.memory takenIn.archive) [offline 1]).1
      = [.ok .duplicate] := by
    rw [IntakeDesk.attendAll_cons, hremembers.attend]
    rfl
  refine ⟨attend_online 0, isAtomic_offline 1, isOut_offline 1 _, hreplies, fun h => ?_⟩
  have hout : ∀ a ∈ [offline 1], a.IsAtomic ∧ a.IsOut (.memory takenIn.archive) :=
    List.forall_mem_singleton.mpr ⟨isAtomic_offline 1, isOut_offline 1 _⟩
  have hreply : Except.ok Receipt.duplicate
      ∈ ((mindfulDesk 0).attendAll (.memory takenIn.archive) [offline 1]).1 := by
    rw [hreplies]
    exact List.mem_singleton_self _
  exact (h _ _ _ hout _ hreply).1 rfl

end Site

end BridgeGuardian
