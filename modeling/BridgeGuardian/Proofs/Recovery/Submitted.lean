import BridgeGuardian.Deployment
import BridgeGuardian.Proofs.Recovery.Missing

/-! # Submission in the queue — success is one message in it, failure none

    The intake queue is bounded, others put messages into it and take them
    out, and it may be closed.  Whoever hands a message over waits for room
    and is woken now and then; at a waking he looks at the queue and at
    whether the request has been withdrawn, in either order, and the first
    waking that settles the matter ends the wait.  So a message enters the
    queue exactly if it is accepted, and a backfill that ends in any other
    way than success leaves nothing in the queue. -/

namespace BridgeGuardian

open Program

/-! ## Waiting for room -/

/-- The intake queue as it stands at a moment. -/
structure Channel where
  capacity : Nat
  queued : List Bytes
  isOpen : Bool

/-- What a queue makes of a message at once; a message for which there is no
    room has to wait. -/
def Channel.take? (ch : Channel) (message : Bytes) : Option (Submission × Channel) :=
  if ch.isOpen = false then some (.closed, ch)
  else if ch.queued.length < ch.capacity then
    some (.accepted, { ch with queued := ch.queued ++ [message] })
  else none

/-- A moment at which somebody who waits is woken: the queue as others have
    left it, whether the request is withdrawn, and which of the two he looks
    at first. -/
structure Waking where
  channel : Channel
  isWithdrawn : Bool
  queueFirst : Bool

namespace Waking

variable {w : Waking} {message : Bytes} {answer : Submission} {after : Channel}

/-- A withdrawn request leaves the queue as it is. -/
def withdraw? (w : Waking) : Option (Submission × Channel) :=
  if w.isWithdrawn then some (.cancelled, w.channel) else none

/-- What a waking comes to; nothing if the message has to wait on. -/
def settle? (w : Waking) (message : Bytes) : Option (Submission × Channel) :=
  if w.queueFirst then (w.channel.take? message).or w.withdraw?
  else w.withdraw?.or (w.channel.take? message)

/-- The queue settles it, or the request is withdrawn. -/
theorem settle?_cases (h : w.settle? message = some (answer, after)) :
    w.channel.take? message = some (answer, after) ∨
      (w.isWithdrawn = true ∧ answer = .cancelled ∧ after = w.channel) := by
  have hwithdraw : w.withdraw? = some (answer, after) →
      w.isWithdrawn = true ∧ answer = .cancelled ∧ after = w.channel := by
    intro hw
    unfold withdraw? at hw
    by_cases hwithdrawn : w.isWithdrawn = true
    · rw [if_pos hwithdrawn] at hw
      cases hw
      exact ⟨hwithdrawn, rfl, rfl⟩
    · rw [if_neg hwithdrawn] at hw
      cases hw
  unfold settle? at h
  by_cases hfirst : w.queueFirst = true
  · rw [if_pos hfirst, Option.or_eq_some_iff] at h
    exact h.imp_right fun hw => hwithdraw hw.2
  · rw [if_neg hfirst, Option.or_eq_some_iff] at h
    exact h.symm.imp (fun hw => hw.2) hwithdraw

/-- What is accepted stands at the end of the queue, and anything else is
    not in it. -/
theorem after_of_settle? (h : w.settle? message = some (answer, after)) :
    after = { w.channel with
      queued := w.channel.queued ++ submitted ⟨.submit message, answer⟩ } := by
  have hsame : w.channel = { w.channel with queued := w.channel.queued ++ [] } := by
    rw [List.append_nil]
  rcases settle?_cases h with htake | ⟨-, rfl, rfl⟩
  · unfold Channel.take? at htake
    by_cases hopen : w.channel.isOpen = false
    · rw [if_pos hopen] at htake
      cases htake
      exact hsame
    · rw [if_neg hopen] at htake
      by_cases hroom : w.channel.queued.length < w.channel.capacity
      · rw [if_pos hroom] at htake
        cases htake
        rfl
      · rw [if_neg hroom] at htake
        cases htake
  · exact hsame

end Waking

/-- A message is handed over: the wakings go on until one of them settles
    it, with the queue as it stands then and behind it. -/
inductive HandsOver (message : Bytes) : List Waking → Submission → Channel → Channel → Prop
  | settled {w : Waking} {later : List Waking} {answer : Submission} {after : Channel}
      (h : w.settle? message = some (answer, after)) :
      HandsOver message (w :: later) answer w.channel after
  | waits {w : Waking} {later : List Waking} {answer : Submission} {before after : Channel}
      (h : w.settle? message = none) (hlater : HandsOver message later answer before after) :
      HandsOver message (w :: later) answer before after

/-- However long it takes, a message enters the queue exactly if it is
    accepted. -/
theorem HandsOver.after_eq {message : Bytes} {wakings : List Waking} {answer : Submission}
    {before after : Channel} (h : HandsOver message wakings answer before after) :
    after = { before with queued := before.queued ++ submitted ⟨.submit message, answer⟩ } := by
  induction h with
  | settled h => exact Waking.after_of_settle? h
  | waits _ _ ih => exact ih

/-! ## What a request puts into the queue -/

/-- The messages that a request puts into the queue: every message is handed
    over to the queue as others leave it in the meantime, and what stands
    in it behind that and did not before has been put there.  Nothing else
    touches the queue. -/
inductive Enters : Transcript Surroundings → List Bytes → Prop
  | done : Enters [] []
  | handed {message : Bytes} {wakings : List Waking} {answer : Submission}
      {before after : Channel} {entered behind : List Bytes} {t : Transcript Surroundings}
      (h : HandsOver message wakings answer before after)
      (hentered : after.queued = before.queued ++ entered) (hrest : Enters t behind) :
      Enters (⟨.submit message, answer⟩ :: t) (entered ++ behind)
  | other {e : Exchange Surroundings} {behind : List Bytes} {t : Transcript Surroundings}
      (he : ∀ message, e.query ≠ .submit message) (hrest : Enters t behind) :
      Enters (e :: t) behind

theorem submitted_of_ne_submit {e : Exchange Surroundings}
    (he : ∀ message, e.query ≠ .submit message) : submitted e = [] := by
  obtain ⟨query, answer⟩ := e
  cases query with
  | submit message => exact absurd rfl (he message)
  | store | now | peerOrder | fetch | announce | pause | isCancelled | nonce | record => rfl

/-- What enters the queue is what is accepted. -/
theorem Enters.eq_submitted {t : Transcript Surroundings} {entered : List Bytes}
    (h : Enters t entered) : entered = t.flatMap submitted := by
  induction h with
  | done => rfl
  | @handed message _ answer before after entered _ _ h hentered _ ih =>
      have hqueued : before.queued ++ submitted ⟨.submit message, answer⟩
          = before.queued ++ entered := by rw [← hentered, h.after_eq]
      rw [List.flatMap_cons, ih, List.append_cancel_left hqueued]
  | other he _ ih => rw [List.flatMap_cons, submitted_of_ne_submit he, List.nil_append, ih]

/-- The queue of a deployment, if it is bounded or closed. -/
def IntakeQueue.channel? : IntakeQueue → Option Channel
  | .waiting (some capacity) messages => some ⟨capacity, messages, true⟩
  | .closed => some ⟨0, [], false⟩
  | _ => none

/-- A deployment answers as such a queue does at one waking, where nobody
    makes room and the request will be withdrawn in the end. -/
theorem Deployment.handsOver_submit {d : Deployment} {ch : Channel}
    (h : d.intake.channel? = some ch) (message : Bytes) :
    ∃ after, (d.submit message).2.intake.channel? = some after ∧
      HandsOver message [⟨ch, true, true⟩] (d.submit message).1 ch after := by
  unfold submit
  cases hintake : d.intake with
  | worked desk =>
      rw [hintake] at h
      cases h
  | closed =>
      rw [hintake] at h
      cases h
      exact ⟨_, by rw [hintake]; rfl, .settled rfl⟩
  | waiting capacity messages =>
      rw [hintake] at h
      cases capacity with
      | none => cases h
      | some capacity =>
          cases h
          have hsettle : Waking.settle? ⟨⟨capacity, messages, true⟩, true, true⟩ message
              = if messages.length < capacity then
                  some (.accepted, ⟨capacity, messages ++ [message], true⟩)
                else some (.cancelled, ⟨capacity, messages, true⟩) := by
            by_cases hroom : messages.length < capacity
            · simp [Waking.settle?, Channel.take?, hroom]
            · simp [Waking.settle?, Waking.withdraw?, Channel.take?, hroom]
          simp only [Option.any_some, decide_eq_true_eq]
          by_cases hroom : messages.length < capacity
          · rw [if_neg (Nat.not_le.mpr hroom)]
            exact ⟨_, rfl, .settled (hsettle.trans (if_pos hroom))⟩
          · rw [if_pos (Nat.not_lt.mp hroom)]
            exact ⟨_, by rw [hintake]; rfl, .settled (hsettle.trans (if_neg hroom))⟩

namespace Backfill

variable {timeout : UInt64} {peers : List String} {c : Coordinate}
variable {t : Transcript Surroundings} {result : Except Failure Bool} {entered : List Bytes}

/-- **A backfill submits exactly if it reports success.**  Whatever the peers
    reply, however the queue stands when it is looked at and whenever the
    request is withdrawn: one message is in the queue if the result is
    success, none if it is anything else, and every message that is so much
    as offered to the queue reads as one with the requested coordinate. -/
theorem submits_exactly_on_success (h : Yields (fetch timeout peers c).run t result)
    (hqueue : Enters t entered) :
    ((∃ message, entered = [message]) ↔ result = .ok true) ∧
    (entered = [] ↔ result ≠ .ok true) ∧
    (∀ message ∈ entered, (message, .accepted) ∈ t.flatMap offered) ∧
    ∀ offer ∈ t.flatMap offered, ∃ v, Vaa.parse offer.1 = .ok v ∧ v.coordinate = c := by
  obtain rfl := hqueue.eq_submitted
  rw [flatMap_submitted]
  rcases (concludes_fetch h).offers_cases with
    ⟨hnone, hresult⟩ | ⟨message, answer, hone, rfl, v, hparse, hc⟩
  · rw [hnone]
    have hnothing : ¬ ∃ message : Bytes, [] = [message] := nofun
    exact ⟨iff_of_false hnothing hresult, iff_of_true rfl hresult, List.forall_mem_nil _,
      List.forall_mem_nil _⟩
  · rw [hone]
    have hreads : ∀ offer ∈ [(message, answer)], ∃ v, Vaa.parse offer.1 = .ok v ∧
        v.coordinate = c := List.forall_mem_singleton.mpr ⟨v, hparse, hc⟩
    cases answer with
    | accepted =>
        have hnonempty : [message] ≠ [] := nofun
        exact ⟨iff_of_true ⟨message, rfl⟩ rfl, iff_of_false hnonempty fun h => h rfl,
          List.forall_mem_singleton.mpr (List.mem_singleton_self _), hreads⟩
    | closed | cancelled =>
        have hnothing : ¬ ∃ message : Bytes, [] = [message] := nofun
        exact ⟨iff_of_false hnothing nofun, iff_of_true rfl nofun, List.forall_mem_nil _, hreads⟩

end Backfill

/-! ## A queue with room for one message -/

namespace Site

/-- One peer is asked, and serves the signed message. -/
def offering (answer : Submission) : Transcript Surroundings :=
  Backfill.onePeerAsked 1000 "peer" ⟨gappy, 5⟩ 0 (serving signedMessage.serialize) ++
    [⟨.record (.backfillAttempt gappy.chain .found), ()⟩,
      ⟨.submit signedMessage.serialize, answer⟩]

theorem yields_offering (answer : Submission) :
    Yields (Backfill.fetch 1000 ["peer"] ⟨gappy, 5⟩).run (offering answer) answer.outcome :=
  Backfill.yields_fetch_of_serving ofReply_serving_signedMessage answer

/-- What enters the queue comes from handing the message over. -/
theorem enters_offering {wakings : List Waking} {answer : Submission} {before after : Channel}
    {entered : List Bytes}
    (h : HandsOver signedMessage.serialize wakings answer before after)
    (hentered : after.queued = before.queued ++ entered) :
    Enters (offering answer) entered := by
  have hhanded := Enters.handed h hentered .done
  rw [List.append_nil] at hhanded
  -- what is asked in front puts nothing into the queue
  refine .other ?_ (.other ?_ (.other ?_ (.other ?_ hhanded)))
  all_goals
    intro message hsubmit
    cases hsubmit

/-- A message waits in the queue, and there is no room for another one. -/
def crowded : Channel := ⟨1, [[0]], true⟩

/-- The message that waited has been taken out. -/
def vacant : Channel := ⟨1, [], true⟩

/-- Once there is room, the signed message enters the queue.  If the request
    is withdrawn before, or nobody takes messages any more, it does not. -/
theorem served_message_waits_for_room :
    (∃ entered, Yields (Backfill.fetch 1000 ["peer"] ⟨gappy, 5⟩).run (offering .accepted)
        (.ok true) ∧
      HandsOver signedMessage.serialize [⟨crowded, false, true⟩, ⟨vacant, true, true⟩]
        .accepted vacant { vacant with queued := [signedMessage.serialize] } ∧
      Enters (offering .accepted) entered ∧ ∃ message, entered = [message]) ∧
    (∃ entered, Yields (Backfill.fetch 1000 ["peer"] ⟨gappy, 5⟩).run (offering .cancelled)
        (.error .cancelled) ∧
      HandsOver signedMessage.serialize [⟨crowded, false, true⟩, ⟨crowded, true, true⟩]
        .cancelled crowded crowded ∧
      Enters (offering .cancelled) entered ∧ entered = []) ∧
    ∃ entered, Yields (Backfill.fetch 1000 ["peer"] ⟨gappy, 5⟩).run (offering .closed)
        (.error (.internal "signed VAA ingestion queue is closed")) ∧
      HandsOver signedMessage.serialize
        [⟨crowded, false, true⟩, ⟨{ crowded with isOpen := false }, false, false⟩]
        .closed { crowded with isOpen := false } { crowded with isOpen := false } ∧
      Enters (offering .closed) entered ∧ entered = [] := by
  have haccepted : HandsOver signedMessage.serialize
      [⟨crowded, false, true⟩, ⟨vacant, true, true⟩] .accepted vacant
      { vacant with queued := [signedMessage.serialize] } := .waits rfl (.settled rfl)
  have hwithdrawn : HandsOver signedMessage.serialize
      [⟨crowded, false, true⟩, ⟨crowded, true, true⟩] .cancelled crowded crowded :=
    .waits rfl (.settled rfl)
  have hclosed : HandsOver signedMessage.serialize
      [⟨crowded, false, true⟩, ⟨{ crowded with isOpen := false }, false, false⟩] .closed
      { crowded with isOpen := false } { crowded with isOpen := false } :=
    .waits rfl (.settled rfl)
  have hone := enters_offering haccepted rfl
  have hnone := enters_offering hwithdrawn (List.append_nil _).symm
  have hnone' := enters_offering hclosed (List.append_nil _).symm
  refine ⟨⟨_, yields_offering .accepted, haccepted, hone, ?_⟩,
    ⟨_, yields_offering .cancelled, hwithdrawn, hnone, ?_⟩,
    ⟨_, yields_offering .closed, hclosed, hnone', ?_⟩⟩
  · exact (Backfill.submits_exactly_on_success (yields_offering .accepted) hone).1.mpr rfl
  · exact (Backfill.submits_exactly_on_success (yields_offering .cancelled) hnone).2.1.mpr nofun
  · exact (Backfill.submits_exactly_on_success (yields_offering .closed) hnone').2.1.mpr nofun

end Site

end BridgeGuardian
