import BridgeGuardian.Proofs.Governance.Handover
import Mathlib.Data.List.Forall2

/-! # Injected messages — the valid front of a list is what is submitted

    Two things can end a call: a request that is at fault, and a queue that
    takes no more.  A request is read before its message is offered, and a
    digest is put down behind the message that was accepted.  So with room for
    `k` messages and `p` requests in front of the first one at fault, the first
    `min p k` messages are submitted, whichever of the two comes first decides
    the failure, and what stands behind is never looked at.

    `inject_cons_of_ok` says what one message does; the rest is told by
    induction along the list, with the room that is left. -/

namespace BridgeGuardian.Governance

open Program Http.AdminService

/-- Surroundings in which the governance queue has room for so many messages
    and refuses those behind. -/
def withRoom (others : (q : Surroundings.Query) → q.Answer) (room : Nat) :
    (q : Surroundings.Query) → q.Answer × Nat
  | .announce _ =>
      match room with
      | 0 => (false, 0)
      | left + 1 => (true, left)
  | q => (others q, room)

/-- The number of messages in front of the first one that is at fault. -/
def validFront (currentIndex : UInt32) (messages : List GovernanceMessage) : Nat :=
  messages.findIdx fun m => !(m.toVaaOrFail currentIndex).isOk

/-- The message that an exchange offers, whether it is accepted or not. -/
def offered : Exchange Surroundings → List Vaa
  | ⟨.announce vaa, _⟩ => [vaa]
  | _ => []

/-- A message is the one built for a request. -/
def IsBuiltFor (currentIndex : UInt32) (m : GovernanceMessage) (vaa : Vaa) : Prop :=
  m.toVaaOrFail currentIndex = .ok vaa

/-- The failure of a queue that takes no more messages. -/
def queueClosed : Failure := .internal "governance queue is closed"

/-- What comes of injecting messages while the queue has so much room. -/
def injected (others : (q : Surroundings.Query) → q.Answer) (currentIndex : UInt32)
    (messages : List GovernanceMessage) (room : Nat) : Except Failure (List Bytes32) :=
  ((inject currentIndex messages).outcome.run (withRoom others) room).1

/-- What passes between the service and its surroundings meanwhile. -/
def talk (others : (q : Surroundings.Query) → q.Answer) (currentIndex : UInt32)
    (messages : List GovernanceMessage) (room : Nat) : Transcript Surroundings :=
  (inject currentIndex messages).outcome.transcript (withRoom others) room

section

variable {currentIndex : UInt32} {m : GovernanceMessage} {messages rest : List GovernanceMessage}
variable {vaa : Vaa} {failure : Failure}

/-! ## One message -/

theorem validFront_cons_of_error (h : m.toVaaOrFail currentIndex = .error failure) :
    validFront currentIndex (m :: rest) = 0 := by
  rw [validFront, List.findIdx_cons, h]
  rfl

theorem validFront_cons_of_ok (h : IsBuiltFor currentIndex m vaa) :
    validFront currentIndex (m :: rest) = validFront currentIndex rest + 1 := by
  rw [validFront, List.findIdx_cons, show m.toVaaOrFail currentIndex = _ from h]
  rfl

/-- A request at fault ends the call. -/
theorem inject_cons_of_error (h : m.toVaaOrFail currentIndex = .error failure) :
    (inject currentIndex (m :: rest)).outcome = .done (.error failure) := by
  rw [inject, h]
  rfl

/-- Any other request has its message offered; the call goes on if it is
    accepted, and its digest comes in front of the later ones. -/
theorem inject_cons_of_ok (h : IsBuiltFor currentIndex m vaa) :
    (inject currentIndex (m :: rest)).outcome
      = .ask (.announce vaa) fun accepted : Bool =>
          if accepted then
            .ask (.record (.governance m.request.kind)) fun _ =>
              (inject currentIndex rest).outcome >>= fun result =>
                .done (result.map (vaa.signingDigest :: ·))
          else .done (.error queueClosed) := by
  rw [inject, show m.toVaaOrFail currentIndex = _ from h]
  refine congrArg (Program.ask _) (funext fun accepted : Bool => ?_)
  cases accepted with
  | false => rfl
  | true =>
      refine congrArg (Program.ask _) (funext fun _ => ?_)
      refine congrArg (Program.bind (inject currentIndex rest).outcome) (funext fun result => ?_)
      cases result with
      | error failure => rfl
      | ok digests => rfl

variable (others : (q : Surroundings.Query) → q.Answer) {room : Nat}

theorem injected_cons_of_error (h : m.toVaaOrFail currentIndex = .error failure) :
    injected others currentIndex (m :: rest) room = .error failure ∧
      talk others currentIndex (m :: rest) room = [] := by
  rw [injected, talk, inject_cons_of_error h]
  exact ⟨rfl, rfl⟩

/-- A queue without room refuses the message, which ends the call. -/
theorem injected_cons_of_full (h : IsBuiltFor currentIndex m vaa) :
    injected others currentIndex (m :: rest) 0 = .error queueClosed ∧
      talk others currentIndex (m :: rest) 0 = [⟨.announce vaa, false⟩] := by
  rw [injected, talk, inject_cons_of_ok h]
  exact ⟨rfl, rfl⟩

/-- A queue with room accepts the message and has less room for the rest. -/
theorem injected_cons_of_room (h : IsBuiltFor currentIndex m vaa) :
    injected others currentIndex (m :: rest) (room + 1)
        = (injected others currentIndex rest room).map (vaa.signingDigest :: ·) ∧
      talk others currentIndex (m :: rest) (room + 1)
        = ⟨.announce vaa, true⟩ :: ⟨.record (.governance m.request.kind), ()⟩
          :: talk others currentIndex rest room := by
  rw [injected, talk, inject_cons_of_ok h]
  constructor
  · exact congrArg Prod.fst
      (@run_bind Surroundings _ _ _ (withRoom others) (inject currentIndex rest).outcome _ room)
  · refine congrArg (_ :: _ :: ·) ?_
    exact (@transcript_bind Surroundings _ _ _ (withRoom others)
      (inject currentIndex rest).outcome _ room).trans (List.append_nil _)

end

/-! ## Along the list -/

/-- Induction along the list with the room that is left, by what becomes of
    each message. -/
theorem induction_on_room (currentIndex : UInt32)
    {motive : List GovernanceMessage → Nat → Prop} (none : ∀ room, motive [] room)
    (fault : ∀ m rest room failure, m.toVaaOrFail currentIndex = .error failure →
      motive (m :: rest) room)
    (full : ∀ m rest vaa, IsBuiltFor currentIndex m vaa → motive (m :: rest) 0)
    (accepted : ∀ m rest room vaa, IsBuiltFor currentIndex m vaa → motive rest room →
      motive (m :: rest) (room + 1))
    (messages : List GovernanceMessage) (room : Nat) : motive messages room := by
  induction messages generalizing room with
  | nil => exact none room
  | cons m rest ih =>
      cases hm : m.toVaaOrFail currentIndex with
      | error failure => exact fault m rest room failure hm
      | ok vaa =>
          cases room with
          | zero => exact full m rest vaa hm
          | succ room => exact accepted m rest room vaa hm (ih room)

section

variable (others : (q : Surroundings.Query) → q.Answer) (currentIndex : UInt32)

/-- The messages that are submitted are those in front of the first fault, as
    far as there is room. -/
theorem forall₂_announced (messages : List GovernanceMessage) (room : Nat) :
    List.Forall₂ (IsBuiltFor currentIndex)
      (messages.take (min (validFront currentIndex messages) room))
      ((talk others currentIndex messages room).flatMap announced) := by
  induction messages, room using induction_on_room currentIndex with
  | none room =>
      rw [List.take_nil]
      exact .nil
  | fault m rest room failure hm =>
      rw [(injected_cons_of_error others hm).2, validFront_cons_of_error hm, Nat.zero_min]
      exact .nil
  | full m rest vaa hm =>
      rw [(injected_cons_of_full others hm).2, Nat.min_zero]
      exact .nil
  | accepted m rest room vaa hm ih =>
      rw [(injected_cons_of_room others hm).2, validFront_cons_of_ok hm, Nat.succ_min_succ]
      exact .cons hm ih

/-- One message more is offered if it is refused, and none behind. -/
theorem forall₂_offered (messages : List GovernanceMessage) (room : Nat) :
    List.Forall₂ (IsBuiltFor currentIndex)
      (messages.take (min (validFront currentIndex messages) (room + 1)))
      ((talk others currentIndex messages room).flatMap offered) := by
  induction messages, room using induction_on_room currentIndex with
  | none room =>
      rw [List.take_nil]
      exact .nil
  | fault m rest room failure hm =>
      rw [(injected_cons_of_error others hm).2, validFront_cons_of_error hm, Nat.zero_min]
      exact .nil
  | full m rest vaa hm =>
      rw [(injected_cons_of_full others hm).2, validFront_cons_of_ok hm, Nat.succ_min_succ,
        Nat.min_zero]
      exact .cons hm .nil
  | accepted m rest room vaa hm ih =>
      rw [(injected_cons_of_room others hm).2, validFront_cons_of_ok hm, Nat.succ_min_succ]
      exact .cons hm ih

/-- What a call comes to, by what ends it. -/
inductive Ends (messages : List GovernanceMessage) (room : Nat) (submitted : List Vaa) :
    Except Failure (List Bytes32) → Prop
  | done (hvalid : validFront currentIndex messages = messages.length)
      (hroom : messages.length ≤ room) :
      Ends messages room submitted (.ok (submitted.map Vaa.signingDigest))
  | rejected (m : GovernanceMessage) (failure : Failure)
      (hfront : messages[validFront currentIndex messages]? = some m)
      (hfault : m.toVaaOrFail currentIndex = .error failure)
      (hroom : validFront currentIndex messages ≤ room) :
      Ends messages room submitted (.error failure)
  | refused (hroom : room < validFront currentIndex messages) :
      Ends messages room submitted (.error queueClosed)

variable {currentIndex}

/-- A message that is accepted puts its digest in front, and moves every end by
    one. -/
theorem Ends.cons {m : GovernanceMessage} {vaa : Vaa} {rest : List GovernanceMessage} {room : Nat}
    {submitted : List Vaa} {result : Except Failure (List Bytes32)}
    (hm : IsBuiltFor currentIndex m vaa) (h : Ends currentIndex rest room submitted result) :
    Ends currentIndex (m :: rest) (room + 1) (vaa :: submitted)
      (result.map (vaa.signingDigest :: ·)) := by
  have hfront : validFront currentIndex (m :: rest) = validFront currentIndex rest + 1 :=
    validFront_cons_of_ok hm
  cases h with
  | done hvalid hroom =>
      refine .done ?_ (Nat.succ_le_succ hroom)
      rw [hfront, hvalid, List.length_cons]
  | rejected m' failure hat hfault hroom =>
      refine .rejected m' failure ?_ hfault (hfront ▸ Nat.succ_le_succ hroom)
      rw [hfront, List.getElem?_cons_succ]
      exact hat
  | refused hroom => exact .refused (hfront ▸ Nat.succ_lt_succ hroom)

variable (currentIndex)

/-- Every call ends in one of these ways. -/
theorem ends_injected (messages : List GovernanceMessage) (room : Nat) :
    Ends currentIndex messages room ((talk others currentIndex messages room).flatMap announced)
      (injected others currentIndex messages room) := by
  induction messages, room using induction_on_room currentIndex with
  | none room => exact .done rfl (Nat.zero_le room)
  | fault m rest room failure hm =>
      have hzero : validFront currentIndex (m :: rest) = 0 := validFront_cons_of_error hm
      rw [(injected_cons_of_error others hm).1]
      refine .rejected m failure ?_ hm (hzero ▸ Nat.zero_le room)
      rw [hzero]
      rfl
  | full m rest vaa hm =>
      rw [(injected_cons_of_full others hm).1]
      exact .refused (validFront_cons_of_ok hm ▸ Nat.succ_pos _)
  | accepted m rest room vaa hm ih =>
      rw [(injected_cons_of_room others hm).1, (injected_cons_of_room others hm).2]
      exact ih.cons hm

/-- What stands behind the message that fails is never looked at. -/
theorem injected_take_append (messages : List GovernanceMessage) (room : Nat)
    (h : min (validFront currentIndex messages) room < messages.length)
    (later : List GovernanceMessage) :
    let front := messages.take (min (validFront currentIndex messages) room + 1)
    injected others currentIndex (front ++ later) room
        = injected others currentIndex messages room ∧
      talk others currentIndex (front ++ later) room = talk others currentIndex messages room := by
  revert h
  induction messages, room using induction_on_room currentIndex with
  | none room => exact fun h => absurd h (Nat.not_lt_zero _)
  | fault m rest room failure hm =>
      intro _ front
      -- the message at fault is the last of the front
      have hfront : front = [m] := by
        simp only [front, validFront_cons_of_error hm, Nat.zero_min, List.take_succ_cons,
          List.take_zero]
      rw [hfront]
      obtain ⟨hresult, htalk⟩ := injected_cons_of_error others hm
      obtain ⟨hcut, hcut'⟩ := injected_cons_of_error others hm
      exact ⟨hcut.trans hresult.symm, hcut'.trans htalk.symm⟩
  | full m rest vaa hm =>
      intro _ front
      have hfront : front = [m] := by
        simp only [front, Nat.min_zero, List.take_succ_cons, List.take_zero]
      rw [hfront]
      obtain ⟨hresult, htalk⟩ := injected_cons_of_full others hm
      obtain ⟨hcut, hcut'⟩ := injected_cons_of_full others hm
      exact ⟨hcut.trans hresult.symm, hcut'.trans htalk.symm⟩
  | accepted m rest room vaa hm ih =>
      intro h front
      have hfront : front = m :: rest.take (min (validFront currentIndex rest) room + 1) := by
        simp only [front, validFront_cons_of_ok hm, Nat.succ_min_succ, List.take_succ_cons]
      rw [validFront_cons_of_ok hm, Nat.succ_min_succ, List.length_cons] at h
      obtain ⟨hresult, htalk⟩ := ih (Nat.lt_of_succ_lt_succ h)
      rw [hfront, List.cons_append, (injected_cons_of_room others hm).1,
        (injected_cons_of_room others hm).2, (injected_cons_of_room others hm).1,
        (injected_cons_of_room others hm).2, hresult, htalk]
      exact ⟨rfl, rfl⟩

end

/-! ## What ends a call -/

/-- There is no message at fault exactly if all stand in front of one. -/
theorem validFront_eq_length_iff {currentIndex : UInt32} {messages : List GovernanceMessage} :
    validFront currentIndex messages = messages.length ↔
      ∀ m ∈ messages, ∃ vaa, IsBuiltFor currentIndex m vaa := by
  rw [validFront, List.findIdx_eq_length]
  refine forall₂_congr fun m _ => ?_
  cases hm : m.toVaaOrFail currentIndex with
  | error failure =>
      refine iff_of_false (fun h => (nomatch h)) ?_
      rintro ⟨vaa, hvaa⟩
      cases hm.symm.trans hvaa
  | ok vaa => exact iff_of_true rfl ⟨vaa, hm⟩

namespace Ends

variable {currentIndex : UInt32} {messages : List GovernanceMessage} {room : Nat}
variable {submitted : List Vaa} {result : Except Failure (List Bytes32)}

theorem ok_iff (h : Ends currentIndex messages room submitted result) :
    (∃ digests, result = .ok digests) ↔
      (∀ m ∈ messages, ∃ vaa, IsBuiltFor currentIndex m vaa) ∧ messages.length ≤ room := by
  rw [← validFront_eq_length_iff]
  cases h with
  | done hvalid hroom => exact iff_of_true ⟨_, rfl⟩ ⟨hvalid, hroom⟩
  | rejected m failure hfront hfault hroom =>
      refine iff_of_false (fun ⟨_, h⟩ => (nomatch h)) fun ⟨hvalid, _⟩ => ?_
      rw [hvalid, List.getElem?_eq_none (Nat.le_refl _)] at hfront
      cases hfront
  | refused hroom =>
      refine iff_of_false (fun ⟨_, h⟩ => (nomatch h)) fun ⟨hvalid, hle⟩ => ?_
      exact absurd (hvalid ▸ hroom) (Nat.not_lt_of_le hle)

theorem digests_eq {digests : List Bytes32}
    (h : Ends currentIndex messages room submitted (.ok digests)) :
    digests = submitted.map Vaa.signingDigest := by
  cases h with
  | done hvalid hroom => rfl

/-- The first message at fault decides if there is room up to it. -/
theorem exists_fault (h : Ends currentIndex messages room submitted result)
    (hroom : validFront currentIndex messages ≤ room)
    (hlt : validFront currentIndex messages < messages.length) :
    ∃ m failure, messages[validFront currentIndex messages]? = some m ∧
      m.toVaaOrFail currentIndex = .error failure ∧ result = .error failure := by
  cases h with
  | done hvalid _ => exact absurd hlt (hvalid ▸ Nat.lt_irrefl _)
  | rejected m failure hfront hfault _ => exact ⟨m, failure, hfront, hfault, rfl⟩
  | refused hless => exact absurd hless (Nat.not_lt_of_le hroom)

/-- Otherwise the queue decides. -/
theorem eq_queueClosed (h : Ends currentIndex messages room submitted result)
    (hroom : room < validFront currentIndex messages) : result = .error queueClosed := by
  cases h with
  | done hvalid hle => exact absurd (hvalid ▸ hroom) (Nat.not_lt_of_le hle)
  | rejected m failure _ _ hle => exact absurd hroom (Nat.not_lt_of_le hle)
  | refused _ => rfl

end Ends

/-- **Injection submits the valid front.**  With room for so many messages, and
    `p` of them in front of the first one at fault, as many of these are
    submitted as there is room for, in order and each once.  The call succeeds
    exactly if no message is at fault and there is room for all, and then it
    returns their digests in order; otherwise the fault of message `p` or the
    queue is reported, whichever comes first.  Nothing behind the message that
    fails is offered or has any influence. -/
theorem injection_submits_the_valid_front (others : (q : Surroundings.Query) → q.Answer)
    (currentIndex : UInt32) (messages : List GovernanceMessage) (room : Nat) :
    let p := validFront currentIndex messages
    let t := talk others currentIndex messages room
    let result := injected others currentIndex messages room
    List.Forall₂ (IsBuiltFor currentIndex) (messages.take (min p room)) (t.flatMap announced) ∧
    ((∃ digests, result = .ok digests) ↔
      (∀ m ∈ messages, ∃ vaa, IsBuiltFor currentIndex m vaa) ∧ messages.length ≤ room) ∧
    (∀ digests, result = .ok digests →
      digests = (t.flatMap announced).map Vaa.signingDigest) ∧
    (p ≤ room → p < messages.length →
      ∃ m failure, messages[p]? = some m ∧ m.toVaaOrFail currentIndex = .error failure ∧
        result = .error failure) ∧
    (room < p → result = .error (.internal "governance queue is closed")) ∧
    List.Forall₂ (IsBuiltFor currentIndex) (messages.take (min p (room + 1)))
      (t.flatMap offered) ∧
    (min p room < messages.length → ∀ later,
      injected others currentIndex (messages.take (min p room + 1) ++ later) room = result ∧
      talk others currentIndex (messages.take (min p room + 1) ++ later) room = t) := by
  intro p t result
  have hends : Ends currentIndex messages room (t.flatMap announced) result :=
    ends_injected others currentIndex messages room
  refine ⟨forall₂_announced others currentIndex messages room, hends.ok_iff, ?_,
    hends.exists_fault, hends.eq_queueClosed, forall₂_offered others currentIndex messages room,
    fun hlt later => injected_take_append others currentIndex messages room hlt later⟩
  intro digests hdigests
  rw [hdigests] at hends
  exact hends.digests_eq

/-! ## A list with a fault in it -/

/-- An order that is handed on as it is given. -/
def plainOrder (sequence : UInt64) : GovernanceMessage :=
  ⟨sequence, 3, .undoneTransfer 15 [1, 2, 3]⟩

/-- An order to have no guardians at all. -/
def emptyOrder (sequence : UInt64) : GovernanceMessage := ⟨sequence, 0, .guardianSet []⟩

/-- Of three messages the second is at fault.  The first is submitted, and the
    third does not matter; without room the first is refused.  Two without
    fault are submitted if there is room for both. -/
theorem fault_behind_one_message :
    let messages := [plainOrder 1, emptyOrder 2, plainOrder 3]
    validFront 4 messages = 1 ∧
    injected Site.calm 4 messages 8 = .error (.invalid "empty guardian set specified") ∧
    List.Forall₂ (IsBuiltFor 4) [plainOrder 1] ((talk Site.calm 4 messages 8).flatMap announced) ∧
    injected Site.calm 4 ([plainOrder 1, emptyOrder 2] ++ [emptyOrder 9]) 8
      = injected Site.calm 4 messages 8 ∧
    injected Site.calm 4 messages 0 = .error (.internal "governance queue is closed") ∧
    (∃ digests, injected Site.calm 4 [plainOrder 1, plainOrder 3] 2 = .ok digests ∧
      digests = ((talk Site.calm 4 [plainOrder 1, plainOrder 3] 2).flatMap announced).map
        Vaa.signingDigest) := by
  intro messages
  have hfront : validFront 4 messages = 1 := rfl
  obtain ⟨hsubmitted, -, -, hfault, -, -, hlater⟩ :=
    injection_submits_the_valid_front Site.calm 4 messages 8
  obtain ⟨-, -, -, -, hclosed, -⟩ := injection_submits_the_valid_front Site.calm 4 messages 0
  obtain ⟨-, hok, hdigests, -⟩ :=
    injection_submits_the_valid_front Site.calm 4 [plainOrder 1, plainOrder 3] 2
  refine ⟨hfront, ?_, hsubmitted, (hlater (by decide) [emptyOrder 9]).1,
    hclosed (by decide), ?_⟩
  · obtain ⟨m, failure, hm, hfailure, hresult⟩ := hfault (by decide) (by decide)
    cases hm
    cases hfailure
    exact hresult
  · have hvalid : ∀ m ∈ [plainOrder 1, plainOrder 3], ∃ vaa, IsBuiltFor 4 m vaa := by
      intro m hm
      rcases List.mem_pair.mp hm with rfl | rfl
      · exact ⟨_, rfl⟩
      · exact ⟨_, rfl⟩
    obtain ⟨digests, hresult⟩ := hok.mpr ⟨hvalid, Nat.le_refl 2⟩
    exact ⟨digests, hresult, hdigests digests hresult⟩

end BridgeGuardian.Governance
