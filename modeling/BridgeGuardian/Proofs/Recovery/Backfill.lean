import BridgeGuardian.Proofs.Site.Basic
import BridgeGuardian.Proofs.Work

/-! # Backfill in transcripts — what is submitted, and what is reported

    A backfill hands exactly one message to the intake queue when it reports
    success, and none otherwise.  The message reads as one with the
    requested coordinate; whether guardians signed it is not looked at. -/

namespace BridgeGuardian

open Program

namespace PeerVerdict

variable {c : Coordinate} {message : Bytes}

theorem exists_parse_of_ofMessage {bytes : Bytes} (h : ofMessage c bytes = .serving message) :
    ∃ v, Vaa.parse message = .ok v ∧ v.coordinate = c := by
  unfold ofMessage at h
  cases hparse : Vaa.parse bytes with
  | error fault =>
      rw [hparse] at h
      cases h
  | ok v =>
      rw [hparse] at h
      by_cases hc : v.coordinate = c
      · simp only [if_pos hc] at h
        cases h
        exact ⟨v, hparse, hc⟩
      · simp only [if_neg hc] at h
        cases h

theorem exists_parse_of_ofBody {body : Except Interruption String}
    (h : ofBody c body = .serving message) :
    ∃ v, Vaa.parse message = .ok v ∧ v.coordinate = c := by
  match body, h with
  | .error .failed, h | .error .expired, h | .error .cancelled, h => cases h
  | .ok text, h =>
      unfold ofBody at h
      cases hdecode : Json.decode messageShape text with
      | error fault =>
          simp only [hdecode] at h
          cases h
      | ok bytes =>
          simp only [hdecode] at h
          exact exists_parse_of_ofMessage h

/-- What a peer serves reads as a message with the requested coordinate. -/
theorem exists_parse_of_ofReply {reply : NetworkReply} (h : ofReply c reply = .serving message) :
    ∃ v, Vaa.parse message = .ok v ∧ v.coordinate = c := by
  match reply, h with
  | .error .failed, h | .error .expired, h | .error .cancelled, h => cases h
  | .ok response, h =>
      simp only [ofReply] at h
      by_cases habsent : response.status = 404
      · rw [if_pos habsent] at h
        cases h
      · rw [if_neg habsent] at h
        by_cases hfound : response.status = 200
        · rw [if_pos hfound] at h
          exact exists_parse_of_ofBody h
        · rw [if_neg hfound] at h
          cases h

end PeerVerdict

namespace Work

variable {t : Transcript Surroundings}

theorem yields_fetch_bind_iff {α : Type} {url : String} {deadline : Nat}
    {f : NetworkReply → Work α} {result : Except Failure α} :
    Yields (fetch url deadline >>= f).run t result ↔
      ∃ (reply : NetworkReply) (rest : Transcript Surroundings),
        t = ⟨.fetch url deadline, reply⟩ :: rest ∧ Yields (f reply).run rest result := by
  constructor
  · intro h
    exact yields_ask_iff.mp h
  · rintro ⟨reply, rest, rfl, hrest⟩
    exact .ask hrest

/-- Handing a message over comes to what the queue answers. -/
theorem yields_submit_bind_iff {α : Type} {message : Bytes} {f : Unit → Work α}
    {result : Except Failure α} :
    Yields (submit message >>= f).run t result ↔
      ∃ (answer : Submission) (rest : Transcript Surroundings),
        t = ⟨.submit message, answer⟩ :: rest ∧
        match answer with
        | .accepted => Yields (f ()).run rest result
        | .closed => rest = [] ∧ result = .error (.internal "signed VAA ingestion queue is closed")
        | .cancelled => rest = [] ∧ result = .error .cancelled := by
  constructor
  · intro h
    obtain ⟨answer, rest, rfl, hrest⟩ := yields_ask_iff.mp h
    refine ⟨answer, rest, rfl, ?_⟩
    cases answer with
    | accepted => exact hrest
    | closed => exact yields_done_iff.mp hrest
    | cancelled => exact yields_done_iff.mp hrest
  · rintro ⟨answer, rest, rfl, hrest⟩
    cases answer with
    | accepted => exact .ask hrest
    | closed => exact .ask (yields_done_iff.mpr hrest)
    | cancelled => exact .ask (yields_done_iff.mpr hrest)

end Work

/-- The replies that peers gave, in the order in which they were asked. -/
def replied : Exchange Surroundings → List NetworkReply
  | ⟨.fetch _ _, reply⟩ => [reply]
  | _ => []

/-- The messages that were offered to the intake queue, with its answers. -/
def offered : Exchange Surroundings → List (Bytes × Submission)
  | ⟨.submit message, answer⟩ => [(message, answer)]
  | _ => []

/-- What was submitted is what was offered and accepted. -/
theorem flatMap_submitted (t : Transcript Surroundings) :
    t.flatMap submitted
      = ((t.flatMap offered).filter fun offer => offer.2 = .accepted).map Prod.fst := by
  induction t with
  | nil => rfl
  | cons e t ih =>
      rw [List.flatMap_cons, List.flatMap_cons, List.filter_append, List.map_append, ih]
      congr 1
      obtain ⟨query, answer⟩ := e
      cases query with
      | submit message => cases answer <;> rfl
      | store | now | peerOrder | fetch | announce | pause | isCancelled | nonce | record => rfl

/-- What a service reports behind an answer of the intake queue. -/
def Submission.outcome : Submission → Except Failure Bool
  | .accepted => .ok true
  | .closed => .error (.internal "signed VAA ingestion queue is closed")
  | .cancelled => .error .cancelled

namespace Backfill

variable {c : Coordinate} {t : Transcript Surroundings} {result : Except Failure Bool}

/-- What comes of asking peers for a message: peers are passed over until one
    of them decides, or the request is withdrawn; a message that is served is
    offered to the intake queue, once, and its answer is the result. -/
inductive Concludes (c : Coordinate) :
    List NetworkReply → List (Bytes × Submission) → Except Failure Bool → Prop
  /-- No peer is left. -/
  | notFound : Concludes c [] [] (.ok false)
  /-- A peer does not have the message, or fails. -/
  | passed {reply : NetworkReply} {replies : List NetworkReply}
      {offers : List (Bytes × Submission)} {result : Except Failure Bool}
      (h : PeerVerdict.ofReply c reply = .missing ∨ PeerVerdict.ofReply c reply = .failing)
      (hrest : Concludes c replies offers result) : Concludes c (reply :: replies) offers result
  /-- A peer serves a message. -/
  | offered {reply : NetworkReply} {message : Bytes}
      (h : PeerVerdict.ofReply c reply = .serving message) (answer : Submission) :
      Concludes c [reply] [(message, answer)] answer.outcome
  /-- A peer violates the protocol. -/
  | violated {reply : NetworkReply} {reason : String}
      (h : PeerVerdict.ofReply c reply = .violating reason) :
      Concludes c [reply] [] (.error (.violation reason))
  /-- The request is withdrawn while a reply is waited for. -/
  | withdrawn {reply : NetworkReply} (h : PeerVerdict.ofReply c reply = .cancelled) :
      Concludes c [reply] [] (.error .cancelled)

theorem concludes_tryPeers {deadline : Nat} {peers : List String}
    (h : Yields (tryPeers c deadline peers).run t result) :
    Concludes c (t.flatMap replied) (t.flatMap offered) result := by
  induction peers generalizing t with
  | nil =>
      obtain ⟨rfl, rfl⟩ := yields_done_iff.mp h
      exact .notFound
  | cons peer others ih =>
      obtain ⟨reply, rest, rfl, hrest⟩ := Work.yields_fetch_bind_iff.mp h
      revert hrest
      cases hverdict : PeerVerdict.ofReply c reply with
      | serving message =>
          intro hrest
          obtain ⟨t₁, rfl, h₁⟩ := Work.yields_record_bind_iff.mp hrest
          obtain ⟨answer, t₂, rfl, h₂⟩ := Work.yields_submit_bind_iff.mp h₁
          have hoffered := Concludes.offered hverdict answer
          cases answer with
          | accepted =>
              obtain ⟨rfl, rfl⟩ := yields_done_iff.mp h₂
              exact hoffered
          | closed | cancelled =>
              obtain ⟨rfl, rfl⟩ := h₂
              exact hoffered
      | missing =>
          intro hrest
          obtain ⟨t₁, rfl, h₁⟩ := Work.yields_record_bind_iff.mp hrest
          exact .passed (.inl hverdict) (ih h₁ :)
      | failing =>
          intro hrest
          obtain ⟨t₁, rfl, h₁⟩ := Work.yields_record_bind_iff.mp hrest
          exact .passed (.inr hverdict) (ih h₁ :)
      | violating reason =>
          intro hrest
          obtain ⟨t₁, rfl, h₁⟩ := Work.yields_record_bind_iff.mp hrest
          obtain ⟨rfl, rfl⟩ := yields_done_iff.mp h₁
          exact .violated hverdict
      | cancelled =>
          intro hrest
          obtain ⟨rfl, rfl⟩ := yields_done_iff.mp hrest
          exact .withdrawn hverdict

theorem concludes_fetch {timeout : UInt64} {peers : List String}
    (h : Yields (fetch timeout peers c).run t result) :
    Concludes c (t.flatMap replied) (t.flatMap offered) result := by
  -- the order of the peers and the time are asked for before any peer is
  obtain ⟨order, t₁, rfl, h₁⟩ := yields_ask_iff.mp h
  obtain ⟨start, t₂, rfl, h₂⟩ := yields_ask_iff.mp h₁
  exact (concludes_tryPeers h₂ :)

section Concludes

variable {replies : List NetworkReply} {offers : List (Bytes × Submission)}

/-- At most one message is offered, and what is accepted is a success. -/
theorem Concludes.offers_cases (h : Concludes c replies offers result) :
    (offers = [] ∧ result ≠ .ok true) ∨
      ∃ message answer, offers = [(message, answer)] ∧ result = answer.outcome ∧
        ∃ v, Vaa.parse message = .ok v ∧ v.coordinate = c := by
  induction h with
  | notFound | violated _ | withdrawn _ => exact .inl ⟨rfl, nofun⟩
  | passed _ _ ih => exact ih
  | offered hverdict answer =>
      exact .inr ⟨_, answer, rfl, rfl, PeerVerdict.exists_parse_of_ofReply hverdict⟩

/-- A message is found exactly if a peer serves one. -/
theorem Concludes.found_iff {found : Bool} (h : Concludes c replies offers (.ok found)) :
    found = true ↔
      ∃ reply ∈ replies, ∃ message, PeerVerdict.ofReply c reply = .serving message := by
  generalize hresult : Except.ok found = outcome at h
  induction h with
  | notFound =>
      cases hresult
      exact iff_of_false Bool.false_ne_true fun ⟨_, hmem, _⟩ => absurd hmem List.not_mem_nil
  | @passed reply replies _ _ hverdict _ ih =>
      have hnot : ¬ ∃ message, PeerVerdict.ofReply c reply = .serving message := by
        rintro ⟨message, hserving⟩
        rcases hverdict with hverdict | hverdict
        all_goals
          rw [hserving] at hverdict
          cases hverdict
      simp only [ih hresult, List.mem_cons, exists_eq_or_imp, hnot, false_or]
  | @offered reply message hverdict answer =>
      cases answer with
      | accepted =>
          cases hresult
          exact iff_of_true rfl ⟨reply, List.mem_singleton_self _, message, hverdict⟩
      | closed | cancelled => cases hresult
  | violated _ | withdrawn _ => cases hresult

/-- Only who withdraws the request has it cancelled. -/
theorem Concludes.ne_cancelled (h : Concludes c replies offers result)
    (hreplies : ∀ reply ∈ replies, PeerVerdict.ofReply c reply ≠ .cancelled)
    (hoffers : ∀ offer ∈ offers, offer.2 ≠ .cancelled) : result ≠ .error .cancelled := by
  induction h with
  | notFound | violated _ => exact nofun
  | passed _ _ ih => exact ih (List.forall_mem_cons.mp hreplies).2 hoffers
  | offered _ answer =>
      have hanswer := List.forall_mem_singleton.mp hoffers
      cases answer with
      | accepted | closed => exact nofun
      | cancelled => exact absurd rfl hanswer
  | withdrawn hverdict => exact absurd hverdict (hreplies _ (List.mem_singleton_self _))

end Concludes

/-- One message with the requested coordinate is submitted if the result is
    success, and none if it is not. -/
def Accounts (c : Coordinate) (t : Transcript Surroundings) (result : Except Failure Bool) :
    Prop :=
  (result = .ok true ∧
    ∃ message v, t.flatMap submitted = [message] ∧ Vaa.parse message = .ok v ∧
      v.coordinate = c) ∨
  (result ≠ .ok true ∧ t.flatMap submitted = [])

theorem accounts_fetch {timeout : UInt64} {peers : List String}
    (h : Yields (fetch timeout peers c).run t result) : Accounts c t result := by
  rw [Accounts, flatMap_submitted]
  rcases (concludes_fetch h).offers_cases with
    ⟨hnone, hresult⟩ | ⟨message, answer, hone, rfl, v, hparse, hc⟩
  · rw [hnone]
    exact .inr ⟨hresult, rfl⟩
  · rw [hone]
    cases answer with
    | accepted => exact .inl ⟨rfl, message, v, rfl, hparse, hc⟩
    | closed | cancelled => exact .inr ⟨nofun, rfl⟩

/-- The first peer is asked, and its message is offered. -/
theorem yields_tryPeers_of_serving {deadline : Nat} {peer : String} {others : List String}
    {reply : NetworkReply} {message : Bytes}
    (hserving : PeerVerdict.ofReply c reply = .serving message) (answer : Submission) :
    Yields (tryPeers c deadline (peer :: others)).run
      [⟨.fetch (address peer c) deadline, reply⟩,
        ⟨.record (.backfillAttempt c.chain .found), ()⟩, ⟨.submit message, answer⟩]
      answer.outcome := by
  refine Work.yields_fetch_bind_iff.mpr ⟨reply, _, rfl, ?_⟩
  rw [hserving]
  refine Work.yields_record_bind_iff.mpr ⟨_, rfl, ?_⟩
  refine Work.yields_submit_bind_iff.mpr ⟨answer, [], rfl, ?_⟩
  cases answer with
  | accepted => exact .done _
  | closed | cancelled => exact ⟨rfl, rfl⟩

/-- The one peer is asked for a message. -/
def onePeerAsked (timeout : UInt64) (peer : String) (c : Coordinate) (start : Nat)
    (reply : NetworkReply) : Transcript Surroundings :=
  [⟨.peerOrder [peer], ⟨[peer], .refl _⟩⟩, ⟨.now, start⟩,
    ⟨.fetch (address peer c) (start + timeout.toNat), reply⟩]

theorem yields_fetch_of_serving {timeout : UInt64} {peer : String} {start : Nat}
    {reply : NetworkReply} {message : Bytes}
    (hserving : PeerVerdict.ofReply c reply = .serving message) (answer : Submission) :
    Yields (fetch timeout [peer] c).run
      (onePeerAsked timeout peer c start reply ++
        [⟨.record (.backfillAttempt c.chain .found), ()⟩, ⟨.submit message, answer⟩])
      answer.outcome :=
  .ask (.ask (yields_tryPeers_of_serving hserving answer))

end Backfill

end BridgeGuardian
