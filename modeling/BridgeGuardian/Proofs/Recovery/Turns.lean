import BridgeGuardian.Proofs.Recovery.Backfill
import BridgeGuardian.Proofs.Recovery.Serving
import BridgeGuardian.Proofs.Site.Claimed
import BridgeGuardian.Proofs.Site.Verified

/-! # Taking turns — which peer decides what comes of asking

    Every peer has one reply, whenever it is asked.  A reply serves the
    message, violates the protocol, or is passed over; the first peer in the
    chosen order that is not passed over decides, and no peer behind it is
    asked.  So the order matters only among peers of which some serve and
    some violate. -/

namespace BridgeGuardian

open Program

/-! ## What a reply is -/

/-- A reply serves the message with a coordinate. -/
def IsServing (c : Coordinate) (message : Bytes) (reply : NetworkReply) : Prop :=
  Delivers message reply ∧ ∃ v, Vaa.parse message = .ok v ∧ v.coordinate = c

/-- A reply violates the protocol: by its status, or by a message with
    another coordinate. -/
def IsViolating (c : Coordinate) (reply : NetworkReply) : Prop :=
  (∃ response, reply = .ok response ∧ response.status ≠ 200 ∧ response.status ≠ 404) ∨
    ∃ message v, Delivers message reply ∧ Vaa.parse message = .ok v ∧ v.coordinate ≠ c

/-- The request was withdrawn while a reply was waited for, or its body. -/
def IsWithdrawn (reply : NetworkReply) : Prop :=
  reply = .error .cancelled ∨ reply = .ok ⟨200, .error .cancelled⟩

/-- No other peer is asked behind this reply. -/
def IsDecisive (c : Coordinate) (reply : NetworkReply) : Prop :=
  (∃ message, IsServing c message reply) ∨ IsViolating c reply

namespace PeerVerdict

variable {c : Coordinate} {message : Bytes} {reply : NetworkReply}

theorem ofReply_of_isServing (h : IsServing c message reply) :
    ofReply c reply = .serving message := by
  obtain ⟨hdelivers, v, hv, hc⟩ := h
  exact ofReply_of_delivers hv hc hdelivers

theorem ofReply_of_isViolating (h : IsViolating c reply) :
    ∃ reason, ofReply c reply = .violating reason := by
  rcases h with ⟨response, rfl, hfound, habsent⟩ | ⟨message, v, ⟨body, rfl, hdecode⟩, hv, hc⟩
  · refine ⟨s!"unexpected response status: {response.status}", ?_⟩
    rw [ofReply, if_neg habsent, if_neg hfound]
  · refine ⟨s!"requested {c}, peer returned {v.coordinate}", ?_⟩
    show ofBody c (.ok body) = _
    rw [ofBody, hdecode]
    show ofMessage c message = _
    rw [ofMessage, hv]
    exact if_neg hc

/-- A message with a coordinate decides, whichever it is. -/
theorem isDecisive_of_parse {text : String} {v : Vaa}
    (hdecode : Json.decode messageShape text = .ok message) (hv : Vaa.parse message = .ok v) :
    IsDecisive c (.ok ⟨200, .ok text⟩) := by
  have hdelivers : Delivers message (.ok ⟨200, .ok text⟩) := ⟨text, rfl, hdecode⟩
  by_cases hc : v.coordinate = c
  · exact .inl ⟨message, hdelivers, v, hv, hc⟩
  · exact .inr (.inr ⟨message, v, hdelivers, hv, hc⟩)

theorem ofBody_of_not_isDecisive {text : String} (h : ¬ IsDecisive c (.ok ⟨200, .ok text⟩)) :
    ofBody c (.ok text) = .failing := by
  rw [ofBody]
  cases hdecode : Json.decode messageShape text with
  | error fault => rfl
  | ok octets =>
      show ofMessage c octets = _
      rw [ofMessage]
      cases hv : Vaa.parse octets with
      | error fault => rfl
      | ok v => exact absurd (isDecisive_of_parse hdecode hv) h

/-- A reply that decides nothing is one of a peer that does not have the
    message or fails. -/
theorem ofReply_of_not_isDecisive (hgoing : ¬ IsWithdrawn reply) (h : ¬ IsDecisive c reply) :
    ofReply c reply = .missing ∨ ofReply c reply = .failing := by
  match reply, hgoing, h with
  | .error .failed, _, _ | .error .expired, _, _ => exact .inr rfl
  | .error .cancelled, hgoing, _ => exact absurd (.inl rfl) hgoing
  | .ok ⟨status, body⟩, hgoing, h =>
      by_cases habsent : status = 404
      · exact .inl (if_pos habsent)
      · by_cases hfound : status = 200
        · subst hfound
          refine .inr ?_
          match body, hgoing, h with
          | .error .failed, _, _ | .error .expired, _, _ => rfl
          | .error .cancelled, hgoing, _ => exact absurd (.inr rfl) hgoing
          | .ok text, _, h => exact ofBody_of_not_isDecisive h
        · exact absurd (.inr (.inl ⟨_, rfl, hfound, habsent⟩)) h

theorem ofReply_ne_cancelled (hgoing : ¬ IsWithdrawn reply) : ofReply c reply ≠ .cancelled := by
  by_cases hdecisive : IsDecisive c reply
  · rcases hdecisive with ⟨message, hserving⟩ | hviolating
    · rw [ofReply_of_isServing hserving]
      exact nofun
    · obtain ⟨reason, hverdict⟩ := ofReply_of_isViolating hviolating
      rw [hverdict]
      exact nofun
  · rcases ofReply_of_not_isDecisive hgoing hdecisive with hverdict | hverdict
    all_goals
      rw [hverdict]
      exact nofun

/-- A peer that is taken to serve a message serves it. -/
theorem isServing_of_ofReply (h : ofReply c reply = .serving message) :
    IsServing c message reply := by
  by_cases hdecisive : IsDecisive c reply
  · rcases hdecisive with ⟨other, hserving⟩ | hviolating
    · rw [ofReply_of_isServing hserving] at h
      cases h
      exact hserving
    · obtain ⟨reason, hverdict⟩ := ofReply_of_isViolating hviolating
      rw [hverdict] at h
      cases h
  · have hgoing : ¬ IsWithdrawn reply := by
      rintro (rfl | rfl)
      all_goals cases h
    rcases ofReply_of_not_isDecisive hgoing hdecisive with hverdict | hverdict
    all_goals
      rw [hverdict] at h
      cases h

end PeerVerdict

/-! ## Asking peers in turn -/

/-- A peer, with what it replies. -/
structure Peer where
  name : String
  reply : NetworkReply

/-- Where a peer is asked for a message. -/
def Peer.address (c : Coordinate) (p : Peer) : String := Backfill.address p.name c

/-- Peers are asked in an order and each replies when its turn comes; the
    intake queue is open, and all other answers are free. -/
def inTurn (others : (q : Surroundings.Query) → q.Answer) :
    List Peer → (q : Surroundings.Query) → q.Answer × List Peer
  | order, .peerOrder peers =>
      (if h : (order.map Peer.name).Perm peers then ⟨order.map Peer.name, h⟩
        else others (.peerOrder peers), order)
  | p :: order, .fetch _ _ => (p.reply, order)
  | order, .submit _ => (.accepted, order)
  | order, q => (others q, order)

/-- The addresses that are asked. -/
def requested : Exchange Surroundings → List String
  | ⟨.fetch url _, _⟩ => [url]
  | _ => []

/-- What comes of asking peers: who is asked, what is submitted, and what is
    reported. -/
structure Course where
  requested : List String
  submitted : List Bytes
  outcome : Except Failure Bool

namespace Course

/-- The course of a task while peers take turns. -/
def ofTask (others : (q : Surroundings.Query) → q.Answer) (order : List Peer)
    (task : Work Bool) : Course :=
  let t := task.outcome.transcript (inTurn others) order
  ⟨t.flatMap BridgeGuardian.requested, t.flatMap BridgeGuardian.submitted,
    (task.outcome.run (inTurn others) order).1⟩

/-- The course with peers in front that are passed over. -/
def after (addresses : List String) (course : Course) : Course :=
  { course with requested := addresses ++ course.requested }

/-- What is reported, up to the wording of failures. -/
def kind (course : Course) : Except FailureKind Bool := course.outcome.mapError Failure.kind

end Course

namespace Backfill

variable {c : Coordinate} {others : (q : Surroundings.Query) → q.Answer} {deadline : Nat}
variable {p : Peer} {order : List Peer}

/-- What comes of trying peers in an order. -/
def trying (c : Coordinate) (others : (q : Surroundings.Query) → q.Answer) (deadline : Nat)
    (order : List Peer) : Course :=
  .ofTask others order (tryPeers c deadline (order.map Peer.name))

theorem trying_nil : trying c others deadline [] = ⟨[], [], .ok false⟩ := rfl

/-- What is done about a verdict, with the peers behind. -/
def react (c : Coordinate) (deadline : Nat) (peers : List String) : PeerVerdict → Work Bool
  | .serving message => do
      Work.record (.backfillAttempt c.chain .found)
      Work.submit message
      return true
  | .missing => do
      Work.record (.backfillAttempt c.chain .notFound)
      tryPeers c deadline peers
  | .failing => do
      Work.record (.backfillAttempt c.chain .error)
      tryPeers c deadline peers
  | .violating reason => do
      Work.record (.backfillAttempt c.chain .protocolError)
      throw (.violation reason)
  | .cancelled => throw .cancelled

theorem tryPeers_cons (peer : String) (peers : List String) :
    tryPeers c deadline (peer :: peers) =
      Work.fetch (address peer c) deadline >>= fun reply =>
        react c deadline peers (PeerVerdict.ofReply c reply) := rfl

theorem trying_cons :
    trying c others deadline (p :: order) =
      (Course.ofTask others order
        (react c deadline (order.map Peer.name) (PeerVerdict.ofReply c p.reply))).after
          [p.address c] := by
  rw [trying, List.map_cons, tryPeers_cons]
  rfl

theorem trying_cons_of_serving {message : Bytes} (h : IsServing c message p.reply) :
    trying c others deadline (p :: order) = ⟨[p.address c], [message], .ok true⟩ := by
  rw [trying_cons, PeerVerdict.ofReply_of_isServing h]
  rfl

theorem trying_cons_of_violating (others : (q : Surroundings.Query) → q.Answer) (deadline : Nat)
    (order : List Peer) (h : IsViolating c p.reply) :
    ∃ reason, trying c others deadline (p :: order)
      = ⟨[p.address c], [], .error (.violation reason)⟩ := by
  obtain ⟨reason, hverdict⟩ := PeerVerdict.ofReply_of_isViolating h
  refine ⟨reason, ?_⟩
  rw [trying_cons, hverdict]
  rfl

theorem trying_cons_of_not_decisive (hgoing : ¬ IsWithdrawn p.reply)
    (h : ¬ IsDecisive c p.reply) :
    trying c others deadline (p :: order)
      = (trying c others deadline order).after [p.address c] := by
  rcases PeerVerdict.ofReply_of_not_isDecisive hgoing h with hverdict | hverdict
  · rw [trying_cons, hverdict]
    rfl
  · rw [trying_cons, hverdict]
    rfl

/-- Peers that decide nothing are asked and passed over. -/
theorem trying_append (others : (q : Surroundings.Query) → q.Answer) (deadline : Nat)
    {before : List Peer} (order : List Peer) (hgoing : ∀ p ∈ before, ¬ IsWithdrawn p.reply)
    (hpass : ∀ p ∈ before, ¬ IsDecisive c p.reply) :
    trying c others deadline (before ++ order)
      = (trying c others deadline order).after (before.map (Peer.address c)) := by
  induction before with
  | nil => rfl
  | cons p before ih =>
      obtain ⟨hgoing₁, hgoing₂⟩ := List.forall_mem_cons.mp hgoing
      obtain ⟨hpass₁, hpass₂⟩ := List.forall_mem_cons.mp hpass
      rw [List.cons_append, trying_cons_of_not_decisive hgoing₁ hpass₁, ih hgoing₂ hpass₂]
      rfl

/-- What comes of asking peers who take turns in an order. -/
def asking (timeout : UInt64) (peers : List String) (c : Coordinate)
    (others : (q : Surroundings.Query) → q.Answer) (order : List Peer) : Course :=
  .ofTask others order (fetch timeout peers c)

/-- The peers are tried in the chosen order. -/
theorem asking_eq_trying (c : Coordinate) (others : (q : Surroundings.Query) → q.Answer)
    {peers : List String} (h : (order.map Peer.name).Perm peers) (timeout : UInt64) :
    ∃ deadline, asking timeout peers c others order = trying c others deadline order := by
  refine ⟨others .now + timeout.toNat, ?_⟩
  have hchosen : inTurn others order (.peerOrder peers) = (⟨order.map Peer.name, h⟩, order) := by
    rw [inTurn, dif_pos h]
  show Course.after [] (.ofTask others (inTurn others order (.peerOrder peers)).2
    (tryPeers c _ (inTurn others order (.peerOrder peers)).1.val)) = _
  rw [hchosen]
  rfl

variable {peers : List String} {before behind : List Peer}

theorem asking_of_not_decisive (hpeers : (order.map Peer.name).Perm peers)
    (hgoing : ∀ p ∈ order, ¬ IsWithdrawn p.reply) (timeout : UInt64)
    (hpass : ∀ p ∈ order, ¬ IsDecisive c p.reply) :
    asking timeout peers c others order = ⟨order.map (Peer.address c), [], .ok false⟩ := by
  obtain ⟨deadline, htrying⟩ := asking_eq_trying c others hpeers timeout
  rw [htrying]
  have hall := trying_append others deadline [] hgoing hpass
  rw [List.append_nil, trying_nil] at hall
  rw [hall, Course.after, List.append_nil]

/-- Peers are asked up to the first that decides. -/
theorem asking_append_cons (others : (q : Surroundings.Query) → q.Answer)
    (hpeers : ((before ++ p :: behind).map Peer.name).Perm peers)
    (hgoing : ∀ x ∈ before ++ p :: behind, ¬ IsWithdrawn x.reply) (timeout : UInt64)
    (hpass : ∀ x ∈ before, ¬ IsDecisive c x.reply) :
    ∃ deadline, asking timeout peers c others (before ++ p :: behind)
      = (trying c others deadline (p :: behind)).after (before.map (Peer.address c)) := by
  obtain ⟨deadline, htrying⟩ := asking_eq_trying c others hpeers timeout
  refine ⟨deadline, ?_⟩
  rw [htrying]
  exact trying_append others deadline (p :: behind)
    (fun x hx => hgoing x (List.mem_append_left _ hx)) hpass

theorem asking_of_serving {message : Bytes}
    (hpeers : ((before ++ p :: behind).map Peer.name).Perm peers)
    (hgoing : ∀ x ∈ before ++ p :: behind, ¬ IsWithdrawn x.reply) (timeout : UInt64)
    (hpass : ∀ x ∈ before, ¬ IsDecisive c x.reply) (h : IsServing c message p.reply) :
    asking timeout peers c others (before ++ p :: behind)
      = ⟨(before ++ [p]).map (Peer.address c), [message], .ok true⟩ := by
  obtain ⟨deadline, hasking⟩ := asking_append_cons others hpeers hgoing timeout hpass
  rw [hasking, trying_cons_of_serving h, Course.after, List.map_append]
  rfl

theorem asking_of_violating (others : (q : Surroundings.Query) → q.Answer)
    (hpeers : ((before ++ p :: behind).map Peer.name).Perm peers)
    (hgoing : ∀ x ∈ before ++ p :: behind, ¬ IsWithdrawn x.reply) (timeout : UInt64)
    (hpass : ∀ x ∈ before, ¬ IsDecisive c x.reply) (h : IsViolating c p.reply) :
    ∃ reason, asking timeout peers c others (before ++ p :: behind)
      = ⟨(before ++ [p]).map (Peer.address c), [], .error (.violation reason)⟩ := by
  obtain ⟨deadline, hasking⟩ := asking_append_cons others hpeers hgoing timeout hpass
  obtain ⟨reason, htrying⟩ := trying_cons_of_violating others deadline behind h
  refine ⟨reason, ?_⟩
  rw [hasking, htrying, Course.after, List.map_append]
  rfl

/-! ## The kind of outcome -/

/-- Among peers of which some decide, one is the first. -/
theorem exists_first_decisive (h : ∃ p ∈ order, IsDecisive c p.reply) :
    ∃ before p behind, order = before ++ p :: behind ∧
      (∀ x ∈ before, ¬ IsDecisive c x.reply) ∧ IsDecisive c p.reply := by
  classical
  obtain ⟨p, hp, hdecisive⟩ := h
  cases hfind : order.find? fun x => decide (IsDecisive c x.reply) with
  | none => exact absurd (decide_eq_true hdecisive) (List.find?_eq_none.mp hfind p hp)
  | some q =>
      obtain ⟨hq, before, behind, hsplit, hpass⟩ := List.find?_eq_some_iff_append.mp hfind
      refine ⟨before, q, behind, hsplit, fun x hx => ?_, of_decide_eq_true hq⟩
      simpa using hpass x hx

/-- Where a peer serves and none violates, the message is found. -/
theorem kind_asking_of_serving (hpeers : (order.map Peer.name).Perm peers)
    (hgoing : ∀ p ∈ order, ¬ IsWithdrawn p.reply) (timeout : UInt64)
    (hserving : ∃ p ∈ order, ∃ message, IsServing c message p.reply)
    (hnone : ∀ p ∈ order, ¬ IsViolating c p.reply) :
    (asking timeout peers c others order).kind = .ok true := by
  obtain ⟨p, hp, hserves⟩ := hserving
  obtain ⟨before, q, behind, rfl, hpass, hdecisive⟩ := exists_first_decisive ⟨p, hp, .inl hserves⟩
  rcases hdecisive with ⟨message, hq⟩ | hq
  · rw [asking_of_serving hpeers hgoing timeout hpass hq]
    rfl
  · exact absurd hq (hnone q (List.mem_append_right _ List.mem_cons_self))

/-- Where a peer violates and none serves, this is reported. -/
theorem kind_asking_of_violating (hpeers : (order.map Peer.name).Perm peers)
    (hgoing : ∀ p ∈ order, ¬ IsWithdrawn p.reply) (timeout : UInt64)
    (hviolating : ∃ p ∈ order, IsViolating c p.reply)
    (hnone : ∀ p ∈ order, ¬ ∃ message, IsServing c message p.reply) :
    (asking timeout peers c others order).kind = .error .protocol := by
  obtain ⟨p, hp, hviolates⟩ := hviolating
  obtain ⟨before, q, behind, rfl, hpass, hdecisive⟩ :=
    exists_first_decisive ⟨p, hp, .inr hviolates⟩
  rcases hdecisive with hq | hq
  · exact absurd hq (hnone q (List.mem_append_right _ List.mem_cons_self))
  · obtain ⟨reason, hasking⟩ := asking_of_violating others hpeers hgoing timeout hpass hq
    rw [hasking]
    rfl

/-- Unless some serve and some violate, peers may be asked in any order. -/
theorem kind_asking_of_perm {other : List Peer} (hother : other.Perm order)
    (hpeers : (order.map Peer.name).Perm peers) (hgoing : ∀ p ∈ order, ¬ IsWithdrawn p.reply)
    (timeout : UInt64)
    (hnot : ¬ ((∃ p ∈ order, ∃ message, IsServing c message p.reply) ∧
      ∃ p ∈ order, IsViolating c p.reply)) :
    (asking timeout peers c others other).kind = (asking timeout peers c others order).kind := by
  have hpeers' : (other.map Peer.name).Perm peers := (hother.map _).trans hpeers
  have hmem : ∀ p, p ∈ other ↔ p ∈ order := fun p => hother.mem_iff
  have hgoing' : ∀ p ∈ other, ¬ IsWithdrawn p.reply := fun p hp => hgoing p ((hmem p).mp hp)
  by_cases hserving : ∃ p ∈ order, ∃ message, IsServing c message p.reply
  · have hnone : ∀ p ∈ order, ¬ IsViolating c p.reply :=
      fun p hp hviolates => hnot ⟨hserving, p, hp, hviolates⟩
    rw [kind_asking_of_serving hpeers hgoing timeout hserving hnone]
    obtain ⟨p, hp, hserves⟩ := hserving
    exact kind_asking_of_serving hpeers' hgoing' timeout ⟨p, (hmem p).mpr hp, hserves⟩
      fun p hp => hnone p ((hmem p).mp hp)
  · have hnone : ∀ p ∈ order, ¬ ∃ message, IsServing c message p.reply :=
      fun p hp hserves => hserving ⟨p, hp, hserves⟩
    by_cases hviolating : ∃ p ∈ order, IsViolating c p.reply
    · rw [kind_asking_of_violating hpeers hgoing timeout hviolating hnone]
      obtain ⟨p, hp, hviolates⟩ := hviolating
      exact kind_asking_of_violating hpeers' hgoing' timeout ⟨p, (hmem p).mpr hp, hviolates⟩
        fun p hp => hnone p ((hmem p).mp hp)
    · have hpass : ∀ p ∈ order, ¬ IsDecisive c p.reply := by
        rintro p hp (hserves | hviolates)
        · exact hnone p hp hserves
        · exact hviolating ⟨p, hp, hviolates⟩
      rw [asking_of_not_decisive hpeers hgoing timeout hpass,
        asking_of_not_decisive hpeers' hgoing' timeout fun p hp => hpass p ((hmem p).mp hp)]
      rfl

/-- **The first peer that serves or violates decides**: the peers up to it
    are asked, once each, and those behind it are not. -/
theorem first_decisive_peer_decides (timeout : UInt64) (peers : List String) (c : Coordinate)
    (others : (q : Surroundings.Query) → q.Answer) (order : List Peer)
    (hpeers : (order.map Peer.name).Perm peers)
    (hgoing : ∀ p ∈ order, ¬ IsWithdrawn p.reply) :
    ((∀ p ∈ order, ¬ IsDecisive c p.reply) →
      asking timeout peers c others order = ⟨order.map (Peer.address c), [], .ok false⟩) ∧
    (∀ before p behind, order = before ++ p :: behind →
      (∀ x ∈ before, ¬ IsDecisive c x.reply) →
      (∀ message, IsServing c message p.reply →
        asking timeout peers c others order
          = ⟨(before ++ [p]).map (Peer.address c), [message], .ok true⟩) ∧
      (IsViolating c p.reply → ∃ reason, asking timeout peers c others order
        = ⟨(before ++ [p]).map (Peer.address c), [], .error (.violation reason)⟩)) ∧
    -- the order matters only if some serve and some violate
    (¬ ((∃ p ∈ order, ∃ message, IsServing c message p.reply) ∧
        ∃ p ∈ order, IsViolating c p.reply) →
      ∀ other : List Peer, other.Perm order →
        (asking timeout peers c others other).kind
          = (asking timeout peers c others order).kind) := by
  refine ⟨fun hpass => asking_of_not_decisive hpeers hgoing timeout hpass, ?_,
    fun hnot other hother => kind_asking_of_perm hother hpeers hgoing timeout hnot⟩
  rintro before p behind rfl hpass
  exact ⟨fun message h => asking_of_serving hpeers hgoing timeout hpass h,
    fun h => asking_of_violating others hpeers hgoing timeout hpass h⟩

end Backfill

/-! ## A round of questions -/

namespace Site

/-- A peer that cannot be reached. -/
def silent : Peer := ⟨"http://silent", .error .failed⟩

/-- A peer that does not have the message. -/
def ignorant : Peer := ⟨"http://ignorant/", .ok ⟨404, .error .failed⟩⟩

/-- A peer that serves the signed message. -/
def helpful : Peer :=
  ⟨"http://helpful",
    .ok ⟨200, .ok ("\x7b\"vaaBytes\":\"" ++ Base64.encode signedMessage.serialize ++ "\"\x7d")⟩⟩

/-- A peer that is out of order. -/
def faulty : Peer := ⟨"http://faulty", .ok ⟨500, .ok ""⟩⟩

theorem isServing_helpful :
    IsServing signedMessage.coordinate signedMessage.serialize helpful.reply :=
  ⟨delivers_of_body _, signedMessage, parse_signedMessage, rfl⟩

theorem isViolating_faulty (c : Coordinate) : IsViolating c faulty.reply :=
  .inl ⟨_, rfl, by decide, by decide⟩

theorem not_isDecisive_silent (c : Coordinate) : ¬ IsDecisive c silent.reply := by
  rintro (⟨message, ⟨body, h, -⟩, -⟩ | ⟨response, h, -⟩ | ⟨message, v, ⟨body, h, -⟩, -⟩)
  all_goals cases h

theorem not_isDecisive_ignorant (c : Coordinate) : ¬ IsDecisive c ignorant.reply := by
  rintro (⟨message, ⟨body, h, -⟩, -⟩ | ⟨response, h, -, hstatus⟩ | ⟨message, v, ⟨body, h, -⟩, -⟩)
  · cases h
  · cases h
    exact hstatus rfl
  · cases h

/-- The peers in two orders. -/
def helpfulFirst : List Peer := [silent, ignorant, helpful, faulty]

def faultyFirst : List Peer := [silent, faulty, ignorant, helpful]

theorem not_isWithdrawn_of_mem {p : Peer} (h : p ∈ [silent, ignorant, helpful, faulty]) :
    ¬ IsWithdrawn p.reply := by
  simp only [List.mem_cons, List.not_mem_nil, or_false] at h
  rcases h with rfl | rfl | rfl | rfl
  all_goals
    rintro (hreply | hreply)
    all_goals cases hreply

theorem helpful_or_faulty_peer_decides :
    Backfill.asking 1000 ["http://silent", "http://ignorant/", "http://helpful", "http://faulty"]
        signedMessage.coordinate calm helpfulFirst
      = ⟨[silent, ignorant, helpful].map (Peer.address signedMessage.coordinate),
          [signedMessage.serialize], .ok true⟩ ∧
    ∃ reason, Backfill.asking 1000
        ["http://silent", "http://ignorant/", "http://helpful", "http://faulty"]
        signedMessage.coordinate calm faultyFirst
      = ⟨[silent, faulty].map (Peer.address signedMessage.coordinate), [],
          .error (.violation reason)⟩ := by
  have hperm : faultyFirst.Perm helpfulFirst :=
    .cons _ ((List.Perm.swap _ _ _).trans (.cons _ (.swap _ _ _)))
  have hpeers : (faultyFirst.map Peer.name).Perm
      ["http://silent", "http://ignorant/", "http://helpful", "http://faulty"] := hperm.map _
  have hhelpful := Backfill.first_decisive_peer_decides 1000 _ signedMessage.coordinate calm
    helpfulFirst (.refl _) fun p hp => not_isWithdrawn_of_mem hp
  have hfaulty := Backfill.first_decisive_peer_decides 1000 _ signedMessage.coordinate calm
    faultyFirst hpeers fun p hp => not_isWithdrawn_of_mem (hperm.mem_iff.mp hp)
  have hsilent := not_isDecisive_silent signedMessage.coordinate
  constructor
  · refine (hhelpful.2.1 [silent, ignorant] helpful [faulty] rfl ?_).1 _ isServing_helpful
    exact List.forall_mem_cons.mpr ⟨hsilent, List.forall_mem_singleton.mpr
      (not_isDecisive_ignorant _)⟩
  · refine (hfaulty.2.1 [silent] faulty [ignorant, helpful] rfl ?_).2 (isViolating_faulty _)
    exact List.forall_mem_singleton.mpr hsilent

end Site

end BridgeGuardian
