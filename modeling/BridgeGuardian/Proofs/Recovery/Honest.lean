import BridgeGuardian.Proofs.Recovery.Backfill
import BridgeGuardian.Proofs.Recovery.Serving
import BridgeGuardian.Proofs.Recovery.Stored

/-! # Honest peers — asking where one of them has the message

    Peers are honest about a message if they serve this message or none.
    In whatever order they are asked, those that do not have it, fail or
    cannot be understood are passed over, and as soon as one serves the
    message it is submitted; nothing else is. -/

namespace BridgeGuardian

open Program

/-! ## Honest peers -/

/-- What a peer may reply that serves one message or none. -/
inductive IsHonest (message : Bytes) : NetworkReply → Prop
  /-- It serves the message. -/
  | serving {body : String} (h : Json.decode PeerVerdict.messageShape body = .ok message) :
      IsHonest message (.ok ⟨200, .ok body⟩)
  /-- It does not have the message. -/
  | missing (body : Except Interruption String) : IsHonest message (.ok ⟨404, body⟩)
  /-- It cannot be reached. -/
  | unreachable {interruption : Interruption} (h : interruption ≠ .cancelled) :
      IsHonest message (.error interruption)
  /-- Its reply breaks off. -/
  | broken {interruption : Interruption} (h : interruption ≠ .cancelled) :
      IsHonest message (.ok ⟨200, .error interruption⟩)
  /-- Its reply does not have the form of one that serves a message. -/
  | illFormed {body : String} {fault : Json.Fault}
      (h : Json.decode PeerVerdict.messageShape body = .error fault) :
      IsHonest message (.ok ⟨200, .ok body⟩)
  /-- What it serves is no message. -/
  | unreadable {body : String} {octets : Bytes} {fault : Malformed}
      (h : Json.decode PeerVerdict.messageShape body = .ok octets)
      (hoctets : Vaa.parse octets = .error fault) :
      IsHonest message (.ok ⟨200, .ok body⟩)

namespace PeerVerdict

variable {c : Coordinate} {message : Bytes} {v : Vaa} {reply : NetworkReply}

/-- An honest peer serves the message, does not have it, or fails. -/
theorem ofReply_of_honest (hv : Vaa.parse message = .ok v) (hc : v.coordinate = c)
    (h : IsHonest message reply) :
    ofReply c reply = .serving message ∨ ofReply c reply = .missing ∨
      ofReply c reply = .failing := by
  cases h with
  | serving hdecode => exact .inl (ofReply_of_delivers hv hc ⟨_, rfl, hdecode⟩)
  | missing body => exact .inr (.inl rfl)
  | @unreachable interruption hgoing =>
      cases interruption with
      | failed | expired => exact .inr (.inr rfl)
      | cancelled => exact absurd rfl hgoing
  | @broken interruption hgoing =>
      cases interruption with
      | failed | expired => exact .inr (.inr rfl)
      | cancelled => exact absurd rfl hgoing
  | @illFormed body fault hdecode =>
      refine .inr (.inr ?_)
      show ofBody c (.ok body) = _
      rw [ofBody, hdecode]
  | @unreadable body octets fault hdecode hoctets =>
      refine .inr (.inr ?_)
      show ofBody c (.ok body) = _
      rw [ofBody, hdecode]
      show ofMessage c octets = _
      rw [ofMessage, hoctets]

end PeerVerdict

/-- Peers among which a message is found: they are honest, and one serves
    it. -/
structure CanServe (network : String → NetworkReply) (peers : List String) (c : Coordinate)
    (message : Bytes) : Prop where
  honest : ∀ peer ∈ peers, IsHonest message (network (Backfill.address peer c))
  found : ∃ peer ∈ peers, Delivers message (network (Backfill.address peer c))

namespace CanServe

variable {network : String → NetworkReply} {peers order : List String} {c : Coordinate}
variable {message : Bytes}

theorem perm (h : CanServe network peers c message) (horder : order.Perm peers) :
    CanServe network order c message where
  honest peer hpeer := h.honest peer (horder.mem_iff.mp hpeer)
  found := by
    obtain ⟨peer, hpeer, hdelivers⟩ := h.found
    exact ⟨peer, horder.mem_iff.mpr hpeer, hdelivers⟩

/-- If the first peer does not serve the message, another one does. -/
theorem of_cons {peer : String} (h : CanServe network (peer :: order) c message)
    (hnot : ¬ Delivers message (network (Backfill.address peer c))) :
    CanServe network order c message where
  honest other hother := h.honest other (List.mem_cons_of_mem _ hother)
  found := by
    obtain ⟨other, hother, hdelivers⟩ := h.found
    rcases List.mem_cons.mp hother with rfl | hother
    · exact absurd hdelivers hnot
    · exact ⟨other, hother, hdelivers⟩

end CanServe

/-- Nothing interferes with a request: peers reply as they do, the intake queue
    is open, and nobody withdraws the request. -/
def IsCalm (network : String → NetworkReply) : Exchange Surroundings → Prop
  | ⟨.fetch url _, reply⟩ => reply = network url
  | ⟨.submit _, answer⟩ => answer = .accepted
  | ⟨.isCancelled, answer⟩ => answer = false
  | _ => True

/-- Peers reply as they do, the intake queue is open, and nothing else
    happens. -/
def Site.calmly (network : String → NetworkReply) : (q : Surroundings.Query) → q.Answer
  | .fetch url _ => network url
  | .submit _ => .accepted
  | q => calm q

theorem Site.isCalm_of_mem_transcript {α : Type} (network : String → NetworkReply)
    (p : Program Surroundings α) (a : Archive) :
    ∀ x ∈ p.transcript (serve (calmly network)) a, IsCalm network x := by
  rintro ⟨query, answer⟩ hmem
  cases query with
  | fetch | submit | isCancelled =>
      exact answer_of_mem_transcript (calmly network) (fun _ hr => by cases hr) hmem
  | store | now | peerOrder | announce | pause | nonce | record => trivial

/-! ## What is submitted -/

namespace Backfill

variable {network : String → NetworkReply} {peers : List String} {c : Coordinate}
variable {message : Bytes} {v : Vaa} {t : Transcript Surroundings} {result : Except Failure Bool}

/-- Among honest peers the message is found, and nothing else is submitted. -/
theorem submitted_of_yields_tryPeers {deadline : Nat} (hv : Vaa.parse message = .ok v)
    (hc : v.coordinate = c) (hpeers : CanServe network peers c message)
    (hcalm : ∀ x ∈ t, IsCalm network x)
    (h : Yields (tryPeers c deadline peers).run t result) :
    result = .ok true ∧ t.flatMap submitted = [message] := by
  induction peers generalizing t with
  | nil =>
      obtain ⟨peer, hpeer, -⟩ := hpeers.found
      exact absurd hpeer List.not_mem_nil
  | cons peer others ih =>
      obtain ⟨reply, rest, rfl, hrest⟩ := Work.yields_fetch_bind_iff.mp h
      obtain ⟨hreply, hcalm₁⟩ := List.forall_mem_cons.mp hcalm
      obtain rfl : reply = network (address peer c) := hreply
      -- another peer is asked only if this one does not serve the message
      have hothers : ∀ {verdict},
          PeerVerdict.ofReply c (network (address peer c)) = verdict →
          verdict ≠ .serving message → CanServe network others c message := by
        intro verdict hverdict hne
        refine hpeers.of_cons fun hdelivers => hne ?_
        rw [← hverdict, PeerVerdict.ofReply_of_delivers hv hc hdelivers]
      rcases PeerVerdict.ofReply_of_honest hv hc (hpeers.honest peer List.mem_cons_self) with
        hserving | hmissing | hfailing
      · rw [hserving] at hrest
        obtain ⟨t₁, rfl, h₁⟩ := Work.yields_record_bind_iff.mp hrest
        obtain ⟨answer, t₂, rfl, h₂⟩ := yields_ask_iff.mp h₁
        obtain rfl : answer = .accepted := hcalm₁ _ (List.mem_cons_of_mem _ List.mem_cons_self)
        obtain ⟨rfl, rfl⟩ := yields_done_iff.mp h₂
        exact ⟨rfl, rfl⟩
      · rw [hmissing] at hrest
        obtain ⟨t₁, rfl, h₁⟩ := Work.yields_record_bind_iff.mp hrest
        obtain ⟨hfound, hone⟩ := ih (hothers hmissing nofun) (List.forall_mem_cons.mp hcalm₁).2 h₁
        exact ⟨hfound, hone⟩
      · rw [hfailing] at hrest
        obtain ⟨t₁, rfl, h₁⟩ := Work.yields_record_bind_iff.mp hrest
        obtain ⟨hfound, hone⟩ := ih (hothers hfailing nofun) (List.forall_mem_cons.mp hcalm₁).2 h₁
        exact ⟨hfound, hone⟩

theorem submitted_of_yields_fetch {timeout : UInt64} (hv : Vaa.parse message = .ok v)
    (hc : v.coordinate = c) (hpeers : CanServe network peers c message)
    (hcalm : ∀ x ∈ t, IsCalm network x) (h : Yields (fetch timeout peers c).run t result) :
    result = .ok true ∧ t.flatMap submitted = [message] := by
  obtain ⟨order, t₁, rfl, h₁⟩ := yields_ask_iff.mp h
  obtain ⟨start, t₂, rfl, h₂⟩ := yields_ask_iff.mp h₁
  have hcalm₂ := (List.forall_mem_cons.mp (List.forall_mem_cons.mp hcalm).2).2
  -- in whatever order the peers are asked
  obtain ⟨hfound, hone⟩ :=
    submitted_of_yields_tryPeers hv hc (hpeers.perm order.property) hcalm₂ h₂
  exact ⟨hfound, hone⟩

/-- Honest peers can be asked for what one of them serves. -/
theorem exists_yields_fetch (timeout : UInt64) (a : Archive) (hv : Vaa.parse message = .ok v)
    (hc : v.coordinate = c) (hpeers : CanServe network peers c message) :
    ∃ t, Yields (fetch timeout peers c).run t (.ok true) ∧
      (∀ x ∈ t, IsCalm network x) ∧ t.flatMap submitted = [message] ∧
      Served (fun _ => False) a t a := by
  let others := Site.calmly network
  have hcalm := Site.isCalm_of_mem_transcript network (fetch timeout peers c).run a
  have hfetch := yields_transcript (Site.serve others) (fetch timeout peers c).run a
  obtain ⟨hfound, hone⟩ := submitted_of_yields_fetch hv hc hpeers hcalm hfetch
  rw [hfound] at hfetch
  have hserved := @Site.served_transcript (fun _ => False) _ others
    (fetch timeout peers c).run a
  have hreads := fun x hx =>
    (hfetch.onlyAsks (leavesStorage_fetch timeout peers c) x hx).onlyReads
  rw [(hserved.of_onlyReads hreads).1] at hserved
  exact ⟨_, hfetch, hcalm, hone, hserved⟩

end Backfill

/-- What stays inside submits nothing. -/
theorem submitted_of_staysInside {e : Exchange Surroundings} (h : e.query.StaysInside) :
    submitted e = [] := by
  obtain ⟨query, answer⟩ := e
  cases query with
  | submit message => exact h.elim
  | store | now | peerOrder | fetch | announce | pause | isCancelled | nonce | record => rfl

theorem flatMap_submitted_of_staysInside {t : Transcript Surroundings}
    (h : ∀ e ∈ t, e.query.StaysInside) : t.flatMap submitted = [] :=
  List.flatMap_eq_nil_iff.mpr fun e he => submitted_of_staysInside (h e he)

end BridgeGuardian
