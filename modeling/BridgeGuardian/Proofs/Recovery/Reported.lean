import BridgeGuardian.Proofs.Coordinate
import BridgeGuardian.Proofs.Recovery.Submitted
import BridgeGuardian.Proofs.Recovery.Turns

/-! # Reports — what is listed, what is submitted, and whom it stops at

    A request for missing messages reads the gaps once and then asks peers
    for one after the other, in ascending order.  So its transcript is cut
    into one piece for each gap, and every piece accounts for itself: it
    submits the message or leaves its number to be listed, or it fails.  The
    first failure is the last piece; what the pieces in front of it have
    submitted stays submitted. -/

namespace BridgeGuardian

open Program

/-! ## Which message is asked for -/

/-- A query that is a request to a peer is one for a certain message. -/
def Surroundings.Query.IsAbout (c : Coordinate) : Surroundings.Query → Prop
  | .fetch url _ => ∃ peer, url = Backfill.address peer c
  | _ => True

/-- Peers are asked for the one message only. -/
theorem Backfill.onlyAsks_isAbout (timeout : UInt64) (peers : List String) (c : Coordinate) :
    (fetch timeout peers c).run.OnlyAsks (Surroundings.Query.IsAbout c) :=
  onlyAsks_fetch (fun _ => trivial) trivial (fun peer _ => ⟨peer, rfl⟩) (fun _ => trivial)
    (fun _ => trivial) timeout peers

/-- Some peer is asked for a message. -/
def AsksFor (t : Transcript Surroundings) (c : Coordinate) : Prop :=
  ∃ peer deadline reply, ⟨.fetch (Backfill.address peer c) deadline, reply⟩ ∈ t

/-- Nobody withdraws the request. -/
def GoesOn : Exchange Surroundings → Prop
  | ⟨.fetch _ _, reply⟩ => ¬ IsWithdrawn reply
  | ⟨.submit _, answer⟩ => answer ≠ .cancelled
  | _ => True

theorem exists_mem_of_replied {t : Transcript Surroundings} {reply : NetworkReply}
    (h : reply ∈ t.flatMap replied) : ∃ url deadline, ⟨.fetch url deadline, reply⟩ ∈ t := by
  obtain ⟨⟨query, answer⟩, hmem, hin⟩ := List.mem_flatMap.mp h
  cases query with
  | fetch url deadline =>
      obtain rfl := List.mem_singleton.mp hin
      exact ⟨url, deadline, hmem⟩
  | store | now | peerOrder | submit | announce | pause | isCancelled | nonce | record =>
      exact absurd hin List.not_mem_nil

theorem mem_of_offered {t : Transcript Surroundings} {offer : Bytes × Submission}
    (h : offer ∈ t.flatMap offered) : ⟨.submit offer.1, offer.2⟩ ∈ t := by
  obtain ⟨⟨query, answer⟩, hmem, hin⟩ := List.mem_flatMap.mp h
  cases query with
  | submit message =>
      obtain rfl := List.mem_singleton.mp hin
      exact hmem
  | store | now | peerOrder | fetch | announce | pause | isCancelled | nonce | record =>
      exact absurd hin List.not_mem_nil

/-- The message that octets carry, if they are one. -/
def carried? (message : Bytes) : Option Coordinate :=
  (Vaa.parse message).toOption.map Vaa.coordinate

namespace Recovery

/-! ## One gap at a time -/

/-- A piece of a request: the number of a message, what passed while peers
    were asked for it, and what came of that. -/
structure Asking where
  sequence : UInt64
  talk : Transcript Surroundings
  outcome : Except Failure Bool

namespace Asking

/-- Peers were asked for the message of an emitter. -/
def IsOf (timeout : UInt64) (peers : List String) (e : Emitter) (x : Asking) : Prop :=
  Yields (Backfill.fetch timeout peers ⟨e, x.sequence⟩).run x.talk x.outcome

/-- The message was found and submitted. -/
def isFilled (x : Asking) : Bool :=
  match x.outcome with
  | .ok found => found
  | .error _ => false

/-- Nothing failed. -/
def Succeeds (x : Asking) : Prop := ∃ found, x.outcome = .ok found

/-- Some peer served the message. -/
def IsServed (e : Emitter) (x : Asking) : Prop :=
  ∃ reply ∈ x.talk.flatMap replied, ∃ message, IsServing ⟨e, x.sequence⟩ message reply

variable {timeout : UInt64} {peers : List String} {e : Emitter} {x : Asking}

theorem isFilled_iff : x.isFilled = true ↔ x.outcome = .ok true := by
  unfold isFilled
  cases x.outcome with
  | ok found => exact ⟨congrArg _, Except.ok.inj⟩
  | error failure => exact iff_of_false Bool.false_ne_true nofun

theorem Succeeds.outcome_eq (h : x.Succeeds) : x.outcome = .ok x.isFilled := by
  obtain ⟨found, hfound⟩ := h
  rw [isFilled, hfound]

/-- Where nothing fails, the message is found exactly if a peer serves it. -/
theorem IsOf.isFilled_iff_isServed (h : x.IsOf timeout peers e) (hx : x.Succeeds) :
    x.isFilled = true ↔ x.IsServed e := by
  have hconcludes := Backfill.concludes_fetch h
  rw [hx.outcome_eq] at hconcludes
  rw [hconcludes.found_iff]
  constructor
  · rintro ⟨reply, hreply, message, hserving⟩
    exact ⟨reply, hreply, message, PeerVerdict.isServing_of_ofReply hserving⟩
  · rintro ⟨reply, hreply, message, hserving⟩
    exact ⟨reply, hreply, message, PeerVerdict.ofReply_of_isServing hserving⟩

/-- What a piece submits is the message asked for, if it is found. -/
theorem IsOf.carried (h : x.IsOf timeout peers e) :
    (x.talk.flatMap submitted).map carried?
      = if x.isFilled then [some ⟨e, x.sequence⟩] else [] := by
  rcases Backfill.accounts_fetch h with ⟨hfound, message, v, hone, hparse, hc⟩ | ⟨hnot, hnone⟩
  · have hcarried : carried? message = some ⟨e, x.sequence⟩ := by
      rw [carried?, hparse, ← hc]
      rfl
    rw [hone, isFilled_iff.mpr hfound, if_pos rfl, List.map_singleton, hcarried]
  · rw [hnone, if_neg fun hfilled => hnot (isFilled_iff.mp hfilled)]
    rfl

/-- The pieces that find their message submit it, in their order. -/
theorem carried_flatMap {askings : List Asking} (h : ∀ x ∈ askings, x.IsOf timeout peers e) :
    ((askings.flatMap talk).flatMap submitted).map carried?
      = ((askings.filter isFilled).map sequence).map fun n => some ⟨e, n⟩ := by
  induction askings with
  | nil => rfl
  | cons x askings ih =>
      obtain ⟨hx, hrest⟩ := List.forall_mem_cons.mp h
      rw [List.flatMap_cons, List.flatMap_append, List.map_append, ih hrest, hx.carried]
      cases hfilled : x.isFilled with
      | true =>
          rw [List.filter_cons_of_pos hfilled]
          rfl
      | false =>
          rw [List.filter_cons_of_neg (ne_true_of_eq_false hfilled)]
          rfl

/-- A request to a peer belongs to a piece about the message it is for. -/
theorem exists_of_asksFor {askings : List Asking} {n : UInt64}
    (h : ∀ x ∈ askings, x.IsOf timeout peers e)
    (hasks : AsksFor (askings.flatMap talk) ⟨e, n⟩) : ∃ x ∈ askings, x.sequence = n := by
  obtain ⟨peer, deadline, reply, hmem⟩ := hasks
  obtain ⟨x, hx, hin⟩ := List.mem_flatMap.mp hmem
  obtain ⟨neighbour, haddress⟩ := (h x hx).onlyAsks (Backfill.onlyAsks_isAbout _ _ _) _ hin
  exact ⟨x, hx, (congrArg Coordinate.sequence (Backfill.address_inj.mp haddress).2).symm⟩

/-- A request that nobody withdraws is not cancelled. -/
theorem IsOf.ne_cancelled (h : x.IsOf timeout peers e) (hgoing : ∀ y ∈ x.talk, GoesOn y) :
    x.outcome ≠ .error .cancelled := by
  refine (Backfill.concludes_fetch h).ne_cancelled ?_ ?_
  · intro reply hreply
    obtain ⟨url, deadline, hmem⟩ := exists_mem_of_replied hreply
    exact PeerVerdict.ofReply_ne_cancelled (hgoing _ hmem)
  · intro offer hoffer
    exact hgoing _ (mem_of_offered hoffer)

end Asking

theorem yields_bind_pure {α β : Type} {x : Work α} {g : α → β} {result : Except Failure α}
    (h : Yields x.run t result) :
    Yields (x >>= fun value => pure (g value)).run t (result.map g) := by
  cases result with
  | error fault => exact yields_bindExcept_iff.mpr (.inl ⟨fault, h, rfl⟩)
  | ok value =>
      exact yields_bindExcept_iff.mpr
        (.inr ⟨value, t, [], (List.append_nil t).symm, h, .done _⟩)

/-- What can come of asking peers for messages in turn. -/
inductive Fills (timeout : UInt64) (peers : List String) (e : Emitter) (gaps : List UInt64) :
    List Asking → Except Failure (List UInt64) → Prop
  /-- They are asked for each, and what is not found is left. -/
  | finished {askings : List Asking} (hof : ∀ x ∈ askings, x.IsOf timeout peers e)
      (hgaps : askings.map Asking.sequence = gaps) (hsucceed : ∀ x ∈ askings, x.Succeeds) :
      Fills timeout peers e gaps askings
        (.ok ((askings.filter fun x => !x.isFilled).map Asking.sequence))
  /-- They are asked until something fails. -/
  | broken {askings : List Asking} {failed : Asking} {others : List UInt64} {fault : Failure}
      (hof : ∀ x ∈ askings, x.IsOf timeout peers e) (hfailed : failed.IsOf timeout peers e)
      (hgaps : askings.map Asking.sequence ++ failed.sequence :: others = gaps)
      (hsucceed : ∀ x ∈ askings, x.Succeeds) (hfault : failed.outcome = .error fault) :
      Fills timeout peers e gaps (askings ++ [failed]) (.error (fillGaps.failToFill fault))

section

variable {peers : List String} {e : Emitter} {gaps : List UInt64}

/-- A piece goes in front of the others, and leaves its number if the message
    is not found. -/
theorem Fills.cons {n : UInt64} {talk : Transcript Surroundings} {found : Bool}
    {askings : List Asking} {outcome : Except Failure (List UInt64)}
    (hx : Yields (Backfill.fetch timeout peers ⟨e, n⟩).run talk (.ok found))
    (h : Fills timeout peers e gaps askings outcome) :
    Fills timeout peers e (n :: gaps) (⟨n, talk, .ok found⟩ :: askings)
      (outcome.map fun others => if found then others else n :: others) := by
  have hpiece : Asking.IsOf timeout peers e ⟨n, talk, .ok found⟩ := hx
  have hsucceeds : Asking.Succeeds ⟨n, talk, .ok found⟩ := ⟨found, rfl⟩
  cases h with
  | @finished askings hof hgaps hsucceed =>
      have hleft : (((⟨n, talk, .ok found⟩ :: askings : List Asking).filter
            fun x => !x.isFilled).map Asking.sequence)
          = if found then (askings.filter fun x => !x.isFilled).map Asking.sequence
            else n :: (askings.filter fun x => !x.isFilled).map Asking.sequence := by
        cases found <;> rfl
      have hall := Fills.finished (List.forall_mem_cons.mpr ⟨hpiece, hof⟩)
        (congrArg (n :: ·) hgaps) (List.forall_mem_cons.mpr ⟨hsucceeds, hsucceed⟩)
      rw [hleft] at hall
      exact hall
  | broken hof hfailed hgaps hsucceed hfault =>
      exact .broken (List.forall_mem_cons.mpr ⟨hpiece, hof⟩) hfailed (congrArg (n :: ·) hgaps)
        (List.forall_mem_cons.mpr ⟨hsucceeds, hsucceed⟩) hfault

/-- The transcript of filling gaps is that of its pieces. -/
theorem fills_of_yields {outcome : Except Failure (List UInt64)}
    (h : Yields (fillGaps timeout peers e gaps).run t outcome) :
    ∃ askings : List Asking, t = askings.flatMap Asking.talk ∧
      Fills timeout peers e gaps askings outcome := by
  induction gaps generalizing t outcome with
  | nil =>
      obtain ⟨rfl, rfl⟩ := yields_done_iff.mp h
      exact ⟨[], rfl, .finished (List.forall_mem_nil _) rfl (List.forall_mem_nil _)⟩
  | cons n gaps ih =>
      rcases yields_bindExcept_iff.mp h with ⟨fault, h₁, rfl⟩ | ⟨found, t₁, t₂, rfl, h₁, h₂⟩
      · -- this piece fails, and there is none behind it
        obtain ⟨outcome, h₃, houtcome⟩ := yields_adapt_iff.mp h₁
        obtain ⟨fault, rfl, rfl⟩ := mapError_eq_error_iff.mp houtcome.symm
        have hnone : ∀ x ∈ ([] : List Asking), x.IsOf timeout peers e := List.forall_mem_nil _
        refine ⟨[⟨n, t, .error fault⟩], (List.append_nil t).symm, ?_⟩
        exact .broken hnone h₃ rfl (List.forall_mem_nil _) rfl
      · have hpiece := yields_adapt_ok_iff.mp h₁
        rcases yields_bindExcept_iff.mp h₂ with ⟨fault, h₃, rfl⟩ | ⟨others, t₃, t₄, rfl, h₃, h₄⟩
        · obtain ⟨askings, rfl, hfills⟩ := ih h₃
          exact ⟨_, rfl, hfills.cons hpiece⟩
        · obtain ⟨rfl, rfl⟩ := yields_done_iff.mp h₄
          obtain ⟨askings, rfl, hfills⟩ := ih h₃
          exact ⟨_, by rw [List.append_nil]; rfl, hfills.cons hpiece⟩

end

/-! ## The gaps of an emitter -/

/-- A number that is missing between stored ones. -/
def IsGap (a : Archive) (e : Emitter) (n : UInt64) : Prop :=
  ¬ a.Keeps ⟨e, n⟩ ∧ (∃ low, a.Keeps ⟨e, low⟩ ∧ low < n) ∧ ∃ high, a.Keeps ⟨e, high⟩ ∧ n < high

theorem mem_missing_gaps_iff {a : Archive} {e : Emitter} {n : UInt64} :
    n ∈ (a.gaps e).missing ↔ IsGap a e n := by
  have hsorted := (GapReport.pairwise_ascending (a.sequences e)).imp UInt64.le_of_lt
  rw [Archive.gaps, GapReport.missing_ofSequences, GapReport.mem_betweenNeighbours_iff hsorted]
  simp only [GapReport.mem_ascending, Archive.mem_sequences_iff]
  rfl

theorem pairwise_missing_gaps (a : Archive) (e : Emitter) :
    (a.gaps e).missing.Pairwise (· < ·) :=
  GapReport.pairwise_missing_ofSequences (a.sequences e)

theorem gaps_eq_none {a : Archive} {e : Emitter} (h : ∀ n, ¬ a.Keeps ⟨e, n⟩) :
    a.gaps e = .none := by
  have hempty : a.sequences e = [] :=
    List.eq_nil_iff_forall_not_mem.mpr fun n hn => h n (Archive.mem_sequences_iff.mp hn)
  rw [Archive.gaps, hempty, GapReport.ofSequences_nil]

theorem describes_gaps {a : Archive} {e : Emitter} (h : ∃ n, a.Keeps ⟨e, n⟩) :
    (a.gaps e).Describes (a.sequences e) := by
  obtain ⟨n, hn⟩ := h
  exact GapReport.describes_ofSequences (List.ne_nil_of_mem (Archive.mem_sequences_iff.mpr hn))

/-- The gaps lie strictly between the ends. -/
theorem isGap_iff {a : Archive} {e : Emitter} {n : UInt64} :
    IsGap a e n ↔ (a.gaps e).first < n ∧ n < (a.gaps e).last ∧ ¬ a.Keeps ⟨e, n⟩ := by
  by_cases hsome : ∃ n, a.Keeps ⟨e, n⟩
  · rw [← mem_missing_gaps_iff, (describes_gaps hsome).mem_missing_iff, Archive.mem_sequences_iff]
    exact and_rotate
  · have hnothing : ∀ n, ¬ a.Keeps ⟨e, n⟩ := fun n hn => hsome ⟨n, hn⟩
    rw [gaps_eq_none hnothing]
    refine iff_of_false (fun ⟨_, ⟨low, hlow, _⟩, _⟩ => hnothing low hlow) ?_
    rintro ⟨-, hlow, -⟩
    exact absurd hlow UInt64.not_lt_zero

section

variable {request : MissingRequest} {a : Archive} {e : Emitter}
  {result : Except Failure MissingReport}

/-- A report with numbers of an emitter listed. -/
def reportOf (a : Archive) (e : Emitter) (listed : List UInt64) : MissingReport :=
  ⟨listed.map fun n => ⟨e, n⟩, (a.gaps e).first, (a.gaps e).last⟩

/-- The gaps are read first.  Then all of them are listed, or peers are asked
    for them. -/
theorem findMissing_pieces
    (he : Emitter.ofRequest request.emitterChain request.emitterAddress = .ok e)
    (hgaps : ∀ e answer, ⟨.store (.gaps e), answer⟩ ∈ t → answer = .ok (a.gaps e))
    (h : Yields (findMissing timeout request).run t result) :
    ∃ (askings : List Asking) (outcome : Except Failure (List UInt64)),
      t = ⟨.store (.gaps e), .ok (a.gaps e)⟩ :: askings.flatMap Asking.talk ∧
      result = outcome.map (reportOf a e) ∧
      (((request.asksPeers = false ∨ (a.gaps e).missing = []) ∧ askings = [] ∧
          outcome = .ok (a.gaps e).missing) ∨
        (request.asksPeers = true ∧
          Fills timeout request.peers e (a.gaps e).missing askings outcome)) := by
  rcases yields_bindExcept_iff.mp h with ⟨fault, h₁, -⟩ | ⟨e', t₁, t₂, rfl, h₁, h₂⟩
  · -- the request names an emitter
    rw [he] at h₁
    cases (Work.yields_ofExcept_iff.mp h₁).2
  obtain ⟨rfl, he'⟩ := Work.yields_ofExcept_iff.mp h₁
  obtain rfl : e = e' := Except.ok.inj (he.symm.trans he'.symm)
  rcases yields_bindExcept_iff.mp h₂ with ⟨fault, h₃, -⟩ | ⟨gaps, t₃, t₄, rfl, h₃, h₄⟩
  · -- storage answers
    obtain ⟨answer, rfl, hfault⟩ := Work.yields_store_iff.mp h₃
    obtain rfl := hgaps e answer (List.mem_singleton_self _)
    cases hfault
  obtain rfl := Work.yields_store_ok_iff.mp h₃
  obtain rfl : gaps = a.gaps e := Except.ok.inj (hgaps e _ List.mem_cons_self)
  by_cases hask : (request.asksPeers && !(a.gaps e).missing.isEmpty) = true
  · rw [if_pos hask] at h₄
    have hasks : request.asksPeers = true := (Bool.and_eq_true_iff.mp hask).1
    rcases yields_bindExcept_iff.mp h₄ with ⟨fault, h₅, rfl⟩ | ⟨others, t₅, t₆, rfl, h₅, h₆⟩
    · obtain ⟨askings, rfl, hfills⟩ := fills_of_yields h₅
      exact ⟨askings, _, rfl, rfl, .inr ⟨hasks, hfills⟩⟩
    · obtain ⟨rfl, rfl⟩ := yields_done_iff.mp h₆
      obtain ⟨askings, rfl, hfills⟩ := fills_of_yields h₅
      exact ⟨askings, _, by rw [List.append_nil]; rfl, rfl, .inr ⟨hasks, hfills⟩⟩
  · rw [if_neg hask] at h₄
    obtain ⟨rfl, rfl⟩ := yields_done_iff.mp h₄
    refine ⟨[], _, rfl, rfl, .inl ⟨?_, rfl, rfl⟩⟩
    simpa [← Bool.not_eq_true, Decidable.imp_iff_not_or] using hask

end

/-! ## What is answered -/

theorem failToFill_of_ne_cancelled {fault : Failure} (h : fault ≠ .cancelled) :
    fillGaps.failToFill fault = .internal s!"failed to backfill VAA: {fault.message}" := by
  cases fault with
  | cancelled => exact absurd rfl h
  | invalid | undecodable | notFound | transport | violation | internal | conflict | expired
  | unrecoverable => rfl

/-- An emitter has the chain number that a request names. -/
theorem chain_of_ofRequest {request : MissingRequest} {e : Emitter}
    (he : Emitter.ofRequest request.emitterChain request.emitterAddress = .ok e) :
    e.chain.id.toNat = request.emitterChain.toNat :=
  (Emitter.ofRequest_eq_ok_iff.mp he).1

/-- Where pieces are about different messages, one is told by its number. -/
theorem sequence_mem_filter_iff {askings : List Asking} {x : Asking} {p : Asking → Bool}
    (hdistinct : (askings.map Asking.sequence).Nodup) (hx : x ∈ askings) :
    x.sequence ∈ (askings.filter p).map Asking.sequence ↔ p x = true := by
  constructor
  · intro hmem
    obtain ⟨y, hy, hsame⟩ := List.mem_map.mp hmem
    obtain ⟨hy, hp⟩ := List.mem_filter.mp hy
    obtain rfl := List.inj_on_of_nodup_map hdistinct hy hx hsame
    exact hp
  · exact fun hp => List.mem_map.mpr ⟨x, List.mem_filter.mpr ⟨hx, hp⟩, rfl⟩

/-- Where nothing fails, the messages that are found are those that a peer
    serves. -/
theorem mem_filled_iff {peers : List String} {e : Emitter} {askings : List Asking} {n : UInt64}
    (hof : ∀ x ∈ askings, x.IsOf timeout peers e) (hsucceed : ∀ x ∈ askings, x.Succeeds) :
    n ∈ (askings.filter Asking.isFilled).map Asking.sequence ↔
      ∃ x ∈ askings, x.sequence = n ∧ x.IsServed e := by
  constructor
  · intro hn
    obtain ⟨x, hx, rfl⟩ := List.mem_map.mp hn
    obtain ⟨hx, hfilled⟩ := List.mem_filter.mp hx
    exact ⟨x, hx, rfl, ((hof x hx).isFilled_iff_isServed (hsucceed x hx)).mp hfilled⟩
  · rintro ⟨x, hx, rfl, hserved⟩
    have hfilled := ((hof x hx).isFilled_iff_isServed (hsucceed x hx)).mpr hserved
    exact List.mem_map.mpr ⟨x, List.mem_filter.mpr ⟨hx, hfilled⟩, rfl⟩

/-- What the answer to a request says. -/
structure Answers (a : Archive) (request : MissingRequest) (e : Emitter) (askings : List Asking)
    (t : Transcript Surroundings) (report : MissingReport) : Prop where
  /-- Nothing failed while peers were asked. -/
  succeed : ∀ x ∈ askings, x.Succeeds
  /-- The ends are zero if nothing is stored, … -/
  nothing : (∀ n, ¬ a.Keeps ⟨e, n⟩) → report.first = 0 ∧ report.last = 0
  /-- … and otherwise the least and the greatest stored number. -/
  ends : (∃ n, a.Keeps ⟨e, n⟩) → a.Keeps ⟨e, report.first⟩ ∧ a.Keeps ⟨e, report.last⟩ ∧
    ∀ n, a.Keeps ⟨e, n⟩ → report.first ≤ n ∧ n ≤ report.last
  /-- The gaps are what lies strictly between them and is not stored. -/
  between : ∀ n, IsGap a e n ↔ report.first < n ∧ n < report.last ∧ ¬ a.Keeps ⟨e, n⟩
  /-- Listed in ascending order … -/
  ascending : report.missing.Pairwise fun c d => c.sequence < d.sequence
  /-- … are the gaps that peers were not asked for or did not have, … -/
  listed : ∀ c, c ∈ report.missing ↔ c.emitter = e ∧ IsGap a e c.sequence ∧
    (request.asksPeers = false ∨ ∃ x ∈ askings, x.sequence = c.sequence ∧ x.outcome = .ok false)
  /-- … by chain, address and number. -/
  printed : report.toJson = .record
    [("missing_messages", .array (report.missing.map fun c => .text
        s!"{request.emitterChain.toNat}/{e.address.toHex}/{c.sequence.toNat}")),
      ("first_sequence", .nat report.first.toNat), ("last_sequence", .nat report.last.toNat)]
  /-- One message was submitted for each of the other gaps, in ascending
      order, … -/
  handedOver : ∃ others : List UInt64, others.Pairwise (· < ·) ∧
    (∀ n, n ∈ others ↔ IsGap a e n ∧ ⟨e, n⟩ ∉ report.missing) ∧
    (t.flatMap submitted).map carried? = others.map fun n => some ⟨e, n⟩
  /-- … and none for what is stored. -/
  unstored : ∀ n, a.Keeps ⟨e, n⟩ → some ⟨e, n⟩ ∉ (t.flatMap submitted).map carried?

/-- What is left behind by a request that fails at a gap. -/
structure StopsAt (a : Archive) (e : Emitter) (askings : List Asking)
    (t : Transcript Surroundings) (s : UInt64) : Prop where
  gap : IsGap a e s
  /-- Peers have been asked for the gaps below, and nothing failed. -/
  below : ∀ n, IsGap a e n → n < s → ∃ x ∈ askings, x.sequence = n ∧ x.Succeeds
  /-- Submitted were the messages that a peer served for gaps below, in
      ascending order. -/
  handedOver : ∃ served : List UInt64, served.Pairwise (· < ·) ∧
    (∀ n, n ∈ served ↔ IsGap a e n ∧ n < s ∧ ∃ x ∈ askings, x.sequence = n ∧ x.IsServed e) ∧
    (t.flatMap submitted).map carried? = served.map fun n => some ⟨e, n⟩
  /-- No peer is asked for anything above. -/
  above : ∀ n, s < n → ¬ AsksFor t ⟨e, n⟩

section

variable {request : MissingRequest} {a : Archive} {e : Emitter}

/-- A report on what is left of the gaps. -/
theorem answers_of_left {askings : List Asking} {left others : List UInt64}
    (hchain : e.chain.id.toNat = request.emitterChain.toNat)
    (hsucceed : ∀ x ∈ askings, x.Succeeds) (hascending : left.Pairwise (· < ·))
    (hleft : ∀ n, n ∈ left ↔ IsGap a e n ∧
      (request.asksPeers = false ∨ ∃ x ∈ askings, x.sequence = n ∧ x.outcome = .ok false))
    (hothers : others.Pairwise (· < ·))
    (hmem : ∀ n, n ∈ others ↔ IsGap a e n ∧ n ∉ left)
    (hhanded : (t.flatMap submitted).map carried? = others.map fun n => some ⟨e, n⟩) :
    Answers a request e askings t (reportOf a e left) := by
  have hlisted : ∀ c : Coordinate, c ∈ (reportOf a e left).missing ↔
      c.emitter = e ∧ c.sequence ∈ left := by
    intro c
    constructor
    · intro hc
      obtain ⟨n, hn, rfl⟩ := List.mem_map.mp hc
      exact ⟨rfl, hn⟩
    · rintro ⟨rfl, hn⟩
      exact List.mem_map.mpr ⟨c.sequence, hn, rfl⟩
  refine ⟨hsucceed, ?_, ?_, fun n => isGap_iff, ?_, ?_, ?_, ⟨others, hothers, ?_, hhanded⟩, ?_⟩
  · intro hnothing
    show (a.gaps e).first = 0 ∧ (a.gaps e).last = 0
    rw [gaps_eq_none hnothing]
    exact ⟨rfl, rfl⟩
  · intro hsome
    have hd := describes_gaps hsome
    simp only [← Archive.mem_sequences_iff]
    exact ⟨hd.first_mem, hd.last_mem, fun n hn => ⟨hd.first_le n hn, hd.le_last n hn⟩⟩
  · exact List.pairwise_map.mpr hascending
  · intro c
    rw [hlisted, hleft]
  · have htexts : (reportOf a e left).missing.map (fun c => Json.text c.path)
        = (reportOf a e left).missing.map fun c => Json.text
          s!"{request.emitterChain.toNat}/{e.address.toHex}/{c.sequence.toNat}" := by
      refine List.map_congr_left fun c hc => ?_
      obtain ⟨rfl, -⟩ := (hlisted c).mp hc
      rw [← hchain]
      rfl
    rw [MissingReport.toJson, htexts]
  · intro n
    have hnot : ⟨e, n⟩ ∈ (reportOf a e left).missing ↔ n ∈ left :=
      (hlisted ⟨e, n⟩).trans (and_iff_right rfl)
    rw [hmem, hnot]
  · intro n hkept hin
    rw [hhanded] at hin
    obtain ⟨m, hm, hsame⟩ := List.mem_map.mp hin
    cases hsame
    exact ((hmem n).mp hm).1.1 hkept

/-- Peers are not asked: everything is listed, and nothing submitted. -/
theorem answers_of_unasked (hchain : e.chain.id.toNat = request.emitterChain.toNat)
    (hnot : request.asksPeers = false ∨ (a.gaps e).missing = [])
    (hnothing : t.flatMap submitted = []) :
    Answers a request e [] t (reportOf a e (a.gaps e).missing) := by
  refine answers_of_left hchain (List.forall_mem_nil _) (pairwise_missing_gaps a e) ?_ .nil ?_
    (by rw [hnothing]; rfl)
  · intro n
    rw [← mem_missing_gaps_iff]
    refine ⟨fun hn => ⟨hn, .inl ?_⟩, fun h => h.1⟩
    exact hnot.resolve_right (List.ne_nil_of_mem hn)
  · intro n
    rw [mem_missing_gaps_iff]
    exact iff_of_false List.not_mem_nil fun h => h.2 h.1

/-- Peers are asked for every gap. -/
theorem answers_of_finished {askings : List Asking}
    (hchain : e.chain.id.toNat = request.emitterChain.toNat) (hasks : request.asksPeers = true)
    (hgaps : askings.map Asking.sequence = (a.gaps e).missing)
    (hsucceed : ∀ x ∈ askings, x.Succeeds)
    (hhanded : (t.flatMap submitted).map carried?
      = ((askings.filter Asking.isFilled).map Asking.sequence).map fun n => some ⟨e, n⟩) :
    Answers a request e askings t
      (reportOf a e ((askings.filter fun x => !x.isFilled).map Asking.sequence)) := by
  have hsorted : (askings.map Asking.sequence).Pairwise (· < ·) :=
    hgaps ▸ pairwise_missing_gaps a e
  have hdistinct : (askings.map Asking.sequence).Nodup := hsorted.imp fun h => UInt64.ne_of_lt h
  have hgap : ∀ n, IsGap a e n ↔ ∃ x ∈ askings, x.sequence = n := by
    intro n
    rw [← mem_missing_gaps_iff, ← hgaps, List.mem_map]
  refine answers_of_left hchain hsucceed (hsorted.sublist (List.filter_sublist.map _)) ?_
    (hsorted.sublist (List.filter_sublist.map _)) ?_ hhanded
  · intro n
    rw [hgap]
    constructor
    · intro hn
      obtain ⟨x, hx, rfl⟩ := List.mem_map.mp hn
      obtain ⟨hx, hunfilled⟩ := List.mem_filter.mp hx
      have hfalse : x.outcome = .ok false := by
        rw [(hsucceed x hx).outcome_eq, (Bool.not_eq_true' _).mp hunfilled]
      exact ⟨⟨x, hx, rfl⟩, .inr ⟨x, hx, rfl, hfalse⟩⟩
    · rintro ⟨-, hnot⟩
      obtain ⟨x, hx, rfl, hfalse⟩ := hnot.resolve_left (ne_false_of_eq_true hasks)
      refine (sequence_mem_filter_iff hdistinct hx).mpr ?_
      rw [Asking.isFilled, hfalse]
      rfl
  · intro n
    rw [hgap]
    constructor
    · intro hn
      obtain ⟨x, hx, rfl⟩ := List.mem_map.mp hn
      obtain ⟨hx, hfilled⟩ := List.mem_filter.mp hx
      refine ⟨⟨x, hx, rfl⟩, fun hleft => ?_⟩
      have hunfilled := (sequence_mem_filter_iff hdistinct hx).mp hleft
      rw [hfilled] at hunfilled
      cases hunfilled
    · rintro ⟨⟨x, hx, rfl⟩, hleft⟩
      refine (sequence_mem_filter_iff hdistinct hx).mpr ?_
      cases hfilled : x.isFilled with
      | true => rfl
      | false =>
          refine absurd ((sequence_mem_filter_iff hdistinct hx).mpr ?_) hleft
          rw [hfilled]
          rfl

/-- Peers are asked until something fails. -/
theorem stopsAt_of_broken {peers : List String} {askings : List Asking} {failed : Asking}
    {others : List UInt64} {fault : Failure} (hof : ∀ x ∈ askings, x.IsOf timeout peers e)
    (hfailed : failed.IsOf timeout peers e)
    (hgaps : askings.map Asking.sequence ++ failed.sequence :: others = (a.gaps e).missing)
    (hsucceed : ∀ x ∈ askings, x.Succeeds) (hfault : failed.outcome = .error fault) :
    StopsAt a e (askings ++ [failed])
      (⟨.store (.gaps e), .ok (a.gaps e)⟩ :: (askings ++ [failed]).flatMap Asking.talk)
      failed.sequence := by
  have hsorted := pairwise_missing_gaps a e
  rw [← hgaps] at hsorted
  obtain ⟨hpieces, hbehind, hbetween⟩ := List.pairwise_append.mp hsorted
  have hall : ∀ x ∈ askings ++ [failed], x.IsOf timeout peers e :=
    List.forall_mem_append.mpr ⟨hof, List.forall_mem_singleton.mpr hfailed⟩
  have hgap : ∀ n, IsGap a e n ↔
      n ∈ askings.map Asking.sequence ∨ n = failed.sequence ∨ n ∈ others := by
    intro n
    rw [← mem_missing_gaps_iff, ← hgaps, List.mem_append, List.mem_cons]
  -- the pieces in front are those about smaller numbers
  have hbelow : ∀ x ∈ askings, x.sequence < failed.sequence := fun x hx =>
    hbetween _ (List.mem_map.mpr ⟨x, hx, rfl⟩) _ List.mem_cons_self
  have hfront : ∀ x ∈ askings ++ [failed], x.sequence < failed.sequence → x ∈ askings := by
    intro x hx hlt
    refine (List.mem_append.mp hx).resolve_right fun hx => ?_
    obtain rfl := List.mem_singleton.mp hx
    exact UInt64.lt_irrefl _ hlt
  refine ⟨(hgap _).mpr (.inr (.inl rfl)), ?_,
    ⟨(askings.filter Asking.isFilled).map Asking.sequence,
      hpieces.sublist (List.filter_sublist.map _), ?_, ?_⟩, ?_⟩
  · intro n hn hlt
    rcases (hgap n).mp hn with hin | rfl | hin
    · obtain ⟨x, hx, rfl⟩ := List.mem_map.mp hin
      exact ⟨x, List.mem_append_left _ hx, rfl, hsucceed x hx⟩
    · exact absurd hlt (UInt64.lt_irrefl _)
    · exact absurd hlt (UInt64.lt_asymm ((List.pairwise_cons.mp hbehind).1 n hin))
  · intro n
    rw [mem_filled_iff hof hsucceed]
    constructor
    · rintro ⟨x, hx, rfl, hserved⟩
      exact ⟨(hgap _).mpr (.inl (List.mem_map.mpr ⟨x, hx, rfl⟩)), hbelow x hx, x,
        List.mem_append_left _ hx, rfl, hserved⟩
    · rintro ⟨-, hlt, x, hx, rfl, hserved⟩
      exact ⟨x, hfront x hx hlt, rfl, hserved⟩
  · have hnone : [failed].filter Asking.isFilled = [] := by
      refine List.filter_cons_of_neg ?_
      rw [Asking.isFilled, hfault]
      exact Bool.false_ne_true
    show (((askings ++ [failed]).flatMap Asking.talk).flatMap submitted).map carried? = _
    rw [Asking.carried_flatMap hall, List.filter_append, hnone, List.append_nil]
  · rintro n hlt ⟨peer, deadline, reply, hmem⟩
    have hin := (List.mem_cons.mp hmem).resolve_left nofun
    obtain ⟨x, hx, rfl⟩ := Asking.exists_of_asksFor hall ⟨peer, deadline, reply, hin⟩
    rcases List.mem_append.mp hx with hx | hx
    · exact UInt64.lt_asymm hlt (hbelow x hx)
    · obtain rfl := List.mem_singleton.mp hx
      exact UInt64.lt_irrefl _ hlt

/-- **The answer to a request for missing messages is exact.**  If nobody
    withdraws it, the request is one look at storage and one piece for each
    gap that peers are asked for.  Where no piece fails there is a report:
    its ends are the least and the greatest stored number, every gap is
    listed or its message is submitted, in ascending order, and nothing else
    is.  Where a piece fails, the request fails as a whole; the gaps below
    are settled, and those above are not touched. -/
theorem missing_report_is_exact {result : Except Failure MissingReport}
    (he : Emitter.ofRequest request.emitterChain request.emitterAddress = .ok e)
    (hgaps : ∀ e answer, ⟨.store (.gaps e), answer⟩ ∈ t → answer = .ok (a.gaps e))
    (hgoing : ∀ y ∈ t, GoesOn y) (h : Yields (findMissing timeout request).run t result) :
    ∃ askings : List Asking,
      t = ⟨.store (.gaps e), .ok (a.gaps e)⟩ :: askings.flatMap Asking.talk ∧
      (∀ x ∈ askings, x.IsOf timeout request.peers e) ∧
      ((request.asksPeers = false ∨ ∀ n, ¬ IsGap a e n) →
        t = [⟨.store (.gaps e), .ok (a.gaps e)⟩]) ∧
      ((∀ x ∈ askings, x.Succeeds) → ∃ report, result = .ok report) ∧
      (∀ report, result = .ok report → Answers a request e askings t report) ∧
      ∀ x ∈ askings, ∀ fault, x.outcome = .error fault →
        result = .error (.internal s!"failed to backfill VAA: {fault.message}") ∧
        StopsAt a e askings t x.sequence := by
  have hchain := chain_of_ofRequest he
  obtain ⟨askings, outcome, rfl, rfl, ⟨hnot, rfl, rfl⟩ | ⟨hasks, hfills⟩⟩ :=
    findMissing_pieces he hgaps h
  · refine ⟨[], rfl, List.forall_mem_nil _, fun _ => rfl, fun _ => ⟨_, rfl⟩, ?_,
      List.forall_mem_nil _⟩
    rintro report hreport
    cases hreport
    exact answers_of_unasked hchain hnot rfl
  have hnoGap : (request.asksPeers = false ∨ ∀ n, ¬ IsGap a e n) → (a.gaps e).missing = [] := by
    intro h
    have hnone := h.resolve_left (ne_false_of_eq_true hasks)
    exact List.eq_nil_iff_forall_not_mem.mpr fun n hn => hnone n (mem_missing_gaps_iff.mp hn)
  cases hfills with
  | finished hof hsequences hsucceed =>
      refine ⟨askings, rfl, hof, ?_, fun _ => ⟨_, rfl⟩, ?_, ?_⟩
      · intro hnothing
        rw [hnoGap hnothing] at hsequences
        rw [List.map_eq_nil_iff.mp hsequences]
        rfl
      · intro report hreport
        cases hreport
        exact answers_of_finished hchain hasks hsequences hsucceed (Asking.carried_flatMap hof)
      · intro x hx fault hfault
        obtain ⟨found, hfound⟩ := hsucceed x hx
        rw [hfound] at hfault
        cases hfault
  | @broken askings failed others fault hof hfailed hsequences hsucceed hfault =>
      refine ⟨_, rfl, List.forall_mem_append.mpr ⟨hof, List.forall_mem_singleton.mpr hfailed⟩,
        ?_, ?_, nofun, ?_⟩
      · intro hnothing
        rw [hnoGap hnothing] at hsequences
        exact absurd hsequences (List.append_ne_nil_of_right_ne_nil _ (List.cons_ne_nil _ _))
      · intro hall
        obtain ⟨found, hfound⟩ := hall failed (List.mem_append_right _ (List.mem_singleton_self _))
        rw [hfault] at hfound
        cases hfound
      · intro x hx fault' hfault'
        rcases List.mem_append.mp hx with hx | hx
        · obtain ⟨found, hfound⟩ := hsucceed x hx
          rw [hfound] at hfault'
          cases hfault'
        · obtain rfl := List.mem_singleton.mp hx
          obtain rfl : fault = fault' := Except.error.inj (hfault.symm.trans hfault')
          refine ⟨?_, stopsAt_of_broken hof hfailed hsequences hsucceed hfault⟩
          -- nobody has withdrawn the request
          have hkept := hfailed.ne_cancelled fun y hy => hgoing y (List.mem_cons_of_mem _
            (List.mem_flatMap.mpr ⟨_, List.mem_append_right _ (List.mem_singleton_self _), hy⟩))
          rw [hfault] at hkept
          rw [failToFill_of_ne_cancelled fun heq => hkept (congrArg _ heq)]
          rfl

end

end Recovery

/-! ## Two gaps, and a peer that fills one -/

namespace Site

open Recovery

/-- Messages four and seven are stored. -/
def aroundTwoGaps : Archive :=
  (Archive.empty.storeVaa ⟨gappy, 4⟩ [0]).storeVaa ⟨gappy, 7⟩ [0]

theorem gaps_aroundTwoGaps : aroundTwoGaps.gaps gappy = ⟨[5, 6], 4, 7⟩ := by
  have hstored : aroundTwoGaps.sequences gappy = [4, 7] := by decide +kernel
  have hsorted : [4, 7].mergeSort (fun a b : UInt64 => a ≤ b) = [4, 7] :=
    List.mergeSort_of_pairwise (by decide)
  rw [Archive.gaps, hstored, GapReport.ofSequences, GapReport.ascending, hsorted]
  rfl

/-- The one peer is asked for message six, and does not serve it. -/
def declining (status : Nat) (outcome : BackfillOutcome) : Transcript Surroundings :=
  Backfill.onePeerAsked 1000 "peer" ⟨gappy, 6⟩ 0 (.ok ⟨status, .ok ""⟩) ++
    [⟨.record (.backfillAttempt gappy.chain outcome), ()⟩]

theorem yields_declining_absent :
    Yields (Backfill.fetch 1000 ["peer"] ⟨gappy, 6⟩).run (declining 404 .notFound)
      (.ok false) :=
  .ask (.ask (.ask (.ask (.done _))))

theorem yields_declining_faulty :
    Yields (Backfill.fetch 1000 ["peer"] ⟨gappy, 6⟩).run (declining 500 .protocolError)
      (.error (.violation "unexpected response status: 500")) :=
  .ask (.ask (.ask (.ask (.done _))))

/-- The peer serves message five, and then declines. -/
def twoGapsTalk (status : Nat) (outcome : BackfillOutcome) : Transcript Surroundings :=
  ⟨.store (.gaps gappy), .ok (aroundTwoGaps.gaps gappy)⟩ ::
    (offering .accepted ++ declining status outcome)

theorem gaps_of_mem_twoGapsTalk (status : Nat) (outcome : BackfillOutcome) (e : Emitter)
    (answer : Except StoreFault GapReport)
    (h : ⟨.store (.gaps e), answer⟩ ∈ twoGapsTalk status outcome) :
    answer = .ok (aroundTwoGaps.gaps e) := by
  rcases List.mem_cons.mp h with h | h
  · cases h
    rfl
  · simp only [offering, declining, Backfill.onePeerAsked, List.cons_append, List.nil_append,
      List.mem_cons, List.not_mem_nil, or_false] at h
    rcases h with h | h | h | h | h | h | h | h | h
    all_goals cases h

theorem goesOn_of_mem_twoGapsTalk (status : Nat) (outcome : BackfillOutcome) :
    ∀ y ∈ twoGapsTalk status outcome, GoesOn y := by
  have hgoing : ∀ status body, ¬ IsWithdrawn (.ok ⟨status, .ok body⟩) := by
    rintro status body (h | h)
    all_goals cases h
  simp only [twoGapsTalk, offering, declining, Backfill.onePeerAsked, List.cons_append,
    List.nil_append, List.forall_mem_cons]
  exact ⟨trivial, trivial, trivial, hgoing _ _, trivial, nofun, trivial, trivial, hgoing _ _,
    trivial, List.forall_mem_nil _⟩

/-- What comes of the request is what comes of asking for message six. -/
theorem yields_twoGapsTalk {status : Nat} {outcome : BackfillOutcome}
    {result : Except Failure (List UInt64)}
    (h : Yields (fillGaps 1000 ["peer"] gappy [6]).run (declining status outcome) result) :
    Yields (findMissing 1000 (askFor ["peer"])).run (twoGapsTalk status outcome)
      (result.map (reportOf aroundTwoGaps gappy)) := by
  refine yields_bindExcept_iff.mpr (.inr
    ⟨gappy, [], _, rfl, Work.yields_ofExcept_iff.mpr ⟨rfl, (ofRequest_askFor _).symm⟩, ?_⟩)
  refine yields_bindExcept_iff.mpr (.inr
    ⟨aroundTwoGaps.gaps gappy, [_], _, rfl, Work.yields_store_ok_iff.mpr rfl, ?_⟩)
  have hask : ((askFor ["peer"]).asksPeers && !(aroundTwoGaps.gaps gappy).missing.isEmpty)
      = true := by
    rw [gaps_aroundTwoGaps]
    rfl
  rw [if_pos hask]
  refine yields_bind_pure ?_
  show Yields (fillGaps 1000 ["peer"] gappy (aroundTwoGaps.gaps gappy).missing).run _ _
  rw [gaps_aroundTwoGaps]
  refine yields_bindExcept_iff.mpr (.inr
    ⟨true, _, _, rfl, yields_adapt_ok_iff.mpr (yields_offering .accepted), ?_⟩)
  -- message five is found, so its number is not left
  have hsame : result.map (fun others => if true then others else 5 :: others) = result := by
    cases result <;> rfl
  rw [← hsame]
  exact yields_bind_pure h

/-- The peer does not have message six. -/
theorem yields_absent :
    Yields (findMissing 1000 (askFor ["peer"])).run (twoGapsTalk 404 .notFound)
      (.ok (reportOf aroundTwoGaps gappy [6])) :=
  yields_twoGapsTalk (yields_bindExcept_iff.mpr (.inr ⟨false, _, [], (List.append_nil _).symm,
    yields_adapt_ok_iff.mpr yields_declining_absent, .done _⟩))

/-- The peer is out of order when it is asked for message six. -/
theorem yields_faulty :
    Yields (findMissing 1000 (askFor ["peer"])).run (twoGapsTalk 500 .protocolError)
      (.error (.internal
        "failed to backfill VAA: protocol violation: unexpected response status: 500")) :=
  yields_twoGapsTalk (yields_bindExcept_iff.mpr (.inl ⟨_,
    yields_adapt_iff.mpr ⟨_, yields_declining_faulty, rfl⟩, rfl⟩))

/-- One of two gaps is filled.  The other one is listed where the peer does
    not have its message, and is where the request stops if the peer is out
    of order. -/
theorem one_of_two_gaps_is_filled :
    (Yields (findMissing 1000 (askFor ["peer"])).run (twoGapsTalk 404 .notFound)
        (.ok ⟨[⟨gappy, 6⟩], 4, 7⟩) ∧
      (∀ e answer, ⟨.store (.gaps e), answer⟩ ∈ twoGapsTalk 404 .notFound →
        answer = .ok (aroundTwoGaps.gaps e)) ∧
      (∀ y ∈ twoGapsTalk 404 .notFound, GoesOn y) ∧
      ∃ askings, Answers aroundTwoGaps (askFor ["peer"]) gappy askings (twoGapsTalk 404 .notFound)
        ⟨[⟨gappy, 6⟩], 4, 7⟩) ∧
    (Yields (findMissing 1000 (askFor ["peer"])).run (twoGapsTalk 500 .protocolError)
        (.error (.internal
          "failed to backfill VAA: protocol violation: unexpected response status: 500")) ∧
      (∀ e answer, ⟨.store (.gaps e), answer⟩ ∈ twoGapsTalk 500 .protocolError →
        answer = .ok (aroundTwoGaps.gaps e)) ∧
      (∀ y ∈ twoGapsTalk 500 .protocolError, GoesOn y) ∧
      ∃ askings : List Asking, ∃ x ∈ askings, StopsAt aroundTwoGaps gappy askings
        (twoGapsTalk 500 .protocolError) x.sequence) := by
  have hreport : reportOf aroundTwoGaps gappy [6] = ⟨[⟨gappy, 6⟩], 4, 7⟩ := by
    rw [reportOf, gaps_aroundTwoGaps]
    rfl
  have habsent := yields_absent
  rw [hreport] at habsent
  refine ⟨⟨habsent, gaps_of_mem_twoGapsTalk _ _, goesOn_of_mem_twoGapsTalk _ _, ?_⟩,
    yields_faulty, gaps_of_mem_twoGapsTalk _ _, goesOn_of_mem_twoGapsTalk _ _, ?_⟩
  · obtain ⟨askings, -, -, -, -, hanswers, -⟩ := missing_report_is_exact (ofRequest_askFor _)
      (gaps_of_mem_twoGapsTalk _ _) (goesOn_of_mem_twoGapsTalk _ _) habsent
    exact ⟨askings, hanswers _ rfl⟩
  · obtain ⟨askings, -, -, -, hreports, -, hstops⟩ := missing_report_is_exact
      (ofRequest_askFor _) (gaps_of_mem_twoGapsTalk _ _) (goesOn_of_mem_twoGapsTalk _ _)
      yields_faulty
    by_contra hnone
    have hsucceed : ∀ x ∈ askings, x.Succeeds := by
      intro x hx
      cases houtcome : x.outcome with
      | ok found => exact ⟨found, houtcome⟩
      | error fault => exact absurd ⟨askings, x, hx, (hstops x hx fault houtcome).2⟩ hnone
    obtain ⟨report, hreport⟩ := hreports hsucceed
    cases hreport

end Site

end BridgeGuardian
