import BridgeGuardian.Proofs.Duplicates
import BridgeGuardian.Proofs.Gap
import BridgeGuardian.Proofs.Recovery.Backfill
import BridgeGuardian.Proofs.Recovery.Serving
import BridgeGuardian.Recovery.Missing

/-! # Missing messages in transcripts — every sequence number is accounted for

    The gaps are read off storage once.  A gap leaves the report only if a
    peer's message for it went to the intake queue, so once the worker has
    dealt with the queue, every number between the first and the last is
    stored or listed, as far as the worker does not turn the message away.

    A report on an emitter of which nothing is stored says zero for both
    ends and lists nothing. -/

namespace BridgeGuardian

open Program

namespace Recovery

variable {timeout : UInt64} {t : Transcript Surroundings}

/-- Other words for a failure change nothing else. -/
theorem yields_adapt_iff {α : Type} {f : Failure → Failure} {x : Work α}
    {result : Except Failure α} :
    Yields (ExceptT.adapt f x).run t result ↔
      ∃ outcome, Yields x.run t outcome ∧ result = outcome.mapError f := by
  change Yields (x.run >>= fun outcome => .done (outcome.mapError f)) t result ↔ _
  rw [yields_bind_iff]
  constructor
  · rintro ⟨outcome, t₁, t₂, rfl, h₁, h₂⟩
    obtain ⟨rfl, rfl⟩ := yields_done_iff.mp h₂
    exact ⟨outcome, by rwa [List.append_nil], rfl⟩
  · rintro ⟨outcome, h, rfl⟩
    exact ⟨outcome, t, [], by rw [List.append_nil], h, .done _⟩

theorem yields_adapt_ok_iff {α : Type} {f : Failure → Failure} {x : Work α} {value : α} :
    Yields (ExceptT.adapt f x).run t (.ok value) ↔ Yields x.run t (.ok value) := by
  rw [yields_adapt_iff]
  constructor
  · rintro ⟨outcome, h, hvalue⟩
    obtain rfl := mapError_eq_ok_iff.mp hvalue.symm
    exact h
  · exact fun h => ⟨_, h, rfl⟩

/-- A message with a coordinate was handed to the intake queue. -/
def WasSubmitted (t : Transcript Surroundings) (c : Coordinate) : Prop :=
  ∃ message ∈ t.flatMap submitted, ∃ v, Vaa.parse message = .ok v ∧ v.coordinate = c

theorem WasSubmitted.append_left {c : Coordinate} (t₁ : Transcript Surroundings)
    {t₂ : Transcript Surroundings} (h : WasSubmitted t₂ c) : WasSubmitted (t₁ ++ t₂) c := by
  obtain ⟨message, hmem, hv⟩ := h
  refine ⟨message, ?_, hv⟩
  rw [List.flatMap_append]
  exact List.mem_append_right _ hmem

theorem WasSubmitted.append_right {c : Coordinate} {t₁ : Transcript Surroundings}
    (t₂ : Transcript Surroundings) (h : WasSubmitted t₁ c) : WasSubmitted (t₁ ++ t₂) c := by
  obtain ⟨message, hmem, hv⟩ := h
  refine ⟨message, ?_, hv⟩
  rw [List.flatMap_append]
  exact List.mem_append_left _ hmem

/-- A number is still missing after peers have been asked, unless a message
    for it was submitted. -/
theorem mem_or_wasSubmitted_of_fillGaps {peers : List String} {e : Emitter}
    {gaps others : List UInt64}
    (h : Yields (fillGaps timeout peers e gaps).run t (.ok others)) :
    others.Sublist gaps ∧ ∀ n ∈ gaps, n ∈ others ∨ WasSubmitted t ⟨e, n⟩ := by
  induction gaps generalizing t others with
  | nil =>
      obtain ⟨rfl, hothers⟩ := yields_done_iff.mp h
      cases hothers
      exact ⟨.slnil, fun n hn => absurd hn List.not_mem_nil⟩
  | cons n rest ih =>
      obtain ⟨found, t₁, t₂, rfl, h₁, h₂⟩ := yields_bindExcept_ok_iff.mp h
      obtain ⟨others', t₃, t₄, rfl, h₃, h₄⟩ := yields_bindExcept_ok_iff.mp h₂
      obtain ⟨rfl, hothers⟩ := yields_done_iff.mp h₄
      cases hothers
      obtain ⟨hsub, hrest⟩ := ih h₃
      have hrest' : ∀ m ∈ rest, m ∈ others' ∨ WasSubmitted (t₁ ++ (t₃ ++ [])) ⟨e, m⟩ := by
        intro m hm
        rw [List.append_nil]
        exact (hrest m hm).imp_right (.append_left t₁)
      cases found with
      | true =>
          rw [if_pos rfl]
          refine ⟨hsub.cons n, ?_⟩
          intro m hm
          rcases List.mem_cons.mp hm with rfl | hm
          · rcases Backfill.accounts_fetch (yields_adapt_ok_iff.mp h₁) with
              ⟨-, message, v, hone, hparse, hc⟩ | ⟨hfalse, -⟩
            · refine .inr (.append_right _ ⟨message, ?_, v, hparse, hc⟩)
              rw [hone]
              exact List.mem_singleton_self _
            · exact absurd rfl hfalse
          · exact hrest' m hm
      | false =>
          rw [if_neg Bool.false_ne_true]
          refine ⟨hsub.cons_cons n, ?_⟩
          intro m hm
          rcases List.mem_cons.mp hm with rfl | hm
          · exact .inl List.mem_cons_self
          · exact (hrest' m hm).imp_left (List.mem_cons_of_mem _)

/-- Storage is asked for the gaps once; the report has its two ends, and a
    gap is listed unless a message for it was submitted. -/
theorem findMissing_cases {request : MissingRequest} {report : MissingReport}
    (h : Yields (findMissing timeout request).run t (.ok report)) :
    ∃ (e : Emitter) (gaps : GapReport),
      Emitter.ofRequest request.emitterChain request.emitterAddress = .ok e ∧
      ⟨.store (.gaps e), .ok gaps⟩ ∈ t ∧ report.first = gaps.first ∧ report.last = gaps.last ∧
      (∀ c ∈ report.missing, c.emitter = e ∧ c.sequence ∈ gaps.missing) ∧
      ∀ n ∈ gaps.missing, ⟨e, n⟩ ∈ report.missing ∨ WasSubmitted t ⟨e, n⟩ := by
  obtain ⟨e, t₁, t₂, rfl, h₁, h₂⟩ := yields_bindExcept_ok_iff.mp h
  obtain ⟨rfl, he⟩ := Work.yields_ofExcept_iff.mp h₁
  obtain ⟨gaps, t₃, t₄, rfl, h₃, h₄⟩ := yields_bindExcept_ok_iff.mp h₂
  obtain rfl := Work.yields_store_ok_iff.mp h₃
  have hgo : ∃ others : List UInt64, others.Sublist gaps.missing ∧
      (∀ n ∈ gaps.missing, n ∈ others ∨ WasSubmitted t₄ ⟨e, n⟩) ∧
      report = ⟨others.map fun sequence => ⟨e, sequence⟩, gaps.first, gaps.last⟩ := by
    by_cases hask : (request.asksPeers && !gaps.missing.isEmpty) = true
    · rw [if_pos hask] at h₄
      obtain ⟨others, t₅, t₆, rfl, h₅, h₆⟩ := yields_bindExcept_ok_iff.mp h₄
      obtain ⟨rfl, hreport⟩ := yields_done_iff.mp h₆
      obtain ⟨hsub, hrest⟩ := mem_or_wasSubmitted_of_fillGaps h₅
      exact ⟨others, hsub, fun n hn => (hrest n hn).imp_right (.append_right []),
        Except.ok.inj hreport⟩
    · rw [if_neg hask] at h₄
      obtain ⟨rfl, hreport⟩ := yields_done_iff.mp h₄
      exact ⟨gaps.missing, .refl _, fun n hn => .inl hn, Except.ok.inj hreport⟩
  obtain ⟨others, hsub, hrest, rfl⟩ := hgo
  refine ⟨e, gaps, he.symm, List.mem_cons_self, rfl, rfl, ?_, ?_⟩
  · intro c hc
    obtain ⟨n, hn, rfl⟩ := List.mem_map.mp hc
    exact ⟨rfl, hsub.subset hn⟩
  · intro n hn
    rcases hrest n hn with hlisted | hsubmitted
    · exact .inl (List.mem_map.mpr ⟨n, hlisted, rfl⟩)
    · exact .inr (.append_left [] (.append_left [_] hsubmitted))

/-! ## What a report says -/

section

variable {request : MissingRequest} {report : MissingReport} {a : Archive} {e : Emitter}

/-- Nothing of the emitter is stored. -/
theorem eq_empty_of_findMissing
    (he : Emitter.ofRequest request.emitterChain request.emitterAddress = .ok e)
    (hgaps : ∀ e answer, ⟨.store (.gaps e), answer⟩ ∈ t → answer = .ok (a.gaps e))
    (h : Yields (findMissing timeout request).run t (.ok report))
    (hnothing : ∀ n, ¬ a.Keeps ⟨e, n⟩) : report = ⟨[], 0, 0⟩ := by
  obtain ⟨e', gaps, he', hasked, hfirst, hlast, hlisted, -⟩ := findMissing_cases h
  obtain rfl : e = e' := Except.ok.inj (he.symm.trans he')
  obtain rfl : gaps = a.gaps e := Except.ok.inj (hgaps e _ hasked)
  have hempty : a.sequences e = [] :=
    List.eq_nil_iff_forall_not_mem.mpr fun n hn => hnothing n (Archive.mem_sequences_iff.mp hn)
  have hnone : a.gaps e = .none := by rw [Archive.gaps, hempty, GapReport.ofSequences_nil]
  rw [hnone] at hfirst hlast hlisted
  have hnil : report.missing = [] :=
    List.eq_nil_iff_forall_not_mem.mpr fun c hc => List.not_mem_nil (hlisted c hc).2
  obtain ⟨missing, first, last⟩ := report
  cases hfirst
  cases hlast
  cases hnil
  rfl

/-- A report on an emitter of which something is stored: its ends are the
    least and the greatest number, and every number between them was stored,
    is listed, or a message for it was submitted. -/
structure Reports (a : Archive) (e : Emitter) (t : Transcript Surroundings)
    (report : MissingReport) : Prop where
  first : a.Keeps ⟨e, report.first⟩
  last : a.Keeps ⟨e, report.last⟩
  between : ∀ n, a.Keeps ⟨e, n⟩ → report.first ≤ n ∧ n ≤ report.last
  listed : ∀ c ∈ report.missing,
    c.emitter = e ∧ ¬ a.Keeps c ∧ report.first < c.sequence ∧ c.sequence < report.last
  accounted : ∀ n, report.first ≤ n → n ≤ report.last →
    a.Keeps ⟨e, n⟩ ∨ ⟨e, n⟩ ∈ report.missing ∨ WasSubmitted t ⟨e, n⟩

theorem reports_of_findMissing
    (he : Emitter.ofRequest request.emitterChain request.emitterAddress = .ok e)
    (hgaps : ∀ e answer, ⟨.store (.gaps e), answer⟩ ∈ t → answer = .ok (a.gaps e))
    (h : Yields (findMissing timeout request).run t (.ok report))
    (hsome : ∃ n, a.Keeps ⟨e, n⟩) : Reports a e t report := by
  obtain ⟨e', gaps, he', hasked, hfirst, hlast, hlisted, haccounted⟩ := findMissing_cases h
  obtain rfl : e = e' := Except.ok.inj (he.symm.trans he')
  obtain rfl : gaps = a.gaps e := Except.ok.inj (hgaps e _ hasked)
  obtain ⟨m, hm⟩ := hsome
  have hd : (a.gaps e).Describes (a.sequences e) :=
    GapReport.describes_ofSequences (List.ne_nil_of_mem (Archive.mem_sequences_iff.mpr hm))
  have hfirst' : a.Keeps ⟨e, report.first⟩ := by
    rw [hfirst]
    exact Archive.mem_sequences_iff.mp hd.first_mem
  have hlast' : a.Keeps ⟨e, report.last⟩ := by
    rw [hlast]
    exact Archive.mem_sequences_iff.mp hd.last_mem
  refine ⟨hfirst', hlast', ?_, ?_, ?_⟩
  · intro n hn
    rw [hfirst, hlast]
    have hmem := Archive.mem_sequences_iff.mpr hn
    exact ⟨hd.first_le n hmem, hd.le_last n hmem⟩
  · intro c hc
    obtain ⟨rfl, hmissing⟩ := hlisted c hc
    obtain ⟨hnot, hlow, hhigh⟩ := (hd.mem_missing_iff c.sequence).mp hmissing
    rw [hfirst, hlast]
    exact ⟨rfl, fun hkeeps => hnot (Archive.mem_sequences_iff.mpr hkeeps), hlow, hhigh⟩
  · intro n hlow hhigh
    by_cases hn : a.Keeps ⟨e, n⟩
    · exact .inl hn
    · -- the ends are kept, so what is not kept lies strictly between them
      have hne : report.first ≠ n := fun heq => hn (heq ▸ hfirst')
      have hne' : n ≠ report.last := fun heq => hn (heq ▸ hlast')
      have hmissing : n ∈ (a.gaps e).missing := by
        refine (hd.mem_missing_iff n).mpr ⟨fun h => hn (Archive.mem_sequences_iff.mp h), ?_, ?_⟩
        · rw [← hfirst]
          exact UInt64.lt_of_le_of_ne hlow hne
        · rw [← hlast]
          exact UInt64.lt_of_le_of_ne hhigh hne'
      exact .inr (haccounted n hmissing)

end

/-- A report describes what was stored when storage was asked: on nothing it
    says zero for both ends; otherwise the ends are the least and the
    greatest number, and what is listed lies between them and was not
    stored.  Once a worker on the same storage has dealt with what was
    submitted, every number from the first to the last is stored or listed,
    unless the worker turns away what a peer served for it. -/
theorem every_sequence_stored_or_listed {g : GuardianSet} {a₀ a : Archive}
    {capacity timeToLive : Nat} {earlier later : List Delivery} {request : MissingRequest}
    {report : MissingReport}
    (hbefore : (IntakeDesk.after ⟨g, .empty capacity timeToLive⟩ (.memory a₀) earlier).2
      = .memory a)
    (hgaps : ∀ e answer, ⟨.store (.gaps e), answer⟩ ∈ t → answer = .ok (a.gaps e))
    (h : Yields (findMissing timeout request).run t (.ok report))
    (hqueue : ∀ message ∈ t.flatMap submitted, ∃ delivery ∈ later, delivery.message = message) :
    ∃ e b, Emitter.ofRequest request.emitterChain request.emitterAddress = .ok e ∧
      (IntakeDesk.after ⟨g, .empty capacity timeToLive⟩ (.memory a₀) (earlier ++ later)).2
        = .memory b ∧
      ((∀ n, ¬ a.Keeps ⟨e, n⟩) → report = ⟨[], 0, 0⟩) ∧
      ((∃ n, a.Keeps ⟨e, n⟩) →
        (a.Keeps ⟨e, report.first⟩ ∧ a.Keeps ⟨e, report.last⟩ ∧
          ∀ n, a.Keeps ⟨e, n⟩ → report.first ≤ n ∧ n ≤ report.last) ∧
        (∀ c ∈ report.missing, c.emitter = e ∧ ¬ a.Keeps c ∧
          report.first < c.sequence ∧ c.sequence < report.last) ∧
        ∀ n, report.first ≤ n → n ≤ report.last →
          (∀ message ∈ t.flatMap submitted, ∀ v, Vaa.parse message = .ok v →
            v.coordinate = ⟨e, n⟩ → g.verify v = .ok () ∧ IsUndisputed g (earlier ++ later) v) →
          b.Keeps ⟨e, n⟩ ∨ ⟨e, n⟩ ∈ report.missing) := by
  obtain ⟨a', hmemory, hbacked, -, -⟩ :=
    (IsBacked.of_empty g capacity timeToLive a₀).after earlier
  obtain rfl : a' = a := Storage.memory.inj (hmemory.symm.trans hbefore)
  obtain ⟨b, hafter, -, hkept, hstored⟩ := hbacked.after later
  rw [List.nil_append] at hstored
  obtain ⟨e, -, he, -⟩ := findMissing_cases h
  refine ⟨e, b, he, ?_, eq_empty_of_findMissing he hgaps h, ?_⟩
  · rw [IntakeDesk.after_append_after, hmemory]
    exact hafter
  · intro hsome
    have hreports := reports_of_findMissing he hgaps h hsome
    refine ⟨⟨hreports.first, hreports.last, hreports.between⟩, hreports.listed, ?_⟩
    intro n hlow hhigh haccepted
    rcases hreports.accounted n hlow hhigh with hn | hin | ⟨message, hmessage, v, hparse, hv⟩
    · exact .inl (hkept _ hn)
    · exact .inr hin
    · -- what was submitted has come to the worker, which stores what it accepts
      obtain ⟨hverify, hclear⟩ := haccepted message hmessage v hparse hv
      obtain ⟨delivery, hdelivery, rfl⟩ := hqueue message hmessage
      rw [← hv]
      exact .inl (hstored delivery hdelivery v hparse hverify hclear)

end Recovery

/-! ## One gap, and a peer that fills it -/

namespace Site

open Recovery

/-- The emitter of the signed message. -/
def gappy : Emitter := signedMessage.coordinate.emitter

/-- Its messages four and six are stored. -/
def aroundGap : Archive :=
  (Archive.empty.storeVaa ⟨gappy, 4⟩ [0]).storeVaa ⟨gappy, 6⟩ [0]

/-- What is missing of it, after asking some peers. -/
def askFor (peers : List String) : MissingRequest :=
  ⟨2, "e0e0e0e0e0e0e0e0e0e0e0e0e0e0e0e0e0e0e0e0e0e0e0e0e0e0e0e0e0e0e0e0", true, peers⟩

theorem ofRequest_askFor (peers : List String) :
    Emitter.ofRequest (askFor peers).emitterChain (askFor peers).emitterAddress = .ok gappy := by
  -- the peers do not matter
  show Emitter.ofRequest (askFor []).emitterChain (askFor []).emitterAddress = .ok gappy
  decide +kernel

theorem gaps_aroundGap : aroundGap.gaps gappy = ⟨[5], 4, 6⟩ := by
  have hstored : aroundGap.sequences gappy = [4, 6] := by decide +kernel
  have hsorted : [4, 6].mergeSort (fun a b : UInt64 => a ≤ b) = [4, 6] :=
    List.mergeSort_of_pairwise (by decide)
  rw [Archive.gaps, hstored, GapReport.ofSequences, GapReport.ascending, hsorted]
  rfl

/-- A reply that serves a message. -/
def serving (message : Bytes) : NetworkReply :=
  .ok ⟨200, .ok ("\x7b\"vaaBytes\":\"" ++ Base64.encode message ++ "\"\x7d")⟩

/-- The one peer is asked for message five, and serves one. -/
def gapTalk (message : Bytes) : Transcript Surroundings :=
  [⟨.store (.gaps gappy), .ok ⟨[5], 4, 6⟩⟩, ⟨.peerOrder ["peer"], ⟨["peer"], .refl _⟩⟩,
    ⟨.now, (0 : Nat)⟩,
    ⟨.fetch (Backfill.address "peer" ⟨gappy, 5⟩) (0 + (1000 : UInt64).toNat), serving message⟩,
    ⟨.record (.backfillAttempt gappy.chain .found), ()⟩, ⟨.submit message, .accepted⟩]

theorem yields_gapTalk {message : Bytes}
    (hserving : PeerVerdict.ofReply ⟨gappy, 5⟩ (serving message) = .serving message) :
    Yields (findMissing 1000 (askFor ["peer"])).run (gapTalk message) (.ok ⟨[], 4, 6⟩) := by
  refine yields_bindExcept_ok_iff.mpr
    ⟨gappy, [], _, rfl, Work.yields_ofExcept_iff.mpr ⟨rfl, (ofRequest_askFor _).symm⟩, ?_⟩
  refine yields_bindExcept_ok_iff.mpr
    ⟨⟨[5], 4, 6⟩, [_], _, rfl, Work.yields_store_ok_iff.mpr rfl, ?_⟩
  refine yields_bindExcept_ok_iff.mpr ⟨[], _, [], (List.append_nil _).symm, ?_, .done _⟩
  refine yields_bindExcept_ok_iff.mpr ⟨true, _, [], (List.append_nil _).symm, ?_, .done _⟩
  exact yields_adapt_ok_iff.mpr (Backfill.yields_fetch_of_serving hserving .accepted)

theorem gaps_of_mem_gapTalk {message : Bytes} (e : Emitter)
    (answer : Except StoreFault GapReport) (h : ⟨.store (.gaps e), answer⟩ ∈ gapTalk message) :
    answer = .ok (aroundGap.gaps e) := by
  simp only [gapTalk, List.mem_cons, List.not_mem_nil, or_false] at h
  rcases h with h | h | h | h | h | h
  · cases h
    rw [gaps_aroundGap]
  all_goals cases h

theorem ofReply_serving_signedMessage :
    PeerVerdict.ofReply ⟨gappy, 5⟩ (serving signedMessage.serialize)
      = .serving signedMessage.serialize :=
  PeerVerdict.ofReply_of_delivers parse_signedMessage rfl (delivers_of_body _)

theorem ofReply_serving_unsignedCopy :
    PeerVerdict.ofReply ⟨gappy, 5⟩ (serving unsignedCopy.serialize)
      = .serving unsignedCopy.serialize :=
  PeerVerdict.ofReply_of_delivers parse_unsignedCopy rfl (delivers_of_body _)

/-- The peer is honest: message five leaves the report and is stored. -/
theorem gap_is_filled :
    Yields (findMissing 1000 (askFor ["peer"])).run (gapTalk signedMessage.serialize)
      (.ok ⟨[], 4, 6⟩) ∧
    (∀ e answer, ⟨.store (.gaps e), answer⟩ ∈ gapTalk signedMessage.serialize →
      answer = .ok (aroundGap.gaps e)) ∧
    (∀ message ∈ (gapTalk signedMessage.serialize).flatMap submitted,
      ∃ delivery ∈ [original], delivery.message = message) ∧
    ∃ b, (soleDesk.after (.memory aroundGap) [original]).2 = .memory b ∧ b.Keeps ⟨gappy, 5⟩ := by
  have hrun := yields_gapTalk ofReply_serving_signedMessage
  have hqueue : ∀ message ∈ (gapTalk signedMessage.serialize).flatMap submitted,
      ∃ delivery ∈ [original], delivery.message = message := by
    intro message hmem
    obtain rfl := List.mem_singleton.mp hmem
    exact ⟨original, List.mem_singleton_self _, rfl⟩
  refine ⟨hrun, gaps_of_mem_gapTalk, hqueue, ?_⟩
  obtain ⟨e, b, he, hafter, -, hsome⟩ := @every_sequence_stored_or_listed 1000 _ soleGuardian
    aroundGap aroundGap 8 1000 [] [original] _ _ rfl gaps_of_mem_gapTalk hrun hqueue
  obtain rfl : gappy = e := Except.ok.inj ((ofRequest_askFor _).symm.trans he)
  obtain ⟨-, -, hall⟩ := hsome ⟨4, by decide +kernel⟩
  refine ⟨b, hafter, (hall 5 (by decide) (by decide) ?_).resolve_right List.not_mem_nil⟩
  intro message hmem v hparse hv
  obtain rfl := List.mem_singleton.mp hmem
  obtain rfl : signedMessage = v := Except.ok.inj (parse_signedMessage.symm.trans hparse)
  refine ⟨verify_signedMessage, ?_⟩
  intro m hm w hw hverify hdigest
  obtain rfl := List.mem_singleton.mp hm
  obtain rfl : signedMessage = w := Except.ok.inj (parse_signedMessage.symm.trans hw)
  rfl

/-- The worker rejects the copy, and storage stays as it is. -/
theorem storage_after_forgery (a : Archive) :
    (soleDesk.after (.memory a) [copy]).2 = .memory a := by
  have hfew : soleDesk.guardians.verifyOrFail unsignedCopy
      = .error (.invalid "0 signatures, quorum is 1") := rfl
  show (soleDesk.receive (.memory a) copy).2 = .memory a
  rcases soleDesk.receive_cases a copy with
    ⟨v, -, hseen, -⟩ | ⟨failure, -, hreceive⟩ | ⟨v, hparse, hverify, -, -⟩
  · cases hseen
  · rw [hreceive]
  · obtain rfl : unsignedCopy = v := Except.ok.inj (parse_unsignedCopy.symm.trans hparse)
    rw [GuardianSet.verifyOrFail_eq_ok_iff.mpr hverify] at hfew
    cases hfew

/-- Number zero of an emitter of which nothing is stored is neither stored
    nor listed, although both ends are zero.  Number five is neither when
    the peer serves a message without signatures. -/
theorem unseen_and_forged_are_unaccounted_for :
    (∃ t report, Yields (findMissing 1000 (askFor [])).run t (.ok report) ∧
      (∀ e answer, ⟨.store (.gaps e), answer⟩ ∈ t → answer = .ok (Archive.empty.gaps e)) ∧
      t.flatMap submitted = [] ∧ report.first ≤ 0 ∧ 0 ≤ report.last ∧
      ¬ Archive.empty.Keeps ⟨gappy, 0⟩ ∧ ⟨gappy, 0⟩ ∉ report.missing) ∧
    ∃ t report, Yields (findMissing 1000 (askFor ["peer"])).run t (.ok report) ∧
      (∀ e answer, ⟨.store (.gaps e), answer⟩ ∈ t → answer = .ok (aroundGap.gaps e)) ∧
      t.flatMap submitted = [copy.message] ∧
      ∃ b, (soleDesk.after (.memory aroundGap) [copy]).2 = .memory b ∧
        report.first ≤ 5 ∧ 5 ≤ report.last ∧
        ¬ b.Keeps ⟨gappy, 5⟩ ∧ ⟨gappy, 5⟩ ∉ report.missing := by
  constructor
  · have hnone : ∀ e, Archive.empty.gaps e = .none := fun e => GapReport.ofSequences_nil
    refine ⟨[⟨.store (.gaps gappy), .ok .none⟩], ⟨[], 0, 0⟩, ?_, ?_, rfl, by decide, by decide,
      by decide +kernel, List.not_mem_nil⟩
    · refine yields_bindExcept_ok_iff.mpr
        ⟨gappy, [], _, rfl, Work.yields_ofExcept_iff.mpr ⟨rfl, (ofRequest_askFor _).symm⟩, ?_⟩
      exact .ask (.done _)
    · intro e answer hmem
      rw [hnone]
      cases List.mem_singleton.mp hmem
      rfl
  · exact ⟨gapTalk unsignedCopy.serialize, ⟨[], 4, 6⟩,
      yields_gapTalk ofReply_serving_unsignedCopy, gaps_of_mem_gapTalk, rfl, aroundGap,
      storage_after_forgery aroundGap, by decide, by decide, by decide +kernel,
      List.not_mem_nil⟩

end Site

end BridgeGuardian
