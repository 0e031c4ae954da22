import BridgeGuardian.Proofs.Duplicates
import BridgeGuardian.Proofs.Gap

/-! # Reordering — messages may arrive in any order

    What storage holds after messages have been taken in is told by the
    messages, not by their order: a coordinate is kept if it was kept before
    or a verified message has it, and what is found under a new coordinate
    is one of these messages.  A worker's memory is transparent, so the same
    is true of workers, whichever messages each of them drops. -/

namespace BridgeGuardian

namespace GuardianSet

/-- What an archive becomes when messages are taken in: it keeps one more
    coordinate for each that a verified message has, and finds one of those
    messages there; what was there before is found as before. -/
structure Gathers (g : GuardianSet) (a : Archive) (messages : List Bytes) (b : Archive) : Prop where
  keeps_iff : ∀ c, b.Keeps c ↔ a.Keeps c ∨ ∃ message ∈ messages, g.Vouches c message
  found : ∀ c bytes, b.vaa? c = some bytes →
    a.vaa? c = some bytes ∨ ¬ a.Keeps c ∧ bytes ∈ messages ∧ g.Vouches c bytes

namespace Gathers

variable {g : GuardianSet} {a b b' : Archive} {messages messages' : List Bytes}

theorem nil (g : GuardianSet) (a : Archive) : g.Gathers a [] a where
  keeps_iff c := by simp
  found c bytes h := .inl h

/-- A message that is not accepted adds nothing. -/
theorem skip (h : g.Gathers a messages b) {message : Bytes}
    (hrefused : ∀ c, ¬ g.Vouches c message) : g.Gathers a (messages ++ [message]) b where
  keeps_iff c := by
    rw [h.keeps_iff c]
    constructor
    · rintro (hkept | ⟨m, hm, hvouches⟩)
      · exact .inl hkept
      · exact .inr ⟨m, List.mem_append_left _ hm, hvouches⟩
    · rintro (hkept | ⟨m, hm, hvouches⟩)
      · exact .inl hkept
      · rcases List.mem_append.mp hm with hm | hm
        · exact .inr ⟨m, hm, hvouches⟩
        · obtain rfl := List.mem_singleton.mp hm
          exact absurd hvouches (hrefused c)
  found c bytes hfound := by
    rcases h.found c bytes hfound with hold | ⟨hnew, hmem, hvouches⟩
    · exact .inl hold
    · exact .inr ⟨hnew, List.mem_append_left _ hmem, hvouches⟩

/-- A message that is accepted is stored under its coordinate. -/
theorem store (h : g.Gathers a messages b) {message : Bytes} {v : Vaa}
    (hparse : Vaa.parse message = .ok v) (hverify : g.verify v = .ok ()) :
    g.Gathers a (messages ++ [message]) (b.storeVaa v.coordinate message) where
  keeps_iff c := by
    rw [Archive.keeps_storeVaa_iff, h.keeps_iff c]
    constructor
    · rintro (rfl | hkept | ⟨m, hm, hvouches⟩)
      · exact .inr ⟨message, List.mem_append_right _ (List.mem_singleton_self _),
          v, hparse, rfl, hverify⟩
      · exact .inl hkept
      · exact .inr ⟨m, List.mem_append_left _ hm, hvouches⟩
    · rintro (hkept | ⟨m, hm, hvouches⟩)
      · exact .inr (.inl hkept)
      · rcases List.mem_append.mp hm with hm | hm
        · exact .inr (.inr ⟨m, hm, hvouches⟩)
        · obtain rfl := List.mem_singleton.mp hm
          obtain ⟨w, hw, rfl, -⟩ := hvouches
          obtain rfl : v = w := Except.ok.inj (hparse.symm.trans hw)
          exact .inl rfl
  found c bytes hfound := by
    have hbefore : b.vaa? c = some bytes →
        a.vaa? c = some bytes ∨ ¬ a.Keeps c ∧ bytes ∈ messages ++ [message] ∧
          g.Vouches c bytes := by
      intro hold
      rcases h.found c bytes hold with hold | ⟨hnew, hmem, hvouches⟩
      · exact .inl hold
      · exact .inr ⟨hnew, List.mem_append_left _ hmem, hvouches⟩
    by_cases hkeeps : b.Keeps v.coordinate
    · rw [Archive.storeVaa_of_keeps hkeeps] at hfound
      exact hbefore hfound
    · by_cases hc : v.coordinate = c
      · subst hc
        rw [Archive.vaa?_storeVaa hkeeps] at hfound
        cases hfound
        have hnew : ¬ a.Keeps v.coordinate :=
          fun hkept => hkeeps ((h.keeps_iff _).mpr (.inl hkept))
        exact .inr ⟨hnew, List.mem_append_right _ (List.mem_singleton_self _),
          v, hparse, rfl, hverify⟩
      · refine hbefore ?_
        rwa [Archive.vaa?, Archive.storeVaa, Table.get?_putNew, if_neg hc] at hfound

/-- Taking in one more message. -/
theorem takeIn (h : g.Gathers a messages b) (message : Bytes) :
    ∃ b', (g.takeIn (.memory b) message).2 = .memory b' ∧
      g.Gathers a (messages ++ [message]) b' := by
  cases hparse : Vaa.parseOrFail message with
  | error failure =>
      rw [takeIn_of_parse_error _ hparse]
      refine ⟨b, rfl, h.skip ?_⟩
      rintro c ⟨v, hv, -⟩
      rw [Vaa.parseOrFail_eq_ok_iff.mpr hv] at hparse
      cases hparse
  | ok v =>
      have hv := Vaa.parseOrFail_eq_ok_iff.mp hparse
      cases hverify : g.verifyOrFail v with
      | error failure =>
          rw [takeIn_of_verify_error _ hv hverify]
          refine ⟨b, rfl, h.skip ?_⟩
          rintro c ⟨w, hw, -, hsigned⟩
          obtain rfl : v = w := Except.ok.inj (hv.symm.trans hw)
          rw [verifyOrFail_eq_ok_iff.mpr hsigned] at hverify
          cases hverify
      | ok value =>
          have hsigned := verifyOrFail_eq_ok_iff.mp hverify
          rw [takeIn_of_verify b hv hsigned]
          exact ⟨_, rfl, h.store hv hsigned⟩

/-- The same messages lead to the same coordinates. -/
theorem keeps_congr (h : g.Gathers a messages b) (h' : g.Gathers a messages' b')
    (hsame : ∀ message, message ∈ messages ↔ message ∈ messages') (c : Coordinate) :
    b.Keeps c ↔ b'.Keeps c := by
  rw [h.keeps_iff, h'.keeps_iff]
  simp only [hsame]

/-- What one archive finds the other finds, if no two of the messages are
    accepted for one coordinate. -/
theorem vaa?_of_vaa? (h : g.Gathers a messages b) (h' : g.Gathers a messages' b')
    (hsame : ∀ message, message ∈ messages ↔ message ∈ messages')
    (hagree : ∀ m ∈ messages, ∀ m' ∈ messages, ∀ c, g.Vouches c m → g.Vouches c m' → m = m')
    {c : Coordinate} {bytes : Bytes} (hfound : b.vaa? c = some bytes) :
    b'.vaa? c = some bytes := by
  have hkeeps : b'.Keeps c :=
    (h.keeps_congr h' hsame c).mp (Option.isSome_iff_exists.mpr ⟨bytes, hfound⟩)
  obtain ⟨other, hother⟩ := Option.isSome_iff_exists.mp hkeeps
  rw [hother]
  rcases h.found c bytes hfound with hold | ⟨hnew, hmem, hvouches⟩
  · rcases h'.found c other hother with hold' | ⟨hnew', -, -⟩
    · exact hold'.symm.trans hold
    · exact absurd (Option.isSome_iff_exists.mpr ⟨bytes, hold⟩) hnew'
  · rcases h'.found c other hother with hold' | ⟨-, hmem', hvouches'⟩
    · exact absurd (Option.isSome_iff_exists.mpr ⟨other, hold'⟩) hnew
    · exact congrArg some
        (hagree other ((hsame other).mpr hmem') bytes hmem c hvouches' hvouches)

end Gathers

/-- Taking in messages one by one gathers them. -/
theorem gathers_storageAfter (g : GuardianSet) (a : Archive) (deliveries : List Delivery) :
    ∃ b, g.storageAfter (.memory a) deliveries = .memory b ∧
      g.Gathers a (deliveries.map Delivery.message) b := by
  induction deliveries using List.reverseRecOn with
  | nil => exact ⟨a, rfl, .nil g a⟩
  | append_singleton earlier delivery ih =>
      obtain ⟨b, hmemory, h⟩ := ih
      rw [storageAfter_append, hmemory, List.map_append]
      exact h.takeIn delivery.message

end GuardianSet

/-- What a worker leaves behind is gathered from the messages delivered to it. -/
theorem gathers_after (g : GuardianSet) (a : Archive) (capacity timeToLive : Nat)
    {deliveries : List Delivery} (hfree : CollisionFree deliveries) :
    let worker : IntakeDesk := ⟨g, .empty capacity timeToLive⟩
    ∃ b, (worker.after (.memory a) deliveries).2 = .memory b ∧
      g.Gathers a (deliveries.map Delivery.message) b := by
  intro worker
  obtain ⟨b, hmemory, h⟩ := isTransparent_after g a capacity timeToLive hfree
  obtain ⟨b', hplain, hgathers⟩ := g.gathers_storageAfter a deliveries
  obtain rfl : b' = b := by
    have hstorage := hplain.symm.trans h.storage
    cases hstorage
    rfl
  exact ⟨b', hmemory, hgathers⟩

theorem CollisionFree.of_messages {deliveries deliveries' : List Delivery}
    (h : CollisionFree deliveries)
    (hsub : ∀ message ∈ deliveries'.map Delivery.message,
      message ∈ deliveries.map Delivery.message) : CollisionFree deliveries' := by
  intro m hm m' hm' v v' hv hv'
  obtain ⟨d, hd, hmessage⟩ := List.mem_map.mp (hsub _ (List.mem_map_of_mem hm))
  obtain ⟨d', hd', hmessage'⟩ := List.mem_map.mp (hsub _ (List.mem_map_of_mem hm'))
  exact h d hd d' hd' v v' (hmessage ▸ hv) (hmessage' ▸ hv')

/-- Two workers with the same guardians, whatever they remember and however
    long, are delivered the same messages on the same archive, each in an
    order and at moments of its own.  In the end the same coordinates are
    kept, so that the gaps of every emitter are the same; and if no two
    different messages are accepted for one coordinate, the same bytes are
    kept there. -/
theorem order_of_arrival_does_not_matter (g : GuardianSet) (a : Archive)
    (capacity timeToLive capacity' timeToLive' : Nat) {deliveries deliveries' : List Delivery}
    (hfree : CollisionFree deliveries)
    (hsame : (deliveries.map Delivery.message).Perm (deliveries'.map Delivery.message)) :
    let worker : IntakeDesk := ⟨g, .empty capacity timeToLive⟩
    let worker' : IntakeDesk := ⟨g, .empty capacity' timeToLive'⟩
    ∃ b b', (worker.after (.memory a) deliveries).2 = .memory b ∧
      (worker'.after (.memory a) deliveries').2 = .memory b' ∧
      (∀ c, b.Keeps c ↔ b'.Keeps c) ∧
      (∀ e, b.gaps e = b'.gaps e) ∧
      ((∀ m ∈ deliveries, ∀ m' ∈ deliveries, ∀ c, g.Vouches c m.message →
          g.Vouches c m'.message → m.message = m'.message) →
        ∀ c, b.vaa? c = b'.vaa? c) := by
  intro worker worker'
  have hmem : ∀ message, message ∈ deliveries.map Delivery.message ↔
      message ∈ deliveries'.map Delivery.message := fun message => hsame.mem_iff
  have hfree' : CollisionFree deliveries' :=
    hfree.of_messages fun message hmessage => (hmem message).mpr hmessage
  obtain ⟨b, hmemory, h⟩ := gathers_after g a capacity timeToLive hfree
  obtain ⟨b', hmemory', h'⟩ := gathers_after g a capacity' timeToLive' hfree'
  have hkeeps := h.keeps_congr h' hmem
  refine ⟨b, b', hmemory, hmemory', hkeeps, ?_, ?_⟩
  · intro e
    refine GapReport.ofSequences_congr fun n => ?_
    rw [Archive.mem_sequences_iff, Archive.mem_sequences_iff]
    exact hkeeps ⟨e, n⟩
  · intro hagree c
    have hmessages : ∀ m ∈ deliveries.map Delivery.message,
        ∀ m' ∈ deliveries.map Delivery.message, ∀ c, g.Vouches c m → g.Vouches c m' → m = m' := by
      intro m hm m' hm'
      obtain ⟨d, hd, rfl⟩ := List.mem_map.mp hm
      obtain ⟨d', hd', rfl⟩ := List.mem_map.mp hm'
      exact hagree d hd d' hd'
    refine Option.ext fun bytes => ⟨h.vaa?_of_vaa? h' hmem hmessages, ?_⟩
    refine h'.vaa?_of_vaa? h (fun message => (hmem message).symm) ?_
    intro m hm m' hm'
    exact hmessages m ((hmem m).mpr hm) m' ((hmem m').mpr hm')

/-! ## A copy that comes first -/

namespace Site

/-- The copy without signatures arrives, and then the signed message. -/
def copyFirst : List Delivery := [⟨0, copy.message⟩, ⟨1, original.message⟩]

theorem vouches_original : soleGuardian.Vouches signedMessage.coordinate original.message :=
  ⟨signedMessage, parse_signedMessage, rfl, verify_signedMessage⟩

/-- Of the two only the signed message is accepted. -/
theorem eq_original_of_vouches {m : Delivery} {c : Coordinate} (hm : m ∈ [original, copy])
    (h : soleGuardian.Vouches c m.message) : m.message = original.message := by
  simp only [List.mem_cons, List.not_mem_nil, or_false] at hm
  rcases hm with rfl | rfl
  · rfl
  · obtain ⟨v, hparse, -, hverify⟩ := h
    obtain rfl : unsignedCopy = v := Except.ok.inj (parse_unsignedCopy.symm.trans hparse)
    have hfew : soleGuardian.verify unsignedCopy = .error (.tooFew 0 1) := rfl
    rw [hfew] at hverify
    cases hverify

theorem copy_is_rejected :
    (soleDesk.receive (.memory .empty) ⟨0, copy.message⟩).1.1
      = .error (.invalid "0 signatures, quorum is 1") := by
  have hnew : soleDesk.seen.contains 0 unsignedCopy.signingDigest = false :=
    DigestCache.contains_empty 8 1000 0 unsignedCopy.signingDigest
  have hfew : soleDesk.guardians.verifyOrFail unsignedCopy
      = .error (.invalid "0 signatures, quorum is 1") := rfl
  rw [IntakeDesk.receive, IntakeDesk.processInto,
    IntakeDesk.process_of_verify_error parse_unsignedCopy hnew hfew]
  rfl

/-- The copy is dropped if it comes second and rejected if it comes first; the
    signed message is found either way. -/
theorem copy_may_come_first :
    CollisionFree [original, copy] ∧
      ([original, copy].map Delivery.message).Perm (copyFirst.map Delivery.message) ∧
      ((soleDesk.after (.memory .empty) [original]).1.receive
        (soleDesk.after (.memory .empty) [original]).2 copy).1.1 = .ok .duplicate ∧
      (soleDesk.receive (.memory .empty) ⟨0, copy.message⟩).1.1
        = .error (.invalid "0 signatures, quorum is 1") ∧
      ∃ b b', (soleDesk.after (.memory .empty) [original, copy]).2 = .memory b ∧
        (soleDesk.after (.memory .empty) copyFirst).2 = .memory b' ∧
        b.vaa? signedMessage.coordinate = some original.message ∧
        b'.vaa? signedMessage.coordinate = some original.message := by
  have hsame : ([original, copy].map Delivery.message).Perm (copyFirst.map Delivery.message) :=
    List.Perm.swap _ _ _
  refine ⟨collisionFree_copied, hsame, copy_is_dropped, copy_is_rejected, ?_⟩
  obtain ⟨b, b', hmemory, hmemory', -, -, hbytes⟩ :=
    order_of_arrival_does_not_matter soleGuardian .empty 8 1000 8 1000 collisionFree_copied hsame
  have hagree := hbytes fun m hm m' hm' c hvouches hvouches' =>
    (eq_original_of_vouches hm hvouches).trans (eq_original_of_vouches hm' hvouches').symm
  -- what is found is accepted, and only the signed message is
  have hfound : b.vaa? signedMessage.coordinate = some original.message := by
    obtain ⟨found, hfound, hgathers⟩ :=
      gathers_after soleGuardian .empty 8 1000 collisionFree_copied
    obtain rfl : b = found := by
      have hstorage := hmemory.symm.trans hfound
      cases hstorage
      rfl
    obtain ⟨bytes, hkept⟩ := Option.isSome_iff_exists.mp
      ((hgathers.keeps_iff _).mpr (.inr ⟨_, List.mem_cons_self, vouches_original⟩))
    rcases hgathers.found _ _ hkept with hold | ⟨-, hmem, hvouches⟩
    · cases hold
    · obtain ⟨m, hm, rfl⟩ := List.mem_map.mp hmem
      rw [hkept, eq_original_of_vouches hm hvouches]
  exact ⟨b, b', hmemory, hmemory', hfound, (hagree _).symm.trans hfound⟩

end Site

end BridgeGuardian
