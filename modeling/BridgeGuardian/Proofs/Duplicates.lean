import BridgeGuardian.Proofs.Archive
import BridgeGuardian.Proofs.DigestCache
import BridgeGuardian.Proofs.Envelope
import BridgeGuardian.Proofs.Intake
import BridgeGuardian.Proofs.Site.Verified
import Mathlib.Data.List.Induction

/-! # Duplicates — what a worker's memory of digests changes

    A worker drops a message whose digest it has seen.  Beside it stands
    `takeIn`, which has no memory: it reads, verifies and stores every
    message.  As long as different bodies have different digests the two
    leave the same behind.  For what a worker remembers it has stored, under
    a coordinate that the body tells, and storing again under a coordinate
    changes nothing. -/

namespace BridgeGuardian

/-! ## Taking messages in without a memory -/

/-- Read, verify and store a message. -/
def GuardianSet.takeIn (g : GuardianSet) (s : Storage) (message : Bytes) :
    Except Failure Unit × Storage :=
  match Vaa.parseOrFail message with
  | .error failure => (.error failure, s)
  | .ok v =>
      match g.verifyOrFail v with
      | .error failure => (.error failure, s)
      | .ok () =>
          let (answer, s) := s.answer (.storeVaa v.coordinate message)
          (answer.mapError fun fault => .internal fault.message, s)

namespace GuardianSet

variable {g : GuardianSet} {message : Bytes} {v : Vaa} {failure : Failure}

theorem takeIn_of_parse_error (s : Storage) (hparse : Vaa.parseOrFail message = .error failure) :
    g.takeIn s message = (.error failure, s) := by
  rw [takeIn, hparse]

theorem takeIn_of_verify_error (s : Storage) (hparse : Vaa.parse message = .ok v)
    (hverify : g.verifyOrFail v = .error failure) :
    g.takeIn s message = (.error failure, s) := by
  rw [takeIn, Vaa.parseOrFail_eq_ok_iff.mpr hparse]
  dsimp only
  rw [hverify]

theorem takeIn_of_verify (a : Archive) (hparse : Vaa.parse message = .ok v)
    (hverify : g.verify v = .ok ()) :
    g.takeIn (.memory a) message = (.ok (), .memory (a.storeVaa v.coordinate message)) := by
  rw [takeIn, Vaa.parseOrFail_eq_ok_iff.mpr hparse]
  dsimp only
  rw [verifyOrFail_eq_ok_iff.mpr hverify]
  rfl

/-- Where a message is kept already, taking another in changes nothing. -/
theorem takeIn_of_keeps {a : Archive} (hparse : Vaa.parse message = .ok v)
    (hkeeps : a.Keeps v.coordinate) : (g.takeIn (.memory a) message).2 = .memory a := by
  cases hverify : g.verifyOrFail v with
  | error failure => rw [takeIn_of_verify_error _ hparse hverify]
  | ok value =>
      rw [takeIn_of_verify a hparse (verifyOrFail_eq_ok_iff.mp hverify),
        Archive.storeVaa_of_keeps hkeeps message]

end GuardianSet

/-- A message and the moment at which a worker deals with it. -/
structure Delivery where
  moment : Nat
  message : Bytes
deriving DecidableEq, Repr

/-- Storage after messages have been taken in one by one. -/
def GuardianSet.storageAfter (g : GuardianSet) (s : Storage) (deliveries : List Delivery) :
    Storage :=
  deliveries.foldl (fun s delivery => (g.takeIn s delivery.message).2) s

namespace IntakeDesk

/-- Deal with a message when it is delivered. -/
def receive (d : IntakeDesk) (s : Storage) (delivery : Delivery) :
    (Except Failure Receipt × IntakeDesk) × Storage :=
  d.processInto delivery.moment s delivery.message

/-- The worker and its storage after messages have been delivered one by
    one. -/
def after (d : IntakeDesk) (s : Storage) (deliveries : List Delivery) : IntakeDesk × Storage :=
  deliveries.foldl (fun state delivery =>
    let ((_, desk), s) := state.1.receive state.2 delivery
    (desk, s)) (d, s)

section

variable {d : IntakeDesk} {delivery : Delivery} {v : Vaa}

/-- A message that the worker remembers is dropped. -/
theorem receive_of_contains (s : Storage) (hparse : Vaa.parse delivery.message = .ok v)
    (hseen : d.seen.contains delivery.moment v.signingDigest = true) :
    d.receive s delivery = ((.ok .duplicate, d), s) := by
  rw [receive, processInto, process_of_contains hparse hseen]
  rfl

/-- A message that is new and verifies is stored and remembered. -/
theorem receive_of_verify (a : Archive) (hparse : Vaa.parse delivery.message = .ok v)
    (hnew : d.seen.contains delivery.moment v.signingDigest = false)
    (hverify : d.guardians.verify v = .ok ()) :
    d.receive (.memory a) delivery
      = ((.ok .stored, { d with seen := (d.seen.insert delivery.moment v.signingDigest).2 }),
        .memory (a.storeVaa v.coordinate delivery.message)) := by
  rw [receive, processInto, process_of_verify hparse hnew hverify]
  rfl

end

/-- With storage in memory, a worker drops a message that it remembers, and
    deals with any other as without a memory; what it stores, it
    remembers. -/
theorem receive_cases (d : IntakeDesk) (a : Archive) (delivery : Delivery) :
    (∃ v, Vaa.parse delivery.message = .ok v ∧
      d.seen.contains delivery.moment v.signingDigest = true ∧
      d.receive (.memory a) delivery = ((.ok .duplicate, d), .memory a)) ∨
    (∃ failure, d.guardians.takeIn (.memory a) delivery.message = (.error failure, .memory a) ∧
      d.receive (.memory a) delivery = ((.error failure, d), .memory a)) ∨
    ∃ v, Vaa.parse delivery.message = .ok v ∧ d.guardians.verify v = .ok () ∧
      d.guardians.takeIn (.memory a) delivery.message
        = (.ok (), .memory (a.storeVaa v.coordinate delivery.message)) ∧
      d.receive (.memory a) delivery
        = ((.ok .stored, { d with seen := (d.seen.insert delivery.moment v.signingDigest).2 }),
          .memory (a.storeVaa v.coordinate delivery.message)) := by
  cases hparse : Vaa.parseOrFail delivery.message with
  | error failure =>
      refine .inr (.inl ⟨failure, GuardianSet.takeIn_of_parse_error _ hparse, ?_⟩)
      rw [receive, processInto, process_of_parse_error hparse]
      rfl
  | ok v =>
      have hv := Vaa.parseOrFail_eq_ok_iff.mp hparse
      cases hseen : d.seen.contains delivery.moment v.signingDigest with
      | true => exact .inl ⟨v, hv, hseen, receive_of_contains _ hv hseen⟩
      | false =>
          cases hverify : d.guardians.verifyOrFail v with
          | error failure =>
              refine .inr (.inl ⟨failure, GuardianSet.takeIn_of_verify_error _ hv hverify, ?_⟩)
              rw [receive, processInto, process_of_verify_error hv hseen hverify]
              rfl
          | ok value =>
              have hsigned := GuardianSet.verifyOrFail_eq_ok_iff.mp hverify
              exact .inr (.inr ⟨v, hv, hsigned, GuardianSet.takeIn_of_verify a hv hsigned,
                receive_of_verify a hv hseen hsigned⟩)

theorem after_append (d : IntakeDesk) (s : Storage) (deliveries : List Delivery)
    (delivery : Delivery) :
    d.after s (deliveries ++ [delivery])
      = (((d.after s deliveries).1.receive (d.after s deliveries).2 delivery).1.2,
        ((d.after s deliveries).1.receive (d.after s deliveries).2 delivery).2) := by
  simp only [after, List.foldl_append, List.foldl_cons, List.foldl_nil]

/-- Messages may be delivered in two parts. -/
theorem after_append_after (d : IntakeDesk) (s : Storage) (earlier later : List Delivery) :
    d.after s (earlier ++ later)
      = (d.after s earlier).1.after (d.after s earlier).2 later :=
  List.foldl_append

/-- A message with the body of one just stored is dropped, however it is
    signed. -/
theorem receive_copy (d : IntakeDesk) (a : Archive) (first second : Delivery) {v w : Vaa}
    (hfirst : Vaa.parse first.message = .ok v)
    (hnew : d.seen.contains first.moment v.signingDigest = false)
    (hverify : d.guardians.verify v = .ok ()) (hsecond : Vaa.parse second.message = .ok w)
    (hbody : w.body = v.body) (hfresh : second.moment - first.moment < d.seen.timeToLive) :
    ((d.after (.memory a) [first]).1.receive (d.after (.memory a) [first]).2 second).1.1
      = .ok .duplicate := by
  have hdigest : w.signingDigest = v.signingDigest := congrArg Keccak.doubleHash hbody
  have hafter := after_append d (.memory a) [] first
  rw [List.nil_append] at hafter
  have hseen : (d.after (.memory a) [first]).1.seen.contains second.moment w.signingDigest
      = true := by
    rw [hafter, hdigest]
    show (d.receive (.memory a) first).1.2.seen.contains _ _ = true
    rw [receive_of_verify a hfirst hnew hverify]
    exact DigestCache.contains_insert hnew hfresh
  rw [receive_of_contains _ hsecond hseen]

end IntakeDesk

theorem GuardianSet.storageAfter_append (g : GuardianSet) (s : Storage)
    (deliveries : List Delivery) (delivery : Delivery) :
    g.storageAfter s (deliveries ++ [delivery])
      = (g.takeIn (g.storageAfter s deliveries) delivery.message).2 := by
  simp only [storageAfter, List.foldl_append, List.foldl_cons, List.foldl_nil]

/-! ## Messages in a row -/

/-- Messages with different bodies have different digests. -/
def CollisionFree (deliveries : List Delivery) : Prop :=
  ∀ m ∈ deliveries, ∀ m' ∈ deliveries, ∀ v v', Vaa.parse m.message = .ok v →
    Vaa.parse m'.message = .ok v' → v.signingDigest = v'.signingDigest → v.body = v'.body

theorem CollisionFree.subset {deliveries deliveries' : List Delivery}
    (h : CollisionFree deliveries) (hsub : deliveries' ⊆ deliveries) :
    CollisionFree deliveries' :=
  fun m hm m' hm' => h m (hsub hm) m' (hsub hm')

/-- A verified message with a given body is among those delivered. -/
def HasVerified (g : GuardianSet) (deliveries : List Delivery) (body : Bytes) : Prop :=
  ∃ m ∈ deliveries, ∃ w, Vaa.parse m.message = .ok w ∧ g.verify w = .ok () ∧ w.body = body

/-! ## What a memory rests on -/

/-- A worker trusts the guardians it began with, and every digest that it
    remembers is that of a verified message delivered to it, whose
    coordinate is in storage. -/
structure IsBacked (g : GuardianSet) (deliveries : List Delivery) (d : IntakeDesk) (a : Archive) :
    Prop where
  guardians : d.guardians = g
  remembered : ∀ e ∈ d.seen.entries, ∃ m ∈ deliveries, ∃ w, Vaa.parse m.message = .ok w ∧
    g.verify w = .ok () ∧ w.signingDigest = e.digest ∧ a.Keeps w.coordinate

/-- Verified messages with the digest of a message have its coordinate. -/
def IsUndisputed (g : GuardianSet) (deliveries : List Delivery) (v : Vaa) : Prop :=
  ∀ m ∈ deliveries, ∀ w, Vaa.parse m.message = .ok w → g.verify w = .ok () →
    w.signingDigest = v.signingDigest → w.coordinate = v.coordinate

theorem IsUndisputed.subset {g : GuardianSet} {deliveries deliveries' : List Delivery} {v : Vaa}
    (h : IsUndisputed g deliveries v) (hsub : deliveries' ⊆ deliveries) :
    IsUndisputed g deliveries' v :=
  fun m hm => h m (hsub hm)

namespace IsBacked

variable {g : GuardianSet} {deliveries : List Delivery} {d : IntakeDesk} {a : Archive}

theorem of_empty (g : GuardianSet) (capacity timeToLive : Nat) (a : Archive) :
    IsBacked g [] ⟨g, .empty capacity timeToLive⟩ a :=
  ⟨rfl, fun _ he => absurd he List.not_mem_nil⟩

/-- One more message keeps it so, and storage loses nothing. -/
theorem receive (h : IsBacked g deliveries d a) (delivery : Delivery) :
    ∃ a', (d.receive (.memory a) delivery).2 = .memory a' ∧
      IsBacked g (deliveries ++ [delivery]) (d.receive (.memory a) delivery).1.2 a' ∧
      ∀ c, a.Keeps c → a'.Keeps c := by
  obtain rfl := h.guardians
  have hremembered : ∀ e ∈ d.seen.entries, ∃ m ∈ deliveries ++ [delivery], ∃ w,
      Vaa.parse m.message = .ok w ∧ d.guardians.verify w = .ok () ∧ w.signingDigest = e.digest ∧
        a.Keeps w.coordinate := by
    intro e he
    obtain ⟨m, hm, hw⟩ := h.remembered e he
    exact ⟨m, List.mem_append_left _ hm, hw⟩
  obtain ⟨v, -, -, hreceive⟩ | ⟨failure, -, hreceive⟩ | ⟨v, hparse, hverify, -, hreceive⟩ :=
    d.receive_cases a delivery
  · rw [hreceive]
    exact ⟨a, rfl, ⟨rfl, hremembered⟩, fun c hc => hc⟩
  · rw [hreceive]
    exact ⟨a, rfl, ⟨rfl, hremembered⟩, fun c hc => hc⟩
  · rw [hreceive]
    have hkept : ∀ c, a.Keeps c → (a.storeVaa v.coordinate delivery.message).Keeps c :=
      fun c hc => Archive.keeps_storeVaa_iff.mpr (.inr hc)
    refine ⟨a.storeVaa v.coordinate delivery.message, rfl, ⟨rfl, ?_⟩, hkept⟩
    intro e he
    rcases DigestCache.mem_or_eq_of_mem_insert he with hold | hnew
    · obtain ⟨m, hm, w, hw, hsigned, hdigest, hkeeps⟩ := hremembered e hold
      exact ⟨m, hm, w, hw, hsigned, hdigest, hkept _ hkeeps⟩
    · exact ⟨delivery, List.mem_append_right _ (List.mem_singleton_self _), v, hparse, hverify,
        hnew.symm, Archive.keeps_storeVaa_iff.mpr (.inl rfl)⟩

/-- A verified message is in storage once it has been dealt with, unless its
    digest is disputed. -/
theorem keeps_of_receive (h : IsBacked g deliveries d a) {delivery : Delivery} {v : Vaa}
    (hparse : Vaa.parse delivery.message = .ok v) (hverify : g.verify v = .ok ())
    (hclear : IsUndisputed g deliveries v) {a' : Archive}
    (ha' : (d.receive (.memory a) delivery).2 = .memory a') : a'.Keeps v.coordinate := by
  obtain rfl := h.guardians
  obtain ⟨w, hw, hseen, hreceive⟩ | ⟨failure, htake, -⟩ | ⟨w, hw, -, -, hreceive⟩ :=
    d.receive_cases a delivery
  · -- the message is dropped for the sake of one that is stored at the same place
    obtain rfl : v = w := Except.ok.inj (hparse.symm.trans hw)
    rw [hreceive] at ha'
    cases ha'
    obtain ⟨e, he, hdigest⟩ := DigestCache.exists_mem_of_contains hseen
    obtain ⟨m, hm, u, hu, hsigned, hentry, hkeeps⟩ := h.remembered e he
    rwa [← hclear m hm u hu hsigned (hentry.trans hdigest)]
  · rw [GuardianSet.takeIn_of_verify a hparse hverify] at htake
    cases htake
  · obtain rfl : v = w := Except.ok.inj (hparse.symm.trans hw)
    rw [hreceive] at ha'
    cases ha'
    exact Archive.keeps_storeVaa_iff.mpr (.inl rfl)

/-- After any messages, storage has lost nothing, and has every verified one
    whose digest is not disputed. -/
theorem after (h : IsBacked g deliveries d a) (later : List Delivery) :
    ∃ b, (d.after (.memory a) later).2 = .memory b ∧
      IsBacked g (deliveries ++ later) (d.after (.memory a) later).1 b ∧
      (∀ c, a.Keeps c → b.Keeps c) ∧
      ∀ delivery ∈ later, ∀ v, Vaa.parse delivery.message = .ok v → g.verify v = .ok () →
        IsUndisputed g (deliveries ++ later) v → b.Keeps v.coordinate := by
  induction later using List.reverseRecOn with
  | nil =>
      rw [List.append_nil]
      exact ⟨a, rfl, h, fun c hc => hc, fun delivery hmem => absurd hmem List.not_mem_nil⟩
  | append_singleton earlier last ih =>
      obtain ⟨b, hmemory, hbacked, hkept, hstored⟩ := ih
      obtain ⟨b', hmemory', hbacked', hkept'⟩ := hbacked.receive last
      rw [IntakeDesk.after_append, hmemory, ← List.append_assoc]
      refine ⟨b', hmemory', hbacked', fun c hc => hkept' c (hkept c hc), ?_⟩
      intro delivery hmem v hparse hverify hclear
      have hclear' := hclear.subset (List.subset_append_left _ [last])
      rcases List.mem_append.mp hmem with hearlier | hlast
      · exact hkept' _ (hstored delivery hearlier v hparse hverify hclear')
      · obtain rfl := List.mem_singleton.mp hlast
        exact hbacked.keeps_of_receive hparse hverify hclear' hmemory'

end IsBacked

/-! ## A memory is transparent -/

/-- What a worker remembers of the messages delivered to it: it trusts the
    same guardians, storage in memory is what it would be without the
    worker's memory, and every remembered digest is that of a verified
    message, whose coordinate is in storage. -/
structure IsTransparent (g : GuardianSet) (plain : Storage) (deliveries : List Delivery)
    (d : IntakeDesk) (a : Archive) : Prop where
  guardians : d.guardians = g
  storage : plain = .memory a
  remembered : ∀ e ∈ d.seen.entries, ∃ m ∈ deliveries, ∃ w, Vaa.parse m.message = .ok w ∧
    g.verify w = .ok () ∧ w.signingDigest = e.digest ∧ a.Keeps w.coordinate

namespace IsTransparent

variable {g : GuardianSet} {plain : Storage} {deliveries : List Delivery} {d : IntakeDesk}
variable {a : Archive} {delivery : Delivery}

/-- A message that the worker remembers has the body of a verified one, and
    its coordinate is in storage. -/
theorem of_contains (h : IsTransparent g plain deliveries d a)
    (hfree : CollisionFree (deliveries ++ [delivery])) {v : Vaa}
    (hparse : Vaa.parse delivery.message = .ok v)
    (hseen : d.seen.contains delivery.moment v.signingDigest = true) :
    HasVerified g deliveries v.body ∧ a.Keeps v.coordinate := by
  obtain ⟨e, he, hdigest⟩ := DigestCache.exists_mem_of_contains hseen
  obtain ⟨m, hm, w, hw, hverify, hentry, hkeeps⟩ := h.remembered e he
  have hbody : w.body = v.body :=
    hfree m (List.mem_append_left _ hm) delivery
      (List.mem_append_right _ (List.mem_singleton_self _)) w v hw hparse (hentry.trans hdigest)
  refine ⟨⟨m, hm, w, hw, hverify, hbody⟩, ?_⟩
  rwa [← Vaa.coordinate_eq_of_body_eq hbody]

theorem isBacked (h : IsTransparent g plain deliveries d a) : IsBacked g deliveries d a :=
  ⟨h.guardians, h.remembered⟩

/-- One more message keeps it so. -/
theorem receive (h : IsTransparent g plain deliveries d a)
    (hfree : CollisionFree (deliveries ++ [delivery])) :
    ∃ a', (d.receive (.memory a) delivery).2 = .memory a' ∧
      IsTransparent g (g.takeIn plain delivery.message).2 (deliveries ++ [delivery])
        (d.receive (.memory a) delivery).1.2 a' := by
  obtain ⟨a', hmemory, hbacked, -⟩ := h.isBacked.receive delivery
  refine ⟨a', hmemory, hbacked.guardians, ?_, hbacked.remembered⟩
  obtain rfl := h.guardians
  obtain rfl := h.storage
  rw [← hmemory]
  obtain ⟨v, hparse, hseen, hreceive⟩ | ⟨failure, htake, hreceive⟩ | ⟨v, -, -, htake, hreceive⟩ :=
    d.receive_cases a delivery
  · -- without a memory the message would be stored where one is kept
    have hkeeps := (h.of_contains hfree hparse hseen).2
    rw [hreceive]
    exact GuardianSet.takeIn_of_keeps hparse hkeeps
  · rw [hreceive, htake]
  · rw [hreceive, htake]

end IsTransparent

/-- A worker that starts without a memory is transparent after any messages. -/
theorem isTransparent_after (g : GuardianSet) (a : Archive) (capacity timeToLive : Nat)
    {deliveries : List Delivery} (hfree : CollisionFree deliveries) :
    let worker : IntakeDesk := ⟨g, .empty capacity timeToLive⟩
    ∃ a', (worker.after (.memory a) deliveries).2 = .memory a' ∧
      IsTransparent g (g.storageAfter (.memory a) deliveries) deliveries
        (worker.after (.memory a) deliveries).1 a' := by
  intro worker
  induction deliveries using List.reverseRecOn with
  | nil => exact ⟨a, rfl, rfl, rfl, fun e he => absurd he List.not_mem_nil⟩
  | append_singleton earlier delivery ih =>
      obtain ⟨b, hmemory, h⟩ := ih (hfree.subset (List.subset_append_left _ _))
      rw [IntakeDesk.after_append, GuardianSet.storageAfter_append, hmemory]
      exact h.receive hfree

/-- Whatever a worker remembers and however long, storage is what it would
    be if every message were read, verified and stored.  A message that is
    stored would be accepted without the memory, too; one that is rejected
    would be rejected for the same reason; and one that is dropped has the
    body of a verified message before it, whose coordinate is in storage. -/
theorem memory_of_digests_is_transparent (g : GuardianSet) (a : Archive)
    (capacity timeToLive : Nat) {deliveries : List Delivery}
    (hfree : CollisionFree deliveries) :
    let worker : IntakeDesk := ⟨g, .empty capacity timeToLive⟩
    (worker.after (.memory a) deliveries).2 = g.storageAfter (.memory a) deliveries ∧
    ∀ earlier delivery later, deliveries = earlier ++ delivery :: later →
      let state := worker.after (.memory a) earlier
      let answer := (state.1.receive state.2 delivery).1.1
      let direct := (g.takeIn (g.storageAfter (.memory a) earlier) delivery.message).1
      (answer = .ok .stored → direct = .ok ()) ∧
      (∀ failure, answer = .error failure → direct = .error failure) ∧
      (answer = .ok .duplicate → ∃ v, Vaa.parse delivery.message = .ok v ∧
        HasVerified g earlier v.body ∧ ∃ b, state.2 = .memory b ∧ b.Keeps v.coordinate) := by
  intro worker
  constructor
  · obtain ⟨b, hmemory, h⟩ := isTransparent_after g a capacity timeToLive hfree
    rw [hmemory, h.storage]
  · rintro earlier delivery later rfl state answer direct
    have hfront : earlier ++ [delivery] ⊆ earlier ++ delivery :: later :=
      List.append_subset.mpr ⟨List.subset_append_left _ _,
        List.cons_subset.mpr ⟨List.mem_append_right _ List.mem_cons_self, List.nil_subset _⟩⟩
    have hfree' := hfree.subset hfront
    obtain ⟨b, hmemory, h⟩ := isTransparent_after g a capacity timeToLive
      (hfree'.subset (List.subset_append_left _ _))
    have hstate : state.2 = .memory b := hmemory
    have hdirect : direct = (state.1.guardians.takeIn (.memory b) delivery.message).1 := by
      show (g.takeIn (g.storageAfter (.memory a) earlier) delivery.message).1 = _
      rw [h.storage, ← h.guardians]
    have hanswer : answer = (state.1.receive (.memory b) delivery).1.1 := by rw [← hstate]
    rw [hstate, hdirect, hanswer]
    rcases state.1.receive_cases b delivery with
      ⟨v, hparse, hseen, hreceive⟩ | ⟨failure, htake, hreceive⟩ | ⟨v, -, -, htake, hreceive⟩
    · rw [hreceive]
      obtain ⟨hverified, hkeeps⟩ := h.of_contains hfree' hparse hseen
      exact ⟨nofun, nofun, fun _ => ⟨v, hparse, hverified, b, rfl, hkeeps⟩⟩
    · rw [hreceive, htake]
      exact ⟨nofun, fun _ h => congrArg Except.error (Except.error.inj h), nofun⟩
    · rw [hreceive, htake]
      exact ⟨fun _ => rfl, nofun, nofun⟩

/-! ## A copy without signatures -/

namespace Site

/-- The signed message without its signature. -/
def unsignedCopy : Vaa := { signedMessage with signatures := [] }

/-- The signed message arrives first. -/
def original : Delivery := ⟨0, signedMessage.serialize⟩

/-- A moment later comes the copy. -/
def copy : Delivery := ⟨1, unsignedCopy.serialize⟩

theorem parse_unsignedCopy : Vaa.parse copy.message = .ok unsignedCopy :=
  Vaa.parse_serialize rfl (by decide)

theorem body_unsignedCopy : unsignedCopy.body = signedMessage.body := rfl

theorem collisionFree_copied : CollisionFree [original, copy] := by
  have hbody : ∀ m ∈ [original, copy], ∀ v, Vaa.parse m.message = .ok v →
      v.body = signedMessage.body := by
    intro m hm v hv
    simp only [List.mem_cons, List.not_mem_nil, or_false] at hm
    rcases hm with rfl | rfl
    · obtain rfl : signedMessage = v := Except.ok.inj (parse_signedMessage.symm.trans hv)
      rfl
    · obtain rfl : unsignedCopy = v := Except.ok.inj (parse_unsignedCopy.symm.trans hv)
      exact body_unsignedCopy
  intro m hm m' hm' v v' hv hv' hdigest
  rw [hbody m hm v hv, hbody m' hm' v' hv']

theorem takeIn_unsignedCopy (s : Storage) :
    (soleGuardian.takeIn s copy.message).1 = .error (.invalid "0 signatures, quorum is 1") := by
  have hfew : soleGuardian.verifyOrFail unsignedCopy
      = .error (.invalid "0 signatures, quorum is 1") := rfl
  rw [GuardianSet.takeIn_of_verify_error s parse_unsignedCopy hfew]

theorem copy_is_dropped :
    ((soleDesk.after (.memory .empty) [original]).1.receive
      (soleDesk.after (.memory .empty) [original]).2 copy).1.1 = .ok .duplicate := by
  have hfirst : Vaa.parse original.message = .ok signedMessage := parse_signedMessage
  have hnew : soleDesk.seen.contains original.moment signedMessage.signingDigest = false :=
    DigestCache.contains_empty 8 1000 0 signedMessage.signingDigest
  have hverify : soleDesk.guardians.verify signedMessage = .ok () := verify_signedMessage
  have hfresh : copy.moment - original.moment < soleDesk.seen.timeToLive := by decide
  exact soleDesk.receive_copy .empty original copy hfirst hnew hverify parse_unsignedCopy
    body_unsignedCopy hfresh

/-- The worker drops the copy, although without a memory it would reject it;
    storage is the same. -/
theorem unsigned_copy_is_dropped :
    CollisionFree [original, copy] ∧
      ((soleDesk.after (.memory .empty) [original]).1.receive
        (soleDesk.after (.memory .empty) [original]).2 copy).1.1 = .ok .duplicate ∧
      (soleGuardian.takeIn (soleDesk.after (.memory .empty) [original]).2 copy.message).1
        = .error (.invalid "0 signatures, quorum is 1") ∧
      HasVerified soleGuardian [original] unsignedCopy.body ∧
      (soleDesk.after (.memory .empty) [original, copy]).2
        = soleGuardian.storageAfter (.memory .empty) [original, copy] := by
  have htransparent :=
    memory_of_digests_is_transparent soleGuardian .empty 8 1000 collisionFree_copied
  have hcopy := htransparent.2 [original] copy [] List.singleton_append.symm
  have hdropped := copy_is_dropped
  unfold soleDesk at hdropped
  obtain ⟨v, hparse, hverified, -⟩ := hcopy.2.2 hdropped
  obtain rfl : unsignedCopy = v := Except.ok.inj (parse_unsignedCopy.symm.trans hparse)
  exact ⟨collisionFree_copied, copy_is_dropped, takeIn_unsignedCopy _, hverified, htransparent.1⟩

end Site

end BridgeGuardian
