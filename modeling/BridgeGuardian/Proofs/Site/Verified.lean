import BridgeGuardian.Proofs.Archive
import BridgeGuardian.Proofs.Guardians
import BridgeGuardian.Proofs.Intake
import BridgeGuardian.Proofs.Recovery.Undo
import BridgeGuardian.Proofs.Site.Basic
import Mathlib.Control.Monad.Basic

/-! # Verified messages — what is stored, and what is acted on

    As long as workers are the only ones that store messages, everything in
    the archive is a message that a quorum signed, kept under its own
    coordinate.  A worker that is about to write has verified what it
    writes; a call never writes a message; and what a call has read from
    storage is still there.  So a governance message is built from a
    verified one, whatever peers have replied. -/

namespace BridgeGuardian

open Program

/-- Octets are a message with a coordinate that a quorum of the set
    signed. -/
def GuardianSet.Vouches (set : GuardianSet) (c : Coordinate) (bytes : Bytes) : Prop :=
  ∃ v, Vaa.parse bytes = .ok v ∧ v.coordinate = c ∧ set.verify v = .ok ()

/-- A query that stores a message only if the set vouches for it. -/
def GuardianSet.Permits (set : GuardianSet) (q : Surroundings.Query) : Prop :=
  ∀ c bytes, q = .store (.storeVaa c bytes) → set.Vouches c bytes

/-! ## Workers -/

/-- A worker stores only what the set vouches for, and does not change the
    set. -/
structure Worker.IsDiligent (set : GuardianSet) (w : Worker) : Prop where
  asks : w.OnlyAsks set.Permits
  keeps : ∀ t desk, Yields w t desk → desk.guardians = set

theorem Worker.isDiligent_done (desk : IntakeDesk) :
    Worker.IsDiligent desk.guardians (.done desk) := by
  refine ⟨trivial, ?_⟩
  intro t other h
  obtain ⟨-, rfl⟩ := yields_done_iff.mp h
  rfl

/-- What a worker does with a message is diligent. -/
theorem IntakeDesk.isDiligent_task (desk : IntakeDesk) (now : Nat) (message : Bytes) :
    Worker.IsDiligent desk.guardians (desk.task now message) := by
  unfold task
  rcases desk.process_cases now askToWrite message with
    ⟨failure, h⟩ | ⟨v, -, -, h⟩ | ⟨v, hparse, -, hverify, h⟩
  · rw [h]
    exact Worker.isDiligent_done desk
  · rw [h]
    exact Worker.isDiligent_done desk
  · rw [h]
    refine ⟨⟨?_, fun answer => trivial⟩, ?_⟩
    · intro c bytes hq
      cases hq
      exact ⟨v, hparse, rfl, hverify⟩
    · intro t other hyields
      obtain ⟨answer, rest, -, hrest⟩ := yields_ask_iff.mp hyields
      obtain ⟨-, rfl⟩ := yields_done_iff.mp hrest
      exact desk.guardians_settle now v answer

/-- A worker stays diligent from one exchange to the next. -/
theorem Worker.IsDiligent.of_moves {set : GuardianSet} {w w' : Worker}
    {e : Exchange Surroundings} (h : w.IsDiligent set) (hmove : Moves w e w') :
    set.Permits e.query ∧ w'.IsDiligent set := by
  obtain ⟨hquery, hrest⟩ := h.asks.of_moves hmove
  exact ⟨hquery, hrest, fun t desk hyields => h.keeps _ desk (hmove.yields hyields)⟩

/-! ## Exchanges with the archive -/

namespace Serves

variable {a a' : Archive} {e : Exchange Surroundings} {entry : Coordinate × Bytes}

theorem mem_vaas (h : Serves a e a') (hentry : entry ∈ a.vaas) : entry ∈ a'.vaas := by
  cases h with
  | store q => exact StoreQuery.mem_vaas_answer hentry
  | other query answer hother => exact hentry

/-- Only storing a message makes it stored. -/
theorem mem_vaas_or (h : Serves a e a') (hentry : entry ∈ a'.vaas) :
    entry ∈ a.vaas ∨ e.query = .store (.storeVaa entry.1 entry.2) := by
  cases h with
  | store q =>
      rcases StoreQuery.mem_vaas_of_answer hentry with hold | hq
      · exact .inl hold
      · exact .inr (congrArg Surroundings.Query.store hq)
  | other query answer hother => exact .inl hentry

/-- What is read has been stored. -/
theorem mem_vaas_of_read {c : Coordinate} {bytes : Bytes}
    (h : Serves a ⟨.store (.vaa c), .ok (some bytes)⟩ a') : (c, bytes) ∈ a.vaas := by
  obtain ⟨hanswer, -⟩ := serves_store_iff.mp h
  exact Table.mem_of_get? (Except.ok.inj hanswer).symm

end Serves

/-! ## Sites -/

/-- What is stored is vouched for, what workers are about to store as well;
    calls do not store messages, and what they read is still stored. -/
structure Site.IsVouched (set : GuardianSet) (s : Site) : Prop where
  stored : ∀ entry ∈ s.archive.vaas, set.Vouches entry.1 entry.2
  workers : ∀ w ∈ s.workers, Worker.IsDiligent set w
  asks : ∀ call ∈ s.calls, call.rest.OnlyAsks (Recovery.ReadsOrClaims call.request.sequence)
  read : ∀ call ∈ s.calls, ∀ c bytes,
    ⟨.store (.vaa c), .ok (some bytes)⟩ ∈ call.past → (c, bytes) ∈ s.archive.vaas

namespace Site

variable {set : GuardianSet} {admits : StoreQuery → Prop} {s s' : Site}

/-- A query that reads or claims stores no message. -/
theorem not_storeVaa_of_readsOrClaims {sequence : UInt64} {q : Surroundings.Query}
    (h : Recovery.ReadsOrClaims sequence q) (c : Coordinate) (bytes : Bytes) :
    q ≠ .store (.storeVaa c bytes) := by
  rintro rfl
  rcases h with hreads | ⟨chain, hclaims⟩
  · cases hreads
  · cases hclaims

/-- At its opening a site has nothing to vouch for. -/
theorem isVouched_opened {desks : List IntakeDesk} (h : ∀ desk ∈ desks, desk.guardians = set) :
    (opened desks).IsVouched set where
  stored entry hentry := absurd hentry List.not_mem_nil
  workers w hw := by
    obtain ⟨desk, hdesk, rfl⟩ := List.mem_map.mp hw
    rw [← h desk hdesk]
    exact Worker.isDiligent_done desk
  asks call hcall := absurd hcall List.not_mem_nil
  read call hcall := absurd hcall List.not_mem_nil

/-- A step of a call keeps a site vouched for. -/
theorem IsVouched.goOn {i : Nat} {call : Call} {e : Exchange Surroundings}
    {rest : Program Surroundings (Except Failure GovernanceMessage)} {archive : Archive}
    {queue : List Bytes} (h : s.IsVouched set) (hcall : s.calls[i]? = some call)
    (hmove : Moves call.rest e rest) (hserve : Serves s.archive e archive) :
    IsVouched set { s with archive, queue, calls := s.calls.set i (call.behind e rest) } := by
  have hmem : call ∈ s.calls := List.mem_of_getElem? hcall
  obtain ⟨hquery, hrest⟩ := (h.asks call hmem).of_moves hmove
  refine ⟨?_, h.workers, ?_, ?_⟩
  · intro entry hentry
    rcases hserve.mem_vaas_or hentry with hold | hwrite
    · exact h.stored entry hold
    · exact absurd hwrite (not_storeVaa_of_readsOrClaims hquery _ _)
  · intro other hother
    rcases List.mem_or_eq_of_mem_set hother with hold | rfl
    · exact h.asks other hold
    · exact hrest
  · intro other hother c bytes hread
    -- what is stored stays, so it does not matter how long ago it was read
    rcases List.mem_or_eq_of_mem_set hother with hold | rfl
    · exact hserve.mem_vaas (h.read other hold c bytes hread)
    · rcases List.mem_append.mp hread with hearlier | hnow
      · exact hserve.mem_vaas (h.read call hmem c bytes hearlier)
      · obtain rfl := List.mem_singleton.mp hnow
        exact hserve.mem_vaas hserve.mem_vaas_of_read

/-- A step of a worker keeps a site vouched for. -/
theorem IsVouched.work {i : Nat} {worker rest : Worker} {e : Exchange Surroundings}
    {archive : Archive} (h : s.IsVouched set) (hworker : s.workers[i]? = some worker)
    (hmove : Moves worker e rest) (hserve : Serves s.archive e archive) :
    IsVouched set { s with archive, workers := s.workers.set i rest } := by
  have hmem : worker ∈ s.workers := List.mem_of_getElem? hworker
  obtain ⟨hquery, hrest⟩ := (h.workers worker hmem).of_moves hmove
  refine ⟨?_, ?_, h.asks, fun call hcall c bytes hread =>
    hserve.mem_vaas (h.read call hcall c bytes hread)⟩
  · intro entry hentry
    rcases hserve.mem_vaas_or hentry with hold | hwrite
    · exact h.stored entry hold
    · exact hquery _ _ hwrite
  · intro w hw
    rcases List.mem_or_eq_of_mem_set hw with hold | rfl
    · exact h.workers w hold
    · exact hrest

/-- A worker that begins with a message keeps a site vouched for. -/
theorem IsVouched.task {i : Nat} {desk : IntakeDesk} {queue : List Bytes} (h : s.IsVouched set)
    (hworker : s.workers[i]? = some (.done desk)) (now : Nat) (message : Bytes) :
    IsVouched set { s with queue, workers := s.workers.set i (desk.task now message) } := by
  refine ⟨h.stored, ?_, h.asks, h.read⟩
  intro w hw
  rcases List.mem_or_eq_of_mem_set hw with hold | rfl
  · exact h.workers w hold
  · have hset : desk.guardians = set :=
      (h.workers _ (List.mem_of_getElem? hworker)).keeps [] desk (.done desk)
    rw [← hset]
    exact desk.isDiligent_task now message

/-- Whatever others ask keeps a site vouched for, unless they store
    messages. -/
theorem IsVouched.others {q : StoreQuery} (h : s.IsVouched set)
    (hq : ∀ c bytes, q ≠ .storeVaa c bytes) :
    IsVouched set { s with archive := (q.answer s.archive).2 } := by
  refine ⟨?_, h.workers, h.asks, fun call hcall c bytes hread =>
    StoreQuery.mem_vaas_answer (h.read call hcall c bytes hread)⟩
  intro entry hentry
  rcases StoreQuery.mem_vaas_of_answer hentry with hold | hwrite
  · exact h.stored entry hold
  · exact absurd hwrite (hq _ _)

/-- Every step keeps a site vouched for. -/
theorem IsVouched.of_step (hadmits : ∀ c bytes, ¬ admits (.storeVaa c bytes))
    (h : s.IsVouched set) (hstep : Step admits s s') : s'.IsVouched set := by
  cases hstep with
  | call settings request =>
      refine ⟨h.stored, h.workers, ?_, ?_⟩
      · intro call hcall
        rcases List.mem_append.mp hcall with hold | hnew
        · exact h.asks call hold
        · obtain rfl := List.mem_singleton.mp hnew
          exact Recovery.onlyAsks_undoTransfer settings request
      · intro call hcall
        rcases List.mem_append.mp hcall with hold | hnew
        · exact h.read call hold
        · obtain rfl := List.mem_singleton.mp hnew
          exact fun c bytes hread => absurd hread List.not_mem_nil
  | goOn i call e rest archive hcall hmove hserve => exact h.goOn hcall hmove hserve
  | arrive message => exact ⟨h.stored, h.workers, h.asks, h.read⟩
  | take i desk now message queue hworker hqueue => exact h.task hworker now message
  | hand i desk now message hworker => exact h.task hworker now message
  | work i worker e rest archive hworker hmove hserve => exact h.work hworker hmove hserve
  | others q hq =>
      refine h.others ?_
      rintro c bytes rfl
      exact hadmits c bytes hq

theorem isVouched_of_steps {desks : List IntakeDesk}
    (hadmits : ∀ c bytes, ¬ admits (.storeVaa c bytes))
    (hdesks : ∀ desk ∈ desks, desk.guardians = set) (h : Steps admits (opened desks) s) :
    s.IsVouched set := by
  induction h with
  | refl => exact isVouched_opened hdesks
  | tail _ hstep ih => exact ih.of_step hadmits hstep

/-- At any moment, everything stored is a message that a quorum signed,
    under its own coordinate, and every governance message that a call has
    come to is built from a stored message with the requested coordinate. -/
theorem only_verified_stored_and_acted_on {desks : List IntakeDesk}
    (hadmits : ∀ c bytes, ¬ admits (.storeVaa c bytes))
    (hdesks : ∀ desk ∈ desks, desk.guardians = set) (h : Steps admits (opened desks) s) :
    (∀ c bytes, (c, bytes) ∈ s.archive.vaas →
      ∃ v, Vaa.parse bytes = .ok v ∧ v.coordinate = c ∧ set.verify v = .ok ()) ∧
    ∀ call ∈ s.calls, ∀ message, call.result? = some (.ok message) →
      ∃ e bytes v transfer wrapper,
        Emitter.ofRequest call.request.emitterChain call.request.emitterAddress = .ok e ∧
        (⟨e, call.request.sequence⟩, bytes) ∈ s.archive.vaas ∧
        Vaa.parse bytes = .ok v ∧ v.coordinate = ⟨e, call.request.sequence⟩ ∧
        set.verify v = .ok () ∧ Transfer.decode v.payload = .ok transfer ∧
        message.request = .undoneTransfer v.consistencyLevel
          (GovernancePayload.undo transfer wrapper call.request.sequence).serialize := by
  have hvouched : s.IsVouched set := isVouched_of_steps hadmits hdesks h
  refine ⟨fun c bytes hentry => hvouched.stored (c, bytes) hentry, ?_⟩
  intro call hcall message hresult
  have hyields := (isFaithful_of_steps h call hcall).yields hresult
  rcases Recovery.undoTransfer_cases hyields with
    ⟨-, failure, hfailure⟩ | ⟨e, i, t₁, t₂, m, he, hpast, hprepare, hissued⟩
  · cases hfailure
  · obtain ⟨bytes, hread, hparse, hdecode⟩ := Recovery.mem_of_yields_prepare hprepare
    have hstored : (⟨e, call.request.sequence⟩, bytes) ∈ s.archive.vaas := by
      refine hvouched.read call hcall _ bytes ?_
      rw [hpast]
      exact List.mem_append_left _ (List.mem_append_left _ hread)
    obtain ⟨v, hv, hcoordinate, hverify⟩ := hvouched.stored _ hstored
    -- the entry and the ingredients are read from the same octets
    obtain rfl : v = i.vaa := Except.ok.inj (hv.symm.trans hparse)
    cases hissued with
    | won nonce =>
        exact ⟨e, bytes, i.vaa, i.transfer, i.wrapper, he, hstored, hparse, hcoordinate, hverify,
          hdecode, rfl⟩

/-! ## One signed message -/

/-- A set of one guardian. -/
def soleGuardian : GuardianSet :=
  ⟨0, [⟨[133, 114, 253, 80, 232, 2, 133, 44, 216, 150, 19, 42, 234, 86, 42, 126, 63, 213, 82,
    153], rfl⟩]⟩

/-- A message that this guardian signed. -/
def signedMessage : Vaa where
  version := 1
  guardianSetIndex := 0
  -- the numbers `r` and `s` of the signature, and its recovery id
  signatures := [⟨0, ⟨
    [129, 37, 209, 107, 86, 253, 6, 242, 20, 234, 181, 205, 100, 139, 252, 63, 242, 129, 204,
      151, 202, 133, 118, 119, 215, 59, 237, 161, 195, 20, 35, 122] ++
    [44, 204, 202, 184, 227, 14, 249, 12, 134, 39, 101, 249, 67, 95, 149, 157, 91, 13, 39,
      214, 49, 166, 208, 141, 238, 243, 126, 220, 226, 103, 117, 122] ++
    [0], rfl⟩⟩]
  timestamp := 1700000000
  nonce := 7
  coordinate := ⟨⟨⟨2⟩, ⟨List.replicate 32 224, rfl⟩⟩, 5⟩
  consistencyLevel := 15
  payload := [1, 2, 3]

theorem parse_signedMessage : Vaa.parse signedMessage.serialize = .ok signedMessage := by
  decide +kernel

theorem signingDigest_signedMessage : signedMessage.signingDigest
    = .ofNat 32 0xc583e31c68f1c0d31b6f3cbffadcc32be0fe415a1e638c691465875868a7e610 := by
  decide +kernel

/-- The guardian accepts it. -/
theorem verify_signedMessage : soleGuardian.verify signedMessage = .ok () := by
  -- what the digest is matters to each signature, so it is worked out once
  refine GuardianSet.verify_of_signingDigest signingDigest_signedMessage rfl (by decide) ?_
  decide +kernel

/-- A worker that trusts the one guardian and remembers nothing. -/
def soleDesk : IntakeDesk := ⟨soleGuardian, .empty 8 1000⟩

/-- The site of this worker after it has taken in the signed message. -/
def takenIn : Site where
  archive := Archive.empty.storeVaa signedMessage.coordinate signedMessage.serialize
  queue := []
  workers := [.done (soleDesk.settle 0 signedMessage (.ok ())).2]
  calls := []

/-- The message is handed over and written. -/
theorem steps_takenIn : Steps (fun _ => False) (opened [soleDesk]) takenIn := by
  have hnew : soleDesk.seen.contains 0 signedMessage.signingDigest = false :=
    DigestCache.contains_empty 8 1000 0 signedMessage.signingDigest
  let write := StoreQuery.storeVaa signedMessage.coordinate signedMessage.serialize
  let written : Exchange Surroundings := ⟨.store write, (.ok () : Except StoreFault Unit)⟩
  have hmove : Moves (soleDesk.task 0 signedMessage.serialize) written
      (.done (soleDesk.settle 0 signedMessage (.ok ())).2) := by
    unfold IntakeDesk.task
    rw [IntakeDesk.process_of_verify parse_signedMessage hnew verify_signedMessage]
    exact .ask _ _ _
  have hserve : Serves .empty written takenIn.archive := .store write
  have hhand : Step (fun _ => False) (opened [soleDesk])
      ⟨.empty, [], [soleDesk.task 0 signedMessage.serialize], []⟩ :=
    .hand 0 soleDesk 0 signedMessage.serialize rfl
  exact .tail (.tail .refl hhand) (.work 0 _ written _ _ rfl hmove hserve)

/-- What this site has stored is verified. -/
theorem signed_message_stored_and_verified :
    (signedMessage.coordinate, signedMessage.serialize) ∈ takenIn.archive.vaas ∧
    ∀ c bytes, (c, bytes) ∈ takenIn.archive.vaas →
      ∃ v, Vaa.parse bytes = .ok v ∧ v.coordinate = c ∧ soleGuardian.verify v = .ok () := by
  refine ⟨List.mem_singleton.mpr rfl, ?_⟩
  have hdesks : ∀ desk ∈ [soleDesk], desk.guardians = soleGuardian := by
    intro desk hdesk
    obtain rfl := List.mem_singleton.mp hdesk
    rfl
  exact (only_verified_stored_and_acted_on (fun _ _ h => h) hdesks steps_takenIn).1

end Site

end BridgeGuardian
