import BridgeGuardian.Proofs.Configured
import BridgeGuardian.Proofs.Governance.Orders
import Mathlib.Data.List.Sort

/-! # Signing — which messages are signed by a quorum, and which never are

    What a set accepts is said of the signatures alone, without the walk that
    checks them.  Two consequences lie in the strictly increasing places: no
    signature counts twice, and among all lists of the same signatures only
    one is accepted.  A quorum is never empty, so a set without members
    accepts nothing, and nobody accepts an order that nobody has signed. -/

namespace BridgeGuardian

/-- An order leaves without a signature, whatever it is about. -/
theorem GovernanceMessage.signatures_of_toVaa {m : GovernanceMessage} {currentIndex : UInt32}
    {u : Vaa} (h : m.toVaa currentIndex = .ok u) : u.signatures = [] := by
  have hgiving : ∀ made : Except RequestFault GovernancePayload,
      m.giving currentIndex <$> made = .ok u → u.signatures = [] := by
    intro made hmade
    cases made with
    | error fault => cases hmade
    | ok order =>
        cases hmade
        rfl
  obtain ⟨sequence, nonce, request⟩ := m
  cases request with
  | guardianSet | contractUpgrade | registerChain | upgradeBridge => exact hgiving _ h
  | undoneTransfer level payload =>
      cases h
      rfl

/-- Nothing in front of the body changes what is signed. -/
theorem Vaa.signingDigest_of_header (v : Vaa) (version : UInt8) (guardianSetIndex : UInt32)
    (signatures : List GuardianSignature) :
    ({ v with version, guardianSetIndex, signatures } : Vaa).signingDigest = v.signingDigest :=
  rfl

namespace GuardianSet

variable {s : GuardianSet} {v : Vaa} {signatures : List GuardianSignature}

/-- A signature counts if there is a member at its place and the digest
    recovers to the key of this member. -/
theorem hasSigned_iff {digest : Bytes32} {sig : GuardianSignature} :
    s.HasSigned digest sig ↔ ∃ h : sig.index.toNat < s.keys.length,
      signerOf digest sig.signature = .ok s.keys[sig.index.toNat] := by
  constructor
  · rintro ⟨key, hkey, hsigner⟩
    obtain ⟨hplace, rfl⟩ := List.getElem?_eq_some_iff.mp hkey
    exact ⟨hplace, hsigner⟩
  · rintro ⟨hplace, hsigner⟩
    exact ⟨_, List.getElem?_eq_getElem hplace, hsigner⟩

/-- A quorum is at least one signature. -/
theorem Accepts.signatures_ne_nil (h : s.Accepts v) : v.signatures ≠ [] := by
  intro hnil
  have hquorum : s.keys.length * 2 / 3 + 1 ≤ v.signatures.length := h.quorum
  rw [hnil, List.length_nil] at hquorum
  omega

theorem Accepts.keys_ne_nil (h : s.Accepts v) : s.keys ≠ [] := by
  intro hnil
  obtain ⟨sig, hsig⟩ := List.exists_mem_of_ne_nil _ h.signatures_ne_nil
  obtain ⟨hplace, -⟩ := hasSigned_iff.mp (h.signed sig hsig)
  rw [hnil] at hplace
  exact absurd hplace (Nat.not_lt_zero _)

theorem Accepts.pairwise_signatures (h : s.Accepts v) :
    v.signatures.Pairwise fun sig sig' => sig.index < sig'.index :=
  List.pairwise_map.mp h.increasing

/-- No signature of an accepted message is repeated. -/
theorem Accepts.nodup_signatures (h : s.Accepts v) : v.signatures.Nodup := by
  refine h.pairwise_signatures.imp ?_
  rintro sig sig' hlt rfl
  exact UInt8.lt_irrefl _ hlt

/-- Signatures in the order of their places are told by their members: there
    is one such order, and nothing repeats in it. -/
theorem eq_of_pairwise_index {sigs sigs' : List GuardianSignature}
    (h : sigs.Pairwise fun sig sig' => sig.index < sig'.index)
    (h' : sigs'.Pairwise fun sig sig' => sig.index < sig'.index)
    (hsame : ∀ sig, sig ∈ sigs ↔ sig ∈ sigs') : sigs = sigs' := by
  have : Std.Irrefl fun sig sig' : GuardianSignature => sig.index < sig'.index :=
    ⟨fun sig => UInt8.lt_irrefl sig.index⟩
  have : Std.Antisymm fun sig sig' : GuardianSignature => sig.index < sig'.index :=
    ⟨fun _ _ hlt hgt => absurd hgt (UInt8.lt_asymm hlt)⟩
  exact h.eq_of_mem_iff h' hsame

/-- A set accepts the messages that name it, carry at least a quorum of
    signatures in strictly ascending order of their places, and have at each
    of these places a member to whose key the signature over the digest of
    the body recovers.  A set without members accepts nothing; no set accepts
    a governance message as it is made; of an accepted message no other list
    of the same signatures is accepted, and no list that repeats one; and the
    digest that is checked does not depend on the header. -/
theorem accepts_exactly_quorum_signed (s : GuardianSet) (v : Vaa) :
    (s.verify v = .ok () ↔
      v.guardianSetIndex = s.index ∧ s.quorum ≤ v.signatures.length ∧
      (v.signatures.map GuardianSignature.index).Pairwise (· < ·) ∧
      ∀ sig ∈ v.signatures, ∃ h : sig.index.toNat < s.keys.length,
        signerOf v.signingDigest sig.signature = .ok s.keys[sig.index.toNat]) ∧
    (s.keys = [] → s.verify v ≠ .ok ()) ∧
    (∀ (m : GovernanceMessage) (currentIndex : UInt32) (u : Vaa),
      m.toVaa currentIndex = .ok u → s.verify u ≠ .ok ()) ∧
    (s.verify v = .ok () → ∀ signatures, signatures ≠ v.signatures →
      (∀ sig, sig ∈ signatures ↔ sig ∈ v.signatures) ∨ ¬ signatures.Nodup →
      s.verify { v with signatures } ≠ .ok ()) ∧
    (∀ version guardianSetIndex signatures,
      ({ v with version, guardianSetIndex, signatures } : Vaa).signingDigest
        = v.signingDigest) := by
  refine ⟨?_, ?_, ?_, ?_, v.signingDigest_of_header⟩
  · rw [verify_eq_ok_iff]
    constructor
    · intro h
      exact ⟨h.index, h.quorum, h.increasing, fun sig hsig => hasSigned_iff.mp (h.signed sig hsig)⟩
    · rintro ⟨hindex, hquorum, hincreasing, hsigned⟩
      exact ⟨hindex, hquorum, hincreasing, fun sig hsig => hasSigned_iff.mpr (hsigned sig hsig)⟩
  · intro hnil hverify
    exact (verify_eq_ok_iff.mp hverify).keys_ne_nil hnil
  · intro m currentIndex u hmade hverify
    exact (verify_eq_ok_iff.mp hverify).signatures_ne_nil
      (GovernanceMessage.signatures_of_toVaa hmade)
  · intro hverify signatures hother hlist hverify'
    have haccepts := verify_eq_ok_iff.mp hverify
    have haccepts' := verify_eq_ok_iff.mp hverify'
    rcases hlist with hsame | hrepeats
    · exact hother
        (eq_of_pairwise_index haccepts'.pairwise_signatures haccepts.pairwise_signatures hsame)
    · exact hrepeats haccepts'.nodup_signatures

end GuardianSet

/-! ## Three places in another order -/

namespace Site

/-- An order as it is made. -/
def unsignedOrder : GovernanceMessage := ⟨1, 7, .undoneTransfer 15 [1, 2, 3]⟩

/-- The guardian signs at three places.  The same signatures are refused
    backwards, and with the first of them once more in front; a set without
    members refuses the message, and nobody has signed an order yet. -/
theorem three_places_have_one_order :
    repeatedGuardian.verify repeatedMessage = .ok () ∧
      repeatedGuardian.verify
        { repeatedMessage with signatures := repeatedMessage.signatures.reverse } ≠ .ok () ∧
      repeatedGuardian.verify
        { repeatedMessage with
          signatures := repeatedMessage.signatures.take 1 ++ repeatedMessage.signatures }
        ≠ .ok () ∧
      GuardianSet.verify ⟨0, []⟩ repeatedMessage ≠ .ok () ∧
      ∃ u, unsignedOrder.toVaa 0 = .ok u ∧ repeatedGuardian.verify u ≠ .ok () := by
  have hverify := GuardianSet.verify_eq_ok_iff.mpr accepts_repeatedMessage
  obtain ⟨-, -, horder, hlists, -⟩ :=
    GuardianSet.accepts_exactly_quorum_signed repeatedGuardian repeatedMessage
  refine ⟨hverify, ?_, ?_, ?_, ?_⟩
  · exact hlists hverify _ (by decide) (.inl fun sig => List.mem_reverse)
  · exact hlists hverify _ (by decide) (.inr (by decide))
  · exact (GuardianSet.accepts_exactly_quorum_signed ⟨0, []⟩ repeatedMessage).2.1 rfl
  · exact ⟨_, rfl, horder unsignedOrder 0 _ rfl⟩

end Site

end BridgeGuardian
