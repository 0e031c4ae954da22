import BridgeGuardian.Proofs.Guardians
import BridgeGuardian.Proofs.Site.Verified
import Mathlib.Data.Finset.Card
import Mathlib.Order.Interval.Finset.Nat

/-! # Quorums — two accepted messages share signers

    The places of an accepted message increase and lie within the set, so
    there are as many of them as signatures: at least a quorum, and at most
    the whole set.  Two sets of more than two thirds of the places have more
    than a third of them in common. -/

namespace BridgeGuardian

/-- The places of the guardians whose signatures a message carries. -/
def Vaa.signers (v : Vaa) : Finset Nat :=
  (v.signatures.map fun sig => sig.index.toNat).toFinset

namespace GuardianSet

variable {s : GuardianSet} {v w : Vaa}

theorem Accepts.nodup_places (h : s.Accepts v) :
    (v.signatures.map fun sig => sig.index.toNat).Nodup := by
  have hplaces : v.signatures.Pairwise fun sig sig' => sig.index.toNat ≠ sig'.index.toNat :=
    (List.pairwise_map.mp h.increasing).imp fun hlt => Nat.ne_of_lt (UInt8.lt_iff_toNat_lt.mp hlt)
  exact List.pairwise_map.mpr hplaces

/-- No guardian signs an accepted message twice. -/
theorem Accepts.card_signers (h : s.Accepts v) : v.signers.card = v.signatures.length := by
  rw [Vaa.signers, List.toFinset_card_of_nodup h.nodup_places, List.length_map]

/-- Only members sign an accepted message. -/
theorem Accepts.signers_subset (h : s.Accepts v) :
    v.signers ⊆ Finset.range s.keys.length := by
  intro place hplace
  obtain ⟨sig, hsig, rfl⟩ := List.mem_map.mp (List.mem_toFinset.mp hplace)
  obtain ⟨key, hkey, -⟩ := h.signed sig hsig
  exact Finset.mem_range.mpr (List.getElem?_eq_some_iff.mp hkey).1

/-- A quorum of the members of a set has signed a message: no fewer places
    than a quorum and no more than members, and every signature over its
    digest is made by the member at its place. -/
structure IsSignedByQuorum (s : GuardianSet) (v : Vaa) : Prop where
  quorum_le : s.quorum ≤ v.signers.card
  card_le : v.signers.card ≤ s.keys.length
  signed : ∀ sig ∈ v.signatures, s.HasSigned v.signingDigest sig

theorem Accepts.isSignedByQuorum (h : s.Accepts v) : s.IsSignedByQuorum v where
  quorum_le := by
    rw [h.card_signers]
    exact h.quorum
  card_le := by
    have hcard := Finset.card_le_card h.signers_subset
    rwa [Finset.card_range] at hcard
  signed := h.signed

/-- Two messages that a set accepts, whatever they say, are both signed by
    a quorum, and more than a third of all members signed both. -/
theorem quorums_share_a_third (hv : s.verify v = .ok ()) (hw : s.verify w = .ok ()) :
    s.IsSignedByQuorum v ∧ s.IsSignedByQuorum w ∧
      s.keys.length < 3 * (v.signers ∩ w.signers).card := by
  have hacceptsv := verify_eq_ok_iff.mp hv
  have hacceptsw := verify_eq_ok_iff.mp hw
  have hquorumv := hacceptsv.isSignedByQuorum
  have hquorumw := hacceptsw.isSignedByQuorum
  refine ⟨hquorumv, hquorumw, ?_⟩
  -- all signers together are members, so what is counted twice is in both
  have hunion : (v.signers ∪ w.signers).card ≤ s.keys.length := by
    have hcard := Finset.card_le_card
      (Finset.union_subset hacceptsv.signers_subset hacceptsw.signers_subset)
    rwa [Finset.card_range] at hcard
  have hcount := Finset.card_union_add_card_inter v.signers w.signers
  have hlev : s.keys.length * 2 / 3 + 1 ≤ v.signers.card := hquorumv.quorum_le
  have hlew : s.keys.length * 2 / 3 + 1 ≤ w.signers.card := hquorumw.quorum_le
  omega

end GuardianSet

/-! ## Two quorums of four guardians -/

namespace Site

/-- A signature at a place, by its two numbers and its recovery id. -/
def signatureAt (place : UInt8) (r s : Nat) (recoveryId : UInt8) : GuardianSignature :=
  ⟨place, ⟨bigEndian 32 r ++ bigEndian 32 s ++ [recoveryId], by simp⟩⟩

/-- The one guardian, and three others behind it. -/
def fourGuardians : GuardianSet :=
  ⟨0, soleGuardian.keys ++ [.ofNat 20 0x2b5ad5c4795c026514f8317c7a215e218dccd6cf,
    .ofNat 20 0x6813eb9362372eef6200f3b1dbc3f819671cba69,
    .ofNat 20 0x1eff47bc3a10a45d4b230b5d10e37751fe6aa718]⟩

/-- All but the last of them signed the message of the one guardian. -/
def quorumMessage : Vaa :=
  { signedMessage with
    signatures := signedMessage.signatures ++ [
      signatureAt 1 0x818039a27181b0e4369abf62b67b2ba4b1f93cd6574fb711b6e1c9c7870fa36e
        0x3244bfd1d609a089b3442706dc11e0a642e38c743297445e25e8e606c6409a50 0,
      signatureAt 2 0xb0b9745f7c195c07339fe5c097530cf0fb33b8ea43fc719e23c0469767e9c037
        0x37709a4bcaff70dfeabb565f19fd4baefd11f8c54ffbe53e87fdbc0c0495b79f 0] }

/-- All but the third of them signed another message for the coordinate. -/
def rivalMessage : Vaa :=
  { signedMessage with
    signatures := [
      signatureAt 0 0xee9f76d49fb3a38e3f56e72c3f6031001e58a65c64afe5faf8a5ed684f126009
        0x2db5696b5032ddf7cf452e73b1ce76cce7cfcfc7b31cd3f8d728504974f356ce 0,
      signatureAt 1 0x121187acfa2d6b215a26c91b037ed05f908ae99eec83d1cdb73498651dd12273
        0x28e264a8383731128597c9fc3e06453f60ff77882f7194f4dc5ad3ef4d8cce82 0,
      signatureAt 3 0x0e3c171299c2e3aedb72f4a78ba51dd1298e18375f6da47da0e254118a6a1838
        0x6b34f4508416e9c305c6446d3abb2680cd742c71e2b923f2c41fb456dd8cc9b5 0]
    payload := [4] }

theorem signingDigest_rivalMessage : rivalMessage.signingDigest
    = .ofNat 32 0x4000caaeda0d2fae83e8788b83d5a8652cf676455b9f16712b786e16e5af67b0 := by
  decide +kernel

theorem accepts_quorumMessage : fourGuardians.Accepts quorumMessage where
  index := rfl
  quorum := by decide
  increasing := by decide
  signed := by
    -- the digest is about the body, so the first signature is good here as well
    have hsole := (GuardianSet.verify_eq_ok_iff.mp verify_signedMessage).signed
    have hothers : fourGuardians.checkSignatures signedMessage.signingDigest none
        (quorumMessage.signatures.drop 1) = .ok () := by
      rw [signingDigest_signedMessage]
      decide +kernel
    intro sig hsig
    rcases List.mem_append.mp hsig with hfirst | hother
    · exact (hsole sig hfirst).append _
    · exact (GuardianSet.checkSignatures_eq_ok_iff.mp hothers).2 sig hother

theorem verify_rivalMessage : fourGuardians.verify rivalMessage = .ok () := by
  refine GuardianSet.verify_of_signingDigest signingDigest_rivalMessage rfl (by decide) ?_
  decide +kernel

/-- The messages differ, and so do the quorums that signed them: two of the
    four guardians signed both. -/
theorem rival_quorums_share_two_guardians :
    rivalMessage.coordinate = quorumMessage.coordinate ∧
      rivalMessage.body ≠ quorumMessage.body ∧
      fourGuardians.verify quorumMessage = .ok () ∧ fourGuardians.verify rivalMessage = .ok () ∧
      quorumMessage.signers = {0, 1, 2} ∧ rivalMessage.signers = {0, 1, 3} ∧
      fourGuardians.keys.length < 3 * (quorumMessage.signers ∩ rivalMessage.signers).card := by
  have hquorum := GuardianSet.verify_eq_ok_iff.mpr accepts_quorumMessage
  refine ⟨rfl, by decide +kernel, hquorum, verify_rivalMessage, by decide, by decide, ?_⟩
  exact (GuardianSet.quorums_share_a_third hquorum verify_rivalMessage).2.2

end Site

end BridgeGuardian
