import BridgeGuardian.Guardians
import Mathlib.Data.List.Chain

/-! # Verification — what a set of guardians accepts

    `verify` walks through the signatures of a message and compares each
    place with the one before.  What it accepts is said here without the
    walk: the message names the set, a quorum of signatures is there, their
    places increase, and every signature is made by the member at its
    place. -/

namespace BridgeGuardian.GuardianSet

variable {s : GuardianSet} {digest : Bytes32}

/-- The member at the place of a signature made it over the digest. -/
def HasSigned (s : GuardianSet) (digest : Bytes32) (sig : GuardianSignature) : Prop :=
  ∃ key, s.keys[sig.index.toNat]? = some key ∧ signerOf digest sig.signature = .ok key

/-- A signature of a member stays good when others come behind the members. -/
theorem HasSigned.append {sig : GuardianSignature} (h : s.HasSigned digest sig)
    (others : List Address) : HasSigned ⟨s.index, s.keys ++ others⟩ digest sig := by
  obtain ⟨key, hkey, hsigner⟩ := h
  have hplace := (List.getElem?_eq_some_iff.mp hkey).1
  exact ⟨key, (List.getElem?_append_left hplace).trans hkey, hsigner⟩

theorem checkSignature_eq_ok_iff {sig : GuardianSignature} :
    s.checkSignature digest sig = .ok () ↔ s.HasSigned digest sig := by
  unfold checkSignature HasSigned
  cases hkey : s.keys[sig.index.toNat]? with
  | none => simp
  | some expected =>
      cases hsigner : signerOf digest sig.signature with
      | error fault => simp
      | ok signer =>
          by_cases heq : signer = expected
          · simp [heq]
          · simp [heq]

/-- The walk succeeds when every place is behind the one before and every
    signature is its member's. -/
theorem checkSignatures_eq_ok_iff {last : Option UInt8} {sigs : List GuardianSignature} :
    s.checkSignatures digest last sigs = .ok () ↔
      (last.toList ++ sigs.map GuardianSignature.index).IsChain (· < ·) ∧
        ∀ sig ∈ sigs, s.HasSigned digest sig := by
  induction sigs generalizing last with
  | nil =>
      cases last with
      | none => simp [checkSignatures]
      | some l => simp [checkSignatures]
  | cons sig rest ih =>
      have hrest : (s.checkSignature digest sig >>= fun _ =>
            s.checkSignatures digest (some sig.index) rest) = .ok () ↔
          (sig.index :: rest.map GuardianSignature.index).IsChain (· < ·) ∧
            ∀ other ∈ sig :: rest, s.HasSigned digest other := by
        rw [List.forall_mem_cons, ← checkSignature_eq_ok_iff]
        cases hsig : s.checkSignature digest sig with
        | error fault =>
            constructor
            · intro h
              cases h
            · rintro ⟨-, h, -⟩
              cases h
        | ok value =>
            show s.checkSignatures digest (some sig.index) rest = .ok () ↔ _
            rw [ih]
            simp
      rw [checkSignatures]
      cases last with
      | none => exact hrest
      | some l =>
          by_cases hle : sig.index ≤ l
          · -- a place that is not behind the one before ends the walk
            have hnot : ¬ l < sig.index := UInt8.not_lt.mpr hle
            simp [hle, hnot]
          · have hlt : l < sig.index := UInt8.not_le.mp hle
            simp only [Option.any_some, hle, decide_false, Bool.false_eq_true, if_false,
              Option.toList_some, List.singleton_append, List.map_cons, List.isChain_cons_cons,
              hlt, true_and]
            exact hrest

/-- A message that a set accepts. -/
structure Accepts (s : GuardianSet) (v : Vaa) : Prop where
  index : v.guardianSetIndex = s.index
  quorum : s.quorum ≤ v.signatures.length
  increasing : (v.signatures.map GuardianSignature.index).Pairwise (· < ·)
  signed : ∀ sig ∈ v.signatures, s.HasSigned v.signingDigest sig

/-- Verification accepts these messages and no others. -/
theorem verify_eq_ok_iff {v : Vaa} : s.verify v = .ok () ↔ s.Accepts v := by
  have hwalk : s.checkSignatures v.signingDigest none v.signatures = .ok () ↔
      (v.signatures.map GuardianSignature.index).Pairwise (· < ·) ∧
        ∀ sig ∈ v.signatures, s.HasSigned v.signingDigest sig := by
    rw [checkSignatures_eq_ok_iff, ← List.isChain_iff_pairwise]
    rfl
  unfold verify
  by_cases hindex : v.guardianSetIndex = s.index
  · by_cases hfew : v.signatures.length < s.quorum
    · rw [if_neg (not_not_intro hindex), if_pos hfew]
      constructor
      · intro h
        cases h
      · intro h
        exact absurd hfew (Nat.not_lt.mpr h.quorum)
    · rw [if_neg (not_not_intro hindex), if_neg hfew, hwalk]
      constructor
      · rintro ⟨hincreasing, hsigned⟩
        exact ⟨hindex, Nat.not_lt.mp hfew, hincreasing, hsigned⟩
      · intro h
        exact ⟨h.increasing, h.signed⟩
  · rw [if_pos hindex]
    constructor
    · intro h
      cases h
    · intro h
      exact absurd h.index hindex

/-- A message is accepted if its signatures are good for what its digest
    comes to. -/
theorem verify_of_signingDigest {v : Vaa} (hdigest : v.signingDigest = digest)
    (hindex : v.guardianSetIndex = s.index) (hquorum : s.quorum ≤ v.signatures.length)
    (hwalk : s.checkSignatures digest none v.signatures = .ok ()) : s.verify v = .ok () := by
  rw [verify, if_neg (not_not_intro hindex), if_neg (Nat.not_lt.mpr hquorum), hdigest]
  exact hwalk

end BridgeGuardian.GuardianSet
