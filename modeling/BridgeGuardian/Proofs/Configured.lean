import BridgeGuardian.Configuration.Basic
import BridgeGuardian.Proofs.Quorum
import Mathlib.Control.Monad.Basic

/-! # Configured guardians — how many keys stand behind a quorum

    Verification counts places, and no place twice.  A key that is listed at
    several places signs at each of them, with one and the same signature, and
    an accepted configuration may list keys so.  Every listed repetition can
    take one signer from the quorum, and no more: the places that have not
    signed hold at most as many keys as they are. -/

namespace BridgeGuardian

/-- The addresses whose keys made the signatures of a message. -/
def Vaa.recovered (v : Vaa) : Finset Address :=
  (v.signatures.filterMap fun sig => (signerOf v.signingDigest sig.signature).toOption).toFinset

namespace GuardianSet

variable {s : GuardianSet} {v : Vaa}

/-- The address at a place. -/
def keyAt (s : GuardianSet) (place : Nat) : Address := s.keys.getD place default

/-- How many places hold an address that stands at another place as well,
    beyond the first of them. -/
def repetitions (s : GuardianSet) : Nat := s.keys.length - s.keys.toFinset.card

theorem keyAt_of_getElem? {place : Nat} {key : Address} (h : s.keys[place]? = some key) :
    s.keyAt place = key := by
  rw [keyAt, List.getD_eq_getElem?_getD, h, Option.getD_some]

theorem mem_keys_iff {key : Address} :
    key ∈ s.keys ↔ ∃ place < s.keys.length, s.keyAt place = key := by
  constructor
  · intro h
    obtain ⟨place, hplace⟩ := List.mem_iff_getElem?.mp h
    exact ⟨place, (List.getElem?_eq_some_iff.mp hplace).1, keyAt_of_getElem? hplace⟩
  · rintro ⟨place, hplace, rfl⟩
    rw [keyAt_of_getElem? (List.getElem?_eq_getElem hplace)]
    exact List.getElem_mem hplace

/-- The keys behind the signatures are those at the places that signed. -/
theorem Accepts.recovered_eq (h : s.Accepts v) : v.recovered = v.signers.image s.keyAt := by
  ext key
  rw [Vaa.recovered, Vaa.signers, List.mem_toFinset, List.mem_filterMap, Finset.mem_image]
  constructor
  · rintro ⟨sig, hsig, hkey⟩
    obtain ⟨member, hmember, hsigner⟩ := h.signed sig hsig
    rw [hsigner] at hkey
    cases hkey
    exact ⟨_, List.mem_toFinset.mpr (List.mem_map_of_mem hsig), keyAt_of_getElem? hmember⟩
  · rintro ⟨place, hplace, rfl⟩
    obtain ⟨sig, hsig, rfl⟩ := List.mem_map.mp (List.mem_toFinset.mp hplace)
    obtain ⟨member, hmember, hsigner⟩ := h.signed sig hsig
    refine ⟨sig, hsig, ?_⟩
    rw [hsigner, keyAt_of_getElem? hmember]
    rfl

/-- Some of the places hold all keys but for those of the other places. -/
theorem card_le_card_image {places : Finset Nat} (h : places ⊆ Finset.range s.keys.length) :
    places.card ≤ (places.image s.keyAt).card + s.repetitions := by
  let others := Finset.range s.keys.length \ places
  have hkeys : s.keys.toFinset ⊆ places.image s.keyAt ∪ others.image s.keyAt := by
    intro key hkey
    obtain ⟨place, hplace, rfl⟩ := mem_keys_iff.mp (List.mem_toFinset.mp hkey)
    rw [Finset.mem_union]
    by_cases hsome : place ∈ places
    · exact .inl (Finset.mem_image_of_mem _ hsome)
    · exact .inr (Finset.mem_image_of_mem _
        (Finset.mem_sdiff.mpr ⟨Finset.mem_range.mpr hplace, hsome⟩))
  have hothers : others.card + places.card = s.keys.length := by
    rw [Finset.card_sdiff_add_card_eq_card h, Finset.card_range]
  have hdistinct : s.keys.toFinset.card ≤ (places.image s.keyAt).card + others.card :=
    calc s.keys.toFinset.card
        ≤ (places.image s.keyAt ∪ others.image s.keyAt).card := Finset.card_le_card hkeys
      _ ≤ (places.image s.keyAt).card + (others.image s.keyAt).card := Finset.card_union_le _ _
      _ ≤ (places.image s.keyAt).card + others.card :=
          Nat.add_le_add_left Finset.card_image_le _
  have hlength : s.keys.toFinset.card ≤ s.keys.length := List.toFinset_card_le s.keys
  unfold repetitions
  omega

theorem repetitions_eq_zero (h : s.keys.Nodup) : s.repetitions = 0 := by
  rw [repetitions, List.toFinset_card_of_nodup h, Nat.sub_self]

/-- A quorum of places is a quorum of keys, up to the repetitions. -/
theorem Accepts.quorum_le_card_recovered (h : s.Accepts v) :
    s.quorum ≤ v.recovered.card + s.repetitions := by
  rw [h.recovered_eq]
  exact h.isSignedByQuorum.quorum_le.trans (card_le_card_image h.signers_subset)

end GuardianSet

namespace Configuration

/-- An accepted configuration has a guardian set. -/
theorem guardianSet_of_validate {c : Configuration} (h : c.validate = .ok ()) :
    ∃ g, c.guardian.guardianSet = .ok g := by
  cases hset : c.guardian.guardianSet with
  | ok g => exact ⟨g, rfl⟩
  | error fault =>
      unfold validate at h
      rw [hset] at h
      dsimp only at h
      -- whatever is checked before, a set that cannot be read is a fault
      repeat' split at h
      all_goals cases h

/-- What a quorum under an accepted configuration comes to.  The keys behind
    an accepted message are those at the places that signed it; they are as
    many as the quorum asks for, less at most one for every repetition in the
    list, and so they are enough if no key is listed twice. -/
theorem quorum_of_distinct_keys {c : Configuration} (h : c.validate = .ok ()) :
    ∃ g, c.guardian.guardianSet = .ok g ∧ ∀ v, g.verify v = .ok () →
      v.recovered = v.signers.image g.keyAt ∧
      g.quorum ≤ v.recovered.card + g.repetitions ∧
      (g.keys.Nodup → g.quorum ≤ v.recovered.card) := by
  obtain ⟨g, hset⟩ := guardianSet_of_validate h
  refine ⟨g, hset, ?_⟩
  intro v hverify
  have haccepts := GuardianSet.verify_eq_ok_iff.mp hverify
  have hquorum := haccepts.quorum_le_card_recovered
  refine ⟨haccepts.recovered_eq, hquorum, ?_⟩
  intro hnodup
  rwa [GuardianSet.repetitions_eq_zero hnodup, Nat.add_zero] at hquorum

end Configuration

/-! ## Four guardians, and one that is listed three times -/

namespace Site

/-- A configuration with these keys, and the defaults. -/
def listing (keys : List String) : Configuration where
  database := ⟨"db"⟩
  node := ⟨"http://n", none, [], 0, Configuration.Default.pollInterval,
    Configuration.Default.eventBatchSize, Configuration.Default.requestTimeout⟩
  recovery := ⟨255, [], Configuration.Default.backfillTimeout,
    Configuration.Default.vaaPollAttempts, Configuration.Default.vaaPollInterval⟩
  guardian := ⟨0, keys, Configuration.Default.queueSize, Configuration.Default.cacheSize,
    Configuration.Default.cacheTimeToLive⟩
  serving := ⟨Configuration.Default.address, Configuration.Default.adminAddress⟩

/-- The key of the one guardian as it is written. -/
def soleKey : String := "8572fd50e802852cd896132aea562a7e3fd55299"

/-- The keys of the four guardians. -/
def fourKeys : List String :=
  [soleKey, "0x2b5ad5c4795c026514f8317c7a215e218dccd6cf",
    "6813EB9362372EEF6200F3B1DBC3F819671CBA69", "1eff47bc3a10a45d4b230b5d10e37751fe6aa718"]

/-- Three of the four guardians signed, and three keys stand behind the
    signatures: those of the places that signed, as many as the quorum. -/
theorem quorum_of_four_has_three_keys :
    (listing fourKeys).validate = .ok () ∧
      (listing fourKeys).guardian.guardianSet = .ok fourGuardians ∧
      fourGuardians.verify quorumMessage = .ok () ∧ fourGuardians.quorum = 3 ∧
      quorumMessage.recovered = fourGuardians.keys.toFinset.erase (fourGuardians.keyAt 3) ∧
      fourGuardians.quorum ≤ quorumMessage.recovered.card := by
  have hvalid : (listing fourKeys).validate = .ok () := by decide +kernel
  have hset : (listing fourKeys).guardian.guardianSet = .ok fourGuardians := by decide +kernel
  have hverify := GuardianSet.verify_eq_ok_iff.mpr accepts_quorumMessage
  obtain ⟨g, hg, hquorum⟩ := Configuration.quorum_of_distinct_keys hvalid
  cases hset.symm.trans hg
  obtain ⟨hrecovered, -, hdistinct⟩ := hquorum quorumMessage hverify
  refine ⟨hvalid, hset, hverify, rfl, ?_, hdistinct (by decide)⟩
  rw [hrecovered]
  decide

/-- The guardian at three places. -/
def repeatedGuardian : GuardianSet :=
  ⟨0, soleGuardian.keys ++ soleGuardian.keys ++ soleGuardian.keys⟩

/-- The one signature, for each of the places. -/
def repeatedMessage : Vaa :=
  { signedMessage with
    signatures := signedMessage.signatures.flatMap fun sig =>
      [0, 1, 2].map fun place => { sig with index := place } }

theorem accepts_repeatedMessage : repeatedGuardian.Accepts repeatedMessage where
  index := rfl
  quorum := by decide
  increasing := by decide
  signed := by
    intro sig hsig
    obtain ⟨single, hsingle, hplaced⟩ := List.mem_flatMap.mp hsig
    obtain ⟨place, hplace, rfl⟩ := List.mem_map.mp hplaced
    -- the digest is about the body, so the signature that was made once is good again
    obtain ⟨key, hkey, hsigner⟩ :=
      (GuardianSet.verify_eq_ok_iff.mp verify_signedMessage).signed single hsingle
    have hfirst : single.index.toNat = 0 := by
      obtain rfl := List.mem_singleton.mp hsingle
      rfl
    have hsame : ∀ place ∈ ([0, 1, 2] : List UInt8),
        repeatedGuardian.keys[place.toNat]? = soleGuardian.keys[0]? := by
      simp only [List.forall_mem_cons, List.not_mem_nil, false_implies, implies_true, and_true]
      exact ⟨rfl, rfl, rfl⟩
    exact ⟨key, (hsame place hplace).trans (hfirst ▸ hkey), hsigner⟩

/-- Listed three times, the guardian is a quorum of three places with one key. -/
theorem repeated_guardian_is_a_quorum :
    (listing [soleKey, soleKey, soleKey]).validate = .ok () ∧
      (listing [soleKey, soleKey, soleKey]).guardian.guardianSet = .ok repeatedGuardian ∧
      repeatedGuardian.verify repeatedMessage = .ok () ∧
      repeatedMessage.recovered.card < repeatedGuardian.quorum := by
  refine ⟨by decide +kernel, by decide +kernel, ?_, ?_⟩
  · exact GuardianSet.verify_eq_ok_iff.mpr accepts_repeatedMessage
  · rw [accepts_repeatedMessage.recovered_eq]
    decide +kernel

end Site

end BridgeGuardian
