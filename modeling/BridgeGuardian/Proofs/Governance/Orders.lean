import BridgeGuardian.Governance.Request
import BridgeGuardian.Proofs.Governance.Announcement
import BridgeGuardian.Proofs.Outcome
import Mathlib.Control.Monad.Basic

/-! # Orders that announce a guardian set — by accident or not

    Orders to upgrade the core contract and to register a chain carry the
    first action, whatever their module is called, so they never announce a
    set.  An order to upgrade a bridge contract carries the second one, as an
    announcement does: if its module is called like the core module, the
    octets of its contract are read as an index, a count of keys and keys,
    and 27 octets behind the count have room for one key at most. -/

namespace BridgeGuardian

/-! ## Orders -/

namespace GovernancePayload

open GuardianSetUpdate

/-- A payload with the tag of a module and the first action announces no
    set. -/
theorem not_isAnnouncement_of_action {tag : Bytes32} {found : UInt8} {rest : Bytes}
    (h : found ≠ action) : ¬ IsAnnouncement (tag.bytes ++ (found :: rest)) := by
  rintro ⟨-, haction, -⟩
  rw [List.getElem?_append_right (Nat.le_of_eq tag.length_eq), tag.length_eq] at haction
  exact h (Option.some.inj haction)

theorem not_isAnnouncement_contractUpgrade (chain : ChainId) (newContract : Bytes32) :
    ¬ IsAnnouncement (contractUpgrade chain newContract).serialize := by
  simp only [serialize, List.append_assoc]
  exact not_isAnnouncement_of_action (by decide)

theorem not_isAnnouncement_registerChain (moduleName : String) (chain : ChainId)
    (emitter : Bytes32) :
    ¬ IsAnnouncement (registerChain moduleName chain emitter).serialize := by
  simp only [serialize, List.append_assoc]
  exact not_isAnnouncement_of_action (by decide)

/-- The octet of the contract that falls on the count decides. -/
theorem isAnnouncement_upgradeBridge_iff {moduleName : String} {targetChain : ChainId}
    {newContract : Bytes32} :
    IsAnnouncement (upgradeBridge moduleName targetChain newContract).serialize ↔
      moduleTag (utf8 moduleName) = coreTag ∧
        ∃ count, newContract.bytes[4]? = some count ∧ count.toNat ≤ 1 := by
  have hserialize : (upgradeBridge moduleName targetChain newContract).serialize
      = (moduleTag (utf8 moduleName)).bytes
        ++ ([2] ++ (targetChain.toBytes ++ newContract.bytes)) := by
    simp only [serialize, List.append_assoc]
  have hchain : targetChain.toBytes.length = 2 := length_bigEndian 2 _
  have hlength : (upgradeBridge moduleName targetChain newContract).serialize.length = 67 := by
    rw [hserialize]
    simp only [List.length_append, Block.length_eq, List.length_singleton, hchain]
  have hbehind : ∀ i, (upgradeBridge moduleName targetChain newContract).serialize[32 + i]?
      = ([2] ++ (targetChain.toBytes ++ newContract.bytes))[i]? := by
    intro i
    rw [hserialize, List.getElem?_append_right (by rw [Block.length_eq]; omega),
      Block.length_eq, Nat.add_sub_cancel_left]
  have hcount : (upgradeBridge moduleName targetChain newContract).serialize[39]?
      = newContract.bytes[4]? := by
    rw [hbehind 7, List.getElem?_append_right (by decide),
      List.getElem?_append_right (by rw [hchain]; decide), hchain]
    rfl
  have htag : (upgradeBridge moduleName targetChain newContract).serialize.take 32
      = (moduleTag (utf8 moduleName)).bytes := by
    rw [hserialize, List.take_left' (Block.length_eq _)]
  unfold IsAnnouncement
  rw [htag, hcount, hlength, hbehind 0]
  constructor
  · rintro ⟨hcore, -, count, hfound, hroom⟩
    exact ⟨Block.ext hcore, count, hfound, by omega⟩
  · rintro ⟨hcore, count, hfound, hroom⟩
    exact ⟨congrArg Block.bytes hcore, rfl, count, hfound, by omega⟩

end GovernancePayload

/-! ## Requests -/

namespace GovernanceRequest

/-- The requests whose messages announce a guardian set, by what operators
    have put into them. -/
def Announces : GovernanceRequest → Prop
  | .guardianSet _ => True
  | .contractUpgrade _ _ | .registerChain _ _ _ => False
  | .upgradeBridge moduleName _ newContract =>
      (utf8 moduleName).dropWhile (· == 0) = utf8 "Core" ∧
        ∃ contract count, Hex.decode newContract = .ok contract ∧
          contract[4]? = some count ∧ count.toNat ≤ 1
  | .undoneTransfer _ payload => GuardianSetUpdate.IsAnnouncement payload

theorem length_of_readKeys {before keys : List Address} {guardians : List GuardianEntry}
    (h : readKeys before guardians = .ok keys) :
    keys.length = before.length + guardians.length := by
  induction guardians generalizing before with
  | nil =>
      cases h
      rfl
  | cons entry rest ih =>
      unfold readKeys at h
      cases hkey : Address.read? entry.pubkey with
      | none =>
          rw [hkey] at h
          cases h
      | some key =>
          rw [hkey] at h
          dsimp only at h
          cases hearlier : before.findIdx? (· == key) with
          | some earlier =>
              rw [hearlier] at h
              cases h
          | none =>
              rw [hearlier] at h
              rw [ih h, List.length_append, List.length_singleton, List.length_cons]
              omega

/-- An accepted set has at most nineteen guardians. -/
theorem length_le_of_checkGuardians {guardians : List GuardianEntry} {keys : List Address}
    (h : checkGuardians guardians = .ok keys) : keys.length ≤ maximalGuardians := by
  unfold checkGuardians at h
  by_cases hempty : guardians.isEmpty
  · rw [if_pos hempty] at h
    cases h
  · rw [if_neg hempty] at h
    by_cases hmany : maximalGuardians < guardians.length
    · rw [if_pos hmany] at h
      cases h
    · rw [if_neg hmany] at h
      rw [length_of_readKeys h, List.length_nil, Nat.zero_add]
      exact Nat.le_of_not_lt hmany

/-- A block is spelled by its octets. -/
theorem decode_of_readBlock {notHex length : RequestFault} {text : String} {b : Bytes32}
    (h : readBlock notHex length text = .ok b) : Hex.decode text = .ok b.bytes := by
  unfold readBlock at h
  cases hbytes : Hex.decode text with
  | error fault =>
      rw [hbytes] at h
      cases h
  | ok bytes =>
      rw [hbytes] at h
      dsimp only at h
      cases hblock : Block.ofBytes? 32 bytes with
      | none =>
          rw [hblock] at h
          cases h
      | some block =>
          rw [hblock] at h
          cases h
          rw [Block.ofBytes?_eq_some_iff.mp hblock]

/-- An accepted module name is kept, and fits a tag. -/
theorem of_checkModule {name accepted : String} (h : checkModule name = .ok accepted) :
    accepted = name ∧ (utf8 name).length ≤ 32 := by
  unfold checkModule at h
  by_cases hrefused : name.isEmpty ∨ 32 < name.utf8ByteSize
  · rw [if_pos hrefused] at h
    cases h
  · rw [if_neg hrefused] at h
    cases h
    obtain ⟨-, hfits⟩ := not_or.mp hrefused
    exact ⟨rfl, Nat.le_of_not_lt hfits⟩

variable {order : GovernancePayload} {chainId : UInt32} {text moduleName : String}

theorem of_guardianSetOrder {currentIndex : UInt32} {guardians : List GuardianEntry}
    (h : guardianSetOrder currentIndex guardians = .ok order) :
    ∃ update : GuardianSetUpdate, update.keys.length ≤ maximalGuardians ∧
      order = .guardianSetUpdate update := by
  obtain ⟨keys, hkeys, h⟩ := bind_eq_ok_iff.mp h
  obtain ⟨newIndex, -, h⟩ := bind_eq_ok_iff.mp h
  cases h
  exact ⟨⟨keys, newIndex⟩, length_le_of_checkGuardians hkeys, rfl⟩

theorem of_contractUpgradeOrder (h : contractUpgradeOrder chainId text = .ok order) :
    ∃ chain contract, order = .contractUpgrade chain contract := by
  obtain ⟨contract, -, h⟩ := bind_eq_ok_iff.mp h
  obtain ⟨chain, -, h⟩ := bind_eq_ok_iff.mp h
  cases h
  exact ⟨chain, contract, rfl⟩

theorem of_registerChainOrder (h : registerChainOrder moduleName chainId text = .ok order) :
    ∃ chain emitter, order = .registerChain moduleName chain emitter := by
  obtain ⟨chain, -, h⟩ := bind_eq_ok_iff.mp h
  obtain ⟨emitter, -, h⟩ := bind_eq_ok_iff.mp h
  obtain ⟨accepted, hmodule, horder⟩ := bind_eq_ok_iff.mp h
  obtain ⟨hname, -⟩ := of_checkModule hmodule
  rw [hname] at horder
  cases horder
  exact ⟨chain, emitter, rfl⟩

theorem of_upgradeBridgeOrder (h : upgradeBridgeOrder moduleName chainId text = .ok order) :
    ∃ chain contract, (utf8 moduleName).length ≤ 32 ∧ Hex.decode text = .ok contract.bytes ∧
      order = .upgradeBridge moduleName chain contract := by
  obtain ⟨chain, -, h⟩ := bind_eq_ok_iff.mp h
  obtain ⟨contract, hcontract, h⟩ := bind_eq_ok_iff.mp h
  obtain ⟨accepted, hmodule, horder⟩ := bind_eq_ok_iff.mp h
  obtain ⟨hname, hlength⟩ := of_checkModule hmodule
  rw [hname] at horder
  cases horder
  exact ⟨chain, contract, hlength, decode_of_readBlock hcontract, rfl⟩

end GovernanceRequest

namespace GovernanceMessage

open GovernanceRequest GuardianSetUpdate

/-- A message that gives an order has the order as its payload. -/
theorem payload_of_giving {m : GovernanceMessage} {currentIndex : UInt32}
    {made : Except RequestFault GovernancePayload} {v : Vaa}
    (h : m.giving currentIndex <$> made = .ok v) :
    ∃ order, made = .ok order ∧ v.payload = order.serialize := by
  cases made with
  | error fault => cases h
  | ok order =>
      cases h
      exact ⟨order, rfl, rfl⟩

/-- Which messages announce a guardian set.  Every request for a new set
    does, and an undone transfer does if the payload that it hands on does;
    no upgrade of the core contract and no registration of a chain ever
    does; and an upgrade of a bridge contract does exactly when its module is
    called `Core`, possibly behind zero octets, and the fifth octet of its
    contract is zero or one. -/
theorem announces_iff {m : GovernanceMessage} {currentIndex : UInt32} {v : Vaa}
    (h : m.toVaa currentIndex = .ok v) :
    (∃ u, GuardianSetUpdate.decode v.payload = .ok u) ↔ m.request.Announces := by
  rw [exists_decode_iff]
  obtain ⟨sequence, nonce, request⟩ := m
  cases request with
  | guardianSet guardians =>
      obtain ⟨order, horder, hpayload⟩ := payload_of_giving h
      obtain ⟨update, hfew, rfl⟩ := of_guardianSetOrder horder
      -- nineteen keys can be counted in one octet
      have hcount : update.keys.length < 256 := Nat.lt_of_le_of_lt hfew (by decide)
      rw [hpayload]
      exact iff_true_intro (exists_decode_iff.mp ⟨update, decode_serialize hcount⟩)
  | contractUpgrade chainId newContract =>
      obtain ⟨order, horder, hpayload⟩ := payload_of_giving h
      obtain ⟨chain, contract, rfl⟩ := of_contractUpgradeOrder horder
      rw [hpayload]
      exact iff_false_intro (GovernancePayload.not_isAnnouncement_contractUpgrade chain contract)
  | registerChain moduleName chainId emitterAddress =>
      obtain ⟨order, horder, hpayload⟩ := payload_of_giving h
      obtain ⟨chain, emitter, rfl⟩ := of_registerChainOrder horder
      rw [hpayload]
      exact iff_false_intro
        (GovernancePayload.not_isAnnouncement_registerChain moduleName chain emitter)
  | upgradeBridge moduleName targetChainId newContract =>
      obtain ⟨order, horder, hpayload⟩ := payload_of_giving h
      obtain ⟨chain, contract, hlength, hcontract, rfl⟩ := of_upgradeBridgeOrder horder
      -- the name makes the tag, and the contract stands where the count would
      have hcore : (utf8 "Core").dropWhile (· == 0) = utf8 "Core" := by decide
      rw [hpayload, GovernancePayload.isAnnouncement_upgradeBridge_iff, coreTag,
        moduleTag_eq_iff hlength (by decide), hcore]
      show _ ↔ _ ∧ ∃ found count, _
      rw [hcontract]
      constructor
      · rintro ⟨hname, count, hfound, hfew⟩
        exact ⟨hname, contract.bytes, count, rfl, hfound, hfew⟩
      · rintro ⟨hname, found, count, hfound, hcount, hfew⟩
        cases hfound
        exact ⟨hname, count, hcount, hfew⟩
  | undoneTransfer level payload =>
      -- the payload is handed on as it is
      cases h
      exact Iff.rfl

/-! ## An upgrade that reads as a guardian set -/

/-- An order to upgrade the bridge contract of a module called `Core`. -/
def usurpingUpgrade : GovernanceMessage where
  sequence := 1
  nonce := 7
  -- the contract spells the index 5, the count 1, a key, and seven octets that are left over
  request := .upgradeBridge "Core" 2
    ("00000005" ++ "01" ++ "aaaaaaaaaaaaaaaaaaaaaaaaaaaaaaaaaaaaaaaa" ++ "00000000000000")

/-- Its message is read as the announcement of a set with one guardian. -/
theorem core_named_upgrade_announces_a_set :
    ∃ v, usurpingUpgrade.toVaa 0 = .ok v ∧
      GuardianSetUpdate.decode v.payload = .ok ⟨[⟨List.replicate 20 0xaa, rfl⟩], 5⟩ := by
  let contract : Bytes32 := ⟨[0, 0, 0, 5, 1] ++ List.replicate 20 0xaa ++ List.replicate 7 0, rfl⟩
  refine ⟨usurpingUpgrade.giving 0 (.upgradeBridge "Core" ⟨2⟩ contract), ?_, ?_⟩
  · decide +kernel
  · decide +kernel

/-- An order to trust the bridge contract of another chain, in the name of the
    core module. -/
def coreRegistration : GovernanceMessage where
  sequence := 1
  nonce := 7
  request := .registerChain "Core" 2
    "0000000501aaaaaaaaaaaaaaaaaaaaaaaaaaaaaaaaaaaaaaaa00000000000000"

/-- The same octets announce nothing when they register a chain. -/
theorem core_named_registration_announces_nothing :
    ∃ v, coreRegistration.toVaa 0 = .ok v ∧
      ((∃ u, GuardianSetUpdate.decode v.payload = .ok u) ↔ coreRegistration.request.Announces) ∧
      ¬ ∃ u, GuardianSetUpdate.decode v.payload = .ok u := by
  let emitter : Bytes32 := ⟨[0, 0, 0, 5, 1] ++ List.replicate 20 0xaa ++ List.replicate 7 0, rfl⟩
  have hvaa : coreRegistration.toVaa 0
      = .ok (coreRegistration.giving 0 (.registerChain "Core" ⟨2⟩ emitter)) := by decide +kernel
  have hiff := announces_iff hvaa
  exact ⟨_, hvaa, hiff, hiff.mp⟩

end GovernanceMessage

end BridgeGuardian
