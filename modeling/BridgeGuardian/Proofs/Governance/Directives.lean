import BridgeGuardian.Proofs.Governance.Orders
import BridgeGuardian.Proofs.Governance.Returns

/-! # Directives — no two orders share their octets

    Nothing in a payload names its form.  The tag is free text where an
    operator chooses the module, so an order about a bridge may carry the tag
    of the core module, and both the first and the second action stand for
    two forms each.  The length decides between these: 34 octets of arguments
    are an upgrade, and a list of keys never fills them, since 7 octets
    stand in front of its keys and 27 is no multiple of 20.

    `Directive` is an order by what is written of it, the module by its tag
    and not by its name; `octets_inj` tells directives apart by their octets,
    and `directive?` reads off a description what its message will order. -/

namespace BridgeGuardian

/-- An order by what its payload tells: the module by its tag, and a new set
    of guardians by the index of the set it replaces. -/
inductive Directive
  | useGuardians (keys : List Address) (currentIndex : UInt32)
  | upgradeCore (chain : ChainId) (newContract : Bytes32)
  | registerChain (tag : Bytes32) (chain : ChainId) (emitter : Bytes32)
  | upgradeBridge (tag : Bytes32) (targetChain : ChainId) (newContract : Bytes32)
  | giveBack (sequence : UInt64) (wrapper recipient : Bytes32) (amount fee : Amount)
deriving DecidableEq, Repr

/-- The five forms of directives. -/
inductive Directive.Form
  | useGuardians
  | upgradeCore
  | registerChain
  | upgradeBridge
  | giveBack
deriving DecidableEq, Repr

namespace Directive

/-! ## Telling directives apart -/

def form : Directive → Form
  | .useGuardians _ _ => .useGuardians
  | .upgradeCore _ _ => .upgradeCore
  | .registerChain _ _ _ => .registerChain
  | .upgradeBridge _ _ _ => .upgradeBridge
  | .giveBack _ _ _ _ _ => .giveBack

/-- The tag of the module that is addressed. -/
def tag : Directive → Bytes32
  | .useGuardians _ _ | .upgradeCore _ _ => coreTag
  | .registerChain tag _ _ | .upgradeBridge tag _ _ => tag
  | .giveBack _ _ _ _ _ => tokenBridgeTag

/-- The number of the action. -/
def action : Directive → UInt8
  | .upgradeCore _ _ | .registerChain _ _ _ => 1
  | .useGuardians _ _ | .upgradeBridge _ _ _ => 2
  | .giveBack _ _ _ _ _ => 3

/-- What stands behind the action. -/
def arguments : Directive → Bytes
  | .useGuardians keys currentIndex =>
      bigEndian 2 0 ++ (bigEndian 4 (currentIndex + 1).toNat
        ++ ([UInt8.ofNat keys.length] ++ keys.flatMap Block.bytes))
  | .upgradeCore chain newContract => chain.toBytes ++ newContract.bytes
  | .registerChain _ chain emitter => bigEndian 2 0 ++ (chain.toBytes ++ emitter.bytes)
  | .upgradeBridge _ targetChain newContract => targetChain.toBytes ++ newContract.bytes
  | .giveBack sequence wrapper recipient amount fee =>
      bigEndian 8 sequence.toNat ++ (wrapper.bytes ++ (recipient.bytes
        ++ (amount.toBytes ++ fee.toBytes)))

/-- The payload of a directive. -/
def octets (d : Directive) : Bytes := d.tag.bytes ++ ([d.action] ++ d.arguments)

/-- The form that an action and the length of its arguments stand for. -/
def formOf (action : UInt8) (length : Nat) : Form :=
  if action = 3 then .giveBack
  else if action = 1 then if length = 34 then .upgradeCore else .registerChain
  else if length = 34 then .upgradeBridge else .useGuardians

/-- The action and the length of its arguments show the form. -/
theorem formOf_eq (d : Directive) : formOf d.action d.arguments.length = d.form := by
  cases d with
  | useGuardians keys currentIndex =>
      have hlength : (useGuardians keys currentIndex).arguments.length = 7 + keys.length * 20 := by
        simp only [arguments, List.length_append, length_bigEndian, List.length_singleton,
          GuardianSetUpdate.isField_key.length_flatMap]
        omega
      have hkeys : (useGuardians keys currentIndex).arguments.length ≠ 34 := by omega
      simp only [formOf, if_neg hkeys]
      rfl
  | upgradeCore chain newContract =>
      have hlength : (upgradeCore chain newContract).arguments.length = 34 := by
        simp only [arguments, ChainId.toBytes, List.length_append, length_bigEndian,
          Block.length_eq]
      rw [hlength]
      rfl
  | registerChain tag chain emitter =>
      have hlength : (registerChain tag chain emitter).arguments.length = 36 := by
        simp only [arguments, ChainId.toBytes, List.length_append, length_bigEndian,
          Block.length_eq]
      rw [hlength]
      rfl
  | upgradeBridge tag targetChain newContract =>
      have hlength : (upgradeBridge tag targetChain newContract).arguments.length = 34 := by
        simp only [arguments, ChainId.toBytes, List.length_append, length_bigEndian,
          Block.length_eq]
      rw [hlength]
      rfl
  | giveBack sequence wrapper recipient amount fee => exact if_pos rfl

theorem toBytes_append_inj {chain other : ChainId} {rest rest' : Bytes}
    (h : chain.toBytes ++ rest = other.toBytes ++ rest') : chain = other ∧ rest = rest' := by
  obtain ⟨hid, hrest⟩ := (Reader.isField_uint16 "chain").write_append_inj h
  cases chain
  cases other
  cases hid
  exact ⟨rfl, hrest⟩

/-- Arguments of one form tell everything but the tag. -/
theorem eq_of_arguments_eq {a b : Directive} (hform : a.form = b.form) (htag : a.tag = b.tag)
    (h : a.arguments = b.arguments) : a = b := by
  have hblock := Reader.isField_block 32 "block"
  have hnumber := Reader.isField_uint256 "number"
  cases a with
  | useGuardians keys currentIndex =>
      cases b with
      | useGuardians keys' currentIndex' =>
          obtain ⟨hindex, hrest⟩ :=
            (Reader.isField_uint32 "new_index").write_append_inj (List.append_cancel_left h)
          obtain ⟨-, hkeys⟩ := List.cons.inj hrest
          rw [GuardianSetUpdate.isField_key.flatMap_inj (by decide) hkeys,
            UInt32.add_left_inj 1 |>.mp hindex]
      | _ => cases hform
  | upgradeCore chain newContract =>
      cases b with
      | upgradeCore chain' newContract' =>
          obtain ⟨hchain, hcontract⟩ := toBytes_append_inj h
          rw [hchain, Block.ext hcontract]
      | _ => cases hform
  | registerChain tag chain emitter =>
      cases b with
      | registerChain tag' chain' emitter' =>
          obtain ⟨hchain, hemitter⟩ := toBytes_append_inj (List.append_cancel_left h)
          rw [show tag = tag' from htag, hchain, Block.ext hemitter]
      | _ => cases hform
  | upgradeBridge tag targetChain newContract =>
      cases b with
      | upgradeBridge tag' targetChain' newContract' =>
          obtain ⟨hchain, hcontract⟩ := toBytes_append_inj h
          rw [show tag = tag' from htag, hchain, Block.ext hcontract]
      | _ => cases hform
  | giveBack sequence wrapper recipient amount fee =>
      cases b with
      | giveBack sequence' wrapper' recipient' amount' fee' =>
          obtain ⟨hsequence, h⟩ := (Reader.isField_uint64 "sequence").write_append_inj h
          obtain ⟨hwrapper, h⟩ := hblock.write_append_inj h
          obtain ⟨hrecipient, h⟩ := hblock.write_append_inj h
          obtain ⟨hamount, h⟩ := hnumber.write_append_inj h
          have hfee := hnumber.write_inj h
          rw [hsequence, hwrapper, hrecipient, hamount, hfee]
      | _ => cases hform

/-- The octets tell directives apart, of whatever forms they are. -/
theorem octets_inj {a b : Directive} : a.octets = b.octets ↔ a = b := by
  constructor
  · intro h
    obtain ⟨htag, h⟩ := (Reader.isField_block 32 "module").write_append_inj h
    obtain ⟨haction, harguments⟩ : a.action = b.action ∧ a.arguments = b.arguments :=
      List.cons.inj h
    have hform : a.form = b.form := by rw [← formOf_eq a, ← formOf_eq b, haction, harguments]
    exact eq_of_arguments_eq hform htag harguments
  · rintro rfl
    rfl

end Directive

/-! ## What a description orders -/

namespace GovernanceRequest

/-- A block of 32 octets as it is spelled. -/
def block? (text : String) : Option Bytes32 := do
  Block.ofBytes? 32 (← (Hex.decode text).toOption)

/-- What a description orders under the current set of guardians, if it
    spells addresses and chains.  A payload that is handed on says itself what
    it orders. -/
def directive? (currentIndex : UInt32) : GovernanceRequest → Option Directive
  | .guardianSet guardians => do
      return .useGuardians (← guardians.mapM fun entry => Address.read? entry.pubkey) currentIndex
  | .contractUpgrade chainId newContract => do
      return .upgradeCore (← ChainId.ofUInt32? chainId) (← block? newContract)
  | .registerChain moduleName chainId emitterAddress => do
      return .registerChain (moduleTag (utf8 moduleName)) (← ChainId.ofUInt32? chainId)
        (← block? emitterAddress)
  | .upgradeBridge moduleName targetChainId newContract => do
      return .upgradeBridge (moduleTag (utf8 moduleName)) (← ChainId.ofUInt32? targetChainId)
        (← block? newContract)
  | .undoneTransfer _ _ => none

theorem block?_of_readBlock {notHex length : RequestFault} {text : String} {b : Bytes32}
    (h : readBlock notHex length text = .ok b) : block? text = some b := by
  unfold block?
  rw [decode_of_readBlock h]
  exact Block.ofBytes?_bytes b

theorem ofUInt32?_of_readChain {fault : RequestFault} {wide : UInt32} {chain : ChainId}
    (h : readChain fault wide = .ok chain) : ChainId.ofUInt32? wide = some chain := by
  unfold readChain at h
  cases hchain : ChainId.ofUInt32? wide with
  | none =>
      rw [hchain] at h
      cases h
  | some narrow =>
      rw [hchain] at h
      cases h
      rfl

/-- Accepted keys are the keys of the entries, in their order. -/
theorem mapM_of_readKeys {before keys : List Address} {guardians : List GuardianEntry}
    (h : readKeys before guardians = .ok keys) :
    ∃ read, guardians.mapM (fun entry => Address.read? entry.pubkey) = some read ∧
      keys = before ++ read := by
  induction guardians generalizing before with
  | nil =>
      cases h
      exact ⟨[], rfl, (List.append_nil _).symm⟩
  | cons entry rest ih =>
      unfold readKeys at h
      cases hkey : Address.read? entry.pubkey with
      | none =>
          rw [hkey] at h
          cases h
      | some key =>
          rw [hkey] at h
          dsimp only at h
          cases hearlier : before.findIdx? (· == key) with
          | some earlier =>
              rw [hearlier] at h
              cases h
          | none =>
              rw [hearlier] at h
              obtain ⟨read, hread, rfl⟩ := ih h
              refine ⟨key :: read, ?_, by rw [List.append_assoc, List.singleton_append]⟩
              rw [List.mapM_cons, hkey, hread]
              rfl

theorem mapM_of_checkGuardians {guardians : List GuardianEntry} {keys : List Address}
    (h : checkGuardians guardians = .ok keys) :
    guardians.mapM (fun entry => Address.read? entry.pubkey) = some keys := by
  unfold checkGuardians at h
  by_cases hempty : guardians.isEmpty
  · rw [if_pos hempty] at h
    cases h
  · rw [if_neg hempty] at h
    by_cases hmany : maximalGuardians < guardians.length
    · rw [if_pos hmany] at h
      cases h
    · rw [if_neg hmany] at h
      obtain ⟨read, hread, rfl⟩ := mapM_of_readKeys h
      exact hread

/-- An index that has a successor is succeeded by it. -/
theorem eq_of_nextIndex {index next : UInt32} (h : nextIndex index = .ok next) :
    next = index + 1 := by
  unfold nextIndex at h
  by_cases hroom : index.toNat + 1 < UInt32.size
  · rw [if_pos hroom] at h
    cases h
    rfl
  · rw [if_neg hroom] at h
    cases h

variable {order : GovernancePayload} {chainId : UInt32} {text moduleName : String}
  (currentIndex : UInt32)

theorem directive?_of_guardianSetOrder {guardians : List GuardianEntry}
    (h : guardianSetOrder currentIndex guardians = .ok order) :
    ∃ d, directive? currentIndex (.guardianSet guardians) = some d ∧
      order.serialize = d.octets := by
  obtain ⟨keys, hkeys, h⟩ := bind_eq_ok_iff.mp h
  obtain ⟨newIndex, hindex, h⟩ := bind_eq_ok_iff.mp h
  cases h
  refine ⟨.useGuardians keys currentIndex, ?_, ?_⟩
  · rw [directive?, mapM_of_checkGuardians hkeys]
    rfl
  · rw [eq_of_nextIndex hindex]
    simp only [GovernancePayload.serialize, GuardianSetUpdate.serialize, List.append_assoc]
    rfl

theorem directive?_of_contractUpgradeOrder (h : contractUpgradeOrder chainId text = .ok order) :
    ∃ d, directive? currentIndex (.contractUpgrade chainId text) = some d ∧
      order.serialize = d.octets := by
  obtain ⟨contract, hcontract, h⟩ := bind_eq_ok_iff.mp h
  obtain ⟨chain, hchain, h⟩ := bind_eq_ok_iff.mp h
  cases h
  refine ⟨.upgradeCore chain contract, ?_, ?_⟩
  · rw [directive?, ofUInt32?_of_readChain hchain, block?_of_readBlock hcontract]
    rfl
  · simp only [GovernancePayload.serialize, List.append_assoc]
    rfl

theorem directive?_of_registerChainOrder
    (h : registerChainOrder moduleName chainId text = .ok order) :
    ∃ d, directive? currentIndex (.registerChain moduleName chainId text) = some d ∧
      order.serialize = d.octets := by
  obtain ⟨chain, hchain, h⟩ := bind_eq_ok_iff.mp h
  obtain ⟨emitter, hemitter, h⟩ := bind_eq_ok_iff.mp h
  obtain ⟨accepted, hmodule, horder⟩ := bind_eq_ok_iff.mp h
  obtain ⟨rfl, -⟩ := of_checkModule hmodule
  cases horder
  refine ⟨.registerChain (moduleTag (utf8 accepted)) chain emitter, ?_, ?_⟩
  · rw [directive?, ofUInt32?_of_readChain hchain, block?_of_readBlock hemitter]
    rfl
  · simp only [GovernancePayload.serialize, List.append_assoc]
    rfl

theorem directive?_of_upgradeBridgeOrder
    (h : upgradeBridgeOrder moduleName chainId text = .ok order) :
    ∃ d, directive? currentIndex (.upgradeBridge moduleName chainId text) = some d ∧
      order.serialize = d.octets := by
  obtain ⟨chain, hchain, h⟩ := bind_eq_ok_iff.mp h
  obtain ⟨contract, hcontract, h⟩ := bind_eq_ok_iff.mp h
  obtain ⟨accepted, hmodule, horder⟩ := bind_eq_ok_iff.mp h
  obtain ⟨rfl, -⟩ := of_checkModule hmodule
  cases horder
  refine ⟨.upgradeBridge (moduleTag (utf8 accepted)) chain contract, ?_, ?_⟩
  · rw [directive?, ofUInt32?_of_readChain hchain, block?_of_readBlock hcontract]
    rfl
  · simp only [GovernancePayload.serialize, List.append_assoc]
    rfl

end GovernanceRequest

/-! ## Where payloads come from -/

/-- What a payload is made from: a message under the current set of
    guardians, or a transfer, the wrapper of its token and its number. -/
inductive PayloadSource
  | message (m : GovernanceMessage) (currentIndex : UInt32)
  | transfer (t : Transfer) (wrapper : Bytes32) (sequence : UInt64)

namespace PayloadSource

open GovernanceRequest

/-- The payload that is made, if the message is accepted.  A message that
    hands on a payload makes none. -/
def payload? : PayloadSource → Option Bytes
  | .message ⟨_, _, .undoneTransfer _ _⟩ _ => none
  | .message m currentIndex => (m.toVaa currentIndex).toOption.map Vaa.payload
  | .transfer t wrapper sequence => some (GovernancePayload.undo t wrapper sequence).serialize

/-- What is ordered. -/
def directive? : PayloadSource → Option Directive
  | .message m currentIndex => m.request.directive? currentIndex
  | .transfer t wrapper sequence =>
      some (.giveBack sequence wrapper t.recipient t.amount t.fee)

/-- The payload of a message that gives an order is that order. -/
theorem serialize_of_giving {m : GovernanceMessage} {currentIndex : UInt32}
    {made : Except RequestFault GovernancePayload} {payload : Bytes}
    (h : (m.giving currentIndex <$> made).toOption.map Vaa.payload = some payload) :
    ∃ order, made = .ok order ∧ order.serialize = payload := by
  cases made with
  | error fault => cases h
  | ok order =>
      cases h
      exact ⟨order, rfl, rfl⟩

/-- What makes a payload orders something, and the payload says it. -/
theorem directive?_of_payload? {source : PayloadSource} {payload : Bytes}
    (h : source.payload? = some payload) :
    ∃ d, source.directive? = some d ∧ payload = d.octets := by
  cases source with
  | message m currentIndex =>
      obtain ⟨sequence, nonce, request⟩ := m
      cases request with
      | guardianSet guardians =>
          obtain ⟨order, horder, rfl⟩ := serialize_of_giving h
          exact directive?_of_guardianSetOrder currentIndex horder
      | contractUpgrade chainId newContract =>
          obtain ⟨order, horder, rfl⟩ := serialize_of_giving h
          exact directive?_of_contractUpgradeOrder currentIndex horder
      | registerChain moduleName chainId emitterAddress =>
          obtain ⟨order, horder, rfl⟩ := serialize_of_giving h
          exact directive?_of_registerChainOrder currentIndex horder
      | upgradeBridge moduleName targetChainId newContract =>
          obtain ⟨order, horder, rfl⟩ := serialize_of_giving h
          exact directive?_of_upgradeBridgeOrder currentIndex horder
      | undoneTransfer level payload => cases h
  | transfer t wrapper sequence =>
      cases h
      refine ⟨_, rfl, ?_⟩
      simp only [GovernancePayload.undo, GovernancePayload.serialize, List.append_assoc]
      rfl

/-- No two payloads agree by accident: whatever they are made from, they are
    the same octets exactly if the same is ordered. -/
theorem payloads_are_unambiguous {source other : PayloadSource} {payload payload' : Bytes}
    (h : source.payload? = some payload) (h' : other.payload? = some payload') :
    ∃ d d', source.directive? = some d ∧ other.directive? = some d' ∧
      (payload = payload' ↔ d = d') := by
  obtain ⟨d, hd, rfl⟩ := directive?_of_payload? h
  obtain ⟨d', hd', rfl⟩ := directive?_of_payload? h'
  exact ⟨d, d', hd, hd', Directive.octets_inj⟩

/-- A registration of an emitter under some name of its module. -/
def registration (moduleName : String) : PayloadSource :=
  .message ⟨1, 7, .registerChain moduleName 2
    "e0e0e0e0e0e0e0e0e0e0e0e0e0e0e0e0e0e0e0e0e0e0e0e0e0e0e0e0e0e0e0e0"⟩ 0

/-- A zero octet in front of a name changes neither the payload nor what it
    orders. -/
theorem zero_in_front_orders_the_same :
    ∃ payload, (registration "Core").payload? = some payload ∧
      (registration "\x00Core").payload? = some payload ∧
      (registration "Core").directive? = (registration "\x00Core").directive? := by
  let order : Directive := .registerChain coreTag ⟨2⟩ ⟨List.replicate 32 0xe0, rfl⟩
  have hplain : (registration "Core").payload? = some order.octets := by decide +kernel
  have hzero : (registration "\x00Core").payload? = some order.octets := by decide +kernel
  obtain ⟨d, d', hd, hd', hiff⟩ := payloads_are_unambiguous hplain hzero
  refine ⟨order.octets, hplain, hzero, ?_⟩
  rw [hd, hd', hiff.mp rfl]

end PayloadSource

end BridgeGuardian
