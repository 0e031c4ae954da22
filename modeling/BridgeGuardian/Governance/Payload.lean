import BridgeGuardian.Address
import BridgeGuardian.Bytes.Fields
import BridgeGuardian.Transfer

/-! # Governance payloads — what a governance message orders

    Every governance payload starts with a tag of 32 octets, the name of
    the contract module it addresses with zeros in front, and the number of
    the action.

    ```text
    Core        1   chain 2 | contract 32
    Core        2   zero 2 | new index 4 | count 1 | count × key 20
    any module  1   zero 2 | chain 2 | emitter 32
    any module  2   chain 2 | contract 32
    TokenBridge 3   sequence 8 | wrapper 32 | recipient 32 | amount 32 | fee 32
    ```

    Only the second form can be read back here: a guardian has to know the
    set that was announced. -/

namespace BridgeGuardian

/-- The name of a module with zeros in front; of a name longer than 32
    octets the last 32 remain. -/
def moduleTag (name : Bytes) : Bytes32 :=
  ⟨(List.replicate 32 0 ++ name).drop name.length, by
    rw [List.length_drop, List.length_append, List.length_replicate, Nat.add_sub_cancel]⟩

/-- The module that holds the bridge's core contract. -/
def coreTag : Bytes32 := moduleTag (utf8 "Core")

/-- The module that holds the token bridge contract. -/
def tokenBridgeTag : Bytes32 := moduleTag (utf8 "TokenBridge")

/-- The announcement of the next guardian set. -/
structure GuardianSetUpdate where
  keys : List Address
  newIndex : UInt32
deriving DecidableEq, Repr

/-- What a governance message orders. -/
inductive GovernancePayload
  /-- Use another set of guardians from now on. -/
  | guardianSetUpdate (update : GuardianSetUpdate)
  /-- Replace the core contract on a chain. -/
  | contractUpgrade (chain : ChainId) (newContract : Bytes32)
  /-- Trust the bridge contract of another chain. -/
  | registerChain (moduleName : String) (chain : ChainId) (emitter : Bytes32)
  /-- Replace a bridge contract on a chain. -/
  | upgradeBridge (moduleName : String) (targetChain : ChainId) (newContract : Bytes32)
  /-- Return the funds of a transfer that never completed. -/
  | undoneTransfer (sequence : UInt64) (wrapper recipient : Bytes32) (amount fee : Amount)
deriving DecidableEq, Repr

namespace GuardianSetUpdate

/-- The number of the action. -/
def action : UInt8 := 2

/-- Write the announcement; the number of keys is written in one octet,
    modulo 256. -/
def serialize (u : GuardianSetUpdate) : Bytes :=
  coreTag.bytes ++ [action] ++ bigEndian 2 0 ++ bigEndian 4 u.newIndex.toNat
    ++ [UInt8.ofNat u.keys.length] ++ u.keys.flatMap Block.bytes

/-- Read an announcement; the chain is not looked at, and neither is what
    follows the last key. -/
def reader : Reader GuardianSetUpdate := do
  let tag ← Reader.block 32 "module"
  if tag ≠ coreTag then
    Reader.refuse .foreignModule
  else
    let found ← Reader.uint8 "action"
    if found ≠ action then
      Reader.refuse (.action found)
    else
      let _chain ← Reader.uint16 "chain"
      let newIndex ← Reader.uint32 "new_index"
      let count ← Reader.uint8 "key count"
      let keys ← Reader.repeated (Reader.block 20 "guardian key") count.toNat
      return ⟨keys, newIndex⟩

/-- Read an announcement off a payload. -/
def decode (payload : Bytes) : Except Malformed GuardianSetUpdate := reader.read payload

/-- Read an announcement, as a service does it. -/
def decodeOrFail (payload : Bytes) : Except Failure GuardianSetUpdate :=
  (decode payload).mapError fun fault => .undecodable "guardian set update" fault.message

end GuardianSetUpdate

namespace GovernancePayload

/-- Write a payload. -/
def serialize : GovernancePayload → Bytes
  | .guardianSetUpdate update => update.serialize
  | .contractUpgrade chain newContract =>
      coreTag.bytes ++ [1] ++ chain.toBytes ++ newContract.bytes
  | .registerChain moduleName chain emitter =>
      (moduleTag (utf8 moduleName)).bytes ++ [1] ++ bigEndian 2 0 ++ chain.toBytes ++ emitter.bytes
  | .upgradeBridge moduleName targetChain newContract =>
      (moduleTag (utf8 moduleName)).bytes ++ [2] ++ targetChain.toBytes ++ newContract.bytes
  | .undoneTransfer sequence wrapper recipient amount fee =>
      tokenBridgeTag.bytes ++ [3] ++ bigEndian 8 sequence.toNat ++ wrapper.bytes
        ++ recipient.bytes ++ amount.toBytes ++ fee.toBytes

/-- The order that returns a transfer to its recipient, through the local
    wrapper of the transferred token. -/
def undo (t : Transfer) (wrapper : Bytes32) (sequence : UInt64) : GovernancePayload :=
  .undoneTransfer sequence wrapper t.recipient t.amount t.fee

end GovernancePayload

end BridgeGuardian
