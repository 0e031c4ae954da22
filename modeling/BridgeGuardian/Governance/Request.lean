import BridgeGuardian.Governance.Payload
import BridgeGuardian.Text.Quoted
import BridgeGuardian.Vaa

/-! # Governance requests — from an operator's wish to an unsigned message

    An operator describes the order in words: addresses in hexadecimal,
    wide chain numbers, module names.  `toVaa` checks the description in a
    fixed order, so that of several faults always the same one is
    reported, and builds the message that guardians are then asked to
    sign. -/

namespace BridgeGuardian

/-- A guardian as an operator describes it. -/
structure GuardianEntry where
  pubkey : String
  name : String
deriving DecidableEq, Repr

/-- An order as an operator describes it. -/
inductive GovernanceRequest
  | guardianSet (guardians : List GuardianEntry)
  | contractUpgrade (chainId : UInt32) (newContract : String)
  | registerChain (moduleName : String) (chainId : UInt32) (emitterAddress : String)
  | upgradeBridge (moduleName : String) (targetChainId : UInt32) (newContract : String)
  | undoneTransfer (consistencyLevel : UInt8) (payload : Bytes)
deriving DecidableEq, Repr

/-- An order together with the numbers of its message. -/
structure GovernanceMessage where
  sequence : UInt64
  nonce : UInt32
  request : GovernanceRequest
deriving DecidableEq, Repr

/-- What is wrong with a request. -/
inductive RequestFault
  | noGuardians
  | tooManyGuardians (count : Nat)
  | badKey (index : Nat) (name : String)
  | repeatedKey (index earlier : Nat) (name : String)
  | setIndexOverflow
  | contractNotHex
  | contractLength
  | chain
  | emitterNotHex
  | emitterLength
  | moduleName (name : String)
  | targetChain
  | bridgeNotHex
  | bridgeLength
deriving DecidableEq, Repr

/-- The greatest number of guardians in a set. -/
def maximalGuardians : Nat := 19

/-- The wording of a fault. -/
def RequestFault.message : RequestFault → String
  | .noGuardians => "empty guardian set specified"
  | .tooManyGuardians count =>
      s!"too many guardians - {count}, maximum is {maximalGuardians}"
  | .badKey index name => s!"invalid pubkey format at index {index} ({name})"
  | .repeatedKey index earlier name =>
      s!"duplicate pubkey at index {index} (duplicate of {earlier}): {name}"
  | .setIndexOverflow => "guardian set index overflow"
  | .contractNotHex => "invalid new contract address encoding (expected hex)"
  | .contractLength => "invalid new_contract address"
  | .chain => "invalid chain_id"
  | .emitterNotHex => "invalid emitter address encoding (expected hex)"
  | .emitterLength => "invalid emitter address (expected 32 bytes)"
  | .moduleName name => s!"invalid module name {Text.quote name} (expected 1 to 32 bytes)"
  | .targetChain => "invalid target_chain_id"
  | .bridgeNotHex => "invalid new contract address (expected hex)"
  | .bridgeLength => "invalid new contract address (expected 32 bytes)"

namespace GovernanceRequest

/-- Read the keys of the entries in order; `before` are the keys of the
    entries in front.  The first entry that is no key or repeats one is at
    fault. -/
def readKeys (before : List Address) : List GuardianEntry → Except RequestFault (List Address)
  | [] => .ok before
  | entry :: rest =>
      match Address.read? entry.pubkey with
      | none => .error (.badKey before.length entry.name)
      | some key =>
          match before.findIdx? (· == key) with
          | some earlier => .error (.repeatedKey before.length earlier entry.name)
          | none => readKeys (before ++ [key]) rest

/-- The keys of a set of one to nineteen different guardians. -/
def checkGuardians (guardians : List GuardianEntry) : Except RequestFault (List Address) :=
  if guardians.isEmpty then .error .noGuardians
  else if maximalGuardians < guardians.length then .error (.tooManyGuardians guardians.length)
  else readKeys [] guardians

/-- The index after an index. -/
def nextIndex (index : UInt32) : Except RequestFault UInt32 :=
  if index.toNat + 1 < UInt32.size then .ok (index + 1) else .error .setIndexOverflow

/-- Read a block of 32 octets; `notHex` and `length` are the faults. -/
def readBlock (notHex length : RequestFault) (text : String) : Except RequestFault Bytes32 :=
  match Hex.decode text with
  | .error _ => .error notHex
  | .ok bytes =>
      match Block.ofBytes? 32 bytes with
      | some b => .ok b
      | none => .error length

/-- Narrow a chain number. -/
def readChain (fault : RequestFault) (wide : UInt32) : Except RequestFault ChainId :=
  match ChainId.ofUInt32? wide with
  | some chain => .ok chain
  | none => .error fault

/-- Accept a module name of one to 32 octets. -/
def checkModule (name : String) : Except RequestFault String :=
  if name.isEmpty ∨ 32 < name.utf8ByteSize then .error (.moduleName name) else .ok name

/-- The order to use another set of guardians, the one after
    `currentIndex`. -/
def guardianSetOrder (currentIndex : UInt32) (guardians : List GuardianEntry) :
    Except RequestFault GovernancePayload := do
  let keys ← checkGuardians guardians
  let newIndex ← nextIndex currentIndex
  return .guardianSetUpdate ⟨keys, newIndex⟩

/-- The order to replace the core contract. -/
def contractUpgradeOrder (chainId : UInt32) (newContract : String) :
    Except RequestFault GovernancePayload := do
  let contract ← readBlock .contractNotHex .contractLength newContract
  let chain ← readChain .chain chainId
  return .contractUpgrade chain contract

/-- The order to trust the bridge contract of another chain. -/
def registerChainOrder (moduleName : String) (chainId : UInt32) (emitterAddress : String) :
    Except RequestFault GovernancePayload := do
  let chain ← readChain .chain chainId
  let emitter ← readBlock .emitterNotHex .emitterLength emitterAddress
  let moduleName ← checkModule moduleName
  return .registerChain moduleName chain emitter

/-- The order to replace a bridge contract. -/
def upgradeBridgeOrder (moduleName : String) (targetChainId : UInt32) (newContract : String) :
    Except RequestFault GovernancePayload := do
  let chain ← readChain .targetChain targetChainId
  let contract ← readBlock .bridgeNotHex .bridgeLength newContract
  let moduleName ← checkModule moduleName
  return .upgradeBridge moduleName chain contract

/-- The word for a kind of request. -/
def kind : GovernanceRequest → String
  | .guardianSet _ => "guardian_set"
  | .contractUpgrade _ _ => "contract_upgrade"
  | .registerChain _ _ _ => "bridge_register_chain"
  | .upgradeBridge _ _ _ => "bridge_contract_upgrade"
  | .undoneTransfer _ _ => "undone_transfer"

end GovernanceRequest

namespace GovernanceMessage

open GovernanceRequest

/-- The consistency level of governance messages. -/
def consistencyLevel : UInt8 := 32

/-- The emitter of governance messages. -/
def emitter : Emitter := ⟨.governance, Block.ofNat 32 4⟩

/-- An unsigned governance message. -/
def envelope (nonce : UInt32) (sequence : UInt64) (guardianSetIndex : UInt32) (payload : Bytes) :
    Vaa where
  version := Vaa.currentVersion
  guardianSetIndex
  signatures := []
  timestamp := 0
  nonce
  coordinate := ⟨emitter, sequence⟩
  consistencyLevel
  payload

/-- The unsigned message that gives an order. -/
def giving (m : GovernanceMessage) (currentIndex : UInt32) (order : GovernancePayload) : Vaa :=
  envelope m.nonce m.sequence currentIndex order.serialize

/-- The unsigned message for a request, under the current guardian set.
    Undoing a transfer takes its payload as it is and keeps the consistency
    level of the transfer. -/
def toVaa (m : GovernanceMessage) (currentIndex : UInt32) : Except RequestFault Vaa :=
  match m.request with
  | .guardianSet guardians => m.giving currentIndex <$> guardianSetOrder currentIndex guardians
  | .contractUpgrade chainId newContract =>
      m.giving currentIndex <$> contractUpgradeOrder chainId newContract
  | .registerChain moduleName chainId emitterAddress =>
      m.giving currentIndex <$> registerChainOrder moduleName chainId emitterAddress
  | .upgradeBridge moduleName targetChainId newContract =>
      m.giving currentIndex <$> upgradeBridgeOrder moduleName targetChainId newContract
  | .undoneTransfer level payload =>
      .ok { envelope m.nonce m.sequence currentIndex payload with consistencyLevel := level }

/-- The unsigned message for a request, as a service builds it. -/
def toVaaOrFail (m : GovernanceMessage) (currentIndex : UInt32) : Except Failure Vaa :=
  (m.toVaa currentIndex).mapError fun fault => .invalid fault.message

end GovernanceMessage

end BridgeGuardian
