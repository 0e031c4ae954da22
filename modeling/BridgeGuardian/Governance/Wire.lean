import BridgeGuardian.Governance.Request
import BridgeGuardian.Json.Shape

/-! # Governance messages in JSON

    A message is a record of its numbers and its request; the request is
    tagged by its kind.  Payloads are written in hexadecimal, and any
    number of marks `0x` in front of the digits is dropped when they are
    read. -/

namespace BridgeGuardian

open Json (Shape)
open Json.Shape

namespace GuardianEntry

/-- The value of an entry. -/
def toJson (e : GuardianEntry) : Json :=
  .record [("pubkey", .text e.pubkey), ("name", .text e.name)]

/-- The shape of an entry. -/
def shape : Shape GuardianEntry :=
  record [slot "pubkey" text, slot "name" text] fun found => do
    return ⟨← found.required "pubkey" text, ← found.required "name" text⟩

end GuardianEntry

namespace GovernanceRequest

/-- The kinds of requests. -/
inductive Kind
  | guardianSet
  | contractUpgrade
  | registerChain
  | upgradeBridge
  | undoneTransfer
deriving DecidableEq, Repr

/-- The kind a tag names. -/
def Kind.ofTag? : String → Option Kind
  | "guardian_set" => some .guardianSet
  | "contract_upgrade" => some .contractUpgrade
  | "bridge_register_chain" => some .registerChain
  | "bridge_contract_upgrade" => some .upgradeBridge
  | "undone_transfer" => some .undoneTransfer
  | _ => none

/-- The fields behind the tag. -/
def fields : GovernanceRequest → List (String × Json)
  | .guardianSet guardians => [("guardians", .array (guardians.map GuardianEntry.toJson))]
  | .contractUpgrade chainId newContract =>
      [("chain_id", .nat chainId.toNat), ("new_contract", .text newContract)]
  | .registerChain moduleName chainId emitterAddress =>
      [("module", .text moduleName), ("chain_id", .nat chainId.toNat),
       ("emitter_address", .text emitterAddress)]
  | .upgradeBridge moduleName targetChainId newContract =>
      [("module", .text moduleName), ("target_chain_id", .nat targetChainId.toNat),
       ("new_contract", .text newContract)]
  | .undoneTransfer level payload =>
      [("consistency_level", .nat level.toNat), ("payload", .text (Hex.encode payload))]

/-- The value of a request. -/
def toJson (r : GovernanceRequest) : Json :=
  .record (("type", .text r.kind) :: r.fields)

/-- Octets in hexadecimal, behind any number of marks. -/
def octets : Shape Bytes :=
  refine text fun s => (Hex.decode (String.ofList (Hex.dropMarks s.toList))).toOption

/-- The shape of a request of a kind, without its tag. -/
def shapeOf : Kind → Shape GovernanceRequest
  | .guardianSet =>
      record [slot "guardians" (list GuardianEntry.shape)] fun found => do
        return .guardianSet (← found.required "guardians" (list GuardianEntry.shape))
  | .contractUpgrade =>
      record [slot "chain_id" uint32, slot "new_contract" text] fun found => do
        return .contractUpgrade (← found.required "chain_id" uint32)
          (← found.required "new_contract" text)
  | .registerChain =>
      record [slot "module" text, slot "chain_id" uint32, slot "emitter_address" text]
        fun found => do
          return .registerChain (← found.required "module" text)
            (← found.required "chain_id" uint32) (← found.required "emitter_address" text)
  | .upgradeBridge =>
      record [slot "module" text, slot "target_chain_id" uint32, slot "new_contract" text]
        fun found => do
          return .upgradeBridge (← found.required "module" text)
            (← found.required "target_chain_id" uint32) (← found.required "new_contract" text)
  | .undoneTransfer =>
      record [slot "consistency_level" uint8, slot "payload" octets] fun found => do
        return .undoneTransfer (← found.required "consistency_level" uint8)
          (← found.required "payload" octets)

/-- The shape of a request. -/
def shape : Shape GovernanceRequest := tagged "type" Kind.ofTag? shapeOf

end GovernanceRequest

namespace GovernanceMessage

/-- The value of a message. -/
def toJson (m : GovernanceMessage) : Json :=
  .record [("sequence", .nat m.sequence.toNat), ("nonce", .nat m.nonce.toNat),
    ("request", m.request.toJson)]

/-- The shape of a message. -/
def shape : Shape GovernanceMessage :=
  record [slot "sequence" uint64, slot "nonce" uint32, slot "request" GovernanceRequest.shape]
    fun found => do
      return ⟨← found.required "sequence" uint64, ← found.required "nonce" uint32,
        ← found.required "request" GovernanceRequest.shape⟩

end GovernanceMessage

end BridgeGuardian
