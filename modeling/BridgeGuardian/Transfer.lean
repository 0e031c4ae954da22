import BridgeGuardian.Bytes.Fields
import BridgeGuardian.Coordinate
import BridgeGuardian.Failure

/-! # Token transfers — the payload that moves tokens between chains

    ```text
    1 | amount 32 | token 32 | token chain 2 | recipient 32 | recipient chain 2 | fee 32
    ```

    Decoding ignores everything behind the fee. -/

namespace BridgeGuardian

/-- Token amounts have 256 bits. -/
abbrev Amount := BitVec 256

/-- The 32 octets of an amount. -/
def Amount.toBytes (a : Amount) : Bytes := bigEndian 32 a.toNat

/-- A transfer of tokens to another chain. -/
structure Transfer where
  amount : Amount
  token : Bytes32
  tokenChain : ChainId
  recipient : Bytes32
  recipientChain : ChainId
  fee : Amount
deriving DecidableEq, Repr

namespace Transfer

/-- The number that marks a payload as a transfer. -/
def payloadId : UInt8 := 1

/-- Read a transfer. -/
def reader : Reader Transfer := do
  let id ← Reader.uint8 "payload id"
  if id ≠ payloadId then
    Reader.refuse (.payloadId id)
  else
    let amount ← Reader.uint256 "amount"
    let token ← Reader.block 32 "token_id"
    let tokenChain ← Reader.uint16 "token_chain_id"
    let recipient ← Reader.block 32 "to_address"
    let recipientChain ← Reader.uint16 "to_chain_id"
    let fee ← Reader.uint256 "fee"
    return ⟨amount, token, ⟨tokenChain⟩, recipient, ⟨recipientChain⟩, fee⟩

/-- Read a transfer off a payload. -/
def decode (payload : Bytes) : Except Malformed Transfer := reader.read payload

/-- Write a transfer. -/
def encode (t : Transfer) : Bytes :=
  [payloadId] ++ t.amount.toBytes ++ t.token.bytes ++ t.tokenChain.toBytes
    ++ t.recipient.bytes ++ t.recipientChain.toBytes ++ t.fee.toBytes

/-- Read a transfer, as a service does it. -/
def decodeOrFail (payload : Bytes) : Except Failure Transfer :=
  (decode payload).mapError fun fault => .undecodable "transfer" fault.message

end Transfer

end BridgeGuardian
