import BridgeGuardian.Address
import BridgeGuardian.Bytes.Fields
import BridgeGuardian.Coordinate
import BridgeGuardian.Failure

/-! # Signed messages — the envelope that guardians sign

    A message has a header (version, guardian set, signatures) and a body.
    Only the body is signed: guardians sign the double Keccak digest of it.

    ```text
    version 1 | set index 4 | count 1 | count × (index 1 | signature 65)
    timestamp 4 | nonce 4 | chain 2 | address 32 | sequence 8 | consistency 1 | payload
    ```

    The payload is open-ended, so every octet behind the fixed fields
    belongs to it, and `parse` inverts `serialize` as long as the number
    of signatures fits its octet. -/

namespace BridgeGuardian

/-- One guardian's signature and the place of its key in the set. -/
structure GuardianSignature where
  index : UInt8
  signature : SignatureBlock
deriving DecidableEq, Repr

/-- A signed message. -/
structure Vaa where
  version : UInt8
  guardianSetIndex : UInt32
  signatures : List GuardianSignature
  timestamp : UInt32
  nonce : UInt32
  coordinate : Coordinate
  consistencyLevel : UInt8
  payload : Bytes
deriving DecidableEq, Repr

namespace Vaa

/-- The only version in use. -/
def currentVersion : UInt8 := 1

/-- Read one signature. -/
def readSignature : Reader GuardianSignature := do
  let index ← Reader.uint8 "signature index"
  let signature ← Reader.block 65 "signature"
  return ⟨index, signature⟩

/-- Read a coordinate. -/
def readCoordinate : Reader Coordinate := do
  let chain ← Reader.uint16 "emitter_chain"
  let address ← Reader.block 32 "emitter_address"
  let sequence ← Reader.uint64 "sequence"
  return ⟨⟨⟨chain⟩, address⟩, sequence⟩

/-- Read an envelope; the payload takes all that is left. -/
def reader : Reader Vaa := do
  let version ← Reader.uint8 "version"
  if version ≠ currentVersion then
    Reader.refuse (.version version)
  else
    let guardianSetIndex ← Reader.uint32 "guardian_set_index"
    let count ← Reader.uint8 "signature count"
    let signatures ← Reader.repeated readSignature count.toNat
    let timestamp ← Reader.uint32 "timestamp"
    let nonce ← Reader.uint32 "nonce"
    let coordinate ← readCoordinate
    let consistencyLevel ← Reader.uint8 "consistency_level"
    let payload ← Reader.remainder
    return { version, guardianSetIndex, signatures, timestamp, nonce, coordinate,
             consistencyLevel, payload }

/-- Read a message off an octet string. -/
def parse (bytes : Bytes) : Except Malformed Vaa := reader.read bytes

/-- The signed part. -/
def body (v : Vaa) : Bytes :=
  bigEndian 4 v.timestamp.toNat ++ bigEndian 4 v.nonce.toNat
    ++ v.coordinate.emitter.chain.toBytes ++ v.coordinate.emitter.address.bytes
    ++ bigEndian 8 v.coordinate.sequence.toNat ++ [v.consistencyLevel] ++ v.payload

/-- Write one signature. -/
def writeSignature (s : GuardianSignature) : Bytes := s.index :: s.signature.bytes

/-- The unsigned part; the number of signatures is written in one octet,
    modulo 256. -/
def header (v : Vaa) : Bytes :=
  [v.version] ++ bigEndian 4 v.guardianSetIndex.toNat ++ [UInt8.ofNat v.signatures.length]
    ++ v.signatures.flatMap writeSignature

/-- Write a message. -/
def serialize (v : Vaa) : Bytes := v.header ++ v.body

/-- The digest shown to operators. -/
def digest (v : Vaa) : Bytes32 := Keccak.hash v.body

/-- The digest that guardians sign. -/
def signingDigest (v : Vaa) : Bytes32 := Keccak.doubleHash v.body

/-- Read a message, as a service does it. -/
def parseOrFail (bytes : Bytes) : Except Failure Vaa :=
  (parse bytes).mapError fun fault => .undecodable "vaa" fault.message

end Vaa

end BridgeGuardian
