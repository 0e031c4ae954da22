import BridgeGuardian.Bytes.Hex

/-! # Coordinates — where a signed message comes from

    A message is named by the chain and the contract address that emitted
    it and by its sequence number there.  The coordinate has one textual
    form, `chain/address/sequence`, which is also the path under which
    peers serve the message. -/

namespace BridgeGuardian

/-- The bridge's number of a blockchain. -/
structure ChainId where
  id : UInt16
deriving DecidableEq, Repr

namespace ChainId

/-- Governance messages claim to come from this chain. -/
def governance : ChainId := ⟨1⟩

/-- The chain the guardian is local to unless it is told otherwise. -/
def alephium : ChainId := ⟨255⟩

/-- Narrow a wide number; chains have 16 bits. -/
def ofUInt32? (wide : UInt32) : Option ChainId :=
  if wide.toNat < UInt16.size then some ⟨wide.toUInt16⟩ else none

/-- The two octets of a chain number. -/
def toBytes (c : ChainId) : Bytes := bigEndian 2 c.id.toNat

/-- A chain is shown by its number, in decimal digits. -/
instance : ToString ChainId := ⟨fun c => toString c.id.toNat⟩

end ChainId

/-- Why a text is no block of 32 octets. -/
inductive Bytes32Fault
  | hex (fault : Hex.Fault)
  | length (found : Nat)
deriving DecidableEq, Repr

/-- The wording of a fault. -/
def Bytes32Fault.message : Bytes32Fault → String
  | .hex fault => fault.message
  | .length found => s!"expected 32 bytes, got {found}"

/-- Take octets as a block of 32. -/
def Bytes32.ofBytes (bs : Bytes) : Except Bytes32Fault Bytes32 :=
  match Block.ofBytes? 32 bs with
  | some b => .ok b
  | none => .error (.length bs.length)

/-- Read 32 octets in hexadecimal, behind at most one mark. -/
def Bytes32.read (text : String) : Except Bytes32Fault Bytes32 :=
  match Hex.decode (Hex.dropMark text) with
  | .ok bs => Bytes32.ofBytes bs
  | .error fault => .error (.hex fault)

/-- The lowercase digits of a block. -/
def Block.toHex {n : Nat} (b : Block n) : String := Hex.encode b.bytes

/-- The contract that emits a sequence of messages. -/
structure Emitter where
  chain : ChainId
  address : Bytes32
deriving DecidableEq, Repr

/-- The name of one message. -/
structure Coordinate where
  emitter : Emitter
  sequence : UInt64
deriving DecidableEq, Repr

namespace Coordinate

/-- The chain of the emitter. -/
def chain (c : Coordinate) : ChainId := c.emitter.chain

/-- The textual form. -/
def path (c : Coordinate) : String :=
  s!"{c.emitter.chain}/{c.emitter.address.toHex}/{c.sequence.toNat}"

/-- A coordinate is shown by its path. -/
instance : ToString Coordinate := ⟨path⟩

end Coordinate

end BridgeGuardian
