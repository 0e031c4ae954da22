import BridgeGuardian.Bytes

/-! # Fields — reading a record off an octet string, field by field

    A reader moves a cursor over the octets.  Each field has a name and a
    width; when fewer octets remain than the width asks for, the fault
    tells the field, its width, the offset at which it starts and how many
    octets are left.  Nothing is ever padded. -/

namespace BridgeGuardian

/-- Why octets are not the record they are read as. -/
inductive Malformed
  | truncated (field : String) (width offset remaining : Nat)
  | version (found : UInt8)
  | payloadId (found : UInt8)
  | foreignModule
  | action (found : UInt8)
deriving DecidableEq, Repr

/-- The wording of a fault. -/
def Malformed.message : Malformed → String
  | .truncated field width offset remaining =>
      s!"truncated at {field}: need {width} bytes at offset {offset}, have {remaining}"
  | .version found => s!"unsupported VAA version: {found.toNat}"
  | .payloadId found => s!"invalid payload id {found.toNat}, expect transfer vaa (1)"
  | .foreignModule => "module is not Core"
  | .action found => s!"unexpected action {found.toNat}"

/-- A place in an octet string: how many octets are behind it and which
    are ahead. -/
structure Cursor where
  offset : Nat
  rest : Bytes
deriving DecidableEq, Repr

/-- A step that reads from the cursor or finds the record malformed. -/
abbrev Reader := StateT Cursor (Except Malformed)

namespace Reader

/-- Read a field of a fixed width. -/
def block (width : Nat) (field : String) : Reader (Block width) := fun c =>
  if h : width ≤ c.rest.length then
    .ok (⟨c.rest.take width, by simp [h]⟩, ⟨c.offset + width, c.rest.drop width⟩)
  else .error (.truncated field width c.offset c.rest.length)

/-- Read a number of a fixed width. -/
def number (width : Nat) (field : String) : Reader Nat := do
  return (← block width field).toNat

/-- Read an octet. -/
def uint8 (field : String) : Reader UInt8 := do
  return UInt8.ofNat (← number 1 field)

/-- Read a number of two octets. -/
def uint16 (field : String) : Reader UInt16 := do
  return UInt16.ofNat (← number 2 field)

/-- Read a number of four octets. -/
def uint32 (field : String) : Reader UInt32 := do
  return UInt32.ofNat (← number 4 field)

/-- Read a number of eight octets. -/
def uint64 (field : String) : Reader UInt64 := do
  return UInt64.ofNat (← number 8 field)

/-- Read a number of 32 octets. -/
def uint256 (field : String) : Reader (BitVec 256) := do
  return BitVec.ofNat 256 (← number 32 field)

/-- Everything ahead. -/
def remainder : Reader Bytes := fun c => .ok (c.rest, ⟨c.offset + c.rest.length, []⟩)

/-- Find the record malformed. -/
def refuse {α : Type} (fault : Malformed) : Reader α := fun _ => .error fault

/-- Read the same thing `count` times. -/
def repeated {α : Type} (item : Reader α) : (count : Nat) → Reader (List α)
  | 0 => pure []
  | count + 1 => do
      let first ← item
      let others ← repeated item count
      return first :: others

/-- Read a record from its first octet; what is left over is ignored. -/
def read {α : Type} (reader : Reader α) (bytes : Bytes) : Except Malformed α :=
  (reader ⟨0, bytes⟩).map Prod.fst

end Reader

end BridgeGuardian
