import BridgeGuardian.Bytes.Hex
import BridgeGuardian.Crypto.Keccak
import BridgeGuardian.Crypto.Secp256k1

/-! # Guardian addresses — 20 octets that name a signing key

    An address is the tail of the Keccak digest of the public key.  It is
    shown with the mark `0x` and mixed case: a letter is uppercase when the
    digest of the lowercase spelling has a digit of at least eight at its
    position.  Reading accepts any case and at most one mark.

    `signerOf` names the key that made a signature; every failure behind
    the range check of the two numbers looks alike. -/

namespace BridgeGuardian

/-- The name of a guardian key. -/
abbrev Address := Block 20

/-- Two numbers of 32 octets and a recovery id. -/
abbrev SignatureBlock := Block 65

namespace Address

/-- The address of a public key given by its affine coordinates. -/
def ofKey (x y : Nat) : Address :=
  let digest := Keccak.hash (bigEndian 32 x ++ bigEndian 32 y)
  ⟨digest.bytes.drop 12, by simp [digest.length_eq]⟩

/-- A digit in uppercase when the digest digit beside it is at least
    eight. -/
def markCase (digits : List Char) (digest : List Char) : List Char :=
  digits.zipWith (fun c d => if 56 ≤ d.toNat then c.toUpper else c) digest

/-- The checksummed spelling. -/
def display (a : Address) : String :=
  let digits := Hex.encode a.bytes
  let digest := Hex.encode (Keccak.hash (utf8 digits)).bytes
  "0x" ++ String.ofList (markCase digits.toList digest.toList)

/-- Why a text is no address. -/
inductive Fault
  | oddLength
  | wrongLength
  | notDigit (octet : UInt8) (position : Nat)
deriving DecidableEq, Repr

/-- The wording of a fault: the offending octet is shown as the character
    with its number. -/
def Fault.message : Fault → String
  | .oddLength => "odd number of digits"
  | .wrongLength => "invalid string length"
  | .notDigit octet position =>
      s!"invalid character {Text.quoteChar (Char.ofNat octet.toNat)} at position {position}"

/-- Read an address: 40 hexadecimal digits behind at most one mark, which
    may be `0x` or `0X`. -/
def read (text : String) : Except Fault Address :=
  let octets := utf8 (Hex.dropMarkAnyCase text)
  if octets.length % 2 = 1 then .error .oddLength
  else if octets.length ≠ 40 then .error .wrongLength
  else match Hex.decodeOctets octets with
    | .error (.notDigit octet position) => .error (.notDigit octet position)
    | .error .oddLength => .error .oddLength
    | .ok bytes =>
        match Block.ofBytes? 20 bytes with
        | some a => .ok a
        | none => .error .wrongLength

/-- Read an address behind at most one mark `0x`, and forget why it is
    none. -/
def read? (text : String) : Option Address :=
  let digits := Hex.dropMark text
  if (utf8 digits).length ≠ 40 then none
  else match Hex.decode digits with
    | .ok bytes => Block.ofBytes? 20 bytes
    | .error _ => none

end Address

/-- Why a signature names no key. -/
inductive SignatureFault
  | malformed
  | recoveryId (id : UInt8)
  | unrecoverable
deriving DecidableEq, Repr

/-- The wording of a fault. -/
def SignatureFault.message : SignatureFault → String
  | .malformed => "malformed signature: signature error"
  | .recoveryId id => s!"invalid recovery id {id.toNat}"
  | .unrecoverable => "signature recovery failed: signature error"

/-- The address whose key signed the digest. -/
def signerOf (digest : Bytes32) (signature : SignatureBlock) : Except SignatureFault Address :=
  let r := ofBigEndian (signature.bytes.take 32)
  let s := ofBigEndian ((signature.bytes.drop 32).take 32)
  let id := signature.bytes.getD 64 0
  if r = 0 ∨ Secp256k1.n ≤ r ∨ s = 0 ∨ Secp256k1.n ≤ s then .error .malformed
  else if 3 < id.toNat then .error (.recoveryId id)
  else match Secp256k1.recover digest.toNat r s id.toNat with
    | some (x, y) => .ok (Address.ofKey x y)
    | none => .error .unrecoverable

end BridgeGuardian
