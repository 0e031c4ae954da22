import BridgeGuardian.Vaa

/-! # Guardians — when enough of them have signed

    A guardian set is the ordered list of its members' addresses.  A
    message is accepted under a set when it names the set, carries at least
    a quorum of signatures, in strictly ascending order of the members'
    places, and every signature is made by the member at its place.  The
    quorum is more than two thirds of the set. -/

namespace BridgeGuardian

/-- The members that may sign, in order, and the index of the set. -/
structure GuardianSet where
  index : UInt32
  keys : List Address
deriving DecidableEq, Repr

/-- The least number of signatures that counts as agreement. -/
def GuardianSet.quorum (s : GuardianSet) : Nat := s.keys.length * 2 / 3 + 1

/-- Why a message is not accepted under a set. -/
inductive VerificationFault
  | setIndex (found current : UInt32)
  | tooFew (found quorum : Nat)
  | order
  | outOfRange (index : UInt8)
  | signature (fault : SignatureFault)
  | signer (index : UInt8) (found expected : Address)
deriving DecidableEq, Repr

/-- The wording of a fault. -/
def VerificationFault.message : VerificationFault → String
  | .setIndex found current =>
      s!"guardian set index {found.toNat} does not match current set {current.toNat}"
  | .tooFew found quorum => s!"{found} signatures, quorum is {quorum}"
  | .order => "guardian indices must be strictly increasing"
  | .outOfRange index => s!"guardian index {index.toNat} out of range"
  | .signature fault => fault.message
  | .signer index found expected =>
      s!"signature {index.toNat} recovers to {found.display}, expected {expected.display}"

namespace GuardianSet

/-- Check one signature of a digest against the member at its place. -/
def checkSignature (s : GuardianSet) (digest : Bytes32) (sig : GuardianSignature) :
    Except VerificationFault Unit :=
  match s.keys[sig.index.toNat]? with
  | none => .error (.outOfRange sig.index)
  | some expected =>
      match signerOf digest sig.signature with
      | .error fault => .error (.signature fault)
      | .ok signer =>
          if signer = expected then .ok () else .error (.signer sig.index signer expected)

/-- Check signatures in order; `last` is the place before them. -/
def checkSignatures (s : GuardianSet) (digest : Bytes32) :
    (last : Option UInt8) → List GuardianSignature → Except VerificationFault Unit
  | _, [] => .ok ()
  | last, sig :: rest =>
      if last.any fun l => sig.index ≤ l then .error .order
      else do
        s.checkSignature digest sig
        checkSignatures s digest (some sig.index) rest

/-- Check that a quorum of members signed a message. -/
def verify (s : GuardianSet) (v : Vaa) : Except VerificationFault Unit :=
  if v.guardianSetIndex ≠ s.index then .error (.setIndex v.guardianSetIndex s.index)
  else if v.signatures.length < s.quorum then .error (.tooFew v.signatures.length s.quorum)
  else s.checkSignatures v.signingDigest none v.signatures

/-- Check a message, as a service does it. -/
def verifyOrFail (s : GuardianSet) (v : Vaa) : Except Failure Unit :=
  (s.verify v).mapError fun fault => .invalid fault.message

end GuardianSet

end BridgeGuardian
