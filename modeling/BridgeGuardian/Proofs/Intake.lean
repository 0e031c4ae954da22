import BridgeGuardian.Intake
import BridgeGuardian.Proofs.Transcript
import BridgeGuardian.Transfer

/-! # Intake in proofs — the three ways to deal with a message

    A message is rejected, or dropped because it was stored a short while
    ago, or written: then it was read and a quorum signed it.  Only a
    message that has been written changes the worker's memory. -/

namespace BridgeGuardian

/-! ## Results under a service's wording -/

theorem Vaa.parseOrFail_eq_ok_iff {bytes : Bytes} {v : Vaa} :
    Vaa.parseOrFail bytes = .ok v ↔ Vaa.parse bytes = .ok v :=
  mapError_eq_ok_iff

theorem Transfer.decodeOrFail_eq_ok_iff {payload : Bytes} {t : Transfer} :
    Transfer.decodeOrFail payload = .ok t ↔ Transfer.decode payload = .ok t :=
  mapError_eq_ok_iff

theorem GuardianSet.verifyOrFail_eq_ok_iff {s : GuardianSet} {v : Vaa} :
    s.verifyOrFail v = .ok () ↔ s.verify v = .ok () :=
  mapError_eq_ok_iff

/-! ## Dealing with a message -/

theorem DigestCache.contains_empty (capacity timeToLive now : Nat) (digest : Bytes32) :
    (empty capacity timeToLive).contains now digest = false := rfl

namespace IntakeDesk

/-- What writing a message comes to, by what storage says. -/
def settle (d : IntakeDesk) (now : Nat) (v : Vaa) :
    Except StoreFault Unit → Except Failure Receipt × IntakeDesk
  | .error fault => (.error (.internal fault.message), d)
  | .ok () => (.ok .stored, { d with seen := (d.seen.insert now v.signingDigest).2 })

/-- Whatever storage says, the guardians stay the same. -/
theorem guardians_settle (d : IntakeDesk) (now : Nat) (v : Vaa)
    (answer : Except StoreFault Unit) : (d.settle now v answer).2.guardians = d.guardians := by
  cases answer with
  | error fault => rfl
  | ok value => rfl

section

variable {m : Type → Type} [Monad m] {d : IntakeDesk} {now : Nat}
variable {write : Coordinate → Bytes → m (Except StoreFault Unit)} {message : Bytes} {v : Vaa}
variable {failure : Failure}

theorem process_of_parse_error (hparse : Vaa.parseOrFail message = .error failure) :
    d.process now write message = pure (.error failure, d) := by
  rw [process, hparse]

/-- A message that was stored a short while ago is dropped. -/
theorem process_of_contains (hparse : Vaa.parse message = .ok v)
    (hseen : d.seen.contains now v.signingDigest = true) :
    d.process now write message = pure (.ok .duplicate, d) := by
  rw [process, Vaa.parseOrFail_eq_ok_iff.mpr hparse]
  exact if_pos hseen

theorem process_of_verify_error (hparse : Vaa.parse message = .ok v)
    (hnew : d.seen.contains now v.signingDigest = false)
    (hverify : d.guardians.verifyOrFail v = .error failure) :
    d.process now write message = pure (.error failure, d) := by
  rw [process, Vaa.parseOrFail_eq_ok_iff.mpr hparse]
  dsimp only
  rw [hnew, if_neg Bool.false_ne_true, hverify]

/-- A message that is new and verifies is written. -/
theorem process_of_verify (hparse : Vaa.parse message = .ok v)
    (hnew : d.seen.contains now v.signingDigest = false)
    (hverify : d.guardians.verify v = .ok ()) :
    d.process now write message
      = write v.coordinate message >>= fun answer => pure (d.settle now v answer) := by
  unfold process
  rw [Vaa.parseOrFail_eq_ok_iff.mpr hparse]
  dsimp only
  rw [hnew, if_neg Bool.false_ne_true, GuardianSet.verifyOrFail_eq_ok_iff.mpr hverify]
  refine congrArg (write v.coordinate message >>= ·) (funext fun answer => ?_)
  cases answer with
  | error fault => rfl
  | ok written => rfl

end

/-- Everything that dealing with a message can be. -/
theorem process_cases {m : Type → Type} [Monad m] (d : IntakeDesk) (now : Nat)
    (write : Coordinate → Bytes → m (Except StoreFault Unit)) (message : Bytes) :
    (∃ failure, d.process now write message = pure (.error failure, d)) ∨
    (∃ v, Vaa.parse message = .ok v ∧ d.seen.contains now v.signingDigest = true ∧
      d.process now write message = pure (.ok .duplicate, d)) ∨
    ∃ v, Vaa.parse message = .ok v ∧ d.seen.contains now v.signingDigest = false ∧
      d.guardians.verify v = .ok () ∧
      d.process now write message
        = write v.coordinate message >>= fun answer => pure (d.settle now v answer) := by
  cases hparse : Vaa.parseOrFail message with
  | error failure => exact .inl ⟨failure, process_of_parse_error hparse⟩
  | ok v =>
      have hv : Vaa.parse message = .ok v := Vaa.parseOrFail_eq_ok_iff.mp hparse
      cases hseen : d.seen.contains now v.signingDigest with
      | true => exact .inr (.inl ⟨v, hv, hseen, process_of_contains hv hseen⟩)
      | false =>
          cases hverify : d.guardians.verifyOrFail v with
          | error failure => exact .inl ⟨failure, process_of_verify_error hv hseen hverify⟩
          | ok value =>
              have hsigned : d.guardians.verify v = .ok () :=
                GuardianSet.verifyOrFail_eq_ok_iff.mp hverify
              exact .inr (.inr ⟨v, hv, hseen, hsigned, process_of_verify hv hseen hsigned⟩)

end IntakeDesk

end BridgeGuardian
