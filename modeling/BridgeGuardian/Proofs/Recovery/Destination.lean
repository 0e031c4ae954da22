import BridgeGuardian.Proofs.Recovery.Stored
import Mathlib.Control.Monad.Basic

/-! # Destinations — a return does not ask where the transfer was bound

    A transfer names the chain of its recipient, and the local chain of a
    guardian is known, but the two are never compared: the local chain only
    says which registry holds the wrapper.  So a stored transfer toward any
    other chain is undone as well, unless its token has no wrapper or somebody
    has claimed it. -/

namespace BridgeGuardian

open Program

namespace Recovery

variable {s : Settings} {a a' : Archive} {request : UndoRequest} {e : Emitter}
  {t : Transcript Surroundings} {transfer : Transfer} {message : GovernanceMessage}

/-- Storage holds a transfer at the coordinate that is requested. -/
structure IsHeld (a : Archive) (request : UndoRequest) (e : Emitter) (transfer : Transfer) :
    Prop where
  emitter : Emitter.ofRequest request.emitterChain request.emitterAddress = .ok e
  stored : ∃ bytes v, a.vaa? ⟨e, request.sequence⟩ = some bytes ∧ Vaa.parse bytes = .ok v ∧
    Transfer.decode v.payload = .ok transfer

/-- A transfer that has been undone had a wrapper, and nobody had claimed it. -/
theorem IsHeld.of_undone (hheld : IsHeld a request e transfer)
    (hserved : Served (fun _ => False) a t a')
    (h : Yields (undoTransfer s request).run t (.ok message)) :
    (∃ wrapper, s.wrapper? a transfer e.chain = some wrapper) ∧
      a.undoStatus? e.chain request.sequence ≠ some .executing := by
  obtain ⟨bytes, v, hbytes, hv, htransfer⟩ := hheld.stored
  rcases undoTransfer_cases h with ⟨-, failure, hfailure⟩ | ⟨e', i, t₁, t₂, m, he, rfl, h₁, h₂⟩
  · cases hfailure
  rw [hheld.emitter] at he
  cases he
  obtain ⟨b, hserved, -⟩ := hserved.of_append
  obtain ⟨a₁, hprepared, hissued⟩ := hserved.of_append
  obtain ⟨rfl, hanswers⟩ := hprepared.of_onlyReads (h₁.onlyAsks (onlyAsks_prepare s _ _))
  obtain ⟨found, t₃, t₄, rfl, hloaded, hgathered⟩ := gathered_of_yields_prepare h₁
  -- the octets that are loaded are those that are stored
  obtain ⟨-, hfound⟩ := yields_loadVaa_of_stored hloaded fun answer hmem =>
    (hanswers (.vaa _) answer (List.mem_append_left _ hmem)).trans (congrArg Except.ok hbytes)
  cases hfound
  cases hgathered with
  | ready hv' htransfer' hwrapper =>
      cases hv.symm.trans hv'
      cases htransfer.symm.trans htransfer'
      have hregistered := wrapper?_of_yields hwrapper fun q answer hmem =>
        hanswers q answer (List.mem_append_right _ (List.mem_append_left _ hmem))
      cases h₂ with
      | won nonce =>
          obtain ⟨a₂, hclaim, -⟩ := hissued.of_cons
          exact ⟨⟨_, wrapperResult_eq_ok_iff.mp hregistered.symm⟩, hclaim.begins.1⟩

/-- A transfer that has a wrapper and that nobody has claimed can be undone. -/
theorem IsHeld.can_be_undone (hheld : IsHeld a request e transfer) {wrapper : Bytes32}
    (hwrapper : s.wrapper? a transfer e.chain = some wrapper)
    (hfree : a.undoStatus? e.chain request.sequence ≠ some .executing) :
    ∃ t a' message, Served (fun _ => False) a t a' ∧
      Yields (undoTransfer s request).run t (.ok message) := by
  obtain ⟨bytes, v, hbytes, hv, htransfer⟩ := hheld.stored
  obtain ⟨t, result, a', hyields, hserved, hgoing⟩ :=
    Site.exists_undisturbed (undoTransfer s request).run a
  obtain ⟨hundone, -⟩ := undone_of_yields hheld.emitter hbytes hserved hgoing hyields
  have hready : Verdict s a ⟨e, request.sequence⟩ false bytes (.ok ⟨v, transfer, wrapper⟩) :=
    .ready hv htransfer hwrapper rfl
  cases result with
  | ok message => exact ⟨t, a', message, hserved, hyields⟩
  | error failure =>
      cases hundone with
      | failed hfailed => cases hfailed.unique hready
      | claimed reason hother hbegun => exact absurd hbegun hfree

/-- When a guardian undoes a transfer that it holds only if the transfer was
    bound for the local chain: if it was, or if nothing can be undone there at
    all, because the token has no wrapper or the transfer is claimed. -/
theorem undone_only_toward_own_chain_iff (hheld : IsHeld a request e transfer) :
    (∀ t a' message, Served (fun _ => False) a t a' →
      Yields (undoTransfer s request).run t (.ok message) →
      transfer.recipientChain = s.localChain) ↔
    transfer.recipientChain = s.localChain ∨ s.wrapper? a transfer e.chain = none ∨
      a.undoStatus? e.chain request.sequence = some .executing := by
  constructor
  · intro honly
    cases hwrapper : s.wrapper? a transfer e.chain with
    | none => exact .inr (.inl rfl)
    | some wrapper =>
        by_cases hclaimed : a.undoStatus? e.chain request.sequence = some .executing
        · exact .inr (.inr hclaimed)
        · obtain ⟨t, a', message, hserved, hyields⟩ := hheld.can_be_undone hwrapper hclaimed
          exact .inl (honly t a' message hserved hyields)
  · intro h t a' message hserved hyields
    obtain ⟨⟨wrapper, hwrapper⟩, hfree⟩ := hheld.of_undone hserved hyields
    rcases h with hbound | hnone | hclaimed
    · exact hbound
    · rw [hwrapper] at hnone
      cases hnone
    · exact absurd hclaimed hfree

end Recovery

/-! ## A transfer between two other chains -/

namespace Site

open Recovery

/-- A transfer from chain two to chain four. -/
def strayTransfer : Transfer := { lostTransfer with recipientChain := ⟨4⟩ }

/-- The message that carries it. -/
def strayMessage : Vaa := { lostMessage with payload := strayTransfer.encode }

/-- The message is stored. -/
def strayArchive : Archive :=
  Archive.empty.storeVaa strayMessage.coordinate strayMessage.serialize

theorem isHeld_strayTransfer :
    IsHeld strayArchive lostCall.request strayMessage.coordinate.emitter strayTransfer where
  emitter := by decide +kernel
  stored := ⟨strayMessage.serialize, strayMessage, by decide +kernel, by decide +kernel,
    by decide +kernel⟩

/-- It has no wrapper, and is never undone. -/
theorem stray_transfer_without_wrapper :
    lostCall.settings.wrapper? strayArchive strayTransfer strayMessage.coordinate.chain = none ∧
      ∀ t a' message, Served (fun _ => False) strayArchive t a' →
        ¬ Yields (undoTransfer lostCall.settings lostCall.request).run t (.ok message) := by
  have hnone : lostCall.settings.wrapper? strayArchive strayTransfer
      strayMessage.coordinate.chain = none := by decide +kernel
  refine ⟨hnone, ?_⟩
  intro t a' message hserved hyields
  have hbound := (undone_only_toward_own_chain_iff isHeld_strayTransfer).mpr (.inr (.inl hnone))
    t a' message hserved hyields
  exact absurd hbound (by decide)

/-- The message and a wrapper of the token are stored. -/
def strayPayout : Archive :=
  { strayArchive with remoteWrappers := lostSite.archive.remoteWrappers }

/-- With a wrapper it is undone on a chain that it was never bound for. -/
theorem stray_transfer_is_undone :
    ∃ t a' message, IsHeld strayPayout lostCall.request strayMessage.coordinate.emitter
        strayTransfer ∧
      Served (fun _ => False) strayPayout t a' ∧
      Yields (undoTransfer lostCall.settings lostCall.request).run t (.ok message) ∧
      strayTransfer.recipientChain ≠ lostCall.settings.localChain := by
  have hheld : IsHeld strayPayout lostCall.request strayMessage.coordinate.emitter strayTransfer :=
    ⟨isHeld_strayTransfer.emitter, isHeld_strayTransfer.stored⟩
  have hwrapper : lostCall.settings.wrapper? strayPayout strayTransfer
      strayMessage.coordinate.chain = some ⟨List.replicate 32 3, rfl⟩ := by decide +kernel
  have hfree : strayPayout.undoStatus? strayMessage.coordinate.chain lostCall.request.sequence
      ≠ some .executing := by decide +kernel
  obtain ⟨t, a', message, hserved, hyields⟩ := hheld.can_be_undone hwrapper hfree
  exact ⟨t, a', message, hheld, hserved, hyields, by decide⟩

end Site

end BridgeGuardian
