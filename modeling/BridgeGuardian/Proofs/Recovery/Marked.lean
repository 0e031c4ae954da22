import BridgeGuardian.Proofs.Site.Served

/-! # Marked transfers — a request marks its transfer exactly if it succeeds

    The claim is the one query by which a request can change what is to be
    undone, and a message is built only behind a claim that succeeds.  So a
    request that fails leaves every status and every list as they were, and
    can be made again: only somebody else's claim stands in its way. -/

namespace BridgeGuardian

open Program

/-- The failure of work that somebody is doing already. -/
def Failure.IsConflict : Failure → Prop
  | .conflict _ => True
  | _ => False

/-- A chain number that is not accepted makes the request invalid. -/
theorem ChainId.invalid_of_ofRequest {field : String} {wide : UInt32} {failure : Failure}
    (h : ChainId.ofRequest field wide = .error failure) : ∃ reason, failure = .invalid reason := by
  unfold ChainId.ofRequest at h
  split at h
  · cases h
  · cases h
    exact ⟨_, rfl⟩

/-- An emitter that is not accepted makes the request invalid. -/
theorem Emitter.invalid_of_ofRequest {chain : UInt32} {address : String} {failure : Failure}
    (h : ofRequest chain address = .error failure) : ∃ reason, failure = .invalid reason := by
  unfold ofRequest at h
  cases hchain : ChainId.ofRequest "emitter_chain" chain with
  | error objection =>
      rw [hchain] at h
      cases h
      exact ChainId.invalid_of_ofRequest hchain
  | ok c =>
      rw [hchain] at h
      cases haddress : Bytes32.read address with
      | error fault =>
          simp only [haddress] at h
          cases h
          exact ⟨_, rfl⟩
      | ok a =>
          simp only [haddress] at h
          cases h

/-! ## Preparing -/

namespace Backfill

theorem failsOnly_tryPeers (c : Coordinate) (deadline : Nat) (peers : List String) :
    Work.FailsOnly (¬ ·.IsConflict) (tryPeers c deadline peers) := by
  induction peers with
  | nil => exact Work.failsOnly_pure _
  | cons peer others ih =>
      refine Work.failsOnly_bind (Work.failsOnly_lift _) fun reply => ?_
      cases PeerVerdict.ofReply c reply with
      | serving message =>
          refine Work.failsOnly_bind (Work.failsOnly_lift _) fun _ => ?_
          refine Work.failsOnly_bind ?_ fun _ => Work.failsOnly_pure _
          refine Work.failsOnly_bind (Work.failsOnly_lift _) fun answer => ?_
          cases answer with
          | accepted => exact Work.failsOnly_pure _
          | closed => exact Work.failsOnly_throw id
          | cancelled => exact Work.failsOnly_throw id
      | missing => exact Work.failsOnly_bind (Work.failsOnly_lift _) fun _ => ih
      | failing => exact Work.failsOnly_bind (Work.failsOnly_lift _) fun _ => ih
      | violating reason =>
          exact Work.failsOnly_bind (Work.failsOnly_lift _) fun _ => Work.failsOnly_throw id
      | cancelled => exact Work.failsOnly_throw id

theorem failsOnly_fetch (timeout : UInt64) (peers : List String) (c : Coordinate) :
    Work.FailsOnly (¬ ·.IsConflict) (fetch timeout peers c) := by
  refine Work.failsOnly_bind (Work.failsOnly_lift _) fun order => ?_
  exact Work.failsOnly_bind (Work.failsOnly_lift _) fun start => failsOnly_tryPeers c _ order

end Backfill

namespace Recovery

variable {s : Settings} {peers : List String} {c : Coordinate} {t : Transcript Surroundings}

theorem failsOnly_loadVaa (s : Settings) (peers : List String) (c : Coordinate) :
    Work.FailsOnly (¬ ·.IsConflict) (loadVaa s peers c) := by
  refine Work.failsOnly_bind (Work.failsOnly_store fun fault => id) fun found => ?_
  match found with
  | some bytes => exact Work.failsOnly_pure _
  | none =>
      refine Work.failsOnly_bind (Backfill.failsOnly_fetch _ peers c) fun isFound => ?_
      cases isFound with
      | false => exact Work.failsOnly_throw id
      | true =>
          have hcheck : Work.FailsOnly (¬ ·.IsConflict) (Work.store (.vaa c)) :=
            Work.failsOnly_store fun fault => id
          intro t failure h
          rcases PollPolicy.yields_pollFor_error h with rfl | rfl | ⟨t', h'⟩
          · exact id
          · exact id
          · exact hcheck t' failure h'

theorem failsOnly_findWrapper (s : Settings) (transfer : Transfer) (remoteChain : ChainId) :
    Work.FailsOnly (¬ ·.IsConflict) (findWrapper s transfer remoteChain) := by
  intro t failure h
  obtain ⟨answer, -, hresult⟩ := yields_findWrapper h
  match answer, hresult with
  | .error fault, hresult => cases hresult; exact id
  | .ok (some wrapper), hresult => cases hresult
  | .ok none, hresult => cases hresult; exact id

/-- Whatever goes wrong before the claim, it is no conflict. -/
theorem failsOnly_prepare (s : Settings) (peers : List String) (c : Coordinate) :
    Work.FailsOnly (¬ ·.IsConflict) (prepare s peers c) := by
  refine Work.failsOnly_bind (failsOnly_loadVaa s peers c) fun bytes => ?_
  intro t failure h
  cases gathered_of_yields h with
  | unreadable hv => exact id
  | noTransfer hv htransfer => exact id
  | unwrapped hv htransfer hwrapper => exact failsOnly_findWrapper s _ _ t failure hwrapper
  | withdrawn hv htransfer hwrapper => exact id

/-- What is prepared has been found not to be withdrawn. -/
theorem isCancelled_of_yields_prepare {i : Ingredients}
    (h : Yields (prepare s peers c).run t (.ok i)) : ⟨.isCancelled, false⟩ ∈ t := by
  obtain ⟨bytes, t₁, t₂, rfl, -, hgathered⟩ := gathered_of_yields_prepare h
  cases hgathered with
  | ready hv htransfer hwrapper =>
      exact List.mem_append_right _ (List.mem_append_right _ List.mem_cons_self)

/-! ## A whole request -/

variable {request : UndoRequest} {result : Except Failure GovernanceMessage}

/-- A request that fails changes no status by anything it asks. -/
theorem undoing_eq_of_error {failure : Failure}
    (h : Yields (undoTransfer s request).run t (.error failure)) :
    ∀ e ∈ t, ∀ a a', Serves a e a' → a'.undoing = a.undoing := by
  have hreads : ∀ e : Exchange Surroundings, e.query.OnlyReads →
      ∀ a a', Serves a e a' → a'.undoing = a.undoing := by
    intro e he a a' hserves
    rw [hserves.eq_of_onlyReads he]
  rcases undoTransfer_cases h with ⟨honly, -⟩ | ⟨e, i, t₁, t₂, m, -, rfl, hprepare, hissued⟩
  · exact fun x hx => hreads x (honly x hx)
  · refine List.forall_mem_append.mpr ⟨List.forall_mem_append.mpr ⟨?_, ?_⟩, ?_⟩
    · exact fun x hx => hreads x (hprepare.onlyAsks (onlyAsks_prepare _ _ _) x hx)
    · -- of a claim that does not come to a message nothing remains
      cases hissued with
      | lost reason =>
          refine List.forall_mem_singleton.mpr fun a a' hserves => ?_
          rw [hserves.of_lost.2]
      | broken fault =>
          exact List.forall_mem_singleton.mpr fun a a' hserves =>
            absurd hserves Serves.answer_ne_error
    · exact List.forall_mem_singleton.mpr (hreads ⟨.record m, ()⟩ trivial)

theorem undoing_of_error {failure : Failure} {a a' : Archive}
    (hserved : Served StoreQuery.LeavesUndoing a t a')
    (h : Yields (undoTransfer s request).run t (.error failure)) : a'.undoing = a.undoing :=
  hserved.view_eq (undoing_eq_of_error h) fun _ hq => hq

/-- A request that succeeds claims its transfer, which nobody had claimed. -/
theorem undoing_of_ok {message : GovernanceMessage} {a a' : Archive}
    (hserved : Served StoreQuery.LeavesUndoing a t a')
    (h : Yields (undoTransfer s request).run t (.ok message)) :
    ∃ e, Emitter.ofRequest request.emitterChain request.emitterAddress = .ok e ∧
      ⟨.isCancelled, false⟩ ∈ t ∧ a.undoStatus? e.chain request.sequence ≠ some .executing ∧
      a'.undoing = a.undoing.put (e.chain, request.sequence) .executing := by
  have hothers : ∀ q : StoreQuery, q.LeavesUndoing → ∀ b, (q.answer b).2.undoing = b.undoing :=
    fun q hq => hq
  rcases undoTransfer_cases h with ⟨-, failure, hf⟩ | ⟨e, i, t₁, t₂, m, he, rfl, hprepare, hissued⟩
  · cases hf
  · cases hissued with
    | won nonce =>
        -- only the claim, in the middle, is a write
        rw [List.append_assoc] at hserved
        obtain ⟨b, h₁, h₂⟩ := hserved.of_append
        obtain ⟨b', h₃, h₄⟩ :=
          Served.of_append (show Served _ b ([_] ++ [⟨.nonce, nonce⟩, ⟨.record m, ()⟩]) a' from h₂)
        obtain ⟨c, c', hclaim, hc, hc'⟩ := h₃.view_of_singleton hothers
        have hbefore : b.undoing = a.undoing :=
          h₁.view_eq (fun x hx d d' hserves => by
            rw [hserves.eq_of_onlyReads (hprepare.onlyAsks (onlyAsks_prepare _ _ _) x hx)]) hothers
        have hbehind : a'.undoing = b'.undoing := by
          refine h₄.view_eq (fun x hx d d' hserves => ?_) hothers
          have hx' : x.query.OnlyReads := by
            simp only [List.mem_cons, List.not_mem_nil, or_false] at hx
            rcases hx with rfl | rfl <;> trivial
          rw [hserves.eq_of_onlyReads hx']
        have hcreate : c.undoing = a.undoing := hc.trans hbefore
        refine ⟨e, he, ?_, ?_, ?_⟩
        · exact List.mem_append_left _
            (List.mem_append_left _ (isCancelled_of_yields_prepare hprepare))
        · rw [Archive.undoStatus?, ← hcreate]
          exact hclaim.begins.1
        · rw [hbehind, hc', hclaim.undoing_of_won, hcreate]
          rfl

/-- A request meets a conflict only where the transfer is claimed already. -/
theorem undoStatus?_of_conflict {failure : Failure} {a a' : Archive}
    (hserved : Served StoreQuery.LeavesUndoing a t a')
    (h : Yields (undoTransfer s request).run t (.error failure)) (hconflict : failure.IsConflict) :
    ∃ e, Emitter.ofRequest request.emitterChain request.emitterAddress = .ok e ∧
      a.undoStatus? e.chain request.sequence = some .executing := by
  have hunmarked := undoing_eq_of_error h
  rcases yields_undoTransfer h with ⟨other, hrefused, -, hf⟩ | ⟨e, t', m, he, rfl, h'⟩
  · -- a refused emitter is no conflict
    cases hf
    obtain ⟨reason, rfl⟩ := Emitter.invalid_of_ofRequest hrefused
    exact hconflict.elim
  · rw [reconstruct_eq] at h'
    rcases yields_bindExcept_iff.mp h' with ⟨other, h₁, hf⟩ | ⟨i, t₁, t₂, rfl, h₁, h₂⟩
    · cases hf
      exact absurd hconflict (failsOnly_prepare _ _ _ _ _ h₁)
    · cases issued_of_yields h₂ with
      | lost reason =>
          obtain ⟨b', hboth, -⟩ := hserved.of_append
          obtain ⟨b, h₃, h₄⟩ := hboth.of_append
          obtain ⟨c, c', hclaim, hc, -⟩ := h₄.view_of_singleton fun q hq => hq
          have hbefore : b.undoing = a.undoing :=
            h₃.view_eq (fun x hx => hunmarked x
              (List.mem_append_left _ (List.mem_append_left _ hx))) fun q hq => hq
          refine ⟨e, he, ?_⟩
          rw [Archive.undoStatus?, ← hbefore, ← hc]
          exact hclaim.of_lost.1
      | broken fault => exact hconflict.elim

/-- While nobody else changes what is to be undone: a request that fails
    leaves every status and every list as they were, and if another request
    then meets a conflict, it would have met it before.  A request that
    succeeds takes its transfer, and no other, from unclaimed to executing.
    A request that is found withdrawn whenever it is looked at does not
    succeed. -/
theorem marked_exactly_on_success {a a' : Archive}
    (hserved : Served StoreQuery.LeavesUndoing a t a')
    (h : Yields (undoTransfer s request).run t result) :
    (∀ failure, result = .error failure →
      (∀ chain n, a'.undoStatus? chain n = a.undoStatus? chain n) ∧
      (∀ chain, a'.undone chain = a.undone chain) ∧
      ∀ s' request' t' a'' failure', Served StoreQuery.LeavesUndoing a' t' a'' →
        Yields (undoTransfer s' request').run t' (.error failure') → failure'.IsConflict →
        ∃ chain, request'.pair? = some (chain, request'.sequence) ∧
          a.undoStatus? chain request'.sequence = some .executing) ∧
    (∀ message, result = .ok message →
      ∃ chain, request.pair? = some (chain, request.sequence) ∧
        (a.undoStatus? chain request.sequence = none ∨
          a.undoStatus? chain request.sequence = some .undone) ∧
        a'.undoStatus? chain request.sequence = some .executing ∧
        ∀ other n, (other, n) ≠ (chain, request.sequence) →
          a'.undoStatus? other n = a.undoStatus? other n) ∧
    ((∀ answer, ⟨.isCancelled, answer⟩ ∈ t → answer = true) →
      ∃ failure, result = .error failure) := by
  refine ⟨?_, ?_, ?_⟩
  · rintro failure rfl
    have hsame : a'.undoing = a.undoing := undoing_of_error hserved h
    refine ⟨fun chain n => ?_, fun chain => ?_, ?_⟩
    · rw [Archive.undoStatus?, hsame, ← Archive.undoStatus?]
    · rw [Archive.undone, hsame, ← Archive.undone]
    · intro s' request' t' a'' failure' hserved' h' hconflict
      obtain ⟨e, he, hbegun⟩ := undoStatus?_of_conflict hserved' h' hconflict
      rw [Archive.undoStatus?, hsame] at hbegun
      exact ⟨e.chain, UndoRequest.pair?_of_ofRequest he, hbegun⟩
  · rintro message rfl
    obtain ⟨e, he, -, hunclaimed, hput⟩ := undoing_of_ok hserved h
    refine ⟨e.chain, UndoRequest.pair?_of_ofRequest he, ?_, ?_, ?_⟩
    · cases hstatus : a.undoStatus? e.chain request.sequence with
      | none => exact .inl rfl
      | some status =>
          cases status with
          | undone => exact .inr rfl
          | executing => exact absurd hstatus hunclaimed
    · rw [Archive.undoStatus?, hput, Table.get?_put, if_pos rfl]
    · intro other n hne
      rw [Archive.undoStatus?, hput, Table.get?_put, if_neg (Ne.symm hne), ← Archive.undoStatus?]
  · intro hcancelled
    cases result with
    | error failure => exact ⟨failure, rfl⟩
    | ok message =>
        obtain ⟨e, -, hlooked, -, -⟩ := undoing_of_ok hserved h
        cases hcancelled false hlooked

end Recovery

/-! ## One transfer that is marked -/

namespace Site

/-- The lost transfer has no status before the request, and is executing
    behind it; number six has none at all. -/
theorem lost_transfer_is_marked :
    ∃ t a' message, Served StoreQuery.LeavesUndoing lostSite.archive t a' ∧
      Yields (Recovery.undoTransfer lostCall.settings lostCall.request).run t (.ok message) ∧
      lostSite.archive.undoStatus? ⟨2⟩ 5 = none ∧ a'.undoStatus? ⟨2⟩ 5 = some .executing ∧
      a'.undoStatus? ⟨2⟩ 6 = none := by
  have hok : (lostCall.rest.run (serve calm) lostSite.archive).1.isOk = true := by decide +kernel
  have hyields := yields_transcript (serve calm) lostCall.rest lostSite.archive
  have hserved := @served_transcript StoreQuery.LeavesUndoing _ calm lostCall.rest lostSite.archive
  cases hrun : (lostCall.rest.run (serve calm) lostSite.archive).1 with
  | error failure =>
      rw [hrun] at hok
      cases hok
  | ok message =>
      rw [hrun] at hyields
      obtain ⟨chain, hpair, -, hmarked, hothers⟩ :=
        (Recovery.marked_exactly_on_success hserved hyields).2.1 message rfl
      have hrequested : lostCall.request.pair? = some (⟨2⟩, 5) := rfl
      obtain rfl : (⟨2⟩ : ChainId) = chain :=
        congrArg Prod.fst (Option.some.inj (hrequested.symm.trans hpair))
      refine ⟨_, _, message, hserved, hyields, rfl, hmarked, ?_⟩
      rw [hothers ⟨2⟩ 6 (by decide)]
      rfl

end Site

end BridgeGuardian
