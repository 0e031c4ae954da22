import BridgeGuardian.Proofs.Site.Claimed

/-! # Served transcripts — what an archive becomes while it answers

    The queries of a transcript are answered from an archive one after the
    other, and in between others may put queries to it.  Whatever neither
    the exchanges nor the others change is the same at both ends. -/

namespace BridgeGuardian

open Program

/-- An archive answers a transcript and becomes another; `admits` are the
    queries that others put to it meanwhile. -/
inductive Served (admits : StoreQuery → Prop) : Archive → Transcript Surroundings → Archive → Prop
  | nil (a : Archive) : Served admits a [] a
  | exchange {a a' a'' : Archive} {e : Exchange Surroundings} {t : Transcript Surroundings} :
      Serves a e a' → Served admits a' t a'' → Served admits a (e :: t) a''
  | others {a a' : Archive} {t : Transcript Surroundings} (q : StoreQuery) :
      admits q → Served admits (q.answer a).2 t a' → Served admits a t a'

namespace Served

variable {admits : StoreQuery → Prop} {a a' : Archive} {t t₁ t₂ : Transcript Surroundings}

theorem of_append (h : Served admits a (t₁ ++ t₂) a') :
    ∃ b, Served admits a t₁ b ∧ Served admits b t₂ a' := by
  generalize ht : t₁ ++ t₂ = t at h
  induction h generalizing t₁ with
  | nil b =>
      obtain ⟨rfl, rfl⟩ := List.append_eq_nil_iff.mp ht
      exact ⟨b, .nil b, .nil b⟩
  | exchange he hrest ih =>
      rcases List.append_eq_cons_iff.mp ht with ⟨rfl, rfl⟩ | ⟨t, rfl, rfl⟩
      · exact ⟨_, .nil _, .exchange he hrest⟩
      · obtain ⟨b, h₁, h₂⟩ := ih rfl
        exact ⟨b, .exchange he h₁, h₂⟩
  | others q hq _ ih =>
      -- what others ask at the cut is counted to the first part
      obtain ⟨b, h₁, h₂⟩ := ih ht
      exact ⟨b, .others q hq h₁, h₂⟩

theorem append {b : Archive} (h₁ : Served admits a t₁ b) (h₂ : Served admits b t₂ a') :
    Served admits a (t₁ ++ t₂) a' := by
  induction h₁ with
  | nil b => exact h₂
  | exchange he _ ih => exact .exchange he (ih h₂)
  | others q hq _ ih => exact .others q hq (ih h₂)

/-- What no exchange and nobody else changes stays as it is. -/
theorem view_eq {β : Type} {view : Archive → β} (h : Served admits a t a')
    (hown : ∀ e ∈ t, ∀ b b', Serves b e b' → view b' = view b)
    (hothers : ∀ q, admits q → ∀ b, view (q.answer b).2 = view b) : view a' = view a := by
  induction h with
  | nil b => rfl
  | exchange he _ ih =>
      rw [ih fun x hx => hown x (List.mem_cons_of_mem _ hx)]
      exact hown _ List.mem_cons_self _ _ he
  | others q hq _ ih =>
      rw [ih hown]
      exact hothers q hq _

/-- A single exchange is served with others before and behind it. -/
theorem view_of_singleton {β : Type} {view : Archive → β} {e : Exchange Surroundings}
    (h : Served admits a [e] a') (hothers : ∀ q, admits q → ∀ b, view (q.answer b).2 = view b) :
    ∃ b b', Serves b e b' ∧ view b = view a ∧ view a' = view b' := by
  generalize ht : [e] = t at h
  induction h with
  | nil b => cases ht
  | exchange he hrest _ =>
      cases ht
      exact ⟨_, _, he, rfl, hrest.view_eq (fun x hx => absurd hx List.not_mem_nil) hothers⟩
  | others q hq _ ih =>
      obtain ⟨b, b', he, hb, hb'⟩ := ih ht
      exact ⟨b, b', he, hb.trans (hothers q hq _), hb'⟩

end Served

/-- A run that storage answers from an archive is served by it. -/
theorem Site.served_transcript {admits : StoreQuery → Prop} {α : Type}
    (others : (q : Surroundings.Query) → q.Answer) (p : Program Surroundings α) (a : Archive) :
    Served admits a (p.transcript (serve others) a) (p.run (serve others) a).2 := by
  induction p generalizing a with
  | done value => exact .nil a
  | ask q next ih => exact .exchange (serves_serve others a q) (ih _ _)

/-! ## What leaves transfers to undo alone -/

/-- A query that changes the status of no transfer. -/
def StoreQuery.LeavesUndoing (q : StoreQuery) : Prop :=
  ∀ a : Archive, (q.answer a).2.undoing = a.undoing

namespace Serves

variable {a a' : Archive} {chain : ChainId} {sequence : UInt64}

theorem eq_of_onlyReads {e : Exchange Surroundings} (h : Serves a e a')
    (he : e.query.OnlyReads) : a' = a := by
  cases h with
  | store q => exact StoreQuery.answer_of_onlyReads he a
  | other query answer hother => rfl

/-- What is not about storage leaves the archive alone. -/
theorem of_leavesStorage {e : Exchange Surroundings} (he : e.query.LeavesStorage) :
    Serves a e a := by
  refine .other e.query e.answer fun q hq => ?_
  rw [hq] at he
  exact he

/-- A claim that fails finds the transfer claimed and changes nothing. -/
theorem of_lost (h : Serves a ⟨.store (.markExecuting chain sequence), .ok false⟩ a') :
    a.undoStatus? chain sequence = some .executing ∧ a' = a := by
  obtain ⟨hanswer, rfl⟩ := serves_store_iff.mp h
  have hlost : (a.markExecuting chain sequence).1 = false := (Except.ok.inj hanswer).symm
  show _ ∧ (a.markExecuting chain sequence).2 = a
  unfold Archive.markExecuting at *
  by_cases hbegun : a.undoStatus? chain sequence = some .executing
  · rw [if_pos hbegun]
    exact ⟨hbegun, rfl⟩
  · rw [if_neg hbegun] at hlost
    cases hlost

/-- A claim that succeeds changes the one status. -/
theorem undoing_of_won (h : Serves a ⟨.store (.markExecuting chain sequence), .ok true⟩ a') :
    a'.undoing = a.undoing.put (chain, sequence) .executing := by
  have hfirst := h.begins.1
  obtain ⟨-, rfl⟩ := serves_store_iff.mp h
  show (a.markExecuting chain sequence).2.undoing = _
  rw [Archive.markExecuting, if_neg hfirst]

end Serves

/-! ## Undisturbed archives -/

/-- A query whose answer storage and the request settle between them. -/
def Surroundings.Query.IsSettled (q : Surroundings.Query) : Prop :=
  (∃ r, q = .store r) ∨ q = .isCancelled

namespace Served

variable {a a' : Archive} {e : Exchange Surroundings} {t : Transcript Surroundings}

theorem of_cons (h : Served (fun _ => False) a (e :: t) a') :
    ∃ b, Serves a e b ∧ Served (fun _ => False) b t a' := by
  cases h with
  | exchange he hrest => exact ⟨_, he, hrest⟩
  | others q hq _ => exact hq.elim

/-- What is only read stays as it is, and is what all answers are about. -/
theorem of_onlyReads (h : Served (fun _ => False) a t a') (ht : ∀ e ∈ t, e.query.OnlyReads) :
    a' = a ∧ ∀ q answer, ⟨.store q, answer⟩ ∈ t → answer = .ok (q.answer a).1 := by
  induction t generalizing a with
  | nil =>
      cases h with
      | nil => exact ⟨rfl, fun q answer hmem => absurd hmem List.not_mem_nil⟩
      | others q hq _ => exact hq.elim
  | cons e rest ih =>
      obtain ⟨b, he, hrest⟩ := h.of_cons
      obtain rfl := he.eq_of_onlyReads (ht e List.mem_cons_self)
      obtain ⟨rfl, hanswers⟩ := ih hrest fun x hx => ht x (List.mem_cons_of_mem _ hx)
      refine ⟨rfl, ?_⟩
      intro q answer hmem
      rcases List.mem_cons.mp hmem with rfl | hmem
      · exact (serves_store_iff.mp he).1
      · exact hanswers q answer hmem

/-- Two runs of a program from one archive are the same run, if it asks nothing
    but storage and whether the request is withdrawn, and the latter is
    answered alike. -/
theorem eq_of_settled {α : Type} {p : Program Surroundings α} {t u : Transcript Surroundings}
    {value other : α} {cancelled : Bool} {a a' a'' : Archive}
    (hp : p.OnlyAsks Surroundings.Query.IsSettled)
    (h : Yields p t value) (hserved : Served (fun _ => False) a t a')
    (hcancelled : ∀ answer, ⟨.isCancelled, answer⟩ ∈ t → answer = cancelled)
    (h' : Yields p u other) (hserved' : Served (fun _ => False) a u a'')
    (hcancelled' : ∀ answer, ⟨.isCancelled, answer⟩ ∈ u → answer = cancelled) :
    value = other ∧ a' = a'' := by
  induction h generalizing u a with
  | done value =>
      obtain ⟨rfl, rfl⟩ := yields_done_iff.mp h'
      cases hserved with
      | nil =>
          cases hserved' with
          | nil => exact ⟨rfl, rfl⟩
          | others q hq _ => exact hq.elim
      | others q hq _ => exact hq.elim
  | @ask query next answer rest value hrest ih =>
      obtain ⟨answer', rest', rfl, hrest'⟩ := yields_ask_iff.mp h'
      obtain ⟨b, he, hserved⟩ := hserved.of_cons
      obtain ⟨b', he', hserved'⟩ := hserved'.of_cons
      have hsame : answer = answer' ∧ b = b' := by
        rcases hp.1 with ⟨q, rfl⟩ | rfl
        · obtain ⟨hanswer, hb⟩ := serves_store_iff.mp he
          obtain ⟨hanswer', hb'⟩ := serves_store_iff.mp he'
          exact ⟨hanswer.trans hanswer'.symm, hb.trans hb'.symm⟩
        · refine ⟨?_, (he.eq_of_onlyReads trivial).trans (he'.eq_of_onlyReads trivial).symm⟩
          exact (hcancelled answer List.mem_cons_self).trans
            (hcancelled' answer' List.mem_cons_self).symm
      obtain ⟨rfl, rfl⟩ := hsame
      exact ih (hp.2 answer) hserved (fun x hx => hcancelled x (List.mem_cons_of_mem _ hx))
        hrest' hserved' fun x hx => hcancelled' x (List.mem_cons_of_mem _ hx)

end Served

/-- Whatever does not concern storage is answered by the others. -/
theorem Site.answer_of_mem_transcript {α : Type} (others : (q : Surroundings.Query) → q.Answer)
    {p : Program Surroundings α} {a : Archive} {q : Surroundings.Query} {answer : q.Answer}
    (hq : ∀ r, q ≠ .store r) (h : ⟨q, answer⟩ ∈ p.transcript (serve others) a) :
    answer = others q := by
  induction p generalizing a with
  | done value => exact absurd h List.not_mem_nil
  | ask query next ih =>
      rcases List.mem_cons.mp h with heq | hmem
      · obtain ⟨rfl, hanswer⟩ := Exchange.mk.inj heq
        rw [eq_of_heq hanswer]
        cases q with
        | store r => exact absurd rfl (hq r)
        | now | peerOrder | fetch | submit | announce | pause | isCancelled | nonce | record => rfl
      · exact ih _ hmem

/-- A program can come to an end on an archive undisturbed, and not withdrawn. -/
theorem Site.exists_undisturbed {α : Type} (p : Program Surroundings α) (a : Archive) :
    ∃ t value a', Yields p t value ∧ Served (fun _ => False) a t a' ∧
      ∀ answer, ⟨.isCancelled, answer⟩ ∈ t → answer = false := by
  refine ⟨_, _, _, yields_transcript (serve calm) p a, served_transcript calm p a, ?_⟩
  intro answer hmem
  exact answer_of_mem_transcript calm (fun r hr => by cases hr) hmem

end BridgeGuardian
