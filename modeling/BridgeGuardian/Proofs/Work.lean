import BridgeGuardian.Polling
import BridgeGuardian.Proofs.Transcript
import BridgeGuardian.Surroundings

/-! # Work in transcripts — what each step of a service asks

    Every step of a service is one query, and its transcript is that query
    with its answer.  A query `OnlyReads` when it does not write to
    storage; an archive that answers such a query stays as it is. -/

namespace BridgeGuardian

open Program

/-! ## One query -/

section

variable {I : Interface} {α ε : Type}

/-- A program that is done with the answer to its query takes one exchange. -/
theorem yields_ask_done_iff {q : I.Query} {next : I.Answer q → Program I α} (value : I.Answer q → α)
    (hnext : ∀ answer, next answer = .done (value answer)) {t : Transcript I} {result : α} :
    Yields (.ask q next) t result ↔ ∃ answer, t = [⟨q, answer⟩] ∧ result = value answer := by
  obtain rfl : next = fun answer => .done (value answer) := funext hnext
  constructor
  · intro h
    obtain ⟨answer, rest, rfl, hrest⟩ := yields_ask_iff.mp h
    obtain ⟨rfl, rfl⟩ := yields_done_iff.mp hrest
    exact ⟨answer, rfl, rfl⟩
  · rintro ⟨answer, rfl, rfl⟩
    exact .ask (.done _)

/-- One query takes one exchange. -/
theorem yields_query_iff {q : I.Query} {t : Transcript I} {answer : I.Answer q} :
    Yields (.ask q .done) t answer ↔ t = [⟨q, answer⟩] := by
  refine (yields_ask_done_iff id fun _ => rfl).trans ?_
  constructor
  · rintro ⟨a, rfl, rfl⟩
    rfl
  · rintro rfl
    exact ⟨answer, rfl, rfl⟩

/-- A program that cannot fail succeeds with its value. -/
theorem yields_lift_iff {p : Program I α} {t : Transcript I} {result : Except ε α} :
    Yields (ExceptT.lift p : ExceptT ε (Program I) α).run t result ↔
      ∃ value, Yields p t value ∧ result = .ok value := by
  change Yields (p >>= fun value => .done (.ok value)) t result ↔ _
  rw [yields_bind_iff]
  constructor
  · rintro ⟨value, t₁, t₂, rfl, h₁, h₂⟩
    obtain ⟨rfl, rfl⟩ := yields_done_iff.mp h₂
    exact ⟨value, by rwa [List.append_nil], rfl⟩
  · rintro ⟨value, h, rfl⟩
    exact ⟨value, t, [], by rw [List.append_nil], h, .done _⟩

/-- A program that cannot fail is followed by what comes next. -/
theorem yields_lift_bind_iff {β : Type} {p : Program I α} {f : α → ExceptT ε (Program I) β}
    {t : Transcript I} {result : Except ε β} :
    Yields ((ExceptT.lift p : ExceptT ε (Program I) α) >>= f).run t result ↔
      ∃ value t₁ t₂, t = t₁ ++ t₂ ∧ Yields p t₁ value ∧ Yields (f value).run t₂ result := by
  constructor
  · intro h
    rcases yields_bindExcept_iff.mp h with ⟨fault, h₁, -⟩ | ⟨value, t₁, t₂, rfl, h₁, h₂⟩
    · obtain ⟨value, -, hv⟩ := yields_lift_iff.mp h₁
      cases hv
    · obtain ⟨found, hfound, hv⟩ := yields_lift_iff.mp h₁
      cases hv
      exact ⟨value, t₁, t₂, rfl, hfound, h₂⟩
  · rintro ⟨value, t₁, t₂, rfl, h₁, h₂⟩
    exact yields_bindExcept_iff.mpr
      (.inr ⟨value, t₁, t₂, rfl, yields_lift_iff.mpr ⟨value, h₁, rfl⟩, h₂⟩)

/-- A program that cannot fail asks the same when it is taken as one that may. -/
theorem onlyAsks_lift {asks : I.Query → Prop} {p : Program I α} (h : p.OnlyAsks asks) :
    (ExceptT.lift p : ExceptT ε (Program I) α).run.OnlyAsks asks :=
  onlyAsks_bind h fun _ => trivial

end

/-! ## Steps of a service -/

namespace Work

variable {t : Transcript Surroundings}

/-- Storage is asked once, and its fault is a failure of the service. -/
theorem yields_store_iff {q : StoreQuery} {result : Except Failure q.Result} :
    Yields (store q).run t result ↔
      ∃ answer : Except StoreFault q.Result, t = [⟨.store q, answer⟩] ∧
        result = answer.mapError fun fault => .internal fault.message := by
  constructor
  · intro h
    obtain ⟨answer, rest, rfl, hrest⟩ := yields_ask_iff.mp h
    obtain ⟨rfl, rfl⟩ := yields_done_iff.mp hrest
    exact ⟨answer, rfl, rfl⟩
  · rintro ⟨answer, rfl, rfl⟩
    exact .ask (.done _)

/-- Storage that answers with a result is asked once. -/
theorem yields_store_ok_iff {q : StoreQuery} {result : q.Result} :
    Yields (store q).run t (.ok result) ↔ t = [⟨.store q, .ok result⟩] := by
  rw [yields_store_iff]
  constructor
  · rintro ⟨answer, rfl, h⟩
    cases answer with
    | error fault => cases h
    | ok value =>
        cases h
        rfl
  · rintro rfl
    exact ⟨.ok result, rfl, rfl⟩

/-- A service that reports a measurement goes on with what comes next. -/
theorem yields_record_bind_iff {α : Type} {m : Measurement} {f : Unit → Work α}
    {result : Except Failure α} :
    Yields (record m >>= f).run t result ↔
      ∃ rest, t = ⟨.record m, ()⟩ :: rest ∧ Yields (f ()).run rest result := by
  constructor
  · intro h
    obtain ⟨⟨⟩, rest, rfl, hrest⟩ := yields_ask_iff.mp h
    exact ⟨rest, rfl, hrest⟩
  · rintro ⟨rest, rfl, hrest⟩
    exact .ask hrest

theorem yields_ofExcept_iff {α : Type} {computed result : Except Failure α} :
    Yields (ofExcept computed).run t result ↔ t = [] ∧ result = computed :=
  yields_done_iff

end Work

/-! ## Queries that leave storage alone -/

/-- Whether a query leaves an archive as it is. -/
def StoreQuery.onlyReads : StoreQuery → Bool
  | .vaa _ | .gaps _ | .localWrapper _ _ | .remoteWrapper _ | .undone _ | .nextIndex _ => true
  | .storeVaa _ _ | .addLocalWrapper _ _ _ | .addRemoteWrapper _ _ | .addUndone _ _
  | .markExecuting _ _ | .setNextIndex _ _ => false

/-- An archive that is only read stays as it is. -/
theorem StoreQuery.answer_of_onlyReads {q : StoreQuery} (h : q.onlyReads = true) (a : Archive) :
    (q.answer a).2 = a := by
  cases q with
  | vaa | gaps | localWrapper | remoteWrapper | undone | nextIndex => rfl
  | storeVaa | addLocalWrapper | addRemoteWrapper | addUndone | markExecuting | setNextIndex =>
      cases h

/-- A query that does not write to storage. -/
def Surroundings.Query.OnlyReads : Surroundings.Query → Prop
  | .store q => q.onlyReads = true
  | _ => True

/-- A query that is not about storage. -/
def Surroundings.Query.LeavesStorage : Surroundings.Query → Prop
  | .store _ => False
  | _ => True

theorem Surroundings.Query.LeavesStorage.onlyReads {q : Surroundings.Query}
    (h : q.LeavesStorage) : q.OnlyReads := by
  cases q with
  | store q => exact h.elim
  | now | peerOrder | fetch | submit | announce | pause | isCancelled | nonce | record => trivial

namespace Work

variable {asks : Surroundings.Query → Prop}

theorem onlyAsks_store {q : StoreQuery} (h : asks (.store q)) : (store q).run.OnlyAsks asks :=
  ⟨h, fun _ => trivial⟩

theorem onlyAsks_submit {message : Bytes} (h : asks (.submit message)) :
    (submit message).run.OnlyAsks asks := by
  refine ⟨h, fun answer => ?_⟩
  cases (show Submission from answer) <;> trivial

theorem onlyAsks_record {m : Measurement} (h : asks (.record m)) :
    (record m).run.OnlyAsks asks :=
  ⟨h, fun _ => trivial⟩

theorem onlyAsks_ofExcept {α : Type} {result : Except Failure α} :
    (ofExcept result).run.OnlyAsks asks :=
  trivial

/-- Behind a result that has been computed comes what follows its value. -/
theorem onlyAsks_ofExcept_bind {α β : Type} {result : Except Failure α} {next : α → Work β}
    (h : ∀ value, result = .ok value → (next value).run.OnlyAsks asks) :
    (ofExcept result >>= next).run.OnlyAsks asks := by
  cases result with
  | error failure => trivial
  | ok value => exact h value rfl

end Work

/-! ## Waiting -/

namespace PollPolicy

variable {I : Interface} {α : Type} {expiry : Failure} {pause : Program I Pause}
variable {check : Program I (Except Failure (Option α))}

/-- Waiting asks what pausing and checking ask. -/
theorem onlyAsks_pollFor {asks : I.Query → Prop} (hpause : pause.OnlyAsks asks)
    (hcheck : check.OnlyAsks asks) (left : Nat) :
    (pollFor expiry pause check left).OnlyAsks asks := by
  induction left with
  | zero => trivial
  | succ left ih =>
      refine onlyAsks_bind hpause ?_
      intro paused
      cases paused with
      | cancelled => trivial
      | elapsed =>
          refine onlyAsks_bind hcheck ?_
          intro outcome
          match outcome with
          | .error _ => trivial
          | .ok (some _) => trivial
          | .ok none => exact ih

/-- The value that was waited for is the value of the last check. -/
theorem yields_pollFor_ok {left : Nat} {t : Transcript I} {value : α}
    (h : Yields (pollFor expiry pause check left) t (.ok value)) :
    ∃ t₁ t₂, t = t₁ ++ t₂ ∧ Yields check t₂ (.ok (some value)) := by
  induction left generalizing t with
  | zero => cases (yields_done_iff.mp h).2
  | succ left ih =>
      obtain ⟨paused, t₁, t₂, rfl, -, h₂⟩ := yields_bind_iff.mp h
      cases paused with
      | cancelled => cases (yields_done_iff.mp h₂).2
      | elapsed =>
          obtain ⟨outcome, t₃, t₄, rfl, h₃, h₄⟩ := yields_bind_iff.mp h₂
          match outcome, h₃, h₄ with
          | .error _, _, h₄ => cases (yields_done_iff.mp h₄).2
          | .ok (some v), h₃, h₄ =>
              obtain ⟨rfl, hv⟩ := yields_done_iff.mp h₄
              cases hv
              exact ⟨t₁, t₃, by rw [List.append_nil], h₃⟩
          | .ok none, _, h₄ =>
              -- this check found nothing, so the last one comes later
              obtain ⟨t₅, t₆, rfl, h₆⟩ := ih h₄
              exact ⟨t₁ ++ (t₃ ++ t₅), t₆, by simp only [List.append_assoc], h₆⟩

/-- Once an exchange shows a check that the value is there, that is the value
    that was waited for. -/
theorem yields_pollFor_of_mem {e : Exchange I} {value : α} {left : Nat} {t : Transcript I}
    {result : Except Failure α} (h : Yields (pollFor expiry pause check left) t result)
    (hpause : ∀ t paused, Yields pause t paused → e ∉ t)
    (hcheck : ∀ t outcome, Yields check t outcome → e ∈ t → outcome = .ok (some value))
    (he : e ∈ t) : result = .ok value := by
  induction left generalizing t with
  | zero =>
      obtain ⟨rfl, -⟩ := yields_done_iff.mp h
      exact absurd he List.not_mem_nil
  | succ left ih =>
      obtain ⟨paused, t₁, t₂, rfl, h₁, h₂⟩ := yields_bind_iff.mp h
      have he₂ : e ∈ t₂ := (List.mem_append.mp he).resolve_left (hpause t₁ paused h₁)
      cases paused with
      | cancelled =>
          obtain ⟨rfl, -⟩ := yields_done_iff.mp h₂
          exact absurd he₂ List.not_mem_nil
      | elapsed =>
          obtain ⟨outcome, t₃, t₄, rfl, h₃, h₄⟩ := yields_bind_iff.mp h₂
          rcases List.mem_append.mp he₂ with he₃ | he₄
          · obtain rfl := hcheck t₃ outcome h₃ he₃
            exact (yields_done_iff.mp h₄).2
          · -- the exchange comes later, so this check has not ended the waiting
            match outcome, h₄ with
            | .error _, h₄ | .ok (some _), h₄ =>
                obtain ⟨rfl, -⟩ := yields_done_iff.mp h₄
                exact absurd he₄ List.not_mem_nil
            | .ok none, h₄ => exact ih h₄ he₄

/-- Waiting fails when time is up, the request is withdrawn, or a check fails. -/
theorem yields_pollFor_error {left : Nat} {t : Transcript I} {failure : Failure}
    (h : Yields (pollFor expiry pause check left) t (.error failure)) :
    failure = expiry ∨ failure = .cancelled ∨ ∃ t', Yields check t' (.error failure) := by
  induction left generalizing t with
  | zero =>
      cases (yields_done_iff.mp h).2
      exact .inl rfl
  | succ left ih =>
      obtain ⟨paused, t₁, t₂, rfl, -, h₂⟩ := yields_bind_iff.mp h
      cases paused with
      | cancelled =>
          cases (yields_done_iff.mp h₂).2
          exact .inr (.inl rfl)
      | elapsed =>
          obtain ⟨outcome, t₃, t₄, rfl, h₃, h₄⟩ := yields_bind_iff.mp h₂
          match outcome, h₃, h₄ with
          | .error _, h₃, h₄ =>
              cases (yields_done_iff.mp h₄).2
              exact .inr (.inr ⟨t₃, h₃⟩)
          | .ok (some v), _, h₄ => cases (yields_done_iff.mp h₄).2
          | .ok none, _, h₄ => exact ih h₄

end PollPolicy

/-! ## Failures -/

namespace Work

variable {α β : Type} {fails : Failure → Prop}

/-- Every failure that a task can come to is of a certain kind, whatever the
    answers are. -/
def FailsOnly (fails : Failure → Prop) (task : Work α) : Prop :=
  ∀ t failure, Yields task.run t (.error failure) → fails failure

theorem failsOnly_pure (value : α) : FailsOnly fails (pure value : Work α) := by
  intro t failure h
  cases (yields_done_iff.mp h).2

theorem failsOnly_throw {failure : Failure} (h : fails failure) :
    FailsOnly fails (throw failure : Work α) := by
  intro t other hother
  cases (yields_done_iff.mp hother).2
  exact h

theorem failsOnly_lift (p : Program Surroundings α) :
    FailsOnly fails (ExceptT.lift p : Work α) := by
  intro t failure h
  obtain ⟨value, -, hv⟩ := yields_lift_iff.mp h
  cases hv

/-- Tasks in sequence fail as their parts do. -/
theorem failsOnly_bind {task : Work α} {next : α → Work β} (htask : FailsOnly fails task)
    (hnext : ∀ value, FailsOnly fails (next value)) : FailsOnly fails (task >>= next) := by
  intro t failure h
  rcases yields_bindExcept_iff.mp h with ⟨other, h₁, hf⟩ | ⟨value, t₁, t₂, rfl, -, h₂⟩
  · cases hf
    exact htask t failure h₁
  · exact hnext value t₂ failure h₂

theorem failsOnly_store {q : StoreQuery}
    (h : ∀ fault : StoreFault, fails (.internal fault.message)) : FailsOnly fails (store q) := by
  intro t failure hfailure
  obtain ⟨answer, -, hanswer⟩ := yields_store_iff.mp hfailure
  cases answer with
  | error fault =>
      cases hanswer
      exact h fault
  | ok value => cases hanswer

end Work

end BridgeGuardian
