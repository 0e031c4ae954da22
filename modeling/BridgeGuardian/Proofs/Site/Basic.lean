import BridgeGuardian.Intake
import BridgeGuardian.Proofs.Transcript
import BridgeGuardian.Recovery.Undo
import Mathlib.Logic.Relation

/-! # A guardian at work — calls and workers that share one archive

    Any number of calls and intake workers go on side by side, one exchange
    at a time and in any order.  What they ask of storage is answered from
    the archive, one query after the other; everything else (peers, clocks,
    cancellation, the order of things) is answered in any way at all.
    Messages reach a worker through the queue or are handed to it directly,
    and others may put queries to the archive at any moment.

    A call keeps what it has asked so far.  `Call.IsFaithful` ties this past
    to the program that is left, so a call that has come to its end has a
    transcript of the whole of `undoTransfer`. -/

namespace BridgeGuardian

open Program

/-! ## Calls and workers -/

/-- A request to undo a transfer: what has been asked for it so far, and
    what is left to do. -/
structure Call where
  settings : Recovery.Settings
  request : UndoRequest
  past : Transcript Surroundings
  rest : Program Surroundings (Except Failure GovernanceMessage)

namespace Call

/-- A call at its beginning. -/
def begin (settings : Recovery.Settings) (request : UndoRequest) : Call :=
  ⟨settings, request, [], (Recovery.undoTransfer settings request).outcome⟩

/-- A call behind an exchange. -/
def behind (call : Call) (e : Exchange Surroundings)
    (rest : Program Surroundings (Except Failure GovernanceMessage)) : Call :=
  { call with past := call.past ++ [e], rest }

/-- The answer to the caller, once there is one. -/
def result? (call : Call) : Option (Except Failure GovernanceMessage) :=
  match call.rest with
  | .done result => some result
  | .ask _ _ => none

/-- What is left leads to results of the whole. -/
def IsFaithful (call : Call) : Prop :=
  ∀ t result, Yields call.rest t result →
    Yields (Recovery.undoTransfer call.settings call.request).run (call.past ++ t) result

theorem isFaithful_begin (settings : Recovery.Settings) (request : UndoRequest) :
    (begin settings request).IsFaithful := by
  intro t result h
  exact h

/-- A call stays faithful from one exchange to the next. -/
theorem IsFaithful.behind {call : Call} {e : Exchange Surroundings}
    {rest : Program Surroundings (Except Failure GovernanceMessage)} (h : call.IsFaithful)
    (hmove : Moves call.rest e rest) : (call.behind e rest).IsFaithful := by
  intro t result hrest
  show Yields _ ((call.past ++ [e]) ++ t) result
  rw [List.append_assoc]
  exact h (e :: t) result (hmove.yields hrest)

/-- A faithful call that is answered has the transcript of its request. -/
theorem IsFaithful.yields {call : Call} {result : Except Failure GovernanceMessage}
    (h : call.IsFaithful) (hresult : call.result? = some result) :
    Yields (Recovery.undoTransfer call.settings call.request).run call.past result := by
  unfold result? at hresult
  cases hrest : call.rest with
  | ask query next =>
      rw [hrest] at hresult
      cases hresult
  | done value =>
      rw [hrest] at hresult
      cases hresult
      have hdone : Yields call.rest [] result := by
        rw [hrest]
        exact .done result
      have hall := h [] result hdone
      rwa [List.append_nil] at hall

end Call

/-- An intake worker: its desk when it is idle, otherwise what is left to
    do with a message. -/
abbrev Worker := Program Surroundings IntakeDesk

/-- Put a message into storage by asking for it. -/
def IntakeDesk.askToWrite (c : Coordinate) (bytes : Bytes) :
    Program Surroundings (Except StoreFault Unit) :=
  Surroundings.ask (.store (.storeVaa c bytes))

/-- What a worker does with a message. -/
def IntakeDesk.task (desk : IntakeDesk) (now : Nat) (message : Bytes) : Worker :=
  desk.process now IntakeDesk.askToWrite message >>= fun outcome => .done outcome.2

/-! ## Sites -/

/-- A guardian at work. -/
structure Site where
  archive : Archive
  queue : List Bytes
  workers : List Worker
  calls : List Call

/-- What an exchange does to the archive, which answers what is asked of
    storage; all other answers are free. -/
inductive Serves (a : Archive) : Exchange Surroundings → Archive → Prop
  | store (q : StoreQuery) : Serves a ⟨.store q, .ok (q.answer a).1⟩ (q.answer a).2
  | other (query : Surroundings.Query) (answer : query.Answer)
      (h : ∀ q, query ≠ .store q) : Serves a ⟨query, answer⟩ a

/-- Storage is answered from the archive, and only so. -/
theorem serves_store_iff {a a' : Archive} {q : StoreQuery}
    {answer : Except StoreFault q.Result} :
    Serves a ⟨.store q, answer⟩ a' ↔ answer = .ok (q.answer a).1 ∧ a' = (q.answer a).2 := by
  constructor
  · intro h
    generalize he : (⟨.store q, answer⟩ : Exchange Surroundings) = e at h
    cases h with
    | store q' =>
        obtain ⟨hquery, hanswer⟩ := Exchange.mk.inj he
        cases hquery
        exact ⟨eq_of_heq hanswer, rfl⟩
    | other query other hother =>
        obtain ⟨hquery, -⟩ := Exchange.mk.inj he
        exact absurd hquery.symm (hother q)
  · rintro ⟨rfl, rfl⟩
    exact .store q

/-- The messages that an exchange puts into the queue. -/
def submitted : Exchange Surroundings → List Bytes
  | ⟨.submit message, .accepted⟩ => [message]
  | _ => []

namespace Site

/-- A guardian with an empty archive and idle workers. -/
def opened (desks : List IntakeDesk) : Site := ⟨.empty, [], desks.map .done, []⟩

/-- What can happen next; `admits` are the queries that others may put to
    the archive. -/
inductive Step (admits : StoreQuery → Prop) (s : Site) : Site → Prop
  /-- A request comes in. -/
  | call (settings : Recovery.Settings) (request : UndoRequest) :
      Step admits s { s with calls := s.calls ++ [.begin settings request] }
  /-- A call goes on by one exchange. -/
  | goOn (i : Nat) (call : Call) (e : Exchange Surroundings)
      (rest : Program Surroundings (Except Failure GovernanceMessage)) (archive : Archive)
      (hcall : s.calls[i]? = some call) (hmove : Moves call.rest e rest)
      (hserve : Serves s.archive e archive) :
      Step admits s { s with
        archive
        queue := s.queue ++ submitted e
        calls := s.calls.set i (call.behind e rest) }
  /-- A message arrives from elsewhere. -/
  | arrive (message : Bytes) : Step admits s { s with queue := s.queue ++ [message] }
  /-- An idle worker takes a message off the queue. -/
  | take (i : Nat) (desk : IntakeDesk) (now : Nat) (message : Bytes) (queue : List Bytes)
      (hworker : s.workers[i]? = some (.done desk)) (hqueue : s.queue = message :: queue) :
      Step admits s { s with queue, workers := s.workers.set i (desk.task now message) }
  /-- An idle worker is handed a message directly. -/
  | hand (i : Nat) (desk : IntakeDesk) (now : Nat) (message : Bytes)
      (hworker : s.workers[i]? = some (.done desk)) :
      Step admits s { s with workers := s.workers.set i (desk.task now message) }
  /-- A worker goes on by one exchange. -/
  | work (i : Nat) (worker : Worker) (e : Exchange Surroundings) (rest : Worker)
      (archive : Archive) (hworker : s.workers[i]? = some worker)
      (hmove : Moves worker e rest) (hserve : Serves s.archive e archive) :
      Step admits s { s with archive, workers := s.workers.set i rest }
  /-- Others put a query to the archive. -/
  | others (q : StoreQuery) (h : admits q) :
      Step admits s { s with archive := (q.answer s.archive).2 }

/-- What can happen in any number of steps. -/
abbrev Steps (admits : StoreQuery → Prop) : Site → Site → Prop :=
  Relation.ReflTransGen (Step admits)

/-- Every call of a site is faithful. -/
def IsFaithful (s : Site) : Prop := ∀ call ∈ s.calls, call.IsFaithful

/-- Steps keep calls faithful. -/
theorem IsFaithful.of_step {admits : StoreQuery → Prop} {s s' : Site} (h : s.IsFaithful)
    (hstep : Step admits s s') : s'.IsFaithful := by
  intro other hother
  cases hstep with
  | call settings request =>
      rcases List.mem_append.mp hother with hmem | hnew
      · exact h other hmem
      · obtain rfl := List.mem_singleton.mp hnew
        exact Call.isFaithful_begin settings request
  | goOn i call e rest archive hcall hmove hserve =>
      rcases List.mem_or_eq_of_mem_set hother with hmem | rfl
      · exact h other hmem
      · exact (h call (List.mem_of_getElem? hcall)).behind hmove
  | arrive | take | hand | work | others => exact h other hother

theorem isFaithful_of_steps {admits : StoreQuery → Prop} {desks : List IntakeDesk} {s : Site}
    (h : Steps admits (opened desks) s) : s.IsFaithful := by
  induction h with
  | refl => exact fun call hcall => absurd hcall List.not_mem_nil
  | tail _ hstep ih => exact ih.of_step hstep

/-! ## Undisturbed calls -/

/-- Answers to everything, storage being answered from an archive. -/
def serve (others : (q : Surroundings.Query) → q.Answer) (a : Archive) :
    (q : Surroundings.Query) → q.Answer × Archive
  | .store q => (.ok (q.answer a).1, (q.answer a).2)
  | q => (others q, a)

/-- These answers are possible ones. -/
theorem serves_serve (others : (q : Surroundings.Query) → q.Answer) (a : Archive)
    (q : Surroundings.Query) : Serves a ⟨q, (serve others a q).1⟩ (serve others a q).2 := by
  cases q with
  | store q => exact .store q
  | now | peerOrder | fetch | submit | announce | pause | isCancelled | nonce | record =>
      refine .other _ _ ?_
      intro q hq
      cases hq

/-- A call may come to its end while nothing else happens. -/
theorem steps_undisturbed {admits : StoreQuery → Prop} {s : Site} {i : Nat} {call : Call}
    (hcall : s.calls[i]? = some call) (others : (q : Surroundings.Query) → q.Answer) :
    ∃ queue, Steps admits s { s with
      archive := (call.rest.run (serve others) s.archive).2
      queue
      calls := s.calls.set i { call with
        past := call.past ++ call.rest.transcript (serve others) s.archive
        rest := .done (call.rest.run (serve others) s.archive).1 } } := by
  obtain ⟨settings, request, past, rest⟩ := call
  induction rest generalizing s past with
  | done result =>
      refine ⟨s.queue, ?_⟩
      obtain ⟨hlength, hget⟩ := List.getElem?_eq_some_iff.mp hcall
      have hsame : s.calls.set i ⟨settings, request, past, .done result⟩ = s.calls := by
        rw [← hget]
        exact List.set_getElem_self hlength
      simp only [transcript, run, List.append_nil, hsame]
      exact .refl
  | ask query next ih =>
      have hlength : i < s.calls.length := (List.getElem?_eq_some_iff.mp hcall).1
      let answer := (serve others s.archive query).1
      let behind : Call := ⟨settings, request, past ++ [⟨query, answer⟩], next answer⟩
      let s' : Site := { s with
        archive := (serve others s.archive query).2
        queue := s.queue ++ submitted ⟨query, answer⟩
        calls := s.calls.set i behind }
      have hstep : Step admits s s' :=
        .goOn i _ ⟨query, answer⟩ _ _ hcall (.ask query next answer) (serves_serve others _ query)
      have hbehind : s'.calls[i]? = some behind := List.getElem?_set_self hlength
      obtain ⟨queue, hsteps⟩ := ih answer (past ++ [⟨query, answer⟩]) hbehind
      refine ⟨queue, .head hstep ?_⟩
      simp only [s', List.set_set, List.append_assoc, List.singleton_append] at hsteps
      exact hsteps

end Site

end BridgeGuardian
