import BridgeGuardian.Program
import BridgeGuardian.Proofs.Outcome

/-! # Transcripts — what passes between a program and the world

    A transcript lists the queries that came up in a run together with the
    answers that were given.  `Yields p t value` says that `p` comes to
    `value` by way of `t`.  Nothing is assumed about who answers, so a
    statement about every transcript of a program is a statement about
    every behaviour of the world; `yields_transcript` gives the transcript
    of a run against a particular answerer.

    `OnlyAsks asks p` bounds the queries that can come up at all, whatever
    the answers are. -/

namespace BridgeGuardian

/-- A query and what was answered. -/
structure Exchange (I : Interface) where
  query : I.Query
  answer : I.Answer query

/-- Queries with their answers, in the order in which they came up. -/
abbrev Transcript (I : Interface) := List (Exchange I)

namespace Program

variable {I : Interface} {α β ε : Type}

/-- A program comes to a value by way of a transcript. -/
inductive Yields : Program I α → Transcript I → α → Prop
  | done (value : α) : Yields (.done value) [] value
  | ask {query : I.Query} {next : I.Answer query → Program I α} {answer : I.Answer query}
      {t : Transcript I} {value : α} :
      Yields (next answer) t value → Yields (.ask query next) (⟨query, answer⟩ :: t) value

/-- A program that is done asks nothing more. -/
theorem yields_done_iff {value result : α} {t : Transcript I} :
    Yields (.done value) t result ↔ t = [] ∧ result = value := by
  constructor
  · intro h
    cases h
    exact ⟨rfl, rfl⟩
  · rintro ⟨rfl, rfl⟩
    exact .done _

/-- A program that asks goes on with whatever it is told. -/
theorem yields_ask_iff {query : I.Query} {next : I.Answer query → Program I α}
    {t : Transcript I} {result : α} :
    Yields (.ask query next) t result ↔
      ∃ answer rest, t = ⟨query, answer⟩ :: rest ∧ Yields (next answer) rest result := by
  constructor
  · intro h
    cases h with
    | ask h => exact ⟨_, _, rfl, h⟩
  · rintro ⟨answer, rest, rfl, h⟩
    exact .ask h

/-- The transcript of programs in sequence is their transcripts in sequence. -/
theorem yields_bind_iff {p : Program I α} {f : α → Program I β} {t : Transcript I} {result : β} :
    Yields (p >>= f) t result ↔
      ∃ value t₁ t₂, t = t₁ ++ t₂ ∧ Yields p t₁ value ∧ Yields (f value) t₂ result := by
  -- the transcript is cut where the first program is done
  induction p generalizing t with
  | done value =>
      rw [done_bind]
      constructor
      · intro h
        exact ⟨value, [], t, rfl, .done _, h⟩
      · rintro ⟨v, t₁, t₂, rfl, h₁, h₂⟩
        obtain ⟨rfl, rfl⟩ := yields_done_iff.mp h₁
        exact h₂
  | ask query next ih =>
      rw [ask_bind, yields_ask_iff]
      constructor
      · rintro ⟨answer, rest, rfl, h⟩
        obtain ⟨v, t₁, t₂, rfl, h₁, h₂⟩ := (ih answer).mp h
        exact ⟨v, _ :: t₁, t₂, rfl, .ask h₁, h₂⟩
      · rintro ⟨v, t₁, t₂, rfl, h₁, h₂⟩
        obtain ⟨answer, rest, rfl, hrest⟩ := yields_ask_iff.mp h₁
        exact ⟨answer, rest ++ t₂, rfl, (ih answer).mpr ⟨v, rest, t₂, rfl, hrest, h₂⟩⟩

/-! ## Programs that may fail -/

/-- A failure ends a sequence; a value is what the sequence goes on with. -/
theorem yields_bindExcept_iff {x : ExceptT ε (Program I) α} {f : α → ExceptT ε (Program I) β}
    {t : Transcript I} {result : Except ε β} :
    Yields (x >>= f).run t result ↔
      (∃ fault, Yields x.run t (.error fault) ∧ result = .error fault) ∨
      ∃ value t₁ t₂, t = t₁ ++ t₂ ∧ Yields x.run t₁ (.ok value) ∧
        Yields (f value).run t₂ result := by
  rw [ExceptT.run_bind, yields_bind_iff]
  constructor
  · rintro ⟨outcome, t₁, t₂, rfl, h₁, h₂⟩
    cases outcome with
    | error fault =>
        obtain ⟨rfl, rfl⟩ := yields_done_iff.mp h₂
        exact .inl ⟨fault, by rwa [List.append_nil], rfl⟩
    | ok value => exact .inr ⟨value, t₁, t₂, rfl, h₁, h₂⟩
  · rintro (⟨fault, h, rfl⟩ | ⟨value, t₁, t₂, rfl, h₁, h₂⟩)
    · exact ⟨.error fault, t, [], by rw [List.append_nil], h, .done _⟩
    · exact ⟨.ok value, t₁, t₂, rfl, h₁, h₂⟩

/-- A sequence succeeds when its parts succeed one after the other. -/
theorem yields_bindExcept_ok_iff {x : ExceptT ε (Program I) α} {f : α → ExceptT ε (Program I) β}
    {t : Transcript I} {result : β} :
    Yields (x >>= f).run t (.ok result) ↔
      ∃ value t₁ t₂, t = t₁ ++ t₂ ∧ Yields x.run t₁ (.ok value) ∧
        Yields (f value).run t₂ (.ok result) := by
  rw [yields_bindExcept_iff]
  constructor
  · rintro (⟨fault, -, h⟩ | h)
    · cases h
    · exact h
  · exact .inr

/-! ## Runs -/

variable {σ : Type}

/-- The transcript of a run. -/
def transcript (answer : σ → (q : I.Query) → I.Answer q × σ) : Program I α → σ → Transcript I
  | .done _, _ => []
  | .ask q next, s =>
      ⟨q, (answer s q).1⟩ :: (next (answer s q).1).transcript answer (answer s q).2

/-- A run comes to its value by way of its transcript. -/
theorem yields_transcript (answer : σ → (q : I.Query) → I.Answer q × σ) (p : Program I α)
    (s : σ) : Yields p (p.transcript answer s) (p.run answer s).1 := by
  induction p generalizing s with
  | done value => exact .done value
  | ask q next ih => exact .ask (ih _ _)

/-- The transcript of programs in sequence is their transcripts in sequence. -/
theorem transcript_bind (answer : σ → (q : I.Query) → I.Answer q × σ) (p : Program I α)
    (f : α → Program I β) (s : σ) :
    (p >>= f).transcript answer s
      = p.transcript answer s
        ++ (f (p.run answer s).1).transcript answer (p.run answer s).2 := by
  induction p generalizing s with
  | done value => rfl
  | ask q next ih => exact congrArg (⟨q, (answer s q).1⟩ :: ·) (ih _ _)

/-- Everything in a transcript has been answered in some state. -/
theorem exists_state_of_mem_transcript {answer : σ → (q : I.Query) → I.Answer q × σ}
    {p : Program I α} {s : σ} {e : Exchange I} (h : e ∈ p.transcript answer s) :
    ∃ s', e.answer = (answer s' e.query).1 := by
  induction p generalizing s with
  | done value => exact absurd h List.not_mem_nil
  | ask q next ih =>
      rcases List.mem_cons.mp h with rfl | h
      · exact ⟨s, rfl⟩
      · exact ih _ h

/-- One who always answers alike has given these answers. -/
theorem answer_of_mem_transcript (answer : (q : I.Query) → I.Answer q) {p : Program I α}
    {e : Exchange I} (h : e ∈ p.transcript (fun s q => (answer q, s)) ()) :
    e.answer = answer e.query := by
  obtain ⟨_, hanswer⟩ := exists_state_of_mem_transcript h
  exact hanswer

/-! ## One exchange at a time -/

/-- A program that asks goes on with an answer. -/
inductive Moves : Program I α → Exchange I → Program I α → Prop
  | ask (query : I.Query) (next : I.Answer query → Program I α) (answer : I.Answer query) :
      Moves (.ask query next) ⟨query, answer⟩ (next answer)

/-- What comes behind an exchange is what comes of the program with it in
    front. -/
theorem Moves.yields {p p' : Program I α} {e : Exchange I} {t : Transcript I} {value : α}
    (hmove : Moves p e p') (h : Yields p' t value) : Yields p (e :: t) value := by
  cases hmove with
  | ask query next answer => exact .ask h

/-! ## Bounds on what is asked -/

/-- Every query that can come up is of a certain kind. -/
def OnlyAsks (asks : I.Query → Prop) : Program I α → Prop
  | .done _ => True
  | .ask query next => asks query ∧ ∀ answer, (next answer).OnlyAsks asks

variable {asks : I.Query → Prop}

/-- What can be asked bounds what was asked. -/
theorem Yields.onlyAsks {p : Program I α} {t : Transcript I} {value : α}
    (h : Yields p t value) (hp : p.OnlyAsks asks) : ∀ e ∈ t, asks e.query := by
  induction h with
  | done value => exact fun e he => absurd he List.not_mem_nil
  | ask h ih =>
      intro e he
      rcases List.mem_cons.mp he with rfl | he
      · exact hp.1
      · exact ih (hp.2 _) e he

/-- The bound holds for the next exchange and behind it. -/
theorem OnlyAsks.of_moves {p p' : Program I α} {e : Exchange I} (h : p.OnlyAsks asks)
    (hmove : Moves p e p') : asks e.query ∧ p'.OnlyAsks asks := by
  cases hmove with
  | ask query next answer => exact ⟨h.1, h.2 answer⟩

theorem OnlyAsks.mono {asks' : I.Query → Prop} {p : Program I α}
    (h : p.OnlyAsks asks) (hasks : ∀ q, asks q → asks' q) : p.OnlyAsks asks' := by
  induction p with
  | done value => trivial
  | ask query next ih => exact ⟨hasks query h.1, fun answer => ih answer (h.2 answer)⟩

/-- Programs in sequence ask what their parts ask. -/
theorem onlyAsks_bind {p : Program I α} {f : α → Program I β}
    (hp : p.OnlyAsks asks) (hf : ∀ value, (f value).OnlyAsks asks) :
    (p >>= f).OnlyAsks asks := by
  induction p with
  | done value => exact hf value
  | ask query next ih => exact ⟨hp.1, fun answer => ih answer (hp.2 answer)⟩

/-- Programs that may fail ask in sequence what their parts ask. -/
theorem onlyAsks_bindExcept {x : ExceptT ε (Program I) α} {f : α → ExceptT ε (Program I) β}
    (hx : x.run.OnlyAsks asks) (hf : ∀ value, (f value).run.OnlyAsks asks) :
    (x >>= f).run.OnlyAsks asks := by
  rw [ExceptT.run_bind]
  refine onlyAsks_bind hx ?_
  intro outcome
  cases outcome with
  | error fault => trivial
  | ok value => exact hf value

end Program

end BridgeGuardian
