/-! # Programs — what a service does, apart from what the world answers

    A program is a tree: it is done with a value, or it asks its
    surroundings something and goes on with the answer, whatever that is.
    An interface lists the queries and gives the type of each answer.
    Nothing is known about the answers until somebody gives them, so a
    statement about a program holds for every behaviour of the world.

    `run` answers the queries one by one from a state, and `asked` is the
    list of the queries that come up on the way. -/

namespace BridgeGuardian

/-- What may be asked, and what an answer looks like. -/
structure Interface where
  Query : Type
  Answer : Query → Type

/-- A finite tree of queries. -/
inductive Program (I : Interface) (α : Type)
  | done (value : α)
  | ask (query : I.Query) (next : I.Answer query → Program I α)

namespace Program

variable {I : Interface} {α β : Type}

/-- Go on with the value of a program. -/
def bind : Program I α → (α → Program I β) → Program I β
  | .done value, f => f value
  | .ask query next, f => .ask query fun answer => (next answer).bind f

/-- Programs in sequence: one goes on where the other is done. -/
instance : Monad (Program I) where
  pure := .done
  bind := bind

/-- Ask one thing. -/
def query (q : I.Query) : Program I (I.Answer q) := .ask q .done

@[simp] theorem pure_bind' (value : α) (f : α → Program I β) :
    (pure value : Program I α) >>= f = f value := rfl

@[simp] theorem done_bind (value : α) (f : α → Program I β) :
    (Program.done value : Program I α) >>= f = f value := rfl

@[simp] theorem ask_bind (q : I.Query) (next : I.Answer q → Program I α)
    (f : α → Program I β) :
    (Program.ask q next) >>= f = .ask q fun answer => next answer >>= f := rfl

theorem bind_done (p : Program I α) : p >>= Program.done = p := by
  induction p with
  | done value => rfl
  | ask q next ih => exact congrArg (Program.ask q) (funext ih)

theorem bind_bind {γ : Type} (p : Program I α) (f : α → Program I β) (g : β → Program I γ) :
    p >>= f >>= g = p >>= fun value => f value >>= g := by
  induction p with
  | done value => rfl
  | ask q next ih => exact congrArg (Program.ask q) (funext ih)

/-- How programs in sequence are grouped does not matter. -/
instance : LawfulMonad (Program I) :=
  LawfulMonad.mk' (m := Program I)
    (fun p => bind_done p)
    (fun _ _ => rfl)
    (fun p f g => bind_bind p f g)

/-! ## Running -/

variable {σ : Type}

/-- Answer the queries of a program one after the other. -/
def run (answer : σ → (q : I.Query) → I.Answer q × σ) : Program I α → σ → α × σ
  | .done value, s => (value, s)
  | .ask q next, s => (next (answer s q).1).run answer (answer s q).2

/-- The queries that come up while a program runs, in order. -/
def asked (answer : σ → (q : I.Query) → I.Answer q × σ) : Program I α → σ → List I.Query
  | .done _, _ => []
  | .ask q next, s => q :: (next (answer s q).1).asked answer (answer s q).2

/-- A program in sequence runs in sequence. -/
theorem run_bind (answer : σ → (q : I.Query) → I.Answer q × σ) (p : Program I α)
    (f : α → Program I β) (s : σ) :
    (p >>= f).run answer s = (f (p.run answer s).1).run answer (p.run answer s).2 := by
  induction p generalizing s with
  | done value => rfl
  | ask q next ih => exact ih _ _

end Program

end BridgeGuardian
