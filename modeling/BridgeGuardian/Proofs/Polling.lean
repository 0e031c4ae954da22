import BridgeGuardian.Polling

/-! # Waiting in rounds — how many checks are made, and what they come to

    A round is a pause and a check.  As long as pauses end by themselves and
    checks find nothing, rounds follow each other and the attempts that are
    left become fewer: `run_pollFor_pending` is this induction.  What ends the
    waiting is one more step, so a result found by the last check allowed, or
    in the course of the check during which the request is withdrawn, still
    counts.

    The world is a stream of results of checks, and its state is the number of
    checks that have been made.  `run_pollFor_along` carries the account over
    to every world that shows such a stream. -/

namespace BridgeGuardian

/-- When a request is withdrawn, told by its checks: they are counted from
    one. -/
inductive Withdrawal
  | never
  | before
  | during (check : Nat)
deriving DecidableEq, Repr

/-- Whether a request has been withdrawn once so many checks have been made. -/
def Withdrawal.hasCome (w : Withdrawal) (made : Nat) : Bool :=
  match w with
  | .never => false
  | .before => true
  | .during check => check ≤ made

namespace PollPolicy

variable {α : Type}

/-- What a check settles: it has found the value, or it failed. -/
def settled? : Except Failure (Option α) → Option (Except Failure α)
  | .error failure => some (.error failure)
  | .ok (some value) => some (.ok value)
  | .ok none => none

theorem settled?_eq_none_iff {result : Except Failure (Option α)} :
    settled? result = none ↔ result = .ok none := by
  match result with
  | .error failure => exact ⟨fun h => (nomatch h), fun h => (nomatch h)⟩
  | .ok (some value) => exact ⟨fun h => (nomatch h), fun h => (nomatch h)⟩
  | .ok none => exact ⟨fun _ => rfl, fun _ => rfl⟩

/-- The next check of a stream; the state counts the checks that have been
    made. -/
def nextCheck (results : Nat → Except Failure (Option α)) :
    StateM Nat (Except Failure (Option α)) :=
  fun made => (results (made + 1), made + 1)

/-- A pause makes no check, and one of any length is cut short exactly if the
    request has been withdrawn.  A pause of no length may be over before that
    is noticed. -/
def Heeds (w : Withdrawal) (pause : UInt64 → StateM Nat Pause) : Prop :=
  ∀ ms, 0 < ms → ∀ made,
    (pause ms).run made = (if w.hasCome made then .cancelled else .elapsed, made)

/-- A check is the first one that settles something. -/
structure IsFirstSettled (results : Nat → Except Failure (Option α)) (k : Nat)
    (outcome : Except Failure α) : Prop where
  pos : 1 ≤ k
  pending : ∀ i, 1 ≤ i → i < k → results i = .ok none
  settled : settled? (results k) = some outcome

/-! ## One round -/

section

variable {σ : Type} {expiry : Failure} {pause : StateM σ Pause}
variable {check : StateM σ (Except Failure (Option α))} {s s' s'' : σ} {left : Nat}

/-- A pause that is cut short ends the waiting before another check. -/
theorem run_pollFor_of_cancelled (hpause : pause.run s = (.cancelled, s')) :
    (pollFor expiry pause check (left + 1)).run s = (.error .cancelled, s') := by
  rw [pollFor, StateT.run_bind, hpause]
  rfl

/-- A check that settles something ends the waiting with it. -/
theorem run_pollFor_of_settled {result : Except Failure (Option α)} {outcome : Except Failure α}
    (hpause : pause.run s = (.elapsed, s')) (hcheck : check.run s' = (result, s''))
    (hsettled : settled? result = some outcome) :
    (pollFor expiry pause check (left + 1)).run s = (outcome, s'') := by
  rw [pollFor, StateT.run_bind, hpause]
  show (check >>= _).run s' = _
  rw [StateT.run_bind, hcheck]
  match result, hsettled with
  | .error failure, hsettled =>
      cases hsettled
      rfl
  | .ok (some value), hsettled =>
      cases hsettled
      rfl

/-- A check that finds nothing leaves the attempts behind it. -/
theorem run_pollFor_of_pending (hpause : pause.run s = (.elapsed, s'))
    (hcheck : check.run s' = (.ok none, s'')) :
    (pollFor expiry pause check (left + 1)).run s = (pollFor expiry pause check left).run s'' := by
  rw [pollFor, StateT.run_bind, hpause]
  show (check >>= _).run s' = _
  rw [StateT.run_bind, hcheck]
  rfl

end

/-! ## A stream of checks -/

section

variable {expiry : Failure} {pause : StateM Nat Pause}
variable {results : Nat → Except Failure (Option α)} {rounds : Nat}

/-- Rounds in which nothing is found are behind, and the attempts that are left
    follow. -/
theorem run_pollFor_pending (hpause : ∀ made < rounds, pause.run made = (.elapsed, made))
    (hpending : ∀ i, 1 ≤ i → i ≤ rounds → results i = .ok none) (left : Nat) :
    (pollFor expiry pause (nextCheck results) (rounds + left)).run 0
      = (pollFor expiry pause (nextCheck results) left).run rounds := by
  induction rounds generalizing left with
  | zero => rw [Nat.zero_add]
  | succ rounds ih =>
      have hfound : (nextCheck results).run rounds = (.ok none, rounds + 1) := by
        show (results (rounds + 1), rounds + 1) = _
        rw [hpending (rounds + 1) (Nat.succ_pos _) (Nat.le_refl _)]
      rw [Nat.add_assoc, Nat.add_comm 1 left,
        ih (fun made hmade => hpause made (Nat.lt_succ_of_lt hmade))
          (fun i hi hle => hpending i hi (Nat.le_succ_of_le hle)) (left + 1),
        run_pollFor_of_pending (hpause rounds (Nat.lt_succ_self _)) hfound]

/-- The first check that settles something is the last one. -/
theorem run_pollFor_of_isFirstSettled {attempts k : Nat} {outcome : Except Failure α}
    (hfirst : IsFirstSettled results k outcome) (hk : k ≤ attempts)
    (hpause : ∀ made < k, pause.run made = (.elapsed, made)) :
    (pollFor expiry pause (nextCheck results) attempts).run 0 = (outcome, k) := by
  obtain ⟨rounds, rfl⟩ := Nat.exists_eq_add_of_le' hfirst.pos
  obtain ⟨left, rfl⟩ := Nat.exists_eq_add_of_le hk
  rw [Nat.add_assoc, Nat.add_comm 1 left,
    run_pollFor_pending (fun made hmade => hpause made (Nat.lt_succ_of_lt hmade))
      (fun i hi hle => hfirst.pending i hi (Nat.lt_succ_of_le hle)) (left + 1)]
  exact run_pollFor_of_settled (hpause rounds (Nat.lt_succ_self _)) rfl hfirst.settled

/-- When no check settles anything, all of them are made and time is up. -/
theorem run_pollFor_of_unsettled {attempts : Nat}
    (hpending : ∀ i, 1 ≤ i → i ≤ attempts → results i = .ok none)
    (hpause : ∀ made < attempts, pause.run made = (.elapsed, made)) :
    (pollFor expiry pause (nextCheck results) attempts).run 0 = (.error expiry, attempts) :=
  run_pollFor_pending hpause hpending 0

/-- A request that is withdrawn when so many checks have found nothing is given
    up before the next one. -/
theorem run_pollFor_of_withdrawn {attempts : Nat} (hlt : rounds < attempts)
    (hpending : ∀ i, 1 ≤ i → i ≤ rounds → results i = .ok none)
    (hpause : ∀ made < rounds, pause.run made = (.elapsed, made))
    (hcancelled : pause.run rounds = (.cancelled, rounds)) :
    (pollFor expiry pause (nextCheck results) attempts).run 0 = (.error .cancelled, rounds) := by
  obtain ⟨left, rfl⟩ := Nat.exists_eq_add_of_lt hlt
  rw [Nat.add_assoc, run_pollFor_pending hpause hpending (left + 1)]
  exact run_pollFor_of_cancelled hcancelled

end

/-! ## Other worlds -/

/-- A world that shows a stream is waited in alike; `state` is its state by the
    number of checks made. -/
theorem run_pollFor_along {σ : Type} {pause : StateM Nat Pause}
    {results : Nat → Except Failure (Option α)} {pause' : StateM σ Pause}
    {check : StateM σ (Except Failure (Option α))} (expiry : Failure) (state : Nat → σ)
    (hpause : ∀ made, ∃ paused, pause.run made = (paused, made) ∧
      pause'.run (state made) = (paused, state made))
    (hcheck : ∀ made, check.run (state made) = (results (made + 1), state (made + 1)))
    (attempts made : Nat) :
    (pollFor expiry pause' check attempts).run (state made)
      = (((pollFor expiry pause (nextCheck results) attempts).run made).1,
        state ((pollFor expiry pause (nextCheck results) attempts).run made).2) := by
  induction attempts generalizing made with
  | zero => rfl
  | succ left ih =>
      obtain ⟨paused, hstream, hworld⟩ := hpause made
      cases paused with
      | cancelled => rw [run_pollFor_of_cancelled hstream, run_pollFor_of_cancelled hworld]
      | elapsed =>
          have hnext : (nextCheck results).run made = (results (made + 1), made + 1) := rfl
          cases hsettled : settled? (results (made + 1)) with
          | some outcome =>
              rw [run_pollFor_of_settled hstream hnext hsettled,
                run_pollFor_of_settled hworld (hcheck made) hsettled]
          | none =>
              have hnone := settled?_eq_none_iff.mp hsettled
              have hthere := hcheck made
              rw [hnone] at hnext hthere
              rw [run_pollFor_of_pending hstream hnext, run_pollFor_of_pending hworld hthere]
              exact ih (made + 1)

end PollPolicy

/-! ## Checks that are known beforehand -/

/-- A pause of the world of a stream, which a withdrawn request cuts short. -/
def Withdrawal.pause (w : Withdrawal) (_ : UInt64) : StateM Nat Pause :=
  fun made => (if w.hasCome made then .cancelled else .elapsed, made)

theorem Withdrawal.heeds_pause (w : Withdrawal) : PollPolicy.Heeds w w.pause :=
  fun _ _ _ => rfl

namespace CheckScript

open PollPolicy

variable {α : Type}

/-- The results of a script as a stream: behind the last nothing is found. -/
def stream (s : CheckScript α) (i : Nat) : Except Failure (Option α) :=
  s.results[i - 1]?.getD (.ok none)

/-- When the request of a script is withdrawn. -/
def withdrawal (s : CheckScript α) : Withdrawal :=
  if s.isCancelled then .before
  else match s.cancelledIn with
    | some (n + 1) => .during (n + 1)
    | _ => .never

/-- What is left of a script behind so many checks. -/
def behind (s : CheckScript α) (made : Nat) : CheckScript α where
  results := s.results.drop made
  isCancelled := s.withdrawal.hasCome made
  cancelledIn := s.cancelledIn
  made

theorem behind_zero {s : CheckScript α} (h : s.made = 0) : s.behind 0 = s := by
  obtain ⟨results, isCancelled, cancelledIn, made⟩ := s
  cases h
  have hnow : (withdrawal ⟨results, isCancelled, cancelledIn, 0⟩).hasCome 0 = isCancelled := by
    cases isCancelled with
    | true => rfl
    | false =>
        match cancelledIn with
        | none => rfl
        | some 0 => rfl
        | some (n + 1) => rfl
  rw [behind, hnow]
  rfl

/-- A request is withdrawn behind a check if it was before, or in its
    course. -/
theorem hasCome_succ (s : CheckScript α) (made : Nat) :
    s.withdrawal.hasCome (made + 1)
      = (s.withdrawal.hasCome made || s.cancelledIn == some (made + 1)) := by
  obtain ⟨results, isCancelled, cancelledIn, start⟩ := s
  cases isCancelled with
  | true => rfl
  | false =>
      match cancelledIn with
      | none => rfl
      | some 0 => rfl
      | some (n + 1) =>
          show decide (n + 1 ≤ made + 1)
            = (decide (n + 1 ≤ made) || some (n + 1) == some (made + 1))
          rw [Bool.eq_iff_iff]
          simp only [Bool.or_eq_true, decide_eq_true_eq, beq_iff_eq, Option.some.injEq]
          omega

theorem run_check_behind (s : CheckScript α) (made : Nat) :
    check.run (s.behind made) = (s.stream (made + 1), s.behind (made + 1)) := by
  have hresult : (s.results.drop made).head?.getD (.ok none) = s.stream (made + 1) := by
    rw [List.head?_drop]
    rfl
  show ((s.results.drop made).head?.getD (.ok none), _) = _
  rw [hresult, behind, behind, hasCome_succ, ← List.tail_drop]

/-- Waiting for a script is waiting for its stream. -/
theorem run_poll {s : CheckScript α} (hmade : s.made = 0) (p : PollPolicy) (what : String) :
    (p.poll what (fun _ => pause) check).run s
      = (((p.poll what s.withdrawal.pause (nextCheck s.stream)).run 0).1,
        s.behind ((p.poll what s.withdrawal.pause (nextCheck s.stream)).run 0).2) := by
  have hpause : ∀ made, ∃ paused, (s.withdrawal.pause p.interval).run made = (paused, made) ∧
      pause.run (s.behind made) = (paused, s.behind made) :=
    fun made => ⟨_, rfl, rfl⟩
  have hrun := run_pollFor_along (p.expiry what) s.behind hpause s.run_check_behind
    p.attempts.toNat 0
  rw [behind_zero hmade] at hrun
  exact hrun

end CheckScript

namespace PollPolicy

/-! ## Every stream, and every withdrawal -/

variable {α : Type}

/-- **Exactly the right number of checks.**  While nobody withdraws the request,
    checks are made up to the first that finds the value or fails, or as many
    as are allowed.  A request withdrawn before is not checked for at all; one
    withdrawn in the course of a check ends behind it, unless that check
    settles the matter or was the last one. -/
theorem checks_are_made_until_settled (p : PollPolicy) (what : String)
    (hinterval : 0 < p.interval) (results : Nat → Except Failure (Option α)) :
    let attempts := p.attempts.toNat
    let waited := fun pause : UInt64 → StateM Nat Pause =>
      (p.poll what pause (nextCheck results)).run 0
    (∀ pause, Heeds .never pause →
      (∀ k outcome, k ≤ attempts → IsFirstSettled results k outcome →
        waited pause = (outcome, k)) ∧
      ((∀ i, 1 ≤ i → i ≤ attempts → results i = .ok none) →
        waited pause = (.error (p.expiry what), attempts))) ∧
    (1 ≤ attempts → ∀ pause, Heeds .before pause →
      waited pause = (.error .cancelled, 0)) ∧
    ∀ n, 1 ≤ n → n ≤ attempts → (∀ i, 1 ≤ i → i < n → results i = .ok none) →
      ∀ pause, Heeds (.during n) pause →
        (results n = .ok none → n < attempts → waited pause = (.error .cancelled, n)) ∧
        (∀ outcome, settled? (results n) = some outcome → waited pause = (outcome, n)) ∧
        (results n = .ok none → n = attempts →
          waited pause = (.error (p.expiry what), attempts)) := by
  intro attempts waited
  refine ⟨?_, ?_, ?_⟩
  · intro pause hheeds
    have hpause : ∀ made, (pause p.interval).run made = (.elapsed, made) :=
      hheeds p.interval hinterval
    exact ⟨fun k outcome hk hfirst =>
        run_pollFor_of_isFirstSettled hfirst hk fun made _ => hpause made,
      fun hpending => run_pollFor_of_unsettled hpending fun made _ => hpause made⟩
  · intro hattempts pause hheeds
    exact run_pollFor_of_withdrawn hattempts
      (fun i hi hle => absurd (Nat.le_trans hi hle) (Nat.not_succ_le_zero 0))
      (fun made hmade => absurd hmade (Nat.not_lt_zero made)) (hheeds p.interval hinterval 0)
  · intro n hn hle hearlier pause hheeds
    -- up to this check nobody has withdrawn the request, and behind it somebody has
    have hpause : ∀ made < n, (pause p.interval).run made = (.elapsed, made) := by
      intro made hmade
      rw [hheeds p.interval hinterval made, Withdrawal.hasCome,
        decide_eq_false (Nat.not_le_of_lt hmade)]
      rfl
    have hcancelled : (pause p.interval).run n = (.cancelled, n) := by
      rw [hheeds p.interval hinterval n, Withdrawal.hasCome, decide_eq_true (Nat.le_refl n)]
      rfl
    have hpending : results n = .ok none → ∀ i, 1 ≤ i → i ≤ n → results i = .ok none := by
      intro hnone i hi hin
      rcases Nat.lt_or_eq_of_le hin with hlt | rfl
      · exact hearlier i hi hlt
      · exact hnone
    refine ⟨fun hnone hlt => ?_, fun outcome houtcome => ?_, fun hnone heq => ?_⟩
    · exact run_pollFor_of_withdrawn hlt (hpending hnone) hpause hcancelled
    · exact run_pollFor_of_isFirstSettled ⟨hn, hearlier, houtcome⟩ hle hpause
    · subst heq
      exact run_pollFor_of_unsettled (hpending hnone) hpause

/-- A script whose second check finds the value. -/
def secondTry : CheckScript Nat := ⟨[.ok none, .ok (some 5)], false, none, 0⟩

theorem isFirstSettled_secondTry : IsFirstSettled secondTry.stream 2 (.ok 5) where
  pos := Nat.succ_pos 1
  pending i hi hlt := by
    obtain rfl : i = 1 := Nat.le_antisymm (Nat.lt_succ_iff.mp hlt) hi
    rfl
  settled := rfl

/-- Three checks, with a millisecond before each. -/
def threeTries : PollPolicy := ⟨3, 1⟩

/-- Three checks are allowed and the second one finds the value: it is the last,
    also when the request is withdrawn in its course.  A request withdrawn
    before that is given up; one withdrawn in the course of the third check
    runs out of time when nothing is found. -/
theorem second_check_is_the_last :
    0 < threeTries.interval ∧ IsFirstSettled secondTry.stream 2 (.ok 5) ∧
    (∀ w : Withdrawal, Heeds w w.pause) ∧
    (threeTries.poll "five" (fun _ => CheckScript.pause) CheckScript.check).run secondTry
      = (.ok 5, secondTry.behind 2) ∧
    (threeTries.poll "five" Withdrawal.before.pause (nextCheck secondTry.stream)).run 0
      = (.error .cancelled, 0) ∧
    (threeTries.poll "five" (Withdrawal.during 1).pause (nextCheck secondTry.stream)).run 0
      = (.error .cancelled, 1) ∧
    (threeTries.poll "five" (Withdrawal.during 2).pause (nextCheck secondTry.stream)).run 0
      = (.ok 5, 2) ∧
    (threeTries.poll "five" (Withdrawal.during 3).pause
      (nextCheck fun _ => (.ok none : Except Failure (Option Nat)))).run 0
        = (.error (.expired "five not available after 3 attempts"), 3) := by
  have hinterval : 0 < threeTries.interval := by decide
  obtain ⟨hnever, hbefore, hduring⟩ :=
    checks_are_made_until_settled threeTries "five" hinterval secondTry.stream
  obtain ⟨-, -, hnothing⟩ := checks_are_made_until_settled threeTries "five" hinterval
    fun _ => (.ok none : Except Failure (Option Nat))
  refine ⟨hinterval, isFirstSettled_secondTry, Withdrawal.heeds_pause, ?_, ?_, ?_, ?_, ?_⟩
  · have hstream := (hnever _ (Withdrawal.heeds_pause .never)).1 2 (.ok 5) (by decide)
      isFirstSettled_secondTry
    rw [CheckScript.run_poll rfl]
    exact congrArg (fun waited => (waited.1, secondTry.behind waited.2)) hstream
  · exact hbefore (by decide) _ (Withdrawal.heeds_pause .before)
  · exact (hduring 1 (by decide) (by decide) (fun i hi hlt => absurd hlt (Nat.not_lt_of_le hi)) _
      (Withdrawal.heeds_pause (.during 1))).1 rfl (by decide)
  · exact (hduring 2 (by decide) (by decide) isFirstSettled_secondTry.pending _
      (Withdrawal.heeds_pause (.during 2))).2.1 (.ok 5) rfl
  · exact (hnothing 3 (by decide) (by decide) (fun _ _ _ => rfl) _
      (Withdrawal.heeds_pause (.during 3))).2.2 rfl rfl

end PollPolicy

end BridgeGuardian
