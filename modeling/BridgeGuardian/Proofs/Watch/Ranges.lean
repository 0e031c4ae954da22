import BridgeGuardian.Proofs.Configured
import BridgeGuardian.Proofs.Watch.Cycle

/-! # Ranges — when the arithmetic of a cycle is safe

    The end of a range is a sum, which is cut back to the last event in
    sight once it has been formed.  So the size of a batch counts in full,
    also where few events are left: every sum and difference of a cycle
    stays within 64 bits exactly if the size of a batch can be added to the
    start of the last range.

    Then the ranges tile the events in sight, and a cycle asks for all of
    them unless an event stops it.  Otherwise a range may end before it
    starts, also with settings that are accepted. -/

namespace BridgeGuardian.Watch

open Program

/-! ## Words of 64 bits -/

/-- A sum, if it stays within 64 bits. -/
def sum? (a b : UInt64) : Option UInt64 :=
  if a.toNat + b.toNat < 2 ^ 64 then some (a + b) else none

/-- A difference, unless it falls below zero. -/
def difference? (a b : UInt64) : Option UInt64 :=
  if b ≤ a then some (a - b) else none

theorem sum?_of_lt {a b : UInt64} (h : a.toNat + b.toNat < 2 ^ 64) : sum? a b = some (a + b) :=
  if_pos h

theorem sum?_of_le {a b : UInt64} (h : 2 ^ 64 ≤ a.toNat + b.toNat) : sum? a b = none :=
  if_neg (Nat.not_lt.mpr h)

theorem difference?_of_le {a b : UInt64} (h : b ≤ a) : difference? a b = some (a - b) :=
  if_pos h

/-! ## Ranges with a watch on every sum -/

namespace EventRange

/-- The number of indexes, with a watch on the difference and the sum. -/
def size? (r : EventRange) : Option UInt64 := do
  let apart ← difference? r.last r.first
  sum? apart 1

/-- The range that starts at an index, with a watch on every sum and
    difference. -/
def from? (batchSize count start : UInt64) : Option EventRange := do
  let behind ← sum? start batchSize
  let reach ← difference? behind 1
  let greatest ← difference? count 1
  return ⟨start, min reach greatest⟩

/-- `upTo` with a watch on every sum and difference; it also fails when
    `left` ranges do not do. -/
def upTo? (batchSize count : UInt64) :
    (left : Nat) → (start : UInt64) → Option (List EventRange)
  | 0, start => if start < count then none else some []
  | left + 1, start =>
      if start < count then do
        let range ← from? batchSize count start
        let _expected ← range.size?
        let next ← sum? range.last 1
        let others ← upTo? batchSize count left next
        return range :: others
      else some []

/-- `cover` with a watch on every sum and difference. -/
def cover? (batchSize start count : UInt64) : Option (List EventRange) :=
  upTo? batchSize count (count.toNat - start.toNat) start

/-- Where the last range starts: as many full batches behind `start` as
    leave an event in sight. -/
def lastStart (batchSize start count : Nat) : Nat :=
  start + (count - 1 - start) / batchSize * batchSize

/-- The size of a batch can be added to the start of the last range within
    64 bits, unless there is no range. -/
def LastFits (batchSize start count : UInt64) : Prop :=
  start < count →
    lastStart batchSize.toNat start.toNat count.toNat + batchSize.toNat < 2 ^ 64

/-- The start of the last range is worked out, and one sum compared. -/
instance (batchSize start count : UInt64) : Decidable (LastFits batchSize start count) :=
  inferInstanceAs (Decidable (start < count →
    lastStart batchSize.toNat start.toNat count.toNat + batchSize.toNat < 2 ^ 64))

/-- It is enough that the size of a batch can be added to the number of
    events. -/
theorem LastFits.of_count_le {batchSize start count : UInt64}
    (h : count.toNat + batchSize.toNat ≤ 2 ^ 64) : LastFits batchSize start count := by
  intro hlt
  rw [UInt64.lt_iff_toNat_lt] at hlt
  have hmul := Nat.div_mul_le_self (count.toNat - 1 - start.toNat) batchSize.toNat
  unfold lastStart
  omega

theorem le_lastStart (batchSize start count : Nat) : start ≤ lastStart batchSize start count :=
  Nat.le_add_right _ _

/-- Behind a full batch the last range starts where it started before. -/
theorem lastStart_behind {batchSize start count : Nat} (hsize : 0 < batchSize)
    (hlt : start + batchSize < count) :
    lastStart batchSize (start + batchSize) count = lastStart batchSize start count := by
  have hsplit : count - 1 - start = (count - 1 - (start + batchSize)) + batchSize := by omega
  unfold lastStart
  rw [hsplit, Nat.add_div_right _ hsize, Nat.succ_mul]
  omega

theorem lastStart_of_le {batchSize start count : Nat} (hle : count ≤ start + batchSize)
    (hlt : start < count) : lastStart batchSize start count = start := by
  rw [lastStart, Nat.div_eq_of_lt (by omega), Nat.zero_mul, Nat.add_zero]

section

variable {batchSize count start : UInt64}

/-- Whether the size of a batch can be added to the start of the last range
    is decided here if there is no other range, and behind this one if there
    is. -/
theorem lastFits_iff (hsize : 1 ≤ batchSize) (hlt : start < count) :
    LastFits batchSize start count ↔ start.toNat + batchSize.toNat < 2 ^ 64 ∧
      LastFits batchSize ((batch batchSize count start).last + 1) count := by
  have hcount := UInt64.lt_iff_toNat_lt.mp hlt
  have hone : 1 ≤ batchSize.toNat := UInt64.le_iff_toNat_le.mp hsize
  by_cases hfits : start.toNat + batchSize.toNat < 2 ^ 64
  · have hbehind := toNat_behind_batch hsize hlt hfits
    by_cases hmore : start.toNat + batchSize.toNat < count.toNat
    · have hsame := lastStart_behind hone hmore
      rw [LastFits, LastFits, UInt64.lt_iff_toNat_lt, UInt64.lt_iff_toNat_lt, hbehind,
        Nat.min_eq_left hmore.le, hsame]
      exact ⟨fun h => ⟨hfits, fun _ => h hcount⟩, fun h _ => h.2 hmore⟩
    · have hone := lastStart_of_le (Nat.not_lt.mp hmore) hcount
      rw [LastFits, LastFits, UInt64.lt_iff_toNat_lt, UInt64.lt_iff_toNat_lt, hbehind, hone]
      exact ⟨fun _ => ⟨hfits, fun h => by omega⟩, fun _ _ => hfits⟩
  · have hstart := le_lastStart batchSize.toNat start.toNat count.toNat
    exact ⟨fun h => absurd (h hlt) (by omega), fun h => absurd h.1 hfits⟩

/-- What holds of no range, and of a row of ranges with a batch in front,
    holds of all the ranges up to `count`, if the last of them fits. -/
theorem upTo_induction {motive : Nat → UInt64 → List EventRange → Prop} (hsize : 1 ≤ batchSize)
    (done : ∀ left start, ¬ start < count → motive left start [])
    (more : ∀ left start others, start < count → start.toNat + batchSize.toNat < 2 ^ 64 →
      motive left ((batch batchSize count start).last + 1) others →
      motive (left + 1) start (batch batchSize count start :: others))
    {left : Nat} {start : UInt64} (hleft : count.toNat - start.toNat ≤ left)
    (hfits : LastFits batchSize start count) :
    motive left start (upTo batchSize count left start) := by
  induction left generalizing start with
  | zero =>
      refine done 0 start ?_
      rw [UInt64.lt_iff_toNat_lt]
      omega
  | succ left ih =>
      by_cases hlt : start < count
      · obtain ⟨hfit, hothers⟩ := (lastFits_iff hsize hlt).mp hfits
        have hone : 1 ≤ batchSize.toNat := UInt64.le_iff_toNat_le.mp hsize
        have hless : count.toNat - ((batch batchSize count start).last + 1).toNat ≤ left := by
          rw [toNat_behind_batch hsize hlt hfit]
          omega
        rw [upTo_of_lt hsize hlt hfit]
        exact more left start _ hlt hfit (ih hless hothers)
      · rw [upTo_of_not_lt hlt]
        exact done _ start hlt

/-! ## When the sums stay within 64 bits -/

theorem size?_eq_some {r : EventRange} (h : r.first ≤ r.last)
    (hbound : r.last.toNat + 1 < 2 ^ 64) : r.size? = some r.size := by
  have hsub := UInt64.toNat_sub_of_le _ _ h
  rw [size?, difference?_of_le h]
  refine sum?_of_lt ?_
  rw [hsub, UInt64.toNat_one]
  omega

/-- The sum at the end of a range is the only one that matters. -/
theorem from?_eq_some (hsize : 1 ≤ batchSize) (hlt : start < count)
    (hfits : start.toNat + batchSize.toNat < 2 ^ 64) :
    from? batchSize count start = some (batch batchSize count start) := by
  rw [from?, sum?_of_lt hfits, Option.bind_eq_bind, Option.bind_some,
    difference?_of_le (one_le_add hsize hfits), difference?_of_le (one_le_of_lt hlt)]
  rfl

theorem from?_eq_none (hfits : 2 ^ 64 ≤ start.toNat + batchSize.toNat) :
    from? batchSize count start = none := by
  rw [from?, sum?_of_le hfits]
  rfl

/-- One range with its checks, and those behind it. -/
theorem upTo?_of_lt (hsize : 1 ≤ batchSize) (hlt : start < count)
    (hfits : start.toNat + batchSize.toNat < 2 ^ 64) (left : Nat) :
    upTo? batchSize count (left + 1) start =
      (upTo? batchSize count left ((batch batchSize count start).last + 1)).map
        (batch batchSize count start :: ·) := by
  have hbound := add_one_lt_of_lt (last_batch_lt hsize hlt hfits)
  rw [upTo?, if_pos hlt, from?_eq_some hsize hlt hfits, Option.bind_eq_bind, Option.bind_some,
    size?_eq_some (first_le_last_batch hsize hlt hfits) hbound, Option.bind_eq_bind,
    Option.bind_some, sum?_of_lt hbound, Option.bind_eq_bind, Option.bind_some]
  cases upTo? batchSize count left ((batch batchSize count start).last + 1) <;> rfl

theorem upTo?_eq_some (hsize : 1 ≤ batchSize) {left : Nat}
    (hleft : count.toNat - start.toNat ≤ left) (hfits : LastFits batchSize start count) :
    upTo? batchSize count left start = some (upTo batchSize count left start) := by
  refine upTo_induction (motive := fun left start ranges =>
    upTo? batchSize count left start = some ranges) hsize ?_ ?_ hleft hfits
  · intro left start hlt
    cases left with
    | zero => exact if_neg hlt
    | succ left => exact if_neg hlt
  · intro left start others hlt hfit hothers
    rw [upTo?_of_lt hsize hlt hfit, hothers]
    rfl

theorem upTo?_eq_none (hsize : 1 ≤ batchSize) (left : Nat)
    (hfits : ¬ LastFits batchSize start count) : upTo? batchSize count left start = none := by
  induction left generalizing start with
  | zero => exact if_pos (Classical.not_imp.mp hfits).1
  | succ left ih =>
      have hlt : start < count := (Classical.not_imp.mp hfits).1
      by_cases hfit : start.toNat + batchSize.toNat < 2 ^ 64
      · have hothers := fun h => hfits ((lastFits_iff hsize hlt).mpr ⟨hfit, h⟩)
        rw [upTo?_of_lt hsize hlt hfit, ih hothers]
        rfl
      · rw [upTo?, if_pos hlt, from?_eq_none (Nat.not_lt.mp hfit)]
        rfl

/-- No sum leaves 64 bits exactly if the last range fits. -/
theorem cover?_eq_some_iff (hsize : 1 ≤ batchSize) :
    cover? batchSize start count = some (cover batchSize start count) ↔
      LastFits batchSize start count := by
  constructor
  · intro h
    by_contra hfits
    cases (upTo?_eq_none hsize _ hfits).symm.trans h
  · exact upTo?_eq_some hsize (Nat.le_refl _)

end

-- two events are in sight, but a batch of four reaches beyond 64 bits
example : ¬ LastFits 4 18446744073709551613 18446744073709551615 := by decide

/-! ## Ranges that tile the events in sight -/

/-- What the ranges from `start` up to `count` have to be. -/
structure IsTiling (batchSize start count : UInt64) (ranges : List EventRange) : Prop where
  nonempty : ∀ r ∈ ranges, r.first ≤ r.last
  inSight : ∀ r ∈ ranges, r.last < count
  short : ∀ r ∈ ranges, r.last.toNat - r.first.toNat + 1 ≤ batchSize.toNat
  starts : ranges.head?.map first = if start < count then some start else none
  consecutive : ranges.IsChain fun r r' => r'.first.toNat = r.last.toNat + 1
  ends : ranges.getLast?.map last = if start < count then some (count - 1) else none

section

variable {batchSize count start : UInt64}

theorem isTiling_nil (h : ¬ start < count) : IsTiling batchSize start count [] where
  nonempty _ hr := absurd hr List.not_mem_nil
  inSight _ hr := absurd hr List.not_mem_nil
  short _ hr := absurd hr List.not_mem_nil
  starts := (if_neg h).symm
  consecutive := .nil
  ends := (if_neg h).symm

/-- A batch in front of the ranges behind it. -/
theorem IsTiling.cons {others : List EventRange} (hsize : 1 ≤ batchSize) (hlt : start < count)
    (hfits : start.toNat + batchSize.toNat < 2 ^ 64)
    (h : IsTiling batchSize ((batch batchSize count start).last + 1) count others) :
    IsTiling batchSize start count (batch batchSize count start :: others) := by
  have hlast := toNat_last_batch hsize hlt hfits
  have hbehind := toNat_behind_batch hsize hlt hfits
  have hone : 1 ≤ batchSize.toNat := UInt64.le_iff_toNat_le.mp hsize
  have hcount := UInt64.lt_iff_toNat_lt.mp hlt
  constructor
  case nonempty => exact List.forall_mem_cons.mpr ⟨first_le_last_batch hsize hlt hfits, h.nonempty⟩
  case inSight => exact List.forall_mem_cons.mpr ⟨last_batch_lt hsize hlt hfits, h.inSight⟩
  case short =>
    refine List.forall_mem_cons.mpr ⟨?_, h.short⟩
    show _ - start.toNat + 1 ≤ _
    omega
  case starts => exact (if_pos hlt).symm
  case consecutive =>
    refine List.isChain_cons.mpr ⟨?_, h.consecutive⟩
    intro r' hr'
    have hstarts := h.starts
    rw [Option.mem_def.mp hr', Option.map_some] at hstarts
    split at hstarts
    · rw [Option.some.inj hstarts]
      exact toNat_add_one (add_one_lt_of_lt (last_batch_lt hsize hlt hfits))
    · cases hstarts
  case ends =>
    have hends := h.ends
    rw [if_pos hlt, List.getLast?_cons, Option.map_some]
    refine congrArg some ?_
    cases hgreatest : others.getLast? with
    | some r =>
        rw [hgreatest, Option.map_some] at hends
        split at hends
        · exact Option.some.inj hends
        · cases hends
    | none =>
        -- no range follows, so the batch has come to the last event
        rw [hgreatest, Option.map_none] at hends
        have hnot : ¬ (batch batchSize count start).last + 1 < count := by
          intro hmore
          rw [if_pos hmore] at hends
          cases hends
        rw [UInt64.lt_iff_toNat_lt, hbehind] at hnot
        refine UInt64.toNat_inj.mp ?_
        show (batch batchSize count start).last.toNat = _
        rw [hlast, UInt64.toNat_sub_of_le _ _ (one_le_of_lt hlt), UInt64.toNat_one]
        omega

theorem isTiling_cover (hsize : 1 ≤ batchSize) (hfits : LastFits batchSize start count) :
    IsTiling batchSize start count (cover batchSize start count) :=
  upTo_induction (motive := fun _ start ranges => IsTiling batchSize start count ranges) hsize
    (fun _ _ hlt => isTiling_nil hlt) (fun _ _ _ hlt hfit h => h.cons hsize hlt hfit)
    (Nat.le_refl _) hfits

/-- If the last range fits, they all do. -/
theorem fits_of_mem_cover (hsize : 1 ≤ batchSize) (hfits : LastFits batchSize start count) :
    ∀ r ∈ cover batchSize start count, r.first.toNat + batchSize.toNat < 2 ^ 64 :=
  upTo_induction
    (motive := fun _ _ ranges => ∀ r ∈ ranges, r.first.toNat + batchSize.toNat < 2 ^ 64) hsize
    (fun _ _ _ _ hr => absurd hr List.not_mem_nil)
    (fun _ _ _ _ hfit h => List.forall_mem_cons.mpr ⟨hfit, h⟩) (Nat.le_refl _) hfits

/-- The index behind an event stays within 64 bits. -/
theorem IsTiling.sum?_index {ranges : List EventRange} (h : IsTiling batchSize start count ranges)
    {r : EventRange} (hr : r ∈ ranges) {events : List Event}
    (hlength : events.length = r.size.toNat) {i : UInt64} {event : Event}
    (hmem : (i, event) ∈ numbered r.first events) : sum? i 1 = some (i + 1) := by
  have hle := h.nonempty r hr
  have hbound := add_one_lt_of_lt (h.inSight r hr)
  rw [toNat_size hle hbound] at hlength
  rw [UInt64.le_iff_toNat_le] at hle
  obtain ⟨hfirst, hevent⟩ := (mem_numbered_iff (by omega)).mp hmem
  rw [UInt64.le_iff_toNat_le] at hfirst
  have hplace := (List.getElem?_eq_some_iff.mp hevent).1
  refine sum?_of_lt ?_
  rw [UInt64.toNat_one]
  omega

end

end EventRange

/-! ## The ranges that a cycle asks for -/

/-- The range that an exchange asks for. -/
def askedRange? : Exchange Surroundings → Option EventRange
  | ⟨.node (.events _ first last), _⟩ => some ⟨first, last⟩
  | _ => none

/-- The ranges that were asked for, in order. -/
def askedRanges (t : Transcript Surroundings) : List EventRange := t.filterMap askedRange?

theorem askedRanges_append (t t' : Transcript Surroundings) :
    askedRanges (t ++ t') = askedRanges t ++ askedRanges t' :=
  List.filterMap_append

/-- Whoever asks about blocks only asks for no range. -/
theorem askedRanges_eq_nil {t : Transcript Surroundings}
    (h : ∀ e ∈ t, e.query.IsAboutBlocks) : askedRanges t = [] := by
  refine List.filterMap_eq_nil_iff.mpr fun e he => ?_
  obtain ⟨query, answer⟩ := e
  cases query with
  | node q =>
      cases q with
      | events contract first last => cases h _ he
      | eventCount | header | isInMainChain | height => rfl
  | readIndex | writeIndex | deliver | pause | record => rfl

/-- Where all ranges that were asked for fit, no sum leaves 64 bits. -/
theorem rangesFit_of_askedRanges {batchSize : UInt64} {t : Transcript Surroundings}
    (h : ∀ r ∈ askedRanges t, r.first.toNat + batchSize.toNat < 2 ^ 64) :
    RangesFit batchSize t := by
  intro e he
  obtain ⟨query, answer⟩ := e
  cases query with
  | node q =>
      cases q with
      | events contract first last =>
          exact decide_eq_true (h ⟨first, last⟩ (List.mem_filterMap.mpr ⟨_, he, rfl⟩))
      | eventCount | header | isInMainChain | height => rfl
  | readIndex | writeIndex | deliver | pause | record => rfl

section

variable {s : Settings} {contract : String} {t : Transcript Surroundings}

/-- Reading a range asks for this one, whatever comes of it. -/
theorem askedRanges_readRange {r : EventRange} {result : Except WatchFailure Confirmation}
    (h : Yields (readRange s contract r).run t result) : askedRanges t = [r] := by
  rw [readRange_eq] at h
  rcases yields_bindExcept_iff.mp h with ⟨failure, h₁, -⟩ | ⟨events, t₁, t₂, rfl, h₁, h₂⟩
  · rw [Step.yields_node_iff.mp h₁]
    rfl
  · rw [Step.yields_node_iff.mp h₁, askedRanges_append,
      askedRanges_eq_nil (h₂.onlyAsks (onlyAsks_judgeRange s contract r events))]
    rfl

/-- Reading ranges asks for some of them, from the first on. -/
theorem askedRanges_readRanges {ranges : List EventRange} {next : UInt64}
    {result : Except WatchFailure (List ConfirmedEvent × UInt64)}
    (h : Yields (readRanges s contract next ranges).run t result) : askedRanges t <+: ranges := by
  induction ranges generalizing next t result with
  | nil =>
      obtain ⟨rfl, -⟩ := yields_done_iff.mp h
      exact List.nil_prefix
  | cons r rest ih =>
      rcases yields_bindExcept_iff.mp h with ⟨failure, h₁, -⟩ | ⟨found, t₁, t₂, rfl, h₁, h₂⟩
      · rw [askedRanges_readRange h₁]
        exact List.prefix_append [r] rest
      · rw [askedRanges_append, askedRanges_readRange h₁]
        refine List.prefix_append_right_inj [r] |>.mpr ?_
        split at h₂
        · obtain ⟨rfl, -⟩ := yields_done_iff.mp h₂
          exact List.nil_prefix
        · rcases yields_bindExcept_iff.mp h₂ with ⟨failure, h₃, -⟩ | ⟨others, t₃, t₄, rfl, h₃, h₄⟩
          · exact ih h₃
          · obtain ⟨rfl, -⟩ := yields_done_iff.mp h₄
            rw [List.append_nil]
            exact ih h₃

/-- A reading that is not stopped by an event asks for all ranges. -/
theorem askedRanges_or_stopped {count : UInt64} {ranges : List EventRange}
    (hnonempty : ∀ r ∈ ranges, r.first ≤ r.last) (hin : ∀ r ∈ ranges, r.last < count)
    {start next : UInt64} {events : List ConfirmedEvent}
    (h : Yields (readRanges s contract start ranges).run t (.ok (events, next))) :
    askedRanges t = ranges ∨ next < count := by
  induction ranges generalizing start t events with
  | nil =>
      obtain ⟨rfl, -⟩ := yields_done_iff.mp h
      exact .inl rfl
  | cons r rest ih =>
      obtain ⟨hr, hrest⟩ := List.forall_mem_cons.mp hnonempty
      obtain ⟨hlast, hothers⟩ := List.forall_mem_cons.mp hin
      have hbound := add_one_lt_of_lt hlast
      obtain ⟨result, t₁, t₂, rfl, h₁, h₂⟩ := yields_readRanges_cons_ok h
      rcases h₂ with ⟨hstopped, rfl, rfl, rfl⟩ | ⟨hgoes, others, rfl, h₃⟩
      · obtain ⟨sect, -, -, -, hnext⟩ := isReading_of_readRange h₁ hr hbound
        rw [if_pos hstopped, UInt64.lt_iff_toNat_lt, toNat_add_one hbound] at hnext
        rw [UInt64.lt_iff_toNat_lt] at hlast
        right
        rw [UInt64.lt_iff_toNat_lt]
        omega
      · rcases ih hrest hothers h₃ with hall | hlt
        · left
          rw [askedRanges_append, askedRanges_readRange h₁, hall]
          rfl
        · exact .inr hlt

/-- What a cycle does with what it has read. -/
def handOn (contract : String) (read : List ConfirmedEvent × UInt64) : Step UInt64 := do
  Step.deliver ⟨contract, read.1, read.2⟩
  Step.record (.eventsConfirmed contract read.1.length)
  return read.2

/-- Handing on asks for no range, and comes to the index that was read. -/
theorem yields_handOn {read : List ConfirmedEvent × UInt64}
    {outcome : Except WatchFailure UInt64} (h : Yields (handOn contract read).run t outcome) :
    askedRanges t = [] ∧ ∀ next, outcome = .ok next → read.2 = next := by
  rcases yields_bindExcept_iff.mp h with ⟨failure, h₁, rfl⟩ | ⟨⟨⟩, t₁, t₂, rfl, h₁, h₂⟩
  · obtain ⟨answer, rfl, -⟩ := Step.yields_deliver_iff.mp h₁
    refine ⟨rfl, ?_⟩
    intro next hok
    cases hok
  · obtain ⟨answer, rfl, -⟩ := Step.yields_deliver_iff.mp h₁
    rcases yields_bindExcept_iff.mp h₂ with ⟨failure, h₃, -⟩ | ⟨⟨⟩, t₃, t₄, rfl, h₃, h₄⟩
    · cases (Step.yields_record_iff.mp h₃).2
    · obtain ⟨rfl, -⟩ := Step.yields_record_iff.mp h₃
      obtain ⟨rfl, rfl⟩ := yields_done_iff.mp h₄
      refine ⟨rfl, ?_⟩
      intro next hok
      exact Except.ok.inj hok

/-- A cycle that has an index and a number of events reads the ranges
    between them, and asks for no other. -/
theorem yields_cycle_from {start count : UInt64} {outcome : Except WatchFailure UInt64}
    (h : Yields (cycle s contract).outcome
      (indexRead contract (some start) :: answered (.eventCount contract) count :: t) outcome) :
    ∃ t₁ t₂ result, t = t₁ ++ t₂ ∧
      Yields (readRanges s contract start (EventRange.cover s.batchSize start count)).run t₁
        result ∧
      askedRanges t₂ = [] ∧
      ∀ next, outcome = .ok next → ∃ events, result = .ok (events, next) := by
  have hread : Yields (readRanges s contract start
      (EventRange.cover s.batchSize start count) >>= handOn contract).run t outcome := by
    cases h with
    | ask h =>
        cases h with
        | ask h => exact h
  rcases yields_bindExcept_iff.mp hread with ⟨failure, h₁, rfl⟩ | ⟨read, t₁, t₂, rfl, h₁, h₂⟩
  · refine ⟨t, [], _, (List.append_nil t).symm, h₁, rfl, ?_⟩
    intro next hok
    cases hok
  · obtain ⟨hquiet, hnext⟩ := yields_handOn h₂
    refine ⟨t₁, t₂, _, rfl, h₁, hquiet, ?_⟩
    intro next hok
    rw [← hnext next hok]
    exact ⟨read.1, rfl⟩

end

/-! ## Safe cycles -/

/-- A cycle from `start` with `count` events in sight is safe, whatever is
    answered: no sum or difference leaves 64 bits, and no more rounds are
    needed than there are events; the ranges are in good order; and they are
    asked for one after the other, all of them unless the event at the result
    was reported as not settled. -/
structure IsSafe (s : Settings) (contract : String) (start count : UInt64) : Prop where
  within : EventRange.cover? s.batchSize start count
    = some (EventRange.cover s.batchSize start count)
  behind : ∀ r ∈ EventRange.cover s.batchSize start count, ∀ events : List Event,
    events.length = r.size.toNat → ∀ i event, (i, event) ∈ numbered r.first events →
      sum? i 1 = some (i + 1)
  tiling : EventRange.IsTiling s.batchSize start count (EventRange.cover s.batchSize start count)
  asked : ∀ t outcome, Yields (cycle s contract).outcome
      (indexRead contract (some start) :: answered (.eventCount contract) count :: t) outcome →
    askedRanges t <+: EventRange.cover s.batchSize start count
  all : ∀ t next, Yields (cycle s contract).outcome
      (indexRead contract (some start) :: answered (.eventCount contract) count :: t)
      (.ok next) →
    askedRanges t = EventRange.cover s.batchSize start count ∨
      ∃ sect : Section, sect.transcript contract <:+: t ∧ ∃ event,
        sect.event? next = some event ∧
        settledBy? s.minConfirmations sect.talk event = some false

section

variable {s : Settings} {contract : String} {start count : UInt64}

/-- The talk about a section stands in the talk of its reading. -/
theorem Section.isInfix_flatMap {sections : List Section} {sect : Section}
    (h : sect ∈ sections) :
    sect.transcript contract <:+: sections.flatMap (Section.transcript contract) := by
  obtain ⟨front, back, rfl⟩ := List.append_of_mem h
  rw [List.flatMap_append, List.flatMap_cons, ← List.append_assoc]
  exact ⟨_, _, rfl⟩

/-- A cycle is safe if the last range fits. -/
theorem isSafe_of_lastFits (hsize : 1 ≤ s.batchSize)
    (hfits : EventRange.LastFits s.batchSize start count) : IsSafe s contract start count := by
  have htiling := EventRange.isTiling_cover hsize hfits
  constructor
  case within => exact (EventRange.cover?_eq_some_iff hsize).mpr hfits
  case behind =>
    intro r hr events hlength i event hmem
    exact htiling.sum?_index hr hlength hmem
  case tiling => exact htiling
  case asked =>
    intro t outcome h
    obtain ⟨t₁, t₂, result, rfl, hread, hquiet, -⟩ := yields_cycle_from h
    rw [askedRanges_append, hquiet, List.append_nil]
    exact askedRanges_readRanges hread
  case all =>
    intro t next h
    obtain ⟨t₁, t₂, result, rfl, hread, hquiet, hresult⟩ := yields_cycle_from h
    obtain ⟨events, rfl⟩ := hresult next rfl
    rw [askedRanges_append, hquiet, List.append_nil]
    rcases askedRanges_or_stopped htiling.nonempty htiling.inSight hread with hall | hlt
    · exact .inl hall
    · -- a cycle that comes to less than the events in sight has met one that is not settled
      have hasked : RangesFit s.batchSize t₁ := rangesFit_of_askedRanges fun r hr =>
        EventRange.fits_of_mem_cover hsize hfits r ((askedRanges_readRanges hread).subset hr)
      obtain ⟨sections, rfl, hreading⟩ :=
        isReading_of_readRanges hsize (Nat.le_refl _) hasked hread
      obtain ⟨sect, hsect, event, hevent, hunsettled⟩ := hreading.stopped hlt
      have hinfix : sect.transcript contract <:+: sections.flatMap (Section.transcript contract) :=
        Section.isInfix_flatMap hsect
      exact .inr ⟨sect, hinfix.trans (List.infix_append [] _ t₂), event, hevent, hunsettled⟩

end

/-- Batches of an accepted configuration are not empty. -/
theorem one_le_eventBatchSize {c : Configuration} (h : c.validate = .ok ()) :
    1 ≤ c.node.eventBatchSize := by
  by_contra hsmall
  have hzero : c.node.eventBatchSize = 0 := by
    rw [UInt64.le_iff_toNat_le, UInt64.toNat_one] at hsmall
    exact UInt64.toNat_inj.mp (Nat.lt_one_iff.mp (Nat.not_le.mp hsmall))
  unfold Configuration.validate at h
  rw [if_pos hzero] at h
  repeat' split at h
  all_goals cases h

/-- A batch that is not empty is as large as configured. -/
theorem Settings.batchSize_of (minConfirmations : UInt64) {batchSize : UInt64} (nodeUrl : String)
    (h : 1 ≤ batchSize) :
    (Settings.of minConfirmations batchSize nodeUrl).batchSize = batchSize := by
  show (if batchSize ≤ 1 then 1 else batchSize) = batchSize
  split
  · next hle => exact UInt64.le_antisymm h hle
  · rfl

/-- **A cycle is safe exactly if its last range fits**: under an accepted
    configuration, from any index and with any number of events, the size of
    a batch has to be one that can be added to the start of the last range. -/
theorem cycle_is_safe_iff {c : Configuration} (h : c.validate = .ok ()) (contract : String)
    (start count : UInt64) :
    IsSafe (.of c.node.minConfirmations c.node.eventBatchSize c.node.url) contract start count ↔
      EventRange.LastFits c.node.eventBatchSize start count := by
  have hsize := one_le_eventBatchSize h
  have hbatch := Settings.batchSize_of c.node.minConfirmations c.node.url hsize
  rw [← hbatch] at hsize
  nth_rewrite 2 [← hbatch]
  exact ⟨fun hsafe => (EventRange.cover?_eq_some_iff hsize).mp hsafe.within,
    isSafe_of_lastFits hsize⟩

/-! ## Batches of a hundred events, and of as many as a word can say -/

/-- A world with an index and a stream of events of one block. -/
def streamWorld (start count : UInt64) :
    Unit → (q : Surroundings.Query) → q.Answer × Unit
  | (), .readIndex _ => (.ok (some start), ())
  | (), .writeIndex _ _ => (.ok (), ())
  | (), .node (.eventCount _) => (.ok count, ())
  | (), .node (.events contract first last) =>
      (.ok (List.replicate (min (last.toNat + 1) count.toNat - first.toNat)
        ⟨"block", contract, "", 0, []⟩), ())
  | (), .node (.header hash) => (.ok ⟨hash, 0, 0, 0, 5⟩, ())
  | (), .node (.isInMainChain _) => (.ok true, ())
  | (), .node (.height _ _) => (.ok (9 : UInt64), ())
  | (), .deliver _ => (.ok (), ())
  | (), .pause _ => (.elapsed, ())
  | (), .record _ => ((), ())

/-- The talk of a cycle of this configuration in this world. -/
def streamTalk (c : Configuration) (start count : UInt64) : Transcript Surroundings :=
  (cycle (.of c.node.minConfirmations c.node.eventBatchSize c.node.url) "bridge").outcome.transcript
    (streamWorld start count) ()

/-- Batches of a hundred events are safe: a cycle asks for two full ones and
    for the rest. -/
theorem two_full_batches_and_the_rest :
    (Site.listing [Site.soleKey]).validate = .ok () ∧ EventRange.LastFits 100 250 500 ∧
      IsSafe (.of 0 100 "http://n") "bridge" 250 500 ∧
      askedRanges (streamTalk (Site.listing [Site.soleKey]) 250 500)
        = [⟨250, 349⟩, ⟨350, 449⟩, ⟨450, 499⟩] := by
  have hvalid : (Site.listing [Site.soleKey]).validate = .ok () := by decide +kernel
  have hfits : EventRange.LastFits 100 250 500 := .of_count_le (by decide)
  have hsafe := (cycle_is_safe_iff hvalid "bridge" 250 500).mpr hfits
  exact ⟨hvalid, hfits, hsafe, by decide +kernel⟩

/-- A configuration with batches of as many events as a word can say. -/
def unbounded : Configuration :=
  { Site.listing [Site.soleKey] with
    node := { (Site.listing [Site.soleKey]).node with eventBatchSize := 18446744073709551615 } }

/-- It is accepted, but from the second event on no cycle is safe: the only
    range that is asked for ends before it starts. -/
theorem unbounded_batch_is_accepted :
    unbounded.validate = .ok () ∧
      EventRange.cover? 18446744073709551615 2 5 = none ∧
      ¬ IsSafe (.of 0 18446744073709551615 "http://n") "bridge" 2 5 ∧
      askedRanges (streamTalk unbounded 2 5) = [⟨2, 0⟩] ∧
      Yields (cycle (.of 0 18446744073709551615 "http://n") "bridge").outcome
        (streamTalk unbounded 2 5) (.error (.undecodable "http://n"
          "expected 18446744073709551615 events for range [2, 0], got 0")) := by
  have hcover : EventRange.cover? 18446744073709551615 2 5 = none := by decide +kernel
  have hrun := yields_transcript (streamWorld 2 5)
    (cycle (.of 0 18446744073709551615 "http://n") "bridge").outcome ()
  have hresult : ((cycle (.of 0 18446744073709551615 "http://n") "bridge").outcome.run
      (streamWorld 2 5) ()).1 = .error (.undecodable "http://n"
        "expected 18446744073709551615 events for range [2, 0], got 0") := by decide +kernel
  rw [hresult] at hrun
  refine ⟨by decide +kernel, hcover, fun hsafe => ?_, by decide +kernel, hrun⟩
  cases hcover.symm.trans hsafe.within

end BridgeGuardian.Watch
