import BridgeGuardian.Proofs.Watch.Confirmed
import Mathlib.Algebra.Group.Nat.Defs

/-! # Reading events — one range after the other

    The talk of a reading falls into sections, one for each range: the
    events of the range, and what was said about their blocks.
    `IsReading` says what a reading from `start` comes to.  One range is
    such a reading, and readings of adjacent stretches add up, so the ranges
    that cover the events up to `count` are one reading: it ends at `count`
    or at the first event that is not settled. -/

namespace BridgeGuardian.Watch

open Program

/-- The talk about one range. -/
structure Section where
  range : EventRange
  events : List Event
  talk : Transcript Surroundings

namespace Section

/-- All that was said about the range. -/
def transcript (contract : String) (s : Section) : Transcript Surroundings :=
  answered (.events contract s.range.first s.range.last) s.events :: s.talk

/-- The event at an index, as the node returned it. -/
def event? (s : Section) (i : UInt64) : Option Event :=
  if s.range.first ≤ i then s.events[i.toNat - s.range.first.toNat]? else none

end Section

/-- What a reading from `start` with `count` events in sight comes to:
    `events` and the index `next` behind them.  Every event on the way is
    settled by what was said in its section, and confirmed if and only if
    its block was reported in the main chain there; an event in sight that
    the reading does not pass was reported as not settled.  The sections lie
    one behind the other, each with an event for every index of its range. -/
structure IsReading (minConfirmations start count : UInt64) (sections : List Section)
    (events : List ConfirmedEvent) (next : UInt64) : Prop where
  le_next : start ≤ next
  next_le : next.toNat ≤ max start.toNat count.toNat
  inside : ∀ e ∈ events, start ≤ e.index ∧ e.index < next
  increasing : events.Pairwise fun e e' => e.index < e'.index
  passed : ∀ i, start ≤ i → i < next → ∃ s ∈ sections, ∃ event, s.event? i = some event ∧
    settledBy? minConfirmations s.talk event = some true ∧
    ∃ isCanonical, canonicalBy? s.talk event = some isCanonical ∧
      ∀ e, ⟨i, e⟩ ∈ events ↔ isCanonical = true ∧ e = event
  stopped : next < count → ∃ s ∈ sections, ∃ event, s.event? next = some event ∧
    settledBy? minConfirmations s.talk event = some false
  full : ∀ s ∈ sections, s.events.length = s.range.size.toNat
  behind : ∀ s ∈ sections, start ≤ s.range.first
  apart : sections.Pairwise fun s s' => s.range.last < s'.range.first
  about : ∀ s ∈ sections, ∀ e ∈ s.talk, e.query.IsAboutBlocks

/-! ## One range -/

/-- Classification, as a step of reading a range. -/
theorem yields_classify_ok {t : Transcript Surroundings} {events : List (UInt64 × Event)}
    {classified : List ClassifiedEvent} (h : Yields (classify events).run t (.ok classified)) :
    classified.map (fun e => (e.index, e.event)) = events ∧
      ∀ e ∈ classified, IsClassifiedBy t e :=
  yields_classifyFrom_ok knowsBlocks_nil h

/-- A range that is read has a section, whose talk judges its events. -/
theorem yields_readRange_ok {s : Settings} {contract : String} {r : EventRange}
    {t : Transcript Surroundings} {result : Confirmation}
    (h : Yields (readRange s contract r).run t (.ok result)) :
    ∃ sect : Section, sect.range = r ∧ t = sect.transcript contract ∧
      sect.events.length = r.size.toNat ∧ (∀ e ∈ sect.talk, e.query.IsAboutBlocks) ∧
      ∃ classified heights,
        classified.map (fun e => (e.index, e.event)) = numbered r.first sect.events ∧
        (∀ e ∈ classified, IsJudgedBy s.minConfirmations heights sect.talk e) ∧
        result = confirm s.minConfirmations heights r.first classified := by
  obtain ⟨events, t₁, t₂, rfl, h₁, h₂⟩ := yields_bindExcept_ok_iff.mp h
  obtain rfl := Step.yields_node_iff.mp h₁
  by_cases hlength : events.length ≠ r.size.toNat
  · rw [if_pos hlength] at h₂
    cases (yields_done_iff.mp h₂).2
  · rw [if_neg hlength] at h₂
    obtain ⟨classified, t₃, t₄, rfl, h₃, h₄⟩ := yields_bindExcept_ok_iff.mp h₂
    obtain ⟨heights, t₅, t₆, rfl, h₅, h₆⟩ := yields_bindExcept_ok_iff.mp h₄
    obtain ⟨hpairs, hclassified⟩ := yields_classify_ok h₃
    have hlookUps : ∀ e ∈ t₃, e.query.IsLookUp := h₃.onlyAsks (onlyAsks_classifyFrom [] _)
    -- dropped events are reported behind everything that was said about them
    have hreport : (∀ e ∈ t₆, e.query.IsAboutBlocks) ∧
        result = confirm s.minConfirmations heights r.first classified := by
      dsimp only at h₆
      split at h₆
      · obtain ⟨⟨⟩, t₇, t₈, rfl, h₇, h₈⟩ := yields_bindExcept_ok_iff.mp h₆
        obtain ⟨rfl, -⟩ := Step.yields_record_iff.mp h₇
        obtain ⟨rfl, hresult⟩ := yields_done_iff.mp h₈
        refine ⟨?_, Except.ok.inj hresult⟩
        intro e he
        obtain rfl := List.mem_singleton.mp he
        trivial
      · obtain ⟨rfl, hresult⟩ := yields_done_iff.mp h₆
        exact ⟨fun e he => absurd he List.not_mem_nil, Except.ok.inj hresult⟩
    obtain ⟨hrecords, rfl⟩ := hreport
    refine ⟨⟨r, events, t₃ ++ t₅ ++ t₆⟩, rfl, ?_, Decidable.not_not.mp hlength, ?_, classified,
      heights, hpairs, isJudgedBy_of_currentHeights hlookUps hclassified h₅ t₆, rfl⟩
    · simp only [Section.transcript, answered, List.append_assoc, List.singleton_append]
    · intro e he
      rcases List.mem_append.mp he with he | he
      · rcases List.mem_append.mp he with he | he
        · exact (hlookUps e he).isAboutBlocks
        · exact h₅.onlyAsks (onlyAsks_currentHeights _ _) e he
      · exact hrecords e he

theorem EventRange.toNat_size {r : EventRange} (h : r.first ≤ r.last)
    (hbound : r.last.toNat + 1 < 2 ^ 64) : r.size.toNat = r.last.toNat - r.first.toNat + 1 := by
  have hsub : (r.last - r.first).toNat = r.last.toNat - r.first.toNat :=
    UInt64.toNat_sub_of_le _ _ h
  have hsum : (r.last - r.first).toNat + 1 < 2 ^ 64 := by omega
  rw [size, toNat_add_one hsum, hsub]

/-- A section has an event for every index of its range, and these have been
    classified in order. -/
structure Section.IsComplete (sect : Section) (classified : List ClassifiedEvent) : Prop where
  le : sect.range.first ≤ sect.range.last
  bound : sect.range.last.toNat + 1 < 2 ^ 64
  length : sect.events.length = sect.range.size.toNat
  pairs : classified.map (fun e => (e.index, e.event)) = numbered sect.range.first sect.events

namespace Section.IsComplete

variable {minConfirmations : UInt64} {heights : Heights} {sect : Section}
variable {classified : List ClassifiedEvent}

/-- The events end where the range ends. -/
theorem first_add_length (h : sect.IsComplete classified) :
    sect.range.first.toNat + sect.events.length = sect.range.last.toNat + 1 := by
  have hle := UInt64.le_iff_toNat_le.mp h.le
  rw [h.length, EventRange.toNat_size h.le h.bound]
  omega

theorem fits (h : sect.IsComplete classified) :
    sect.range.first.toNat + sect.events.length < 2 ^ 64 := by
  rw [h.first_add_length]
  exact h.bound

/-- The index behind the range. -/
theorem toNat_behind (h : sect.IsComplete classified) :
    (sect.range.last + 1).toNat = sect.range.first.toNat + classified.length := by
  rw [toNat_add_one h.bound, length_of_map_eq_numbered h.pairs, h.first_add_length]

/-- A walk through the events ends behind the final ones in front. -/
theorem toNat_nextIndex (h : sect.IsComplete classified) :
    (confirm minConfirmations heights sect.range.first classified).nextIndex.toNat
      = sect.range.first.toNat + (settledFront minConfirmations heights classified).length :=
  toNat_nextIndex_confirm h.pairs h.fits

theorem event?_of_mem (h : sect.IsComplete classified) {e : ClassifiedEvent}
    (he : e ∈ classified) : sect.event? e.index = some e.event := by
  obtain ⟨hfirst, -, hevent⟩ := getElem?_of_mem h.pairs h.fits he
  rw [event?, if_pos (UInt64.le_iff_toNat_le.mpr hfirst)]
  exact hevent

theorem exists_mem (h : sect.IsComplete classified) {i : UInt64}
    (hfirst : sect.range.first.toNat ≤ i.toNat)
    (hlt : i.toNat < sect.range.first.toNat + classified.length) :
    ∃ e ∈ classified, e.index = i := by
  rw [length_of_map_eq_numbered h.pairs] at hlt
  exact exists_mem_of_index h.pairs h.fits hfirst hlt

/-- What a walk through the events comes to is a reading. -/
theorem isReading_confirm (h : sect.IsComplete classified)
    (habout : ∀ e ∈ sect.talk, e.query.IsAboutBlocks)
    (hjudged : ∀ e ∈ classified, IsJudgedBy minConfirmations heights sect.talk e) :
    IsReading minConfirmations sect.range.first (sect.range.last + 1) [sect]
      (confirm minConfirmations heights sect.range.first classified).confirmed
      (confirm minConfirmations heights sect.range.first classified).nextIndex := by
  have hfront : (settledFront minConfirmations heights classified).length ≤ classified.length :=
    length_settledFront_le classified
  have hmem : ∀ c ∈ settledFront minConfirmations heights classified, c ∈ classified :=
    fun c hc => (List.takeWhile_sublist _).subset hc
  have hnext : (confirm minConfirmations heights sect.range.first classified).nextIndex.toNat
      = sect.range.first.toNat + (settledFront minConfirmations heights classified).length :=
    h.toNat_nextIndex
  constructor
  case le_next =>
    rw [UInt64.le_iff_toNat_le, hnext]
    exact Nat.le_add_right _ _
  case next_le =>
    rw [hnext, h.toNat_behind]
    omega
  case inside =>
    intro e he
    obtain ⟨c, hc, -, rfl⟩ := mem_confirmed_confirm.mp he
    have hbehind := (mem_settledFront_iff h.pairs h.fits (hmem c hc)).mp hc
    obtain ⟨hbefore, -, -⟩ := getElem?_of_mem h.pairs h.fits (hmem c hc)
    rw [UInt64.le_iff_toNat_le, UInt64.lt_iff_toNat_lt, hnext]
    exact ⟨hbefore, hbehind⟩
  case increasing =>
    rw [confirmed_confirm]
    have hall := pairwise_index_of_map_eq_numbered h.pairs h.fits
    exact ((hall.sublist (List.takeWhile_sublist _)).filter _).map _ fun _ _ hlt => hlt
  case passed =>
    intro i hfirst hlt
    rw [UInt64.le_iff_toNat_le] at hfirst
    rw [UInt64.lt_iff_toNat_lt, hnext] at hlt
    obtain ⟨c, hc, rfl⟩ := h.exists_mem hfirst (by omega)
    -- an index in front of the next one is that of a final event in front
    have hcfront := (mem_settledFront_iff h.pairs h.fits hc).mpr hlt
    have hfinal : c.isFinal minConfirmations heights = true :=
      List.all_eq_true.mp List.all_takeWhile c hcfront
    have hjudge := hjudged c hc
    refine ⟨_, List.mem_singleton_self _, c.event, h.event?_of_mem hc, ?_, c.isCanonical,
      hjudge.isCanonical, ?_⟩
    · rw [hjudge.isFinal, hfinal]
    · intro e
      rw [mem_confirmed_confirm]
      constructor
      · rintro ⟨c', hc', hcanonical, heq⟩
        obtain ⟨hindex, hsame⟩ := ConfirmedEvent.mk.inj heq
        obtain rfl := eq_of_index_eq h.pairs h.fits (hmem c' hc') hc hindex
        exact ⟨hcanonical, hsame.symm⟩
      · rintro ⟨hcanonical, rfl⟩
        exact ⟨c, hcfront, hcanonical, rfl⟩
  case stopped =>
    intro hlt
    rw [UInt64.lt_iff_toNat_lt, h.toNat_behind, hnext] at hlt
    have hfirst : sect.range.first.toNat
        ≤ (confirm minConfirmations heights sect.range.first classified).nextIndex.toNat := by
      rw [hnext]
      exact Nat.le_add_right _ _
    obtain ⟨c, hc, hindex⟩ := h.exists_mem hfirst (by omega)
    -- the event at the next index comes right behind the final ones
    obtain ⟨-, hplace, -⟩ := getElem?_of_mem h.pairs h.fits hc
    rw [hindex, hnext, Nat.add_sub_cancel_left] at hplace
    have hfinal : c.isFinal minConfirmations heights = false :=
      isFinal_behind_settledFront hplace
    refine ⟨_, List.mem_singleton_self _, c.event, ?_, ?_⟩
    · rw [← hindex]
      exact h.event?_of_mem hc
    · rw [(hjudged c hc).isFinal, hfinal]
  case full =>
    intro s hs
    obtain rfl := List.mem_singleton.mp hs
    exact h.length
  case behind =>
    intro s hs
    obtain rfl := List.mem_singleton.mp hs
    exact UInt64.le_refl _
  case apart => exact List.pairwise_singleton _ _
  case about =>
    intro s hs
    obtain rfl := List.mem_singleton.mp hs
    exact habout

/-- A walk through the events ends behind the range, or stops within it. -/
theorem nextIndex_of_isStopped (h : sect.IsComplete classified) :
    let result := confirm minConfirmations heights sect.range.first classified
    if result.isStopped then result.nextIndex < sect.range.last + 1
    else result.nextIndex = sect.range.last + 1 := by
  have hfront : (settledFront minConfirmations heights classified).length ≤ classified.length :=
    length_settledFront_le classified
  dsimp only
  rw [isStopped_confirm]
  by_cases hlt : (settledFront minConfirmations heights classified).length < classified.length
  · rw [if_pos (decide_eq_true hlt), UInt64.lt_iff_toNat_lt, h.toNat_nextIndex, h.toNat_behind]
    omega
  · rw [if_neg (by simpa using hlt)]
    refine UInt64.toNat_inj.mp ?_
    rw [h.toNat_nextIndex, h.toNat_behind]
    omega

end Section.IsComplete

/-- What is done with the events of a range. -/
def judgeRange (s : Settings) (contract : String) (r : EventRange) (events : List Event) :
    Step Confirmation :=
  if events.length ≠ r.size.toNat then throw (s.wrongCount r events.length)
  else do
    let classified ← classify (numbered r.first events)
    let heights ← currentHeights s.minConfirmations classified
    let result := confirm s.minConfirmations heights r.first classified
    if 0 < result.dropped then Step.record (.eventsDropped contract result.dropped)
    return result

/-- The events of a range are asked for first. -/
theorem readRange_eq (s : Settings) (contract : String) (r : EventRange) :
    readRange s contract r
      = (Step.node (.events contract r.first r.last) >>= judgeRange s contract r) := rfl

/-- Once the events of a range are there, only their blocks are asked about. -/
theorem onlyAsks_judgeRange (s : Settings) (contract : String) (r : EventRange)
    (events : List Event) :
    (judgeRange s contract r events).run.OnlyAsks Surroundings.Query.IsAboutBlocks := by
  unfold judgeRange
  by_cases hlength : events.length ≠ r.size.toNat
  · rw [if_pos hlength]
    trivial
  · rw [if_neg hlength]
    refine onlyAsks_bindExcept ?_ fun classified => ?_
    · exact (onlyAsks_classifyFrom [] _).mono fun _ hq => hq.isAboutBlocks
    · refine onlyAsks_bindExcept (onlyAsks_currentHeights _ classified) fun heights => ?_
      dsimp only
      split
      · exact onlyAsks_bindExcept (Step.onlyAsks_record trivial) fun _ => trivial
      · trivial

/-- Reading a range changes nothing. -/
theorem onlyAsks_readRange (s : Settings) (contract : String) (r : EventRange) :
    (readRange s contract r).run.OnlyAsks Surroundings.Query.OnlyReads := by
  rw [readRange_eq]
  refine onlyAsks_bindExcept (Step.onlyAsks_node trivial) fun events => ?_
  exact (onlyAsks_judgeRange s contract r events).mono fun _ hq => hq.onlyReads

/-! ## Adjacent readings -/

section

variable {minConfirmations start middle count next : UInt64} {sections others : List Section}
variable {events more : List ConfirmedEvent}

/-- With no event in sight there is nothing to read. -/
theorem isReading_nil (h : ¬ start < count) :
    IsReading minConfirmations start count [] [] start where
  le_next := UInt64.le_refl start
  next_le := Nat.le_max_left _ _
  inside _ he := absurd he List.not_mem_nil
  increasing := .nil
  passed i hfirst hlt := by
    rw [UInt64.le_iff_toNat_le] at hfirst
    rw [UInt64.lt_iff_toNat_lt] at hlt
    omega
  stopped hlt := absurd hlt h
  full _ hs := absurd hs List.not_mem_nil
  behind _ hs := absurd hs List.not_mem_nil
  apart := .nil
  about _ hs := absurd hs List.not_mem_nil

/-- A reading that stops is the same with more events in sight. -/
theorem IsReading.widen (h : IsReading minConfirmations start middle sections events next)
    (hstopped : next < middle) (hle : middle ≤ count) :
    IsReading minConfirmations start count sections events next where
  le_next := h.le_next
  next_le := by
    rw [UInt64.lt_iff_toNat_lt] at hstopped
    rw [UInt64.le_iff_toNat_le] at hle
    omega
  inside := h.inside
  increasing := h.increasing
  passed := h.passed
  stopped _ := h.stopped hstopped
  full := h.full
  behind := h.behind
  apart := h.apart
  about := h.about

/-- A reading that comes to its end and one that goes on from there are one
    reading. -/
theorem IsReading.append (h : IsReading minConfirmations start middle sections events middle)
    (hsections : ∀ s ∈ sections, s.range.last < middle)
    (h' : IsReading minConfirmations middle count others more next) (hle : middle ≤ count) :
    IsReading minConfirmations start count (sections ++ others) (events ++ more) next := by
  have hstart := UInt64.le_iff_toNat_le.mp h.le_next
  have hnext := UInt64.le_iff_toNat_le.mp h'.le_next
  constructor
  case le_next => exact UInt64.le_trans h.le_next h'.le_next
  case next_le =>
    rw [UInt64.le_iff_toNat_le] at hle
    have hbound := h'.next_le
    omega
  case inside =>
    intro e he
    rcases List.mem_append.mp he with he | he
    · obtain ⟨hfirst, hlt⟩ := h.inside e he
      exact ⟨hfirst, UInt64.lt_of_lt_of_le hlt h'.le_next⟩
    · obtain ⟨hfirst, hlt⟩ := h'.inside e he
      exact ⟨UInt64.le_trans h.le_next hfirst, hlt⟩
  case increasing =>
    refine List.pairwise_append.mpr ⟨h.increasing, h'.increasing, ?_⟩
    intro e he e' he'
    exact UInt64.lt_of_lt_of_le (h.inside e he).2 (h'.inside e' he').1
  case passed =>
    intro i hfirst hlt
    by_cases hi : i < middle
    · obtain ⟨s, hs, event, hevent, hsettled, isCanonical, hcanonical, hiff⟩ :=
        h.passed i hfirst hi
      refine ⟨s, List.mem_append_left _ hs, event, hevent, hsettled, isCanonical, hcanonical, ?_⟩
      intro e
      -- the second reading confirms nothing in front of where it starts
      rw [← hiff e, List.mem_append]
      refine ⟨fun hmem => hmem.resolve_right ?_, .inl⟩
      intro hmem
      exact absurd hi (UInt64.not_lt.mpr (h'.inside _ hmem).1)
    · obtain ⟨s, hs, event, hevent, hsettled, isCanonical, hcanonical, hiff⟩ :=
        h'.passed i (UInt64.not_lt.mp hi) hlt
      refine ⟨s, List.mem_append_right _ hs, event, hevent, hsettled, isCanonical, hcanonical, ?_⟩
      intro e
      rw [← hiff e, List.mem_append]
      refine ⟨fun hmem => hmem.resolve_left ?_, .inr⟩
      intro hmem
      exact hi (h.inside _ hmem).2
  case stopped =>
    intro hlt
    obtain ⟨s, hs, hrest⟩ := h'.stopped hlt
    exact ⟨s, List.mem_append_right _ hs, hrest⟩
  case full =>
    intro s hs
    rcases List.mem_append.mp hs with hs | hs
    · exact h.full s hs
    · exact h'.full s hs
  case behind =>
    intro s hs
    rcases List.mem_append.mp hs with hs | hs
    · exact h.behind s hs
    · exact UInt64.le_trans h.le_next (h'.behind s hs)
  case apart =>
    refine List.pairwise_append.mpr ⟨h.apart, h'.apart, ?_⟩
    intro s hs s' hs'
    exact UInt64.lt_of_lt_of_le (hsections s hs) (h'.behind s' hs')
  case about =>
    intro s hs
    rcases List.mem_append.mp hs with hs | hs
    · exact h.about s hs
    · exact h'.about s hs

end

/-! ## Ranges in a row -/

theorem toNat_min (a b : UInt64) : (min a b).toNat = min a.toNat b.toNat := by
  show (if a ≤ b then a else b).toNat = _
  split
  · next h => exact (Nat.min_eq_left (UInt64.le_iff_toNat_le.mp h)).symm
  · next h =>
      rw [UInt64.le_iff_toNat_le] at h
      omega

theorem one_le_of_lt {a b : UInt64} (h : a < b) : 1 ≤ b := by
  rw [UInt64.lt_iff_toNat_lt] at h
  rw [UInt64.le_iff_toNat_le, UInt64.toNat_one]
  omega

theorem one_le_add {a b : UInt64} (hone : 1 ≤ b) (h : a.toNat + b.toNat < 2 ^ 64) :
    1 ≤ a + b := by
  rw [UInt64.le_iff_toNat_le] at hone ⊢
  rw [toNat_add_of_lt h]
  omega

/-- What lies below a word has a successor. -/
theorem add_one_lt_of_lt {a b : UInt64} (h : a < b) : a.toNat + 1 < 2 ^ 64 := by
  have hbound := UInt64.toNat_lt b
  rw [UInt64.lt_iff_toNat_lt] at h
  omega

namespace EventRange

/-- The range of one batch. -/
def batch (batchSize count start : UInt64) : EventRange :=
  ⟨start, min (start + batchSize - 1) (count - 1)⟩

section

variable {batchSize count start : UInt64}

/-- The end of a batch, when the sum stays within 64 bits. -/
theorem toNat_last_batch (hsize : 1 ≤ batchSize) (hlt : start < count)
    (hfits : start.toNat + batchSize.toNat < 2 ^ 64) :
    (batch batchSize count start).last.toNat
      = min (start.toNat + batchSize.toNat - 1) (count.toNat - 1) := by
  have hsum := toNat_add_of_lt hfits
  rw [batch, toNat_min, UInt64.toNat_sub_of_le _ _ (one_le_add hsize hfits),
    UInt64.toNat_sub_of_le _ _ (one_le_of_lt hlt), hsum, UInt64.toNat_one]

theorem first_le_last_batch (hsize : 1 ≤ batchSize) (hlt : start < count)
    (hfits : start.toNat + batchSize.toNat < 2 ^ 64) :
    start ≤ (batch batchSize count start).last := by
  have hlast := toNat_last_batch hsize hlt hfits
  rw [UInt64.le_iff_toNat_le, UInt64.toNat_one] at hsize
  rw [UInt64.lt_iff_toNat_lt] at hlt
  rw [UInt64.le_iff_toNat_le, hlast]
  omega

theorem last_batch_lt (hsize : 1 ≤ batchSize) (hlt : start < count)
    (hfits : start.toNat + batchSize.toNat < 2 ^ 64) :
    (batch batchSize count start).last < count := by
  have hlast := toNat_last_batch hsize hlt hfits
  rw [UInt64.lt_iff_toNat_lt] at hlt ⊢
  omega

/-- The next batch starts behind a full one, or there is none. -/
theorem toNat_behind_batch (hsize : 1 ≤ batchSize) (hlt : start < count)
    (hfits : start.toNat + batchSize.toNat < 2 ^ 64) :
    ((batch batchSize count start).last + 1).toNat
      = min (start.toNat + batchSize.toNat) count.toNat := by
  have hlast := toNat_last_batch hsize hlt hfits
  rw [toNat_add_one (add_one_lt_of_lt (last_batch_lt hsize hlt hfits)), hlast]
  rw [UInt64.le_iff_toNat_le, UInt64.toNat_one] at hsize
  rw [UInt64.lt_iff_toNat_lt] at hlt
  omega

theorem upTo_of_not_lt (h : ¬ start < count) (left : Nat) :
    upTo batchSize count left start = [] := by
  cases left with
  | zero => rfl
  | succ left => rw [upTo, if_neg h]

/-- A batch comes first, and others behind it unless it ends before it
    starts. -/
theorem upTo_succ (hlt : start < count) (batchSize : UInt64) (left : Nat) :
    ∃ others, upTo batchSize count (left + 1) start = batch batchSize count start :: others ∧
      (start ≤ (batch batchSize count start).last →
        others = upTo batchSize count left ((batch batchSize count start).last + 1)) := by
  rw [upTo, if_pos hlt]
  by_cases hlast : (batch batchSize count start).last < start
  · exact ⟨[], if_pos hlast, fun hle => absurd hlast (UInt64.not_lt.mpr hle)⟩
  · exact ⟨_, if_neg hlast, fun _ => rfl⟩

theorem upTo_of_lt (hsize : 1 ≤ batchSize) (hlt : start < count)
    (hfits : start.toNat + batchSize.toNat < 2 ^ 64) (left : Nat) :
    upTo batchSize count (left + 1) start = batch batchSize count start ::
      upTo batchSize count left ((batch batchSize count start).last + 1) := by
  obtain ⟨others, hranges, hothers⟩ := upTo_succ hlt batchSize left
  rw [hranges, hothers (first_le_last_batch hsize hlt hfits)]

end

end EventRange

/-- Reading ranges changes nothing. -/
theorem onlyAsks_readRanges (s : Settings) (contract : String) (next : UInt64)
    (ranges : List EventRange) :
    (readRanges s contract next ranges).run.OnlyAsks Surroundings.Query.OnlyReads := by
  induction ranges generalizing next with
  | nil => trivial
  | cons r rest ih =>
      refine onlyAsks_bindExcept (onlyAsks_readRange s contract r) fun result => ?_
      cases result.isStopped with
      | true => trivial
      | false => exact onlyAsks_bindExcept (ih result.nextIndex) fun others => trivial

/-- A row of ranges is read one by one, until one stops. -/
theorem yields_readRanges_cons_ok {s : Settings} {contract : String} {start next : UInt64}
    {r : EventRange} {rest : List EventRange} {t : Transcript Surroundings}
    {events : List ConfirmedEvent}
    (h : Yields (readRanges s contract start (r :: rest)).run t (.ok (events, next))) :
    ∃ result t₁ t₂, t = t₁ ++ t₂ ∧ Yields (readRange s contract r).run t₁ (.ok result) ∧
      ((result.isStopped = true ∧ t₂ = [] ∧ events = result.confirmed ∧
          next = result.nextIndex) ∨
        (result.isStopped = false ∧ ∃ others, events = result.confirmed ++ others ∧
          Yields (readRanges s contract result.nextIndex rest).run t₂ (.ok (others, next)))) := by
  obtain ⟨result, t₁, t₂, rfl, h₁, h₂⟩ := yields_bindExcept_ok_iff.mp h
  refine ⟨result, t₁, t₂, rfl, h₁, ?_⟩
  cases hstopped : result.isStopped with
  | true =>
      rw [hstopped] at h₂
      obtain ⟨rfl, hresult⟩ := yields_done_iff.mp h₂
      cases hresult
      exact .inl ⟨rfl, rfl, rfl, rfl⟩
  | false =>
      rw [hstopped] at h₂
      obtain ⟨⟨others, stop⟩, t₃, t₄, rfl, h₃, h₄⟩ := yields_bindExcept_ok_iff.mp h₂
      obtain ⟨rfl, hresult⟩ := yields_done_iff.mp h₄
      cases hresult
      rw [List.append_nil]
      exact .inr ⟨rfl, others, rfl, h₃⟩

/-- Whether the size of a batch can be added to the start of a range that
    is asked for within 64 bits. -/
def Surroundings.Query.fits (batchSize : UInt64) : Surroundings.Query → Bool
  | .node (.events _ first _) => first.toNat + batchSize.toNat < 2 ^ 64
  | _ => true

/-- No range that was asked for leaves 64 bits. -/
def RangesFit (batchSize : UInt64) (t : Transcript Surroundings) : Prop :=
  ∀ e ∈ t, e.query.fits batchSize = true

/-- The queries of a transcript are gone through one by one. -/
instance (batchSize : UInt64) (t : Transcript Surroundings) : Decidable (RangesFit batchSize t) :=
  inferInstanceAs (Decidable (∀ e ∈ t, e.query.fits batchSize = true))

theorem RangesFit.subset {batchSize : UInt64} {t t' : Transcript Surroundings}
    (h : RangesFit batchSize t) (hsub : t' ⊆ t) : RangesFit batchSize t' :=
  fun e he => h e (hsub he)

/-- A range that is read is a reading, which ends behind the range or stops
    within it. -/
theorem isReading_of_readRange {s : Settings} {contract : String} {r : EventRange}
    {t : Transcript Surroundings} {result : Confirmation}
    (h : Yields (readRange s contract r).run t (.ok result)) (hle : r.first ≤ r.last)
    (hbound : r.last.toNat + 1 < 2 ^ 64) :
    ∃ sect : Section, sect.range = r ∧ t = sect.transcript contract ∧
      IsReading s.minConfirmations r.first (r.last + 1) [sect] result.confirmed
        result.nextIndex ∧
      if result.isStopped then result.nextIndex < r.last + 1
      else result.nextIndex = r.last + 1 := by
  obtain ⟨sect, rfl, ht, hlength, habout, classified, heights, hpairs, hjudged, rfl⟩ :=
    yields_readRange_ok h
  have hcomplete : sect.IsComplete classified := ⟨hle, hbound, hlength, hpairs⟩
  exact ⟨sect, rfl, ht, hcomplete.isReading_confirm habout hjudged,
    hcomplete.nextIndex_of_isStopped⟩

/-- The first exchange about a range asks for its events. -/
theorem events_mem_of_yields_readRange {s : Settings} {contract : String} {r : EventRange}
    {t : Transcript Surroundings} {result : Confirmation}
    (h : Yields (readRange s contract r).run t (.ok result)) :
    ∃ answer, ⟨.node (.events contract r.first r.last), answer⟩ ∈ t := by
  obtain ⟨sect, rfl, rfl, -⟩ := yields_readRange_ok h
  exact ⟨_, List.mem_cons_self⟩

/-- The ranges that cover the events in sight are one reading. -/
theorem isReading_of_readRanges {s : Settings} {contract : String} {count : UInt64}
    (hsize : 1 ≤ s.batchSize) {left : Nat} {start next : UInt64} {t : Transcript Surroundings}
    {events : List ConfirmedEvent} (hleft : count.toNat - start.toNat ≤ left)
    (hfits : RangesFit s.batchSize t)
    (h : Yields (readRanges s contract start
      (EventRange.upTo s.batchSize count left start)).run t (.ok (events, next))) :
    ∃ sections : List Section, t = sections.flatMap (Section.transcript contract) ∧
      IsReading s.minConfirmations start count sections events next := by
  -- by induction on the events left, of which every range covers at least one
  induction left generalizing start t events with
  | zero =>
      obtain ⟨rfl, hresult⟩ := yields_done_iff.mp h
      cases hresult
      refine ⟨[], rfl, isReading_nil ?_⟩
      rw [UInt64.lt_iff_toNat_lt]
      omega
  | succ left ih =>
      by_cases hlt : start < count
      · obtain ⟨others, hranges, hothers⟩ := EventRange.upTo_succ hlt s.batchSize left
        rw [hranges] at h
        obtain ⟨result, t₁, t₂, rfl, h₁, h₂⟩ := yields_readRanges_cons_ok h
        -- the range was asked for, so its sum stays within 64 bits
        have hfit : start.toNat + s.batchSize.toNat < 2 ^ 64 := by
          obtain ⟨answer, hmem⟩ := events_mem_of_yields_readRange h₁
          exact of_decide_eq_true (hfits _ (List.mem_append_left _ hmem))
        have hle := EventRange.first_le_last_batch hsize hlt hfit
        have hbound := add_one_lt_of_lt (EventRange.last_batch_lt hsize hlt hfit)
        have hbehind := EventRange.toNat_behind_batch hsize hlt hfit
        have hone : 1 ≤ s.batchSize.toNat := UInt64.le_iff_toNat_le.mp hsize
        have hwithin : (EventRange.batch s.batchSize count start).last + 1 ≤ count := by
          rw [UInt64.le_iff_toNat_le, hbehind]
          exact Nat.min_le_right _ _
        obtain ⟨sect, hrange, rfl, hreading, hnext⟩ := isReading_of_readRange h₁ hle hbound
        rcases h₂ with ⟨hstopped, rfl, rfl, rfl⟩ | ⟨hgoes, more, rfl, h₃⟩
        · rw [if_pos hstopped] at hnext
          exact ⟨[sect], rfl, hreading.widen hnext hwithin⟩
        · rw [if_neg (by rw [hgoes]; exact Bool.false_ne_true)] at hnext
          rw [hnext] at hreading h₃
          rw [hothers hle] at h₃
          have hless : count.toNat
              - ((EventRange.batch s.batchSize count start).last + 1).toNat ≤ left := by
            rw [hbehind]
            omega
          obtain ⟨sections, rfl, hrest⟩ :=
            ih hless (hfits.subset (List.subset_append_right _ _)) h₃
          refine ⟨sect :: sections, rfl, hreading.append ?_ hrest hwithin⟩
          intro s' hs'
          obtain rfl := List.mem_singleton.mp hs'
          rw [hrange, UInt64.lt_iff_toNat_lt, toNat_add_one hbound]
          exact Nat.lt_succ_self _
      · rw [EventRange.upTo_of_not_lt hlt] at h
        obtain ⟨rfl, hresult⟩ := yields_done_iff.mp h
        cases hresult
        exact ⟨[], rfl, isReading_nil hlt⟩

end BridgeGuardian.Watch
