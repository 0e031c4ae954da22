import BridgeGuardian.Proofs.Watch.Classified
import Mathlib.Algebra.Group.Nat.Defs

/-! # Confirmed events — the settled ones in front

    `confirm` goes through events in order, and what it confirms are the
    events in the main chain among the final ones in front.  With
    consecutive indexes, the place behind these is the next index. -/

namespace BridgeGuardian.Watch

open Program

/-! ## Consecutive indexes -/

/-- Counting on within 64 bits. -/
theorem toNat_add_ofNat {first : UInt64} {k : Nat} (h : first.toNat + k < 2 ^ 64) :
    (first + UInt64.ofNat k).toNat = first.toNat + k := by
  have hk : k < UInt64.size := by
    show k < 2 ^ 64
    omega
  rw [UInt64.toNat_add, UInt64.toNat_ofNat_of_lt' hk, Nat.mod_eq_of_lt h]

theorem toNat_add_of_lt {a b : UInt64} (h : a.toNat + b.toNat < 2 ^ 64) :
    (a + b).toNat = a.toNat + b.toNat := by
  rw [UInt64.toNat_add, Nat.mod_eq_of_lt h]

theorem toNat_add_one {n : UInt64} (h : n.toNat + 1 < 2 ^ 64) : (n + 1).toNat = n.toNat + 1 :=
  toNat_add_ofNat h

theorem add_one_add_ofNat (first : UInt64) (k : Nat) :
    first + 1 + UInt64.ofNat k = first + UInt64.ofNat (k + 1) := by
  rw [UInt64.ofNat_add, UInt64.add_comm (UInt64.ofNat k), ← UInt64.add_assoc]
  rfl

theorem length_numbered (first : UInt64) (events : List Event) :
    (numbered first events).length = events.length := by
  induction events generalizing first with
  | nil => rfl
  | cons event rest ih => exact congrArg (· + 1) (ih (first + 1))

theorem length_of_map_eq_numbered {first : UInt64} {events : List Event}
    {classified : List ClassifiedEvent}
    (h : classified.map (fun e => (e.index, e.event)) = numbered first events) :
    classified.length = events.length := by
  rw [← List.length_map (fun e : ClassifiedEvent => (e.index, e.event)), h, length_numbered]

/-- The event at a place has the first index plus the place. -/
theorem getElem?_numbered (first : UInt64) (events : List Event) (k : Nat) :
    (numbered first events)[k]? = events[k]?.map fun event => (first + UInt64.ofNat k, event) := by
  induction events generalizing first k with
  | nil => rfl
  | cons event rest ih =>
      cases k with
      | zero =>
          show some (first, event) = some (first + 0, event)
          rw [UInt64.add_zero]
      | succ k =>
          show (numbered (first + 1) rest)[k]? = rest[k]?.map _
          rw [ih, add_one_add_ofNat]

/-- Numbered events are found at the places that their indexes tell. -/
theorem mem_numbered_iff {first : UInt64} {events : List Event}
    (hbound : first.toNat + events.length < 2 ^ 64) {i : UInt64} {event : Event} :
    (i, event) ∈ numbered first events ↔
      first ≤ i ∧ events[i.toNat - first.toNat]? = some event := by
  rw [UInt64.le_iff_toNat_le, List.mem_iff_getElem?]
  constructor
  · rintro ⟨k, hk⟩
    rw [getElem?_numbered] at hk
    obtain ⟨found, hfound, hpair⟩ := Option.map_eq_some_iff.mp hk
    obtain ⟨rfl, rfl⟩ := Prod.mk.inj hpair
    have hlt := (List.getElem?_eq_some_iff.mp hfound).1
    rw [toNat_add_ofNat (by omega), Nat.add_sub_cancel_left]
    exact ⟨Nat.le_add_right _ _, hfound⟩
  · rintro ⟨hfirst, hfound⟩
    have hlt := (List.getElem?_eq_some_iff.mp hfound).1
    refine ⟨i.toNat - first.toNat, ?_⟩
    rw [getElem?_numbered, hfound]
    refine congrArg (fun index => some (index, event)) (UInt64.toNat_inj.mp ?_)
    rw [toNat_add_ofNat (by omega)]
    omega

/-- Indexes increase from place to place. -/
theorem pairwise_numbered {first : UInt64} {events : List Event}
    (hbound : first.toNat + events.length < 2 ^ 64) :
    (numbered first events).Pairwise fun e e' => e.1 < e'.1 := by
  rw [List.pairwise_iff_getElem]
  intro i j hi hj hij
  have hlength := length_numbered first events
  have hindex : ∀ k (hk : k < (numbered first events).length),
      (numbered first events)[k].1 = first + UInt64.ofNat k := by
    intro k hk
    have hplace := getElem?_numbered first events k
    rw [List.getElem?_eq_getElem hk, List.getElem?_eq_getElem (by omega)] at hplace
    exact congrArg Prod.fst (Option.some.inj hplace)
  rw [UInt64.lt_iff_toNat_lt, hindex i hi, hindex j hj, toNat_add_ofNat (by omega),
    toNat_add_ofNat (by omega)]
  omega

/-- Numbering goes on behind the events in front. -/
theorem numbered_append (first : UInt64) (events more : List Event) :
    numbered first (events ++ more)
      = numbered first events ++ numbered (first + UInt64.ofNat events.length) more := by
  induction events generalizing first with
  | nil =>
      show numbered first more = numbered (first + 0) more
      rw [UInt64.add_zero]
  | cons event rest ih =>
      show (first, event) :: numbered (first + 1) (rest ++ more)
        = (first, event) :: (numbered (first + 1) rest ++ _)
      rw [ih, add_one_add_ofNat, List.length_cons]

/-! ## Going through events -/

variable {minConfirmations : UInt64} {heights : Heights}

/-- The final events in front. -/
def settledFront (minConfirmations : UInt64) (heights : Heights) (events : List ClassifiedEvent) :
    List ClassifiedEvent :=
  events.takeWhile fun e => e.isFinal minConfirmations heights

theorem length_settledFront_le (classified : List ClassifiedEvent) :
    (settledFront minConfirmations heights classified).length ≤ classified.length :=
  (List.takeWhile_sublist _).length_le

/-- What the consumer gets of an event. -/
def ClassifiedEvent.toConfirmed (e : ClassifiedEvent) : ConfirmedEvent := ⟨e.index, e.event⟩

/-- Confirmed are the final events in front that are in the main chain. -/
theorem confirmed_confirm (next : UInt64) (events : List ClassifiedEvent) :
    (confirm minConfirmations heights next events).confirmed
      = ((settledFront minConfirmations heights events).filter
          fun e => e.isCanonical).map ClassifiedEvent.toConfirmed := by
  induction events generalizing next with
  | nil => rfl
  | cons e rest ih =>
      rw [confirm, settledFront, List.takeWhile_cons]
      cases hfinal : e.isFinal minConfirmations heights with
      | false => rfl
      | true =>
          rw [if_pos rfl, if_pos rfl, List.filter_cons]
          cases hcanonical : e.isCanonical with
          | false => exact ih (e.index + 1)
          | true => exact congrArg (e.toConfirmed :: ·) (ih (e.index + 1))

/-- An event is confirmed when it is one of these. -/
theorem mem_confirmed_confirm {next : UInt64} {events : List ClassifiedEvent}
    {e : ConfirmedEvent} :
    e ∈ (confirm minConfirmations heights next events).confirmed ↔
      ∃ c ∈ settledFront minConfirmations heights events,
        c.isCanonical = true ∧ c.toConfirmed = e := by
  simp only [confirmed_confirm, List.mem_map, List.mem_filter, and_assoc]

/-- The walk stops when some event is not final. -/
theorem isStopped_confirm (next : UInt64) (events : List ClassifiedEvent) :
    (confirm minConfirmations heights next events).isStopped
      = decide ((settledFront minConfirmations heights events).length < events.length) := by
  induction events generalizing next with
  | nil => rfl
  | cons e rest ih =>
      rw [confirm, settledFront, List.takeWhile_cons]
      cases hfinal : e.isFinal minConfirmations heights with
      | false => exact (decide_eq_true (Nat.zero_lt_succ rest.length)).symm
      | true =>
          have hrest := ih (e.index + 1)
          have hsucc : decide ((e :: settledFront minConfirmations heights rest).length
                < (e :: rest).length)
              = decide ((settledFront minConfirmations heights rest).length < rest.length) :=
            decide_eq_decide.mpr Nat.succ_lt_succ_iff
          rw [if_pos rfl, if_pos rfl]
          cases hcanonical : e.isCanonical with
          | false => exact hrest.trans hsucc.symm
          | true => exact hrest.trans hsucc.symm

/-- With consecutive indexes the walk counts the final events in front. -/
theorem nextIndex_confirm {next : UInt64} {classified : List ClassifiedEvent}
    {events : List Event}
    (h : classified.map (fun e => (e.index, e.event)) = numbered next events) :
    (confirm minConfirmations heights next classified).nextIndex
      = next + UInt64.ofNat (settledFront minConfirmations heights classified).length := by
  induction classified generalizing next events with
  | nil => exact (UInt64.add_zero next).symm
  | cons e rest ih =>
      cases events with
      | nil => cases h
      | cons event others =>
          obtain ⟨hfirst, hrest⟩ := List.cons.inj h
          obtain ⟨hindex, -⟩ := Prod.mk.inj hfirst
          rw [confirm, settledFront, List.takeWhile_cons]
          cases hfinal : e.isFinal minConfirmations heights with
          | false => exact (UInt64.add_zero next).symm
          | true =>
              have hcount : (confirm minConfirmations heights (e.index + 1) rest).nextIndex
                  = next + UInt64.ofNat
                    (e :: settledFront minConfirmations heights rest).length := by
                rw [hindex, ih hrest, add_one_add_ofNat]
                rfl
              rw [if_pos rfl, if_pos rfl]
              cases hcanonical : e.isCanonical with
              | false => exact hcount
              | true => exact hcount

/-- Within 64 bits the next index is the first one plus their number. -/
theorem toNat_nextIndex_confirm {first : UInt64} {classified : List ClassifiedEvent}
    {events : List Event}
    (h : classified.map (fun e => (e.index, e.event)) = numbered first events)
    (hbound : first.toNat + events.length < 2 ^ 64) :
    (confirm minConfirmations heights first classified).nextIndex.toNat
      = first.toNat + (settledFront minConfirmations heights classified).length := by
  have hfront : (settledFront minConfirmations heights classified).length ≤ classified.length :=
    length_settledFront_le classified
  have hlength := length_of_map_eq_numbered h
  rw [nextIndex_confirm h]
  exact toNat_add_ofNat (by omega)

/-- The event behind the final ones in front is not final. -/
theorem isFinal_behind_settledFront {classified : List ClassifiedEvent} {e : ClassifiedEvent}
    (h : classified[(settledFront minConfirmations heights classified).length]? = some e) :
    e.isFinal minConfirmations heights = false := by
  induction classified with
  | nil => cases h
  | cons first rest ih =>
      rw [settledFront, List.takeWhile_cons] at h
      cases hfinal : first.isFinal minConfirmations heights with
      | false =>
          rw [hfinal, if_neg Bool.false_ne_true] at h
          cases h
          exact hfinal
      | true =>
          rw [hfinal, if_pos rfl] at h
          exact ih h

/-- The final events in front are the first so many. -/
theorem getElem?_settledFront {classified : List ClassifiedEvent} {k : Nat}
    (hk : k < (settledFront minConfirmations heights classified).length) :
    (settledFront minConfirmations heights classified)[k]? = classified[k]? := by
  obtain ⟨rest, hrest⟩ := List.takeWhile_prefix (l := classified)
    fun e => e.isFinal minConfirmations heights
  have happend : classified = settledFront minConfirmations heights classified ++ rest :=
    hrest.symm
  conv => rhs; rw [happend]
  rw [List.getElem?_append_left hk]

/-! ## Places of classified events -/

section

variable {first : UInt64} {events : List Event} {classified : List ClassifiedEvent}

/-- At each place there is an event, with its index. -/
theorem getElem?_of_map_eq_numbered
    (h : classified.map (fun e => (e.index, e.event)) = numbered first events) {k : Nat}
    {e : ClassifiedEvent} (hk : classified[k]? = some e) :
    e.index = first + UInt64.ofNat k ∧ events[k]? = some e.event := by
  have hpair := getElem?_numbered first events k
  rw [← h, List.getElem?_map, hk] at hpair
  cases hevent : events[k]? with
  | none =>
      rw [hevent] at hpair
      cases hpair
  | some event =>
      rw [hevent] at hpair
      obtain ⟨hindex, heq⟩ := Prod.mk.inj (Option.some.inj hpair)
      exact ⟨hindex, congrArg some heq.symm⟩

/-- An event is at the place that its index tells. -/
theorem getElem?_of_mem (h : classified.map (fun e => (e.index, e.event)) = numbered first events)
    (hbound : first.toNat + events.length < 2 ^ 64) {e : ClassifiedEvent} (he : e ∈ classified) :
    first.toNat ≤ e.index.toNat ∧ classified[e.index.toNat - first.toNat]? = some e ∧
      events[e.index.toNat - first.toNat]? = some e.event := by
  obtain ⟨k, hk⟩ := List.getElem?_of_mem he
  obtain ⟨hindex, hevent⟩ := getElem?_of_map_eq_numbered h hk
  have hlt : k < classified.length := (List.getElem?_eq_some_iff.mp hk).1
  have hlength := length_of_map_eq_numbered h
  have hnat : e.index.toNat = first.toNat + k := by
    rw [hindex]
    exact toNat_add_ofNat (by omega)
  have hplace : e.index.toNat - first.toNat = k := by omega
  rw [hplace]
  exact ⟨by omega, hk, hevent⟩

/-- Every index in the range has an event. -/
theorem exists_mem_of_index
    (h : classified.map (fun e => (e.index, e.event)) = numbered first events)
    (hbound : first.toNat + events.length < 2 ^ 64) {i : UInt64} (hfirst : first.toNat ≤ i.toNat)
    (hlast : i.toNat < first.toNat + events.length) : ∃ e ∈ classified, e.index = i := by
  have hlength := length_of_map_eq_numbered h
  have hlt : i.toNat - first.toNat < classified.length := by omega
  obtain ⟨hindex, -⟩ := getElem?_of_map_eq_numbered h (List.getElem?_eq_getElem hlt)
  refine ⟨_, List.getElem_mem hlt, ?_⟩
  rw [hindex]
  refine UInt64.toNat_inj.mp ?_
  rw [toNat_add_ofNat (by omega)]
  omega

/-- Events of one index are one event. -/
theorem eq_of_index_eq (h : classified.map (fun e => (e.index, e.event)) = numbered first events)
    (hbound : first.toNat + events.length < 2 ^ 64) {e e' : ClassifiedEvent}
    (he : e ∈ classified) (he' : e' ∈ classified) (heq : e.index = e'.index) : e = e' := by
  obtain ⟨-, hplace, -⟩ := getElem?_of_mem h hbound he
  obtain ⟨-, hplace', -⟩ := getElem?_of_mem h hbound he'
  rw [heq, hplace'] at hplace
  exact (Option.some.inj hplace).symm

/-- The final events in front are those with the first so many indexes. -/
theorem mem_settledFront_iff
    (h : classified.map (fun e => (e.index, e.event)) = numbered first events)
    (hbound : first.toNat + events.length < 2 ^ 64) {e : ClassifiedEvent} (he : e ∈ classified) :
    e ∈ settledFront minConfirmations heights classified ↔
      e.index.toNat < first.toNat + (settledFront minConfirmations heights classified).length := by
  obtain ⟨hfirst, hplace, -⟩ := getElem?_of_mem h hbound he
  constructor
  · intro hmem
    obtain ⟨k, hk⟩ := List.getElem?_of_mem hmem
    have hlt : k < (settledFront minConfirmations heights classified).length :=
      (List.getElem?_eq_some_iff.mp hk).1
    have hle : (settledFront minConfirmations heights classified).length ≤ classified.length :=
      length_settledFront_le classified
    have hlength := length_of_map_eq_numbered h
    rw [getElem?_settledFront hlt] at hk
    obtain ⟨hindex, -⟩ := getElem?_of_map_eq_numbered h hk
    rw [hindex, toNat_add_ofNat (by omega)]
    omega
  · intro hlt
    have hk : e.index.toNat - first.toNat
        < (settledFront minConfirmations heights classified).length := by omega
    rw [← getElem?_settledFront hk] at hplace
    exact List.mem_of_getElem? hplace

/-- Their indexes increase. -/
theorem pairwise_index_of_map_eq_numbered
    (h : classified.map (fun e => (e.index, e.event)) = numbered first events)
    (hbound : first.toNat + events.length < 2 ^ 64) :
    classified.Pairwise fun e e' => e.index < e'.index := by
  have hnumbered := pairwise_numbered hbound
  rw [← h, List.pairwise_map] at hnumbered
  exact hnumbered

end

end BridgeGuardian.Watch
