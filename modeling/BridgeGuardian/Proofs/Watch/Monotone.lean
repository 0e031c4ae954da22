import BridgeGuardian.Proofs.Table
import BridgeGuardian.Proofs.Watch.Confirmed
import Mathlib.Data.List.Infix

/-! # Monotone confirmation — nothing that was confirmed is taken back

    A walk takes the final events in front.  When chains become higher, or
    fewer blocks are needed on top, no final event ceases to be final, so the
    front becomes longer at its end only.  What is confirmed and what is
    dropped are parts of the front, in its order.

    The walk ends behind the last event that it takes, wherever that event
    says it is.  So the place behind a longer front is not in front of the
    one behind a shorter front as long as the events are in the order of
    their indexes; `placeBehind_append` takes the longer walk apart where the
    shorter one ends. -/

namespace BridgeGuardian.Watch

variable {minConfirmations minConfirmations' : UInt64} {heights heights' : Heights}

/-! ## More is final -/

/-- The same chains are known, none of them is lower than before, and no more
    blocks are needed on top. -/
structure Relaxes (minConfirmations : UInt64) (heights : Heights) (minConfirmations' : UInt64)
    (heights' : Heights) : Prop where
  fewer : minConfirmations' ≤ minConfirmations
  known : ∀ chain, (heights'.get? chain).isSome = (heights.get? chain).isSome
  higher : ∀ chain current current', heights.get? chain = some current →
    heights'.get? chain = some current' → current ≤ current'

/-- What is settled stays settled. -/
theorem isSettled_of_le {blockHeight current current' : UInt64}
    (hfewer : minConfirmations' ≤ minConfirmations) (hhigher : current ≤ current')
    (h : isSettled minConfirmations blockHeight current = true) :
    isSettled minConfirmations' blockHeight current' = true := by
  rw [UInt64.le_iff_toNat_le] at hfewer hhigher
  unfold isSettled at h ⊢
  rw [decide_eq_true_iff] at h ⊢
  omega

/-- What is final stays final, whether the height of its chain is known or
    not. -/
theorem Relaxes.isFinal (h : Relaxes minConfirmations heights minConfirmations' heights')
    {e : ClassifiedEvent} (hfinal : e.isFinal minConfirmations heights = true) :
    e.isFinal minConfirmations' heights' = true := by
  have hknown := h.known e.header.chain
  unfold ClassifiedEvent.isFinal at hfinal ⊢
  cases hcurrent : heights.get? e.header.chain with
  | none =>
      rw [hcurrent] at hfinal hknown
      cases hcurrent' : heights'.get? e.header.chain with
      | some current' =>
          rw [hcurrent'] at hknown
          cases hknown
      | none =>
          obtain rfl := of_decide_eq_true hfinal
          exact decide_eq_true (UInt64.le_zero_iff.mp h.fewer)
  | some current =>
      rw [hcurrent] at hfinal hknown
      cases hcurrent' : heights'.get? e.header.chain with
      | none =>
          rw [hcurrent'] at hknown
          cases hknown
      | some current' =>
          exact isSettled_of_le h.fewer (h.higher _ _ _ hcurrent hcurrent') hfinal

/-! ## The front becomes longer -/

/-- With a weaker predicate more elements in front are taken. -/
theorem takeWhile_prefix_of_imp {α : Type} {p q : α → Bool}
    (himp : ∀ x, p x = true → q x = true) (xs : List α) :
    xs.takeWhile p <+: xs.takeWhile q := by
  induction xs with
  | nil => exact List.prefix_refl _
  | cons x rest ih =>
      rw [List.takeWhile_cons]
      cases hp : p x with
      | false => exact List.nil_prefix
      | true =>
          rw [if_pos rfl, List.takeWhile_cons, if_pos (himp x hp)]
          exact List.cons_prefix_cons.mpr ⟨rfl, ih⟩

theorem Relaxes.settledFront (h : Relaxes minConfirmations heights minConfirmations' heights')
    (events : List ClassifiedEvent) :
    settledFront minConfirmations heights events
      <+: settledFront minConfirmations' heights' events :=
  takeWhile_prefix_of_imp (fun _ => h.isFinal) events

/-- The final events in front that are outside the main chain. -/
def droppedFront (minConfirmations : UInt64) (heights : Heights)
    (events : List ClassifiedEvent) : List ClassifiedEvent :=
  (settledFront minConfirmations heights events).filter fun e => !e.isCanonical

/-- These are the ones that a walk counts as dropped. -/
theorem dropped_confirm (next : UInt64) (events : List ClassifiedEvent) :
    (confirm minConfirmations heights next events).dropped
      = (droppedFront minConfirmations heights events).length := by
  induction events generalizing next with
  | nil => rfl
  | cons e rest ih =>
      rw [confirm, droppedFront, Watch.settledFront, List.takeWhile_cons]
      cases hfinal : e.isFinal minConfirmations heights with
      | false => rfl
      | true =>
          rw [if_pos rfl, if_pos rfl, List.filter_cons]
          cases hcanonical : e.isCanonical with
          | false => exact congrArg (· + 1) (ih (e.index + 1))
          | true => exact ih (e.index + 1)

/-! ## The place behind the front -/

/-- The place behind events; `next` is the one behind those before. -/
def placeBehind : (next : UInt64) → List ClassifiedEvent → UInt64
  | next, [] => next
  | _, e :: rest => placeBehind (e.index + 1) rest

/-- A walk ends behind the final events in front. -/
theorem nextIndex_confirm_eq (next : UInt64) (events : List ClassifiedEvent) :
    (confirm minConfirmations heights next events).nextIndex
      = placeBehind next (settledFront minConfirmations heights events) := by
  induction events generalizing next with
  | nil => rfl
  | cons e rest ih =>
      rw [confirm, Watch.settledFront, List.takeWhile_cons]
      cases hfinal : e.isFinal minConfirmations heights with
      | false => rfl
      | true =>
          rw [if_pos rfl, if_pos rfl]
          cases hcanonical : e.isCanonical with
          | false => exact ih (e.index + 1)
          | true => exact ih (e.index + 1)

theorem placeBehind_append (next : UInt64) (events more : List ClassifiedEvent) :
    placeBehind next (events ++ more) = placeBehind (placeBehind next events) more := by
  induction events generalizing next with
  | nil => rfl
  | cons e rest ih => exact ih (e.index + 1)

/-- Only the last event tells. -/
theorem placeBehind_concat (next : UInt64) (events : List ClassifiedEvent)
    (last : ClassifiedEvent) : placeBehind next (events ++ [last]) = last.index + 1 :=
  placeBehind_append next events [last]

/-- Events do not lead back if the last of them does not. -/
theorem le_placeBehind_iff {next : UInt64} {events : List ClassifiedEvent} :
    next ≤ placeBehind next events ↔ ∀ last ∈ events.getLast?, next ≤ last.index + 1 := by
  rcases List.eq_nil_or_concat events with rfl | ⟨front, last, rfl⟩
  · exact iff_of_true (UInt64.le_refl next) nofun
  · rw [List.concat_eq_append, placeBehind_concat, List.getLast?_concat]
    exact ⟨fun h _ hlast => Option.some.inj hlast ▸ h, fun h => h last rfl⟩

/-- The place behind an event is never in front of the one behind the events
    before it. -/
inductive IsAscending : (next : UInt64) → List ClassifiedEvent → Prop
  | nil (next : UInt64) : IsAscending next []
  | cons {next : UInt64} {e : ClassifiedEvent} {rest : List ClassifiedEvent}
      (le : next ≤ e.index + 1) (ascending : IsAscending (e.index + 1) rest) :
      IsAscending next (e :: rest)

/-- Events that are counted are in this order. -/
theorem isAscending_of_numbered {next : UInt64} {events : List Event}
    {classified : List ClassifiedEvent}
    (h : classified.map (fun e => (e.index, e.event)) = numbered next events)
    (hbound : next.toNat + events.length < 2 ^ 64) : IsAscending next classified := by
  induction classified generalizing next events with
  | nil => exact .nil next
  | cons e rest ih =>
      cases events with
      | nil => cases h
      | cons event others =>
          obtain ⟨hfirst, hrest⟩ := List.cons.inj h
          obtain ⟨hindex, -⟩ := Prod.mk.inj hfirst
          rw [List.length_cons] at hbound
          have hbehind : (next + 1).toNat = next.toNat + 1 := toNat_add_one (by omega)
          have hle : next ≤ next + 1 := by
            rw [UInt64.le_iff_toNat_le, hbehind]
            exact Nat.le_succ _
          have hroom : (next + 1).toNat + others.length < 2 ^ 64 := by omega
          rw [← hindex] at hrest hroom
          exact .cons (hindex ▸ hle) (ih hrest hroom)

/-- The first of them do not lead back, and the others go on from there. -/
theorem IsAscending.of_append {next : UInt64} {events more : List ClassifiedEvent}
    (h : IsAscending next (events ++ more)) :
    next ≤ placeBehind next events ∧ IsAscending (placeBehind next events) more := by
  induction events generalizing next with
  | nil => exact ⟨UInt64.le_refl next, h⟩
  | cons e rest ih =>
      cases h with
      | cons le ascending =>
          obtain ⟨hrest, hmore⟩ := ih ascending
          exact ⟨UInt64.le_trans le hrest, hmore⟩

/-- Where one walk ends, the other one takes some more events. -/
theorem Relaxes.exists_more (h : Relaxes minConfirmations heights minConfirmations' heights')
    (start : UInt64) (events : List ClassifiedEvent) :
    ∃ more, Watch.settledFront minConfirmations' heights' events
        = Watch.settledFront minConfirmations heights events ++ more ∧
      (confirm minConfirmations' heights' start events).nextIndex
        = placeBehind (confirm minConfirmations heights start events).nextIndex more := by
  obtain ⟨more, hmore⟩ := h.settledFront events
  refine ⟨more, hmore.symm, ?_⟩
  rw [nextIndex_confirm_eq, nextIndex_confirm_eq, ← hmore, placeBehind_append]

/-- Through events in order, the other walk does not end in front of it. -/
theorem Relaxes.nextIndex_le (h : Relaxes minConfirmations heights minConfirmations' heights')
    {start : UInt64} {events : List ClassifiedEvent} (hevents : IsAscending start events) :
    (confirm minConfirmations heights start events).nextIndex
      ≤ (confirm minConfirmations' heights' start events).nextIndex := by
  obtain ⟨more, hmore, hnext⟩ := h.exists_more start events
  obtain ⟨rest, hrest⟩ : Watch.settledFront minConfirmations' heights' events <+: events :=
    List.takeWhile_prefix _
  rw [hmore, List.append_assoc] at hrest
  rw [← hrest] at hevents
  rw [hnext, nextIndex_confirm_eq]
  exact hevents.of_append.2.of_append.1

/-! ## Walks -/

/-- A walk over the same events with higher chains or a laxer policy takes at
    least as many of them.  It confirms what the other walk confirms and
    possibly more behind it, it drops what the other one drops and possibly
    more behind it, and it stops only if the other one does.  Where it ends is
    told by the last event that it takes beyond the other walk: it does not
    end in front of the other one exactly if that event does not stand there.
    So it never does over events in order, as those of a batch are. -/
theorem confirmation_is_monotone
    (h : Relaxes minConfirmations heights minConfirmations' heights') (start : UInt64)
    (events : List ClassifiedEvent) :
    (confirm minConfirmations heights start events).confirmed
        <+: (confirm minConfirmations' heights' start events).confirmed ∧
    droppedFront minConfirmations heights events
        <+: droppedFront minConfirmations' heights' events ∧
    (confirm minConfirmations heights start events).dropped
        ≤ (confirm minConfirmations' heights' start events).dropped ∧
    ((confirm minConfirmations' heights' start events).isStopped = true →
      (confirm minConfirmations heights start events).isStopped = true) ∧
    (∃ more, settledFront minConfirmations' heights' events
        = settledFront minConfirmations heights events ++ more ∧
      ((confirm minConfirmations heights start events).nextIndex
          ≤ (confirm minConfirmations' heights' start events).nextIndex ↔
        ∀ last ∈ more.getLast?,
          (confirm minConfirmations heights start events).nextIndex ≤ last.index + 1)) ∧
    (IsAscending start events →
      (confirm minConfirmations heights start events).nextIndex
        ≤ (confirm minConfirmations' heights' start events).nextIndex) := by
  have hfront := h.settledFront events
  have hdropped : droppedFront minConfirmations heights events
      <+: droppedFront minConfirmations' heights' events := hfront.filter _
  refine ⟨?_, hdropped, ?_, ?_, ?_, h.nextIndex_le⟩
  · rw [confirmed_confirm, confirmed_confirm]
    exact (hfront.filter _).map _
  · rw [dropped_confirm, dropped_confirm]
    exact hdropped.length_le
  · rw [isStopped_confirm, isStopped_confirm, decide_eq_true_iff, decide_eq_true_iff]
    exact fun hlater => Nat.lt_of_le_of_lt hfront.length_le hlater
  · obtain ⟨more, hmore, hnext⟩ := h.exists_more start events
    refine ⟨more, hmore, ?_⟩
    rw [hnext]
    exact le_placeBehind_iff

/-- One chain that is no lower than before, and a policy that asks for no
    more. -/
theorem relaxes_singleton (chain : UInt32 × UInt32) {current current' : UInt64}
    (hfewer : minConfirmations' ≤ minConfirmations) (hhigher : current ≤ current') :
    Relaxes minConfirmations [(chain, current)] minConfirmations' [(chain, current')] where
  fewer := hfewer
  known other := by
    by_cases hother : chain = other
    · rw [Table.get?_singleton, Table.get?_singleton, if_pos hother, if_pos hother]
      rfl
    · rw [Table.get?_singleton, Table.get?_singleton, if_neg hother, if_neg hother]
  higher other height height' h h' := by
    rw [Table.get?_singleton] at h h'
    by_cases hother : chain = other
    · rw [if_pos hother] at h h'
      obtain rfl := Option.some.inj h
      obtain rfl := Option.some.inj h'
      exact hhigher
    · rw [if_neg hother] at h
      cases h

/-- An event of the chain that starts and ends in the first group. -/
def eventAt (index height : UInt64) (isCanonical : Bool) : ClassifiedEvent :=
  ⟨index, ⟨"block", "bridge", "", 0, []⟩, ⟨"block", 0, 0, 0, height⟩, isCanonical⟩

/-- An old event, an orphaned one and a young one. -/
def threeEvents : List ClassifiedEvent :=
  [eventAt 4 90 true, eventAt 5 97 false, eventAt 6 99 true]

/-- With five blocks needed the walk stops at the orphaned event; when the
    chain is higher by three blocks and four are enough, it passes all. -/
theorem orphan_is_dropped_later :
    Relaxes 5 [((0, 0), 100)] 4 [((0, 0), 103)] ∧ IsAscending 4 threeEvents ∧
      (confirm 5 [((0, 0), 100)] 4 threeEvents).nextIndex = 5 ∧
      (confirm 4 [((0, 0), 103)] 4 threeEvents).nextIndex = 7 ∧
      (confirm 5 [((0, 0), 100)] 4 threeEvents).confirmed
        <+: (confirm 4 [((0, 0), 103)] 4 threeEvents).confirmed ∧
      (confirm 5 [((0, 0), 100)] 4 threeEvents).dropped
        ≤ (confirm 4 [((0, 0), 103)] 4 threeEvents).dropped ∧
      (confirm 5 [((0, 0), 100)] 4 threeEvents).nextIndex
        ≤ (confirm 4 [((0, 0), 103)] 4 threeEvents).nextIndex := by
  have hrelaxes : Relaxes 5 [((0, 0), 100)] 4 [((0, 0), 103)] :=
    relaxes_singleton (0, 0) (by decide) (by decide)
  have hascending : IsAscending 4 threeEvents :=
    @isAscending_of_numbered 4 (threeEvents.map ClassifiedEvent.event) threeEvents rfl (by decide)
  obtain ⟨hconfirmed, -, hdropped, -, -, hnext⟩ := confirmation_is_monotone hrelaxes 4 threeEvents
  exact ⟨hrelaxes, hascending, rfl, rfl, hconfirmed, hdropped, hnext hascending⟩

/-- Two events of the main chain, the later one in front. -/
def swappedEvents : List ClassifiedEvent := [eventAt 5 8 true, eventAt 2 9 true]

/-- Events that are not in order can lead a walk back: with one block needed
    it stops behind the event with index five, and with none needed it goes
    on and ends behind the one with index two. -/
theorem swapped_events_lead_back :
    Relaxes 1 [((0, 0), 9)] 0 [((0, 0), 9)] ∧
      (confirm 1 [((0, 0), 9)] 0 swappedEvents).nextIndex = 6 ∧
      (confirm 0 [((0, 0), 9)] 0 swappedEvents).nextIndex = 3 ∧
      ¬ ∀ minConfirmations heights minConfirmations' heights',
        Relaxes minConfirmations heights minConfirmations' heights' → ∀ start events,
          (confirm minConfirmations heights start events).nextIndex
            ≤ (confirm minConfirmations' heights' start events).nextIndex := by
  have hrelaxes : Relaxes 1 [((0, 0), 9)] 0 [((0, 0), 9)] :=
    relaxes_singleton (0, 0) (by decide) (UInt64.le_refl 9)
  refine ⟨hrelaxes, by decide, by decide, fun h => ?_⟩
  exact absurd (h 1 [((0, 0), 9)] 0 [((0, 0), 9)] hrelaxes 0 swappedEvents) (by decide)

end BridgeGuardian.Watch
