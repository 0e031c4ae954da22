import BridgeGuardian.Proofs.Watch.Cycle
import Mathlib.Data.List.Infix
import Mathlib.Data.List.Sort
import Mathlib.Data.List.TakeWhile

/-! # Ledgers — what a cycle comes to while the chain stands still

    A ledger is a chain at one stage, as a node with it answers.  While the
    node tells a ledger, a reading has only one result: the settled events
    in front, from its start on.  The size of the batches does not occur in
    it.  A chain that grows keeps in front what was settled before, so what
    is settled at one stage and what is settled behind it at a later one is
    together what is settled at the later one. -/

namespace BridgeGuardian.Watch

open Program

/-- A chain at one stage: the events of each contract, the blocks, and the
    current heights. -/
structure Ledger where
  events : String → List Event
  header : String → BlockHeader
  isInMainChain : String → Bool
  height : UInt32 → UInt32 → UInt64
  /-- A contract's events can be counted. -/
  bounded : ∀ contract, (events contract).length < 2 ^ 64

namespace Ledger

/-- How many events a contract has. -/
def count (l : Ledger) (contract : String) : UInt64 := UInt64.ofNat (l.events contract).length

/-- What a node answers. -/
def answer (l : Ledger) : (q : NodeQuery) → q.Result
  | .eventCount contract => l.count contract
  | .events contract first last => ((l.events contract).take (last.toNat + 1)).drop first.toNat
  | .header hash => l.header hash
  | .isInMainChain hash => l.isInMainChain hash
  | .height fromGroup toGroup => l.height fromGroup toGroup

/-- The node answered from the ledger whenever it answered. -/
def Tells (l : Ledger) (t : Transcript Surroundings) : Prop :=
  ∀ q answer, answered q answer ∈ t → answer = l.answer q

/-- A later stage: events are appended, and chains become higher. -/
structure Grows (l l' : Ledger) : Prop where
  events : ∀ contract, l.events contract <+: l'.events contract
  header : l'.header = l.header
  isInMainChain : l'.isInMainChain = l.isInMainChain
  height : ∀ fromGroup toGroup, l.height fromGroup toGroup ≤ l'.height fromGroup toGroup

/-- Whether the block of an event is settled. -/
def isSettled (l : Ledger) (minConfirmations : UInt64) (event : Event) : Bool :=
  let header := l.header event.blockHash
  Watch.isSettled minConfirmations header.height (l.height header.chainFrom header.chainTo)

/-- The settled events in front, from an index on. -/
def settledFrom (l : Ledger) (minConfirmations : UInt64) (contract : String) (start : UInt64) :
    List Event :=
  ((l.events contract).drop start.toNat).takeWhile (l.isSettled minConfirmations)

/-- The index behind them. -/
def behind (l : Ledger) (minConfirmations : UInt64) (contract : String) (start : UInt64) : UInt64 :=
  start + UInt64.ofNat (l.settledFrom minConfirmations contract start).length

/-- A numbered event, confirmed if its block is in the main chain. -/
def confirm? (l : Ledger) (numberedEvent : UInt64 × Event) : Option ConfirmedEvent :=
  if l.isInMainChain numberedEvent.2.blockHash then some ⟨numberedEvent.1, numberedEvent.2⟩
  else none

/-- Those of them in the main chain. -/
def confirmedFrom (l : Ledger) (minConfirmations : UInt64) (contract : String) (start : UInt64) :
    List ConfirmedEvent :=
  (numbered start (l.settledFrom minConfirmations contract start)).filterMap l.confirm?

variable {l l' : Ledger} {minConfirmations start : UInt64} {contract : String}
variable {t t' : Transcript Surroundings}

theorem toNat_count (l : Ledger) (contract : String) :
    (l.count contract).toNat = (l.events contract).length :=
  UInt64.toNat_ofNat_of_lt' (l.bounded contract)

theorem Tells.subset (h : l.Tells t) (hsub : t' ⊆ t) : l.Tells t' :=
  fun q answer hmem => h q answer (hsub hmem)

theorem confirm?_eq_some_iff {i : UInt64} {event : Event} {e : ConfirmedEvent} :
    l.confirm? (i, event) = some e ↔
      l.isInMainChain event.blockHash = true ∧ e = ⟨i, event⟩ := by
  rw [confirm?, Option.ite_none_right_eq_some, Option.some_inj]
  exact and_congr_right fun _ => eq_comm

/-! ## What is settled in front -/

/-- Counting the settled events stays within 64 bits. -/
theorem toNat_behind (l : Ledger) (minConfirmations : UInt64) (contract : String)
    (start : UInt64) :
    (l.behind minConfirmations contract start).toNat
      = start.toNat + (l.settledFrom minConfirmations contract start).length := by
  have hle : (l.settledFrom minConfirmations contract start).length
      ≤ (l.events contract).length - start.toNat := by
    rw [← List.length_drop]
    exact (List.takeWhile_prefix _).length_le
  have hbound := l.bounded contract
  have hstart := UInt64.toNat_lt start
  exact toNat_add_ofNat (by omega)

/-- The settled events in front are those of the contract. -/
theorem getElem?_settledFrom {k : Nat}
    (hk : k < (l.settledFrom minConfirmations contract start).length) :
    (l.settledFrom minConfirmations contract start)[k]?
      = (l.events contract)[start.toNat + k]? := by
  have hfront : l.settledFrom minConfirmations contract start
      <+: (l.events contract).drop start.toNat := List.takeWhile_prefix _
  rw [List.getElem?_eq_getElem hk, ← List.getElem?_drop]
  exact (List.prefix_iff_getElem?.mp hfront k hk).symm

/-- An index with an event in the main chain that is settled in front. -/
theorem mem_confirmedFrom_iff {e : ConfirmedEvent} :
    e ∈ l.confirmedFrom minConfirmations contract start ↔
      start ≤ e.index ∧
        (l.settledFrom minConfirmations contract start)[e.index.toNat - start.toNat]?
          = some e.event ∧
        l.isInMainChain e.event.blockHash = true := by
  have hbound := l.toNat_behind minConfirmations contract start ▸ UInt64.toNat_lt _
  rw [← and_assoc, ← mem_numbered_iff hbound, confirmedFrom, List.mem_filterMap]
  constructor
  · rintro ⟨⟨i, event⟩, hmem, hconfirm⟩
    obtain ⟨hcanonical, rfl⟩ := confirm?_eq_some_iff.mp hconfirm
    exact ⟨hmem, hcanonical⟩
  · rintro ⟨hmem, hcanonical⟩
    exact ⟨(e.index, e.event), hmem, confirm?_eq_some_iff.mpr ⟨hcanonical, rfl⟩⟩

theorem pairwise_confirmedFrom (l : Ledger) (minConfirmations : UInt64) (contract : String)
    (start : UInt64) :
    (l.confirmedFrom minConfirmations contract start).Pairwise fun e e' => e.index < e'.index := by
  have hbound := l.toNat_behind minConfirmations contract start ▸ UInt64.toNat_lt _
  refine List.pairwise_filterMap.mpr ((pairwise_numbered hbound).imp ?_)
  rintro ⟨i, event⟩ ⟨i', event'⟩ hlt e he e' he'
  obtain ⟨-, rfl⟩ := confirm?_eq_some_iff.mp he
  obtain ⟨-, rfl⟩ := confirm?_eq_some_iff.mp he'
  exact hlt

/-! ## Growing -/

/-- A chain may stand still. -/
theorem Grows.refl (l : Ledger) : l.Grows l where
  events _ := List.prefix_refl _
  header := rfl
  isInMainChain := rfl
  height _ _ := UInt64.le_refl _

/-- What is settled stays settled, since its chain only becomes higher. -/
theorem Grows.isSettled (h : l.Grows l') {event : Event}
    (hsettled : l.isSettled minConfirmations event = true) :
    l'.isSettled minConfirmations event = true := by
  have hheight := UInt64.le_iff_toNat_le.mp
    (h.height (l.header event.blockHash).chainFrom (l.header event.blockHash).chainTo)
  unfold Ledger.isSettled Watch.isSettled at hsettled ⊢
  rw [h.header]
  rw [decide_eq_true_iff] at hsettled ⊢
  omega

/-- What is settled later is what is settled now, and what is settled later
    behind it. -/
theorem Grows.settledFrom (h : l.Grows l') (minConfirmations : UInt64) (contract : String)
    (start : UInt64) :
    l'.settledFrom minConfirmations contract start
      = l.settledFrom minConfirmations contract start ++
        l'.settledFrom minConfirmations contract (l.behind minConfirmations contract start) := by
  -- the settled events stand in front at the later stage as well
  have hfront : l.settledFrom minConfirmations contract start
      <+: (l'.events contract).drop start.toNat :=
    (List.takeWhile_prefix _).trans (List.IsPrefix.drop (h.events contract) start.toNat)
  obtain ⟨rest, hrest⟩ := hfront
  have hbehind : (l'.events contract).drop (l.behind minConfirmations contract start).toNat
      = rest := by
    rw [toNat_behind, ← List.drop_drop, ← hrest, List.drop_left]
  have hsettled : ∀ event ∈ l.settledFrom minConfirmations contract start,
      l'.isSettled minConfirmations event = true :=
    fun event hevent => h.isSettled (List.mem_takeWhile_imp hevent)
  unfold Ledger.settledFrom
  rw [hbehind, ← hrest]
  exact List.takeWhile_append_of_pos hsettled

/-- The index behind what is settled now leads on to the one later. -/
theorem Grows.behind (h : l.Grows l') (minConfirmations : UInt64) (contract : String)
    (start : UInt64) :
    l'.behind minConfirmations contract (l.behind minConfirmations contract start)
      = l'.behind minConfirmations contract start := by
  refine UInt64.toNat_inj.mp ?_
  have hlength := congrArg List.length (h.settledFrom minConfirmations contract start)
  rw [List.length_append] at hlength
  rw [toNat_behind, toNat_behind, toNat_behind, hlength, Nat.add_assoc]

/-- What is confirmed later is what is confirmed now, and what is confirmed
    later behind it. -/
theorem Grows.confirmedFrom (h : l.Grows l') (minConfirmations : UInt64) (contract : String)
    (start : UInt64) :
    l.confirmedFrom minConfirmations contract start ++
        l'.confirmedFrom minConfirmations contract (l.behind minConfirmations contract start)
      = l'.confirmedFrom minConfirmations contract start := by
  have hconfirm : l'.confirm? = l.confirm? := by
    funext numberedEvent
    rw [confirm?, h.isInMainChain]
    rfl
  have hsettled := h.settledFrom minConfirmations contract start
  unfold Ledger.confirmedFrom
  rw [hconfirm, hsettled, numbered_append, List.filterMap_append]
  rfl

/-! ## Readings -/

section

variable {event : Event}

/-- The events of a section are those of the ledger. -/
theorem Tells.event? {s : Section} (h : l.Tells (s.transcript contract)) {i : UInt64}
    (hevent : s.event? i = some event) : (l.events contract)[i.toNat]? = some event := by
  have hevents : s.events
      = ((l.events contract).take (s.range.last.toNat + 1)).drop s.range.first.toNat :=
    h _ _ List.mem_cons_self
  obtain ⟨hfirst, hplace⟩ := Option.ite_none_right_eq_some.mp hevent
  rw [UInt64.le_iff_toNat_le] at hfirst
  rw [hevents, List.getElem?_drop, Nat.add_sub_cancel' hfirst, List.getElem?_take] at hplace
  exact (Option.ite_none_right_eq_some.mp hplace).2

/-- What was said about the block of an event is in the ledger. -/
theorem Tells.canonicalBy? (h : l.Tells t) {isCanonical : Bool}
    (hsaid : canonicalBy? t event = some isCanonical) :
    l.isInMainChain event.blockHash = isCanonical :=
  (h _ _ (answered_mem_of_firstReply? hsaid)).symm

/-- What settles an event is in the ledger. -/
theorem Tells.settledBy? (h : l.Tells t) {isSettled : Bool}
    (hsaid : settledBy? minConfirmations t event = some isSettled) :
    l.isSettled minConfirmations event = isSettled := by
  unfold Watch.settledBy? at hsaid
  by_cases hzero : minConfirmations = 0
  · rw [if_pos hzero] at hsaid
    obtain rfl := Option.some.inj hsaid
    subst hzero
    show Watch.isSettled 0 _ _ = true
    exact decide_eq_true (Nat.zero_le _)
  · rw [if_neg hzero] at hsaid
    obtain ⟨header, hheader, hsaid⟩ := Option.bind_eq_some_iff.mp hsaid
    obtain ⟨current, hcurrent, hsaid⟩ := Option.bind_eq_some_iff.mp hsaid
    obtain rfl := h _ _ (answered_mem_of_firstReply? hheader)
    obtain rfl := h _ _ (answered_mem_of_firstReply? hcurrent)
    exact Option.some.inj hsaid

end

end Ledger

/-- So many elements in front satisfy a predicate, and the one behind them,
    if there is one, does not. -/
theorem length_takeWhile_eq {α : Type} {p : α → Bool} {xs : List α} {k : Nat}
    (hfront : ∀ j < k, ∃ x, xs[j]? = some x ∧ p x = true)
    (hstop : ∀ x, xs[k]? = some x → p x = false) : (xs.takeWhile p).length = k := by
  induction xs generalizing k with
  | nil =>
      cases k with
      | zero => rfl
      | succ k =>
          obtain ⟨x, hx, -⟩ := hfront 0 (Nat.succ_pos k)
          cases hx
  | cons x rest ih =>
      cases k with
      | zero => rw [List.takeWhile_cons_of_neg (by rw [hstop x rfl]; exact Bool.false_ne_true)]; rfl
      | succ k =>
          obtain ⟨y, hy, hp⟩ := hfront 0 (Nat.succ_pos k)
          obtain rfl := Option.some.inj hy
          rw [List.takeWhile_cons_of_pos hp, List.length_cons]
          exact congrArg (· + 1) (ih (fun j hj => hfront (j + 1) (Nat.succ_lt_succ hj)) hstop)

namespace IsReading

variable {l : Ledger} {minConfirmations start next : UInt64} {contract : String}
variable {sections : List Section} {events : List ConfirmedEvent}

theorem tells_section (htells : l.Tells (sections.flatMap (Section.transcript contract)))
    {s : Section} (hs : s ∈ sections) : l.Tells (s.transcript contract) ∧ l.Tells s.talk := by
  have hsection : l.Tells (s.transcript contract) :=
    htells.subset fun e he => List.mem_flatMap.mpr ⟨s, hs, he⟩
  exact ⟨hsection, hsection.subset (List.subset_cons_self _ _)⟩

/-- What a reading passed is settled in the ledger, and confirmed if it is
    in the main chain there. -/
theorem passed_of_tells
    (h : IsReading minConfirmations start (l.count contract) sections events next)
    (htells : l.Tells (sections.flatMap (Section.transcript contract))) {i : UInt64}
    (hfirst : start ≤ i) (hlt : i < next) :
    ∃ event, (l.events contract)[i.toNat]? = some event ∧
      l.isSettled minConfirmations event = true ∧
      ∀ e, ⟨i, e⟩ ∈ events ↔ l.isInMainChain event.blockHash = true ∧ e = event := by
  obtain ⟨s, hs, event, hevent, hsettled, isCanonical, hcanonical, hiff⟩ := h.passed i hfirst hlt
  obtain ⟨hsection, htalk⟩ := tells_section htells hs
  refine ⟨event, hsection.event? hevent, htalk.settledBy? hsettled, ?_⟩
  rwa [htalk.canonicalBy? hcanonical]

/-- A reading passes exactly the settled events in front. -/
theorem length_settledFrom
    (h : IsReading minConfirmations start (l.count contract) sections events next)
    (htells : l.Tells (sections.flatMap (Section.transcript contract))) :
    (l.settledFrom minConfirmations contract start).length = next.toNat - start.toNat := by
  have hle := UInt64.le_iff_toNat_le.mp h.le_next
  refine length_takeWhile_eq ?_ ?_
  · intro j hj
    have hplace : (start + UInt64.ofNat j).toNat = start.toNat + j :=
      toNat_add_ofNat (by have := UInt64.toNat_lt next; omega)
    obtain ⟨event, hevent, hsettled, -⟩ :=
      h.passed_of_tells htells (UInt64.le_iff_toNat_le.mpr (hplace ▸ Nat.le_add_right _ j))
        (UInt64.lt_iff_toNat_lt.mpr (by omega))
    rw [hplace] at hevent
    exact ⟨event, by rwa [List.getElem?_drop], hsettled⟩
  · intro event hevent
    rw [List.getElem?_drop, Nat.add_sub_cancel' hle] at hevent
    have hlt : next < l.count contract := by
      rw [UInt64.lt_iff_toNat_lt, l.toNat_count]
      exact (List.getElem?_eq_some_iff.mp hevent).1
    obtain ⟨s, hs, found, hfound, hyoung⟩ := h.stopped hlt
    obtain ⟨hsection, htalk⟩ := tells_section htells hs
    obtain rfl := Option.some.inj ((hsection.event? hfound).symm.trans hevent)
    exact htalk.settledBy? hyoung

/-- While the node tells a ledger, a reading comes to what the ledger says,
    whatever its sections are. -/
theorem eq_of_tells
    (h : IsReading minConfirmations start (l.count contract) sections events next)
    (htells : l.Tells (sections.flatMap (Section.transcript contract))) :
    events = l.confirmedFrom minConfirmations contract start ∧
      next = l.behind minConfirmations contract start := by
  have hle := UInt64.le_iff_toNat_le.mp h.le_next
  have hlength := h.length_settledFrom htells
  have hnext : next = l.behind minConfirmations contract start := by
    refine UInt64.toNat_inj.mp ?_
    rw [l.toNat_behind, hlength]
    omega
  have hplace : ∀ i : UInt64, start ≤ i → i < next →
      (l.settledFrom minConfirmations contract start)[i.toNat - start.toNat]?
        = (l.events contract)[i.toNat]? := by
    intro i hfirst hlt
    rw [UInt64.le_iff_toNat_le] at hfirst
    rw [UInt64.lt_iff_toNat_lt] at hlt
    rw [Ledger.getElem?_settledFrom (by omega), Nat.add_sub_cancel' hfirst]
  have hmem : ∀ e, e ∈ events ↔ e ∈ l.confirmedFrom minConfirmations contract start := by
    intro e
    rw [Ledger.mem_confirmedFrom_iff]
    constructor
    · intro he
      obtain ⟨hfirst, hlt⟩ := h.inside e he
      obtain ⟨event, hevent, -, hiff⟩ := h.passed_of_tells htells hfirst hlt
      obtain ⟨hcanonical, rfl⟩ := (hiff e.event).mp he
      exact ⟨hfirst, (hplace e.index hfirst hlt).trans hevent, hcanonical⟩
    · rintro ⟨hfirst, hsettled, hcanonical⟩
      have hlt : e.index < next := by
        have hshort := (List.getElem?_eq_some_iff.mp hsettled).1
        rw [UInt64.lt_iff_toNat_lt]
        omega
      obtain ⟨event, hevent, -, hiff⟩ := h.passed_of_tells htells hfirst hlt
      rw [hplace e.index hfirst hlt, hevent] at hsettled
      obtain rfl := Option.some.inj hsettled
      exact (hiff _).mpr ⟨hcanonical, rfl⟩
  -- both lists increase, so having the same members they are the same
  have hirrefl : Std.Irrefl fun e e' : ConfirmedEvent => e.index < e'.index :=
    ⟨fun e => UInt64.lt_irrefl e.index⟩
  have hantisymm : Std.Antisymm fun e e' : ConfirmedEvent => e.index < e'.index :=
    ⟨fun e e' hlt hgt => absurd hgt (UInt64.lt_asymm hlt)⟩
  exact ⟨h.increasing.eq_of_mem_iff (l.pairwise_confirmedFrom _ _ _) hmem, hnext⟩

end IsReading

end BridgeGuardian.Watch
