import BridgeGuardian.Proofs.DigestCache
import BridgeGuardian.Proofs.Table

/-! # A cache in two parts — a table of arrivals and a queue

    `DigestCache` keeps one list of entries.  A cache may also be kept in two
    parts: a table that knows when each digest arrived, and a queue of the
    digests, oldest first.  Eviction then goes round by round, dropping the
    front of the queue and its arrival.  `InStep` says that the two parts
    tell the same as the list does, and every operation keeps it so.  A round
    shortens the queue, so rounds come to an end, whatever the parts hold. -/

namespace BridgeGuardian

/-- A bounded memory of digests in two parts. -/
structure QueuedCache where
  capacity : Nat
  timeToLive : Nat
  arrivals : Table Bytes32 Nat
  order : List Bytes32
deriving DecidableEq, Repr

namespace QueuedCache

/-- A cache without entries; it has room for at least one. -/
def empty (capacity timeToLive : Nat) : QueuedCache := ⟨max capacity 1, timeToLive, [], []⟩

/-- The number of digests with an arrival. -/
def size (q : QueuedCache) : Nat := q.arrivals.length

/-- Whether a digest is present and fresh. -/
def contains (q : QueuedCache) (now : Nat) (digest : Bytes32) : Bool :=
  (q.arrivals.get? digest).any fun arrival => now - arrival < q.timeToLive

/-- Whether a digest is stale; one without an arrival is. -/
def isStale (q : QueuedCache) (now : Nat) (digest : Bytes32) : Bool :=
  (q.arrivals.get? digest).all fun arrival => q.timeToLive ≤ now - arrival

/-- One round of eviction: the front of the queue leaves both parts, unless
    it is fresh and there is room. -/
def round? (q : QueuedCache) (now : Nat) : Option QueuedCache :=
  match q.order with
  | [] => none
  | front :: rest =>
      if !q.isStale now front && q.size < q.capacity then none
      else some { q with arrivals := q.arrivals.without front, order := rest }

variable {q next : QueuedCache} {now : Nat} {digest : Bytes32}

theorem length_order_of_round? (h : q.round? now = some next) :
    next.order.length < q.order.length := by
  unfold round? at h
  cases horder : q.order with
  | nil =>
      rw [horder] at h
      cases h
  | cons front rest =>
      rw [horder] at h
      dsimp only at h
      split at h
      · cases h
      · cases h
        exact Nat.lt_succ_self _

/-- Rounds do not go on for ever. -/
theorem wellFounded_round (now : Nat) :
    WellFounded fun next q : QueuedCache => q.round? now = some next :=
  Subrelation.wf (fun h => length_order_of_round? h)
    (InvImage.wf (fun q : QueuedCache => q.order.length) Nat.lt_wfRel.wf)

/-- Go round until nothing has to leave. -/
def evict (q : QueuedCache) (now : Nat) : QueuedCache :=
  match _h : q.round? now with
  | none => q
  | some next => next.evict now
termination_by q.order.length
decreasing_by exact length_order_of_round? _h

theorem evict_of_none (h : q.round? now = none) : q.evict now = q := by
  rw [evict]
  split
  · rfl
  · next hsome => rw [h] at hsome; cases hsome

theorem evict_of_some (h : q.round? now = some next) : q.evict now = next.evict now := by
  rw [evict]
  split
  · next hnone => rw [h] at hnone; cases hnone
  · next hsome =>
      rw [h] at hsome
      cases hsome
      rfl

/-- Add a digest; `false` when it is already present and fresh.  A stale
    arrival of the same digest gives up its place in the queue. -/
def insert (q : QueuedCache) (now : Nat) (digest : Bytes32) : Bool × QueuedCache :=
  if q.contains now digest then (false, q)
  else
    let kept := q.evict now
    let order :=
      if (kept.arrivals.get? digest).isSome then kept.order.filter (· != digest) else kept.order
    (true, { kept with arrivals := kept.arrivals.put digest now, order := order ++ [digest] })

/-! ## The two parts in step -/

/-- The two parts tell the same as a list of entries. -/
structure InStep (q : QueuedCache) (c : DigestCache) : Prop where
  capacity : q.capacity = c.capacity
  timeToLive : q.timeToLive = c.timeToLive
  order : q.order = c.digests
  arrivals : q.arrivals.Perm (c.entries.map fun e => (e.digest, e.arrival))
  nodup : c.digests.Nodup

namespace InStep

variable {c : DigestCache}

theorem of_empty (capacity timeToLive : Nat) :
    InStep (empty capacity timeToLive) (.empty capacity timeToLive) :=
  ⟨rfl, rfl, rfl, .refl _, List.nodup_nil⟩

theorem keys_perm (h : InStep q c) : (q.arrivals.map Prod.fst).Perm c.digests := by
  have hkeys := h.arrivals.map Prod.fst
  rwa [List.map_map] at hkeys

theorem distinct (h : InStep q c) : q.arrivals.Distinct := h.keys_perm.nodup_iff.mpr h.nodup

theorem size_eq (h : InStep q c) : q.size = c.size :=
  h.arrivals.length_eq.trans (List.length_map _)

theorem get?_eq_some_iff (h : InStep q c) {arrival : Nat} :
    q.arrivals.get? digest = some arrival ↔ ⟨digest, arrival⟩ ∈ c.entries := by
  have hmem : (digest, arrival) ∈ q.arrivals ↔ ⟨digest, arrival⟩ ∈ c.entries := by
    rw [h.arrivals.mem_iff, List.mem_map]
    constructor
    · rintro ⟨e, he, heq⟩
      cases heq
      exact he
    · exact fun he => ⟨_, he, rfl⟩
  exact ⟨fun hget => hmem.mp (Table.mem_of_get? hget),
    fun he => Table.get?_of_mem h.distinct (hmem.mpr he)⟩

/-- The queue lists the digests that have an arrival. -/
theorem mem_order_iff (h : InStep q c) :
    digest ∈ q.order ↔ (q.arrivals.get? digest).isSome := by
  rw [h.order, ← h.keys_perm.mem_iff, Table.isSome_get?_iff, List.mem_map]
  constructor
  · rintro ⟨⟨_, arrival⟩, hentry, rfl⟩
    exact ⟨arrival, hentry⟩
  · rintro ⟨arrival, hentry⟩
    exact ⟨_, hentry, rfl⟩

theorem contains_eq (h : InStep q c) (now : Nat) (digest : Bytes32) :
    q.contains now digest = c.contains now digest := by
  rw [Bool.eq_iff_iff, DigestCache.contains_iff, contains, Option.any_eq_true]
  simp only [h.get?_eq_some_iff, h.timeToLive, DigestCache.isFresh]
  constructor
  · rintro ⟨arrival, hentry, hfresh⟩
    exact ⟨_, hentry, rfl, hfresh⟩
  · rintro ⟨⟨_, arrival⟩, hentry, rfl, hfresh⟩
    exact ⟨arrival, hentry, hfresh⟩

/-- The front of the queue is stale when the first entry is. -/
theorem isStale_eq (h : InStep q c) {e : CacheEntry} (he : e ∈ c.entries) (now : Nat) :
    q.isStale now e.digest = !c.isFresh now e := by
  rw [isStale, h.get?_eq_some_iff.mpr he, Option.all_some, DigestCache.isFresh, h.timeToLive,
    ← decide_not, decide_eq_decide, Nat.not_lt]

/-- The parts behind a round that drops the first entry. -/
theorem drop_first (h : InStep q c) {e : CacheEntry} {rest : List CacheEntry}
    (hentries : c.entries = e :: rest) :
    InStep { q with arrivals := q.arrivals.without e.digest, order := rest.map CacheEntry.digest }
      { c with entries := rest } := by
  have hnodup := h.nodup
  have harrivals := h.arrivals
  rw [DigestCache.digests, hentries] at hnodup
  rw [hentries] at harrivals
  obtain ⟨hfirst, hrest⟩ := List.nodup_cons.mp hnodup
  refine ⟨h.capacity, h.timeToLive, rfl, ?_, hrest⟩
  have hkeys : (rest.map fun e => (e.digest, e.arrival)).map Prod.fst
      = rest.map CacheEntry.digest := by rw [List.map_map]; rfl
  have hothers : Table.without (rest.map fun e => (e.digest, e.arrival)) e.digest
      = rest.map fun e => (e.digest, e.arrival) :=
    Table.without_of_notMem_keys (by rwa [hkeys])
  have hall := harrivals.filter fun entry => decide (entry.1 ≠ e.digest)
  rw [List.map_cons] at hall
  exact hall.trans (.of_eq ((Table.without_cons_self _ _ _).trans hothers))

/-- Going round drops the entries that eviction drops. -/
theorem evict (h : InStep q c) (now : Nat) :
    InStep (q.evict now) { c with entries := c.evict now c.entries } := by
  obtain ⟨capacity, timeToLive, entries⟩ := c
  induction entries generalizing q with
  | nil =>
      have hround : q.round? now = none := by
        rw [round?, h.order]
        rfl
      rw [evict_of_none hround]
      exact h
  | cons first rest ih =>
      have hstays : (!q.isStale now first.digest && decide (q.size < q.capacity))
          = (DigestCache.isFresh ⟨capacity, timeToLive, first :: rest⟩ now first &&
            decide (rest.length + 1 < capacity)) := by
        rw [h.isStale_eq List.mem_cons_self, Bool.not_not, h.size_eq, h.capacity]
        rfl
      have hround : q.round? now
          = if !q.isStale now first.digest && q.size < q.capacity then none
            else some { q with
              arrivals := q.arrivals.without first.digest
              order := rest.map CacheEntry.digest } := by
        rw [round?, h.order]
        rfl
      rw [hstays] at hround
      rw [DigestCache.evict]
      split
      · next hkeeps =>
          rw [evict_of_none (hround.trans (if_pos hkeeps))]
          exact h
      · next hdrops =>
        rw [evict_of_some (hround.trans (if_neg hdrops))]
        have hrest := ih (h.drop_first rfl)
        rwa [DigestCache.evict_with ⟨capacity, timeToLive, rest⟩ now rest (first :: rest)]

/-- The queue behind an insertion: the digest leaves its place, if it has one,
    and stands at the end. -/
theorem order_kept (h : InStep q c) (digest : Bytes32) :
    (if (q.arrivals.get? digest).isSome then q.order.filter (· != digest) else q.order)
      = (c.entries.filter fun e => e.digest != digest).map CacheEntry.digest := by
  have hfilter : (c.entries.filter fun e => e.digest != digest).map CacheEntry.digest
      = q.order.filter (· != digest) := by
    rw [h.order, DigestCache.digests, List.filter_map]
    rfl
  rw [hfilter]
  split
  · rfl
  · next habsent =>
      refine (List.filter_eq_self.mpr fun other hother => bne_iff_ne.mpr ?_).symm
      rintro rfl
      exact habsent (h.mem_order_iff.mp hother)

/-- An insertion has the same answer in both, and keeps them in step. -/
theorem insert (h : InStep q c) (now : Nat) (digest : Bytes32) :
    (q.insert now digest).1 = (c.insert now digest).1 ∧
      InStep (q.insert now digest).2 (c.insert now digest).2 := by
  have hnodup := DigestCache.nodup_insert h.nodup now digest
  cases hseen : c.contains now digest with
  | true =>
      rw [DigestCache.insert_of_contains hseen, QueuedCache.insert, h.contains_eq, if_pos hseen]
      exact ⟨rfl, h⟩
  | false =>
      have hkept := h.evict now
      rw [DigestCache.insert_of_not_contains hseen] at hnodup ⊢
      rw [QueuedCache.insert, h.contains_eq, hseen, if_neg Bool.false_ne_true]
      refine ⟨rfl, hkept.capacity, hkept.timeToLive, ?_, ?_, hnodup⟩
      · show _ ++ [digest] = List.map _ (_ ++ [_])
        rw [hkept.order_kept digest, List.map_append]
        rfl
      · show (Table.put digest now _).Perm (List.map _ (_ ++ [_]))
        rw [List.map_append]
        refine (Table.put_perm hkept.distinct).trans (.append_right _ ?_)
        refine (hkept.arrivals.filter _).trans (.of_eq ?_)
        rw [List.filter_map]
        refine congrArg (List.map _) (List.filter_congr fun e _ => ?_)
        show decide (e.digest ≠ digest) = (e.digest != digest)
        rw [bne, decide_not, beq_eq_decide]

end InStep

end QueuedCache

end BridgeGuardian
