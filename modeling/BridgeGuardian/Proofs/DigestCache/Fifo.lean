import BridgeGuardian.Proofs.DigestCache.Queue
import Mathlib.Data.List.Induction

/-! # First in, first out — which digests a cache holds behind any requests

    As long as nothing expires a cache is a list of distinct digests with
    room for so many: a digest that is there is refused, any other is put at
    the end, and if the list is full the oldest leaves.  So the list is the
    end of the sequence of all digests that were accepted.  The heart is
    `evict_of_fresh`: among fresh entries eviction drops the oldest if there
    is no room, and none otherwise.

    A time to live of zero is the other extreme: every insertion finds only
    stale entries and drops them all. -/

namespace BridgeGuardian

/-- What may be asked of a cache, with the moment at which it is asked. -/
inductive CacheRequest
  | insert (now : Nat) (digest : Bytes32)
  | contains (now : Nat) (digest : Bytes32)
deriving DecidableEq, Repr

/-- The moment of a request. -/
def CacheRequest.moment : CacheRequest → Nat
  | .insert now _ => now
  | .contains now _ => now

/-- No request comes later than a time to live behind one before it. -/
def NothingExpires (timeToLive : Nat) (history : List CacheRequest) : Prop :=
  history.Pairwise fun earlier later => later.moment - earlier.moment < timeToLive

/-- The requests of a history are compared pair by pair. -/
instance (timeToLive : Nat) (history : List CacheRequest) :
    Decidable (NothingExpires timeToLive history) :=
  inferInstanceAs (Decidable (history.Pairwise _))

/-! ## A list with room for so many -/

/-- Put a digest at the end of a list with room for so many; from a full list
    the oldest leaves. -/
def pushWithin (room : Nat) (l : List Bytes32) (digest : Bytes32) : List Bytes32 :=
  (if l.length < room then l else l.tail) ++ [digest]

/-- What a list of distinct digests answers to a request, and what becomes of
    it. -/
def CacheRequest.answerFrom (room : Nat) (l : List Bytes32) : CacheRequest → Bool × List Bytes32
  | .insert _ digest => if digest ∈ l then (false, l) else (true, pushWithin room l digest)
  | .contains _ digest => (decide (digest ∈ l), l)

/-- The last so many of a list. -/
def lastOf (room : Nat) (l : List Bytes32) : List Bytes32 := l.drop (l.length - room)

theorem length_lastOf (room : Nat) (l : List Bytes32) :
    (lastOf room l).length = min room l.length := by
  rw [lastOf, List.length_drop]
  omega

/-- To push behind the last of a list is to take the last of the longer
    list. -/
theorem pushWithin_lastOf {room : Nat} (hroom : 0 < room) (l : List Bytes32) (digest : Bytes32) :
    pushWithin room (lastOf room l) digest = lastOf room (l ++ [digest]) := by
  have hlength := length_lastOf room l
  show _ = (l ++ [digest]).drop ((l ++ [digest]).length - room)
  rw [List.length_append, List.length_singleton, pushWithin]
  split
  · next hfree =>
      have hall : l.length - room = 0 ∧ l.length + 1 - room = 0 := by omega
      rw [lastOf, hall.1, hall.2]
      rfl
  · next hfull =>
      have hnext : l.length - room + 1 = l.length + 1 - room := by omega
      rw [lastOf, List.tail_drop, hnext, List.drop_append_of_le_length (by omega)]

/-! ## Requests one after the other -/

namespace QueuedCache

/-- Answer a request. -/
def answer (q : QueuedCache) : CacheRequest → Bool × QueuedCache
  | .insert now digest => q.insert now digest
  | .contains now digest => (q.contains now digest, q)

/-- A cache behind requests that are answered one by one. -/
def after (q : QueuedCache) (history : List CacheRequest) : QueuedCache :=
  history.foldl (fun q request => (q.answer request).2) q

end QueuedCache

namespace DigestCache

/-- Answer a request. -/
def answer (c : DigestCache) : CacheRequest → Bool × DigestCache
  | .insert now digest => c.insert now digest
  | .contains now digest => (c.contains now digest, c)

/-- A cache behind requests that are answered one by one. -/
def after (c : DigestCache) (history : List CacheRequest) : DigestCache :=
  history.foldl (fun c request => (c.answer request).2) c

/-- The digest that a request adds, if it adds one. -/
def added (c : DigestCache) : CacheRequest → List Bytes32
  | .insert now digest => if (c.insert now digest).1 then [digest] else []
  | .contains _ _ => []

/-- The digests that requests add, in order. -/
def accepted (c : DigestCache) : List CacheRequest → List Bytes32
  | [] => []
  | request :: rest => c.added request ++ (c.answer request).2.accepted rest

variable {c : DigestCache} {now : Nat} {digest : Bytes32}

theorem after_append (c : DigestCache) (history : List CacheRequest) (request : CacheRequest) :
    c.after (history ++ [request]) = ((c.after history).answer request).2 := by
  rw [after, List.foldl_append]
  rfl

theorem accepted_append (c : DigestCache) (history : List CacheRequest)
    (request : CacheRequest) :
    c.accepted (history ++ [request]) = c.accepted history ++ (c.after history).added request := by
  induction history generalizing c with
  | nil => exact (List.append_nil _).trans (List.nil_append _).symm
  | cons first rest ih =>
      show c.added first ++ (c.answer first).2.accepted (rest ++ [request]) = _
      rw [ih, ← List.append_assoc]
      rfl

/-- A cache that says no stays as it is. -/
theorem answer_of_false {request : CacheRequest} (h : (c.answer request).1 = false) :
    (c.answer request).2 = c := by
  cases request with
  | contains now digest => rfl
  | insert now digest =>
      cases hseen : c.contains now digest with
      | true => exact congrArg Prod.snd (insert_of_contains hseen)
      | false =>
          rw [show c.answer (.insert now digest) = c.insert now digest from rfl,
            insert_of_not_contains hseen] at h
          cases h

/-! ## What every request keeps -/

/-- The bounds within which a cache stays. -/
structure IsBounded (c : DigestCache) (room timeToLive : Nat) : Prop where
  capacity : c.capacity = room
  timeToLive : c.timeToLive = timeToLive
  size_le : c.size ≤ room

theorem isBounded_empty (capacity timeToLive : Nat) :
    (empty capacity timeToLive).IsBounded (max capacity 1) timeToLive :=
  ⟨rfl, rfl, Nat.zero_le _⟩

theorem capacity_insert (c : DigestCache) (now : Nat) (digest : Bytes32) :
    (c.insert now digest).2.capacity = c.capacity := by
  unfold insert
  split <;> rfl

theorem timeToLive_insert (c : DigestCache) (now : Nat) (digest : Bytes32) :
    (c.insert now digest).2.timeToLive = c.timeToLive := by
  unfold insert
  split <;> rfl

theorem IsBounded.answer {room timeToLive : Nat} (h : c.IsBounded room timeToLive)
    (hroom : 0 < room) (request : CacheRequest) :
    (c.answer request).2.IsBounded room timeToLive := by
  cases request with
  | contains now digest => exact h
  | insert now digest =>
      obtain ⟨rfl, rfl, hsize⟩ := h
      exact ⟨capacity_insert c now digest, timeToLive_insert c now digest,
        size_insert_le hroom hsize now digest⟩

theorem isBounded_after (capacity timeToLive : Nat) (history : List CacheRequest) :
    ((empty capacity timeToLive).after history).IsBounded (max capacity 1) timeToLive := by
  have hroom : 0 < max capacity 1 := Nat.lt_of_lt_of_le Nat.one_pos (Nat.le_max_right _ _)
  induction history using List.reverseRecOn with
  | nil => exact isBounded_empty capacity timeToLive
  | append_singleton earlier request ih =>
      rw [after_append]
      exact ih.answer hroom request

/-- Every entry has arrived with one of the requests. -/
theorem exists_of_mem_after {capacity timeToLive : Nat} {history : List CacheRequest}
    {e : CacheEntry} (h : e ∈ ((empty capacity timeToLive).after history).entries) :
    ∃ request ∈ history, request.moment = e.arrival := by
  induction history using List.reverseRecOn with
  | nil => exact absurd h List.not_mem_nil
  | append_singleton earlier request ih =>
      rw [after_append] at h
      have hcases : e ∈ ((empty capacity timeToLive).after earlier).entries ∨
          request.moment = e.arrival := by
        cases request with
        | contains now digest => exact .inl h
        | insert now digest =>
            refine (mem_entries_of_insert h).imp_right fun heq => ?_
            exact (congrArg CacheEntry.arrival heq).symm
      rcases hcases with hold | hnew
      · obtain ⟨other, hother, harrival⟩ := ih hold
        exact ⟨other, List.mem_append_left _ hother, harrival⟩
      · exact ⟨request, List.mem_append_right _ (List.mem_singleton_self _), hnew⟩

/-! ## Among fresh entries -/

/-- Where there is room, fresh entries stay. -/
theorem evict_of_room {entries : List CacheEntry} (hfresh : ∀ e ∈ entries, c.isFresh now e = true)
    (hroom : entries.length < c.capacity) : c.evict now entries = entries := by
  cases entries with
  | nil => rfl
  | cons first rest =>
      rw [evict, hfresh first List.mem_cons_self, Bool.true_and]
      exact if_pos (decide_eq_true hroom)

/-- From fresh entries the oldest leaves if there is no room. -/
theorem evict_of_fresh {entries : List CacheEntry} (hfresh : ∀ e ∈ entries, c.isFresh now e = true)
    (hroom : 0 < c.capacity) (hsize : entries.length ≤ c.capacity) :
    c.evict now entries = if entries.length < c.capacity then entries else entries.tail := by
  split
  · next hfree => exact evict_of_room hfresh hfree
  · next hfull =>
      cases entries with
      | nil => exact absurd hroom hfull
      | cons first rest =>
          have hlast : ¬ (c.isFresh now first && decide (rest.length + 1 < c.capacity)) = true :=
            fun h => hfull (of_decide_eq_true (Bool.and_eq_true_iff.mp h).2)
          rw [evict, if_neg hlast]
          exact evict_of_room (fun e he => hfresh e (List.mem_cons_of_mem _ he)) hsize

/-- Among fresh entries a digest is present if it is listed. -/
theorem contains_of_fresh (hfresh : ∀ e ∈ c.entries, c.isFresh now e = true) :
    c.contains now digest = decide (digest ∈ c.digests) := by
  rw [Bool.eq_iff_iff, contains_iff, decide_eq_true_iff, digests, List.mem_map]
  constructor
  · rintro ⟨e, he, hdigest, -⟩
    exact ⟨e, he, hdigest⟩
  · rintro ⟨e, he, hdigest⟩
    exact ⟨e, he, hdigest, hfresh e he⟩

/-- Among fresh entries a cache answers as the list of its digests does. -/
theorem answer_of_fresh {room timeToLive : Nat} (h : c.IsBounded room timeToLive)
    (hroom : 0 < room) {request : CacheRequest}
    (hfresh : ∀ e ∈ c.entries, c.isFresh request.moment e = true) :
    (c.answer request).1 = (request.answerFrom room c.digests).1 ∧
      (c.answer request).2.digests = (request.answerFrom room c.digests).2 := by
  obtain ⟨rfl, rfl, hsize⟩ := h
  cases request with
  | contains now digest => exact ⟨contains_of_fresh hfresh, rfl⟩
  | insert now digest =>
      have hcontains : c.contains now digest = decide (digest ∈ c.digests) :=
        contains_of_fresh hfresh
      show (c.insert now digest).1 = _ ∧ (c.insert now digest).2.digests = _
      by_cases hmem : digest ∈ c.digests
      · rw [insert_of_contains (hcontains.trans (decide_eq_true hmem)), CacheRequest.answerFrom,
          if_pos hmem]
        exact ⟨rfl, rfl⟩
      · rw [insert_of_not_contains (hcontains.trans (decide_eq_false hmem)),
          CacheRequest.answerFrom, if_neg hmem]
        refine ⟨rfl, ?_⟩
        have hothers : (c.evict now c.entries).filter (fun e => e.digest != digest)
            = c.evict now c.entries := by
          refine List.filter_eq_self.mpr fun e he => bne_iff_ne.mpr ?_
          rintro rfl
          exact hmem (List.mem_map_of_mem (mem_of_mem_evict he))
        have hevict : c.evict now c.entries
            = if c.entries.length < c.capacity then c.entries else c.entries.tail :=
          evict_of_fresh hfresh hroom hsize
        show List.map _ (_ ++ [_]) = pushWithin c.capacity c.digests digest
        rw [hothers, hevict, pushWithin, List.map_append, digests, List.length_map, ← List.map_tail]
        split <;> rfl

/-- Where nothing expires, a request finds fresh entries only. -/
theorem isFresh_of_nothingExpires {capacity timeToLive : Nat} {history : List CacheRequest}
    {request : CacheRequest} (h : NothingExpires timeToLive (history ++ [request])) :
    ∀ e ∈ ((empty capacity timeToLive).after history).entries,
      ((empty capacity timeToLive).after history).isFresh request.moment e = true := by
  intro e he
  obtain ⟨earlier, hearlier, harrival⟩ := exists_of_mem_after he
  have hlt : request.moment - earlier.moment < timeToLive :=
    (List.pairwise_append.mp h).2.2 earlier hearlier request (List.mem_singleton_self _)
  rw [harrival] at hlt
  rw [isFresh, (isBounded_after capacity timeToLive history).timeToLive]
  exact decide_eq_true hlt

/-- Where nothing expires, a cache answers as the list of its digests does. -/
theorem answer_after (capacity : Nat) {timeToLive : Nat} {history : List CacheRequest}
    {request : CacheRequest} (h : NothingExpires timeToLive (history ++ [request])) :
    let c := (empty capacity timeToLive).after history
    (c.answer request).1 = (request.answerFrom (max capacity 1) c.digests).1 ∧
      (c.answer request).2.digests = (request.answerFrom (max capacity 1) c.digests).2 :=
  answer_of_fresh (isBounded_after capacity timeToLive history)
    (Nat.lt_of_lt_of_le Nat.one_pos (Nat.le_max_right _ _)) (isFresh_of_nothingExpires h)

/-- Where nothing expires, a cache holds the last digests that it accepted. -/
theorem digests_after (capacity : Nat) {timeToLive : Nat} {history : List CacheRequest}
    (h : NothingExpires timeToLive history) :
    ((empty capacity timeToLive).after history).digests
      = lastOf (max capacity 1) ((empty capacity timeToLive).accepted history) := by
  induction history using List.reverseRecOn with
  | nil => exact List.drop_nil.symm
  | append_singleton earlier request ih =>
      have hdigests := ih (List.pairwise_append.mp h).1
      obtain ⟨hanswer, hnext⟩ := answer_after capacity h
      rw [after_append, accepted_append, hnext]
      cases request with
      | contains now digest =>
          show _ = lastOf _ (_ ++ [])
          rw [List.append_nil, ← hdigests]
          rfl
      | insert now digest =>
          change (DigestCache.insert _ now digest).1 = _ at hanswer
          rw [added, hanswer, CacheRequest.answerFrom]
          split
          · rw [if_neg Bool.false_ne_true, List.append_nil]
            exact hdigests
          · rw [if_pos rfl, hdigests]
            exact pushWithin_lastOf (Nat.lt_of_lt_of_le Nat.one_pos (Nat.le_max_right _ _)) _ _

/-! ## Among stale entries -/

theorem evict_of_stale (hstale : ∀ e, c.isFresh now e = false) (entries : List CacheEntry) :
    c.evict now entries = [] := by
  induction entries with
  | nil => rfl
  | cons first rest ih =>
      rw [evict, hstale, Bool.false_and, if_neg Bool.false_ne_true]
      exact ih

/-- Where everything is stale at once, nothing is present, and a digest that
    is added stands alone. -/
theorem answers_of_stale (h : c.timeToLive = 0) (now : Nat) (digest : Bytes32) :
    c.contains now digest = false ∧ (c.insert now digest).1 = true ∧
      (c.insert now digest).2.size = 1 := by
  have hstale : ∀ e, c.isFresh now e = false := by
    intro e
    rw [isFresh, h]
    exact decide_eq_false (Nat.not_lt_zero _)
  have hcontains : c.contains now digest = false := by
    rw [Bool.eq_false_iff]
    intro hfound
    obtain ⟨e, -, -, hfresh⟩ := contains_iff.mp hfound
    exact Bool.false_ne_true ((hstale e).symm.trans hfresh)
  rw [insert_of_not_contains hcontains, evict_of_stale hstale]
  exact ⟨hcontains, rfl, rfl⟩

/-! ## Behind any requests -/

/-- The two parts stay in step with the list of entries. -/
theorem inStep_after (capacity timeToLive : Nat) (history : List CacheRequest) :
    ((QueuedCache.empty capacity timeToLive).after history).InStep
      ((empty capacity timeToLive).after history) := by
  induction history using List.reverseRecOn with
  | nil => exact .of_empty capacity timeToLive
  | append_singleton earlier request ih =>
      rw [after_append, QueuedCache.after, List.foldl_append]
      cases request with
      | contains now digest => exact ih
      | insert now digest => exact (ih.insert now digest).2

end DigestCache

/-- A cache and its two parts say the same to every request. -/
theorem QueuedCache.InStep.answer_eq {q : QueuedCache} {c : DigestCache} (h : q.InStep c)
    (request : CacheRequest) : (q.answer request).1 = (c.answer request).1 := by
  cases request with
  | insert now digest => exact (h.insert now digest).1
  | contains now digest => exact h.contains_eq now digest

namespace DigestCache

/-- **A cache is a bounded queue of distinct digests**, behind any requests.
    Its queue lists no digest twice, and exactly those with an arrival; there
    are never more than there is room for, and rounds of eviction come to an
    end from whatever state.  Where nothing expires, every request is answered
    as by a list with room for so many, and so the cache holds the last
    digests that it accepted.  With a time to live of zero nothing is ever
    present, and every insertion succeeds and stands alone. -/
theorem cache_is_a_bounded_queue (capacity timeToLive : Nat) (history : List CacheRequest) :
    let room := max capacity 1
    let c := (empty capacity timeToLive).after history
    let q := (QueuedCache.empty capacity timeToLive).after history
    let stale := (empty capacity 0).after history
    (c.digests = q.order ∧ c.size = q.size ∧
      (∀ request, (c.answer request).1 = (q.answer request).1) ∧
      ∀ request, (c.answer request).1 = false → (c.answer request).2 = c) ∧
    (q.order.Nodup ∧ (∀ digest, digest ∈ q.order ↔ (q.arrivals.get? digest).isSome) ∧
      q.size ≤ room ∧
      ∀ now, WellFounded fun next q : QueuedCache => q.round? now = some next) ∧
    (∀ request, NothingExpires timeToLive (history ++ [request]) →
      (c.answer request).1 = (request.answerFrom room c.digests).1 ∧
      (c.answer request).2.digests = (request.answerFrom room c.digests).2) ∧
    (NothingExpires timeToLive history →
      c.digests = lastOf room ((empty capacity timeToLive).accepted history) ∧
      c.size = min room ((empty capacity timeToLive).accepted history).length) ∧
    (∀ now digest, stale.contains now digest = false ∧ (stale.insert now digest).1 = true ∧
      (stale.insert now digest).2.size = 1) := by
  intro room c q stale
  have hstep : q.InStep c := inStep_after capacity timeToLive history
  have hbounded := isBounded_after capacity timeToLive history
  refine ⟨⟨hstep.order.symm, hstep.size_eq.symm, fun request => (hstep.answer_eq request).symm,
      fun request => answer_of_false⟩,
    ⟨?_, fun digest => hstep.mem_order_iff, ?_, QueuedCache.wellFounded_round⟩,
    fun request h => answer_after capacity h, ?_, ?_⟩
  · rw [hstep.order]
    exact hstep.nodup
  · rw [hstep.size_eq]
    exact hbounded.size_le
  · intro h
    have hdigests := digests_after capacity h
    refine ⟨hdigests, ?_⟩
    rw [← length_lastOf, ← hdigests]
    exact (List.length_map _).symm
  · exact answers_of_stale (isBounded_after capacity 0 history).timeToLive

/-- A digest of 32 equal octets. -/
def plainDigest (octet : UInt8) : Bytes32 := ⟨List.replicate 32 octet, rfl⟩

/-- Three digests are put into a cache with room for two, the first of them
    twice. -/
def threeDigests : List CacheRequest :=
  [.insert 0 (plainDigest 1), .insert 1 (plainDigest 2), .insert 2 (plainDigest 1),
    .insert 3 (plainDigest 3)]

/-- The first digest is no longer present, the two others are; without any
    time to live none is. -/
theorem oldest_digest_leaves :
    NothingExpires 10 (threeDigests ++ [.contains 4 (plainDigest 1)]) ∧
    ((empty 2 10).after threeDigests).contains 4 (plainDigest 1) = false ∧
    NothingExpires 10 threeDigests ∧
    ((empty 2 10).after threeDigests).digests = [plainDigest 2, plainDigest 3] ∧
    ((empty 2 0).after threeDigests).contains 4 (plainDigest 3) = false := by
  have hasked : NothingExpires 10 (threeDigests ++ [.contains 4 (plainDigest 1)]) := by decide
  have hshort : NothingExpires 10 threeDigests := by decide
  obtain ⟨-, -, hanswer, hlast, hstale⟩ := cache_is_a_bounded_queue 2 10 threeDigests
  refine ⟨hasked, ?_, hshort, (hlast hshort).1.trans (by decide), (hstale 4 _).1⟩
  exact (hanswer _ hasked).1.trans (by decide)

end DigestCache

end BridgeGuardian
