import BridgeGuardian.DigestCache
import Mathlib.Data.List.Nodup

/-! # The digest cache in proofs — what an insertion keeps

    Eviction drops entries from the front until a fresh one has room, so what
    is kept is a suffix of what was there and leaves room for one more.  An
    insertion therefore keeps the digests distinct and their number within
    the capacity, and only the new digest comes in addition. -/

namespace BridgeGuardian.DigestCache

variable {c : DigestCache} {now : Nat} {digest : Bytes32} {entries : List CacheEntry}

/-- What is present and fresh has an entry that is. -/
theorem contains_iff :
    c.contains now digest = true ↔ ∃ e ∈ c.entries, e.digest = digest ∧ c.isFresh now e = true := by
  rw [contains, List.any_eq_true]
  simp only [Bool.and_eq_true, beq_iff_eq]

/-- What is present has an entry. -/
theorem exists_mem_of_contains (h : c.contains now digest = true) :
    ∃ e ∈ c.entries, e.digest = digest := by
  obtain ⟨e, he, hdigest, -⟩ := contains_iff.mp h
  exact ⟨e, he, hdigest⟩

/-! ## Eviction -/

/-- Eviction drops entries from the front. -/
theorem evict_suffix (c : DigestCache) (now : Nat) (entries : List CacheEntry) :
    c.evict now entries <:+ entries := by
  induction entries with
  | nil => exact List.suffix_rfl
  | cons first rest ih =>
      rw [evict]
      split
      · exact List.suffix_rfl
      · exact ih.trans (List.suffix_cons first rest)

theorem mem_of_mem_evict {e : CacheEntry} (h : e ∈ c.evict now entries) : e ∈ entries :=
  (evict_suffix c now entries).subset h

/-- Eviction makes room for one more. -/
theorem length_evict_lt (hroom : 0 < c.capacity) (now : Nat) (entries : List CacheEntry) :
    (c.evict now entries).length < c.capacity := by
  induction entries with
  | nil => exact hroom
  | cons first rest ih =>
      rw [evict]
      split
      · next h => exact of_decide_eq_true (Bool.and_eq_true_iff.mp h).2
      · exact ih

/-- Eviction looks at the capacity and the time to live only. -/
theorem evict_with (c : DigestCache) (now : Nat) (entries others : List CacheEntry) :
    ({ c with entries := others } : DigestCache).evict now entries = c.evict now entries := by
  induction entries with
  | nil => rfl
  | cons first rest ih =>
      rw [evict, evict, ih]
      rfl

/-! ## Insertion -/

theorem insert_of_contains (h : c.contains now digest = true) :
    c.insert now digest = (false, c) := by
  rw [insert, if_pos h]

theorem insert_of_not_contains (h : c.contains now digest = false) :
    c.insert now digest
      = (true, { c with entries := ((c.evict now c.entries).filter fun e => e.digest != digest)
          ++ [⟨digest, now⟩] }) := by
  rw [insert, h, if_neg Bool.false_ne_true]

/-- Only the new entry comes in addition. -/
theorem mem_entries_of_insert {e : CacheEntry} (h : e ∈ (c.insert now digest).2.entries) :
    e ∈ c.entries ∨ e = ⟨digest, now⟩ := by
  unfold insert at h
  split at h
  · exact .inl h
  · rcases List.mem_append.mp h with h | h
    · exact .inl (mem_of_mem_evict (List.mem_filter.mp h).1)
    · exact .inr (List.mem_singleton.mp h)

/-- Only the new digest comes in addition. -/
theorem mem_or_eq_of_mem_insert {e : CacheEntry} (h : e ∈ (c.insert now digest).2.entries) :
    e ∈ c.entries ∨ e.digest = digest :=
  (mem_entries_of_insert h).imp_right fun heq => congrArg CacheEntry.digest heq

/-- A digest that is added is present until its time to live is over. -/
theorem contains_insert {later : Nat} (hnew : c.contains now digest = false)
    (hfresh : later - now < c.timeToLive) :
    (c.insert now digest).2.contains later digest = true := by
  rw [insert_of_not_contains hnew]
  exact contains_iff.mpr ⟨⟨digest, now⟩, List.mem_append_right _ (List.mem_singleton_self _), rfl,
    decide_eq_true hfresh⟩

/-! ## Distinct digests within the capacity -/

/-- The digests, in the order of their arrival. -/
def digests (c : DigestCache) : List Bytes32 := c.entries.map CacheEntry.digest

/-- An insertion keeps digests distinct. -/
theorem nodup_insert (h : c.digests.Nodup) (now : Nat) (digest : Bytes32) :
    (c.insert now digest).2.digests.Nodup := by
  cases hseen : c.contains now digest with
  | true =>
      rw [insert_of_contains hseen]
      exact h
  | false =>
      rw [insert_of_not_contains hseen, digests, List.map_append, List.map_singleton]
      have hsub : ((c.evict now c.entries).filter fun e => e.digest != digest).Sublist c.entries :=
        List.filter_sublist.trans (evict_suffix c now c.entries).sublist
      refine List.nodup_append.mpr ⟨h.sublist (hsub.map _), List.nodup_singleton _, ?_⟩
      rintro d hd _ hnew rfl
      obtain ⟨e, he, rfl⟩ := List.mem_map.mp hd
      exact bne_iff_ne.mp (List.mem_filter.mp he).2 (List.mem_singleton.mp hnew)

/-- An insertion never leaves more than there is room for. -/
theorem size_insert_le (hroom : 0 < c.capacity) (h : c.size ≤ c.capacity) (now : Nat)
    (digest : Bytes32) : (c.insert now digest).2.size ≤ c.capacity := by
  cases hseen : c.contains now digest with
  | true =>
      rw [insert_of_contains hseen]
      exact h
  | false =>
      rw [insert_of_not_contains hseen, size, List.length_append, List.length_singleton]
      exact Nat.lt_of_le_of_lt (List.length_filter_le _ _) (length_evict_lt hroom now _)

end BridgeGuardian.DigestCache
