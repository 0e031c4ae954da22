import BridgeGuardian.Bytes

/-! # Digest cache — which messages were stored a short while ago

    A bounded memory of digests in the order of their arrival.  An entry is
    fresh while less than the time to live has passed since it arrived;
    stale entries count as absent and leave when something is inserted.
    When the cache is full, the oldest entry makes room. -/

namespace BridgeGuardian

/-- A digest and the moment it arrived. -/
structure CacheEntry where
  digest : Bytes32
  arrival : Nat
deriving DecidableEq, Repr

/-- A bounded memory of digests, the oldest first. -/
structure DigestCache where
  capacity : Nat
  timeToLive : Nat
  entries : List CacheEntry
deriving DecidableEq, Repr

namespace DigestCache

/-- A cache without entries; it has room for at least one. -/
def empty (capacity timeToLive : Nat) : DigestCache := ⟨max capacity 1, timeToLive, []⟩

/-- The number of entries, stale ones included. -/
def size (c : DigestCache) : Nat := c.entries.length

/-- Whether an entry still counts. -/
def isFresh (c : DigestCache) (now : Nat) (e : CacheEntry) : Bool := now - e.arrival < c.timeToLive

/-- Whether a digest is present and fresh. -/
def contains (c : DigestCache) (now : Nat) (digest : Bytes32) : Bool :=
  c.entries.any fun e => e.digest == digest && c.isFresh now e

/-- Drop entries from the front: stale ones, and fresh ones while there is
    no room. -/
def evict (c : DigestCache) (now : Nat) : List CacheEntry → List CacheEntry
  | [] => []
  | e :: rest =>
      if c.isFresh now e && rest.length + 1 < c.capacity then e :: rest else evict c now rest

/-- Add a digest; `false` when it is already present and fresh.  A stale
    entry of the same digest does not survive. -/
def insert (c : DigestCache) (now : Nat) (digest : Bytes32) : Bool × DigestCache :=
  if c.contains now digest then (false, c)
  else
    let kept := (c.evict now c.entries).filter fun e => e.digest != digest
    (true, { c with entries := kept ++ [⟨digest, now⟩] })

end DigestCache

end BridgeGuardian
