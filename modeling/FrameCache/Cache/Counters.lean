import FrameCache.Cache.Departure

/-!
# Cache statistics

`Counters` are the running totals of a cache: lookups are split into hits and misses,
departures are split by cause.  `Metrics` are the counters together with the number of
resident entries.  All totals are words of 64 bits and wrap around.
-/

namespace FrameCache

/-- The running totals of a cache. -/
@[ext]
structure Counters where
  /-- Lookups that found a live entry. -/
  hits : UInt64 := 0
  /-- Lookups that found no live entry. -/
  misses : UInt64 := 0
  /-- Entries that left because their deadline had passed. -/
  expired : UInt64 := 0
  /-- Entries that left because they were removed or cleared. -/
  removed : UInt64 := 0
  /-- Entries that left because they were replaced. -/
  replaced : UInt64 := 0
deriving DecidableEq

namespace Counters

/-- The totals after a hit. -/
def hit (c : Counters) : Counters := { c with hits := c.hits + 1 }

/-- The totals after a miss. -/
def miss (c : Counters) : Counters := { c with misses := c.misses + 1 }

/-- The totals after `n` entries left for `cause`. -/
def departed (c : Counters) (cause : Cause) (n : Nat) : Counters :=
  match cause with
  | .expired => { c with expired := c.expired + .ofNat n }
  | .explicit | .cleared => { c with removed := c.removed + .ofNat n }
  | .replaced => { c with replaced := c.replaced + .ofNat n }

end Counters

/-- The totals of a cache and the number of its entries at one moment. -/
@[ext]
structure Metrics extends Counters where
  /-- The resident entries, expired ones included. -/
  entries : UInt64 := 0
deriving DecidableEq

namespace Metrics

/-- The number of lookups. -/
def lookups (m : Metrics) : UInt64 := m.hits + m.misses

/-- The share of lookups that hit, or zero when there were none. -/
def hitRate (m : Metrics) : Float :=
  if m.lookups = 0 then 0 else m.hits.toFloat / m.lookups.toFloat

/-- The sums of two caches. -/
def merge (m n : Metrics) : Metrics where
  hits := m.hits + n.hits
  misses := m.misses + n.misses
  expired := m.expired + n.expired
  removed := m.removed + n.removed
  replaced := m.replaced + n.replaced
  entries := m.entries + n.entries

end Metrics

end FrameCache
