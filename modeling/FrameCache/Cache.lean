import FrameCache.Cache.Counters
import FrameCache.Instant
import FrameCache.Store

/-!
# Caches

A `Cache` maps keys to values that stay alive for one lifetime after their last use.  An
entry whose deadline has passed is never handed out; it stays resident until it is
removed, replaced or swept, so that whoever takes it can release what its value owns.

Every operation takes the reading of the clock as an argument and returns its result and
the cache after it.  Lookups that hand out a live value renew its deadline; `Cache.peek`
and the other views do not.  `Cache.fetch` and `Cache.fetch?` run their factory on a world
of its own, and only when there is no live value.
-/

namespace FrameCache

/-- A cached value. -/
@[ext]
structure Entry (V : Type) where
  /-- The value. -/
  value : V
  /-- The first instant at which the value is not alive any more. -/
  deadline : Instant
deriving DecidableEq

/-- A map from keys to values with deadlines. -/
structure Cache (K V : Type) where
  /-- The resident entries. -/
  store : Store K (Entry V)
  /-- How long a value stays alive after its last use. -/
  lifetime : Duration
  /-- The running totals. -/
  counters : Counters

namespace Cache

variable {K V W : Type}

/-- The cache without entries. -/
def empty (layout : Layout K) (lifetime : Duration) : Cache K V :=
  ⟨.empty layout, lifetime, {}⟩

/-- The lifetime of values when none is asked for: one minute. -/
def standardLifetime : Duration := .ofSeconds 60

/-! ### Views of all entries -/

/-- The number of resident entries. -/
def size (c : Cache K V) : Nat := c.store.size

/-- The resident keys and values. -/
def toList (c : Cache K V) : List (K × V) := c.store.toList.map fun e => (e.1, e.2.value)

/-- The entries whose deadline has passed at `at'`. -/
def lapsedEntries (c : Cache K V) (at' : Instant) : List (K × V) :=
  (c.store.toList.filter fun e => e.2.deadline ≤ at').map fun e => (e.1, e.2.value)

/-- The keys and values of the `i`-th shard. -/
def snapshot (c : Cache K V) (i : Nat) : List (K × V) :=
  (c.store.shard i).entries.map fun e => (e.1, e.2.value)

/-- The totals and the number of entries. -/
def metrics (c : Cache K V) : Metrics := ⟨c.counters, .ofNat c.size⟩

/-! ### Removing many entries -/

/-- Removes the entries whose deadline has passed at `at'` and hands them over. -/
def takeLapsed (c : Cache K V) (at' : Instant) : List (K × V) × Cache K V :=
  let expired := c.lapsedEntries at'
  (expired,
    { c with
      store := c.store.filter fun _ e => !(e.deadline ≤ at')
      counters := c.counters.departed .expired expired.length })

/-- Removes all entries and hands them over. -/
def clear (c : Cache K V) : List (K × V) × Cache K V :=
  (c.toList,
    { c with
      store := .empty c.store.layout
      counters := c.counters.departed .cleared c.toList.length })

/-! ### Visiting entries -/

/-- Visits entries in order until the visitor says to stop, and tells whether it never
did. -/
def visitEntries (visit : K → V → W → Bool × W) : List (K × V) → W → Bool × W
  | [], w => (true, w)
  | (k, v) :: es, w =>
    match visit k v w with
    | (true, w) => visitEntries visit es w
    | (false, w) => (false, w)

/-- Visits the listed shards in order until the visitor says to stop.  A shard is copied
before its entries are visited. -/
def visitShards (view : W → Cache K V) (visit : K → V → W → Bool × W) :
    List Nat → W → Bool × W
  | [], w => (true, w)
  | i :: is, w =>
    match visitEntries visit ((view w).snapshot i) w with
    | (true, w) => visitShards view visit is w
    | (false, w) => (false, w)

/-- Visits the resident entries of the cache that is part of a world, until the visitor
says to stop.  The visitor may change the whole world, the cache included. -/
def visitAll (view : W → Cache K V) (visit : K → V → W → Bool × W) (w : W) : W :=
  (visitShards view visit (List.range (view w).store.layout.count) w).2

/-! ### Views of one key -/

variable [DecidableEq K]

/-- The value of `k`, alive or not. -/
def resident (c : Cache K V) (k : K) : Option V := (c.store.find? k).map Entry.value

/-- The key `k` has a value, alive or not. -/
def contains (c : Cache K V) (k : K) : Bool := (c.store.find? k).isSome

/-- The deadline of `k`. -/
def deadlineOf (c : Cache K V) (k : K) : Option Instant :=
  (c.store.find? k).map Entry.deadline

/-- The value of `k` if it is alive. -/
def peek (c : Cache K V) (k : K) (now : Instant) : Option V :=
  ((c.store.find? k).filter fun e => now < e.deadline).map Entry.value

/-- The value of `k` if its deadline has passed. -/
def lapsed (c : Cache K V) (k : K) (now : Instant) : Option V :=
  ((c.store.find? k).filter fun e => e.deadline ≤ now).map Entry.value

/-! ### Using and storing one value -/

/-- Stores `v` for `k`, alive for one lifetime. -/
def place (c : Cache K V) (k : K) (now : Instant) (v : V) : Cache K V :=
  { c with store := c.store.insert k ⟨v, now.after c.lifetime⟩ }

/-- Gives the value of `k`, alive or not, one more lifetime. -/
def renew (c : Cache K V) (k : K) (now : Instant) : Cache K V :=
  match c.resident k with
  | some v => c.place k now v
  | none => c

/-- Renews the value of `k`, alive or not, and tells whether there is one. -/
def touch (c : Cache K V) (k : K) (now : Instant) : Bool × Cache K V :=
  (c.contains k, c.renew k now)

/-- The cache after one more lookup that found a live value. -/
def countHit (c : Cache K V) : Cache K V := { c with counters := c.counters.hit }

/-- The cache after one more lookup that found no live value. -/
def countMiss (c : Cache K V) : Cache K V := { c with counters := c.counters.miss }

/-- The cache after the departure, for `cause`, of the value `v` if there is one. -/
def countDeparture (c : Cache K V) (cause : Cause) (v : Option V) : Cache K V :=
  match v with
  | some _ => { c with counters := c.counters.departed cause 1 }
  | none => c

/-- Looks up the live value of `k` and renews it. -/
def get (c : Cache K V) (k : K) (now : Instant) : Option V × Cache K V :=
  match c.peek k now with
  | some v => (some v, (c.renew k now).countHit)
  | none => (none, c.countMiss)

/-- Stores a value made for `k` after a lookup that missed.  A value whose deadline has
passed departs. -/
def create (c : Cache K V) (k : K) (now : Instant) (v : V) : Cache K V :=
  (c.place k now v).countMiss.countDeparture .expired (c.resident k)

/-- Looks up the live value of `k` and renews it, or makes one and stores it. -/
def fetch (c : Cache K V) (k : K) (now : Instant) (make : W → V × W) (w : W) :
    V × Cache K V × W :=
  match c.peek k now with
  | some v => (v, (c.renew k now).countHit, w)
  | none =>
    let (v, w) := make w
    (v, c.create k now v, w)

/-- Looks up the live value of `k` and renews it, or tries to make one and stores it.
When none is made, only the miss is counted. -/
def fetch? (c : Cache K V) (k : K) (now : Instant) (make : W → Option V × W) (w : W) :
    Option V × Cache K V × W :=
  match c.peek k now with
  | some v => (some v, (c.renew k now).countHit, w)
  | none =>
    match make w with
    | (some v, w) => (some v, c.create k now v, w)
    | (none, w) => (none, c.countMiss, w)

/-- Stores `v` for `k` and hands over the value it replaces, alive or not. -/
def insert (c : Cache K V) (k : K) (now : Instant) (v : V) : Option V × Cache K V :=
  (c.resident k, (c.place k now v).countDeparture .replaced (c.resident k))

/-! ### Removing one entry -/

/-- Removes the entry of `k` if it satisfies `accept`, and hands over its value. -/
def takeIf (c : Cache K V) (k : K) (cause : Cause) (accept : Entry V → Bool) :
    Option V × Cache K V :=
  match (c.store.find? k).filter accept with
  | some e => (some e.value, { c with
      store := c.store.erase k
      counters := c.counters.departed cause 1 })
  | none => (none, c)

/-- Removes `k` and hands over its value. -/
def remove (c : Cache K V) (k : K) : Option V × Cache K V :=
  c.takeIf k .explicit fun _ => true

/-- Removes `k` if its value satisfies `accept`, and hands it over. -/
def removeIf (c : Cache K V) (k : K) (accept : V → Bool) : Option V × Cache K V :=
  c.takeIf k .explicit fun e => accept e.value

/-- Removes `k` if its deadline has passed at `at'`, and hands over its value. -/
def removeLapsed (c : Cache K V) (k : K) (at' : Instant) : Option V × Cache K V :=
  c.takeIf k .expired fun e => e.deadline ≤ at'

end Cache

end FrameCache
