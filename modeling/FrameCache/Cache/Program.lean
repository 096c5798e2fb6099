import FrameCache.Cache

/-!
# Programs and listeners

A `UseOf` is a single use of a cache, and `Cache.performBy` carries it out and lists the
entries that left, in the order in which they are reported.  An `Op` is a use that may look
at all of the cache.  A `Program` is a client of a cache: it performs operations one after
the other, each chosen from the replies to the ones before.

A `Listener` answers the report of a departure with a program, which may use the same
cache and so cause further departures.  `Listener.notify` reports departures one by one,
each after the store has changed, and runs the answers; it gives up when answers are
nested deeper than a given depth.
-/

namespace FrameCache

/-- The reply to a use. -/
inductive Reply (K V : Type) where
  | done
  | found (flag : Bool)
  | value (v : Option V)
  | deadline (d : Option Instant)
  | count (n : Nat)
  | entries (es : List (K × V))
  | metrics (m : Metrics)

/-- A use of a cache.  All views of a cache, which are of the type `L`, are uses of one sort,
`look`.  The factory of `upsert` has already been asked: it answered with a value or
declined. -/
inductive UseOf (L K V : Type) where
  | look (view : L)
  | get (k : K)
  | upsert (k : K) (answer : Option V)
  | insert (k : K) (v : V)
  | touch (k : K)
  | remove (k : K)
  | removeIf (k : K) (accept : V → Bool)
  | removeLapsed (k : K) (at' : Instant)
  | takeLapsed (at' : Instant)
  | clear

/-- A use that may look at all of the cache. -/
abbrev Op (K V : Type) := UseOf (Cache K V → Reply K V) K V

variable {K V α : Type}

/-- The departures of some values of `k`. -/
def Departure.ofOption (k : K) (cause : Cause) (v : Option V) : List (Departure K V) :=
  v.toList.map fun v => ⟨k, v, cause⟩

/-- The departures of entries. -/
def Departure.ofEntries (cause : Cause) (es : List (K × V)) : List (Departure K V) :=
  es.map fun e => ⟨e.1, e.2, cause⟩

/-- Carries out a use at `now`: the reply, the departures, and the cache after it.  What a
look sees is told by `see`. -/
def Cache.performBy [DecidableEq K] {L : Type} (c : Cache K V) (see : L → Reply K V)
    (now : Instant) : UseOf L K V → Reply K V × List (Departure K V) × Cache K V
  | .look view => (see view, [], c)
  | .get k => let (v, c) := c.get k now; (.value v, [], c)
  | .upsert k answer =>
    let old := answer.bind fun _ => c.lapsed k now
    let (v, c, _) := c.fetch? k now (fun _ => (answer, ())) ()
    (.value v, Departure.ofOption k .expired old, c)
  | .insert k v =>
    let (old, c) := c.insert k now v
    (.done, Departure.ofOption k .replaced old, c)
  | .touch k => let (flag, c) := c.touch k now; (.found flag, [], c)
  | .remove k => let (v, c) := c.remove k; (.value v, Departure.ofOption k .explicit v, c)
  | .removeIf k accept =>
    let (v, c) := c.removeIf k accept
    (.value v, Departure.ofOption k .explicit v, c)
  | .removeLapsed k at' =>
    let (v, c) := c.removeLapsed k at'
    (.value v, Departure.ofOption k .expired v, c)
  | .takeLapsed at' =>
    let (es, c) := c.takeLapsed at'
    (.entries es, Departure.ofEntries .expired es, c)
  | .clear => let (es, c) := c.clear; (.done, Departure.ofEntries .cleared es, c)

/-- Carries out an operation at `now`. -/
def Cache.perform [DecidableEq K] (c : Cache K V) (now : Instant) (op : Op K V) :
    Reply K V × List (Departure K V) × Cache K V :=
  c.performBy (fun view => view c) now op

/-- A client of a cache. -/
inductive Program (K V α : Type) where
  /-- The client has finished. -/
  | done (a : α)
  /-- The client performs an operation at `now` and goes on with the reply. -/
  | call (now : Instant) (op : Op K V) (next : Reply K V → Program K V α)

/-- The program that performs a single operation. -/
def Program.perform (now : Instant) (op : Op K V) : Program K V (Reply K V) :=
  .call now op .done

/-- A cache with the departures reported so far, the latest first. -/
structure Heard (K V : Type) where
  /-- The cache. -/
  cache : Cache K V
  /-- The reports. -/
  reports : List (Departure K V)

/-- What a client hears of the departures, and how it answers each: with a program, chosen
from the reports up to and including the current one. -/
abbrev Listener (K V : Type) := List (Departure K V) → Program K V Unit

/-- Runs a program, handing the departures of each operation to `report`. -/
def Program.run [DecidableEq K]
    (report : List (Departure K V) → Heard K V → Option (Heard K V)) :
    Program K V α → Heard K V → Option (α × Heard K V)
  | .done a, h => some (a, h)
  | .call now op next, h =>
    let (reply, departures, cache) := h.cache.perform now op
    (report departures { h with cache }).bind fun h => (next reply).run report h

/-- Reports departures to a listener and runs its answers, nested at most `depth` deep. -/
def Listener.notify [DecidableEq K] (listener : Listener K V) :
    (depth : Nat) → List (Departure K V) → Heard K V → Option (Heard K V)
  | 0, departures, h => if departures.isEmpty then some h else none
  | depth + 1, departures, h =>
    departures.foldlM (fun h d =>
      let h := { h with reports := d :: h.reports }
      ((listener h.reports).run (Listener.notify listener depth) h).map Prod.snd) h

/-- Runs a program on a cache with a listener whose answers are nested at most `depth`
deep. -/
def Program.runWith [DecidableEq K] (p : Program K V α) (listener : Listener K V) (depth : Nat)
    (h : Heard K V) : Option (α × Heard K V) :=
  p.run (listener.notify depth) h

end FrameCache
