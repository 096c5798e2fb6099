import FrameCache.Cache.Program
import FrameCache.Store.Spread

/-!
# Replaying the uses of a cache

A `CacheReplay` is a cache from texts to numbers together with a hand-moved clock and a
listener; the cache reads this clock or one that runs by itself.  `CacheReplay.play` takes
one `CacheStep` and gives its `CacheAnswer` with the departures it caused.  The order in
which a cache lists its entries carries no meaning, so answers list them by key, and so are
the departures of steps that concern all entries.
-/

namespace FrameCache

/-- How the listener of a replay answers a departure. -/
inductive ListenerKind where
  /-- Nothing listens. -/
  | absent
  /-- Departures are recorded. -/
  | recording
  /-- Departures are recorded, and unless a value was replaced it is stored again, a
  hundred higher. -/
  | reinserting
deriving DecidableEq

/-- The condition of a conditional removal. -/
inductive ValueTest where
  | equal (v : Int64)
  | less (v : Int64)

/-- What the visitor of a replay does with each entry. -/
inductive VisitMode where
  /-- It lists the entry. -/
  | list
  /-- It counts the entry. -/
  | count
  /-- It lists the entry and removes even values. -/
  | removeEven
  /-- It lists the entry and empties the cache. -/
  | clear
  /-- It lists the entry and stores its value under a longer key. -/
  | insert
deriving DecidableEq

/-- One use of the cache.  The `cost` of a factory is the time it takes. -/
inductive CacheStep where
  | advance (d : Duration)
  | set (d : Duration)
  | get (k : String)
  | peek (k : String)
  | resident (k : String)
  | remove (k : String)
  | insert (k : String) (v : Int64)
  | fetch (k : String) (v : Int64) (cost : Duration)
  | fetch? (k : String) (v : Option Int64) (cost : Duration)
  | touch (k : String)
  | contains (k : String)
  | deadlineOf (k : String)
  | removeIf (k : String) (test : ValueTest)
  | removeLapsed (k : String) (at' : Option Instant)
  | sweep (at' : Option Instant)
  | lapsedEntries (at' : Option Instant)
  | clear
  | size
  | lifetime
  | metrics
  | visitAll (mode : VisitMode) (limit : Option Nat)

/-- The answer to a use of the cache. -/
inductive CacheAnswer where
  | nothing
  | instant (t : Option Instant)
  | value (v : Option Int64)
  /-- A value, and whether the callback was called. -/
  | called (v : Option Int64) (callback : Bool)
  | flag (b : Bool)
  | pairs (es : List (String × Int64))
  | count (n : Nat)
  /-- The number of entries, and whether there are none. -/
  | size (n : Nat) (isEmpty : Bool)
  | lifetime (d : Duration)
  | metrics (m : Metrics)

/-- What one step showed. -/
structure CacheEffect where
  /-- The answer. -/
  answer : CacheAnswer
  /-- The departures that the listener recorded. -/
  departures : List (Departure String Int64)
  /-- The number of entries after the step. -/
  size : Nat

/-- Entries in the order of their keys, and of their values for one key. -/
def sortPairs (es : List (String × Int64)) : List (String × Int64) :=
  es.mergeSort fun d e => d.1 < e.1 || d.1 = e.1 && d.2 ≤ e.2

/-- Departures in the order of their keys, otherwise as they came. -/
def sortDepartures (ds : List (Departure String Int64)) : List (Departure String Int64) :=
  ds.mergeSort fun d e => d.key ≤ e.key

/-- A test accepts a value. -/
def ValueTest.accepts : ValueTest → Int64 → Bool
  | .equal v, x => x = v
  | .less v, x => x < v

/-- A cache with its clock and its listener. -/
structure CacheReplay where
  /-- The cache with the departures reported during the current step. -/
  heard : Heard String Int64
  /-- The clock that steps move. -/
  clock : Clock
  /-- The clock that the cache reads instead, running by itself. -/
  running : Option Clock
  /-- The listener. -/
  listener : ListenerKind

namespace CacheReplay

/-- A replay of a cache with the given shards and lifetime. -/
def start (layout : Layout String) (lifetime : Duration) (running : Option Clock)
    (listener : ListenerKind) : CacheReplay :=
  ⟨⟨.empty layout lifetime, []⟩, .start, running, listener⟩

/-- The cache. -/
def cache (r : CacheReplay) : Cache String Int64 := r.heard.cache

/-- The instant that the cache reads. -/
def now (r : CacheReplay) : Instant := (r.running.getD r.clock).now

/-- The instant that a step names, or else the reading of the clock that steps move. -/
def named (r : CacheReplay) (at' : Option Instant) : Instant := at'.getD r.clock.now

/-- The listener at the current instant. -/
def listen (r : CacheReplay) : Listener String Int64
  | d :: _ =>
    if r.listener = .reinserting ∧ d.cause ≠ .replaced then
      .call r.now (.insert d.key (d.value + 100)) fun _ => .done ()
    else .done ()
  | [] => .done ()

/-- The greatest depth of nested answers: a value that is stored again replaces at most
one other, and that is not answered. -/
def depth : Nat := 2

/-- Performs an operation that was given the instant `now`, and reports its departures at
the current one. -/
def performAt (r : CacheReplay) (now : Instant) (op : Op String Int64) :
    Reply String Int64 × CacheReplay :=
  match (Program.perform now op).runWith r.listen depth r.heard with
  | some (reply, heard) => (reply, { r with heard })
  | none => (.done, r)

/-- Performs an operation at the current instant. -/
def perform (r : CacheReplay) (op : Op String Int64) : Reply String Int64 × CacheReplay :=
  r.performAt r.now op

/-- Performs an operation that replies with a value. -/
def value (r : CacheReplay) (op : Op String Int64) : Option Int64 × CacheReplay :=
  match r.perform op with
  | (.value v, r) => (v, r)
  | (_, r) => (none, r)

/-- Looks up a value, or makes one with a factory that takes the time `cost`, and tells
whether the factory was called. -/
def upsert (r : CacheReplay) (k : String) (answer : Option Int64) (cost : Duration) :
    CacheAnswer × CacheReplay :=
  let now := r.now
  let made := (r.cache.peek k now).isNone
  let r := if made then { r with clock := r.clock.advance cost } else r
  match r.performAt now (.upsert k answer) with
  | (.value v, r) => (.called v made, r)
  | (_, r) => (.called none made, r)

/-- Visits an entry: the number of visits and the entries so far are part of the world. -/
def visit (mode : VisitMode) (limit : Option Nat) (k : String) (v : Int64)
    (w : List (String × Int64) × CacheReplay) : Bool × List (String × Int64) × CacheReplay :=
  let (visited, r) := w
  let visited := (k, v) :: visited
  let r := match mode with
    | .list | .count => r
    | .removeEven => if v % 2 = 0 then (r.perform (.remove k)).2 else r
    | .clear => (r.perform .clear).2
    | .insert => (r.perform (.insert (k ++ "'") v)).2
  (limit.all fun n => visited.length < n, visited, r)

/-- The answer to a step, and the replay after it. -/
def answer (r : CacheReplay) : CacheStep → CacheAnswer × CacheReplay
  | .advance d =>
    let r := { r with clock := r.clock.advance d }
    (.instant (some r.clock.now), r)
  | .set d =>
    let r := { r with clock := r.clock.set d }
    (.instant (some r.clock.now), r)
  | .get k => let (v, r) := r.value (.get k); (.value v, r)
  | .peek k => (.value (r.cache.peek k r.now), r)
  | .resident k => (.value (r.cache.resident k), r)
  | .remove k => let (v, r) := r.value (.remove k); (.value v, r)
  | .insert k v => (.nothing, (r.perform (.insert k v)).2)
  | .fetch k v cost => r.upsert k (some v) cost
  | .fetch? k v cost => r.upsert k v cost
  | .touch k =>
    match r.perform (.touch k) with
    | (.found flag, r) => (.flag flag, r)
    | (_, r) => (.nothing, r)
  | .contains k => (.flag (r.cache.contains k), r)
  | .deadlineOf k => (.instant (r.cache.deadlineOf k), r)
  | .removeIf k test =>
    let called := r.cache.contains k
    let (v, r) := r.value (.removeIf k test.accepts)
    (.called v called, r)
  | .removeLapsed k at' =>
    let (v, r) := r.value (.removeLapsed k (r.named at'))
    (.value v, r)
  | .sweep at' =>
    match r.perform (.takeLapsed (r.named at')) with
    | (.entries es, r) => (.pairs (sortPairs es), r)
    | (_, r) => (.nothing, r)
  | .lapsedEntries at' => (.pairs (sortPairs (r.cache.lapsedEntries (r.named at'))), r)
  | .clear => (.nothing, (r.perform .clear).2)
  | .size => (.size r.cache.size (r.cache.size = 0), r)
  | .lifetime => (.lifetime r.cache.lifetime, r)
  | .metrics => (.metrics r.cache.metrics, r)
  | .visitAll mode limit =>
    let (visited, r) := Cache.visitAll (fun w => w.2.cache) (visit mode limit) ([], r)
    (if mode = .count then .count visited.length else .pairs (sortPairs visited), r)

/-- The order of the departures of a step carries no meaning, for the step concerns all
entries. -/
def unordered : CacheStep → Bool
  | .sweep _ | .clear | .visitAll _ _ => true
  | _ => false

/-- Plays one step. -/
def play (r : CacheReplay) (step : CacheStep) : CacheEffect × CacheReplay :=
  let r := { r with heard := { r.heard with reports := [] }, running := r.running.map .next }
  let (answer, r) := r.answer step
  let reports := if r.listener = .absent then [] else r.heard.reports.reverse
  let departures := if unordered step then sortDepartures reports else reports
  (⟨answer, departures, r.cache.size⟩, r)

/-- Plays steps one after the other. -/
def playAll : List CacheStep → CacheReplay → List CacheEffect × CacheReplay
  | [], r => ([], r)
  | step :: steps, r =>
    let (effect, r) := r.play step
    let (effects, r) := playAll steps r
    (effect :: effects, r)

end CacheReplay

end FrameCache
