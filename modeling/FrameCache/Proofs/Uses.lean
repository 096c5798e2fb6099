import FrameCache.Proofs.Departures
import FrameCache.Proofs.Visitors

/-!
# Uses of a cache

A `Use` is any single use of a cache: a look, which is a `View` and changes nothing, or a change of
its entries.  `Cache.serve` serves a use at a reading of the clock, and `Served` is what is seen of
it: the answer, and the departures that are reported.

What a use does to the entry of a key is told by three questions: `Cache.storedBy` is the value
that it stores, `Cache.takenBy` and `Cache.renewedBy` say whether it takes the entry away or
renews it.  By `Cache.find?_serve` nothing else happens to an entry.
-/

namespace FrameCache

/-- A look at a cache, which changes nothing. -/
inductive View (K : Type) where
  | peek (k : K)
  | resident (k : K)
  | contains (k : K)
  | deadlineOf (k : K)
  | lapsedEntries (at' : Instant)
  /-- A visitor that changes nothing and never stops visits all entries. -/
  | visitAll
  | size
  | isEmpty
  | metrics

/-- A use of a cache whose looks are views. -/
abbrev Use (K V : Type) := UseOf (View K) K V

/-- What is seen of a use. -/
structure Served (K V : Type) where
  /-- The use. -/
  use : Use K V
  /-- The answer. -/
  answer : Reply K V
  /-- The departures, in the order in which they are reported. -/
  departures : List (Departure K V)

namespace Cache

variable {K V W : Type} [DecidableEq K]

/-- The answer to a look at a cache. -/
def view (c : Cache K V) (now : Instant) : View K → Reply K V
  | .peek k => .value (c.peek k now)
  | .resident k => .value (c.resident k)
  | .contains k => .found (c.contains k)
  | .deadlineOf k => .deadline (c.deadlineOf k)
  | .lapsedEntries at' => .entries (c.lapsedEntries at')
  | .visitAll => .entries (visitAll (fun _ => c) (fun k v seen => (true, seen ++ [(k, v)])) [])
  | .size => .count c.size
  | .isEmpty => .found (c.store.shards.all fun t => t.entries.isEmpty)
  | .metrics => .metrics c.metrics

/-- Serves a use.  The reading of the clock is the one at its beginning, before a factory is
asked. -/
def serve (c : Cache K V) (now : Instant) (u : Use K V) : Served K V × Cache K V :=
  let (answer, departures, c') := c.performBy (c.view now) now u
  (⟨u, answer, departures⟩, c')

/-- Serves uses one after the other, each at a reading of the clock of its own. -/
def serveAll (c : Cache K V) : List (Instant × Use K V) → List (Served K V) × Cache K V
  | [] => ([], c)
  | (now, u) :: us =>
    let (served, c) := c.serve now u
    let (rest, c) := c.serveAll us
    (served :: rest, c)

/-! ### What a use does to an entry -/

/-- The value that a use stores for `k`. -/
def storedBy (c : Cache K V) (now : Instant) (u : Use K V) (k : K) : Option V :=
  match u with
  | .insert k' v => if k = k' then some v else none
  | .upsert k' answer => if k = k' ∧ c.peek k now = none then answer else none
  | _ => none

/-- A use takes the entry of `k` away. -/
def takenBy (c : Cache K V) (u : Use K V) (k : K) : Bool :=
  match u with
  | .remove k' => k = k'
  | .removeIf k' accept => k = k' && (c.resident k).any accept
  | .removeLapsed k' at' => k = k' && (c.deadlineOf k).any (· ≤ at')
  | .takeLapsed at' => (c.deadlineOf k).any (· ≤ at')
  | .clear => true
  | _ => false

/-- A use renews the entry that `k` has. -/
def renewedBy (c : Cache K V) (now : Instant) (u : Use K V) (k : K) : Bool :=
  match u with
  | .get k' | .upsert k' _ => k = k' && (c.peek k now).isSome
  | .touch k' => k = k'
  | _ => false

/-- The entry of `k` after a use. -/
def entryAfter (c : Cache K V) (now : Instant) (u : Use K V) (k : K) : Option (Entry V) :=
  match c.storedBy now u k with
  | some v => some ⟨v, now.after c.lifetime⟩
  | none =>
    if c.takenBy u k then none
    else if c.renewedBy now u k then (c.store.find? k).map (·.postpone (now.after c.lifetime))
    else c.store.find? k

omit [DecidableEq K] in
/-- What is not kept is taken. -/
theorem filter_not (e : Option (Entry V)) (accept : Entry V → Bool) :
  (e.filter fun e => !accept e) = if e.any accept then none else e
  := by
  cases e with
  | none => rfl
  | some e =>
    rw [Option.filter_some, Option.any_some]
    cases accept e with
    | true => rfl
    | false => rfl

theorem find?_get (c : Cache K V) (now : Instant) (k k' : K) :
  (c.get k' now).2.store.find? k = c.entryAfter now (.get k') k
  := by
  cases hp : c.peek k' now with
  | none =>
    rw [find?_get_of_not_live _ _ _ _ hp]
    by_cases hk : k = k'
    · simp [entryAfter, storedBy, takenBy, renewedBy, hk, hp]
    · simp [entryAfter, storedBy, takenBy, renewedBy, hk]
  | some v =>
    rw [find?_get_of_live _ _ _ _ hp]
    by_cases hk : k = k'
    · obtain ⟨e, he, -, rfl⟩ := peek_eq_some_iff.1 hp
      simp [entryAfter, storedBy, takenBy, renewedBy, hk, hp, he, Entry.postpone]
    · simp [entryAfter, storedBy, takenBy, renewedBy, hk]

/-- A value that is alive is renewed as by `Cache.get`, one that is not makes room for what the
factory makes. -/
theorem find?_fetch? (c : Cache K V) (now : Instant) (k k' : K) (answer : Option V) :
  (c.fetch? k' now (fun _ => (answer, ())) ()).2.1.store.find? k
    = c.entryAfter now (.upsert k' answer) k
  := by
  rw [fetch?]
  cases hp : c.peek k' now with
  | some v =>
    have hget : (c.get k' now).2 = (c.renew k' now).countHit := by rw [get, hp]
    dsimp only
    rw [← hget, find?_get]
    by_cases hk : k = k'
    · simp [entryAfter, storedBy, takenBy, renewedBy, hk, hp]
    · simp [entryAfter, storedBy, takenBy, renewedBy, hk]
  | none =>
    cases answer with
    | none =>
      change c.store.find? k = _
      by_cases hk : k = k'
      · simp [entryAfter, storedBy, takenBy, renewedBy, hk, hp]
      · simp [entryAfter, storedBy, takenBy, renewedBy, hk]
    | some v =>
      dsimp only
      rw [find?_create]
      by_cases hk : k = k'
      · simp [entryAfter, storedBy, hk, hp]
      · simp [entryAfter, storedBy, takenBy, renewedBy, hk]

/-- A use stores a value for a key, takes or renews its entry, or leaves it as it is. -/
theorem find?_serve (c : Cache K V) (now : Instant) (u : Use K V) (k : K) :
  (c.serve now u).2.store.find? k = c.entryAfter now u k
  := by
  cases u with
  | look v => rfl
  | get k' => apply find?_get
  | upsert k' answer => apply find?_fetch?
  | insert k' v =>
    change (c.insert k' now v).2.store.find? k = _
    rw [find?_insert]
    by_cases hk : k = k'
    · simp [entryAfter, storedBy, hk]
    · simp [entryAfter, storedBy, takenBy, renewedBy, hk]
  | touch k' =>
    change (c.touch k' now).2.store.find? k = _
    rw [find?_touch]
    by_cases hk : k = k'
    · simp [entryAfter, storedBy, takenBy, renewedBy, hk]
    · simp [entryAfter, storedBy, takenBy, renewedBy, hk]
  | remove k' =>
    change (c.remove k').2.store.find? k = _
    rw [find?_remove]
    simp [entryAfter, storedBy, takenBy, renewedBy]
  | removeIf k' accept =>
    change (c.takeIf k' .explicit fun e => accept e.value).2.store.find? k = _
    rw [find?_takeIf, filter_not]
    by_cases hk : k = k'
    · simp [entryAfter, storedBy, takenBy, renewedBy, resident, hk, Option.any_map]
    · simp [entryAfter, storedBy, takenBy, renewedBy, hk]
  | removeLapsed k' at' =>
    change (c.takeIf k' .expired fun e => e.deadline ≤ at').2.store.find? k = _
    rw [find?_takeIf, filter_not]
    by_cases hk : k = k'
    · simp [entryAfter, storedBy, takenBy, renewedBy, deadlineOf, hk, Option.any_map]
    · simp [entryAfter, storedBy, takenBy, renewedBy, hk]
  | takeLapsed at' =>
    change (c.takeLapsed at').2.store.find? k = _
    rw [find?_takeLapsed, filter_not]
    simp [entryAfter, storedBy, takenBy, renewedBy, deadlineOf, Option.any_map]
  | clear => apply Store.find?_empty

@[simp]
theorem lifetime_serve (c : Cache K V) (now : Instant) (u : Use K V) :
  (c.serve now u).2.lifetime = c.lifetime
  := by
  cases u with
  | upsert k answer =>
    change (c.fetch? k now (fun _ => (answer, ())) ()).2.1.lifetime = _
    rw [fetch?]
    split
    · apply lifetime_renew
    · cases answer with
      | none => rfl
      | some v => apply lifetime_create
  | look v => rfl
  | get k => apply lifetime_get
  | insert k v => apply lifetime_insert
  | touch k => apply lifetime_touch
  | remove k => apply lifetime_takeIf
  | removeIf k accept => apply lifetime_takeIf
  | removeLapsed k at' => apply lifetime_takeIf
  | takeLapsed at' => rfl
  | clear => rfl

theorem lifetime_serveAll (c : Cache K V) (us : List (Instant × Use K V)) :
  (c.serveAll us).2.lifetime = c.lifetime
  := by
  induction us generalizing c with
  | nil => rfl
  | cons x us ih =>
    change ((c.serve x.1 x.2).2.serveAll us).2.lifetime = _
    rw [ih, lifetime_serve]

/-- No use changes how the keys are spread. -/
theorem layout_serve (c : Cache K V) (now : Instant) (u : Use K V) :
  (c.serve now u).2.store.layout = c.store.layout
  := by
  cases u with
  | look v => rfl
  | get k =>
    change (c.get k now).2.store.layout = _
    rw [get]
    split
    · apply layout_renew
    · rfl
  | upsert k answer =>
    change (c.fetch? k now (fun _ => (answer, ())) ()).2.1.store.layout = _
    rw [fetch?]
    split
    · apply layout_renew
    · cases answer with
      | none => rfl
      | some v => apply layout_countDeparture
  | insert k v => apply layout_countDeparture
  | touch k => apply layout_renew
  | remove k => apply layout_takeIf
  | removeIf k accept => apply layout_takeIf
  | removeLapsed k at' => apply layout_takeIf
  | takeLapsed at' => rfl
  | clear => rfl

theorem layout_serveAll (c : Cache K V) (us : List (Instant × Use K V)) :
  (c.serveAll us).2.store.layout = c.store.layout
  := by
  induction us generalizing c with
  | nil => rfl
  | cons x us ih => exact (ih _).trans (c.layout_serve x.1 x.2)

/-! ### Factories -/

/-- All that matters of a factory is its answer. -/
theorem fetch?_eq_serve (c : Cache K V) (k : K) (now : Instant) (make : W → Option V × W) (w : W) :
  (Reply.value (c.fetch? k now make w).1, (c.fetch? k now make w).2.1)
    = ((c.serve now (.upsert k (make w).1)).1.answer, (c.serve now (.upsert k (make w).1)).2)
  := by
  change _ = (Reply.value (c.fetch? k now (fun _ => ((make w).1, ())) ()).1,
    (c.fetch? k now (fun _ => ((make w).1, ())) ()).2.1)
  rw [fetch?, fetch?]
  cases c.peek k now with
  | some v => rfl
  | none =>
    obtain ⟨_ | v, w'⟩ := make w
    · rfl
    · rfl

/-- A factory that could decline and does not is asked as one that never declines. -/
theorem fetch?_of_accepted (c : Cache K V) (k : K) (now : Instant) (make : W → V × W)
    {make' : W → Option V × W} {w : W} (h : make' w = (some (make w).1, (make w).2)) :
  c.fetch? k now make' w = (some (c.fetch k now make w).1, (c.fetch k now make w).2)
  := by
  rw [fetch?, fetch, h]
  cases c.peek k now with
  | some v => rfl
  | none => rfl

end Cache

end FrameCache
