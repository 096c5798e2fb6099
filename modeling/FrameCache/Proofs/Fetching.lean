import FrameCache.Proofs.Uses

/-!
# Fetching in parts

`Cache.fetch` looks up a value and makes one when there is none.  `Program.fetchByParts` does so by
single uses of the cache: a lookup, and when that misses, the removal of what has lapsed and the
storing of a new value.  When the listener never uses the cache both are the same, and a value that
has lapsed is therefore never replaced: it departs because it has lapsed.

A factory that declines leaves the cache as it is, with one more miss.
-/

namespace FrameCache

variable {K V W : Type}

/-- No more than one value departs from a key. -/
theorem Departure.reverse_ofOption (k : K) (cause : Cause) (v : Option V) :
  (Departure.ofOption k cause v).reverse = Departure.ofOption k cause v
  := by
  cases v with
  | some v => rfl
  | none => rfl

variable [DecidableEq K]

namespace Cache

variable {c : Cache K V} {k : K} {now : Instant}

/-- What is removed is the value that has lapsed. -/
theorem fst_removeLapsed :
  (c.removeLapsed k now).1 = c.lapsed k now
  := c.fst_takeIf k .expired _

/-- Where nothing is alive, nothing is resident once what has lapsed is removed. -/
theorem resident_removeLapsed (h : c.peek k now = none) :
  (c.removeLapsed k now).2.resident k = none
  := by
  rw [resident, removeLapsed, find?_takeIf, if_pos rfl, Option.map_eq_none_iff,
    Option.filter_eq_none_iff]
  intro e he
  simpa using peek_eq_none_iff.1 h e he

/-- A value that is made for a key without a live one is stored after what has lapsed is removed,
and it replaces nothing. -/
theorem insert_removeLapsed (h : c.peek k now = none) (v : V) :
  (c.countMiss.removeLapsed k now).2.insert k now v = (none, c.create k now v)
  := by
  have hres : (c.countMiss.removeLapsed k now).2.resident k = none := resident_removeLapsed h
  rw [insert, hres, create]
  cases ht : c.countMiss.removeLapsed k now with
  | mk taken c' =>
    cases taken with
    | none =>
      obtain ⟨-, rfl⟩ := takeIf_eq_none ht
      rw [ht] at hres
      change c.resident k = none at hres
      rw [hres]
      rfl
    | some old =>
      obtain ⟨e, he, -, -, rfl⟩ := takeIf_eq_some ht
      rw [resident_of_find? (c := c) he, place, place]
      dsimp only
      rw [Store.insert_erase]
      rfl

/-! ### Factories that accept or decline -/

/-- A factory is asked when there is no live value. -/
theorem fetch_of_not_live (h : c.peek k now = none) (make : W → V × W) (w : W) :
  c.fetch k now make w = ((make w).1, c.create k now (make w).1, (make w).2)
  := by
  rw [fetch, h]

/-- Making a value counts as a miss, and the value that has lapsed as expired. -/
theorem counters_create (v : V) :
  (c.create k now v).counters = match c.resident k with
    | some _ => c.counters.miss.departed .expired 1
    | none => c.counters.miss
  := by
  rw [create]
  cases c.resident k with
  | some old => rfl
  | none => rfl

/-- A live value is fetched as it is looked up, whatever the factory. -/
theorem fetch?_of_live {e : Entry V} (he : c.store.find? k = some e) (hlt : now < e.deadline)
    (make : W → Option V × W) (w : W) :
  c.fetch? k now make w = (some e.value, (c.get k now).2, w)
  := by
  have hp : c.peek k now = some e.value := peek_eq_some_iff.2 ⟨e, he, hlt, rfl⟩
  rw [fetch?, get, hp]

/-- When the factory declines, only the miss is counted. -/
theorem fetch?_of_declined (h : c.peek k now = none) {make : W → Option V × W} {w : W}
    (hm : (make w).1 = none) :
  c.fetch? k now make w = (none, c.countMiss, (make w).2)
  := by
  cases hw : make w with
  | mk answer w' =>
    rw [hw] at hm
    cases hm
    rw [fetch?, h, hw]

/-- A fetch that misses ends with the answer of its factory. -/
theorem fetch?_of_not_live (h : c.peek k now = none) (make : W → Option V × W) (w : W) :
  (c.fetch? k now make w).1 = (make w).1 ∧ (c.fetch? k now make w).2.2 = (make w).2
  := by
  rw [fetch?, h]
  obtain ⟨_ | v, w'⟩ := make w
  · exact ⟨rfl, rfl⟩
  · exact ⟨rfl, rfl⟩

/-- A factory is asked beforehand as it is asked by a fetch, and what has lapsed departs when it
makes a value. -/
theorem perform_upsert (make : W → Option V × W) (w : W) :
  c.perform now (.upsert k (make w).1)
    = (.value (c.fetch? k now make w).1,
      Departure.ofOption k .expired ((make w).1.bind fun _ => c.lapsed k now),
      (c.fetch? k now make w).2.1)
  := by
  rw [perform, performBy, fetch?, fetch?]
  cases c.peek k now with
  | some v => rfl
  | none =>
    obtain ⟨_ | v, w'⟩ := make w
    · rfl
    · rfl

/-- An entry that has lapsed is not alive. -/
theorem peek_of_lapsed {e : Entry V} (he : c.store.find? k = some e) (hle : e.deadline ≤ now) :
  c.peek k now = none
  := by
  apply peek_eq_none_iff.2
  intro e' he'
  cases he.symm.trans he'
  exact hle

/-- What is not resident is not alive. -/
theorem peek_of_absent (he : c.store.find? k = none) :
  c.peek k now = none
  := by
  apply peek_eq_none_iff.2
  intro e' he'
  cases he.symm.trans he'

/-- What is not alive stays so. -/
theorem peek_eq_none_of_le {now' : Instant} (hle : now ≤ now') (h : c.peek k now = none) :
  c.peek k now' = none
  := by
  apply peek_eq_none_iff.2
  intro e he
  apply Instant.le_trans (peek_eq_none_iff.1 h e he) hle

end Cache

namespace Program

/-- Looks up `k`.  When that misses, it removes what has lapsed and stores what the factory makes.
It ends with the value and the world of the factory. -/
def fetchByParts (now : Instant) (k : K) (make : W → V × W) (w : W) : Program K V (V × W) :=
  .call now (.get k) fun
    | .value (some v) => .done (v, w)
    | _ => .call now (.removeLapsed k now) fun _ =>
      let (v, w) := make w
      .call now (.insert k v) fun _ => .done (v, w)

/-- A fetch by its parts is a fetch, and what has lapsed is reported. -/
theorem runWith_fetchByParts (now : Instant) (k : K) (make : W → V × W) (w : W) (depth : Nat)
    (h : Heard K V) :
  (fetchByParts now k make w).runWith .quiet (depth + 1) h
    = let r := h.cache.fetch k now make w
      some ((r.1, r.2.2),
        ⟨r.2.1, Departure.ofOption k .expired (h.cache.lapsed k now) ++ h.reports⟩)
  := by
  rw [fetchByParts, runWith_call_quiet, Cache.fetch, Cache.perform, Cache.performBy, Cache.get]
  cases hp : h.cache.peek k now with
  | some v =>
    rw [Cache.lapsed_of_peek_eq_some hp]
    rfl
  | none =>
    dsimp only
    rw [runWith_call_quiet, Cache.perform, Cache.performBy]
    dsimp only
    rw [runWith_call_quiet, Cache.perform, Cache.performBy, Cache.insert_removeLapsed hp,
      Cache.fst_removeLapsed]
    change some (_, Heard.mk _ ((Departure.ofOption k .expired (h.cache.lapsed k now)).reverse
      ++ h.reports)) = _
    rw [Departure.reverse_ofOption]

end Program

/-- Fetching agrees with its parts, and a factory that declines changes nothing.

A fetch with the factory `make` gives the value, the cache, the reports and the world of the factory
that the lookup, the removal of what has lapsed and the storing of a new value give one after the
other, and so does a fetch with a factory that could decline and does not.  The factory is asked
exactly when the lookup misses.  A live value is renewed and handed out; one that has lapsed departs
for that reason and for no other; where there is none nothing departs.

When the factory declines, nothing departs and the cache is as before with one more miss, so that a
later fetch asks its factory again. -/
theorem Heard.fetch_agrees (h : Heard K V) (now : Instant) (k : K) (make : W → V × W) (w : W)
    (depth : Nat) :
  let c := h.cache
  let fetched := c.fetch k now make w
  let reports := Departure.ofOption k .expired (c.lapsed k now)
  let after : Heard K V := ⟨fetched.2.1, reports ++ h.reports⟩
  (Program.fetchByParts now k make w).runWith .quiet (depth + 1) h
      = some ((fetched.1, fetched.2.2), after)
    ∧ (Program.perform now (.upsert k (some (make w).1))).runWith .quiet (depth + 1) h
      = some (.value (some fetched.1), after)
    ∧ (∀ make? : W → Option V × W, make? w = (some (make w).1, (make w).2) →
      c.fetch? k now make? w = (some fetched.1, fetched.2))
    ∧ fetched.2.2 = (if (c.get k now).1.isNone then (make w).2 else w)
    ∧ (∀ e, c.store.find? k = some e → now < e.deadline →
      reports = []
        ∧ fetched = (e.value, (c.get k now).2, w)
        ∧ (c.get k now).2.store.find? k = some ⟨e.value, now.after c.lifetime⟩
        ∧ ∀ make? : W → Option V × W, c.fetch? k now make? w = (some e.value, (c.get k now).2, w))
    ∧ ((c.get k now).1 = none →
      fetched.1 = (make w).1
        ∧ fetched.2.1.store.find? k = some ⟨(make w).1, now.after c.lifetime⟩)
    ∧ (∀ e, c.store.find? k = some e → e.deadline ≤ now →
      reports = [⟨k, e.value, .expired⟩]
        ∧ fetched.2.1.counters = c.counters.miss.departed .expired 1)
    ∧ (c.store.find? k = none → reports = [] ∧ fetched.2.1.counters = c.counters.miss)
    ∧ ∀ make? : W → Option V × W, (c.get k now).1 = none → (make? w).1 = none →
      c.fetch? k now make? w = (none, c.countMiss, (make? w).2)
        ∧ (Program.perform now (.upsert k (make? w).1)).runWith .quiet (depth + 1) h
          = some (.value none, ⟨c.countMiss, h.reports⟩)
        ∧ ∀ now', now ≤ now' → ∀ (again : W → Option V × W) (w' : W),
          (c.countMiss.fetch? k now' again w').1 = (again w').1
            ∧ (c.countMiss.fetch? k now' again w').2.2 = (again w').2
  := by
  intro c fetched reports after
  have hget : (c.get k now).1 = c.peek k now := c.fst_get k now
  have haccepted : ∀ make? : W → Option V × W, make? w = (some (make w).1, (make w).2) →
      c.fetch? k now make? w = (some fetched.1, fetched.2) :=
    fun make? hm => c.fetch?_of_accepted k now make hm
  refine ⟨Program.runWith_fetchByParts now k make w depth h, ?combined, haccepted, ?asked, ?live,
    ?missed, ?lapsed, ?absent, ?declined⟩
  case combined =>
    have hperform : c.perform now (.upsert k (some (make w).1)) = _ :=
      Cache.perform_upsert (fun w => (some (make w).1, (make w).2)) w
    rw [haccepted _ rfl] at hperform
    rw [Program.perform, Program.runWith_call_quiet, hperform]
    change some (_, Heard.mk _ (reports.reverse ++ h.reports)) = _
    rw [Departure.reverse_ofOption]
  case asked =>
    rw [hget]
    change (c.fetch k now make w).2.2 = _
    rw [Cache.fetch]
    cases c.peek k now with
    | some v => rfl
    | none => rfl
  case live =>
    intro e he hlt
    have hp : c.peek k now = some e.value := Cache.peek_eq_some_iff.2 ⟨e, he, hlt, rfl⟩
    refine ⟨?_, ?_, ?_, fun make? => Cache.fetch?_of_live he hlt make? w⟩
    · change Departure.ofOption k .expired (c.lapsed k now) = _
      rw [Cache.lapsed_of_peek_eq_some hp]
      rfl
    · change c.fetch k now make w = _
      rw [Cache.fetch, Cache.get, hp]
    · rw [Cache.find?_get_of_live _ _ _ _ hp, if_pos rfl]
  case missed =>
    intro hmiss
    have hf : fetched = _ := Cache.fetch_of_not_live (hget.symm.trans hmiss) make w
    constructor
    · rw [hf]
    · rw [hf, Cache.find?_create, if_pos rfl]
  case lapsed =>
    intro e he hle
    have hp : c.peek k now = none := Cache.peek_of_lapsed he hle
    have hf : fetched = _ := Cache.fetch_of_not_live hp make w
    constructor
    · change Departure.ofOption k .expired (c.lapsed k now) = _
      rw [Cache.lapsed_of_peek_eq_none hp, Cache.resident_of_find? he]
      rfl
    · rw [hf, Cache.counters_create, Cache.resident_of_find? he]
  case absent =>
    intro he
    have hp : c.peek k now = none := Cache.peek_of_absent he
    have hres : c.resident k = none := by rw [Cache.resident, he, Option.map_none]
    have hf : fetched = _ := Cache.fetch_of_not_live hp make w
    constructor
    · change Departure.ofOption k .expired (c.lapsed k now) = _
      rw [Cache.lapsed_of_peek_eq_none hp, hres]
      rfl
    · rw [hf, Cache.counters_create, hres]
  case declined =>
    intro make? hmiss hm
    have hp : c.peek k now = none := hget.symm.trans hmiss
    have hf := Cache.fetch?_of_declined hp hm
    refine ⟨hf, ?_, ?_⟩
    · rw [Program.perform, Program.runWith_call_quiet, Cache.perform_upsert, hf, hm]
      rfl
    · intro now' hle again w'
      have hlater : c.countMiss.peek k now' = none := Cache.peek_eq_none_of_le hle hp
      exact Cache.fetch?_of_not_live hlater again w'

end FrameCache
