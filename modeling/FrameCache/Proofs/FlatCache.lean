import FrameCache.Proofs.Uses
import Mathlib.Data.List.Forall2

/-!
# Flat caches

A `FlatCache` is a cache on a single `Table`: nothing is spread over shards, and nothing depends
on a hash.  `FlatCache.serve` serves the same uses as `Cache.serve`.

A cache `Refines` a flat cache if both find the same entry for every key, and have the same
lifetime and the same totals.  What is seen of a use then `Agrees`: it is equal, apart from the
order in which a use that deals with all entries lists them.  Both are kept by every use, so they
hold along every run, for every `Layout`.
-/

namespace FrameCache

variable {K V : Type}

/-- The keys with their values. -/
def valuesOf (es : List (K × Entry V)) : List (K × V) := es.map fun e => (e.1, e.2.value)

/-- A map from keys to values with deadlines, in one piece. -/
structure FlatCache (K V : Type) where
  /-- The resident entries. -/
  table : Table K (Entry V)
  /-- How long a value stays alive after its last use. -/
  lifetime : Duration
  /-- The running totals. -/
  counters : Counters

namespace FlatCache

/-- The flat cache without entries. -/
def empty (lifetime : Duration) : FlatCache K V := ⟨.empty, lifetime, {}⟩

/-- The resident keys and values. -/
def toList (f : FlatCache K V) : List (K × V) := valuesOf f.table.entries

/-- The keys and values whose deadline has passed at `at'`. -/
def lapsedEntries (f : FlatCache K V) (at' : Instant) : List (K × V) :=
  valuesOf (f.table.entries.filter fun e => e.2.deadline ≤ at')

variable [DecidableEq K]

/-- The entry of `k` if its value is alive. -/
def alive? (f : FlatCache K V) (k : K) (now : Instant) : Option (Entry V) :=
  (f.table.find? k).filter fun e => now < e.deadline

/-- Stores `v` for `k`, alive for one lifetime, and sets the totals. -/
def put (f : FlatCache K V) (k : K) (now : Instant) (v : V) (counters : Counters) :
    FlatCache K V :=
  { f with table := f.table.insert k ⟨v, now.after f.lifetime⟩, counters }

/-- Serves a use that takes the entry of `k` if it satisfies `accept`. -/
def take (f : FlatCache K V) (u : Use K V) (k : K) (cause : Cause) (accept : Entry V → Bool) :
    Served K V × FlatCache K V :=
  match (f.table.find? k).filter accept with
  | some e => (⟨u, .value (some e.value), [⟨k, e.value, cause⟩]⟩,
      { f with table := f.table.erase k, counters := f.counters.departed cause 1 })
  | none => (⟨u, .value none, []⟩, f)

/-- The answer to a look at a flat cache. -/
def view (f : FlatCache K V) (now : Instant) : View K → Reply K V
  | .peek k => .value ((f.alive? k now).map Entry.value)
  | .resident k => .value ((f.table.find? k).map Entry.value)
  | .contains k => .found (f.table.find? k).isSome
  | .deadlineOf k => .deadline ((f.table.find? k).map Entry.deadline)
  | .lapsedEntries at' => .entries (f.lapsedEntries at')
  | .visitAll => .entries f.toList
  | .size => .count f.table.entries.length
  | .isEmpty => .found f.table.entries.isEmpty
  | .metrics => .metrics ⟨f.counters, .ofNat f.table.entries.length⟩

/-- Serves a use. -/
def serve (f : FlatCache K V) (now : Instant) (u : Use K V) : Served K V × FlatCache K V :=
  match u with
  | .look v => (⟨u, f.view now v, []⟩, f)
  | .get k =>
    match f.alive? k now with
    | some e => (⟨u, .value (some e.value), []⟩, f.put k now e.value f.counters.hit)
    | none => (⟨u, .value none, []⟩, { f with counters := f.counters.miss })
  | .upsert k answer =>
    match f.alive? k now, answer with
    | some e, _ => (⟨u, .value (some e.value), []⟩, f.put k now e.value f.counters.hit)
    | none, none => (⟨u, .value none, []⟩, { f with counters := f.counters.miss })
    | none, some v =>
      match f.table.find? k with
      | some old => (⟨u, .value (some v), [⟨k, old.value, .expired⟩]⟩,
          f.put k now v (f.counters.miss.departed .expired 1))
      | none => (⟨u, .value (some v), []⟩, f.put k now v f.counters.miss)
  | .insert k v =>
    match f.table.find? k with
    | some old => (⟨u, .done, [⟨k, old.value, .replaced⟩]⟩,
        f.put k now v (f.counters.departed .replaced 1))
    | none => (⟨u, .done, []⟩, f.put k now v f.counters)
  | .touch k =>
    match f.table.find? k with
    | some e => (⟨u, .found true, []⟩, f.put k now e.value f.counters)
    | none => (⟨u, .found false, []⟩, f)
  | .remove k => f.take u k .explicit fun _ => true
  | .removeIf k accept => f.take u k .explicit fun e => accept e.value
  | .removeLapsed k at' => f.take u k .expired fun e => e.deadline ≤ at'
  | .takeLapsed at' =>
    let lapsed := f.lapsedEntries at'
    (⟨u, .entries lapsed, Departure.ofEntries .expired lapsed⟩,
      { f with
        table := f.table.filter fun _ e => !(e.deadline ≤ at')
        counters := f.counters.departed .expired lapsed.length })
  | .clear =>
    (⟨u, .done, Departure.ofEntries .cleared f.toList⟩,
      { f with
        table := .empty
        counters := f.counters.departed .cleared f.table.entries.length })

/-- Serves uses one after the other, each at a reading of the clock of its own. -/
def serveAll (f : FlatCache K V) :
    List (Instant × Use K V) → List (Served K V) × FlatCache K V
  | [] => ([], f)
  | (now, u) :: us =>
    let (served, f) := f.serve now u
    let (rest, f) := f.serveAll us
    (served :: rest, f)

end FlatCache

/-! ### What is seen of a use -/

/-- The uses that deal with all entries, and list some of them. -/
def Use.ListsEntries : Use K V → Prop
  | .look (.lapsedEntries _) | .look .visitAll | .takeLapsed _ | .clear => True
  | _ => False

/-- Two answers are the same up to the order of the entries that they list. -/
inductive Reply.Same : Reply K V → Reply K V → Prop where
  | refl (a : Reply K V) : Same a a
  | entries {es es' : List (K × V)} (h : es.Perm es') : Same (.entries es) (.entries es')

theorem Reply.Same.symm {a a' : Reply K V} (h : a.Same a') :
  a'.Same a
  := by
  cases h with
  | refl => apply refl
  | entries h => apply entries h.symm

theorem Reply.Same.trans {a a' a'' : Reply K V} (h : a.Same a') (h' : a'.Same a'') :
  a.Same a''
  := by
  cases h with
  | refl => apply h'
  | entries h =>
    cases h' with
    | refl => apply entries h
    | entries h' => apply entries (h.trans h')

/-- The same is seen of a use, up to the order of entries if the use lists them. -/
structure Served.Agrees (s s' : Served K V) : Prop where
  /-- The use is the same. -/
  use : s.use = s'.use
  /-- The answer is the same up to the order. -/
  answer : s.answer.Same s'.answer
  /-- The departures are the same up to the order. -/
  departures : s.departures.Perm s'.departures
  /-- There is no difference if the use lists no entries. -/
  eq : ¬ s.use.ListsEntries → s = s'

namespace Served.Agrees

theorem refl (s : Served K V) :
  s.Agrees s
  := ⟨rfl, .refl _, .refl _, fun _ => rfl⟩

theorem of_lists {u : Use K V} {a a' : Reply K V} {ds ds' : List (Departure K V)}
    (hu : u.ListsEntries) (ha : a.Same a') (hd : ds.Perm ds') :
  Agrees ⟨u, a, ds⟩ ⟨u, a', ds'⟩
  := ⟨rfl, ha, hd, fun hn => absurd hu hn⟩

theorem symm {s s' : Served K V} (h : s.Agrees s') :
  s'.Agrees s
  := ⟨h.use.symm, h.answer.symm, h.departures.symm, fun hn => (h.eq (h.use ▸ hn)).symm⟩

theorem trans {s s' s'' : Served K V} (h : s.Agrees s') (h' : s'.Agrees s'') :
  s.Agrees s''
  := by
  constructor
  · rw [h.use, h'.use]
  · apply h.answer.trans h'.answer
  · apply h.departures.trans h'.departures
  · intro hn
    rw [h.eq hn, h'.eq (h.use ▸ hn)]

/-- Runs that agree with the same run agree with each other. -/
theorem forall₂ {ss ss' ts : List (Served K V)} (h : List.Forall₂ Agrees ss ts)
    (h' : List.Forall₂ Agrees ss' ts) :
  List.Forall₂ Agrees ss ss'
  := by
  induction h generalizing ss' with
  | nil =>
    cases h'
    apply List.Forall₂.nil
  | cons hs _ ih =>
    obtain _ | ⟨hs', h'⟩ := h'
    apply List.Forall₂.cons (hs.trans hs'.symm) (ih h')

end Served.Agrees

/-! ### Shards -/

variable [DecidableEq K]

/-! ### Refinement -/

namespace Cache

/-- A cache on the layout `l` holds what a flat cache holds. -/
structure Refines (l : Layout K) (c : Cache K V) (f : FlatCache K V) : Prop where
  /-- The layout is `l`. -/
  layout : c.store.layout = l
  /-- The same entry is found for every key. -/
  find? : ∀ k, c.store.find? k = f.table.find? k
  /-- The lifetimes are equal. -/
  lifetime : c.lifetime = f.lifetime
  /-- The totals are equal. -/
  counters : c.counters = f.counters

/-- A use is served alike: the same is seen of it, and what is held is still the same. -/
def Alike (l : Layout K) (r : Served K V × Cache K V) (r' : Served K V × FlatCache K V) : Prop :=
  r.1.Agrees r'.1 ∧ r.2.Refines l r'.2

theorem refines_empty (l : Layout K) (lifetime : Duration) :
  (empty l lifetime : Cache K V).Refines l (.empty lifetime)
  := ⟨rfl, Store.find?_empty l, rfl, rfl⟩

namespace Refines

variable {l : Layout K} {c : Cache K V} {f : FlatCache K V} (h : c.Refines l f)

include h

/-! ### Views -/

/-- The entries are the same up to their order. -/
theorem perm :
  c.store.toList.Perm f.table.entries
  := by
  apply List.Perm.symm
  apply Store.perm_toList
  · apply f.table.nodup.of_map
  · intro k e
    rw [Table.mem_entries, h.find?]

theorem toList_perm :
  c.toList.Perm f.toList
  := h.perm.map _

theorem lapsedEntries_perm (at' : Instant) :
  (c.lapsedEntries at').Perm (f.lapsedEntries at')
  := (h.perm.filter _).map _

theorem size_eq :
  c.size = f.table.entries.length
  := by
  rw [size, Store.size_eq_length_toList, h.perm.length_eq]

theorem resident_eq (k : K) :
  c.resident k = (f.table.find? k).map Entry.value
  := by
  rw [resident, h.find?]

theorem peek_eq (k : K) (now : Instant) :
  c.peek k now = (f.alive? k now).map Entry.value
  := by
  rw [peek, h.find?, FlatCache.alive?]

theorem metrics_eq :
  c.metrics = ⟨f.counters, .ofNat f.table.entries.length⟩
  := by
  rw [metrics, h.counters, h.size_eq]

theorem isEmpty_eq :
  (c.store.shards.all fun t => t.entries.isEmpty) = f.table.entries.isEmpty
  := by
  rw [Bool.eq_iff_iff, List.isEmpty_iff, ← List.perm_nil]
  constructor
  · intro hall
    apply h.perm.symm.trans
    rw [List.perm_nil, Store.toList, List.flatMap_eq_nil_iff]
    intro t ht
    rw [← Array.all_toList, List.all_eq_true] at hall
    apply List.isEmpty_iff.1 (hall t ht)
  · intro hnil
    rw [← Array.all_toList, List.all_eq_true]
    intro t ht
    have hlist := List.perm_nil.1 (h.perm.trans hnil)
    apply List.isEmpty_iff.2 (List.flatMap_eq_nil_iff.1 hlist t ht)

/-- A look at both sees the same. -/
theorem view (now : Instant) (v : View K) :
  Served.Agrees ⟨.look v, c.view now v, []⟩ ⟨.look v, f.view now v, []⟩
  := by
  cases v with
  | lapsedEntries at' =>
    apply Served.Agrees.of_lists (u := .look (.lapsedEntries at')) trivial _ (.refl _)
    apply Reply.Same.entries (h.lapsedEntries_perm at')
  | visitAll =>
    apply Served.Agrees.of_lists (u := .look .visitAll) trivial _ (.refl _)
    rw [Cache.view, visitAll_list]
    apply Reply.Same.entries h.toList_perm
  | peek k => simp only [Cache.view, FlatCache.view, h.peek_eq, Served.Agrees.refl]
  | resident k => simp only [Cache.view, FlatCache.view, h.resident_eq, Served.Agrees.refl]
  | contains k =>
    simp only [Cache.view, FlatCache.view, contains, h.find?, Served.Agrees.refl]
  | deadlineOf k =>
    simp only [Cache.view, FlatCache.view, deadlineOf, h.find?, Served.Agrees.refl]
  | size => simp only [Cache.view, FlatCache.view, h.size_eq, Served.Agrees.refl]
  | isEmpty => simp only [Cache.view, FlatCache.view, h.isEmpty_eq, Served.Agrees.refl]
  | metrics => simp only [Cache.view, FlatCache.view, h.metrics_eq, Served.Agrees.refl]

/-! ### Changes -/

theorem place (k : K) (now : Instant) (v : V) {n n' : Counters} (hn : n = n') :
  Refines l { c.place k now v with counters := n } (f.put k now v n')
  := by
  constructor
  · apply h.layout
  · intro k'
    change (c.place k now v).store.find? k' = (f.table.insert k _).find? k'
    rw [find?_place, Table.find?_insert, h.find?, h.lifetime]
  · apply h.lifetime
  · apply hn

/-- Both hand out the value that is alive, and renew it. -/
theorem hit {k : K} {now : Instant} {e : Entry V} (he : f.alive? k now = some e) :
  Refines l (c.renew k now).countHit (f.put k now e.value f.counters.hit)
  := by
  have hr : c.resident k = some e.value := by
    rw [h.resident_eq, (Option.filter_eq_some_iff.1 he).1]
    rfl
  have hrenew : c.renew k now = c.place k now e.value := by rw [renew, hr]
  rw [hrenew]
  apply h.place
  rw [← h.counters]
  rfl

theorem miss :
  Refines l c.countMiss { f with counters := f.counters.miss }
  := ⟨h.layout, h.find?, h.lifetime, congrArg Counters.miss h.counters⟩

/-- Nothing that depends on the order is seen of a use that takes one entry. -/
theorem take (u : Use K V) (k : K) (cause : Cause) (accept : Entry V → Bool) :
  let taken := c.takeIf k cause accept
  Alike l (⟨u, .value taken.1, Departure.ofOption k cause taken.1⟩, taken.2)
    (f.take u k cause accept)
  := by
  rw [takeIf, FlatCache.take, h.find?]
  cases (f.table.find? k).filter accept with
  | none => use Served.Agrees.refl _, h.layout, h.find?, h.lifetime, h.counters
  | some e =>
    use Served.Agrees.refl _
    constructor
    · apply h.layout
    · intro k'
      change (c.store.erase k).find? k' = (f.table.erase k).find? k'
      rw [Store.find?_erase, Table.find?_erase, h.find?]
    · apply h.lifetime
    · change c.counters.departed cause 1 = f.counters.departed cause 1
      rw [h.counters]

theorem get (now : Instant) (k : K) :
  Alike l (c.serve now (.get k)) (f.serve now (.get k))
  := by
  have hp := h.peek_eq k now
  cases he : f.alive? k now with
  | some e =>
    rw [he, Option.map_some] at hp
    simp only [Cache.serve, performBy, Cache.get, hp, FlatCache.serve, he]
    exact ⟨.refl _, h.hit he⟩
  | none =>
    rw [he, Option.map_none] at hp
    simp only [Cache.serve, performBy, Cache.get, hp, FlatCache.serve, he]
    exact ⟨.refl _, h.miss⟩

/-- A value that is made takes the place of one that has lapsed. -/
theorem upsert (now : Instant) (k : K) (answer : Option V) :
  Alike l (c.serve now (.upsert k answer)) (f.serve now (.upsert k answer))
  := by
  have hp := h.peek_eq k now
  cases he : f.alive? k now with
  | some e =>
    rw [he, Option.map_some] at hp
    have hn : (answer.bind fun _ => c.lapsed k now) = none := by
      simp [lapsed_of_peek_eq_some hp]
    simp only [Cache.serve, performBy, fetch?, hp, hn, FlatCache.serve, he]
    exact ⟨.refl _, h.hit he⟩
  | none =>
    rw [he, Option.map_none] at hp
    cases answer with
    | none =>
      simp only [Cache.serve, performBy, fetch?, hp, FlatCache.serve, he]
      exact ⟨.refl _, h.miss⟩
    | some v =>
      have hr := h.resident_eq k
      cases hf : f.table.find? k with
      | some old =>
        rw [hf, Option.map_some] at hr
        simp only [Cache.serve, performBy, fetch?, hp, lapsed_of_peek_eq_none hp, create,
          hr, FlatCache.serve, he, hf]
        exact ⟨.refl _, h.place k now v (h.counters ▸ rfl)⟩
      | none =>
        rw [hf, Option.map_none] at hr
        simp only [Cache.serve, performBy, fetch?, hp, lapsed_of_peek_eq_none hp, create,
          hr, FlatCache.serve, he, hf]
        exact ⟨.refl _, h.place k now v (h.counters ▸ rfl)⟩

theorem insert (now : Instant) (k : K) (v : V) :
  Alike l (c.serve now (.insert k v)) (f.serve now (.insert k v))
  := by
  have hr := h.resident_eq k
  cases hf : f.table.find? k with
  | some old =>
    rw [hf, Option.map_some] at hr
    simp only [Cache.serve, performBy, Cache.insert, hr, FlatCache.serve, hf]
    exact ⟨.refl _, h.place k now v (h.counters ▸ rfl)⟩
  | none =>
    rw [hf, Option.map_none] at hr
    simp only [Cache.serve, performBy, Cache.insert, hr, FlatCache.serve, hf]
    exact ⟨.refl _, h.place k now v h.counters⟩

theorem touch (now : Instant) (k : K) :
  Alike l (c.serve now (.touch k)) (f.serve now (.touch k))
  := by
  have hr := h.resident_eq k
  cases hf : f.table.find? k with
  | some e =>
    rw [hf, Option.map_some] at hr
    simp only [Cache.serve, performBy, Cache.touch, contains, h.find?, hf, renew, hr,
      FlatCache.serve]
    exact ⟨.refl _, h.place k now e.value h.counters⟩
  | none =>
    rw [hf, Option.map_none] at hr
    simp only [Cache.serve, performBy, Cache.touch, contains, h.find?, hf, renew, hr,
      FlatCache.serve]
    exact ⟨.refl _, h⟩

theorem takeLapsed (now at' : Instant) :
  Alike l (c.serve now (.takeLapsed at')) (f.serve now (.takeLapsed at'))
  := by
  have hlapsed := h.lapsedEntries_perm at'
  constructor
  · apply Served.Agrees.of_lists (u := .takeLapsed at') trivial (.entries hlapsed)
    apply hlapsed.map
  · constructor
    · apply h.layout
    · intro k
      change (c.takeLapsed at').2.store.find? k = (f.table.filter _).find? k
      rw [find?_takeLapsed, Table.find?_filter, h.find?]
    · apply h.lifetime
    · change c.counters.departed .expired (c.lapsedEntries at').length
        = f.counters.departed .expired (f.lapsedEntries at').length
      rw [h.counters, hlapsed.length_eq]

theorem clear (now : Instant) :
  Alike l (c.serve now .clear) (f.serve now .clear)
  := by
  constructor
  · apply Served.Agrees.of_lists (u := .clear) trivial (.refl _)
    apply h.toList_perm.map
  · constructor
    · apply h.layout
    · intro k
      change (Store.empty c.store.layout).find? k = Table.empty.find? k
      rw [Store.find?_empty, Table.find?_empty]
    · apply h.lifetime
    · change c.counters.departed .cleared c.toList.length
        = f.counters.departed .cleared f.table.entries.length
      rw [h.counters, h.toList_perm.length_eq, FlatCache.toList, valuesOf, List.length_map]

/-- Every use is served alike. -/
theorem serve (now : Instant) (u : Use K V) :
  Alike l (c.serve now u) (f.serve now u)
  := by
  cases u with
  | look v => use h.view now v, h.layout, h.find?, h.lifetime, h.counters
  | get k => apply h.get
  | upsert k answer => apply h.upsert
  | insert k v => apply h.insert
  | touch k => apply h.touch
  | remove k => apply h.take
  | removeIf k accept => apply h.take
  | removeLapsed k at' => apply h.take
  | takeLapsed at' => apply h.takeLapsed
  | clear => apply h.clear

/-- Along a run the same is seen of every use. -/
theorem serveAll (us : List (Instant × Use K V)) :
  List.Forall₂ Served.Agrees (c.serveAll us).1 (f.serveAll us).1
    ∧ (c.serveAll us).2.Refines l (f.serveAll us).2
  := by
  induction us generalizing c f with
  | nil => exact ⟨.nil, h⟩
  | cons x us ih =>
    obtain ⟨hseen, hnext⟩ := h.serve x.1 x.2
    obtain ⟨hrest, hlast⟩ := ih hnext
    exact ⟨.cons hseen hrest, hlast⟩

end Refines

/-- Whatever layout a cache has, it answers every run of uses as a cache on a single table does,
apart from the order of the entries that a use of all entries lists, and ends with the same
entries and totals.  So what is seen of a run depends neither on the number of shards nor on the
hash.  A key is resident in no shard but the one that is chosen by the upper half of its hash,
masked by the number of shards. -/
theorem serveAll_agrees (layout : Layout K) (lifetime : Duration)
    (us : List (Instant × Use K V)) :
  let run := (empty layout lifetime).serveAll us
  let flat := (FlatCache.empty lifetime).serveAll us
  List.Forall₂ Served.Agrees run.1 flat.1
    ∧ (∀ k, run.2.store.find? k = flat.2.table.find? k)
    ∧ run.2.store.toList.Perm flat.2.table.entries
    ∧ run.2.metrics = ⟨flat.2.counters, .ofNat flat.2.table.entries.length⟩
    ∧ (∀ layout', List.Forall₂ Served.Agrees run.1 ((empty layout' lifetime).serveAll us).1)
    ∧ (∀ k, (layout.hash k >>> 32).toNat &&& (layout.count - 1) < layout.count)
    ∧ (∀ i k e, (k, e) ∈ (run.2.store.shard i).entries
      ↔ (layout.hash k >>> 32).toNat &&& (layout.count - 1) = i
        ∧ flat.2.table.find? k = some e)
    ∧ ∀ i j k e e', (k, e) ∈ (run.2.store.shard i).entries →
      (k, e') ∈ (run.2.store.shard j).entries → i = j ∧ e = e'
  := by
  intro run flat
  obtain ⟨hseen, hlast⟩ := (refines_empty layout lifetime).serveAll us
  have hshard : ∀ i k e, (k, e) ∈ (run.2.store.shard i).entries
      ↔ layout.index k = i ∧ flat.2.table.find? k = some e := by
    intro i k e
    rw [Store.mem_entries_shard, hlast.layout, hlast.find?]
  use hseen, hlast.find?, hlast.perm, hlast.metrics_eq
  constructor
  · intro layout'
    apply Served.Agrees.forall₂ hseen
    apply ((refines_empty layout' lifetime).serveAll us).1
  · use layout.index_lt, hshard
    intro i j k e e' hi hj
    obtain ⟨hi, he⟩ := (hshard i k e).1 hi
    obtain ⟨hj, he'⟩ := (hshard j k e').1 hj
    use hi.symm.trans hj, Option.some.inj (he.symm.trans he')

end Cache

end FrameCache
