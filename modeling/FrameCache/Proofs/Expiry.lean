import FrameCache.Proofs.Departures
import FrameCache.Proofs.Visitors

/-!
# Expiry one by one

The entries whose deadline has passed leave a cache in one sweep, `Cache.takeLapsed`, or one by
one, each by its key: `Program.removeEach`.  Whatever the order in which the keys are taken, both
leave the same cache behind, and the same departures are reported.

A sweep is repeatable: nothing that is left has lapsed by then, and a later sweep takes up where an
earlier one stopped.
-/

namespace FrameCache

variable {K V : Type}

namespace Cache

variable {c : Cache K V} {t t' : Instant}

/-! ### Repeated sweeps -/

/-- What lapses until a later instant has lapsed before, or it lapses after a sweep. -/
theorem lapsedEntries_takeLapsed (h : t ≤ t') :
  (c.lapsedEntries t ++ (c.takeLapsed t).2.lapsedEntries t').Perm (c.lapsedEntries t')
  := by
  let late := c.store.toList.filter fun e => e.2.deadline ≤ t'
  have hfirst : late.filter (fun e => e.2.deadline ≤ t)
      = c.store.toList.filter fun e => e.2.deadline ≤ t := by
    rw [List.filter_filter]
    apply List.filter_congr
    intro e _
    simpa using fun hle => Instant.le_trans hle h
  have hrest : late.filter (fun e => !(e.2.deadline ≤ t))
      = (c.takeLapsed t).2.store.toList.filter fun e => e.2.deadline ≤ t' := by
    rw [takeLapsed, Store.toList_filter, List.filter_filter, List.filter_filter]
    apply List.filter_congr
    intro e _
    apply Bool.and_comm
  rw [lapsedEntries, lapsedEntries, lapsedEntries, ← hfirst, ← hrest, ← List.map_append]
  apply List.Perm.map
  apply List.filter_append_perm (fun e : K × Entry V => decide (e.2.deadline ≤ t))

variable [DecidableEq K]

/-- A sweep takes nothing where nothing has lapsed. -/
theorem takeLapsed_of_live (h : ∀ k e, c.store.find? k = some e → t < e.deadline) :
  c.takeLapsed t = ([], c)
  := by
  have hlapsed : c.lapsedEntries t = [] := by
    apply List.eq_nil_iff_forall_not_mem.2
    rintro ⟨k, v⟩ hm
    obtain ⟨e, he, hle, -⟩ := mem_lapsedEntries.1 hm
    apply Instant.not_le.2 (h k e he) hle
  have hstore : c.store.filter (fun _ e => !(e.deadline ≤ t)) = c.store := by
    apply Store.filter_eq_self
    intro k e he
    simpa using Instant.not_le.2 (h k e he)
  rw [takeLapsed, hlapsed, hstore, List.length_nil, Counters.departed_zero]

/-- A later sweep leaves the same whether there was an earlier one or not. -/
theorem takeLapsed_takeLapsed (h : t ≤ t') :
  ((c.takeLapsed t).2.takeLapsed t').2 = (c.takeLapsed t').2
  := by
  have hstore : (c.store.filter fun _ e => !(e.deadline ≤ t)).filter
      (fun _ e => !(e.deadline ≤ t')) = c.store.filter fun _ e => !(e.deadline ≤ t') := by
    rw [Store.filter_filter]
    apply Store.filter_congr
    intro k e _
    simpa using fun hle he => hle (Instant.le_trans he h)
  have hcount := (c.lapsedEntries_takeLapsed h).length_eq
  rw [List.length_append] at hcount
  change Cache.mk _ _ _ = Cache.mk _ _ _
  congr 1
  change (c.counters.departed .expired (c.lapsedEntries t).length).departed .expired
    ((c.takeLapsed t).2.lapsedEntries t').length = _
  rw [Counters.departed_departed, hcount]

/-! ### One by one -/

/-- The cache without some of the keys, whose entries have lapsed. -/
def withoutLapsed (c : Cache K V) (ks : List K) : Cache K V :=
  { c with
    store := c.store.filter fun k _ => k ∉ ks
    counters := c.counters.departed .expired ks.length }

theorem withoutLapsed_nil :
  c.withoutLapsed [] = c
  := by
  rw [withoutLapsed, List.length_nil, Counters.departed_zero, Store.filter_eq_self]
  simp

theorem withoutLapsed_cons (k : K) (ks : List K) :
  (c.withoutLapsed [k]).withoutLapsed ks = c.withoutLapsed (k :: ks)
  := by
  have hstore : (c.store.filter fun k' _ => k' ∉ [k]).filter (fun k' _ => k' ∉ ks)
      = c.store.filter fun k' _ => k' ∉ k :: ks := by
    rw [Store.filter_filter]
    apply Store.filter_congr
    simp
  rw [withoutLapsed, withoutLapsed, withoutLapsed, hstore, Counters.departed_departed,
    Nat.add_comm]
  rfl

/-- A value that has lapsed is removed with its entry, and its departure is counted. -/
theorem removeLapsed_of_mem {k : K} {v : V} (h : (k, v) ∈ c.lapsedEntries t) :
  c.removeLapsed k t = (some v, c.withoutLapsed [k])
  := by
  obtain ⟨e, he, hle, rfl⟩ := mem_lapsedEntries.1 h
  have hfilter : (c.store.find? k).filter (fun e => e.deadline ≤ t) = some e := by
    rw [he, Option.filter_some, if_pos (decide_eq_true hle)]
  rw [removeLapsed, takeIf, hfilter, Store.erase_eq_filter, withoutLapsed]
  simp only [List.mem_singleton, List.length_singleton]

/-- What has lapsed of the other keys still has. -/
theorem mem_lapsedEntries_withoutLapsed {k k' : K} {v : V} (hk : k' ≠ k)
    (h : (k', v) ∈ c.lapsedEntries t) :
  (k', v) ∈ (c.withoutLapsed [k]).lapsedEntries t
  := by
  obtain ⟨e, he, hle, hv⟩ := mem_lapsedEntries.1 h
  apply mem_lapsedEntries.2
  refine ⟨e, ?_, hle, hv⟩
  rw [withoutLapsed, Store.find?_filter, he, Option.filter_some, if_pos]
  simpa using hk

/-- Without all keys that have lapsed the cache is the one after a sweep. -/
theorem withoutLapsed_eq_takeLapsed {es : List (K × V)} (h : es.Perm (c.lapsedEntries t)) :
  c.withoutLapsed (es.map Prod.fst) = (c.takeLapsed t).2
  := by
  have hstore : c.store.filter (fun k _ => k ∉ es.map Prod.fst)
      = c.store.filter fun _ e => !(e.deadline ≤ t) := by
    apply Store.filter_congr
    intro k e he
    have hmem : k ∈ es.map Prod.fst ↔ e.deadline ≤ t := by
      rw [(h.map Prod.fst).mem_iff, List.mem_map]
      constructor
      · rintro ⟨⟨_, v⟩, hm, rfl⟩
        obtain ⟨e', he', hle, -⟩ := mem_lapsedEntries.1 hm
        cases he.symm.trans he'
        exact hle
      · intro hle
        exact ⟨(k, e.value), mem_lapsedEntries.2 ⟨e, he, hle, rfl⟩, rfl⟩
    rw [decide_not, decide_eq_decide.2 hmem]
  rw [withoutLapsed, hstore, List.length_map, h.length_eq, takeLapsed]

end Cache

namespace Program

/-- The entry of `k` that is handed over in a reply. -/
def entryOf (k : K) : Reply K V → List (K × V)
  | .value (some v) => [(k, v)]
  | _ => []

/-- Removes keys one after the other, each if its deadline has passed at `t`, and hands over the
entries removed. -/
def removeEach (now t : Instant) : List K → Program K V (List (K × V))
  | [] => .done []
  | k :: ks => .call now (.removeLapsed k t) fun reply =>
    (removeEach now t ks).bind fun es => .done (entryOf k reply ++ es)

variable [DecidableEq K]

/-- Each key that has lapsed is removed and reported in its turn. -/
theorem runWith_removeEach (now t : Instant) (depth : Nat) (es : List (K × V)) (h : Heard K V)
    (hn : (es.map Prod.fst).Nodup) (hes : ∀ e ∈ es, e ∈ h.cache.lapsedEntries t) :
  (removeEach now t (es.map Prod.fst)).runWith .quiet (depth + 1) h
    = some (es, ⟨h.cache.withoutLapsed (es.map Prod.fst),
      (Departure.ofEntries .expired es).reverse ++ h.reports⟩)
  := by
  induction es generalizing h with
  | nil =>
    rw [List.map_nil, Cache.withoutLapsed_nil]
    rfl
  | cons e es ih =>
    obtain ⟨k, v⟩ := e
    obtain ⟨hk, hn⟩ := List.nodup_cons.1 hn
    have hremove : h.cache.perform now (.removeLapsed k t)
        = (.value (some v), [⟨k, v, .expired⟩], h.cache.withoutLapsed [k]) := by
      rw [Cache.perform, Cache.performBy, Cache.removeLapsed_of_mem (hes (k, v) List.mem_cons_self)]
      rfl
    have hrest := ih ⟨h.cache.withoutLapsed [k], ⟨k, v, .expired⟩ :: h.reports⟩ hn (by
      rintro ⟨k', v'⟩ he
      apply Cache.mem_lapsedEntries_withoutLapsed
      · rintro rfl
        exact hk (List.mem_map.2 ⟨_, he, rfl⟩)
      · apply hes _ (List.mem_cons_of_mem _ he))
    rw [List.map_cons, removeEach, runWith_call_quiet, hremove]
    dsimp only
    rw [runWith, run_bind]
    change ((removeEach now t (es.map Prod.fst)).runWith _ _ ⟨h.cache.withoutLapsed [k],
      ⟨k, v, .expired⟩ :: h.reports⟩).bind _ = _
    rw [hrest, Option.bind_some, Cache.withoutLapsed_cons]
    simp [run, entryOf, Departure.ofEntries]

end Program

/-- Expiry one by one agrees with the sweep, at whatever instant `t`, when the listener never uses
the cache.  The entries listed as lapsed are those whose deadline is at or before `t`, each once,
and listing them changes nothing.  A sweep removes these and hands them over; taking them one by
one, in any order, hands over the same entries, reports the same departures and leaves the same
cache, its totals included.  What is left has later deadlines and is as it was; an earlier sweep
finds nothing in it, and with a later one the two sweeps together remove what the later one alone
removes. -/
theorem Heard.expiry_agrees [DecidableEq K] (h : Heard K V) (now t : Instant) (depth : Nat) :
  let lapsed := h.cache.lapsedEntries t
  let swept := (h.cache.takeLapsed t).2
  (lapsed.map Prod.fst).Nodup
    ∧ (∀ k v, (k, v) ∈ lapsed
      ↔ ∃ e, h.cache.store.find? k = some e ∧ e.deadline ≤ t ∧ e.value = v)
    ∧ (Program.perform now (.look fun c => .entries (c.lapsedEntries t))).runWith .quiet
        (depth + 1) h = some (.entries lapsed, h)
    ∧ (Program.perform now (.takeLapsed t)).runWith .quiet (depth + 1) h
      = some (.entries lapsed,
        ⟨swept, (Departure.ofEntries .expired lapsed).reverse ++ h.reports⟩)
    ∧ (∀ es : List (K × V), es.Perm lapsed →
      ∃ reports, (Program.removeEach now t (es.map Prod.fst)).runWith .quiet (depth + 1) h
          = some (es, ⟨swept, reports ++ h.reports⟩)
        ∧ reports.Perm (Departure.ofEntries .expired lapsed))
    ∧ (∀ k e, swept.store.find? k = some e ↔ h.cache.store.find? k = some e ∧ t < e.deadline)
    ∧ (∀ t', t' ≤ t → swept.takeLapsed t' = ([], swept))
    ∧ ∀ t', t ≤ t' → ((h.cache.takeLapsed t).1 ++ (swept.takeLapsed t').1).Perm
        (h.cache.takeLapsed t').1
      ∧ (swept.takeLapsed t').2 = (h.cache.takeLapsed t').2
  := by
  intro lapsed swept
  have hnodup : (lapsed.map Prod.fst).Nodup := h.cache.nodup_lapsedKeys t
  refine ⟨hnodup, fun k v => Cache.mem_lapsedEntries, ?listed, ?swept, ?oneByOne,
    fun k e => Cache.find?_takeLapsed_eq_some, ?earlier, ?later⟩
  case listed =>
    rw [Program.perform, Program.runWith_call_quiet]
    rfl
  case swept =>
    rw [Program.perform, Program.runWith_call_quiet]
    rfl
  case oneByOne =>
    intro es hes
    have hlapsed : ∀ e ∈ es, e ∈ h.cache.lapsedEntries t := fun e he => hes.mem_iff.1 he
    have hn : (es.map Prod.fst).Nodup := (hes.map Prod.fst).nodup_iff.2 hnodup
    refine ⟨(Departure.ofEntries .expired es).reverse, ?_, ?_⟩
    · rw [Program.runWith_removeEach now t depth es h hn hlapsed,
        Cache.withoutLapsed_eq_takeLapsed hes]
    · exact (List.reverse_perm _).trans (hes.map _)
  case earlier =>
    intro t' ht
    apply Cache.takeLapsed_of_live
    intro k e he
    exact Nat.lt_of_le_of_lt ht (Cache.find?_takeLapsed_eq_some.1 he).2
  case later =>
    intro t' ht
    exact ⟨Cache.lapsedEntries_takeLapsed ht, Cache.takeLapsed_takeLapsed ht⟩

end FrameCache
