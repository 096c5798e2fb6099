import FrameCache.Cache.Program
import FrameCache.Proofs.CacheView

/-!
# What an operation stores, removes and counts

`Cache.stored` lists the values that an operation stores.  What an operation stores is what
becomes resident together with what departs, and the totals of a cache count the lookups
and the departures.
-/

namespace FrameCache

variable {K V α : Type}

/-- The key and the value of a departure. -/
def Departure.entry (d : Departure K V) : K × V := (d.key, d.value)

@[simp]
theorem Departure.map_entry_ofOption (k : K) (cause : Cause) (v : Option V) :
  (Departure.ofOption k cause v).map Departure.entry = v.toList.map (Prod.mk k)
  := by
  cases v with
  | none => rfl
  | some v => rfl

@[simp]
theorem Departure.map_entry_ofEntries (cause : Cause) (es : List (K × V)) :
  (Departure.ofEntries cause es).map Departure.entry = es
  := by
  rw [Departure.ofEntries, List.map_map]
  apply List.map_id

/-- The operation counts as a lookup. -/
def Op.isLookup : Op K V → Bool
  | .get _ | .upsert _ _ => true
  | _ => false

namespace Cache

/-- The entries that are kept and those that have lapsed are all the entries. -/
theorem toList_takeLapsed (c : Cache K V) (at' : Instant) :
  ((c.takeLapsed at').2.toList ++ c.lapsedEntries at').Perm c.toList
  := by
  rw [toList, takeLapsed, Store.toList_filter, lapsedEntries, ← List.map_append]
  apply List.Perm.map
  apply List.Perm.trans List.perm_append_comm
  apply List.filter_append_perm (fun e : K × Entry V => decide (e.2.deadline ≤ at'))

theorem toList_clear (c : Cache K V) :
  c.clear.2.toList = []
  := by
  simp [clear, toList, Store.empty, Store.toList, Table.empty]

@[simp]
theorem toList_countDeparture (c : Cache K V) (cause : Cause) (v : Option V) :
  (c.countDeparture cause v).toList = c.toList
  := by
  cases v with
  | none => rfl
  | some v => rfl

variable [DecidableEq K]

/-- The values that an operation at `now` stores. -/
def stored (c : Cache K V) (now : Instant) : Op K V → List (K × V)
  | .insert k v => [(k, v)]
  | .upsert k (some v) => if (c.peek k now).isNone then [(k, v)] else []
  | _ => []

/-! ### The entries after an operation -/

/-- Storing a value puts it in the place of the value that was resident. -/
theorem toList_place (c : Cache K V) (k : K) (now : Instant) (v : V) :
  ((c.place k now v).toList ++ (c.resident k).toList.map (Prod.mk k)).Perm ((k, v) :: c.toList)
  := by
  have hi := (c.store.toList_insert k ⟨v, now.after c.lifetime⟩).map fun e => (e.1, e.2.value)
  cases h : c.store.find? k with
  | none =>
    have he := (Store.toList_erase_of_find? h).map fun e => (e.1, e.2.value)
    simp only [resident, h, Option.map_none, Option.toList_none, List.map_nil, List.append_nil]
    apply hi.trans
    apply he.cons
  | some e =>
    have he := (Store.toList_of_find? h).map fun e => (e.1, e.2.value)
    simp only [resident, h, Option.map_some, Option.toList_some, List.map_cons, List.map_nil]
    apply List.Perm.trans (hi.append_right _)
    apply List.Perm.cons
    apply List.Perm.trans List.perm_append_comm
    apply he.symm

/-- A renewed value is still the value of its key. -/
theorem toList_renew (c : Cache K V) (k : K) (now : Instant) :
  (c.renew k now).toList.Perm c.toList
  := by
  rw [renew]
  split
  · rename_i v hv
    have h := c.toList_place k now v
    rw [hv] at h
    have hcons : ((k, v) :: c.toList).Perm (c.toList ++ [(k, v)]) :=
      (List.perm_append_singleton _ _).symm
    apply (List.perm_append_right_iff [(k, v)]).1
    apply h.trans hcons
  · rfl

/-- A value that is taken leaves its entry. -/
theorem toList_takeIf (c : Cache K V) (k : K) (cause : Cause) (accept : Entry V → Bool) :
  ((c.takeIf k cause accept).2.toList
    ++ (c.takeIf k cause accept).1.toList.map (Prod.mk k)).Perm c.toList
  := by
  cases h : c.takeIf k cause accept with
  | mk v c' =>
    cases v with
    | none =>
      obtain ⟨-, rfl⟩ := takeIf_eq_none h
      simp
    | some v =>
      obtain ⟨e, he, -, rfl, rfl⟩ := takeIf_eq_some h
      apply List.Perm.trans List.perm_append_comm
      apply ((Store.toList_of_find? he).map fun e => (e.1, e.2.value)).symm

/-- An operation stores what becomes resident and what departs. -/
theorem toList_perform (c : Cache K V) (now : Instant) (op : Op K V) :
  ((c.perform now op).2.2.toList ++ (c.perform now op).2.1.map Departure.entry).Perm
    (c.stored now op ++ c.toList)
  := by
  cases op with
  | look view => simp [perform, performBy, stored]
  | get k =>
    simp only [perform, performBy, stored, get]
    split
    · simpa using! c.toList_renew k now
    · simp [toList, countMiss]
  | upsert k answer =>
    cases hp : c.peek k now with
    | some v =>
      have hn : (answer.bind fun _ => c.lapsed k now) = none := by
        simp [lapsed_of_peek_eq_some hp]
      have hs : c.stored now (.upsert k answer) = [] := by
        cases answer with
        | none => rfl
        | some v => simp [stored, hp]
      simp only [perform, performBy, fetch?, hp, hn, hs]
      simpa [Departure.ofOption] using! c.toList_renew k now
    | none =>
      cases answer with
      | none =>
        simp only [perform, performBy, fetch?, hp, stored]
        simp [Departure.ofOption, toList, countMiss]
      | some v =>
        have ho := lapsed_of_peek_eq_none hp
        simp only [perform, performBy, fetch?, hp, stored, Option.bind_some, ho, create,
          Departure.map_entry_ofOption, toList_countDeparture]
        apply c.toList_place
  | insert k v =>
    simp only [perform, performBy, insert, stored, toList_countDeparture,
      Departure.map_entry_ofOption]
    apply c.toList_place
  | touch k => simpa [perform, performBy, touch, stored] using c.toList_renew k now
  | remove k =>
    simp only [perform, performBy, stored, Departure.map_entry_ofOption]
    apply c.toList_takeIf
  | removeIf k accept =>
    simp only [perform, performBy, stored, Departure.map_entry_ofOption]
    apply c.toList_takeIf
  | removeLapsed k at' =>
    simp only [perform, performBy, stored, Departure.map_entry_ofOption]
    apply c.toList_takeIf
  | takeLapsed at' =>
    simp only [perform, performBy, stored, Departure.map_entry_ofEntries]
    apply c.toList_takeLapsed
  | clear =>
    simp only [perform, performBy, stored, Departure.map_entry_ofEntries, toList_clear]
    rfl

end Cache

/-! ### The totals after an operation -/

namespace Counters

theorem departed_zero (c : Counters) (cause : Cause) :
  c.departed cause 0 = c
  := by
  cases cause with
  | expired => simp [departed]
  | explicit => simp [departed]
  | replaced => simp [departed]
  | cleared => simp [departed]

/-- Departures for one cause are counted together as they are one after the other. -/
theorem departed_departed (c : Counters) (cause : Cause) (n n' : Nat) :
  (c.departed cause n).departed cause n' = c.departed cause (n + n')
  := by
  cases cause <;> simp [departed, UInt64.add_assoc]

@[simp]
theorem hits_departed (c : Counters) (cause : Cause) (n : Nat) :
  (c.departed cause n).hits = c.hits
  := by
  cases cause <;> rfl

@[simp]
theorem misses_departed (c : Counters) (cause : Cause) (n : Nat) :
  (c.departed cause n).misses = c.misses
  := by
  cases cause <;> rfl

/-- A lookup is a hit or a miss. -/
theorem hits_add_misses_of_lookup {c c' : Counters} (h : c' = c.hit ∨ c' = c.miss) :
  c'.hits + c'.misses = c.hits + c.misses + 1
  := by
  rcases h with rfl | rfl
  · change c.hits + 1 + c.misses = _
    rw [UInt64.add_assoc, UInt64.add_comm 1, UInt64.add_assoc]
  · apply (UInt64.add_assoc _ _ _).symm

/-- The totals are those of some departures, lookups aside. -/
structure Tally (c : Counters) (ds : List (Departure K V)) : Prop where
  expired : c.expired = .ofNat (ds.countP fun d => d.cause = .expired)
  removed : c.removed = .ofNat (ds.countP fun d => d.cause = .explicit ∨ d.cause = .cleared)
  replaced : c.replaced = .ofNat (ds.countP fun d => d.cause = .replaced)

/-- Departures for one cause are added to the total of that cause. -/
theorem Tally.departed {c : Counters} {ds new : List (Departure K V)} {cause : Cause}
    (h : c.Tally ds) (hnew : ∀ d ∈ new, d.cause = cause) :
  (c.departed cause new.length).Tally (new ++ ds)
  := by
  have hcount : ∀ p : Cause → Bool,
      (new.countP fun d => p d.cause) = if p cause then new.length else 0 := by
    intro p
    split
    · rename_i hp
      apply List.countP_eq_length.2
      intro d hd
      rw [hnew d hd]
      apply hp
    · rename_i hp
      apply List.countP_eq_zero.2
      intro d hd
      rw [hnew d hd]
      apply hp
  have hexpired := hcount fun c => c = .expired
  have hremoved := hcount fun c => c = .explicit ∨ c = .cleared
  have hreplaced := hcount fun c => c = .replaced
  obtain ⟨he, hr, hp⟩ := h
  constructor
  · rw [List.countP_append, hexpired]
    cases cause <;> simp [Counters.departed, he, UInt64.ofNat_add, UInt64.add_comm]
  · rw [List.countP_append, hremoved]
    cases cause <;> simp [Counters.departed, hr, UInt64.ofNat_add, UInt64.add_comm]
  · rw [List.countP_append, hreplaced]
    cases cause <;> simp [Counters.departed, hp, UInt64.ofNat_add, UInt64.add_comm]

/-- A lookup leaves the other totals as they are. -/
theorem Tally.lookup {c c' : Counters} {ds : List (Departure K V)} (h : c.Tally ds)
    (hc : c' = c.hit ∨ c' = c.miss) :
  c'.Tally ds
  := by
  obtain ⟨he, hr, hp⟩ := h
  rcases hc with rfl | rfl
  · constructor
    · apply he
    · apply hr
    · apply hp
  · constructor
    · apply he
    · apply hr
    · apply hp

end Counters

@[simp]
theorem Departure.length_ofOption (k : K) (cause : Cause) (v : Option V) :
  (Departure.ofOption k cause v).length = v.toList.length
  := List.length_map _

@[simp]
theorem Departure.length_ofEntries (cause : Cause) (es : List (K × V)) :
  (Departure.ofEntries cause es).length = es.length
  := List.length_map _

theorem Departure.cause_of_mem_ofOption {k : K} {cause : Cause} {v : Option V}
    {d : Departure K V} (h : d ∈ Departure.ofOption k cause v) :
  d.cause = cause
  := by
  obtain ⟨v, -, rfl⟩ := List.mem_map.1 h
  rfl

theorem Departure.cause_of_mem_ofEntries {cause : Cause} {es : List (K × V)}
    {d : Departure K V} (h : d ∈ Departure.ofEntries cause es) :
  d.cause = cause
  := by
  obtain ⟨e, -, rfl⟩ := List.mem_map.1 h
  rfl

namespace Cache

theorem counters_countDeparture (c : Cache K V) (cause : Cause) (v : Option V) :
  (c.countDeparture cause v).counters = c.counters.departed cause v.toList.length
  := by
  cases v with
  | none => apply (c.counters.departed_zero cause).symm
  | some v => rfl

variable [DecidableEq K]

@[simp]
theorem counters_renew (c : Cache K V) (k : K) (now : Instant) :
  (c.renew k now).counters = c.counters
  := by
  rw [renew]
  split
  · rfl
  · rfl

theorem counters_takeIf (c : Cache K V) (k : K) (cause : Cause) (accept : Entry V → Bool) :
  (c.takeIf k cause accept).2.counters
    = c.counters.departed cause (c.takeIf k cause accept).1.toList.length
  := by
  rw [takeIf]
  split
  · rfl
  · apply (c.counters.departed_zero cause).symm

/-- An operation counts the lookup that it is and the departures that it causes, all for
one cause. -/
theorem counters_perform (c : Cache K V) (now : Instant) (op : Op K V) :
  ∃ (looked : Counters) (cause : Cause),
    (if op.isLookup then looked = c.counters.hit ∨ looked = c.counters.miss
      else looked = c.counters) ∧
    (∀ d ∈ (c.perform now op).2.1, d.cause = cause) ∧
    (c.perform now op).2.2.counters = looked.departed cause (c.perform now op).2.1.length
  := by
  have hnil : ∀ (looked : Counters) (c' : Cache K V), c'.counters = looked →
      c'.counters = looked.departed .explicit ([] : List (Departure K V)).length := by
    intro looked c' h
    rw [h]
    apply (looked.departed_zero _).symm
  cases op with
  | look view =>
    use c.counters, .explicit, rfl, by simp [perform, performBy]
    apply hnil _ _ rfl
  | get k =>
    cases hp : c.peek k now with
    | some v =>
      simp only [perform, performBy, get, hp]
      use c.counters.hit, .explicit, .inl rfl, by simp
      apply hnil
      simp [countHit]
    | none =>
      simp only [perform, performBy, get, hp]
      use c.counters.miss, .explicit, .inr rfl, by simp
      apply hnil _ _ rfl
  | upsert k answer =>
    cases hp : c.peek k now with
    | some v =>
      have hn : (answer.bind fun _ => c.lapsed k now) = none := by
        simp [lapsed_of_peek_eq_some hp]
      simp only [perform, performBy, fetch?, hp, hn]
      use c.counters.hit, .explicit, .inl rfl, by simp [Departure.ofOption]
      apply hnil
      simp [countHit]
    | none =>
      cases answer with
      | none =>
        simp only [perform, performBy, fetch?, hp]
        use c.counters.miss, .explicit, .inr rfl, by simp [Departure.ofOption]
        apply hnil _ _ rfl
      | some v =>
        simp only [perform, performBy, fetch?, hp, Option.bind_some, lapsed_of_peek_eq_none hp]
        use c.counters.miss, .expired, .inr rfl, fun _ => Departure.cause_of_mem_ofOption
        rw [Departure.length_ofOption]
        apply counters_countDeparture
  | insert k v =>
    use c.counters, .replaced, rfl, fun _ => Departure.cause_of_mem_ofOption
    simp only [perform, performBy, insert, Departure.length_ofOption]
    apply counters_countDeparture
  | touch k =>
    use c.counters, .explicit, rfl, by simp [perform, performBy]
    apply hnil
    apply counters_renew
  | remove k =>
    use c.counters, .explicit, rfl, fun _ => Departure.cause_of_mem_ofOption
    simp only [perform, performBy, Departure.length_ofOption]
    apply counters_takeIf
  | removeIf k accept =>
    use c.counters, .explicit, rfl, fun _ => Departure.cause_of_mem_ofOption
    simp only [perform, performBy, Departure.length_ofOption]
    apply counters_takeIf
  | removeLapsed k at' =>
    use c.counters, .expired, rfl, fun _ => Departure.cause_of_mem_ofOption
    simp only [perform, performBy, Departure.length_ofOption]
    apply counters_takeIf
  | takeLapsed at' =>
    use c.counters, .expired, rfl, fun _ => Departure.cause_of_mem_ofEntries
    simp only [perform, performBy, Departure.length_ofEntries]
    rfl
  | clear =>
    use c.counters, .cleared, rfl, fun _ => Departure.cause_of_mem_ofEntries
    simp only [perform, performBy, Departure.length_ofEntries]
    rfl

end Cache

end FrameCache
