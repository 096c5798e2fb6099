import FrameCache.Cache
import FrameCache.Proofs.Entries
import Mathlib.Logic.Function.Basic

/-!
# The view of a cache

What the operations of a cache do to the entry of each key and to the lifetime.  An
operation gives at most one key a new entry, and every new entry has the deadline
`now.after lifetime`.
-/

namespace FrameCache

/-- An entry with another deadline. -/
def Entry.postpone {V : Type} (e : Entry V) (d : Instant) : Entry V := { e with deadline := d }

namespace Cache

variable {K V W : Type}

/-! ### Lifetimes and layouts -/

@[simp]
theorem lifetime_takeLapsed (c : Cache K V) (at' : Instant) :
  (c.takeLapsed at').2.lifetime = c.lifetime
  := rfl

@[simp]
theorem lifetime_clear (c : Cache K V) :
  c.clear.2.lifetime = c.lifetime
  := rfl

@[simp]
theorem lifetime_countDeparture (c : Cache K V) (cause : Cause) (v : Option V) :
  (c.countDeparture cause v).lifetime = c.lifetime
  := by
  cases v with
  | none => rfl
  | some v => rfl

@[simp]
theorem layout_countDeparture (c : Cache K V) (cause : Cause) (v : Option V) :
  (c.countDeparture cause v).store.layout = c.store.layout
  := by
  cases v with
  | none => rfl
  | some v => rfl

/-! ### The list of entries -/

/-- No key is listed twice. -/
theorem nodup_keys (c : Cache K V) :
  (c.toList.map Prod.fst).Nodup
  := by
  rw [toList, List.map_map]
  apply c.store.nodup_keys

theorem nodup_lapsedKeys (c : Cache K V) (at' : Instant) :
  ((c.lapsedEntries at').map Prod.fst).Nodup
  := by
  rw [lapsedEntries, List.map_map]
  apply (List.filter_sublist.map _).nodup c.store.nodup_keys

theorem size_eq_length_toList (c : Cache K V) :
  c.size = c.toList.length
  := by
  rw [size, Store.size_eq_length_toList, toList, List.length_map]

variable [DecidableEq K]

/-- A cache without entries finds nothing. -/
theorem toList_eq_nil_iff {c : Cache K V} :
  c.toList = [] ↔ ∀ k, c.store.find? k = none
  := by
  rw [toList, List.map_eq_nil_iff, Store.toList_eq_nil_iff]

@[simp]
theorem lifetime_renew (c : Cache K V) (k : K) (now : Instant) :
  (c.renew k now).lifetime = c.lifetime
  := by
  rw [renew]
  split
  · rfl
  · rfl

@[simp]
theorem lifetime_touch (c : Cache K V) (k : K) (now : Instant) :
  (c.touch k now).2.lifetime = c.lifetime
  := c.lifetime_renew k now

@[simp]
theorem lifetime_get (c : Cache K V) (k : K) (now : Instant) :
  (c.get k now).2.lifetime = c.lifetime
  := by
  rw [get]
  split
  · apply lifetime_renew
  · rfl

@[simp]
theorem lifetime_create (c : Cache K V) (k : K) (now : Instant) (v : V) :
  (c.create k now v).lifetime = c.lifetime
  := lifetime_countDeparture _ _ _

@[simp]
theorem lifetime_insert (c : Cache K V) (k : K) (now : Instant) (v : V) :
  (c.insert k now v).2.lifetime = c.lifetime
  := lifetime_countDeparture _ _ _

@[simp]
theorem lifetime_takeIf (c : Cache K V) (k : K) (cause : Cause) (accept : Entry V → Bool) :
  (c.takeIf k cause accept).2.lifetime = c.lifetime
  := by
  rw [takeIf]
  split
  · rfl
  · rfl

theorem layout_renew (c : Cache K V) (k : K) (now : Instant) :
  (c.renew k now).store.layout = c.store.layout
  := by
  rw [renew]
  split
  · rfl
  · rfl

theorem layout_takeIf (c : Cache K V) (k : K) (cause : Cause) (accept : Entry V → Bool) :
  (c.takeIf k cause accept).2.store.layout = c.store.layout
  := by
  rw [takeIf]
  split
  · rfl
  · rfl

/-! ### Views of one key -/

theorem peek_eq_some_iff {c : Cache K V} {k : K} {now : Instant} {v : V} :
  c.peek k now = some v ↔ ∃ e, c.store.find? k = some e ∧ now < e.deadline ∧ e.value = v
  := by
  simp only [peek, Option.map_eq_some_iff, Option.filter_eq_some_iff, decide_eq_true_eq]
  constructor
  · rintro ⟨e, ⟨h, hlt⟩, hv⟩
    use e, h, hlt
  · rintro ⟨e, h, hlt, hv⟩
    use e, ⟨h, hlt⟩

theorem peek_eq_none_iff {c : Cache K V} {k : K} {now : Instant} :
  c.peek k now = none ↔ ∀ e, c.store.find? k = some e → e.deadline ≤ now
  := by
  rw [Option.eq_none_iff_forall_ne_some]
  constructor
  · intro h e he
    apply Nat.le_of_not_lt
    intro hlt
    apply h e.value
    apply peek_eq_some_iff.2
    use e, he, hlt
  · intro h v hv
    obtain ⟨e, he, hlt, -⟩ := peek_eq_some_iff.1 hv
    apply absurd hlt (Nat.not_lt.2 (h e he))

/-- A value that is alive has not lapsed. -/
theorem lapsed_of_peek_eq_some {c : Cache K V} {k : K} {now : Instant} {v : V}
    (h : c.peek k now = some v) :
  c.lapsed k now = none
  := by
  obtain ⟨e, he, hlt, -⟩ := peek_eq_some_iff.1 h
  have : ¬ e.deadline ≤ now := Nat.not_le.2 hlt
  simp [lapsed, he, Option.filter, this]

/-- A resident value that is not alive has lapsed. -/
theorem lapsed_of_peek_eq_none {c : Cache K V} {k : K} {now : Instant}
    (h : c.peek k now = none) :
  c.lapsed k now = c.resident k
  := by
  rw [lapsed, resident]
  cases he : c.store.find? k with
  | none => rfl
  | some e => simp [Option.filter, peek_eq_none_iff.1 h e he]

/-! ### The entries after an operation -/

theorem find?_place (c : Cache K V) (k k' : K) (now : Instant) (v : V) :
  (c.place k now v).store.find? k'
    = if k' = k then some ⟨v, now.after c.lifetime⟩ else c.store.find? k'
  := Store.find?_insert _ _ _ _

theorem find?_renew (c : Cache K V) (k k' : K) (now : Instant) :
  (c.renew k now).store.find? k'
    = if k' = k then (c.store.find? k).map (·.postpone (now.after c.lifetime))
      else c.store.find? k'
  := by
  cases h : c.store.find? k with
  | none =>
    have hr : c.renew k now = c := by simp [renew, resident, h]
    rw [hr]
    split
    · rename_i hk
      rw [hk]
      apply h
    · rfl
  | some e =>
    have hr : c.renew k now = c.place k now e.value := by simp [renew, resident, h]
    rw [hr]
    apply find?_place

theorem find?_touch (c : Cache K V) (k k' : K) (now : Instant) :
  (c.touch k now).2.store.find? k'
    = if k' = k then (c.store.find? k).map (·.postpone (now.after c.lifetime))
      else c.store.find? k'
  := c.find?_renew k k' now

@[simp]
theorem find?_countDeparture (c : Cache K V) (cause : Cause) (v : Option V) (k : K) :
  (c.countDeparture cause v).store.find? k = c.store.find? k
  := by
  cases v with
  | none => rfl
  | some v => rfl

theorem find?_insert (c : Cache K V) (k k' : K) (now : Instant) (v : V) :
  (c.insert k now v).2.store.find? k'
    = if k' = k then some ⟨v, now.after c.lifetime⟩ else c.store.find? k'
  := by
  rw [insert, find?_countDeparture, find?_place]

theorem find?_create (c : Cache K V) (k k' : K) (now : Instant) (v : V) :
  (c.create k now v).store.find? k'
    = if k' = k then some ⟨v, now.after c.lifetime⟩ else c.store.find? k'
  := by
  rw [create, find?_countDeparture]
  apply find?_place

@[simp]
theorem fst_get (c : Cache K V) (k : K) (now : Instant) :
  (c.get k now).1 = c.peek k now
  := by
  rw [get]
  split
  · rename_i h
    rw [h]
  · rename_i h
    rw [h]

theorem find?_get_of_live (c : Cache K V) (k k' : K) (now : Instant) {v : V}
    (h : c.peek k now = some v) :
  (c.get k now).2.store.find? k'
    = if k' = k then some ⟨v, now.after c.lifetime⟩ else c.store.find? k'
  := by
  obtain ⟨e, he, -, rfl⟩ := peek_eq_some_iff.1 h
  rw [get, h]
  change (c.renew k now).store.find? k' = _
  rw [find?_renew, he]
  rfl

theorem find?_get_of_not_live (c : Cache K V) (k k' : K) (now : Instant)
    (h : c.peek k now = none) :
  (c.get k now).2.store.find? k' = c.store.find? k'
  := by
  rw [get, h]
  rfl

theorem find?_get_of_ne (c : Cache K V) {k k' : K} (now : Instant) (h : k' ≠ k) :
  (c.get k now).2.store.find? k' = c.store.find? k'
  := by
  cases hp : c.peek k now with
  | none => rw [find?_get_of_not_live _ _ _ _ hp]
  | some v => rw [find?_get_of_live _ _ _ _ hp, if_neg h]

theorem fst_takeIf (c : Cache K V) (k : K) (cause : Cause) (accept : Entry V → Bool) :
  (c.takeIf k cause accept).1 = ((c.store.find? k).filter accept).map Entry.value
  := by
  rw [takeIf]
  split
  · rename_i h
    rw [h]
    rfl
  · rename_i h
    rw [h]
    rfl

/-- A value that was taken had an entry that was accepted, and its key is gone. -/
theorem takeIf_eq_some {c : Cache K V} {k : K} {cause : Cause} {accept : Entry V → Bool} {v : V}
    {c' : Cache K V} (h : c.takeIf k cause accept = (some v, c')) :
  ∃ e, c.store.find? k = some e ∧ accept e = true ∧ e.value = v
    ∧ c' = { c with store := c.store.erase k, counters := c.counters.departed cause 1 }
  := by
  rw [takeIf] at h
  split at h
  · rename_i e he
    obtain ⟨he, ha⟩ := Option.filter_eq_some_iff.1 he
    obtain ⟨hv, rfl⟩ := Prod.mk.inj h
    use e, he, ha, Option.some.inj hv
  · simp at h

/-- When nothing was taken, no entry was accepted, and the cache is as before. -/
theorem takeIf_eq_none {c : Cache K V} {k : K} {cause : Cause} {accept : Entry V → Bool}
    {c' : Cache K V} (h : c.takeIf k cause accept = (none, c')) :
  (∀ e, c.store.find? k = some e → accept e = false) ∧ c' = c
  := by
  rw [takeIf] at h
  split at h
  · simp at h
  · rename_i hn
    constructor
    · intro e he
      rw [he] at hn
      simpa using hn
    · apply (Prod.mk.inj h).2.symm

theorem find?_takeLapsed (c : Cache K V) (k : K) (at' : Instant) :
  (c.takeLapsed at').2.store.find? k
    = (c.store.find? k).filter fun e => !(e.deadline ≤ at')
  := Store.find?_filter _ _ _

/-- What is left has a deadline that has not passed. -/
theorem find?_takeLapsed_eq_some {c : Cache K V} {k : K} {at' : Instant} {e : Entry V} :
  (c.takeLapsed at').2.store.find? k = some e ↔ c.store.find? k = some e ∧ at' < e.deadline
  := by
  rw [find?_takeLapsed, Option.filter_eq_some_iff]
  simp [Instant.lt_iff, Instant.le_iff]

/-- The listed entries are the resident values. -/
theorem mem_toList {c : Cache K V} {k : K} {v : V} :
  (k, v) ∈ c.toList ↔ c.resident k = some v
  := by
  simp only [toList, List.mem_map, Prod.exists, Prod.mk.injEq, resident, Option.map_eq_some_iff]
  constructor
  · rintro ⟨k', e, hm, rfl, rfl⟩
    use e, Store.mem_toList.1 hm
  · rintro ⟨e, he, rfl⟩
    use k, e, Store.mem_toList.2 he

/-- The entries that have lapsed are listed with their values. -/
theorem mem_lapsedEntries {c : Cache K V} {at' : Instant} {k : K} {v : V} :
  (k, v) ∈ c.lapsedEntries at' ↔ ∃ e, c.store.find? k = some e ∧ e.deadline ≤ at' ∧ e.value = v
  := by
  simp only [lapsedEntries, List.mem_map, List.mem_filter, Prod.exists, Prod.mk.injEq,
    decide_eq_true_eq]
  constructor
  · rintro ⟨k', e, ⟨hm, hle⟩, rfl, rfl⟩
    use e, Store.mem_toList.1 hm, hle
  · rintro ⟨e, he, hle, rfl⟩
    use k, e, ⟨Store.mem_toList.2 he, hle⟩

/-! ### The resident values after an operation -/

theorem resident_of_find? {c : Cache K V} {k : K} {e : Entry V} (h : c.store.find? k = some e) :
  c.resident k = some e.value
  := by
  rw [resident, h]
  rfl

@[simp]
theorem resident_renew (c : Cache K V) (k : K) (now : Instant) :
  (c.renew k now).resident = c.resident
  := by
  funext k'
  rw [resident, resident, find?_renew]
  split
  · rename_i hk
    rw [hk]
    cases c.store.find? k with
    | none => rfl
    | some e => rfl
  · rfl

@[simp]
theorem resident_get (c : Cache K V) (k : K) (now : Instant) :
  (c.get k now).2.resident = c.resident
  := by
  rw [get]
  split
  · apply resident_renew
  · rfl

theorem resident_create (c : Cache K V) (k : K) (now : Instant) (v : V) :
  (c.create k now v).resident = Function.update c.resident k (some v)
  := by
  funext k'
  rw [resident, find?_create, Function.update_apply]
  split
  · rfl
  · rfl

theorem resident_insert (c : Cache K V) (k : K) (now : Instant) (v : V) :
  (c.insert k now v).2.resident = Function.update c.resident k (some v)
  := by
  funext k'
  rw [resident, find?_insert, Function.update_apply]
  split
  · rfl
  · rfl

theorem find?_takeIf (c : Cache K V) (k k' : K) (cause : Cause) (accept : Entry V → Bool) :
  (c.takeIf k cause accept).2.store.find? k'
    = if k' = k then (c.store.find? k).filter fun e => !accept e else c.store.find? k'
  := by
  cases h : c.takeIf k cause accept with
  | mk v c' =>
    cases v with
    | some v =>
      obtain ⟨e, he, ha, rfl, rfl⟩ := takeIf_eq_some h
      change (c.store.erase k).find? k' = _
      rw [Store.find?_erase, he, Option.filter_some, ha]
      rfl
    | none =>
      obtain ⟨hn, rfl⟩ := takeIf_eq_none h
      split
      · rename_i hk
        rw [hk]
        cases he : c'.store.find? k with
        | none => rfl
        | some e =>
          rw [Option.filter_some, hn e he]
          rfl
      · rfl

/-- What was taken is not resident any more. -/
theorem resident_takeIf_of_some {c : Cache K V} {k : K} {cause : Cause}
    {accept : Entry V → Bool} {v : V} (h : (c.takeIf k cause accept).1 = some v) :
  (c.takeIf k cause accept).2.resident = Function.update c.resident k none
  := by
  cases ht : c.takeIf k cause accept with
  | mk v' c' =>
    rw [ht] at h
    cases h
    obtain ⟨e, -, -, -, rfl⟩ := takeIf_eq_some ht
    funext k'
    change ((c.store.erase k).find? k').map Entry.value = _
    rw [Store.find?_erase, Function.update_apply]
    split
    · rfl
    · rfl

theorem find?_remove (c : Cache K V) (k k' : K) :
  (c.remove k).2.store.find? k' = if k' = k then none else c.store.find? k'
  := by
  rw [remove, find?_takeIf]
  simp

theorem fst_remove (c : Cache K V) (k : K) :
  (c.remove k).1 = c.resident k
  := by
  rw [remove, fst_takeIf, resident]
  cases c.store.find? k with
  | none => rfl
  | some e => rfl

theorem resident_remove (c : Cache K V) (k : K) :
  (c.remove k).2.resident = Function.update c.resident k none
  := by
  funext k'
  rw [resident, find?_remove, Function.update_apply]
  split
  · rfl
  · rfl

@[simp]
theorem lifetime_remove (c : Cache K V) (k : K) :
  (c.remove k).2.lifetime = c.lifetime
  := lifetime_takeIf _ _ _ _

/-- A resident value is listed once. -/
theorem count_toList [DecidableEq V] (c : Cache K V) (k : K) (v : V) :
  c.toList.count (k, v) = (c.resident k).toList.count v
  := by
  have hnodup : c.toList.Nodup := c.nodup_keys.of_map _
  by_cases h : c.resident k = some v
  · rw [List.count_eq_one_of_mem hnodup (mem_toList.2 h), h]
    simp
  · rw [List.count_eq_zero_of_not_mem fun hm => h (mem_toList.1 hm)]
    apply Eq.symm
    apply List.count_eq_zero_of_not_mem
    rw [Option.mem_toList]
    apply h

end Cache

end FrameCache
