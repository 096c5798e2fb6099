import FrameCache.Store
import Mathlib.Data.List.Nodup

/-!
# The entries of a store

The list of a store holds each key once, so it is determined up to its order by the view
`Store.find?`.  Storing, erasing and filtering are described here by what they do to this
list: they add an entry, take one out, or keep some.  Erasing a key is filtering, so stores are
equal, and not just alike to the view, whatever the order in which keys are erased.
-/

namespace FrameCache.Store

variable {K V : Type}

/-- No key occurs twice in a store. -/
theorem nodup_keys (s : Store K V) :
  (s.toList.map Prod.fst).Nodup
  := by
  rw [toList, List.map_flatMap, List.nodup_flatMap]
  constructor
  · intro t _
    apply t.nodup
  · -- Keys of different shards have different indices.
    rw [List.pairwise_iff_getElem]
    intro i j hi hj hij k hk hk'
    obtain ⟨e, he, rfl⟩ := List.mem_map.1 hk
    obtain ⟨e', he', h⟩ := List.mem_map.1 hk'
    have hi' := s.index_eq i _ (by simp) e he
    have hj' := s.index_eq j _ (by simp) e' he'
    rw [h] at hj'
    omega

theorem nodup_toList (s : Store K V) :
  s.toList.Nodup
  := s.nodup_keys.of_map _

/-- Filtering a store filters its list. -/
theorem toList_filter (s : Store K V) (keep : K → V → Bool) :
  (s.filter keep).toList = s.toList.filter fun e => keep e.1 e.2
  := by
  simp only [toList, filter, Array.toList_map, List.flatMap_map, List.filter_flatMap]
  rfl

variable [DecidableEq K]

/-- A shard holds exactly what can be found for the keys that are spread to it. -/
theorem mem_entries_shard {s : Store K V} {i : Nat} {k : K} {v : V} :
  (k, v) ∈ (s.shard i).entries ↔ s.layout.index k = i ∧ s.find? k = some v
  := by
  constructor
  · intro h
    have hi : s.layout.index k = i := by
      rw [shard] at h
      cases ht : s.shards[i]? with
      | none => simp [ht, Table.empty] at h
      | some t =>
        rw [ht] at h
        apply s.index_eq i t ht _ h
    use hi
    rw [find?, hi]
    apply Table.mem_entries.1 h
  · rintro ⟨rfl, h⟩
    apply Table.mem_entries.2 h

/-- The list of a store is determined, up to its order, by what can be found. -/
theorem perm_toList {s : Store K V} {l : List (K × V)} (hl : l.Nodup)
    (h : ∀ k v, (k, v) ∈ l ↔ s.find? k = some v) :
  l.Perm s.toList
  := by
  apply (List.perm_ext_iff_of_nodup hl s.nodup_toList).2
  rintro ⟨k, v⟩
  rw [h, mem_toList]

/-- An entry of a key that was erased is not among the others. -/
theorem nodup_cons_erase (s : Store K V) (k : K) (v : V) :
  ((k, v) :: (s.erase k).toList).Nodup
  := by
  rw [List.nodup_cons, mem_toList, find?_erase]
  constructor
  · simp
  · apply nodup_toList

/-- Storing a value puts its entry in front of those of the other keys. -/
theorem toList_insert (s : Store K V) (k : K) (v : V) :
  (s.insert k v).toList.Perm ((k, v) :: (s.erase k).toList)
  := by
  apply List.Perm.symm
  apply perm_toList (s.nodup_cons_erase k v)
  intro k' v'
  rw [List.mem_cons, mem_toList, find?_erase, find?_insert]
  by_cases h : k' = k
  · simp [h, eq_comm]
  · simp [h]

/-- A key that is found stands in front of the other keys. -/
theorem toList_of_find? {s : Store K V} {k : K} {v : V} (h : s.find? k = some v) :
  s.toList.Perm ((k, v) :: (s.erase k).toList)
  := by
  apply List.Perm.symm
  apply perm_toList (s.nodup_cons_erase k v)
  intro k' v'
  rw [List.mem_cons, mem_toList, find?_erase]
  by_cases hk : k' = k
  · simp [hk, h, eq_comm]
  · simp [hk]

/-- Erasing a key that is not found changes nothing. -/
theorem toList_erase_of_find? {s : Store K V} {k : K} (h : s.find? k = none) :
  (s.erase k).toList.Perm s.toList
  := by
  apply perm_toList (nodup_toList _)
  intro k' v
  rw [mem_toList, find?_erase]
  split
  · rename_i hk
    rw [hk, h]
  · rfl

/-- A store without entries finds nothing. -/
theorem toList_eq_nil_iff {s : Store K V} :
  s.toList = [] ↔ ∀ k, s.find? k = none
  := by
  rw [List.eq_nil_iff_forall_not_mem]
  constructor
  · intro h k
    cases hk : s.find? k with
    | none => rfl
    | some v => exact absurd (mem_toList.2 hk) (h (k, v))
  · rintro h ⟨k, v⟩ hm
    rw [mem_toList, h] at hm
    cases hm

end FrameCache.Store

/-! ### Equal stores -/

namespace FrameCache

variable {K V : Type}

theorem Table.ext_entries {t t' : Table K V} (h : t.entries = t'.entries) :
  t = t'
  := by
  cases t
  cases t'
  congr

namespace Store

theorem ext_shards {s s' : Store K V} (hl : s.layout = s'.layout) (hs : s.shards = s'.shards) :
  s = s'
  := by
  cases s
  cases s'
  congr

/-- Filtering twice keeps what satisfies both conditions. -/
theorem filter_filter (s : Store K V) (p q : K → V → Bool) :
  (s.filter p).filter q = s.filter fun k v => p k v && q k v
  := by
  refine ext_shards rfl ?_
  simp only [filter, Array.map_map]
  congr 1
  funext t
  apply Table.ext_entries
  simp [Table.filter, List.filter_filter, Bool.and_comm]

variable [DecidableEq K]

theorem filter_congr {s : Store K V} {p q : K → V → Bool}
    (h : ∀ k v, s.find? k = some v → p k v = q k v) :
  s.filter p = s.filter q
  := by
  refine ext_shards rfl ?_
  apply Array.map_congr_left
  intro t ht
  apply Table.ext_entries
  apply List.filter_congr
  intro e he
  apply h
  apply mem_toList.1
  apply List.mem_flatMap.2
  use t, Array.mem_toList_iff.2 ht, he

theorem filter_eq_self {s : Store K V} {p : K → V → Bool}
    (h : ∀ k v, s.find? k = some v → p k v = true) :
  s.filter p = s
  := by
  rw [filter_congr (q := fun _ _ => true) h]
  refine ext_shards rfl ?_
  simp only [filter]
  apply (Array.map_congr_left _).trans (Array.map_id _)
  intro t _
  apply Table.ext_entries
  simp [Table.filter]

/-- Erasing a key keeps the entries of all others. -/
theorem erase_eq_filter (s : Store K V) (k : K) :
  s.erase k = s.filter fun k' _ => k' ≠ k
  := by
  refine ext_shards rfl ?_
  apply Array.ext_getElem?
  intro i
  simp only [erase, modify, filter, Array.getElem?_modify, Array.getElem?_map]
  split
  · rfl
  · rename_i hi
    cases ht : s.shards[i]? with
    | none => rfl
    | some t =>
      rw [Option.map_some, Option.some_inj]
      apply Table.ext_entries
      apply Eq.symm
      apply List.filter_eq_self.2
      intro e he
      rw [decide_eq_true_eq]
      rintro rfl
      apply hi (s.index_eq i t ht e he)

/-- A value that is stored takes the place of the one before, erased or not. -/
theorem insert_erase (s : Store K V) (k : K) (v : V) :
  (s.erase k).insert k v = s.insert k v
  := by
  refine ext_shards rfl ?_
  apply Array.ext_getElem?
  intro i
  simp only [erase, insert, modify, Array.getElem?_modify]
  split
  · rw [Option.map_map]
    congr 1
    funext t
    apply Table.ext_entries
    simp [Table.insert, Table.erase, Table.filter, List.filter_filter]
  · rfl

end Store

end FrameCache
