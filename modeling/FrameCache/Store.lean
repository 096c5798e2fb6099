import FrameCache.Store.Table

/-!
# Sharded stores

A `Layout` spreads keys over a number of shards: the shard of a key is chosen by the upper
half of its hash.  A `Store` is a finite map that keeps one `Table` per shard, each key in
the table of its own shard.

`Store.find?` is the view of a store, and `Store.toList` lists what can be found, shard by
shard.  Which layout is used makes no difference to the view.
-/

namespace FrameCache

/-- A way to spread keys over shards. -/
structure Layout (K : Type) where
  /-- The number of shards. -/
  count : Nat
  /-- There is at least one shard. -/
  count_pos : 0 < count
  /-- The hash of a key. -/
  hash : K → UInt64

namespace Layout

variable {K : Type}

/-- The shard of a key: the upper half of its hash, masked by the number of shards. -/
def index (l : Layout K) (k : K) : Nat := (l.hash k >>> 32).toNat &&& (l.count - 1)

theorem index_lt (l : Layout K) (k : K) :
  l.index k < l.count
  := by
  have h : l.index k ≤ l.count - 1 := Nat.and_le_right
  have := l.count_pos
  omega

end Layout

/-- A finite map from `K` to `V`, spread over shards. -/
structure Store (K V : Type) where
  /-- How the keys are spread. -/
  layout : Layout K
  /-- The shards. -/
  shards : Array (Table K V)
  /-- There are as many shards as the layout has. -/
  size_shards : shards.size = layout.count
  /-- Every key is in its own shard. -/
  index_eq : ∀ (i : Nat) (t : Table K V), shards[i]? = some t →
    ∀ e ∈ t.entries, layout.index e.1 = i

namespace Store

variable {K V : Type}

/-- The store without entries. -/
def empty (l : Layout K) : Store K V where
  layout := l
  shards := Array.replicate l.count .empty
  size_shards := Array.size_replicate
  index_eq i t h := by
    rw [Array.getElem?_replicate] at h
    split at h
    · cases h
      simp [Table.empty]
    · cases h

/-- The `i`-th shard. -/
def shard (s : Store K V) (i : Nat) : Table K V := (s.shards[i]?).getD .empty

/-- The entries, shard by shard. -/
def toList (s : Store K V) : List (K × V) := s.shards.toList.flatMap Table.entries

/-- The number of entries. -/
def size (s : Store K V) : Nat := s.shards.toList.foldl (fun n t => n + t.entries.length) 0

/-- The entries that satisfy `keep`. -/
def filter (s : Store K V) (keep : K → V → Bool) : Store K V where
  layout := s.layout
  shards := s.shards.map (·.filter keep)
  size_shards := by rw [Array.size_map, s.size_shards]
  index_eq i t h e he := by
    rw [Array.getElem?_map, Option.map_eq_some_iff] at h
    obtain ⟨t', h, rfl⟩ := h
    exact s.index_eq i t' h e (Table.mem_of_mem_filter he)

/-- The store with the shard of `k` changed by `f`, which adds no key but `k`. -/
def modify (s : Store K V) (k : K) (f : Table K V → Table K V)
    (hf : ∀ t, ∀ e ∈ (f t).entries, e.1 = k ∨ e ∈ t.entries) : Store K V where
  layout := s.layout
  shards := s.shards.modify (s.layout.index k) f
  size_shards := by rw [Array.size_modify, s.size_shards]
  index_eq i t h e he := by
    rw [Array.getElem?_modify] at h
    split at h
    · rename_i hi
      rw [Option.map_eq_some_iff] at h
      obtain ⟨t', h, rfl⟩ := h
      rcases hf t' e he with hk | hm
      · rw [hk, hi]
      · exact s.index_eq i t' h e hm
    · exact s.index_eq i t h e he

theorem size_eq_length_toList (s : Store K V) :
  s.size = s.toList.length
  := by
  have h : ∀ (ts : List (Table K V)) (n : Nat),
      ts.foldl (fun n t => n + t.entries.length) n = n + (ts.flatMap Table.entries).length := by
    intro ts
    induction ts with
    | nil => simp
    | cons t ts ih =>
      intro n
      rw [List.foldl_cons, ih, List.flatMap_cons, List.length_append, Nat.add_assoc]
  rw [size, h, Nat.zero_add, toList]

theorem index_lt_size (s : Store K V) (k : K) :
  s.layout.index k < s.shards.size
  := by
  rw [s.size_shards]
  apply s.layout.index_lt

theorem shard_modify (s : Store K V) (k : K) (f : Table K V → Table K V)
    (hf : ∀ t, ∀ e ∈ (f t).entries, e.1 = k ∨ e ∈ t.entries) :
  (s.modify k f hf).shard (s.layout.index k) = f (s.shard (s.layout.index k))
  := by
  have h := s.index_lt_size k
  simp [shard, modify, Array.getElem?_modify, Array.getElem?_eq_getElem h]

theorem shard_modify_of_ne (s : Store K V) (k : K) (f : Table K V → Table K V)
    (hf : ∀ t, ∀ e ∈ (f t).entries, e.1 = k ∨ e ∈ t.entries) {i : Nat}
    (hi : i ≠ s.layout.index k) :
  (s.modify k f hf).shard i = s.shard i
  := by
  simp [shard, modify, Array.getElem?_modify, Ne.symm hi]

variable [DecidableEq K]

/-- The value of `k`. -/
def find? (s : Store K V) (k : K) : Option V := (s.shard (s.layout.index k)).find? k

/-- The store with the value `v` for `k`. -/
def insert (s : Store K V) (k : K) (v : V) : Store K V :=
  s.modify k (·.insert k v) fun _ _ => Table.mem_entries_insert

/-- The store without `k`. -/
def erase (s : Store K V) (k : K) : Store K V :=
  s.modify k (·.erase k) fun _ _ h => .inr (Table.mem_of_mem_filter h)

/-! ### The view of a store -/

@[simp]
theorem find?_empty (l : Layout K) (k : K) :
  (empty l : Store K V).find? k = none
  := by
  have h := l.index_lt k
  simp [find?, shard, empty, h]

theorem find?_insert (s : Store K V) (k k' : K) (v : V) :
  (s.insert k v).find? k' = if k' = k then some v else s.find? k'
  := by
  by_cases hi : s.layout.index k' = s.layout.index k
  · have h := s.shard_modify k (·.insert k v) fun _ _ => Table.mem_entries_insert
    rw [← hi] at h
    change ((s.insert k v).shard (s.layout.index k')).find? k' = _
    rw [insert, h, Table.find?_insert, find?]
  · have h := s.shard_modify_of_ne k (·.insert k v) (fun _ _ => Table.mem_entries_insert) hi
    have hk : k' ≠ k := fun e => hi (e ▸ rfl)
    change ((s.insert k v).shard (s.layout.index k')).find? k' = _
    rw [insert, h, if_neg hk, find?]

theorem find?_erase (s : Store K V) (k k' : K) :
  (s.erase k).find? k' = if k' = k then none else s.find? k'
  := by
  by_cases hi : s.layout.index k' = s.layout.index k
  · have h := s.shard_modify k (·.erase k) fun _ _ h => .inr (Table.mem_of_mem_filter h)
    rw [← hi] at h
    change ((s.erase k).shard (s.layout.index k')).find? k' = _
    rw [erase, h, Table.find?_erase, find?]
  · have h := s.shard_modify_of_ne k (·.erase k)
      (fun _ _ h => .inr (Table.mem_of_mem_filter h)) hi
    have hk : k' ≠ k := fun e => hi (e ▸ rfl)
    change ((s.erase k).shard (s.layout.index k')).find? k' = _
    rw [erase, h, if_neg hk, find?]

theorem find?_filter (s : Store K V) (keep : K → V → Bool) (k : K) :
  (s.filter keep).find? k = (s.find? k).filter (keep k)
  := by
  have h := s.index_lt_size k
  simp [find?, shard, filter, Array.getElem?_eq_getElem h, Table.find?_filter]

/-- The list of a store holds exactly what can be found. -/
theorem mem_toList {s : Store K V} {k : K} {v : V} :
  (k, v) ∈ s.toList ↔ s.find? k = some v
  := by
  simp only [toList, List.mem_flatMap]
  constructor
  · rintro ⟨t, ht, he⟩
    obtain ⟨i, hi⟩ := Array.mem_iff_getElem?.1 (Array.mem_toList_iff.1 ht)
    have := s.index_eq i t hi (k, v) he
    simp only at this
    rw [find?, this, shard, hi]
    exact Table.mem_entries.1 he
  · intro h
    have hl := s.index_lt_size k
    refine ⟨s.shard (s.layout.index k), ?_, Table.mem_entries.2 h⟩
    rw [shard, Array.getElem?_eq_getElem hl]
    apply List.getElem_mem

end Store

end FrameCache
