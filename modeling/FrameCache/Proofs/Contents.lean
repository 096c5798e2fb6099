import FrameCache.Proofs.Departures

/-!
# Caches with the same contents

Caches have the `SameContents` if they hold the same entries and have the same totals, whatever
their layouts and whatever the order in which their entries are listed.  `Cache.respread` gives a
cache another layout, and so another order, without changing its contents.

When entries are only removed, all for one cause, the totals follow from the entries that are left:
`Cache.Drained` is this relation, and caches with the same contents have the same contents after it
if the same entries are left.
-/

namespace FrameCache

variable {K V : Type} [DecidableEq K]

/-! ### Another layout -/

namespace Store

/-- Keys that are stored one after the other are found, if none is stored twice. -/
theorem find?_foldl_insert_of_mem {es : List (K × V)} (hn : (es.map Prod.fst).Nodup) {k : K}
    {v : V} (h : (k, v) ∈ es) (s : Store K V) :
  (es.foldl (fun s e => s.insert e.1 e.2) s).find? k = some v
  := by
  obtain ⟨before, after, rfl⟩ := List.append_of_mem h
  rw [List.map_append, List.map_cons] at hn
  have hnot := (List.nodup_cons.1 (List.nodup_middle.1 hn)).1
  rw [List.foldl_append, List.foldl_cons]
  apply List.foldlRecOn (motive := fun s : Store K V => s.find? k = some v)
  · rw [find?_insert, if_pos rfl]
  · intro s' hs e he
    rw [find?_insert, if_neg, hs]
    intro hk
    exact hnot (List.mem_append_right _ (List.mem_map.2 ⟨e, he, hk.symm⟩))

/-- A key is not found if it is not stored. -/
theorem find?_foldl_insert_of_not_mem {es : List (K × V)} {k : K} (h : k ∉ es.map Prod.fst)
    (s : Store K V) :
  (es.foldl (fun s e => s.insert e.1 e.2) s).find? k = s.find? k
  := by
  apply List.foldlRecOn (motive := fun s' : Store K V => s'.find? k = s.find? k) es _ rfl
  intro s' hs e he
  rw [find?_insert, if_neg, hs]
  rintro rfl
  exact h (List.mem_map_of_mem he)

/-- The store with its keys spread by another layout. -/
def respread (s : Store K V) (l : Layout K) : Store K V :=
  s.toList.foldl (fun s e => s.insert e.1 e.2) (.empty l)

theorem find?_respread (s : Store K V) (l : Layout K) (k : K) :
  (s.respread l).find? k = s.find? k
  := by
  cases h : s.find? k with
  | some v => exact find?_foldl_insert_of_mem s.nodup_keys (mem_toList.2 h) _
  | none =>
    rw [respread, find?_foldl_insert_of_not_mem, find?_empty]
    intro hk
    obtain ⟨⟨_, v⟩, hm, rfl⟩ := List.mem_map.1 hk
    rw [mem_toList.1 hm] at h
    cases h

end Store

namespace Cache

/-- The cache with its keys spread by another layout. -/
def respread (c : Cache K V) (l : Layout K) : Cache K V := { c with store := c.store.respread l }

/-! ### The same contents -/

/-- Two caches hold the same entries, deadlines included, and have the same totals. -/
structure SameContents (c c' : Cache K V) : Prop where
  /-- The same entry is found for every key. -/
  find? : ∀ k, c'.store.find? k = c.store.find? k
  /-- Values stay alive for the same time. -/
  lifetime : c'.lifetime = c.lifetime
  /-- The totals are the same. -/
  counters : c'.counters = c.counters

theorem sameContents_respread (c : Cache K V) (l : Layout K) :
  c.SameContents (c.respread l)
  := ⟨c.store.find?_respread l, rfl, rfl⟩

variable {c c' : Cache K V}

/-- The same entries are listed, in some order, if the same are found. -/
theorem perm_of_find? (h : ∀ k, c'.store.find? k = c.store.find? k) :
  c'.store.toList.Perm c.store.toList
  := by
  apply Store.perm_toList c'.store.nodup_toList
  intro k e
  rw [Store.mem_toList, h]

theorem size_eq_of_find? (h : ∀ k, c'.store.find? k = c.store.find? k) :
  c'.size = c.size
  := by
  rw [size, size, Store.size_eq_length_toList, Store.size_eq_length_toList,
    (perm_of_find? h).length_eq]

namespace SameContents

theorem refl (c : Cache K V) :
  c.SameContents c
  := ⟨fun _ => rfl, rfl, rfl⟩

variable (h : c.SameContents c')

include h

theorem toList_perm :
  c'.toList.Perm c.toList
  := (perm_of_find? h.find?).map _

theorem metrics_eq :
  c'.metrics = c.metrics
  := by
  rw [metrics, metrics, h.counters, size_eq_of_find? h.find?]

/-- The same has lapsed. -/
theorem lapsedEntries_perm (t : Instant) :
  (c'.lapsedEntries t).Perm (c.lapsedEntries t)
  := ((perm_of_find? h.find?).filter _).map _

/-- A sweep leaves the same. -/
theorem takeLapsed (t : Instant) :
  (c.takeLapsed t).2.SameContents (c'.takeLapsed t).2
  := by
  refine ⟨?_, h.lifetime, ?_⟩
  · intro k
    rw [find?_takeLapsed, find?_takeLapsed, h.find?]
  · change c'.counters.departed .expired (c'.lapsedEntries t).length
      = c.counters.departed .expired (c.lapsedEntries t).length
    rw [h.counters, (h.lapsedEntries_perm t).length_eq]

end SameContents

/-! ### Draining -/

/-- From the first cache to the second entries are only removed, for one cause, and each is
counted. -/
structure Drained (cause : Cause) (c c' : Cache K V) : Prop where
  /-- Values stay alive for the same time. -/
  lifetime : c'.lifetime = c.lifetime
  /-- The departures counted are the entries removed. -/
  counted : ∃ n, c'.counters = c.counters.departed cause n ∧ c'.size + n = c.size

namespace Drained

variable {cause : Cause} {c'' d d' : Cache K V}

omit [DecidableEq K] in
theorem refl (cause : Cause) (c : Cache K V) :
  Drained cause c c
  := ⟨rfl, 0, (c.counters.departed_zero cause).symm, rfl⟩

omit [DecidableEq K] in
theorem trans (h : Drained cause c c') (h' : Drained cause c' c'') :
  Drained cause c c''
  := by
  obtain ⟨n, hn, hsize⟩ := h.counted
  obtain ⟨n', hn', hsize'⟩ := h'.counted
  refine ⟨h'.lifetime.trans h.lifetime, n + n', ?_, ?_⟩
  · rw [hn', hn, Counters.departed_departed]
  · omega

/-- The contents after draining are the same if the same entries are left. -/
theorem sameContents (h : c.SameContents d) (hc : Drained cause c c') (hd : Drained cause d d')
    (hfind : ∀ k, d'.store.find? k = c'.store.find? k) :
  c'.SameContents d'
  := by
  obtain ⟨n, hn, hsize⟩ := hc.counted
  obtain ⟨n', hn', hsize'⟩ := hd.counted
  have hbefore : d.size = c.size := size_eq_of_find? h.find?
  have hafter : d'.size = c'.size := size_eq_of_find? hfind
  have hcount : n' = n := by omega
  refine ⟨hfind, ?_, ?_⟩
  · rw [hd.lifetime, hc.lifetime, h.lifetime]
  · rw [hn', hn, hcount, h.counters]

end Drained

theorem drained_takeIf (c : Cache K V) (k : K) (cause : Cause) (accept : Entry V → Bool) :
  Drained cause c (c.takeIf k cause accept).2
  := by
  have hlength := (c.toList_takeIf k cause accept).length_eq
  rw [List.length_append, List.length_map, ← size_eq_length_toList, ← size_eq_length_toList]
    at hlength
  refine ⟨c.lifetime_takeIf k cause accept, (c.takeIf k cause accept).1.toList.length, ?_, hlength⟩
  cases h : c.takeIf k cause accept with
  | mk v c' =>
    cases v with
    | none =>
      obtain ⟨-, rfl⟩ := takeIf_eq_none h
      exact (c'.counters.departed_zero cause).symm
    | some v =>
      obtain ⟨_, -, -, -, rfl⟩ := takeIf_eq_some h
      rfl

end Cache

end FrameCache
