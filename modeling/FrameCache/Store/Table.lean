/-!
# Tables

A `Table` is a finite map, kept as a list of entries whose keys are pairwise distinct.
The order of the entries carries no meaning.  `Table.find?` is the view of a table; each
operation is described by what it does to this view, and `Table.mem_entries` says that
the entries are exactly what can be found.
-/

namespace FrameCache

/-- A finite map from `K` to `V`. -/
structure Table (K V : Type) where
  /-- The keys with their values. -/
  entries : List (K × V)
  /-- No key occurs twice. -/
  nodup : (entries.map Prod.fst).Nodup

namespace Table

variable {K V : Type}

/-- The table without entries. -/
def empty : Table K V := ⟨[], List.nodup_nil⟩

/-- The entries that satisfy `keep`. -/
def filter (t : Table K V) (keep : K → V → Bool) : Table K V :=
  ⟨t.entries.filter fun e => keep e.1 e.2,
    (List.filter_sublist.map Prod.fst).nodup t.nodup⟩

theorem mem_of_mem_filter {t : Table K V} {keep : K → V → Bool} {e : K × V}
    (h : e ∈ (t.filter keep).entries) :
  e ∈ t.entries
  := (List.mem_filter.1 h).1

variable [DecidableEq K]

/-- The value of `k`. -/
def find? (t : Table K V) (k : K) : Option V :=
  (t.entries.find? fun e => e.1 = k).map Prod.snd

/-- The table without `k`. -/
def erase (t : Table K V) (k : K) : Table K V := t.filter fun k' _ => k' ≠ k

/-- The table with the value `v` for `k`. -/
def insert (t : Table K V) (k : K) (v : V) : Table K V :=
  ⟨(k, v) :: (t.erase k).entries, by
    rw [List.map_cons, List.nodup_cons]
    refine ⟨?_, (t.erase k).nodup⟩
    simp [erase, filter]⟩

/-! ### The entries of a table -/

theorem mem_entries {t : Table K V} {k : K} {v : V} :
  (k, v) ∈ t.entries ↔ t.find? k = some v
  := by
  obtain ⟨es, h⟩ := t
  simp only [find?]
  induction es with
  | nil => simp
  | cons e es ih =>
    obtain ⟨k', v'⟩ := e
    rw [List.map_cons, List.nodup_cons] at h
    by_cases hk : k' = k
    · subst hk
      have : (k', v) ∉ es := fun m => h.1 (List.mem_map.2 ⟨_, m, rfl⟩)
      simp [this, eq_comm]
    · have := ih h.2
      simp only [List.mem_cons, Prod.mk.injEq, hk, Ne.symm hk, false_and, false_or, this,
        List.find?_cons, decide_false]

@[simp]
theorem find?_empty (k : K) :
  (empty : Table K V).find? k = none
  := rfl

theorem find?_filter (t : Table K V) (keep : K → V → Bool) (k : K) :
  (t.filter keep).find? k = (t.find? k).filter (keep k)
  := by
  apply Option.ext
  intro v
  rw [← mem_entries, Option.filter_eq_some_iff, ← mem_entries]
  simp [filter]

theorem find?_erase (t : Table K V) (k k' : K) :
  (t.erase k).find? k' = if k' = k then none else t.find? k'
  := by
  rw [erase, find?_filter]
  split <;> rename_i h
  · simp [h]
  · cases t.find? k' <;> simp [h, Option.filter]

theorem find?_insert (t : Table K V) (k k' : K) (v : V) :
  (t.insert k v).find? k' = if k' = k then some v else t.find? k'
  := by
  by_cases h : k' = k
  · simp [find?, insert, h]
  · have := find?_erase t k k'
    simp only [h, if_false] at this ⊢
    rw [← this]
    simp [find?, insert, Ne.symm h]

/-- The keys of a table after storing a value: the new key and all others. -/
theorem mem_entries_insert {t : Table K V} {k : K} {v : V} {e : K × V}
    (h : e ∈ (t.insert k v).entries) :
  e.1 = k ∨ e ∈ t.entries
  := by
  simp only [insert, erase, filter, List.mem_cons, List.mem_filter] at h
  rcases h with h | h
  · simp [h]
  · exact .inr h.1

end Table

end FrameCache
