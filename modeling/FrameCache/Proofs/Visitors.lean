import FrameCache.Cache.Program
import FrameCache.Proofs.Entries

/-!
# Visitors of a cache

A visitor that never stops is a fold over the copies of the shards, and it deals with every
key that is resident when it starts, also when it changes the cache on its way.

A visitor may also be a client that uses the cache, and what departs meanwhile is reported
like any other departure.  `Program.visitShards` is the program of a client that visits the
entries of shards, and it runs as `Cache.visitShards` does.  With `Listener.quiet`, which never
uses the cache, what departs is reported and nothing else happens.
-/

namespace FrameCache

variable {K V S W α β : Type}

namespace Cache

/-! ### Visitors that never stop -/

variable {view : W → Cache K V} {visit : K → V → W → Bool × W}

theorem visitEntries_of_go (hgo : ∀ k v w, (visit k v w).1 = true) (es : List (K × V)) (w : W) :
  visitEntries visit es w = (true, es.foldl (fun w e => (visit e.1 e.2 w).2) w)
  := by
  induction es generalizing w with
  | nil => rfl
  | cons e es ih =>
    rw [visitEntries]
    split
    · rename_i w' h
      rw [ih, List.foldl_cons, h]
    · rename_i w' h
      have := hgo e.1 e.2 w
      rw [h] at this
      cases this

theorem visitShards_of_go (hgo : ∀ k v w, (visit k v w).1 = true) (is : List Nat) (w : W) :
  visitShards view visit is w
    = (true, is.foldl
        (fun w i => ((view w).snapshot i).foldl (fun w e => (visit e.1 e.2 w).2) w) w)
  := by
  induction is generalizing w with
  | nil => rfl
  | cons i is ih =>
    rw [visitShards, visitEntries_of_go hgo]
    apply ih

/-- What every visit keeps is kept by a visit of all entries. -/
theorem visitAll_invariant {I : W → Prop} (hgo : ∀ k v w, (visit k v w).1 = true)
    (hI : ∀ k v w, I w → I (visit k v w).2) {w : W} (h : I w) :
  I (visitAll view visit w)
  := by
  rw [visitAll, visitShards_of_go hgo]
  apply List.foldlRecOn _ _ h
  intro w hw i _
  apply List.foldlRecOn _ _ hw
  intro w hw e _
  apply hI _ _ _ hw

/-- What one element of a list brings about, and all others keep, holds after a fold. -/
theorem foldl_of_mem {A : Type} {f : W → A → W} {D I : W → Prop} {a : A} {l : List A} {w : W}
    (ha : a ∈ l) (hw : I w) (hI : ∀ w b, I w → I (f w b)) (hkeep : ∀ w b, D w → D (f w b))
    (hfirst : ∀ w, I w → D (f w a)) :
  D (l.foldl f w)
  := by
  induction l generalizing w with
  | nil => cases ha
  | cons b l ih =>
    rcases List.mem_cons.1 ha with rfl | ha
    · apply List.foldlRecOn l f (hfirst w hw)
      intro w hw b _
      apply hkeep w b hw
    · apply ih ha (hI w b hw)

/-- A visitor that only lists what it sees lists the resident entries. -/
theorem visitAll_list (c : Cache K V) :
  visitAll (fun _ => c) (fun k v seen => (true, seen ++ [(k, v)])) [] = c.toList
  := by
  have hentries : ∀ es seen : List (K × V),
      es.foldl (fun seen e => seen ++ [(e.1, e.2)]) seen = seen ++ es := by
    intro es
    induction es with
    | nil => simp
    | cons e es ih => simp [ih]
  have hshards : ∀ (is : List Nat) (seen : List (K × V)),
      is.foldl (fun seen i => seen ++ c.snapshot i) seen = seen ++ is.flatMap c.snapshot := by
    intro is
    induction is with
    | nil => simp
    | cons i is ih => simp [ih]
  have hall : c.store.shards.toList = (List.range c.store.layout.count).map c.store.shard := by
    apply List.ext_getElem
    · simp [c.store.size_shards]
    · intro i hi _
      have hi' : i < c.store.shards.size := hi
      simp [Store.shard, Array.getElem?_eq_getElem hi']
  rw [visitAll, visitShards_of_go fun _ _ _ => rfl]
  simp only [hentries, hshards]
  rw [List.nil_append, toList, Store.toList, hall, List.flatMap_map, List.map_flatMap]
  rfl

variable [DecidableEq K]

/-- The copy of a shard has the resident values of the keys that are spread to it. -/
theorem mem_snapshot_iff {c : Cache K V} {i : Nat} {k : K} {v : V} :
  (k, v) ∈ c.snapshot i ↔ c.store.layout.index k = i ∧ c.resident k = some v
  := by
  simp only [snapshot, List.mem_map, Prod.exists, Prod.mk.injEq, resident, Option.map_eq_some_iff]
  constructor
  · rintro ⟨k', e, hm, rfl, rfl⟩
    obtain ⟨hi, he⟩ := Store.mem_entries_shard.1 hm
    use hi, e
  · rintro ⟨hi, e, he, rfl⟩
    use k, e, Store.mem_entries_shard.2 ⟨hi, he⟩

theorem mem_snapshot {c : Cache K V} {k : K} {e : Entry V} (h : c.store.find? k = some e) :
  (k, e.value) ∈ c.snapshot (c.store.layout.index k)
  := mem_snapshot_iff.2 ⟨rfl, by rw [resident, h, Option.map_some]⟩

section D

variable {D : K → W → Prop} (hvisit : ∀ k v w, D k (visit k v w).2)
  (hkeep : ∀ k k' v w, D k' w → D k' (visit k v w).2)
  (habsent : ∀ k w, (view w).store.find? k = none → D k w)

include hvisit hkeep habsent

/-- A visit of the shard of a key has done with this key. -/
theorem done_foldl_snapshot (w : W) (k : K) :
  D k (((view w).snapshot ((view w).store.layout.index k)).foldl
    (fun w e => (visit e.1 e.2 w).2) w)
  := by
  cases hk : (view w).store.find? k with
  | none =>
    apply List.foldlRecOn _ _ (habsent k w hk)
    intro w hw e _
    apply hkeep _ _ _ _ hw
  | some e =>
    apply foldl_of_mem (I := fun _ => True) (mem_snapshot hk) trivial
    · intro _ _ _
      trivial
    · intro w e hw
      apply hkeep _ _ _ _ hw
    · intro w _
      apply hvisit

/-- A visitor that never stops, and that has done with every key that it visits or that is
not resident, and stays so, ends by having done with all keys. -/
theorem visitAll_done (hgo : ∀ k v w, (visit k v w).1 = true)
    (hlayout : ∀ k v w, (view (visit k v w).2).store.layout = (view w).store.layout) (w : W)
    (k : K) :
  D k (visitAll view visit w)
  := by
  have hindex : (view w).store.layout.index k ∈ List.range (view w).store.layout.count :=
    List.mem_range.2 (Layout.index_lt _ _)
  have hfixed : ∀ (es : List (K × V)) w', (view w').store.layout = (view w).store.layout →
      (view (es.foldl (fun w e => (visit e.1 e.2 w).2) w')).store.layout
        = (view w).store.layout := by
    intro es w' hw'
    apply List.foldlRecOn (motive := fun w' => (view w').store.layout = (view w).store.layout)
      _ _ hw'
    intro w' hw' e _
    rw [hlayout, hw']
  rw [visitAll, visitShards_of_go hgo]
  apply foldl_of_mem (I := fun w' => (view w').store.layout = (view w).store.layout) hindex rfl
  · intro w' i hw'
    apply hfixed _ _ hw'
  · intro w' i hw'
    apply List.foldlRecOn _ _ hw'
    intro w' hw' e _
    apply hkeep _ _ _ _ hw'
  · intro w' hw'
    rw [← hw']
    apply done_foldl_snapshot hvisit hkeep habsent

end D

end Cache

namespace Program

/-- The program that goes on with `f` after `p`. -/
def bind : Program K V α → (α → Program K V β) → Program K V β
  | .done a, f => f a
  | .call now op next, f => .call now op fun reply => (next reply).bind f

/-- The entries in a reply. -/
def entriesOf : Reply K V → List (K × V)
  | .entries es => es
  | _ => []

/-- Visits entries in order until the visitor says to stop.  The visitor keeps a state of
its own. -/
def visitEntries (visit : K → V → S → Program K V (Bool × S)) :
    List (K × V) → S → Program K V (Bool × S)
  | [], s => .done (true, s)
  | (k, v) :: es, s => (visit k v s).bind fun
    | (true, s) => visitEntries visit es s
    | (false, s) => .done (false, s)

/-- Visits the listed shards in order until the visitor says to stop. -/
def visitShards (now : Instant) (visit : K → V → S → Program K V (Bool × S)) :
    List Nat → S → Program K V (Bool × S)
  | [], s => .done (true, s)
  | i :: is, s =>
    .call now (.look fun c => .entries (c.snapshot i)) fun reply =>
      (visitEntries visit (entriesOf reply) s).bind fun
        | (true, s) => visitShards now visit is s
        | (false, s) => .done (false, s)

/-- Visits all entries of a cache with the given layout, and ends with the state of the
visitor. -/
def visitAll (layout : Layout K) (now : Instant) (visit : K → V → S → Program K V (Bool × S))
    (s : S) : Program K V S :=
  (visitShards now visit (List.range layout.count) s).bind fun r => .done r.2

/-! ### How visitors run -/

variable [DecidableEq K] {report : List (Departure K V) → Heard K V → Option (Heard K V)}

theorem run_bind (p : Program K V α) (f : α → Program K V β) (h : Heard K V) :
  (p.bind f).run report h = (p.run report h).bind fun r => (f r.1).run report r.2
  := by
  induction p generalizing h with
  | done a => rfl
  | call now op next ih =>
    simp only [bind, run, ih, Option.bind_assoc]

variable {visit : K → V → S → Program K V (Bool × S)}
  {act : K → V → S × Heard K V → Bool × S × Heard K V}

theorem run_visitEntries
    (hv : ∀ k v s h, (visit k v s).run report h
      = some (((act k v (s, h)).1, (act k v (s, h)).2.1), (act k v (s, h)).2.2))
    (es : List (K × V)) (s : S) (h : Heard K V) :
  (visitEntries visit es s).run report h
    = let r := Cache.visitEntries act es (s, h)
      some ((r.1, r.2.1), r.2.2)
  := by
  induction es generalizing s h with
  | nil => rfl
  | cons e es ih =>
    rw [visitEntries, run_bind, hv, Option.bind_some, Cache.visitEntries]
    obtain ⟨go, s', h'⟩ := act e.1 e.2 (s, h)
    cases go with
    | true => apply ih
    | false => rfl

/-- A visitor whose program comes to its end is run as a visitor of the cache. -/
theorem run_visitShards (hreport : ∀ h, report [] h = some h)
    (hv : ∀ k v s h, (visit k v s).run report h
      = some (((act k v (s, h)).1, (act k v (s, h)).2.1), (act k v (s, h)).2.2))
    (now : Instant) (is : List Nat) (s : S) (h : Heard K V) :
  (visitShards now visit is s).run report h
    = let r := Cache.visitShards (fun w : S × Heard K V => w.2.cache) act is (s, h)
      some ((r.1, r.2.1), r.2.2)
  := by
  induction is generalizing s h with
  | nil => rfl
  | cons i is ih =>
    have he := run_visitEntries hv (h.cache.snapshot i) s h
    rw [visitShards, run, Cache.visitShards]
    change (report [] h).bind _ = _
    rw [hreport, Option.bind_some, run_bind]
    change ((visitEntries visit (h.cache.snapshot i) s).run report h).bind _ = _
    rw [he]
    obtain ⟨go, s', h'⟩ := Cache.visitEntries act (h.cache.snapshot i) (s, h)
    cases go with
    | true => apply ih
    | false => rfl

/-- The visit of all entries as a program is the visit of all entries of the cache. -/
theorem run_visitAll (hreport : ∀ h, report [] h = some h)
    (hv : ∀ k v s h, (visit k v s).run report h
      = some (((act k v (s, h)).1, (act k v (s, h)).2.1), (act k v (s, h)).2.2))
    (now : Instant) (s : S) (h : Heard K V) :
  (visitAll h.cache.store.layout now visit s).run report h
    = some (Cache.visitAll (fun w => w.2.cache) act (s, h))
  := by
  rw [visitAll, run_bind, run_visitShards hreport hv]
  rfl

end Program

/-- When nothing departs nothing is reported. -/
@[simp]
theorem Listener.notify_nil [DecidableEq K] (listener : Listener K V) (depth : Nat)
    (h : Heard K V) :
  listener.notify depth [] h = some h
  := by
  cases depth with
  | zero => rfl
  | succ depth => rfl

/-- The listener that only hears of departures, and never uses the cache. -/
def Listener.quiet : Listener K V := fun _ => .done ()

theorem Listener.notify_quiet [DecidableEq K] (depth : Nat) (departures : List (Departure K V))
    (h : Heard K V) :
  quiet.notify (depth + 1) departures h
    = some { h with reports := departures.reverse ++ h.reports }
  := by
  rw [notify]
  induction departures generalizing h with
  | nil => rfl
  | cons d departures ih =>
    rw [List.foldlM_cons]
    apply (ih { h with reports := d :: h.reports }).trans
    rw [List.reverse_cons, List.append_assoc]
    rfl

/-- A program goes on at once when the listener never uses the cache. -/
theorem Program.runWith_call_quiet [DecidableEq K] (now : Instant) (op : Op K V)
    (next : Reply K V → Program K V α) (depth : Nat) (h : Heard K V) :
  (Program.call now op next).runWith .quiet (depth + 1) h
    = let r := h.cache.perform now op
      (next r.1).runWith .quiet (depth + 1) ⟨r.2.2, r.2.1.reverse ++ h.reports⟩
  := by
  rw [runWith, run]
  dsimp only
  rw [Listener.notify_quiet, Option.bind_some, runWith]

end FrameCache
