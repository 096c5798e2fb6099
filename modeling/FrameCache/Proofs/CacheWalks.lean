import FrameCache.Proofs.Uses

/-!
# Walks over a cache that changes

A visitor may change the cache whose entries it visits: a shard is copied when the walk comes to
it, so the visits of earlier shards have an effect on the copy.  `Cache.worldAt` is the world at
that moment, and `Cache.copies` are the entries copied up to then.

`Cache.visitRecorded` is a visit of all entries by a visitor that writes its calls down.  By
`Cache.exists_calls` the calls are for the first of the copied entries, all of them unless the
visitor stops.  As a key is in one shard only, whatever the visitor stores, and each shard is copied
once, no key is copied twice.
-/

namespace FrameCache.Cache

variable {K V W S : Type}

/-- A call of a visitor. -/
structure VisitorCall (K V W : Type) where
  /-- The key of the visited entry. -/
  key : K
  /-- The value of the visited entry. -/
  value : V
  /-- The visitor says to go on. -/
  goesOn : Bool
  /-- The world after the call. -/
  after : W

/-- The visited entry. -/
def VisitorCall.entry (call : VisitorCall K V W) : K × V := (call.key, call.value)

/-- The visitor `visit`, which also writes its calls down, the latest last. -/
def recording (visit : K → V → W → Bool × W) (k : K) (v : V)
    (r : W × List (VisitorCall K V W)) : Bool × W × List (VisitorCall K V W) :=
  let (goesOn, w) := visit k v r.1
  (goesOn, w, r.2 ++ [⟨k, v, goesOn, w⟩])

/-- The world after a visit of all entries, and the calls of the visitor. -/
def visitRecorded (view : W → Cache K V) (visit : K → V → W → Bool × W) (w : W) :
    W × List (VisitorCall K V W) :=
  visitAll (fun r => view r.1) (recording visit) (w, [])

/-- The world in which the walk comes to the `i`-th shard and copies it. -/
def worldAt (view : W → Cache K V) (visit : K → V → W → Bool × W) (w : W) (i : Nat) : W :=
  (visitShards view visit (List.range i) w).2

variable {view : W → Cache K V} {visit : K → V → W → Bool × W}

/-! ### Shards one after the other -/

theorem visitShards_append (is js : List Nat) (w : W) :
  visitShards view visit (is ++ js) w
    = match visitShards view visit is w with
      | (true, w) => visitShards view visit js w
      | (false, w) => (false, w)
  := by
  induction is generalizing w with
  | nil => rfl
  | cons i is ih =>
    rw [List.cons_append, visitShards, visitShards]
    cases visitEntries visit ((view w).snapshot i) w with
    | mk goesOn w' =>
      cases goesOn with
      | true => apply ih
      | false => rfl

/-- The visits of one more shard, when the visitor has not said to stop. -/
theorem visitShards_range_succ (n : Nat) (w : W) :
  visitShards view visit (List.range (n + 1)) w
    = match visitShards view visit (List.range n) w with
      | (true, w) => visitEntries visit ((view w).snapshot n) w
      | (false, w) => (false, w)
  := by
  rw [List.range_succ, visitShards_append]
  cases visitShards view visit (List.range n) w with
  | mk goesOn w' =>
    cases goesOn with
    | false => rfl
    | true =>
      dsimp only
      rw [visitShards]
      cases visitEntries visit ((view w').snapshot n) w' with
      | mk goesOn w' =>
        cases goesOn with
        | true => rfl
        | false => rfl

section Layout

variable (hlayout : ∀ k v w, (view (visit k v w).2).store.layout = (view w).store.layout)

include hlayout

theorem layout_visitEntries (es : List (K × V)) (w : W) :
  (view (visitEntries visit es w).2).store.layout = (view w).store.layout
  := by
  induction es generalizing w with
  | nil => rfl
  | cons e es ih =>
    have h := hlayout e.1 e.2 w
    rw [visitEntries]
    cases hv : visit e.1 e.2 w with
    | mk goesOn w' =>
      rw [hv] at h
      cases goesOn with
      | true => apply (ih w').trans h
      | false => exact h

theorem layout_worldAt (w : W) (n : Nat) :
  (view (worldAt view visit w n)).store.layout = (view w).store.layout
  := by
  induction n with
  | zero => rfl
  | succ n ih =>
    rw [worldAt] at ih ⊢
    rw [visitShards_range_succ]
    cases hs : visitShards view visit (List.range n) w with
    | mk goesOn w' =>
      rw [hs] at ih
      cases goesOn with
      | true => exact (layout_visitEntries hlayout _ w').trans ih
      | false => exact ih

end Layout

/-! ### The calls of a visitor -/

/-- The calls of a visitor that is run on a list of entries from the world `w`, and ends with
`r`. -/
structure EntryCalls (es : List (K × V)) (w : W) (r : Bool × W)
    (calls : List (VisitorCall K V W)) : Prop where
  /-- The first entries are visited. -/
  initial : calls.map VisitorCall.entry <+: es
  /-- All are visited, unless the visitor stops. -/
  complete : r.1 = true → calls.map VisitorCall.entry = es
  /-- Only the last call may stop the walk. -/
  lastStops : calls.Pairwise fun call _ => call.goesOn = true
  /-- The walk goes on if every call says so. -/
  goesOn : r.1 = calls.all VisitorCall.goesOn
  /-- Nothing but the calls changes the world. -/
  world : r.2 = w ∨ ∃ call ∈ calls, call.after = r.2

namespace EntryCalls

variable {es es' : List (K × V)} {w w' : W} {r : Bool × W} {calls new : List (VisitorCall K V W)}

theorem nil (w : W) :
  EntryCalls ([] : List (K × V)) w (true, w) []
  := ⟨List.prefix_rfl, fun _ => rfl, .nil, rfl, .inl rfl⟩

/-- After a visitor that stops no entry is visited. -/
theorem append_of_stopped (h : EntryCalls es w (false, w') calls) (es' : List (K × V)) :
  EntryCalls (es ++ es') w (false, w') calls
  := ⟨h.initial.trans (List.prefix_append es es'), nofun, h.lastStops, h.goesOn, h.world⟩

/-- Until the visitor stops, the next entries are visited. -/
theorem append_of_goesOn (h : EntryCalls es w (true, w') calls) (hnew : EntryCalls es' w' r new) :
  EntryCalls (es ++ es') w r (calls ++ new)
  := by
  have hes : calls.map VisitorCall.entry = es := h.complete rfl
  have hall : calls.all VisitorCall.goesOn = true := h.goesOn.symm
  constructor
  case initial =>
    rw [List.map_append, hes]
    exact (List.prefix_append_right_inj es).2 hnew.initial
  case complete =>
    intro hr
    rw [List.map_append, hes, hnew.complete hr]
  case lastStops =>
    apply List.pairwise_append.2
    exact ⟨h.lastStops, hnew.lastStops, fun call hm _ _ => List.all_eq_true.1 hall call hm⟩
  case goesOn =>
    rw [hnew.goesOn, List.all_append, hall, Bool.true_and]
  case world =>
    rcases hnew.world with hr | ⟨call, hm, hr⟩
    · rcases h.world with hw | ⟨call, hm, hw⟩
      · exact .inl (hr.trans hw)
      · exact .inr ⟨call, List.mem_append_left _ hm, hw.trans hr.symm⟩
    · exact .inr ⟨call, List.mem_append_right _ hm, hr⟩

end EntryCalls

/-- The calls for some entries are written down behind those before. -/
theorem exists_entryCalls (visit : K → V → W → Bool × W) (es : List (K × V)) (w : W)
    (before : List (VisitorCall K V W)) :
  ∃ calls, visitEntries (recording visit) es (w, before)
      = ((visitEntries visit es w).1, (visitEntries visit es w).2, before ++ calls)
    ∧ EntryCalls es w (visitEntries visit es w) calls
  := by
  induction es generalizing w before with
  | nil =>
    refine ⟨[], ?_, .nil w⟩
    rw [List.append_nil]
    rfl
  | cons e es ih =>
    obtain ⟨k, v⟩ := e
    rw [visitEntries, visitEntries, recording]
    cases visit k v w with
    | mk goesOn w' =>
      let call : VisitorCall K V W := ⟨k, v, goesOn, w'⟩
      have hcall : EntryCalls [(k, v)] w (goesOn, w') [call] := by
        refine ⟨List.prefix_rfl, fun _ => rfl, List.pairwise_singleton _ _, ?_, ?_⟩
        · rw [List.all_cons, List.all_nil, Bool.and_true]
        · exact .inr ⟨call, List.mem_singleton_self call, rfl⟩
      cases goesOn with
      | false => exact ⟨[call], rfl, hcall.append_of_stopped es⟩
      | true =>
        obtain ⟨calls, hrun, hcalls⟩ := ih w' (before ++ [call])
        refine ⟨call :: calls, ?_, hcall.append_of_goesOn hcalls⟩
        apply hrun.trans
        rw [List.append_assoc]
        rfl

/-! ### The copies of the shards -/

/-- The entries of the first `n` shards, each as it is copied. -/
def copies (view : W → Cache K V) (visit : K → V → W → Bool × W) (w : W) (n : Nat) :
    List (K × V) :=
  (List.range n).flatMap fun i => (view (worldAt view visit w i)).snapshot i

theorem copies_succ (w : W) (n : Nat) :
  copies view visit w (n + 1)
    = copies view visit w n ++ (view (worldAt view visit w n)).snapshot n
  := by
  rw [copies, List.range_succ, List.flatMap_append, List.flatMap_singleton]
  rfl

/-- A visitor that writes its calls down is run as it is without.  Its calls are for what is copied,
and the shards are copied at the start or after a call. -/
theorem exists_calls (view : W → Cache K V) (visit : K → V → W → Bool × W) (w : W) (n : Nat) :
  ∃ calls, visitShards (fun r => view r.1) (recording visit) (List.range n) (w, [])
      = ((visitShards view visit (List.range n) w).1, worldAt view visit w n, calls)
    ∧ EntryCalls (copies view visit w n) w (visitShards view visit (List.range n) w) calls
    ∧ ∀ i ≤ n, worldAt view visit w i = w
      ∨ ∃ call ∈ calls, call.after = worldAt view visit w i
  := by
  induction n with
  | zero =>
    refine ⟨[], rfl, .nil w, ?_⟩
    intro i hi
    rw [Nat.le_zero.1 hi]
    exact .inl rfl
  | succ n ih =>
    obtain ⟨calls, hrun, hcalls, hcopied⟩ := ih
    have hlater : ∀ {es : List (K × V)} {calls' : List (VisitorCall K V W)}, calls ⊆ calls' →
        EntryCalls es w (visitShards view visit (List.range (n + 1)) w) calls' →
        ∀ i ≤ n + 1, worldAt view visit w i = w
          ∨ ∃ call ∈ calls', call.after = worldAt view visit w i := by
      intro es calls' hsub hcalls' i hi
      rcases Nat.le_succ_iff.1 hi with hi | rfl
      · rcases hcopied i hi with h | ⟨call, hm, h⟩
        · exact .inl h
        · exact .inr ⟨call, hsub hm, h⟩
      · exact hcalls'.world
    rw [visitShards_range_succ, hrun, copies_succ, worldAt]
    cases hs : visitShards view visit (List.range n) w with
    | mk goesOn w' =>
      rw [hs] at hcalls
      cases goesOn with
      | false =>
        have hstep : visitShards view visit (List.range (n + 1)) w = (false, w') := by
          rw [visitShards_range_succ, hs]
        rw [hstep] at hlater
        rw [worldAt, hstep]
        have hcalls' := hcalls.append_of_stopped ((view w').snapshot n)
        exact ⟨calls, rfl, hcalls', hlater (List.Subset.refl calls) hcalls'⟩
      | true =>
        have hstep : visitShards view visit (List.range (n + 1)) w
            = visitEntries visit ((view w').snapshot n) w' := by
          rw [visitShards_range_succ, hs]
        obtain ⟨new, hnew, he⟩ := exists_entryCalls visit ((view w').snapshot n) w' calls
        rw [hstep] at hlater
        rw [worldAt, hstep]
        have hcalls' := hcalls.append_of_goesOn he
        exact ⟨calls ++ new, hnew, hcalls', hlater (List.subset_append_left calls new) hcalls'⟩

variable [DecidableEq K]

/-- A key that is visited is visited once, if no key is visited twice. -/
theorem countP_key_eq_one {calls : List (VisitorCall K V W)}
    (hn : (calls.map VisitorCall.key).Nodup) {k : K} (hk : k ∈ calls.map VisitorCall.key) :
  calls.countP (fun call => call.key = k) = 1
  := by
  have hcount := List.count_eq_one_of_mem hn hk
  rw [List.count, List.countP_map] at hcount
  rw [← hcount]
  apply List.countP_congr
  intro call _
  simp

section Layout

variable (hlayout : ∀ k v w, (view (visit k v w).2).store.layout = (view w).store.layout) (w : W)
  (n : Nat)

include hlayout

/-- What is copied from a shard is in the shard of its key. -/
theorem index_of_mem_snapshot {i : Nat} {e : K × V}
    (h : e ∈ (view (worldAt view visit w n)).snapshot i) :
  (view w).store.layout.index e.1 = i
  := by
  rw [← layout_worldAt hlayout w n]
  exact (mem_snapshot_iff.1 h).1

/-- What is copied is resident when the shard of its key is. -/
theorem mem_copies {k : K} {v : V} :
  (k, v) ∈ copies view visit w n
    ↔ (view w).store.layout.index k < n
      ∧ (view (worldAt view visit w ((view w).store.layout.index k))).resident k = some v
  := by
  simp only [copies, List.mem_flatMap, List.mem_range, mem_snapshot_iff, layout_worldAt hlayout]
  constructor
  · rintro ⟨i, hi, rfl, hv⟩
    exact ⟨hi, hv⟩
  · rintro ⟨hi, hv⟩
    exact ⟨_, hi, rfl, hv⟩

/-- Shards are copied one after the other. -/
theorem ascending_copies :
  (copies view visit w n).Pairwise fun e e' =>
    (view w).store.layout.index e.1 ≤ (view w).store.layout.index e'.1
  := by
  induction n with
  | zero => exact .nil
  | succ n ih =>
    rw [copies_succ]
    apply List.pairwise_append.2
    refine ⟨ih, ?_, ?_⟩
    · apply List.pairwise_of_forall_mem_list
      intro e he e' he'
      exact Nat.le_of_eq ((index_of_mem_snapshot hlayout w n he).trans
        (index_of_mem_snapshot hlayout w n he').symm)
    · intro e he e' he'
      rw [index_of_mem_snapshot hlayout w n he']
      exact Nat.le_of_lt ((mem_copies hlayout w n).1 he).1

/-- No key is copied twice, whatever is stored meanwhile: its shard is copied once. -/
theorem nodup_keys_copies :
  ((copies view visit w n).map Prod.fst).Nodup
  := by
  induction n with
  | zero => exact .nil
  | succ n ih =>
    rw [copies_succ, List.map_append]
    apply List.Nodup.append ih
    · rw [snapshot, List.map_map]
      exact Table.nodup _
    · intro k hk hk'
      obtain ⟨e, he, rfl⟩ := List.mem_map.1 hk
      obtain ⟨e', he', heq⟩ := List.mem_map.1 hk'
      have hlt := ((mem_copies hlayout w n).1 he).1
      rw [← heq, index_of_mem_snapshot hlayout w n he'] at hlt
      exact Nat.lt_irrefl n hlt

end Layout

/-! ### Visitors that use the cache -/

/-- A visitor that uses the cache whose entries it visits.  From the entry, a state of its own and
the cache it chooses the uses, whether to go on, and its next state. -/
def visitorOf (act : K → V → S → Cache K V → List (Instant × Use K V) × Bool × S) (k : K) (v : V)
    (w : S × Cache K V) : Bool × S × Cache K V :=
  let (uses, goesOn, s) := act k v w.1 w.2
  (goesOn, s, (w.2.serveAll uses).2)

/-- A visit of all entries is not disturbed by a visitor that uses the cache, however it does so.
No key is visited twice, and a key that is resident at the start and after every call is visited
once unless the visitor stops.  Shards are visited one after the other, and a visited value is
resident under its key when its shard is copied.  After a call that says to stop there is no other.
All in all the calls are for the first of the copied entries, and so there are no more of them. -/
theorem visitAll_while_used
    (act : K → V → S → Cache K V → List (Instant × Use K V) × Bool × S) (s : S) (c : Cache K V) :
  let visited := visitRecorded Prod.snd (visitorOf act) (s, c)
  let calls := visited.2
  let shardOf := c.store.layout.index
  let copied := fun i => (worldAt Prod.snd (visitorOf act) (s, c) i).2
  visited.1 = visitAll Prod.snd (visitorOf act) (s, c)
    ∧ (calls.map VisitorCall.key).Nodup
    ∧ (∀ k, c.contains k = true → (∀ call ∈ calls, call.after.2.contains k = true) →
      calls.countP (fun call => call.key = k) = 1 ∨ ∃ call ∈ calls, call.goesOn = false)
    ∧ calls.Pairwise (fun call later => shardOf call.key ≤ shardOf later.key)
    ∧ (∀ call ∈ calls, (copied (shardOf call.key)).resident call.key = some call.value)
    ∧ calls.Pairwise (fun call _ => call.goesOn = true)
    ∧ calls.map VisitorCall.entry
      <+: (List.range c.store.layout.count).flatMap fun i => (copied i).snapshot i
  := by
  intro visited calls shardOf copied
  let n := c.store.layout.count
  have hlayout : ∀ k v (w : S × Cache K V),
      (visitorOf act k v w).2.2.store.layout = w.2.store.layout :=
    fun k v w => w.2.layout_serveAll _
  have hindex : ∀ k, shardOf k < n := c.store.layout.index_lt
  obtain ⟨calls', hrun, hcalls, hcopied⟩ := exists_calls Prod.snd (visitorOf act) (s, c) n
  have hvisited : visited = (visitAll Prod.snd (visitorOf act) (s, c), calls') :=
    congrArg Prod.snd hrun
  have hsame : calls = calls' := congrArg Prod.snd hvisited
  rw [← hsame] at hcalls hcopied
  have hsublist := hcalls.initial.sublist
  have hnodup : (calls.map VisitorCall.key).Nodup := by
    have hkeys := (hsublist.map Prod.fst).nodup (nodup_keys_copies hlayout (s, c) n)
    rwa [List.map_map] at hkeys
  refine ⟨congrArg Prod.fst hvisited, hnodup, ?visited, ?ascending, ?resident, hcalls.lastStops,
    hcalls.initial⟩
  case visited =>
    intro k hstart hlasting
    cases hgo : calls.all VisitorCall.goesOn with
    | false =>
      right
      simpa [List.all_eq_false] using hgo
    | true =>
      left
      have hcontains : (copied (shardOf k)).contains k = true := by
        rcases hcopied (shardOf k) (Nat.le_of_lt (hindex k)) with h | ⟨call, hm, h⟩
        · change (worldAt Prod.snd (visitorOf act) (s, c) (shardOf k)).2.contains k = true
          rw [h]
          exact hstart
        · change (worldAt Prod.snd (visitorOf act) (s, c) (shardOf k)).2.contains k = true
          rw [← h]
          exact hlasting call hm
      obtain ⟨e, he⟩ := Option.isSome_iff_exists.1 hcontains
      have hmem := (mem_copies hlayout (s, c) n).2 ⟨hindex k, resident_of_find? he⟩
      rw [← hcalls.complete (hcalls.goesOn.trans hgo)] at hmem
      obtain ⟨call, hm, heq⟩ := List.mem_map.1 hmem
      exact countP_key_eq_one hnodup (List.mem_map.2 ⟨call, hm, congrArg Prod.fst heq⟩)
  case ascending =>
    have hascending := (ascending_copies hlayout (s, c) n).sublist hsublist
    rwa [List.pairwise_map] at hascending
  case resident =>
    intro call hm
    have hmem := hsublist.subset (List.mem_map_of_mem hm)
    exact ((mem_copies hlayout (s, c) n).1 hmem).2

/-- A visitor that stores the next number each time visits what it stores in a later shard, but not
what it stores in an earlier one. -/
example :
  let layout : Layout Nat := ⟨2, Nat.two_pos, fun k => UInt64.ofNat k <<< 32⟩
  let c := ((empty layout standardLifetime : Cache Nat Nat).insert 0 .epoch 0).2
  let act (k v : Nat) (stored : Nat) (_ : Cache Nat Nat) :=
    ([((.epoch : Instant), .insert (k + 1) v)], true, stored + 1)
  let visited := visitRecorded Prod.snd (visitorOf act) (0, c)
  visited.2.map VisitorCall.key = [0, 1] ∧ visited.1.2.toList.map Prod.fst = [2, 0, 1]
  := by
  decide +kernel

end FrameCache.Cache
