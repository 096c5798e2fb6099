import FrameCache.Proofs.Lasting
import FrameCache.Proofs.Rearrangement
import FrameCache.Proofs.SceneWalk

/-!
# Liveness walks

Walking over a canvas without painting it only moves deadlines.  The two caches that it deals with,
the mountings and the renderers, keep `SameValues`: the same values are resident, and the totals are
the same.  Nothing else changes, and no calls are made.

The deadline of a mounting moves just if its object is walked over, and the deadline of a renderer
just if its object is walked over and mounted, alive or not.  So a second walk at the same instant
comes to what is there already.
-/

namespace FrameCache

/-! ### The same values -/

namespace Cache

variable {K V : Type} [DecidableEq K]

/-- Two caches hold the same values, alive or not, and have the same totals; deadlines may
differ. -/
structure SameValues (c c' : Cache K V) : Prop where
  /-- The same value is resident for every key. -/
  resident : c'.resident = c.resident
  /-- Values stay alive for the same time. -/
  lifetime : c'.lifetime = c.lifetime
  /-- The totals are the same. -/
  counters : c'.counters = c.counters

namespace SameValues

variable {c c' c'' : Cache K V}

theorem refl (c : Cache K V) :
  c.SameValues c
  := ⟨rfl, rfl, rfl⟩

theorem trans (h : c.SameValues c') (h' : c'.SameValues c'') :
  c.SameValues c''
  := ⟨h'.resident.trans h.resident, h'.lifetime.trans h.lifetime, h'.counters.trans h.counters⟩

/-- The same keys are listed with the same values. -/
theorem toList_perm (h : c.SameValues c') :
  c'.toList.Perm c.toList
  := by
  apply (List.perm_ext_iff_of_nodup (c'.nodup_keys.of_map _) (c.nodup_keys.of_map _)).2
  rintro ⟨k, v⟩
  rw [mem_toList, mem_toList, h.resident]

theorem metrics_eq (h : c.SameValues c') :
  c'.metrics = c.metrics
  := by
  rw [metrics, metrics, h.counters, size_eq_length_toList, size_eq_length_toList,
    h.toList_perm.length_eq]

theorem contains_eq (h : c.SameValues c') (k : K) :
  c'.contains k = c.contains k
  := by
  have hsome := congrArg Option.isSome (congrFun h.resident k)
  rw [Cache.resident, Cache.resident, Option.isSome_map, Option.isSome_map] at hsome
  exact hsome

/-- Caches with the same values have the same contents if their deadlines are the same as well. -/
theorem sameContents (h : c.SameValues c') (hdeadline : ∀ k, c'.deadlineOf k = c.deadlineOf k) :
  c.SameContents c'
  := by
  refine ⟨fun k => ?_, h.lifetime, h.counters⟩
  have hvalue := congrFun h.resident k
  have hdeadline := hdeadline k
  rw [Cache.resident, Cache.resident] at hvalue
  rw [deadlineOf, deadlineOf] at hdeadline
  cases he : c.store.find? k with
  | none =>
    rw [he] at hvalue
    exact Option.map_eq_none_iff.1 hvalue
  | some e =>
    rw [he] at hvalue hdeadline
    obtain ⟨e', he', hv⟩ := Option.map_eq_some_iff.1 hvalue
    rw [he', Option.map_some] at hdeadline
    rw [he']
    exact congrArg some (Entry.ext hv (Option.some.inj hdeadline))

end SameValues

theorem sameValues_renew (c : Cache K V) (k : K) (now : Instant) :
  c.SameValues (c.renew k now)
  := ⟨c.resident_renew k now, c.lifetime_renew k now, c.counters_renew k now⟩

end Cache

/-! ### Walking over objects -/

/-- From `i` to `i'` nothing but deadlines of mountings and renderers changes. -/
structure Inventory.Postponed (i i' : Inventory) : Prop where
  /-- The same objects are mounted, where they were. -/
  mountings : i.mountings.SameValues i'.mountings
  /-- The same objects have the same renderers. -/
  renderers : i.renderers.SameValues i'.renderers
  /-- All else stays. -/
  rest : i' = { i with mountings := i'.mountings, renderers := i'.renderers }

namespace Inventory.Postponed

variable {i i' i'' : Inventory}

theorem refl (i : Inventory) :
  i.Postponed i
  := ⟨.refl _, .refl _, rfl⟩

theorem trans (h : i.Postponed i') (h' : i'.Postponed i'') :
  i.Postponed i''
  := by
  refine ⟨h.mountings.trans h'.mountings, h.renderers.trans h'.renderers, ?_⟩
  rw [h'.rest, h.rest]

theorem metrics_eq (h : i.Postponed i') :
  i'.metrics = i.metrics
  := by
  have hmountings := h.mountings.metrics_eq
  have hrenderers := h.renderers.metrics_eq
  rw [metrics, metrics, hmountings, hrenderers, h.rest]

/-- Inventories that differ by deadlines have the same contents if the deadlines are the same. -/
theorem sameContents (h : i.Postponed i')
    (hmountings : ∀ o, i'.mountings.deadlineOf o = i.mountings.deadlineOf o)
    (hrenderers : ∀ o, i'.renderers.deadlineOf o = i.renderers.deadlineOf o) :
  i.SameContents i'
  := by
  have hm := h.mountings.sameContents hmountings
  have hr := h.renderers.sameContents hrenderers
  rw [h.rest]
  exact ⟨rfl, .refl _, .refl _, hm, hr, .refl _, .refl _, fun _ => Iff.rfl, rfl⟩

end Inventory.Postponed

namespace Studio

variable (s : Studio) (nodes : List (Node × Position)) (o : ObjectId)

theorem postponed_renew :
  s.inventory.Postponed (s.renew o).inventory
  := by
  rw [renew, query, Inventory.touch_eq]
  refine ⟨Cache.sameValues_renew _ _ _, ?_, rfl⟩
  dsimp only
  split
  · apply Cache.sameValues_renew
  · apply Cache.SameValues.refl

theorem postponed_keepAlive :
  s.inventory.Postponed (s.keepAlive nodes).2.inventory
  := by
  rw [snd_keepAlive]
  apply List.foldlRecOn (motive := fun s' : Studio => s.inventory.Postponed s'.inventory)
  · apply Inventory.Postponed.refl
  · intro s' h n _
    exact h.trans (s'.postponed_renew n.1.object)

/-- A walk moves the deadlines of the mountings that it comes upon. -/
theorem deadlineOf_mountings_keepAlive :
  (s.keepAlive nodes).2.inventory.mountings.deadlineOf o
    = if o ∈ nodes.map (fun n => n.1.object) ∧ s.inventory.mountings.contains o then
        some (s.now.after s.inventory.mountings.lifetime)
      else s.inventory.mountings.deadlineOf o
  := by
  have hentry := congrArg (Option.map Entry.deadline) (s.mounting?_keepAlive nodes o)
  refine hentry.trans ?_
  by_cases ho : o ∈ nodes.map fun n => n.1.object
  · rw [if_pos ho]
    cases he : s.inventory.mountings.store.find? o with
    | none => simp [mounting?, Cache.contains, Cache.deadlineOf, he]
    | some e => simp [mounting?, Cache.contains, he, ho, Entry.postpone]
  · rw [if_neg ho, if_neg fun h => ho h.1]
    rfl

/-- It moves the deadlines of the renderers whose objects it comes upon, if these are mounted. -/
theorem deadlineOf_renderers_keepAlive :
  (s.keepAlive nodes).2.inventory.renderers.deadlineOf o
    = if o ∈ nodes.map (fun n => n.1.object) ∧ s.inventory.mountings.contains o
          ∧ s.inventory.renderers.contains o then
        some (s.now.after s.inventory.renderers.lifetime)
      else s.inventory.renderers.deadlineOf o
  := by
  have hentry := congrArg (Option.map Entry.deadline) (s.renderer?_keepAlive nodes o)
  refine hentry.trans ?_
  by_cases ho : o ∈ (nodes.map fun n => n.1.object) ∧ (s.mounting? o).isSome
  · rw [if_pos ho]
    cases he : s.inventory.renderers.store.find? o with
    | none => simp [renderer?, Cache.contains, Cache.deadlineOf, he]
    | some e =>
      rw [if_pos ⟨ho.1, ho.2, by rw [Cache.contains, he]; rfl⟩, renderer?, he]
      rfl
  · rw [if_neg ho, if_neg fun h => ho ⟨h.1, h.2.1⟩]
    rfl

/-- A walk at the instant of the last one changes nothing. -/
theorem rearranged_keepAlive_keepAlive :
  (s.keepAlive nodes).2.Rearranged ((s.keepAlive nodes).2.keepAlive nodes).2
  := by
  have hpostponed := s.postponed_keepAlive nodes
  have hnow : (s.keepAlive nodes).2.now = s.now := congrArg Host.now (s.host_keepAlive nodes)
  refine ⟨(postponed_keepAlive _ nodes).sameContents ?_ ?_, host_keepAlive _ nodes⟩
  · intro o
    rw [deadlineOf_mountings_keepAlive, hpostponed.mountings.contains_eq, hnow,
      hpostponed.mountings.lifetime]
    split
    · rename_i ho
      rw [deadlineOf_mountings_keepAlive, if_pos ho]
    · rfl
  · intro o
    rw [deadlineOf_renderers_keepAlive, hpostponed.mountings.contains_eq,
      hpostponed.renderers.contains_eq, hnow, hpostponed.renderers.lifetime]
    split
    · rename_i ho
      rw [deadlineOf_renderers_keepAlive, if_pos ho]
    · rfl

/-- Walking over a canvas only moves deadlines.  Whatever requests a studio has served, and whatever
canvas is walked over at whatever instant, there are no calls, and the nodes with a resident
mounting are counted, expired or not and whatever canvas they are mounted on.  All caches keep their
keys, their values and their statistics, and all else that the inventory knows stays.

The deadline of the mounting of an object that is walked over becomes one lifetime from now, and so
does that of its renderer if there is a mounting; all other deadlines stay.  A second walk at the
same instant counts the same and changes nothing. -/
theorem keepAlive_only_postpones (layouts : Layouts) (config : Config) (policy : Policy)
    (rs : List (Instant × Request)) (t : Instant) (canvas : Canvas) :
  let s := ((ofConfig layouts config policy).serveAll rs).atTime t
  let walked := s.keepAlive canvas.walk
  let i := s.inventory
  let i' := walked.2.inventory
  let again := walked.2.keepAlive canvas.walk
  walked.1 = canvas.walk.countP (fun n => i.mountings.contains n.1.object)
    ∧ walked.2.host = s.host
    ∧ i' = { i with mountings := i'.mountings, renderers := i'.renderers }
    ∧ (i'.mountings.toList.Perm i.mountings.toList ∧ i'.renderers.toList.Perm i.renderers.toList)
    ∧ i'.metrics = i.metrics
    ∧ (∀ o, i'.mountings.deadlineOf o
      = if o ∈ canvas.walk.map (fun n => n.1.object) ∧ i.mountings.contains o then
          some (t.after config.lifetime)
        else i.mountings.deadlineOf o)
    ∧ (∀ o, i'.renderers.deadlineOf o
      = if o ∈ canvas.walk.map (fun n => n.1.object) ∧ i.mountings.contains o
            ∧ i.renderers.contains o then
          some (t.after config.lifetime)
        else i.renderers.deadlineOf o)
    ∧ again.1 = walked.1
    ∧ walked.2.Rearranged again.2
  := by
  intro s walked i i' again
  have hregular : s.Regular config :=
    (regular_serveAll (regular_ofConfig layouts config policy) rs).atTime t
  have hpostponed : i.Postponed i' := s.postponed_keepAlive canvas.walk
  refine ⟨s.fst_keepAlive canvas.walk, s.host_keepAlive canvas.walk, hpostponed.rest,
    ⟨hpostponed.mountings.toList_perm, hpostponed.renderers.toList_perm⟩, hpostponed.metrics_eq,
    fun o => ?_, fun o => ?_, ?_, s.rearranged_keepAlive_keepAlive canvas.walk⟩
  · rw [← hregular.mountings]
    exact s.deadlineOf_mountings_keepAlive canvas.walk o
  · rw [← hregular.renderers]
    exact s.deadlineOf_renderers_keepAlive canvas.walk o
  · refine (fst_keepAlive walked.2 canvas.walk).trans ?_
    refine Eq.trans ?_ (s.fst_keepAlive canvas.walk).symm
    exact congrArg (List.countP · canvas.walk)
      (funext fun n => hpostponed.mountings.contains_eq n.1.object)

end Studio

end FrameCache
