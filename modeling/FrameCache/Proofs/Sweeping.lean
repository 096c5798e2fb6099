import FrameCache.Proofs.Belongings
import FrameCache.Proofs.Lifecycle

/-!
# What a sweep does to an object

A full sweep does to each object what its belongings call for, whatever else is swept: the object
is unmounted if its deadline has passed and its canvas is in scope, and after that its renderer is
given back if its deadline has passed.  No other sweep concerns the objects.
-/

namespace FrameCache

namespace Belongings

variable {o : ObjectId} {now : Instant} {inScope : CanvasId → Bool} {b : Belongings}

/-- The object is unmounted if its deadline has passed at `now` and its canvas is in scope, and
what belongs to it is given back. -/
def expire (o : ObjectId) (now : Instant) (inScope : CanvasId → Bool) (b : Belongings) :
    Belongings :=
  match b.mounting.filter fun m => inScope m.value.canvas && m.deadline ≤ now with
  | none => b
  | some m => ({ b with mounting := none } : Belongings).release o m.value.kind (some now)

theorem expire_of_kept
    (h : ∀ m, b.mounting = some m → inScope m.value.canvas = true → ¬ m.deadline ≤ now) :
  b.expire o now inScope = b
  := by
  rw [expire, Option.filter_eq_none_iff.2]
  intro m hm
  rw [Bool.and_eq_true, decide_eq_true_eq]
  rintro ⟨hscope, hle⟩
  apply h m hm hscope hle

theorem expire_of_lapsed {m : Entry Mounting} (hm : b.mounting = some m)
    (hscope : inScope m.value.canvas = true) (hle : m.deadline ≤ now) :
  b.expire o now inScope
    = ({ b with mounting := none } : Belongings).release o m.value.kind (some now)
  := by
  rw [expire, hm, Option.filter_some, if_pos]
  rw [hscope, decide_eq_true hle]
  rfl

theorem mounting_forget_of_mounted {m : Entry Mounting} (hm : b.mounting = some m) :
  (b.forget o m.value.canvas).mounting = none
  := by
  rw [forget_of_mounted hm rfl, mounting_release]

theorem mounting_dismantle (expiredAt : Option Instant) :
  (b.dismantle o expiredAt).mounting = b.mounting
  := mounting_release .widget expiredAt

/-- What a full sweep at `now` does to an object. -/
def sweep (o : ObjectId) (now : Instant) (inScope : CanvasId → Bool) (b : Belongings) :
    Belongings :=
  (b.expire o now inScope).dismantle o (some now)

/-- A full sweep unmounts an object whose deadline has passed if its canvas is in scope. -/
theorem mounting_sweep :
  (b.sweep o now inScope).mounting
    = b.mounting.filter fun m => !(inScope m.value.canvas && m.deadline ≤ now)
  := by
  rw [sweep, mounting_dismantle]
  cases hm : b.mounting with
  | none =>
    rw [expire_of_kept (fun m h => by rw [hm] at h; cases h), hm]
    rfl
  | some m =>
    by_cases hgone : inScope m.value.canvas = true ∧ m.deadline ≤ now
    · rw [expire_of_lapsed hm hgone.1 hgone.2, mounting_release, Option.filter_some, if_neg]
      simp [hgone.1, hgone.2]
    · rw [expire_of_kept, hm, Option.filter_some, if_pos]
      · simpa [← Bool.not_eq_true, imp_iff_not_or] using hgone
      · intro m' hm' hscope hle
        cases hm.symm.trans hm'
        apply hgone ⟨hscope, hle⟩

/-! ### Objects that a sweep gives back -/

theorem calls_dismantle (b : Belongings) (o : ObjectId) (expiredAt : Option Instant) :
  ∃ calls, (b.dismantle o expiredAt).calls = calls ++ b.calls
  := by
  rw [dismantle]
  split
  · use []
    rfl
  · rename_i r _
    use (b.texture.map fun t => Event.textureDeleted o t.value).toList
      ++ [.rendererReleased o, .rendererDestroyed o r.value]
    simp [dropTexture]

theorem texture_dismantle_of_none {expiredAt : Option Instant} (h : b.texture = none) :
  (b.dismantle o expiredAt).texture = none
  := by
  rw [dismantle]
  split
  · apply h
  · rfl

section

variable {m : Entry Mounting} (hm : b.mounting = some m) (hscope : inScope m.value.canvas = true)
  (hle : m.deadline ≤ now)
include hm hscope hle

/-- A sweep unmounts an object whose deadline has passed, and also if its canvas was forgotten
before it is not mounted any more. -/
theorem mounting_sweep_of_lapsed {b' : Belongings}
    (hb : b' = b ∨ b' = b.forget o m.value.canvas) :
  (b'.sweep o now inScope).mounting = none
  := by
  rw [mounting_sweep]
  rcases hb with rfl | rfl
  · rw [hm, Option.filter_some, hscope, decide_eq_true hle]
    rfl
  · rw [mounting_forget_of_mounted hm]
    rfl

/-- A sweep gives back the texture of an object that is not a widget. -/
theorem sweep_of_plain (hk : m.value.kind = .plain) :
  (b.sweep o now inScope).texture = none
    ∧ ∀ t, b.texture = some t →
      ∃ calls, (b.sweep o now inScope).calls = calls ++ .textureDeleted o t.value :: b.calls
  := by
  rw [sweep, expire_of_lapsed hm hscope hle, hk, release]
  constructor
  · apply texture_dismantle_of_none
    rfl
  · intro t ht
    obtain ⟨calls, hcalls⟩ := calls_dismantle
      (({ b with mounting := none } : Belongings).dropTexture o) o (some now)
    use calls
    rw [hcalls, dropTexture, ht]
    rfl

/-- A sweep gives back all that belongs to a widget whose renderer has lapsed as well. -/
theorem sweep_of_widget (hk : m.value.kind = .widget) {r : Entry Renderer}
    (hr : b.renderer = some r) (hlapsed : r.deadline ≤ now) :
  b.sweep o now inScope = ⟨none, none, none, none,
    (b.texture.map fun t => Event.textureDeleted o t.value).toList
      ++ .rendererReleased o :: .rendererDestroyed o r.value :: b.calls⟩
  := by
  let unmounted : Belongings := { b with mounting := none }
  have hfilter : unmounted.renderer.filter (Entry.lapsedBy (some now)) = some r := by
    rw [show unmounted.renderer = some r from hr, Option.filter_some, if_pos]
    apply decide_eq_true hlapsed
  rw [sweep, expire_of_lapsed hm hscope hle, hk]
  change (unmounted.dismantle o (some now)).dismantle o (some now) = _
  rw [dismantle_of_some hfilter, dismantle_of_none]
  rfl

/-- A sweep leaves the same of an object whether its canvas was forgotten before or not, unless the
object has a renderer that is alive. -/
theorem sweep_forget
    (hr : m.value.kind = .widget → ∀ r, b.renderer = some r → r.deadline ≤ now) :
  (b.forget o m.value.canvas).sweep o now inScope = b.sweep o now inScope
  := by
  have hrelease : ({ b with mounting := none } : Belongings).release o m.value.kind none
      = ({ b with mounting := none } : Belongings).release o m.value.kind (some now) := by
    cases hk : m.value.kind with
    | plain => rfl
    | widget =>
      have hfilter : b.renderer.filter (Entry.lapsedBy none)
          = b.renderer.filter (Entry.lapsedBy (some now)) := by
        cases hb : b.renderer with
        | none => rfl
        | some r =>
          rw [Option.filter_some, Option.filter_some, Entry.lapsedBy, Entry.lapsedBy,
            Option.all_some, decide_eq_true (hr hk r hb)]
          rfl
      rw [release, release, dismantle, dismantle, hfilter]
  rw [sweep, sweep, forget_of_mounted hm rfl, expire_of_lapsed hm hscope hle, expire_of_kept,
    hrelease]
  intro m' hm'
  rw [mounting_release] at hm'
  cases hm'

end

end Belongings

namespace Studio

variable {o : ObjectId}

/-! ### One object -/

/-- Expiry concerns the object of the entry. -/
theorem belongings_unmountIfExpired_of_ne (now : Instant) (canvases : List CanvasId) (s : Studio)
    (e : ObjectId × Mounting) (h : e.1 ≠ o) :
  (unmountIfExpired now canvases s e).belongings o = s.belongings o
  := by
  rw [unmountIfExpired]
  split
  · split
    · rfl
    · rename_i v mountings hv
      obtain ⟨-, -, -, -, rfl⟩ := Cache.takeIf_eq_some hv
      rw [belongings_release, if_neg (Ne.symm h)]
      refine belongings_congr ?_ rfl rfl rfl rfl
      apply (Store.find?_erase _ _ _).trans
      rw [if_neg (Ne.symm h)]
      rfl
  · rfl

theorem belongings_unmountIfExpired {now : Instant} {canvases : List CanvasId} {s : Studio}
    {m : Entry Mounting} (hm : s.mounting? o = some m) :
  (unmountIfExpired now canvases s (o, m.value)).belongings o
    = (s.belongings o).expire o now fun c => s.inScope c canvases
  := by
  rw [unmountIfExpired]
  split
  · rename_i hscope
    split
    · rename_i mountings hv
      obtain ⟨hnone, -⟩ := Cache.takeIf_eq_none hv
      rw [Belongings.expire_of_kept]
      intro m' hm' _
      simpa using hnone m' hm'
    · rename_i v mountings hv
      obtain ⟨e, he, hle, -, rfl⟩ := Cache.takeIf_eq_some hv
      cases hm.symm.trans he
      rw [Belongings.expire_of_lapsed hm hscope (of_decide_eq_true hle), belongings_release,
        if_pos rfl]
      congr 1
      ext1
      · apply (Store.find?_erase _ _ _).trans
        rw [if_pos rfl]
      · rfl
      · rfl
      · rfl
      · rfl
  · rename_i hscope
    rw [Belongings.expire_of_kept]
    intro m' hm' hscope'
    cases hm.symm.trans hm'
    apply absurd hscope' hscope

/-! ### All objects -/

section

variable {V : Type} {f : Studio → ObjectId × V → Studio} {es : List (ObjectId × V)}
  (hf : ∀ s e, e.1 ≠ o → (f s e).belongings o = s.belongings o)
include hf

/-- Steps that each concern one object leave alone what belongs to any other. -/
theorem belongings_foldl_of_not_mem (s : Studio) (h : o ∉ es.map Prod.fst) :
  (es.foldl f s).belongings o = s.belongings o
  := by
  apply List.foldlRecOn (motive := fun s' : Studio => s'.belongings o = s.belongings o) es f rfl
  intro s' hs e he
  rw [← hs]
  apply hf s' e
  rintro rfl
  apply h (List.mem_map_of_mem he)

/-- Of steps that each concern one object, each another, a single one concerns an object. -/
theorem belongings_foldl_of_mem (s : Studio) (hn : (es.map Prod.fst).Nodup) {v : V}
    (hv : (o, v) ∈ es) :
  ∃ before : List (ObjectId × V), (before.foldl f s).belongings o = s.belongings o
    ∧ (es.foldl f s).belongings o = (f (before.foldl f s) (o, v)).belongings o
  := by
  obtain ⟨before, after, rfl⟩ := List.append_of_mem hv
  rw [List.map_append, List.map_cons] at hn
  have hnot := (List.nodup_cons.1 (List.nodup_middle.1 hn)).1
  rw [List.mem_append] at hnot
  use before, belongings_foldl_of_not_mem hf s fun h => hnot (.inl h)
  rw [List.foldl_append, List.foldl_cons]
  apply belongings_foldl_of_not_mem hf _ fun h => hnot (.inr h)

end

theorem registered_unmountIfExpired (now : Instant) (canvases : List CanvasId) (s : Studio)
    (e : ObjectId × Mounting) :
  (unmountIfExpired now canvases s e).inventory.registered = s.inventory.registered
  := by
  rw [unmountIfExpired]
  split
  · split
    · rfl
    · apply registered_release
  · rfl

/-- Unmounting expired objects does to each object what its entry calls for. -/
theorem belongings_unmountExpired (s : Studio) (o : ObjectId) (now : Instant)
    (canvases : List CanvasId) :
  (unmountExpired now canvases (s.inventory.mountings.lapsedEntries now) s).2.belongings o
    = (s.belongings o).expire o now fun c => s.inScope c canvases
  := by
  have hother := belongings_unmountIfExpired_of_ne (o := o) now canvases
  have hnodup := s.inventory.mountings.nodup_lapsedKeys now
  rw [snd_unmountExpired]
  by_cases ho : o ∈ (s.inventory.mountings.lapsedEntries now).map Prod.fst
  · obtain ⟨⟨_, v⟩, hv, rfl⟩ := List.mem_map.1 ho
    obtain ⟨m, hm, -, rfl⟩ := Cache.mem_lapsedEntries.1 hv
    obtain ⟨before, hbefore, hall⟩ := belongings_foldl_of_mem hother s hnodup hv
    have hregistered : (before.foldl (unmountIfExpired now canvases) s).inventory.registered
        = s.inventory.registered := by
      apply List.foldlRecOn
        (motive := fun s' : Studio => s'.inventory.registered = s.inventory.registered)
      · rfl
      · intro s' h e _
        rw [registered_unmountIfExpired, h]
    have hmounted := (congrArg Belongings.mounting hbefore).trans hm
    rw [hall, belongings_unmountIfExpired hmounted, hbefore]
    simp only [inScope, Inventory.isRegistered, hregistered]
  · rw [belongings_foldl_of_not_mem hother s ho, Belongings.expire_of_kept]
    intro m hm _ hle
    apply ho
    apply List.mem_map.2
    use (o, m.value), Cache.mem_lapsedEntries.2 ⟨m, hm, hle, rfl⟩

/-- Dismantling expired renderers does to each object what its entry calls for. -/
theorem belongings_dismantleExpired (s : Studio) (o : ObjectId) (now : Instant) :
  (dismantleExpired now (s.inventory.renderers.lapsedEntries now) s).2.belongings o
    = (s.belongings o).dismantle o (some now)
  := by
  have hother : ∀ (s : Studio) (e : ObjectId × Renderer), e.1 ≠ o →
      (s.dismantle e.1 (some now)).2.belongings o = s.belongings o := by
    intro s e he
    rw [belongings_dismantle, if_neg (Ne.symm he)]
  have hnodup := s.inventory.renderers.nodup_lapsedKeys now
  rw [snd_dismantleExpired]
  by_cases ho : o ∈ (s.inventory.renderers.lapsedEntries now).map Prod.fst
  · obtain ⟨⟨_, v⟩, hv, rfl⟩ := List.mem_map.1 ho
    obtain ⟨before, hbefore, hall⟩ := belongings_foldl_of_mem hother s hnodup hv
    rw [hall, belongings_dismantle, if_pos rfl, hbefore]
  · rw [belongings_foldl_of_not_mem hother s ho, Belongings.dismantle_of_none]
    apply Option.filter_eq_none_iff.2
    intro r hr hle
    apply ho
    apply List.mem_map.2
    use (o, r.value), Cache.mem_lapsedEntries.2 ⟨r, hr, of_decide_eq_true hle, rfl⟩

/-- A full sweep does to each object what its entries call for. -/
theorem belongings_sweepObjects (s : Studio) (o : ObjectId) (now : Instant)
    (canvases : List CanvasId) :
  (s.sweepObjects now canvases).2.belongings o
    = (s.belongings o).sweep o now fun c => s.inScope c canvases
  := by
  rw [snd_sweepObjects]
  dsimp only
  rw [belongings_dismantleExpired, belongings_unmountExpired]
  rfl

/-! ### Sweeps -/

/-- What the schedule decides for a sweep. -/
def decision (s : Studio) (repainted : Bool) (refreshed : List CanvasId) : SweepDecision :=
  (s.inventory.schedule.decideAt s.now repainted refreshed).1

/-- A sweep is as deep as the schedule decides. -/
theorem depth_sweep (s : Studio) (repainted : Bool) (refreshed : List CanvasId) :
  (s.sweep repainted refreshed).1.depth = (s.decision repainted refreshed).depth
  := by
  rw [sweep, decision]
  dsimp only
  split
  · rename_i h
    rw [h]
    rfl
  · rename_i h
    rw [h]
  · rename_i h
    rw [h]

/-- What a sweep does to an object. -/
theorem belongings_sweep (s : Studio) (o : ObjectId) (repainted : Bool)
    (refreshed : List CanvasId) :
  (s.sweep repainted refreshed).2.belongings o
    = if (s.decision repainted refreshed).depth = .full then
        (s.belongings o).sweep o s.now fun c =>
          s.inScope c (s.decision repainted refreshed).canvases
      else s.belongings o
  := by
  have hplanned : ((s.planned repainted refreshed).sweepValues s.now).2.belongings o
      = s.belongings o := rfl
  rw [snd_sweep, decision]
  dsimp only
  split
  · rename_i h
    rw [h]
    rfl
  · rename_i h
    rw [h]
    rfl
  · rename_i h
    rw [h, if_pos rfl, belongings_sweepObjects, hplanned]
    rfl

end Studio

end FrameCache
