import FrameCache.Proofs.Departures
import FrameCache.Proofs.Sweeping

/-!
# What sweeps and teardown remove

From one studio to a later one mountings and renderers are removed, and each renderer that is
removed is destroyed: `Studio.Removes` lists them.  Removals add up, so what a sweep and the
teardown of a canvas count are the mountings that they remove and the renderers that they destroy.
-/

namespace FrameCache

/-- What an inventory keeps for no single object: its time constants, the font metrics, the icons
and the schedule. -/
def Inventory.shared (i : Inventory) :
    Config × Cache TextKey TextMetric × Cache IconKey IconRaster × SweepSchedule :=
  (i.config, i.texts, i.icons, i.schedule)

namespace Studio

/-- From `s` to `s'` the mountings `unmounted` and the renderers `gone` are removed, the latest
first, and these renderers are destroyed; nothing happens that concerns no object. -/
structure Removes (s s' : Studio) (unmounted : List (ObjectId × Mounting))
    (gone : List (ObjectId × Renderer)) : Prop where
  /-- The mountings left and those removed are those before. -/
  mountings : (s'.inventory.mountings.toList ++ unmounted).Perm s.inventory.mountings.toList
  /-- The renderers left and those removed are those before. -/
  renderers : (s'.inventory.renderers.toList ++ gone).Perm s.inventory.renderers.toList
  /-- The renderers removed are destroyed. -/
  destroyed : s'.host.log.destroyed = gone ++ s.host.log.destroyed
  /-- What is kept for no single object stays. -/
  shared : s'.inventory.shared = s.inventory.shared

variable {s s' s'' : Studio} {unmounted unmounted' : List (ObjectId × Mounting)}
  {gone gone' : List (ObjectId × Renderer)}

namespace Removes

theorem refl (s : Studio) :
  Removes s s [] []
  := by
  constructor
  · rw [List.append_nil]
  · rw [List.append_nil]
  · rfl
  · rfl

theorem trans (h : Removes s s' unmounted gone) (h' : Removes s' s'' unmounted' gone') :
  Removes s s'' (unmounted' ++ unmounted) (gone' ++ gone)
  := by
  constructor
  · rw [← List.append_assoc]
    exact (h'.mountings.append_right unmounted).trans h.mountings
  · rw [← List.append_assoc]
    exact (h'.renderers.append_right gone).trans h.renderers
  · rw [h'.destroyed, h.destroyed, List.append_assoc]
  · rw [h'.shared, h.shared]

theorem size_mountings (h : Removes s s' unmounted gone) :
  unmounted.length + s'.inventory.mountings.size = s.inventory.mountings.size
  := by
  rw [Cache.size_eq_length_toList, Cache.size_eq_length_toList, ← h.mountings.length_eq,
    List.length_append, Nat.add_comm]

theorem texts (h : Removes s s' unmounted gone) :
  s'.inventory.texts = s.inventory.texts
  := congrArg (fun shared => shared.2.1) h.shared

theorem icons (h : Removes s s' unmounted gone) :
  s'.inventory.icons = s.inventory.icons
  := congrArg (fun shared => shared.2.2.1) h.shared

theorem schedule (h : Removes s s' unmounted gone) :
  s'.inventory.schedule = s.inventory.schedule
  := congrArg (fun shared => shared.2.2.2) h.shared

end Removes

/-! ### Giving back -/

theorem removes_dropTexture (s : Studio) (o : ObjectId) :
  Removes s (s.dropTexture o).2 [] []
  := by
  rw [dropTexture_eq]
  constructor
  · rw [List.append_nil]
  · rw [List.append_nil]
  · rw [Log.destroyed, Host.filterMap_recordAll]
    cases s.inventory.textures.resident o <;> rfl
  · rfl

/-- Dismantling tells whether it removes a renderer. -/
theorem removes_dismantle (s : Studio) (o : ObjectId) (expiredAt : Option Instant) :
  ∃ gone, Removes s (s.dismantle o expiredAt).2 [] gone
    ∧ gone.length = (s.dismantle o expiredAt).1.toNat
  := by
  cases h : s.lapsedRenderer o expiredAt with
  | none =>
    rw [dismantle_of_none h]
    exact ⟨[], .refl s, rfl⟩
  | some r =>
    rw [dismantle_of_some h]
    refine ⟨[(o, r)], ⟨?_, ?_, ?_, rfl⟩, rfl⟩
    · rw [List.append_nil]
    · have htaken := Cache.toList_takeIf s.inventory.renderers o
        (if expiredAt.isSome then .expired else .explicit) (Entry.lapsedBy expiredAt)
      have hfirst := (s.fst_takeRenderer o expiredAt).trans h
      rw [takeRenderer] at hfirst
      rw [hfirst] at htaken
      exact htaken
    · rw [Log.destroyed, Host.filterMap_recordAll]
      cases s.inventory.textures.resident o <;> rfl

theorem removes_release (s : Studio) (o : ObjectId) (kind : ObjectKind)
    (expiredAt : Option Instant) :
  ∃ gone, Removes s (s.release o kind expiredAt).2 [] gone
    ∧ gone.length = (s.release o kind expiredAt).1.toNat
  := by
  cases kind with
  | widget => exact s.removes_dismantle o expiredAt
  | plain => exact ⟨[], s.removes_dropTexture o, rfl⟩

/-- A mounting that is taken away is removed. -/
theorem removes_takeMounting {o : ObjectId} {cause : Cause} {accept : Entry Mounting → Bool}
    {m : Mounting} {mountings : Cache ObjectId Mounting}
    (h : s.inventory.mountings.takeIf o cause accept = (some m, mountings)) :
  Removes s { s with inventory.mountings := mountings } [(o, m)] []
  := by
  have htaken := s.inventory.mountings.toList_takeIf o cause accept
  rw [h] at htaken
  constructor
  · exact htaken
  · rw [List.append_nil]
  · rfl
  · rfl

/-! ### Sweeping -/

/-- Unmounting expired objects counts the mountings and renderers that it removes. -/
theorem removes_unmountExpired (now : Instant) (canvases : List CanvasId)
    (es : List (ObjectId × Mounting)) (s : Studio) :
  ∃ unmounted gone, Removes s (unmountExpired now canvases es s).2 unmounted gone
    ∧ unmounted.length = (unmountExpired now canvases es s).1.1
    ∧ gone.length = (unmountExpired now canvases es s).1.2
  := by
  induction es generalizing s with
  | nil => exact ⟨[], [], .refl s, rfl, rfl⟩
  | cons e es ih =>
    rw [unmountExpired]
    split
    · split
      · apply ih
      · rename_i m mountings hm
        obtain ⟨gone, hgone, hone⟩ := removes_release { s with inventory.mountings := mountings }
          e.1 e.2.kind (some now)
        obtain ⟨unmounted, gone', hrest, hmounted, hdestroyed⟩ := ih
          (release { s with inventory.mountings := mountings } e.1 e.2.kind (some now)).2
        refine ⟨_, _, ((removes_takeMounting hm).trans hgone).trans hrest, ?_, ?_⟩
        · rw [List.length_append, hmounted]
          rfl
        · rw [List.length_append, List.length_append, hone, hdestroyed]
          rfl
    · apply ih

theorem removes_dismantleExpired (now : Instant) (es : List (ObjectId × Renderer)) (s : Studio) :
  ∃ gone, Removes s (dismantleExpired now es s).2 [] gone
    ∧ gone.length = (dismantleExpired now es s).1
  := by
  induction es generalizing s with
  | nil => exact ⟨[], .refl s, rfl⟩
  | cons e es ih =>
    obtain ⟨gone, hgone, hone⟩ := s.removes_dismantle e.1 (some now)
    obtain ⟨gone', hrest, hcount⟩ := ih (s.dismantle e.1 (some now)).2
    refine ⟨_, hgone.trans hrest, ?_⟩
    rw [List.length_append, hone, hcount]
    rfl

/-- A full sweep counts the mountings and renderers that it removes. -/
theorem removes_sweepObjects (s : Studio) (now : Instant) (canvases : List CanvasId) :
  ∃ unmounted gone, Removes s (s.sweepObjects now canvases).2 unmounted gone
    ∧ unmounted.length = (s.sweepObjects now canvases).1.1
    ∧ gone.length = (s.sweepObjects now canvases).1.2
  := by
  obtain ⟨unmounted, gone, hfirst, hmounted, hdestroyed⟩ := removes_unmountExpired now canvases
    (s.inventory.mountings.lapsedEntries now) s
  rw [sweepObjects]
  dsimp only
  generalize unmountExpired now canvases (s.inventory.mountings.lapsedEntries now) s = swept
    at hfirst hmounted hdestroyed ⊢
  obtain ⟨gone', hrest, hcount⟩ := removes_dismantleExpired now
    (swept.2.inventory.renderers.lapsedEntries now) swept.2
  refine ⟨_, _, hfirst.trans hrest, hmounted, ?_⟩
  rw [List.length_append, hdestroyed, hcount, Nat.add_comm]

end Studio

end FrameCache
