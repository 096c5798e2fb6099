import FrameCache.Proofs.Contents
import FrameCache.Proofs.Forgetting
import FrameCache.Proofs.SweepEffects
import FrameCache.Proofs.Visits

/-!
# Rearranged studios

A studio is `Rearranged` when its caches have the same contents but list their entries in another
order, as with other layouts.  Sweeps and the teardown of a canvas deal with objects in the order in
which they are listed.  That order makes no difference but to the order of calls about different
objects: what happens to an object depends on its belongings alone, and what is counted on what is
removed in all.
-/

namespace FrameCache

/-! ### The same inventory -/

/-- Two inventories have caches with the same contents, and agree in all else that they know. -/
structure Inventory.SameContents (i i' : Inventory) : Prop where
  /-- The time constants are the same. -/
  config : i'.config = i.config
  /-- The same texts are measured. -/
  texts : i.texts.SameContents i'.texts
  /-- The same icons are rasterised. -/
  icons : i.icons.SameContents i'.icons
  /-- The same objects are mounted. -/
  mountings : i.mountings.SameContents i'.mountings
  /-- The same objects have renderers. -/
  renderers : i.renderers.SameContents i'.renderers
  /-- The same objects have textures. -/
  textures : i.textures.SameContents i'.textures
  /-- The same objects have themes. -/
  themes : i.themes.SameContents i'.themes
  /-- The same canvases are shown. -/
  registered : ∀ c, c ∈ i'.registered ↔ c ∈ i.registered
  /-- The schedules are the same. -/
  schedule : i'.schedule = i.schedule

theorem Inventory.SameContents.metrics_eq {i i' : Inventory} (h : i.SameContents i') :
  i'.metrics = i.metrics
  := by
  rw [metrics, metrics, h.texts.metrics_eq, h.icons.metrics_eq, h.mountings.metrics_eq,
    h.renderers.metrics_eq, h.textures.metrics_eq, h.themes.metrics_eq]

/-! ### Calls in another order -/

theorem Event.exists_object_of_not_isPlain {e : Event} (h : ¬ e.IsPlain) :
  ∃ o, e.object? = some o
  := by
  cases e with
  | rendererCreated o r => exact ⟨o, rfl⟩
  | rendererDestroyed o r => exact ⟨o, rfl⟩
  | rendererReleased o => exact ⟨o, rfl⟩
  | textureCreated o t => exact ⟨o, rfl⟩
  | textureDeleted o t => exact ⟨o, rfl⟩
  | _ => exact absurd trivial h

/-- Calls that are each about an object are the same up to their order if the calls about every
object are the same. -/
theorem Event.perm_of_about {es es' : List Event} (hes : ∀ e ∈ es, ∃ o, e.object? = some o)
    (hes' : ∀ e ∈ es', ∃ o, e.object? = some o)
    (h : ∀ o, es'.filter (fun e => e.object? = some o) = es.filter fun e => e.object? = some o) :
  es'.Perm es
  := by
  classical
  apply List.perm_iff_count.2
  intro e
  by_cases he : ∃ o, e.object? = some o
  · obtain ⟨o, ho⟩ := he
    have hcount : ∀ es : List Event,
        (es.filter fun e => e.object? = some o).count e = es.count e := by
      intro es
      apply List.count_filter
      simpa using ho
    rw [← hcount es', h o, hcount es]
  · rw [List.count_eq_zero_of_not_mem fun hm => he (hes' e hm),
      List.count_eq_zero_of_not_mem fun hm => he (hes e hm)]

namespace Studio

variable {s s' s'' : Studio} {cause : Cause}

/-! ### Draining -/

/-- From `s` to `s'` objects lose entries only, mountings and renderers for one cause, and each is
counted; all else that the inventory knows stays. -/
structure Drains (cause : Cause) (s s' : Studio) : Prop where
  /-- Mountings are only removed. -/
  mountings : Cache.Drained cause s.inventory.mountings s'.inventory.mountings
  /-- Renderers are only removed. -/
  renderers : Cache.Drained cause s.inventory.renderers s'.inventory.renderers
  /-- Textures are only removed, on request. -/
  textures : Cache.Drained .explicit s.inventory.textures s'.inventory.textures
  /-- Themes are only removed, on request. -/
  themes : Cache.Drained .explicit s.inventory.themes s'.inventory.themes
  /-- Nothing else changes. -/
  rest : s'.inventory = { s.inventory with
    mountings := s'.inventory.mountings
    renderers := s'.inventory.renderers
    textures := s'.inventory.textures
    themes := s'.inventory.themes }

namespace Drains

theorem refl (cause : Cause) (s : Studio) :
  Drains cause s s
  := ⟨.refl _ _, .refl _ _, .refl _ _, .refl _ _, rfl⟩

theorem trans (h : Drains cause s s') (h' : Drains cause s' s'') :
  Drains cause s s''
  := by
  refine ⟨h.mountings.trans h'.mountings, h.renderers.trans h'.renderers,
    h.textures.trans h'.textures, h.themes.trans h'.themes, ?_⟩
  rw [h'.rest, h.rest]

theorem foldl {α : Type} {f : Studio → α → Studio} (hf : ∀ s a, Drains cause s (f s a))
    (l : List α) (s : Studio) :
  Drains cause s (l.foldl f s)
  := by
  apply List.foldlRecOn (motive := Drains cause s) l f (refl cause s)
  intro s' h a _
  exact h.trans (hf s' a)

end Drains

theorem drains_dropTexture (s : Studio) (o : ObjectId) :
  Drains cause s (s.dropTexture o).2
  := by
  rw [dropTexture_eq]
  exact ⟨.refl _ _, .refl _ _, Cache.drained_takeIf _ _ _ _, .refl _ _, rfl⟩

/-- A renderer is counted as expired when only one that has lapsed is dismantled. -/
theorem drains_dismantle (s : Studio) (o : ObjectId) (expiredAt : Option Instant) :
  Drains (if expiredAt.isSome then .expired else .explicit) s (s.dismantle o expiredAt).2
  := by
  cases h : s.lapsedRenderer o expiredAt with
  | none =>
    rw [dismantle_of_none h]
    apply Drains.refl
  | some r =>
    rw [dismantle_of_some h]
    exact ⟨.refl _ _, Cache.drained_takeIf _ _ _ _, Cache.drained_takeIf _ _ _ _,
      Cache.drained_takeIf _ _ _ _, rfl⟩

theorem drains_release (s : Studio) (o : ObjectId) (kind : ObjectKind)
    (expiredAt : Option Instant) :
  Drains (if expiredAt.isSome then .expired else .explicit) s (s.release o kind expiredAt).2
  := by
  cases kind with
  | widget => apply drains_dismantle
  | plain => apply drains_dropTexture

/-- A mounting that is taken away is counted. -/
theorem drains_takeMounting {o : ObjectId} {accept : Entry Mounting → Bool} {m : Option Mounting}
    {mountings : Cache ObjectId Mounting}
    (h : s.inventory.mountings.takeIf o cause accept = (m, mountings)) :
  Drains cause s { s with inventory.mountings := mountings }
  := by
  have htaken := s.inventory.mountings.drained_takeIf o cause accept
  rw [h] at htaken
  exact ⟨htaken, .refl _ _, .refl _ _, .refl _ _, rfl⟩

theorem drains_unmountIfExpired (now : Instant) (canvases : List CanvasId) (s : Studio)
    (e : ObjectId × Mounting) :
  Drains .expired s (unmountIfExpired now canvases s e)
  := by
  rw [unmountIfExpired]
  split
  · split
    · apply Drains.refl
    · rename_i m mountings hm
      exact (drains_takeMounting hm).trans (drains_release _ e.1 e.2.kind (some now))
  · apply Drains.refl

/-- A full sweep counts what it removes as expired. -/
theorem drains_sweepObjects (s : Studio) (now : Instant) (canvases : List CanvasId) :
  Drains .expired s (s.sweepObjects now canvases).2
  := by
  rw [snd_sweepObjects]
  dsimp only
  rw [snd_unmountExpired, snd_dismantleExpired]
  apply (Drains.foldl (drains_unmountIfExpired now canvases) _ s).trans
  apply Drains.foldl
  intro s e
  exact s.drains_dismantle e.1 (some now)

/-- Forgetting a canvas counts what it removes as removed on request. -/
theorem drains_forgetCanvas (s : Studio) (c : CanvasId) :
  Drains .explicit (s.update fun i _ => i.unregister c) (s.forgetCanvas c).2
  := by
  apply Cache.visitAll_invariant (I := fun w : Nat × Studio =>
    Drains .explicit (s.update fun i _ => i.unregister c) w.2) (fst_forgetObject c)
  · rintro o m ⟨n, s'⟩ h
    rw [forgetObject]
    dsimp only
    split
    · exact h
    · rename_i v mountings hv
      exact (h.trans (drains_takeMounting hv)).trans (drains_release _ o v.kind none)
  · apply Drains.refl

/-! ### Rearranging -/

/-- The caches of `s'` have the same contents as those of `s`, and the host is the same. -/
structure Rearranged (s s' : Studio) : Prop where
  /-- The inventories are the same but for the order of entries. -/
  inventory : s.inventory.SameContents s'.inventory
  /-- The same calls have been made. -/
  host : s'.host = s.host

/-- From the same host on, `s` and `s'` have come to the same contents, deadlines and totals, with
the same calls about each object, in the same order. -/
structure AgreeAfter (host : Host) (s s' : Studio) : Prop where
  /-- The inventories are the same but for the order of entries. -/
  inventory : s.inventory.SameContents s'.inventory
  /-- The statistics are the same. -/
  metrics : s'.inventory.metrics = s.inventory.metrics
  /-- The calls made since are the same but for the order of calls about different objects. -/
  calls : ∃ calls calls' : List Event,
    s.host.log.events = calls ++ host.log.events
      ∧ s'.host.log.events = calls' ++ host.log.events
      ∧ calls'.Perm calls
      ∧ ∀ o, calls'.filter (fun e => e.object? = some o)
        = calls.filter fun e => e.object? = some o

namespace Rearranged

variable (h : s.Rearranged s')

include h

theorem now_eq :
  s'.now = s.now
  := congrArg Host.now h.host

theorem belongings_eq (o : ObjectId) :
  s'.belongings o = s.belongings o
  := by
  apply belongings_congr
  · apply h.inventory.mountings.find?
  · apply h.inventory.renderers.find?
  · apply h.inventory.textures.find?
  · apply h.inventory.themes.find?
  · rw [h.host]

theorem inScope_eq (c : CanvasId) (canvases : List CanvasId) :
  s'.inScope c canvases = s.inScope c canvases
  := by
  rw [Bool.eq_iff_iff, inScope_eq_true, inScope_eq_true, h.inventory.registered]

/-- Studios that are drained until the same belongs to every object have the same contents. -/
theorem sameContents {t t' : Studio} (ht : Drains cause s t) (ht' : Drains cause s' t')
    (hb : ∀ o, t'.belongings o = t.belongings o) :
  t.inventory.SameContents t'.inventory
  := by
  constructor
  case mountings =>
    exact ht.mountings.sameContents h.inventory.mountings ht'.mountings
      fun o => congrArg Belongings.mounting (hb o)
  case renderers =>
    exact ht.renderers.sameContents h.inventory.renderers ht'.renderers
      fun o => congrArg Belongings.renderer (hb o)
  case textures =>
    exact ht.textures.sameContents h.inventory.textures ht'.textures
      fun o => congrArg Belongings.texture (hb o)
  case themes =>
    exact ht.themes.sameContents h.inventory.themes ht'.themes
      fun o => congrArg Belongings.theme (hb o)
  all_goals rw [ht.rest, ht'.rest]
  case config => exact h.inventory.config
  case texts => exact h.inventory.texts
  case icons => exact h.inventory.icons
  case registered => exact h.inventory.registered
  case schedule => exact h.inventory.schedule

/-- Silent studios make the same calls but for the order of calls about different objects, if the
calls about every object are the same. -/
theorem exists_calls {t t' : Studio} (ht : Silent s t) (ht' : Silent s' t')
    (habout : ∀ o, t'.host.log.about o = t.host.log.about o) :
  ∃ calls calls' : List Event,
    t.host.log.events = calls ++ s.host.log.events
      ∧ t'.host.log.events = calls' ++ s.host.log.events
      ∧ calls'.Perm calls
      ∧ ∀ o, calls'.filter (fun e => e.object? = some o)
        = calls.filter fun e => e.object? = some o
  := by
  obtain ⟨es, hes, hplain⟩ := ht
  obtain ⟨es', hes', hplain'⟩ := ht'
  have hevents : t.host.log.events = es.reverse ++ s.host.log.events := by
    rw [hes, Host.events_recordAll]
  have hevents' : t'.host.log.events = es'.reverse ++ s.host.log.events := by
    rw [hes', Host.events_recordAll, h.host]
  have hsame : ∀ o, es'.reverse.filter (fun e => e.object? = some o)
      = es.reverse.filter fun e => e.object? = some o := by
    intro o
    have hcalls := habout o
    rw [Log.about, Log.about, hevents, hevents', List.filter_append, List.filter_append] at hcalls
    exact List.append_cancel_right hcalls
  refine ⟨es.reverse, es'.reverse, hevents, hevents', ?_, hsame⟩
  apply Event.perm_of_about _ _ hsame
  · intro e he
    exact Event.exists_object_of_not_isPlain (hplain e (List.mem_reverse.1 he))
  · intro e he
    exact Event.exists_object_of_not_isPlain (hplain' e (List.mem_reverse.1 he))

/-- Studios that are drained in silence until the same belongs to every object agree. -/
theorem agreeAfter {t t' : Studio} (ht : Drains cause s t) (ht' : Drains cause s' t')
    (hs : Silent s t) (hs' : Silent s' t') (hb : ∀ o, t'.belongings o = t.belongings o) :
  AgreeAfter s.host t t'
  := by
  have hcontents := h.sameContents ht ht' hb
  refine ⟨hcontents, hcontents.metrics_eq, ?_⟩
  exact h.exists_calls hs hs' fun o => congrArg Belongings.calls (hb o)

/-! ### Sweeping -/

theorem decision_eq (repainted : Bool) (refreshed : List CanvasId) :
  s'.decision repainted refreshed = s.decision repainted refreshed
  := by
  rw [decision, decision, h.now_eq, h.inventory.schedule]

theorem planned (repainted : Bool) (refreshed : List CanvasId) :
  (s.planned repainted refreshed).Rearranged (s'.planned repainted refreshed)
  := by
  refine ⟨{ h.inventory with schedule := ?_ }, h.host⟩
  change (s'.inventory.schedule.decideAt s'.now repainted refreshed).2
    = (s.inventory.schedule.decideAt s.now repainted refreshed).2
  rw [h.now_eq, h.inventory.schedule]

/-- The same values are dropped, and as many are counted. -/
theorem sweepValues (now : Instant) :
  (s'.sweepValues now).1 = (s.sweepValues now).1
    ∧ (s.sweepValues now).2.Rearranged (s'.sweepValues now).2
  := by
  constructor
  · change (s'.inventory.icons.lapsedEntries now).length
        + (s'.inventory.texts.lapsedEntries now).length
      = (s.inventory.icons.lapsedEntries now).length + (s.inventory.texts.lapsedEntries now).length
    rw [(h.inventory.icons.lapsedEntries_perm now).length_eq,
      (h.inventory.texts.lapsedEntries_perm now).length_eq]
  · exact ⟨{ h.inventory with
      texts := h.inventory.texts.takeLapsed now
      icons := h.inventory.icons.takeLapsed now }, h.host⟩

/-- The same objects are swept, and as many mountings and renderers are counted. -/
theorem sweepObjects (now : Instant) (canvases : List CanvasId) :
  (s'.sweepObjects now canvases).1 = (s.sweepObjects now canvases).1
    ∧ AgreeAfter s.host (s.sweepObjects now canvases).2 (s'.sweepObjects now canvases).2
  := by
  have hagree : AgreeAfter s.host (s.sweepObjects now canvases).2
      (s'.sweepObjects now canvases).2 := by
    apply h.agreeAfter (s.drains_sweepObjects now canvases) (s'.drains_sweepObjects now canvases)
    · apply (s.course_sweepObjects now canvases).silent
      rintro _ _ ha e rfl
      exact ha
    · apply (s'.course_sweepObjects now canvases).silent
      rintro _ _ ha e rfl
      exact ha
    · intro o
      rw [belongings_sweepObjects, belongings_sweepObjects, h.belongings_eq]
      simp only [h.inScope_eq]
  refine ⟨?_, hagree⟩
  obtain ⟨unmounted, gone, hremoves, hmounted, hdestroyed⟩ := s.removes_sweepObjects now canvases
  obtain ⟨unmounted', gone', hremoves', hmounted', hdestroyed'⟩ :=
    s'.removes_sweepObjects now canvases
  have hmountings := hremoves.mountings.length_eq
  have hmountings' := hremoves'.mountings.length_eq
  have hrenderers := hremoves.renderers.length_eq
  have hrenderers' := hremoves'.renderers.length_eq
  rw [List.length_append] at hmountings hmountings' hrenderers hrenderers'
  have hbefore := h.inventory.mountings.toList_perm.length_eq
  have hbefore' := h.inventory.renderers.toList_perm.length_eq
  have hafter := hagree.inventory.mountings.toList_perm.length_eq
  have hafter' := hagree.inventory.renderers.toList_perm.length_eq
  apply Prod.ext
  · rw [← hmounted, ← hmounted']
    omega
  · rw [← hdestroyed, ← hdestroyed']
    omega

/-- A studio that is rearranged agrees with the one before. -/
theorem agree :
  AgreeAfter s.host s s'
  := h.agreeAfter (.refl .expired s) (.refl .expired s') (.refl s) (.refl s') h.belongings_eq

/-- A sweep reports the same and comes to the same. -/
theorem sweep (repainted : Bool) (refreshed : List CanvasId) :
  (s'.sweep repainted refreshed).1 = (s.sweep repainted refreshed).1
    ∧ AgreeAfter s.host (s.sweep repainted refreshed).2 (s'.sweep repainted refreshed).2
  := by
  have hdecision := h.decision_eq repainted refreshed
  have hplanned := h.planned repainted refreshed
  obtain ⟨hvalues, hdropped⟩ := hplanned.sweepValues s.now
  cases hd : (s.decision repainted refreshed).depth with
  | skipped =>
    rw [sweep_of_skipped hd, sweep_of_skipped (hdecision ▸ hd)]
    exact ⟨rfl, hplanned.agree⟩
  | light =>
    rw [sweep_of_light hd, sweep_of_light (hdecision ▸ hd), h.now_eq]
    dsimp only
    rw [hvalues]
    exact ⟨rfl, hdropped.agree⟩
  | full =>
    obtain ⟨hcounts, hagree⟩ :=
      hdropped.sweepObjects s.now (s.decision repainted refreshed).canvases
    rw [sweep_of_full hd, sweep_of_full (hdecision ▸ hd), h.now_eq, hdecision]
    dsimp only
    rw [hvalues, hcounts]
    exact ⟨rfl, hagree⟩

/-! ### Forgetting a canvas -/

theorem unregister (c : CanvasId) :
  (s.update fun i _ => i.unregister c).Rearranged (s'.update fun i _ => i.unregister c)
  := by
  refine ⟨{ h.inventory with registered := ?_ }, h.host⟩
  intro c'
  change c' ∈ s'.inventory.registered.filter (· ≠ c) ↔ c' ∈ s.inventory.registered.filter (· ≠ c)
  rw [List.mem_filter, List.mem_filter, h.inventory.registered]

/-- Forgetting a canvas counts the same and comes to the same. -/
theorem forgetCanvas (c : CanvasId) :
  (s'.forgetCanvas c).1 = (s.forgetCanvas c).1
    ∧ AgreeAfter s.host (s.forgetCanvas c).2 (s'.forgetCanvas c).2
  := by
  constructor
  · rw [fst_forgetCanvas, fst_forgetCanvas]
    exact h.inventory.mountings.toList_perm.countP_eq _
  · apply (h.unregister c).agreeAfter (s.drains_forgetCanvas c) (s'.drains_forgetCanvas c)
      (s.silent_forgetCanvas c) (s'.silent_forgetCanvas c)
    intro o
    rw [belongings_forgetCanvas, belongings_forgetCanvas, h.belongings_eq]

end Rearranged

/-- The studio with mountings and renderers spread by other layouts. -/
def respread (s : Studio) (mountings renderers : Layout ObjectId) : Studio :=
  { s with
    inventory.mountings := s.inventory.mountings.respread mountings
    inventory.renderers := s.inventory.renderers.respread renderers }

/-- A studio is rearranged by other layouts. -/
theorem rearranged_respread (s : Studio) (mountings renderers : Layout ObjectId) :
  s.Rearranged (s.respread mountings renderers)
  := by
  refine ⟨⟨rfl, .refl _, .refl _, ?_, ?_, .refl _, .refl _, fun _ => Iff.rfl, rfl⟩, rfl⟩
  · apply Cache.sameContents_respread
  · apply Cache.sameContents_respread

/-- The order in which entries are listed does not matter to a sweep or to the teardown of a canvas.
From rearranged studios both report the same, and come to the same contents, deadlines and totals,
with the same calls about each object in the same order, so that all calls are the same but for the
order of calls about different objects. -/
theorem sweep_and_forget_in_any_order (h : s.Rearranged s') :
  (∀ (repainted : Bool) (refreshed : List CanvasId),
    let swept := s.sweep repainted refreshed
    let swept' := s'.sweep repainted refreshed
    swept'.1 = swept.1 ∧ AgreeAfter s.host swept.2 swept'.2)
    ∧ ∀ c : CanvasId,
      let forgotten := s.forgetCanvas c
      let forgotten' := s'.forgetCanvas c
      forgotten'.1 = forgotten.1 ∧ AgreeAfter s.host forgotten.2 forgotten'.2
  := ⟨h.sweep, h.forgetCanvas⟩

/-- Two widgets on one canvas, unused for ten minutes. -/
def twoWidgets : List (Instant × Request) :=
  [(.ofNanos 1, .mount ⟨1⟩ ⟨⟨1⟩, .widget⟩), (.ofNanos 1, .renderer ⟨1⟩),
    (.ofNanos 1, .texture ⟨1⟩), (.ofNanos 2, .mount ⟨2⟩ ⟨⟨1⟩, .widget⟩),
    (.ofNanos 2, .renderer ⟨2⟩), (.ofNanos 2, .texture ⟨2⟩),
    (.ofDuration (.ofSeconds 600), .register ⟨2⟩)]

/-- With all keys in one shard the two widgets are swept and forgotten in another order. -/
theorem sweep_and_forget_twoWidgets :
  let single : Layout ObjectId := ⟨1, Nat.one_pos, Spread.hash⟩
  let s := (ofConfig .spread .standard .prompt).serveAll twoWidgets
  let s' := s.respread single single
  s.Rearranged s'
    ∧ (s.sweep true []).1 = ⟨.full, 0, 2, 2⟩
    ∧ (s'.sweep true []).1 = (s.sweep true []).1
    ∧ AgreeAfter s.host (s.sweep true []).2 (s'.sweep true []).2
    ∧ (s'.sweep true []).2.host.log.destroyed ≠ (s.sweep true []).2.host.log.destroyed
    ∧ (s.forgetCanvas ⟨1⟩).1 = 2
    ∧ (s'.forgetCanvas ⟨1⟩).1 = (s.forgetCanvas ⟨1⟩).1
    ∧ AgreeAfter s.host (s.forgetCanvas ⟨1⟩).2 (s'.forgetCanvas ⟨1⟩).2
    ∧ (s'.forgetCanvas ⟨1⟩).2.host.log.destroyed ≠ (s.forgetCanvas ⟨1⟩).2.host.log.destroyed
  := by
  intro single s s'
  have hrearranged : s.Rearranged s' := s.rearranged_respread single single
  obtain ⟨hsweep, hforget⟩ := sweep_and_forget_in_any_order hrearranged
  obtain ⟨hreport, hswept⟩ := hsweep true []
  obtain ⟨hcount, hforgotten⟩ := hforget ⟨1⟩
  exact ⟨hrearranged, by decide +kernel, hreport, hswept, by decide +kernel, by decide +kernel,
    hcount, hforgotten, by decide +kernel⟩

end Studio

end FrameCache
