import FrameCache.Proofs.Closures
import FrameCache.Proofs.Departures
import FrameCache.Proofs.Repaints

/-!
# Applying new settings

A frame that finds changes of the settings receives all of them and applies the settings once: the
painter drops its glyphs, the caches that depend on the theme are emptied, and the settings are
applied to the canvas of every window in turn.  The rest of a frame does nothing of the kind.
-/

namespace FrameCache

namespace Cache

variable {K V : Type} [DecidableEq K]

/-- All entries of a cache are dropped, and each of them counts as removed. -/
structure Emptied (c c' : Cache K V) : Prop where
  /-- No entries are listed. -/
  toList : c'.toList = []
  /-- No key has a value. -/
  resident : ∀ k, c'.resident k = none
  /-- The entries are added to those removed before, and no other total changes. -/
  metrics : c'.metrics
    = { c.metrics with removed := c.metrics.removed + c.metrics.entries, entries := 0 }
  /-- Values stay alive for the same time. -/
  lifetime : c'.lifetime = c.lifetime

theorem emptied_clear (c : Cache K V) :
  c.Emptied c.clear.2
  := by
  refine ⟨c.toList_clear, ?_, ?_, rfl⟩
  · intro k
    exact Option.map_eq_none_iff.2 (Store.find?_empty _ _)
  · rw [metrics, size_eq_length_toList, toList_clear, clear, ← size_eq_length_toList]
    rfl

end Cache

/-! ### Dropping glyphs -/

/-- The painter is called to drop its glyphs. -/
def Event.dropsGlyphs : Event → Bool
  | .fontCacheCleared => true
  | _ => false

/-- How often the painter was called to drop its glyphs. -/
def Log.glyphDrops (l : Log) : Nat := l.events.countP Event.dropsGlyphs

theorem Event.isPlain_of_dropsGlyphs {e : Event} (h : e.dropsGlyphs = true) :
  e.IsPlain
  := by
  cases e <;> trivial

theorem Log.countP_plain (l : Log) :
  l.plain.countP Event.dropsGlyphs = l.glyphDrops
  := by
  rw [plain, List.countP_filter, glyphDrops]
  apply List.countP_congr
  intro e _
  simpa using Event.isPlain_of_dropsGlyphs

theorem Drawn.countP_calls (d : Drawn) (w : Window) (visits : List Visit) (swaps : Bool) :
  (d.calls w visits swaps).countP Event.dropsGlyphs = 0
  := by
  cases d with
  | left => rfl
  | walked => rfl
  | repainted =>
    cases swaps <;> simp [calls, Event.dropsGlyphs, Visit.call, List.countP_eq_zero]

theorem Studio.Silent.glyphDrops {s s' : Studio} (h : Silent s s') :
  s'.host.log.glyphDrops = s.host.log.glyphDrops
  := by
  rw [← Log.countP_plain, h.plain, Log.countP_plain]

theorem Studio.glyphDrops_record (s : Studio) {e : Event} (he : e.dropsGlyphs = false) :
  (s.record e).host.log.glyphDrops = s.host.log.glyphDrops
  := List.countP_cons_of_neg (ne_true_of_eq_false he)

namespace FrameLoop

variable {l : FrameLoop}

theorem glyphDrops_drawWindow (now : Instant) (w : Window) (l : FrameLoop) :
  (drawWindow now w l).2.studio.host.log.glyphDrops = l.studio.host.log.glyphDrops
  := by
  obtain ⟨swaps, hplain⟩ := plain_drawWindow now w l
  rw [← Log.countP_plain, hplain, List.countP_append, List.countP_reverse, Drawn.countP_calls,
    Nat.zero_add, Log.countP_plain]

theorem glyphDrops_swept (l : FrameLoop) :
  l.swept.studio.host.log.glyphDrops = l.studio.host.log.glyphDrops
  := by
  have hanimated : l.animated.studio.host.log.glyphDrops = l.studio.host.log.glyphDrops := by
    rw [studio_animated, Studio.glyphDrops_record _ rfl]
  rw [studio_swept, (Studio.silent_sweep _ _ _).glyphDrops, ← hanimated]
  apply drawAll_invariant (I := fun l' =>
    l'.studio.host.log.glyphDrops = l.animated.studio.host.log.glyphDrops)
  · intro w _ l' h
    rw [glyphDrops_drawWindow, h]
  · rfl

/-- Once the platform has polled its events, a frame does not have the painter drop its glyphs. -/
theorem glyphDrops_finished (l : FrameLoop) :
  l.finished.studio.host.log.glyphDrops = l.studio.host.log.glyphDrops
  := by
  rw [l.finished_spec.1, ← glyphDrops_swept l]
  apply List.foldlRecOn (motive := fun l' : FrameLoop =>
    l'.studio.host.log.glyphDrops = l.swept.studio.host.log.glyphDrops)
  · rfl
  · intro l' h w _
    rw [destroy, Studio.glyphDrops_record _ rfl, (Studio.silent_forgetCanvas _ _).glyphDrops, h]

/-! ### The settings pass -/

/-- All changes of the settings are received, and the settings are applied once. -/
structure Restyled (l l' : FrameLoop) : Prop where
  /-- Nothing is left in the channel, open or closed. -/
  settings : l'.settings = l.settings.map Mailbox.received
  /-- A single call is made: the painter drops its glyphs. -/
  host : l'.studio.host = l.studio.host.record .fontCacheCleared
  /-- The measured texts are dropped. -/
  texts : l.studio.inventory.texts.Emptied l'.studio.inventory.texts
  /-- The icons are dropped. -/
  icons : l.studio.inventory.icons.Emptied l'.studio.inventory.icons
  /-- The mountings, the renderers, the textures and the themes of single widgets are left as they
  are, and so is what the inventory knows besides. -/
  inventory : l'.studio.inventory = { l.studio.inventory with
    texts := l'.studio.inventory.texts
    icons := l'.studio.inventory.icons }
  /-- The settings are applied to the canvas of each window, one after the other. -/
  canvases : ∀ c, l'.canvas c = (l.overWindows Canvas.restyle).canvas c
  /-- Nothing else changes. -/
  rest : l' = { l with
    settings := l'.settings
    studio := l'.studio
    canvases := l'.canvases }

theorem restyled_receiveAll (h : l.hasNews = true) :
  Restyled l l.receiveAll
  := by
  let ready : FrameLoop := { l with
    settings := l.settings.map Mailbox.received
    studio := (l.studio.record .fontCacheCleared).update fun i _ => i.forgetTheme }
  have hready : l.receiveAll = ready.overWindows Canvas.restyle := receiveAll_of_hasNews h
  rw [hready]
  have hcanvases : ∀ c, (ready.overWindows Canvas.restyle).canvas c
      = (l.overWindows Canvas.restyle).canvas c := by
    intro c
    rw [canvas_overWindows, canvas_overWindows]
    rfl
  rw [overWindows_eq] at hcanvases ⊢
  exact ⟨rfl, rfl, Cache.emptied_clear _, Cache.emptied_clear _, rfl, hcanvases, rfl⟩

end FrameLoop

end FrameCache
