import FrameCache.Proofs.TextureOrigins
import FrameCache.Proofs.Windows
import Mathlib.Data.List.Induction

/-!
# Fresh textures

In a run two kinds of moments matter to textures: a texture is invalidated on a canvas, or a node
is visited.  The texture of an object that is invalidated is listed with the canvas, and it is
deleted before the canvas is painted again.  So from the invalidation on the loop discards the
texture: it is listed, or what the studio holds is newer than the calls made until then.  Hence a
visit never draws from a texture that is stale.
-/

namespace FrameCache

/-! ### Textures that have changed -/

namespace Canvas

/-- The canvas is a scene. -/
def IsScene : Canvas → Prop
  | .scene _ => True
  | .sheet _ => False

theorem isScene_content (c : Canvas) :
  c.content.IsScene ↔ c.IsScene
  := by
  cases c <;> rfl

end Canvas

theorem Scene.staleTextures_remove (s : Scene) (slot : Nat) :
  (s.remove slot).staleTextures = s.staleTextures
  := by
  have hwithin : ∀ (depth slot : Nat) (s : Scene),
      (removeWithin depth slot s).staleTextures = s.staleTextures := by
    intro depth
    induction depth with
    | zero =>
      intro slot s
      rfl
    | succ depth ih =>
      intro slot s
      rw [removeWithin]
      split
      · rfl
      · rename_i n _
        change (n.children.foldl (fun s child => removeWithin depth child s)
          (s.vacate slot)).staleTextures = _
        apply List.foldlRecOn (motive := fun s' : Scene => s'.staleTextures = s.staleTextures)
        · rfl
        · intro s' h child _
          rw [ih, h]
  apply hwithin

namespace Edit

variable {c : Canvas} {o : ObjectId}

theorem isScene_run (h : c.IsScene) (e : Edit) :
  (e.run c).IsScene
  := by
  cases c with
  | scene s => cases e <;> trivial
  | sheet s => cases h

/-- A texture that has changed is listed until it is taken. -/
theorem mem_stale_run (h : o ∈ c.stale) (e : Edit) :
  o ∈ (e.run c).stale
  := by
  cases c with
  | sheet s => cases h
  | scene s =>
    change o ∈ s.staleTextures at h
    cases e with
    | addRoot n offset => exact h
    | addChild parent n offset =>
      change o ∈ (s.addChild parent n offset).2.staleTextures
      rw [Scene.addChild]
      split
      · exact h
      · exact h
    | remove slot =>
      change o ∈ (s.remove slot).staleTextures
      rw [Scene.staleTextures_remove]
      exact h
    | invalidate o' => exact List.mem_append_left _ h
    | setDirty => exact h

theorem mem_stale_invalidate (h : c.IsScene) (o : ObjectId) :
  o ∈ ((Edit.invalidate o).run c).stale
  := by
  cases c with
  | scene s => exact List.mem_append_right _ (List.mem_singleton.2 rfl)
  | sheet s => cases h

end Edit

/-! ### Moments -/

/-- A moment that matters to textures. -/
inductive Moment where
  /-- A texture is invalidated on a canvas, after the calls of `log` were made. -/
  | invalidated (c : CanvasId) (o : ObjectId) (log : Log)
  /-- A node is visited. -/
  | visited (v : Visit)

/-- What a visit draws: an object, where it is drawn, and from which texture. -/
def Visit.paint (v : Visit) : ObjectId × Position × Option Texture :=
  (v.node.object, v.position, v.texture)

/-- What a call draws. -/
def Event.paint? : Event → Option (ObjectId × Position × Option Texture)
  | .painted o p t => some (o, p, t)
  | _ => none

/-- What has been drawn, the latest first. -/
def Log.paints (l : Log) : List (ObjectId × Position × Option Texture) :=
  l.events.filterMap Event.paint?

theorem Log.paints_plain (l : Log) :
  l.plain.filterMap Event.paint? = l.paints
  := by
  apply l.filterMap_plain
  intro e he
  cases e <;> first | rfl | exact absurd trivial he

/-- If only a window that is painted is visited, then all that is drawn is drawn in the visits. -/
theorem Drawn.filterMap_paint?_calls {d : Drawn} {visits : List Visit}
    (hd : d ≠ .repainted → visits = []) (w : Window) (swaps : Bool) :
  (d.calls w visits swaps).filterMap Event.paint? = visits.map Visit.paint
  := by
  cases d with
  | left =>
    rw [hd (by simp)]
    rfl
  | walked =>
    rw [hd (by simp)]
    rfl
  | repainted =>
    have hvisits : (visits.map Visit.call).filterMap Event.paint? = visits.map Visit.paint := by
      rw [List.filterMap_map]
      exact congrFun List.filterMap_eq_map _
    rw [calls, List.cons_append, List.filterMap_cons_none rfl, List.filterMap_append, hvisits]
    cases swaps <;> exact List.append_nil _

theorem Studio.Silent.paints {s s' : Studio} (h : Silent s s') :
  s'.host.log.paints = s.host.log.paints
  := by
  rw [← Log.paints_plain, h.plain, Log.paints_plain]

namespace Moment

/-- What is drawn at that moment. -/
def paint? : Moment → Option (ObjectId × Position × Option Texture)
  | .invalidated _ _ _ => none
  | .visited v => some v.paint

/-- In a visit nothing is drawn from a texture that was invalidated on the canvas before: it was
uploaded after that. -/
def Renews : Moment → Moment → Prop
  | .visited v, .invalidated c o past =>
    c = v.canvas → o = v.node.object → ∀ t, v.texture = some t →
      ∃ new, v.log.events = new ++ past.events ∧ .textureCreated o (some t) ∈ new
  | _, _ => True

end Moment

/-- The moments of a deed. -/
def Deed.moments (l : FrameLoop) : Deed → List Moment
  | .edit c (.invalidate o) => [.invalidated c o l.studio.host.log]
  | _ => []

theorem Deed.visited_notMem_moments (l : FrameLoop) (d : Deed) (v : Visit) :
  .visited v ∉ d.moments l
  := by
  cases d with
  | edit c e => cases e <;> simp [moments]
  | _ => simp [moments]

namespace FrameLoop

/-- The visits when windows are drawn, the earliest first. -/
def drawVisits (now : Instant) : List Window → FrameLoop → List Visit
  | [], _ => []
  | w :: ws, l => l.windowVisits now w ++ drawVisits now ws (drawWindow now w l).2

/-- The visits of a frame once the platform has polled its events, the earliest first. -/
def visits (l : FrameLoop) : List Visit :=
  drawVisits l.markClosing.studio.now l.animated.windows l.animated

/-- The moments of a frame until the platform has polled its events, the latest first. -/
def pollMoments (l : FrameLoop) (deeds : List Deed) : List Moment :=
  alongDeeds Deed.moments (l.receiveAll.record .polled) deeds

end FrameLoop

/-- The moments of a move, the latest first. -/
def Move.moments (l : FrameLoop) : Move → List Moment
  | .deed d => d.moments l
  | .frame deeds =>
    if l.phase = .quit then []
    else ((l.polled deeds).visits.map .visited).reverse ++ l.pollMoments deeds
  | _ => []

namespace FrameLoop

variable {l l' : FrameLoop} {c : CanvasId} {o : ObjectId} {past : Log}

theorem visited_notMem_pollMoments (l : FrameLoop) (deeds : List Deed) (v : Visit) :
  .visited v ∉ l.pollMoments deeds
  := by
  have hdeeds : ∀ l, .visited v ∉ alongDeeds Deed.moments l deeds := by
    induction deeds with
    | nil =>
      intro l
      apply List.not_mem_nil
    | cons d deeds ih =>
      intro l hm
      rcases List.mem_append.1 hm with hm | hm
      · apply ih _ hm
      · apply d.visited_notMem_moments l v hm
  apply hdeeds

/-- Only a frame visits nodes. -/
theorem exists_frame_of_visited {m : Move} {v : Visit} (hv : .visited v ∈ m.moments l) :
  ∃ deeds, m = .frame deeds ∧ l.phase ≠ .quit ∧ v ∈ (l.polled deeds).visits
  := by
  cases m with
  | deed d => exact absurd hv (d.visited_notMem_moments l v)
  | frame deeds =>
    rw [Move.moments] at hv
    split at hv
    · cases hv
    · rename_i hquit
      use deeds, rfl, hquit
      rcases List.mem_append.1 hv with hv | hv
      · simpa using hv
      · exact absurd hv (visited_notMem_pollMoments l deeds v)
  | _ => cases hv

/-! ### What is drawn -/

theorem paints_drawWindow (now : Instant) (w : Window) (l : FrameLoop) :
  (drawWindow now w l).2.studio.host.log.paints
    = ((l.windowVisits now w).map Visit.paint).reverse ++ l.studio.host.log.paints
  := by
  obtain ⟨swaps, hcalls⟩ := plain_drawWindow now w l
  rw [← Log.paints_plain, hcalls, List.filterMap_append, List.filterMap_reverse,
    Log.paints_plain, Drawn.filterMap_paint?_calls]
  intro hd
  rw [windowVisits, if_neg hd]

theorem paints_drawAll (now : Instant) (ws : List Window) (l : FrameLoop) :
  (drawAll now ws l).2.studio.host.log.paints
    = ((drawVisits now ws l).map Visit.paint).reverse ++ l.studio.host.log.paints
  := by
  induction ws generalizing l with
  | nil => rfl
  | cons w ws ih =>
    rw [drawAll_cons, ih, paints_drawWindow, drawVisits, List.map_append, List.reverse_append,
      List.append_assoc]

theorem paints_destroyAll (l : FrameLoop) (ws : List Window) :
  (l.destroyAll ws).studio.host.log.paints = l.studio.host.log.paints
  := by
  apply List.foldlRecOn (motive := fun l' : FrameLoop =>
    l'.studio.host.log.paints = l.studio.host.log.paints)
  · rfl
  · intro l' h w _
    exact ((Studio.silent_forgetCanvas l'.studio w.canvas).paints).trans h

/-- All that is drawn in a frame is drawn in its visits. -/
theorem paints_finished (l : FrameLoop) :
  l.finished.studio.host.log.paints
    = (l.visits.map Visit.paint).reverse ++ l.studio.host.log.paints
  := by
  have hdrawn := paints_drawAll l.markClosing.studio.now l.animated.windows l.animated
  rw [studio_animated] at hdrawn
  rw [l.finished_spec.1, paints_destroyAll, studio_swept, (Studio.silent_sweep _ _ _).paints]
  exact hdrawn

theorem paints_run (hq : l.queue = []) (m : Move) :
  (m.run l).studio.host.log.paints
    = (m.moments l).filterMap Moment.paint? ++ l.studio.host.log.paints
  := by
  -- Where nothing is visited, nothing is drawn.
  have hnone : ∀ ms : List Moment, (∀ v, .visited v ∉ ms) → ms.filterMap Moment.paint? = [] := by
    intro ms hms
    rw [List.filterMap_eq_nil_iff]
    intro moment hm
    cases moment with
    | invalidated c o log => rfl
    | visited v => exact absurd hm (hms v)
  cases m with
  | deed d =>
    rw [Move.moments, hnone _ (Deed.visited_notMem_moments l d)]
    cases d <;> rfl
  | restyle => exact filterMap_restyle rfl l
  | frame deeds =>
    rw [run_frame hq, Move.moments]
    split
    · rfl
    · have hpolled : (l.polled deeds).studio.host.log.paints = l.studio.host.log.paints :=
        filterMap_polled rfl rfl l deeds
      have hvisits : ((l.polled deeds).visits.map Moment.visited).filterMap Moment.paint?
          = (l.polled deeds).visits.map Visit.paint := by
        rw [List.filterMap_map]
        exact congrFun List.filterMap_eq_map _
      rw [paints_finished, hpolled, List.filterMap_append, List.filterMap_reverse, hvisits,
        hnone _ (visited_notMem_pollMoments l deeds), List.append_nil]
  | _ => rfl

/-! ### Textures that are discarded -/

/-- Before the canvas is painted again, the texture that the object had when the calls `past` were
made is deleted: it is listed, or the studio holds a newer one. -/
def Discards (c : CanvasId) (o : ObjectId) (past : Log) (l : FrameLoop) : Prop :=
  o ∈ (l.canvas c).stale ∧ Log.Extends past l.studio.host.log ∨ l.studio.holdings.Renewed o past

namespace Discards

theorem course {P : Studio → Studio.Act → Prop} (h : l.Discards c o past)
    (hs : o ∈ (l.canvas c).stale → o ∈ (l'.canvas c).stale)
    (hc : Studio.Course P l.studio l'.studio) :
  l'.Discards c o past
  := by
  rcases h with ⟨hstale, hpast⟩ | hrenewed
  · exact Or.inl ⟨hs hstale, hpast.trans hc.extends_log⟩
  · exact Or.inr (hc.renewed hrenewed)

theorem idle (h : l.Discards c o past) (hs : o ∈ (l.canvas c).stale → o ∈ (l'.canvas c).stale)
    (hi : Studio.Idles l.studio l'.studio) :
  l'.Discards c o past
  := by
  rcases h with ⟨hstale, hpast⟩ | hrenewed
  · exact Or.inl ⟨hs hstale, hpast.trans hi.extends_log⟩
  · exact Or.inr (hi.renewed hrenewed)

/-- When a canvas is about to be painted, what was to be discarded is. -/
theorem freshened {w : Window} (h : l.Discards w.canvas o past) :
  (l.freshened w).holdings.Renewed o past
  := by
  have hdrop := Studio.Course.foldl Studio.course_dropTexture (l.canvas w.canvas).stale l.studio
  have hbegun := Studio.course_record
    ((l.canvas w.canvas).stale.foldl (fun s o => (s.dropTexture o).2) l.studio)
    (e := .frameBegun w.canvas) trivial
  rcases h with ⟨hstale, hpast⟩ | hrenewed
  · apply hbegun.renewed
    apply Studio.renewed_of_none (hpast.trans hdrop.extends_log)
    apply Studio.resident_foldl_dropTexture hstale
  · apply hbegun.renewed (hdrop.renewed hrenewed)

theorem repaint (h : l.Discards c o past) (w : Window) :
  (l.repaint w).Discards c o past
  := by
  have hstale := stale_repaint l w c
  by_cases hc : c = w.canvas
  · subst hc
    exact Or.inr ((course_repaint_of_freshened l w).renewed h.freshened)
  · apply h.course
    · rw [hstale, if_neg hc]
      exact id
    · apply (course_freshened l w).append (course_repaint_of_freshened l w)

theorem takeRepaint (h : l.Discards c o past) (w : Window) :
  (l.takeRepaint w).2.Discards c o past
  := by
  rw [Discards, stale_takeRepaint, studio_takeRepaint]
  exact h

theorem drawWindow (h : l.Discards c o past) (now : Instant) (w : Window) :
  (drawWindow now w l).2.Discards c o past
  := by
  by_cases hd : (FrameLoop.drawWindow now w l).1.1 = .repainted
  · rw [drawWindow_of_repainted hd]
    apply (h.takeRepaint w).repaint
  · apply h.course
    · rw [stale_drawWindow_of_not_repainted hd]
      exact id
    · apply (draws_drawWindow now w l).course

theorem deed (h : l.Discards c o past) (d : Deed) :
  (d.run l).Discards c o past
  := by
  apply h.idle _ (idles_run_deed l d)
  cases d with
  | edit c' e =>
    intro hstale
    rw [Deed.run, canvas_setCanvas]
    split
    · rename_i hc
      rw [hc] at hstale
      apply Edit.mem_stale_run hstale
    · exact hstale
  | _ => exact id

theorem restyle (h : l.Discards c o past) :
  l.restyle.Discards c o past
  := by
  apply h.idle _ (restyle_spec l).2
  rw [FrameLoop.restyle]
  apply List.foldlRecOn (motive := fun l' : FrameLoop =>
    o ∈ (l.canvas c).stale → o ∈ (l'.canvas c).stale)
  · exact id
  · intro l' h w _ hstale
    rw [canvas_setCanvas]
    split
    · rename_i hc
      rw [← hc]
      change o ∈ ((l'.canvas c).mark true).stale
      rw [Canvas.stale_mark]
      exact h hstale
    · exact h hstale

theorem polling (h : l.Discards c o past) :
  (l.receiveAll.record .polled).Discards c o past
  := by
  have hreceive : l.receiveAll.Discards c o past := by
    rw [receiveAll]
    split
    · exact h
    · split
      · exact h
      · apply restyle
        exact h
  exact hreceive.idle id (Studio.Idles.record _ trivial)

theorem animated (h : l.Discards c o past) :
  l.animated.Discards c o past
  := by
  have hmarked : l.markClosing.Discards c o past := by
    apply h.idle
    · change o ∈ _ → o ∈ ((pollClosing l.windows l).2.canvas c).stale
      rw [canvas_pollClosing]
      exact id
    · rw [studio_markClosing]
      apply Studio.Idles.refl
  exact hmarked.idle id (Studio.Idles.record _ trivial)

theorem drawAll (h : l.Discards c o past) (now : Instant) (ws : List Window) :
  (drawAll now ws l).2.Discards c o past
  := drawAll_invariant (fun w _ _ h => h.drawWindow now w) h

theorem finished (h : l.Discards c o past) :
  l.finished.Discards c o past
  := by
  have hdrawn := h.animated.drawAll l.markClosing.studio.now l.animated.windows
  apply hdrawn.course _ (course_finished_of_drawn l)
  rw [canvas_finished]
  exact id

end Discards

/-! ### Loops that discard what is stale -/

/-- All canvases are scenes, and the loop discards what was invalidated at the moments `ms`. -/
structure Faithful (l : FrameLoop) (ms : List Moment) : Prop where
  /-- All canvases are scenes. -/
  scenes : ∀ c, (l.canvas c).IsScene
  /-- What was invalidated is discarded. -/
  discards : ∀ c o past, .invalidated c o past ∈ ms → l.Discards c o past

namespace Faithful

variable {ms : List Moment}

theorem congr (h : l.Faithful ms) (hs : SameScenes l l')
    (hd : ∀ c o past, l.Discards c o past → l'.Discards c o past) :
  l'.Faithful ms
  := by
  constructor
  · intro c
    rw [← Canvas.isScene_content, hs.content, Canvas.isScene_content]
    apply h.scenes
  · intro c o past hm
    apply hd c o past (h.discards c o past hm)

theorem deed (h : l.Faithful ms) (d : Deed) :
  (d.run l).Faithful (d.moments l ++ ms)
  := by
  constructor
  · intro c
    cases d with
    | edit c' e =>
      rw [Deed.run, canvas_setCanvas]
      split
      · apply Edit.isScene_run (h.scenes c')
      · apply h.scenes
    | _ => exact h.scenes c
  · intro c o past hm
    rcases List.mem_append.1 hm with hm | hm
    · -- What is invalidated is listed from now on.
      cases d with
      | edit c' e =>
        cases e with
        | invalidate o' =>
          cases List.mem_singleton.1 hm
          apply Or.inl
          rw [Deed.run, canvas_setCanvas, if_pos rfl]
          use Edit.mem_stale_invalidate (h.scenes c) o
          apply Log.Extends.refl
        | _ => cases hm
      | _ => cases hm
    · apply (h.discards c o past hm).deed

theorem deeds (h : l.Faithful ms) (deeds : List Deed) :
  (deeds.foldl Deed.run l).Faithful (alongDeeds Deed.moments l deeds ++ ms)
  := by
  induction deeds generalizing l ms with
  | nil => exact h
  | cons d deeds ih =>
    rw [alongDeeds, List.append_assoc]
    apply ih (h.deed d)

theorem polled (h : l.Faithful ms) (deeds : List Deed) :
  (l.polled deeds).Faithful (l.pollMoments deeds ++ ms)
  := by
  have hpolling : (l.receiveAll.record .polled).Faithful ms := by
    apply h.congr
    · apply (receiveAll_spec l).1.trans
      exact ⟨rfl, rfl, fun _ => rfl⟩
    · intro c o past hd
      apply hd.polling
  apply hpolling.deeds deeds

theorem finished (h : l.Faithful ms) :
  l.finished.Faithful ms
  := by
  constructor
  · intro c
    rw [canvas_finished, ← Canvas.isScene_content, (sameScenes_drawn l).content,
      Canvas.isScene_content]
    apply h.scenes
  · intro c o past hm
    apply (h.discards c o past hm).finished

theorem visits (h : l.Faithful ms) (vs : List Visit) :
  l.Faithful ((vs.map .visited).reverse ++ ms)
  := by
  use h.scenes
  intro c o past hm
  rcases List.mem_append.1 hm with hm | hm
  · simp at hm
  · apply h.discards c o past hm

theorem run (h : l.Faithful ms) (hq : l.queue = []) (m : Move) :
  (m.run l).Faithful (m.moments l ++ ms)
  := by
  cases m with
  | deed d => apply h.deed d
  | frame deeds =>
    rw [run_frame hq, Move.moments]
    split
    · exact h
    · rw [List.append_assoc]
      apply (h.polled deeds).finished.visits
  | restyle => exact h.congr (restyle_spec l).1 fun _ _ _ hd => hd.restyle
  | addWindow c s =>
    use h.scenes
    intro c' o past hm
    exact (h.discards c' o past hm).idle id (addWindow_spec l c s).2
  | _ => exact ⟨h.scenes, h.discards⟩

end Faithful

/-! ### Visits -/

section

variable {now : Instant} {v : Visit}

/-- When a window is drawn, its canvas is visited after what is stale there was deleted. -/
theorem of_mem_windowVisits {w : Window} (hv : v ∈ l.windowVisits now w) :
  Studio.Course Studio.Act.Draws l.studio v.studio
    ∧ Studio.Course Studio.Act.Draws v.after (drawWindow now w l).2.studio
    ∧ ∀ o past, l.Discards v.canvas o past → v.studio.holdings.Renewed o past
  := by
  rw [windowVisits] at hv
  split at hv
  · rename_i hd
    rw [← repaintVisits_takeRepaint] at hv
    obtain ⟨hc, hbefore, hafter⟩ := exists_course_of_mem_repaintVisits hv
    have hfreshened := course_freshened (l.takeRepaint w).2 w
    rw [studio_takeRepaint] at hfreshened
    rw [drawWindow_of_repainted hd, hc]
    refine ⟨hfreshened.append hbefore, hafter, ?_⟩
    intro o past h
    apply hbefore.renewed (h.takeRepaint w).freshened
  · cases hv

theorem of_mem_drawVisits {ws : List Window} (hv : v ∈ drawVisits now ws l) :
  Studio.Course Studio.Act.Draws l.studio v.studio
    ∧ Studio.Course Studio.Act.Draws v.after (drawAll now ws l).2.studio
    ∧ ∀ o past, l.Discards v.canvas o past → v.studio.holdings.Renewed o past
  := by
  induction ws generalizing l with
  | nil => cases hv
  | cons w ws ih =>
    rw [drawAll_cons]
    rcases List.mem_append.1 hv with hv | hv
    · obtain ⟨hbefore, hafter, hrenews⟩ := of_mem_windowVisits hv
      exact ⟨hbefore, hafter.append (course_drawAll now ws _), hrenews⟩
    · obtain ⟨hbefore, hafter, hrenews⟩ := ih hv
      refine ⟨(draws_drawWindow now w l).course.append hbefore, hafter, ?_⟩
      intro o past h
      apply hrenews o past (h.drawWindow now w)

/-- A visit of a frame is one between its beginning and its end. -/
theorem of_mem_visits (hv : v ∈ l.visits) :
  Studio.Course Studio.Act.Draws l.animated.studio v.studio
    ∧ Studio.Course (fun _ _ => True) v.after l.finished.studio
    ∧ ∀ o past, l.Discards v.canvas o past → v.studio.holdings.Renewed o past
  := by
  obtain ⟨hbefore, hafter, hrenews⟩ := of_mem_drawVisits hv
  refine ⟨hbefore, ?_, ?_⟩
  · apply (hafter.mono fun _ _ _ => trivial).append (course_finished_of_drawn l)
  · intro o past h
    apply hrenews o past h.animated

end

/-! ### Runs -/

/-- What a loop holds can be traced after a move as before. -/
theorem traced_run (hq : l.queue = []) (ht : l.studio.holdings.Traced) {m : Move}
    (hd : (m.run l).studio.host.log.UploadsDiffer) :
  (m.run l).studio.holdings.Traced
  := by
  by_cases hm : ∃ deeds, m = .frame deeds
  · obtain ⟨deeds, rfl⟩ := hm
    rw [run_frame hq] at hd ⊢
    split at hd
    · rename_i hquit
      rw [if_pos hquit]
      exact ht
    · rename_i hquit
      rw [if_neg hquit]
      apply (course_finished _).traced _ hd
      rw [studio_animated]
      apply (Studio.Idles.record _ (e := .animated _) trivial).traced
      apply (idles_polled l deeds).traced ht
  · rw [not_exists] at hm
    apply (idles_run hm l).1.traced ht

/-- The calls of the visits of a move are made during the move, and what they draw from was
uploaded for their objects and has not been deleted. -/
theorem of_visited_mem (hq : l.queue = []) (ht : l.studio.holdings.Traced) {m : Move} {v : Visit}
    (hv : .visited v ∈ m.moments l) (hd : (m.run l).studio.host.log.UploadsDiffer) :
  (∃ later, (m.run l).studio.host.log.events = later ++ v.call :: v.log.events) ∧ v.Sound
  := by
  obtain ⟨deeds, rfl, hquit, hv⟩ := exists_frame_of_visited hv
  obtain ⟨hbefore, hafter, -⟩ := of_mem_visits hv
  rw [run_frame hq, if_neg hquit] at hd ⊢
  constructor
  · apply hafter.extends_log.events
  · have hanimated : (l.polled deeds).animated.studio.holdings.Traced := by
      rw [studio_animated]
      apply (Studio.Idles.record _ (e := .animated _) trivial).traced
      apply (idles_polled l deeds).traced ht
    have hlog : v.log.UploadsDiffer := by
      apply Log.Extends.uploadsDiffer _ hd
      apply (Host.extends_record v.provided.2.host v.call).trans hafter.extends_log
    apply Visit.sound_of_traced _ hlog
    apply hbefore.traced hanimated (v.course_provided.extends_log.uploadsDiffer hlog)

namespace Faithful

variable {ms : List Moment}

/-- The visits of a frame draw from no texture that was invalidated before. -/
theorem renews (h : l.Faithful ms) {v : Visit} (hv : v ∈ l.visits) {earlier : Moment}
    (he : earlier ∈ ms) :
  (Moment.visited v).Renews earlier
  := by
  obtain ⟨-, -, hrenews⟩ := of_mem_visits hv
  cases earlier with
  | visited v' => trivial
  | invalidated c o past =>
    rintro rfl rfl t ht
    apply Visit.created_of_renewed _ ht
    apply hrenews _ _ (h.discards _ _ past he)

theorem pairwise_run (h : l.Faithful ms) (hms : ms.Pairwise Moment.Renews) (m : Move) :
  (m.moments l ++ ms).Pairwise Moment.Renews
  := by
  have hinvalidated : ∀ ms' : List Moment, (∀ v, .visited v ∉ ms') →
      (ms' ++ ms).Pairwise Moment.Renews := by
    intro ms' hms'
    have hleft : ∀ later ∈ ms', ∀ earlier, later.Renews earlier := by
      intro later hl earlier
      cases later with
      | invalidated c o log => trivial
      | visited v => exact absurd hl (hms' v)
    rw [List.pairwise_append]
    refine ⟨?_, hms, fun later hl earlier _ => hleft later hl earlier⟩
    apply List.pairwise_of_forall_mem_list fun later hl earlier _ => hleft later hl earlier
  cases m with
  | deed d => apply hinvalidated _ (d.visited_notMem_moments l)
  | frame deeds =>
    rw [Move.moments]
    split
    · exact hms
    · rw [List.append_assoc, List.pairwise_append]
      refine ⟨?_, hinvalidated _ (visited_notMem_pollMoments l deeds), ?_⟩
      · apply List.pairwise_of_forall_mem_list
        intro later hl earlier he
        obtain ⟨v, -, rfl⟩ := List.mem_map.1 (List.mem_reverse.1 hl)
        obtain ⟨v', -, rfl⟩ := List.mem_map.1 (List.mem_reverse.1 he)
        trivial
      · intro later hl earlier he
        obtain ⟨v, hv, rfl⟩ := List.mem_map.1 (List.mem_reverse.1 hl)
        apply (h.polled deeds).renews hv he
  | _ => exact hms

end Faithful

section

variable (layouts : Layouts) (config : Config) (policy : Policy) (moves : List Move)

theorem faithful_play :
  let start := ofConfig layouts config policy
  (start.play moves).Faithful (along Move.moments start moves)
    ∧ (along Move.moments start moves).Pairwise Moment.Renews
  := by
  intro start
  induction moves using List.reverseRecOn with
  | nil =>
    constructor
    · exact ⟨fun _ => trivial, fun _ _ _ hm => absurd hm List.not_mem_nil⟩
    · exact List.Pairwise.nil
  | append_singleton moves m ih =>
    obtain ⟨hfaithful, hpairwise⟩ := ih
    have hq : (start.play moves).queue = [] := (settled_play layouts config policy moves).queue
    rw [play_concat, along_append]
    exact ⟨hfaithful.run hq m, hfaithful.pairwise_run hpairwise m⟩

theorem paints_play :
  let start := ofConfig layouts config policy
  (start.play moves).studio.host.log.paints
    = (along Move.moments start moves).filterMap Moment.paint?
  := by
  intro start
  induction moves using List.reverseRecOn with
  | nil => rfl
  | append_singleton moves m ih =>
    have hq : (start.play moves).queue = [] := (settled_play layouts config policy moves).queue
    rw [play_concat, along_append, paints_run hq, ih, List.filterMap_append]
    rfl

theorem traced_play
    (hd : ((ofConfig layouts config policy).play moves).studio.host.log.UploadsDiffer) :
  ((ofConfig layouts config policy).play moves).studio.holdings.Traced
  := by
  induction moves using List.reverseRecOn with
  | nil => apply Studio.traced_ofConfig
  | append_singleton moves m ih =>
    have hq := (settled_play layouts config policy moves).queue
    rw [play_concat] at hd ⊢
    apply traced_run hq (ih ((extends_log_run hq m).uploadsDiffer hd)) hd

/-- The painter never draws from a texture that was deleted or is stale.  Whatever is done to a new
loop, as long as no two uploads yield the same texture, all that is drawn is drawn in visits, and a
visit draws from a texture that was uploaded for its object, has not been deleted and was uploaded
after the object was invalidated last on the canvas.  Only if the upload fails in the visit itself
is a node drawn without the texture that it should have. -/
theorem paints_fresh_textures
    (hd : ((ofConfig layouts config policy).play moves).studio.host.log.UploadsDiffer) :
  let start := ofConfig layouts config policy
  let log := (start.play moves).studio.host.log
  let moments := along Move.moments start moves
  log.paints = moments.filterMap Moment.paint?
    ∧ moments.Pairwise Moment.Renews
    ∧ ∀ v, .visited v ∈ moments →
      (∃ later, log.events = later ++ v.call :: v.log.events) ∧ v.Sound
  := by
  intro start log moments
  refine ⟨paints_play layouts config policy moves,
    (faithful_play layouts config policy moves).2, ?_⟩
  intro v hv
  induction moves using List.reverseRecOn with
  | nil => exact absurd hv List.not_mem_nil
  | append_singleton moves m ih =>
    have hq : (start.play moves).queue = [] := (settled_play layouts config policy moves).queue
    have hrun : start.play (moves ++ [m]) = m.run (start.play moves) := play_concat _ _ _
    have hbefore : (start.play moves).studio.host.log.UploadsDiffer := by
      apply (extends_log_run hq m).uploadsDiffer
      rw [← hrun]
      exact hd
    dsimp only [moments, log] at hv ⊢
    rw [along_append] at hv
    rw [hrun]
    rcases List.mem_append.1 hv with hv | hv
    · rw [hrun] at hd
      exact of_visited_mem hq (traced_play layouts config policy moves hbefore) hv hd
    · obtain ⟨⟨later, hlater⟩, hsound⟩ := ih hbefore hv
      obtain ⟨new, hnew⟩ := (extends_log_run hq m).events
      refine ⟨⟨new ++ later, ?_⟩, hsound⟩
      rw [hnew, hlater, List.append_assoc]

end

/-- A scene has two objects, and the upload of the second fails.  The first is invalidated between
two frames, and again while the platform polls. -/
def invalidatedTwice : List Move :=
  [.addWindow ⟨1⟩ ⟨1⟩, .deed (.edit ⟨1⟩ (.addRoot (.ofTexture ⟨10⟩) .origin)),
    .deed (.edit ⟨1⟩ (.addRoot (.ofTexture ⟨11⟩) .origin)), .frame [],
    .deed (.edit ⟨1⟩ (.invalidate ⟨10⟩)), .frame [.edit ⟨1⟩ (.invalidate ⟨10⟩)]]

theorem paints_fresh_textures_invalidatedTwice :
  let policy : Policy :=
    { Policy.prompt with upload := fun l o => if o = ⟨11⟩ then none else Policy.prompt.upload l o }
  let start := ofConfig .spread .standard policy
  let moments := along Move.moments start invalidatedTwice
  (moments.filterMap Moment.paint?).map (fun p => (p.1, p.2.2))
      = [(⟨11⟩, none), (⟨10⟩, some ⟨2⟩), (⟨11⟩, none), (⟨10⟩, some ⟨1⟩)]
    ∧ moments.length = 6 ∧ moments.Pairwise Moment.Renews
    ∧ ∀ v, .visited v ∈ moments → v.Sound
  := by
  intro policy start moments
  obtain ⟨hpaints, hrenews, hvisits⟩ :=
    paints_fresh_textures .spread .standard policy invalidatedTwice (by decide +kernel)
  refine ⟨?_, by decide +kernel, hrenews, fun v hv => (hvisits v hv).2⟩
  dsimp only [moments]
  rw [← hpaints]
  decide +kernel

end FrameLoop

end FrameCache
