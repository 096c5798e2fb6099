import FrameCache.Proofs.Sparing

/-!
# Visits

A studio is silent while it only creates and gives back resources: its operations make calls of
no other kind, except for drawing.  When a canvas is painted its nodes are visited one after the
other; a `Visit` keeps the studio that it begins with.  The plain calls of drawing a window are
those that begin and end its frame, and between them one for each visit.
-/

namespace FrameCache

/-! ### Silent studios -/

namespace Studio

variable {s s' s'' : Studio}

/-- From `s` to `s'` no plain calls are made. -/
def Silent (s s' : Studio) : Prop :=
  ∃ es : List Event, s'.host = s.host.recordAll es ∧ ∀ e ∈ es, ¬ e.IsPlain

namespace Silent

theorem refl (s : Studio) :
  Silent s s
  := ⟨[], rfl, by simp⟩

theorem trans (h : Silent s s') (h' : Silent s' s'') :
  Silent s s''
  := by
  obtain ⟨es, hes, hp⟩ := h
  obtain ⟨es', hes', hp'⟩ := h'
  use es ++ es'
  constructor
  · rw [hes', hes, Host.recordAll_append]
  · intro e he
    rcases List.mem_append.1 he with he | he
    · apply hp e he
    · apply hp' e he

end Silent

theorem silent_dropTexture (s : Studio) (o : ObjectId) :
  Silent s (s.dropTexture o).2
  := by
  rw [dropTexture_eq]
  use (s.inventory.textures.resident o).toList.map (Event.textureDeleted o), rfl
  intro e he
  obtain ⟨t, -, rfl⟩ := List.mem_map.1 he
  exact id

theorem silent_dismantle (s : Studio) (o : ObjectId) (expiredAt : Option Instant) :
  Silent s (s.dismantle o expiredAt).2
  := by
  cases h : s.lapsedRenderer o expiredAt with
  | none =>
    rw [dismantle_of_none h]
    apply Silent.refl
  | some r =>
    rw [dismantle_of_some h]
    use .rendererDestroyed o r :: .rendererReleased o
      :: (s.inventory.textures.resident o).toList.map (Event.textureDeleted o), rfl
    intro e he
    rcases List.mem_cons.1 he with rfl | he
    · exact id
    rcases List.mem_cons.1 he with rfl | he
    · exact id
    obtain ⟨t, -, rfl⟩ := List.mem_map.1 he
    exact id

theorem silent_create (s : Studio) (o : ObjectId) :
  Silent s (s.create o)
  := ⟨[.rendererCreated o ⟨s.host.log.renderers + 1⟩], rfl, by simp [Event.IsPlain]⟩

theorem silent_texture (s : Studio) (o : ObjectId) :
  Silent s (s.texture o).2
  := by
  cases h : s.inventory.textures.peek o s.now with
  | some t =>
    rw [texture_of_live h]
    exact ⟨[], rfl, by simp⟩
  | none =>
    rw [texture_of_not_live h]
    exact ⟨[.textureCreated o (s.host.policy.upload s.host.log o)], rfl, by simp [Event.IsPlain]⟩

/-- An act makes plain calls only if it is a call. -/
theorem Act.silent_run (a : Act) (ha : ∀ e, a ≠ .call e) :
  Silent s (a.run s)
  := by
  cases a with
  | call e => exact absurd rfl (ha e)
  | create o => apply silent_create
  | dismantle o expiredAt => apply silent_dismantle
  | texture o => apply silent_texture
  | dropTexture o => apply silent_dropTexture
  | _ => exact ⟨[], rfl, by simp⟩

theorem Course.silent {P : Studio → Act → Prop} (hP : ∀ s a, P s a → ∀ e, a ≠ .call e)
    (h : Course P s s') :
  Silent s s'
  := by
  apply h.invariant (I := Silent s) _ (Silent.refl s)
  intro s' a hp _ hs
  apply hs.trans (a.silent_run (hP s' a hp))

theorem silent_sweep (s : Studio) (repainted : Bool) (refreshed : List CanvasId) :
  Silent s (s.sweep repainted refreshed).2
  := by
  apply (course_sweep s repainted refreshed).silent
  rintro _ _ ha e rfl
  exact ha

theorem silent_forgetCanvas (s : Studio) (c : CanvasId) :
  Silent s (s.forgetCanvas c).2
  := by
  apply (course_forgetCanvas s c).silent
  rintro _ _ ha e rfl
  exact ha

theorem silent_renderer (s : Studio) (o : ObjectId) :
  Silent s (s.renderer o).2
  := by
  cases h : s.inventory.renderers.peek o s.now with
  | some r =>
    rw [renderer_of_live h]
    exact ⟨[], rfl, by simp⟩
  | none =>
    rw [renderer_of_not_live h]
    have hfind : Silent s (s.query fun i now => i.findRenderer o now).2 := ⟨[], rfl, by simp⟩
    apply (hfind.trans (silent_dismantle _ o (some s.now))).trans
    apply silent_create

/-- Gets all that a node needs before it is drawn: it is mounted, and gets its renderer and its
texture. -/
def provide (s : Studio) (c : CanvasId) (n : Node) : Option Texture × Studio :=
  ((s.update fun i now => i.mount n.object ⟨c, n.kind⟩ now).provideRenderer n).provideTexture n

theorem paintNode_eq_provide (s : Studio) (c : CanvasId) (n : Node) (p : Position) :
  paintNode c s (n, p) = (s.provide c n).2.record (.painted n.object p (s.provide c n).1)
  := paintNode_eq c s n p

theorem silent_provide (s : Studio) (c : CanvasId) (n : Node) :
  Silent s (s.provide c n).2
  := by
  have hmount : Silent s (s.update fun i now => i.mount n.object ⟨c, n.kind⟩ now) :=
    ⟨[], rfl, by simp⟩
  have hrenderer : ∀ s : Studio, Silent s (s.provideRenderer n) := by
    intro s
    rw [provideRenderer]
    split
    · apply silent_renderer
    · apply Silent.refl
  have htexture : ∀ s : Studio, Silent s (s.provideTexture n).2 := by
    intro s
    rw [provideTexture]
    split
    · apply silent_texture
    · apply Silent.refl
  apply (hmount.trans (hrenderer _)).trans
  apply htexture

theorem silent_foldl_dropTexture (stale : List ObjectId) (s : Studio) :
  Silent s (stale.foldl (fun s o => (s.dropTexture o).2) s)
  := by
  apply List.foldlRecOn (motive := Silent s) _ _ (Silent.refl s)
  intro s' h o _
  apply h.trans (silent_dropTexture s' o)

theorem silent_keepAlive (s : Studio) (nodes : List (Node × Position)) :
  Silent s (s.keepAlive nodes).2
  := by
  rw [snd_keepAlive]
  apply List.foldlRecOn (motive := Silent s) _ _ (Silent.refl s)
  intro s' h n _
  exact h.trans ⟨[], rfl, by simp⟩

end Studio

/-! ### Plain calls -/

instance : DecidablePred Event.IsPlain
  | .rendererCreated _ _ | .rendererDestroyed _ _ | .rendererReleased _ => .isFalse id
  | .textureCreated _ _ | .textureDeleted _ _ => .isFalse id
  | .polled | .animated _ | .started | .stopped | .painted _ _ _ | .frameBegun _ => .isTrue trivial
  | .frameEnded _ | .walked _ | .fontCacheCleared | .swapped _ => .isTrue trivial
  | .contextReleased _ | .taskRun _ _ => .isTrue trivial

/-- The calls that neither create nor give back a resource, the latest first. -/
def Log.plain (l : Log) : List Event := l.events.filter fun e => e.IsPlain

theorem Log.filterMap_plain {α : Type} {f : Event → Option α}
    (hf : ∀ e : Event, ¬ e.IsPlain → f e = none) (l : Log) :
  l.plain.filterMap f = l.events.filterMap f
  := by
  rw [plain, List.filterMap_filter]
  congr 1
  funext e
  by_cases he : e.IsPlain
  · simp [he]
  · simp [he, hf e he]

namespace Studio

variable {s s' : Studio}

theorem Silent.plain (h : Silent s s') :
  s'.host.log.plain = s.host.log.plain
  := by
  obtain ⟨es, hes, hp⟩ := h
  have hnone : es.reverse.filter (fun e => e.IsPlain) = [] := by
    simpa using hp
  rw [Log.plain, hes, Host.events_recordAll, List.filter_append, hnone]
  rfl

theorem plain_record (s : Studio) {e : Event} (he : e.IsPlain) :
  (s.record e).host.log.plain = e :: s.host.log.plain
  := List.filter_cons_of_pos (decide_eq_true he)

end Studio

/-! ### Visits -/

/-- The visit of a node while its canvas is painted. -/
structure Visit where
  /-- The canvas. -/
  canvas : CanvasId
  /-- The node. -/
  node : Node
  /-- Where the node is drawn. -/
  position : Position
  /-- The studio before the visit. -/
  studio : Studio

namespace Visit

/-- The texture that the node is drawn from, and the studio when it is about to be drawn. -/
def provided (v : Visit) : Option Texture × Studio := v.studio.provide v.canvas v.node

/-- The texture that the node is drawn from. -/
def texture (v : Visit) : Option Texture := v.provided.1

/-- The calls made before the node is drawn. -/
def log (v : Visit) : Log := v.provided.2.host.log

/-- The call that draws the node. -/
def call (v : Visit) : Event := .painted v.node.object v.position v.texture

/-- The studio after the visit. -/
def after (v : Visit) : Studio := v.provided.2.record v.call

end Visit

namespace Studio

/-- The visits of the nodes of `c` when they are painted in order. -/
def visits (c : CanvasId) : Studio → List (Node × Position) → List Visit
  | _, [] => []
  | s, (n, p) :: nodes => ⟨c, n, p, s⟩ :: visits c (paintNode c s (n, p)) nodes

theorem map_visits (c : CanvasId) (s : Studio) (nodes : List (Node × Position)) :
  (s.visits c nodes).map (fun v => (v.node, v.position)) = nodes
  := by
  induction nodes generalizing s with
  | nil => rfl
  | cons n nodes ih => rw [visits, List.map_cons, ih]

theorem plain_paintAll (s : Studio) (c : CanvasId) (nodes : List (Node × Position)) :
  (s.paintAll c nodes).2.host.log.plain
    = ((s.visits c nodes).map Visit.call).reverse ++ s.host.log.plain
  := by
  rw [paintAll]
  induction nodes generalizing s with
  | nil => rfl
  | cons n nodes ih =>
    obtain ⟨n, p⟩ := n
    rw [List.foldl_cons, ih, visits, List.map_cons, List.reverse_cons, List.append_assoc,
      paintNode_eq_provide,
      plain_record _ (e := .painted n.object p (s.provide c n).1) trivial,
      (silent_provide s c n).plain]
    rfl

/-- Between the studio before all visits and the one afterwards, a visit takes place. -/
theorem exists_course_of_mem_visits {c : CanvasId} {s : Studio} {nodes : List (Node × Position)}
    {v : Visit} (hv : v ∈ s.visits c nodes) :
  v.canvas = c ∧ Course Act.Draws s v.studio ∧ Course Act.Draws v.after (s.paintAll c nodes).2
  := by
  rw [paintAll]
  induction nodes generalizing s with
  | nil => cases hv
  | cons n nodes ih =>
    rcases List.mem_cons.1 hv with rfl | hv
    · exact ⟨rfl, .nil s, course_paintAll (paintNode c s n) c nodes⟩
    · obtain ⟨hc, hbefore, hafter⟩ := ih hv
      exact ⟨hc, (course_paintNode c s n).append hbefore, hafter⟩

end Studio

/-- What a visit gets is got by a course of acts. -/
theorem Visit.course_provided (v : Visit) :
  Studio.Course Studio.Act.Draws v.studio v.provided.2
  := by
  apply Studio.Course.cons (.mount v.node.object ⟨v.canvas, v.node.kind⟩) trivial trivial
  apply (Studio.course_provideRenderer _ v.node).append
  apply Studio.course_provideTexture

/-! ### Drawing a window -/

/-- The objects of a canvas whose texture has changed. -/
def Canvas.stale (c : Canvas) : List ObjectId := c.takeStaleTextures.1

theorem Canvas.stale_mark (c : Canvas) (dirty : Bool) :
  (c.mark dirty).stale = c.stale
  := by
  cases c <;> rfl

/-- The plain calls with which `d` was done to a window, the earliest first; after it was painted
its surface shows that if `swaps` is set. -/
def Drawn.calls (d : Drawn) (w : Window) (visits : List Visit) (swaps : Bool) : List Event :=
  match d with
  | .left => []
  | .walked => [.walked w.canvas]
  | .repainted =>
    .frameBegun w.canvas :: visits.map Visit.call
      ++ .frameEnded w.canvas :: if swaps then [.swapped w.surface] else []

namespace FrameLoop

variable {l : FrameLoop}

/-- The studio when the canvas of a window is about to be painted: the textures that have changed
are deleted. -/
def freshened (l : FrameLoop) (w : Window) : Studio :=
  ((l.canvas w.canvas).stale.foldl (fun s o => (s.dropTexture o).2) l.studio).record
    (.frameBegun w.canvas)

/-- The visits when the canvas of a window is painted. -/
def repaintVisits (l : FrameLoop) (w : Window) : List Visit :=
  (l.freshened w).visits w.canvas (l.canvas w.canvas).walk

theorem course_freshened (l : FrameLoop) (w : Window) :
  Studio.Course Studio.Act.Draws l.studio (l.freshened w)
  := by
  apply (Studio.Course.foldl Studio.course_dropTexture (l.canvas w.canvas).stale l.studio).append
  apply Studio.course_record
  trivial

/-- A repaint visits the nodes of the canvas; then the frame ends and perhaps is shown. -/
theorem studio_repaint (l : FrameLoop) (w : Window) :
  ∃ swaps : Bool, (l.repaint w).studio
    = ((.frameEnded w.canvas) :: if swaps then [.swapped w.surface] else []).foldl Studio.record
      ((l.freshened w).paintAll w.canvas (l.canvas w.canvas).walk).2
  := by
  have hwalk : ((l.setCanvas w.canvas (l.canvas w.canvas).takeStaleTextures.2).canvas
      w.canvas).walk = (l.canvas w.canvas).walk := by
    apply SameScenes.walk
    apply sameScenes_setCanvas
    apply Canvas.content_takeStaleTextures
  rw [repaint_eq]
  dsimp only
  rw [hwalk]
  generalize l.setCanvas w.canvas (l.canvas w.canvas).takeStaleTextures.2 = l'
  obtain ⟨-, hstudio | hstudio⟩ := showPainted_spec { l' with
    studio := (repaintNodes l.studio w.canvas (l.canvas w.canvas).takeStaleTextures.1
      (l.canvas w.canvas).walk).record (.frameEnded w.canvas) } w
  · use false
    rw [hstudio]
    rfl
  · use true
    rw [hstudio]
    rfl

theorem plain_repaint (l : FrameLoop) (w : Window) :
  ∃ swaps, (l.repaint w).studio.host.log.plain
    = (Drawn.repainted.calls w (l.repaintVisits w) swaps).reverse ++ l.studio.host.log.plain
  := by
  obtain ⟨swaps, hstudio⟩ := studio_repaint l w
  have hstale := (Studio.silent_foldl_dropTexture (l.canvas w.canvas).stale l.studio).plain
  have hpainted : ((l.freshened w).paintAll w.canvas (l.canvas w.canvas).walk).2.host.log.plain
      = ((l.repaintVisits w).map Visit.call).reverse
        ++ .frameBegun w.canvas :: l.studio.host.log.plain := by
    rw [Studio.plain_paintAll, repaintVisits, ← hstale, freshened,
      Studio.plain_record _ (e := .frameBegun w.canvas) trivial]
  have hended : (((l.freshened w).paintAll w.canvas (l.canvas w.canvas).walk).2.record
      (.frameEnded w.canvas)).host.log.plain
      = (Drawn.repainted.calls w (l.repaintVisits w) false).reverse
        ++ l.studio.host.log.plain := by
    rw [Studio.plain_record _ (e := .frameEnded w.canvas) trivial, hpainted]
    simp [Drawn.calls]
  use swaps
  rw [hstudio]
  cases swaps with
  | false => exact hended
  | true =>
    refine (Studio.plain_record _ (e := .swapped w.surface) trivial).trans ?_
    rw [hended]
    simp [Drawn.calls]

theorem course_repaint_of_painted (l : FrameLoop) (w : Window) :
  Studio.Course Studio.Act.Draws ((l.freshened w).paintAll w.canvas (l.canvas w.canvas).walk).2
    (l.repaint w).studio
  := by
  obtain ⟨swaps, hstudio⟩ := studio_repaint l w
  rw [hstudio]
  apply course_calls
  cases swaps <;> simp [Event.IsPlain]

theorem course_repaint_of_freshened (l : FrameLoop) (w : Window) :
  Studio.Course Studio.Act.Draws (l.freshened w) (l.repaint w).studio
  := (Studio.course_paintAll _ _ _).append (course_repaint_of_painted l w)

/-- A visit takes place after the textures that have changed were deleted. -/
theorem exists_course_of_mem_repaintVisits {w : Window} {v : Visit} (hv : v ∈ l.repaintVisits w) :
  v.canvas = w.canvas ∧ Studio.Course Studio.Act.Draws (l.freshened w) v.studio
    ∧ Studio.Course Studio.Act.Draws v.after (l.repaint w).studio
  := by
  obtain ⟨hc, hbefore, hafter⟩ := Studio.exists_course_of_mem_visits hv
  exact ⟨hc, hbefore, hafter.append (course_repaint_of_painted l w)⟩

/-! ### Textures that have changed -/

theorem canvas_pollClosing (ws : List Window) (l : FrameLoop) (c : CanvasId) :
  (pollClosing ws l).2.canvas c = l.canvas c
  := by
  induction ws generalizing l with
  | nil => rfl
  | cons w ws ih =>
    rw [pollClosing_cons, ih, askWindow]
    split
    · rfl
    · rfl

theorem canvas_showPainted (l : FrameLoop) (w : Window) (c : CanvasId) :
  (l.showPainted w).canvas c = l.canvas c
  := by
  have hask : (l.askVisible w.surface).2.canvas c = l.canvas c := rfl
  rw [showPainted]
  split
  · rename_i h
    rw [← hask, h]
    split
    · rfl
    · rfl
  · rename_i h
    rw [← hask, h]

theorem stale_repaint (l : FrameLoop) (w : Window) (c : CanvasId) :
  ((l.repaint w).canvas c).stale = if c = w.canvas then [] else (l.canvas c).stale
  := by
  rw [repaint_eq]
  dsimp only
  rw [canvas_showPainted]
  change ((l.setCanvas w.canvas (l.canvas w.canvas).takeStaleTextures.2).canvas c).stale = _
  rw [canvas_setCanvas]
  split
  · cases l.canvas w.canvas <;> rfl
  · rfl

theorem stale_takeRepaint (l : FrameLoop) (w : Window) (c : CanvasId) :
  ((l.takeRepaint w).2.canvas c).stale = (l.canvas c).stale
  := by
  have hask : (l.askVisible w.surface).2.canvas c = l.canvas c := rfl
  rw [takeRepaint]
  split
  · rename_i h
    rw [← hask, h]
  · rename_i h
    rw [← hask, h]
    dsimp only
    rw [canvas_setCanvas]
    split
    · rename_i hc
      rw [hc]
      apply Canvas.stale_mark
    · rfl

/-- Looking whether a window has to be painted does not change what a repaint visits. -/
theorem freshened_takeRepaint (l : FrameLoop) (w : Window) :
  (l.takeRepaint w).2.freshened w = l.freshened w
  := by
  rw [freshened, freshened, stale_takeRepaint, studio_takeRepaint]

theorem repaintVisits_takeRepaint (l : FrameLoop) (w : Window) :
  (l.takeRepaint w).2.repaintVisits w = l.repaintVisits w
  := by
  rw [repaintVisits, repaintVisits, freshened_takeRepaint, (sameScenes_takeRepaint l w).walk]

/-! ### Drawing windows -/

/-- The visits when a window is drawn. -/
def windowVisits (now : Instant) (w : Window) (l : FrameLoop) : List Visit :=
  if (drawWindow now w l).1.1 = .repainted then l.repaintVisits w else []

theorem drawWindow_of_repainted {now : Instant} {w : Window}
    (h : (drawWindow now w l).1.1 = .repainted) :
  (drawWindow now w l).2 = (l.takeRepaint w).2.repaint w
  := by
  rw [drawWindow] at h ⊢
  split at h
  · cases h
  · rename_i hclosing
    rw [if_neg hclosing]
    split at h
    · rename_i l₀ hl
      rw [hl]
    · split at h
      · cases h
      · cases h

/-- A window that is not painted keeps the textures that have changed for later. -/
theorem stale_drawWindow_of_not_repainted {now : Instant} {w : Window}
    (h : (drawWindow now w l).1.1 ≠ .repainted) (c : CanvasId) :
  ((drawWindow now w l).2.canvas c).stale = (l.canvas c).stale
  := by
  have htake := stale_takeRepaint l w c
  rw [drawWindow] at h ⊢
  split
  · rfl
  · rename_i hclosing
    rw [if_neg hclosing] at h
    split
    · rename_i l₀ hl
      rw [hl] at h
      exact absurd rfl h
    · rename_i l₀ hl
      rw [← htake, hl]
      split
      · rfl
      · rfl

theorem plain_drawWindow (now : Instant) (w : Window) (l : FrameLoop) :
  ∃ swaps, (drawWindow now w l).2.studio.host.log.plain
    = ((drawWindow now w l).1.1.calls (drawWindow now w l).1.2 (l.windowVisits now w)
        swaps).reverse ++ l.studio.host.log.plain
  := by
  have hvisits := repaintVisits_takeRepaint l w
  have hstudio := studio_takeRepaint l w
  rw [windowVisits, drawWindow]
  split
  · use false
    rfl
  · split
    · rename_i l₀ h
      rw [h] at hvisits hstudio
      rw [← hvisits, ← hstudio]
      apply plain_repaint
    · rename_i l₀ h
      rw [h] at hstudio
      use false
      rw [← hstudio]
      split
      · dsimp only
        rw [Studio.plain_record _ (e := .walked w.canvas) trivial,
          (Studio.silent_keepAlive _ _).plain]
        rfl
      · rfl

/-! ### Moves that draw nothing -/

section

variable {α : Type} {f : Event → Option α}

theorem filterMap_restyle (hf : f .fontCacheCleared = none) (l : FrameLoop) :
  l.restyle.studio.host.log.events.filterMap f = l.studio.host.log.events.filterMap f
  := by
  rw [restyle]
  apply List.foldlRecOn (motive := fun l' : FrameLoop =>
    l'.studio.host.log.events.filterMap f = l.studio.host.log.events.filterMap f)
  · exact List.filterMap_cons_none hf
  · intro l' h w _
    apply h

theorem filterMap_polled (hp : f .polled = none) (hf : f .fontCacheCleared = none)
    (l : FrameLoop) (deeds : List Deed) :
  (l.polled deeds).studio.host.log.events.filterMap f = l.studio.host.log.events.filterMap f
  := by
  rw [polled]
  apply List.foldlRecOn (motive := fun l' : FrameLoop =>
    l'.studio.host.log.events.filterMap f = l.studio.host.log.events.filterMap f)
  · refine (List.filterMap_cons_none hp).trans ?_
    rw [receiveAll]
    split
    · rfl
    · split
      · rfl
      · apply filterMap_restyle hf
  · intro l' h d _
    rw [← h]
    cases d <;> rfl

end

end FrameLoop

end FrameCache
