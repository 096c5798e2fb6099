import FrameCache.Proofs.Environment
import FrameCache.Proofs.Acts

/-!
# What a frame does to the windows

All stages of a frame leave the scenes alone, except for the marks of the canvases.  Drawing a
window leaves it as it is, walks its canvas or paints it; what this does to the studio is
`FrameLoop.Draws`, and drawing all windows does it for each of them in turn.  The parts of a loop
that a frame does not concern are `FrameLoop.Undrawn`.
-/

namespace FrameCache

namespace FrameLoop

variable {l l' l'' : FrameLoop}

/-! ### Loops with the same scenes -/

/-- The windows of the loops show the same canvases, the canvases differ at most in their marks,
and the same closures are queued. -/
structure SameScenes (l l' : FrameLoop) : Prop where
  /-- The windows show the same canvases. -/
  windows : l'.windows.map Window.canvas = l.windows.map Window.canvas
  /-- The closures queued are the same. -/
  queue : l'.queue = l.queue
  /-- The canvases have the same content. -/
  content : ∀ c, (l'.canvas c).content = (l.canvas c).content

namespace SameScenes

theorem refl (l : FrameLoop) :
  SameScenes l l
  := ⟨rfl, rfl, fun _ => rfl⟩

theorem trans (h : SameScenes l l') (h' : SameScenes l' l'') :
  SameScenes l l''
  := by
  constructor
  · rw [h'.windows, h.windows]
  · rw [h'.queue, h.queue]
  · intro c
    rw [h'.content, h.content]

theorem walk (h : SameScenes l l') (c : CanvasId) :
  (l'.canvas c).walk = (l.canvas c).walk
  := by
  rw [← Canvas.walk_content, h.content, Canvas.walk_content]

theorem all (h : SameScenes l l') {P : Node → Prop} {c : CanvasId} (ha : (l.canvas c).All P) :
  (l'.canvas c).All P
  := by
  rw [← Canvas.all_content, h.content, Canvas.all_content]
  apply ha

end SameScenes

theorem sameScenes_studio (l : FrameLoop) (s : Studio) :
  SameScenes l { l with studio := s }
  := ⟨rfl, rfl, fun _ => rfl⟩

theorem canvas_setCanvas (l : FrameLoop) (c c' : CanvasId) (state : Canvas) :
  (l.setCanvas c state).canvas c' = if c' = c then state else l.canvas c'
  := by
  rw [canvas, setCanvas, Table.find?_insert]
  split
  · rfl
  · rfl

theorem sameScenes_setCanvas (l : FrameLoop) {c : CanvasId} {state : Canvas}
    (h : state.content = (l.canvas c).content) :
  SameScenes l (l.setCanvas c state)
  := by
  constructor
  · rfl
  · rfl
  · intro c'
    rw [canvas_setCanvas]
    split
    · rename_i hc
      rw [h, hc]
    · rfl

/-! ### Asking the surfaces -/

theorem sameScenes_askClose (l : FrameLoop) (s : SurfaceId) :
  SameScenes l (l.askClose s).2
  := ⟨rfl, rfl, fun _ => rfl⟩

theorem sameScenes_askVisible (l : FrameLoop) (s : SurfaceId) :
  SameScenes l (l.askVisible s).2
  := ⟨rfl, rfl, fun _ => rfl⟩

/-- Asks the surface of a window whether it should close. -/
def askWindow (w : Window) (l : FrameLoop) : Window × FrameLoop :=
  if w.state = .shown then
    (if (l.askClose w.surface).1 then { w with state := .closing } else w,
      (l.askClose w.surface).2)
  else (w, l)

theorem pollClosing_cons (w : Window) (ws : List Window) (l : FrameLoop) :
  pollClosing (w :: ws) l
    = ((askWindow w l).1 :: (pollClosing ws (askWindow w l).2).1,
      (pollClosing ws (askWindow w l).2).2)
  := rfl

theorem sameScenes_askWindow (w : Window) (l : FrameLoop) :
  SameScenes l (askWindow w l).2 ∧ (askWindow w l).2.studio = l.studio
  := by
  rw [askWindow]
  split
  · exact ⟨sameScenes_askClose l w.surface, rfl⟩
  · exact ⟨SameScenes.refl l, rfl⟩

/-- Asking whether a window closes changes its state only. -/
theorem fst_askWindow (w : Window) (l : FrameLoop) :
  (askWindow w l).1.canvas = w.canvas ∧ (askWindow w l).1.walkedAt = w.walkedAt
  := by
  rw [askWindow]
  split
  · dsimp only
    split
    · exact ⟨rfl, rfl⟩
    · exact ⟨rfl, rfl⟩
  · exact ⟨rfl, rfl⟩

theorem sameScenes_pollClosing (ws : List Window) (l : FrameLoop) :
  SameScenes l (pollClosing ws l).2 ∧ (pollClosing ws l).2.studio = l.studio
  := by
  induction ws generalizing l with
  | nil => exact ⟨SameScenes.refl l, rfl⟩
  | cons w ws ih =>
    obtain ⟨hscenes, hstudio⟩ := sameScenes_askWindow w l
    obtain ⟨hscenes', hstudio'⟩ := ih (askWindow w l).2
    rw [pollClosing_cons]
    constructor
    · apply hscenes.trans hscenes'
    · rw [hstudio', hstudio]

theorem fst_pollClosing (ws : List Window) (l : FrameLoop) :
  (pollClosing ws l).1.map (fun w => (w.canvas, w.walkedAt))
    = ws.map fun w => (w.canvas, w.walkedAt)
  := by
  induction ws generalizing l with
  | nil => rfl
  | cons w ws ih =>
    obtain ⟨hcanvas, hwalked⟩ := fst_askWindow w l
    rw [pollClosing_cons, List.map_cons, List.map_cons, ih, hcanvas, hwalked]

theorem studio_markClosing (l : FrameLoop) :
  l.markClosing.studio = l.studio
  := (sameScenes_pollClosing l.windows l).2

theorem windows_markClosing (l : FrameLoop) :
  l.markClosing.windows.map (fun w => (w.canvas, w.walkedAt))
    = l.windows.map fun w => (w.canvas, w.walkedAt)
  := fst_pollClosing l.windows l

theorem sameScenes_markClosing (l : FrameLoop) :
  SameScenes l l.markClosing
  := by
  obtain ⟨hscenes, -⟩ := sameScenes_pollClosing l.windows l
  refine ⟨?_, hscenes.queue, hscenes.content⟩
  have hwindows := congrArg (List.map Prod.fst) l.windows_markClosing
  rw [List.map_map, List.map_map] at hwindows
  apply hwindows

/-! ### Drawing a window -/

theorem studio_takeRepaint (l : FrameLoop) (w : Window) :
  (l.takeRepaint w).2.studio = l.studio
  := by
  rw [takeRepaint]
  split
  · rename_i h
    rw [show l.studio = (l.askVisible w.surface).2.studio from rfl, h]
  · rename_i h
    rw [show l.studio = (l.askVisible w.surface).2.studio from rfl, h]
    rfl

theorem sameScenes_takeRepaint (l : FrameLoop) (w : Window) :
  SameScenes l (l.takeRepaint w).2
  := by
  have hask := sameScenes_askVisible l w.surface
  rw [takeRepaint]
  split
  · rename_i h
    rw [h] at hask
    apply hask
  · rename_i h
    rw [h] at hask
    apply hask.trans
    apply sameScenes_setCanvas
    apply Canvas.content_mark

/-- Deletes the textures `stale` and paints the nodes of `c`. -/
def repaintNodes (s : Studio) (c : CanvasId) (stale : List ObjectId)
    (nodes : List (Node × Position)) : Studio :=
  ((stale.foldl (fun s o => (s.dropTexture o).2) s).record (.frameBegun c)).paintAll c nodes |>.2

/-- Has the surface of a window show what was painted, if it is visible. -/
def showPainted (l : FrameLoop) (w : Window) : FrameLoop :=
  match l.askVisible w.surface with
  | (true, l) => if (l.surface w.surface).plain then l else l.record (.swapped w.surface)
  | (false, l) => l

theorem repaint_eq (l : FrameLoop) (w : Window) :
  l.repaint w
    = let r := (l.canvas w.canvas).takeStaleTextures
      let l' := l.setCanvas w.canvas r.2
      let s := repaintNodes l.studio w.canvas r.1 (l'.canvas w.canvas).walk
      showPainted { l' with studio := s.record (.frameEnded w.canvas) } w
  := rfl

theorem showPainted_spec (l : FrameLoop) (w : Window) :
  SameScenes l (l.showPainted w) ∧ ((l.showPainted w).studio = l.studio
    ∨ (l.showPainted w).studio = l.studio.record (.swapped w.surface))
  := by
  have hscenes := sameScenes_askVisible l w.surface
  have hstudio : (l.askVisible w.surface).2.studio = l.studio := rfl
  rw [showPainted]
  split
  · rename_i l' h
    rw [h] at hscenes hstudio
    split
    · exact ⟨hscenes, Or.inl hstudio⟩
    · rw [record, hstudio]
      exact ⟨hscenes.trans ⟨rfl, rfl, fun _ => rfl⟩, Or.inr rfl⟩
  · rename_i l' h
    rw [h] at hscenes hstudio
    exact ⟨hscenes, Or.inl hstudio⟩

/-- A repaint changes the studio by painting, and then perhaps swapping buffers. -/
theorem repaint_spec (l : FrameLoop) (w : Window) :
  SameScenes l (l.repaint w) ∧ ∃ stale, ∃ calls : List Event, (∀ e ∈ calls, e.IsPlain)
    ∧ (l.repaint w).studio
      = calls.foldl Studio.record
        (repaintNodes l.studio w.canvas stale (l.canvas w.canvas).walk)
  := by
  have hset : SameScenes l (l.setCanvas w.canvas (l.canvas w.canvas).takeStaleTextures.2) := by
    apply sameScenes_setCanvas
    apply Canvas.content_takeStaleTextures
  rw [repaint_eq]
  dsimp only
  rw [hset.walk]
  generalize l.setCanvas w.canvas (l.canvas w.canvas).takeStaleTextures.2 = l' at hset
  have hpainted := hset.trans (sameScenes_studio l'
    ((repaintNodes l.studio w.canvas (l.canvas w.canvas).takeStaleTextures.1
      (l.canvas w.canvas).walk).record (.frameEnded w.canvas)))
  obtain ⟨hscenes, hstudio | hstudio⟩ := showPainted_spec { l' with
    studio := (repaintNodes l.studio w.canvas (l.canvas w.canvas).takeStaleTextures.1
      (l.canvas w.canvas).walk).record (.frameEnded w.canvas) } w
  · use hpainted.trans hscenes, (l.canvas w.canvas).takeStaleTextures.1, [.frameEnded w.canvas]
    constructor
    · simp [Event.IsPlain]
    · rw [hstudio]
      rfl
  · use hpainted.trans hscenes, (l.canvas w.canvas).takeStaleTextures.1,
      [.frameEnded w.canvas, .swapped w.surface]
    constructor
    · simp [Event.IsPlain]
    · rw [hstudio]
      rfl

/-- Drawing the window `w`, with the nodes `nodes` on its canvas, in the studio `s`: what is
done, the window and the studio afterwards. -/
inductive Draws (now : Instant) (w : Window) (nodes : List (Node × Position)) (s : Studio) :
    Drawn → Window → Studio → Prop where
  /-- A window that closes, or is not due for a walk, can be left as it is. -/
  | left (h : w.state = .closing ∨ w.walkedAt.all (fun last =>
      s.inventory.config.lifetime.less s.inventory.config.walkMargin < now.since last) = false) :
    Draws now w nodes s .left w s
  /-- The canvas is walked. -/
  | walked : Draws now w nodes s .walked { w with walkedAt := some now }
      ((s.keepAlive nodes).2.record (.walked w.canvas))
  /-- Textures are deleted and the canvas is painted. -/
  | repainted (stale : List ObjectId) (calls : List Event) (hc : ∀ e ∈ calls, e.IsPlain) :
    Draws now w nodes s .repainted { w with walkedAt := some now }
      (calls.foldl Studio.record (repaintNodes s w.canvas stale nodes))

theorem sameScenes_drawWindow (now : Instant) (w : Window) (l : FrameLoop) :
  SameScenes l (drawWindow now w l).2
  := by
  have htake := sameScenes_takeRepaint l w
  rw [drawWindow]
  split
  · apply SameScenes.refl
  · split
    · rename_i l₀ h
      rw [h] at htake
      apply htake.trans (repaint_spec l₀ w).1
    · rename_i l₀ h
      rw [h] at htake
      split
      · exact SameScenes.trans htake (sameScenes_studio l₀ _)
      · apply htake

/-- Drawing a window draws it. -/
theorem draws_drawWindow (now : Instant) (w : Window) (l : FrameLoop) :
  Draws now w (l.canvas w.canvas).walk l.studio (drawWindow now w l).1.1 (drawWindow now w l).1.2
    (drawWindow now w l).2.studio
  := by
  have hscenes := sameScenes_takeRepaint l w
  have hstudio := studio_takeRepaint l w
  rw [drawWindow]
  split
  · rename_i hclosing
    apply Draws.left (Or.inl hclosing)
  · split
    · rename_i l₀ h
      rw [h] at hscenes hstudio
      rw [← hscenes.walk, ← hstudio]
      obtain ⟨-, stale, calls, hcalls, hs⟩ := repaint_spec l₀ w
      dsimp only
      rw [hs]
      apply Draws.repainted stale calls hcalls
    · rename_i l₀ h
      rw [h] at hscenes hstudio
      rw [← hscenes.walk, ← hstudio]
      split
      · apply Draws.walked
      · rename_i hdue
        apply Draws.left (Or.inr _)
        apply Bool.eq_false_iff.2 hdue

section

variable {now : Instant} {w w' : Window} {nodes : List (Node × Position)} {s s' : Studio}
  {d : Drawn}

theorem Draws.canvas_eq (h : Draws now w nodes s d w' s') :
  w'.canvas = w.canvas
  := by
  cases h <;> rfl

theorem Draws.state_eq (h : Draws now w nodes s d w' s') :
  w'.state = w.state
  := by
  cases h <;> rfl

theorem Draws.walkedAt_eq (h : Draws now w nodes s d w' s') (hd : d ≠ .left) :
  w'.walkedAt = some now
  := by
  cases h with
  | left => exact absurd rfl hd
  | walked => rfl
  | repainted => rfl

theorem course_repaintNodes (s : Studio) (c : CanvasId) (stale : List ObjectId)
    (nodes : List (Node × Position)) :
  Studio.Course Studio.Act.Draws s (repaintNodes s c stale nodes)
  := by
  apply (Studio.Course.foldl Studio.course_dropTexture stale s).append
  apply (Studio.course_record _ (e := .frameBegun c) trivial).append
  apply Studio.course_paintAll

theorem course_calls (s : Studio) {calls : List Event} (hc : ∀ e ∈ calls, e.IsPlain) :
  Studio.Course Studio.Act.Draws s (calls.foldl Studio.record s)
  := by
  induction calls generalizing s with
  | nil => apply Studio.Course.nil
  | cons e calls ih =>
    apply (Studio.course_record s (hc e List.mem_cons_self)).append
    apply ih _ fun e' he' => hc e' (List.mem_cons_of_mem _ he')

/-- Drawing a window takes nothing away but textures, and renderers that have lapsed. -/
theorem Draws.course (h : Draws now w nodes s d w' s') :
  Studio.Course Studio.Act.Draws s s'
  := by
  cases h with
  | left h => apply Studio.Course.nil
  | walked =>
    apply (Studio.course_keepAlive s nodes).append
    apply Studio.course_record
    trivial
  | repainted stale calls hc =>
    apply (course_repaintNodes s w.canvas stale nodes).append
    apply course_calls _ hc

end

/-! ### Drawing all windows -/

theorem drawAll_cons (now : Instant) (w : Window) (ws : List Window) (l : FrameLoop) :
  drawAll now (w :: ws) l
    = ((drawWindow now w l).1 :: (drawAll now ws (drawWindow now w l).2).1,
      (drawAll now ws (drawWindow now w l).2).2)
  := rfl

/-- What drawing a window keeps is kept by drawing all. -/
theorem drawAll_invariant {I : FrameLoop → Prop} {now : Instant} {ws : List Window}
    (hI : ∀ w ∈ ws, ∀ l, I l → I (drawWindow now w l).2) (h : I l) :
  I (drawAll now ws l).2
  := by
  induction ws generalizing l with
  | nil => apply h
  | cons w ws ih =>
    apply ih
    · intro w' hw'
      apply hI w' (List.mem_cons_of_mem _ hw')
    · apply hI w List.mem_cons_self l h

theorem sameScenes_drawAll (now : Instant) (ws : List Window) (l : FrameLoop) :
  SameScenes l (drawAll now ws l).2
  := by
  apply drawAll_invariant (I := SameScenes l)
  · intro w _ l' h
    apply h.trans (sameScenes_drawWindow now w l')
  · apply SameScenes.refl

theorem course_drawAll (now : Instant) (ws : List Window) (l : FrameLoop) :
  Studio.Course Studio.Act.Draws l.studio (drawAll now ws l).2.studio
  := by
  apply drawAll_invariant (I := fun l' =>
    Studio.Course Studio.Act.Draws l.studio l'.studio)
  · intro w _ l' h
    apply h.append (draws_drawWindow now w l').course
  · apply Studio.Course.nil

/-- Every window is drawn at some point between the studio before and the one afterwards. -/
theorem exists_draws {now : Instant} {ws : List Window} {d : Drawn × Window}
    (hd : d ∈ (drawAll now ws l).1) :
  ∃ w ∈ ws, ∃ s s', Studio.Course Studio.Act.Draws l.studio s
    ∧ Draws now w (l.canvas w.canvas).walk s d.1 d.2 s'
    ∧ Studio.Course Studio.Act.Draws s' (drawAll now ws l).2.studio
  := by
  induction ws generalizing l with
  | nil => cases hd
  | cons w ws ih =>
    have hdraws := draws_drawWindow now w l
    rw [drawAll_cons] at hd ⊢
    rcases List.mem_cons.1 hd with rfl | hd
    · use w, List.mem_cons_self, l.studio, (drawWindow now w l).2.studio
      exact ⟨.nil _, hdraws, course_drawAll now ws _⟩
    · obtain ⟨w', hw', s, s', hbefore, hdraw, hafter⟩ := ih hd
      rw [(sameScenes_drawWindow now w l).walk] at hdraw
      use w', List.mem_cons_of_mem _ hw', s, s'
      exact ⟨hdraws.course.append hbefore, hdraw, hafter⟩

theorem canvases_drawAll (now : Instant) (ws : List Window) (l : FrameLoop) :
  ((drawAll now ws l).1.map fun d => d.2.canvas) = ws.map Window.canvas
  := by
  induction ws generalizing l with
  | nil => rfl
  | cons w ws ih =>
    rw [drawAll_cons, List.map_cons, List.map_cons, ih, (draws_drawWindow now w l).canvas_eq]

theorem sameScenes_draw (l : FrameLoop) (now : Instant) :
  SameScenes l (l.draw now).2
  := by
  have hscenes := sameScenes_drawAll now l.windows l
  refine ⟨?_, hscenes.queue, hscenes.content⟩
  change ((drawAll now l.windows l).1.map Prod.snd).map Window.canvas = _
  rw [List.map_map]
  apply canvases_drawAll

/-! ### The stages of a frame -/

theorem studio_animated (l : FrameLoop) :
  l.animated.studio = l.studio.record (.animated l.studio.now)
  := by
  rw [animated, record, studio_markClosing]

theorem sameScenes_animated (l : FrameLoop) :
  SameScenes l l.animated
  := (sameScenes_markClosing l).trans ⟨rfl, rfl, fun _ => rfl⟩

theorem sameScenes_drawn (l : FrameLoop) :
  SameScenes l l.drawn.2
  := (sameScenes_animated l).trans (sameScenes_draw _ _)

theorem sameScenes_swept (l : FrameLoop) :
  SameScenes l l.swept
  := (sameScenes_drawn l).trans (sameScenes_studio _ _)

theorem studio_swept (l : FrameLoop) :
  l.swept.studio = (l.drawn.2.studio.sweep (0 < (refreshed l.drawn.1).length)
    (refreshed l.drawn.1)).2
  := rfl

/-- The loop once the windows `ws` are destroyed. -/
def destroyAll (l : FrameLoop) (ws : List Window) : FrameLoop := ws.foldl destroy l

theorem sameScenes_destroyAll (l : FrameLoop) (ws : List Window) :
  SameScenes l (l.destroyAll ws)
  := by
  apply List.foldlRecOn (motive := SameScenes l) _ _ (SameScenes.refl l)
  intro l' h w _
  apply h.trans (sameScenes_studio _ _)

theorem course_destroyAll (l : FrameLoop) (ws : List Window) :
  Studio.Course (fun _ _ => True) l.studio (l.destroyAll ws).studio
  := by
  apply List.foldlRecOn (motive := fun l' : FrameLoop =>
    Studio.Course (fun _ _ => True) l.studio l'.studio)
  · apply Studio.Course.nil
  · intro l' h w _
    apply h.append
    apply ((Studio.course_forgetCanvas l'.studio w.canvas).mono fun _ _ _ => trivial).append
    apply (Studio.course_record _ (e := .contextReleased w.surface) trivial).mono
    intro _ _ _
    trivial

/-- The windows asked to close. -/
def closing (l : FrameLoop) : List Window := l.windows.filter fun w => w.state = .closing

theorem windows_destroyAll (l : FrameLoop) (ws : List Window) :
  (l.destroyAll ws).windows = l.windows
  := by
  apply List.foldlRecOn (motive := fun l' : FrameLoop => l'.windows = l.windows)
  · rfl
  · intro l' h w _
    apply h

/-- A frame ends with the windows asked to close destroyed and the others kept. -/
theorem finished_spec (l : FrameLoop) :
  l.finished.studio = (l.swept.destroyAll l.swept.closing).studio
    ∧ l.finished.canvases = (l.swept.destroyAll l.swept.closing).canvases
    ∧ l.finished.queue = (l.swept.destroyAll l.swept.closing).queue
    ∧ l.finished.windows = l.swept.windows.filter fun w => w.state ≠ .closing
  := by
  have hwindows := l.swept.windows_destroyAll l.swept.closing
  rw [finished, closeWindows]
  dsimp only
  split
  · refine ⟨rfl, rfl, rfl, ?_⟩
    change (l.swept.destroyAll l.swept.closing).windows.filter _ = _
    rw [hwindows]
  · refine ⟨rfl, rfl, rfl, ?_⟩
    change (l.swept.destroyAll l.swept.closing).windows.filter _ = _
    rw [hwindows]

/-- Sweeping and destroying windows leave the canvases alone. -/
theorem canvas_finished (l : FrameLoop) (c : CanvasId) :
  l.finished.canvas c = l.drawn.2.canvas c
  := by
  have hdestroy : ∀ ws : List Window, (l.swept.destroyAll ws).canvases = l.swept.canvases := by
    intro ws
    apply List.foldlRecOn (motive := fun l' : FrameLoop => l'.canvases = l.swept.canvases)
    · rfl
    · intro l' h w _
      apply h
  rw [canvas, l.finished_spec.2.1, hdestroy]
  rfl

theorem walk_finished (l : FrameLoop) (c : CanvasId) :
  (l.finished.canvas c).walk = (l.canvas c).walk
  := by
  rw [canvas_finished]
  apply (sameScenes_drawn l).walk

theorem course_drawn (l : FrameLoop) :
  Studio.Course Studio.Act.Draws l.animated.studio l.drawn.2.studio
  := course_drawAll _ _ _

theorem course_finished_of_drawn (l : FrameLoop) :
  Studio.Course (fun _ _ => True) l.drawn.2.studio l.finished.studio
  := by
  rw [l.finished_spec.1]
  apply Studio.Course.append _ (course_destroyAll _ _)
  rw [studio_swept]
  apply (Studio.course_sweep _ _ _).mono fun _ _ _ => trivial

/-- From the moment that the animations have moved, a frame is a course of acts. -/
theorem course_finished (l : FrameLoop) :
  Studio.Course (fun _ _ => True) l.animated.studio l.finished.studio
  := ((course_drawn l).mono fun _ _ _ => trivial).append (course_finished_of_drawn l)

/-! ### What a frame does not concern -/

/-- A part of a loop that has nothing to do with its studio, canvases, surfaces and windows. -/
def Undrawn {α : Type} (f : FrameLoop → α) : Prop :=
  ∀ (l : FrameLoop) studio canvases surfaces windows,
    f { l with studio, canvases, surfaces, windows } = f l

namespace Undrawn

variable {α : Type} {f : FrameLoop → α} (h : Undrawn f)
include h

theorem pollClosing_eq (ws : List Window) (l : FrameLoop) :
  f (pollClosing ws l).2 = f l
  := by
  induction ws generalizing l with
  | nil => rfl
  | cons w ws ih =>
    rw [pollClosing_cons, ih, askWindow]
    split
    · exact h l _ _ _ _
    · rfl

theorem askVisible_eq (l : FrameLoop) (s : SurfaceId) :
  f (l.askVisible s).2 = f l
  := h l _ _ _ _

theorem takeRepaint_eq (l : FrameLoop) (w : Window) :
  f (l.takeRepaint w).2 = f l
  := by
  rw [← h.askVisible_eq l w.surface, takeRepaint]
  split
  · rename_i hask
    rw [hask]
  · rename_i hask
    rw [hask]
    exact h _ _ _ _ _

theorem showPainted_eq (l : FrameLoop) (w : Window) :
  f (l.showPainted w) = f l
  := by
  rw [← h.askVisible_eq l w.surface, showPainted]
  split
  · rename_i hask
    rw [hask]
    split
    · rfl
    · exact h _ _ _ _ _
  · rename_i hask
    rw [hask]

theorem drawWindow_eq (now : Instant) (w : Window) (l : FrameLoop) :
  f (drawWindow now w l).2 = f l
  := by
  rw [drawWindow]
  split
  · rfl
  · rw [← h.takeRepaint_eq l w]
    split
    · rename_i l₀ htake
      rw [htake, repaint_eq]
      exact (h.showPainted_eq _ w).trans (h l₀ _ _ _ _)
    · rename_i l₀ htake
      rw [htake]
      split
      · exact h l₀ _ _ _ _
      · rfl

/-- Nothing else changes until the windows are drawn and the caches are swept. -/
theorem swept_eq (l : FrameLoop) :
  f l.swept = f l
  := by
  have hanimated : f l.animated = f l :=
    (h (pollClosing l.windows l).2 _ _ _ _).trans (h.pollClosing_eq l.windows l)
  have hdrawn : f (drawAll l.markClosing.studio.now l.animated.windows l.animated).2 = f l := by
    apply drawAll_invariant (I := fun l' => f l' = f l) _ hanimated
    intro w _ l' hl'
    rw [h.drawWindow_eq, hl']
  exact (h (drawAll l.markClosing.studio.now l.animated.windows l.animated).2 _ _ _ _).trans hdrawn

theorem destroyAll_eq (l : FrameLoop) (ws : List Window) :
  f (l.destroyAll ws) = f l
  := by
  apply List.foldlRecOn (motive := fun l' : FrameLoop => f l' = f l)
  · rfl
  · intro l' hl' w _
    rw [← hl']
    exact h l' _ _ _ _

theorem restyle_eq (l : FrameLoop) :
  f l.restyle = f l
  := by
  rw [restyle]
  apply List.foldlRecOn (motive := fun l' : FrameLoop => f l' = f l)
  · exact h l _ _ _ _
  · intro l' hl' w _
    rw [← hl']
    exact h l' _ _ _ _

/-- Nothing else changes in the rest of a frame, except that the loop may quit. -/
theorem finished_eq (hquit : ∀ l : FrameLoop, f l.quit = f l) (l : FrameLoop) :
  f l.finished = f l
  := by
  have hclosed : f l.swept.closeWindows.2 = f l :=
    (h (l.swept.destroyAll l.swept.closing) _ _ _ _).trans
      ((h.destroyAll_eq _ _).trans (h.swept_eq l))
  rw [finished]
  dsimp only
  split
  · exact (hquit _).trans hclosed
  · exact hclosed

end Undrawn

theorem undrawn_phase :
  Undrawn phase
  := fun _ _ _ _ _ => rfl

end FrameLoop

end FrameCache
