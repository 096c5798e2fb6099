import FrameCache.Proofs.WindowCalls

/-!
# The windows of a frame loop

Between frames all windows of a loop are shown.  If every window has a surface of its own, then
what the surface answers in a frame depends only on its state when the platform has polled its
events, and so it is decided at that moment which windows the frame destroys and which it keeps.
-/

namespace FrameCache

namespace Window

/-- Where a window is: its canvas and its surface. -/
def place (w : Window) : CanvasId × SurfaceId := (w.canvas, w.surface)

/-- The window once its surface has answered whether it should close. -/
def answered (w : Window) (close : Bool) : Window :=
  if close then { w with state := .closing } else w

theorem place_answered (w : Window) (close : Bool) :
  (w.answered close).place = w.place
  := by
  cases close <;> rfl

theorem state_answered {w : Window} (h : w.state = .shown) (close : Bool) :
  (w.answered close).state = .closing ↔ close = true
  := by
  cases close <;> simp [answered, h]

end Window

/-- The answer to whether a surface is visible does not depend on how often it was asked to
close. -/
theorem Surface.askVisible_askClose (s : Surface) :
  s.askClose.2.askVisible.1 = s.askVisible.1
  := by
  obtain ⟨visible, closing, closeFrom, hideAfter, plain, closePolls, visibilityPolls⟩ := s
  cases plain <;> rfl

namespace FrameLoop

variable {l : FrameLoop}

/-! ### Surfaces -/

theorem surface_setSurface (l : FrameLoop) (s s' : SurfaceId) (state : Surface) :
  (l.setSurface s state).surface s' = if s' = s then state else l.surface s'
  := by
  rw [surface, setSurface, Table.find?_insert]
  split
  · rfl
  · rfl

/-- The surface of a window says that it should close when it is asked next. -/
def wantsClose (l : FrameLoop) (w : Window) : Bool := (l.surface w.surface).askClose.1

/-- The surface of a window says that it is visible when it is asked next. -/
def isVisible (l : FrameLoop) (w : Window) : Bool := (l.surface w.surface).askVisible.1

theorem wantsClose_congr {w w' : Window} (h : w'.surface = w.surface) :
  l.wantsClose w' = l.wantsClose w
  := by
  rw [wantsClose, wantsClose, h]

theorem isVisible_congr {w w' : Window} (h : w'.surface = w.surface) :
  l.isVisible w' = l.isVisible w
  := by
  rw [isVisible, isVisible, h]

theorem surface_askWindow_of_ne (l : FrameLoop) {w : Window} {s : SurfaceId} (h : s ≠ w.surface) :
  (askWindow w l).2.surface s = l.surface s
  := by
  rw [askWindow]
  split
  · change (l.setSurface _ _).surface s = _
    rw [surface_setSurface, if_neg h]
  · rfl

theorem isVisible_askWindow (l : FrameLoop) (w w' : Window) :
  (askWindow w l).2.isVisible w' = l.isVisible w'
  := by
  rw [askWindow]
  split
  · change ((l.setSurface _ _).surface w'.surface).askVisible.1 = _
    rw [surface_setSurface]
    split
    · rename_i h
      rw [isVisible, h]
      apply Surface.askVisible_askClose
    · rfl
  · rfl

theorem surface_askVisible_of_ne (l : FrameLoop) {s s' : SurfaceId} (h : s' ≠ s) :
  (l.askVisible s).2.surface s' = l.surface s'
  := by
  change (l.setSurface _ _).surface s' = _
  rw [surface_setSurface, if_neg h]

theorem surface_takeRepaint_of_ne (l : FrameLoop) {w : Window} {s : SurfaceId}
    (h : s ≠ w.surface) :
  (l.takeRepaint w).2.surface s = l.surface s
  := by
  have hask := l.surface_askVisible_of_ne h
  rw [takeRepaint]
  split
  · rename_i hv
    rw [← hask, hv]
  · rename_i hv
    rw [← hask, hv]
    rfl

theorem surface_showPainted_of_ne (l : FrameLoop) {w : Window} {s : SurfaceId}
    (h : s ≠ w.surface) :
  (l.showPainted w).surface s = l.surface s
  := by
  have hask := l.surface_askVisible_of_ne h
  rw [showPainted]
  split
  · rename_i hv
    rw [← hask, hv]
    split
    · rfl
    · rfl
  · rename_i hv
    rw [← hask, hv]

/-- Drawing a window asks no surface but its own. -/
theorem surface_drawWindow_of_ne (now : Instant) (l : FrameLoop) {w : Window} {s : SurfaceId}
    (h : s ≠ w.surface) :
  (drawWindow now w l).2.surface s = l.surface s
  := by
  have htake := l.surface_takeRepaint_of_ne h
  rw [drawWindow]
  split
  · rfl
  · split
    · rename_i l₀ hl
      rw [hl] at htake
      rw [← htake, repaint_eq]
      apply surface_showPainted_of_ne _ h
    · rename_i l₀ hl
      rw [hl] at htake
      rw [← htake]
      split
      · rfl
      · rfl

/-! ### Asking the windows whether they close -/

/-- Windows on surfaces of their own give the answers that their surfaces would give at once. -/
theorem fst_pollClosing_of_nodup {ws : List Window} (hshown : ∀ w ∈ ws, w.state = .shown)
    (hn : (ws.map Window.surface).Nodup) (l : FrameLoop) :
  (pollClosing ws l).1 = ws.map fun w => w.answered (l.wantsClose w)
  := by
  induction ws generalizing l with
  | nil => rfl
  | cons w ws ih =>
    obtain ⟨hw, hn⟩ := List.nodup_cons.1 hn
    have hfirst : (askWindow w l).1 = w.answered (l.wantsClose w) := by
      rw [askWindow, if_pos (hshown w List.mem_cons_self)]
      rfl
    have hrest : ws.map (fun w' => w'.answered ((askWindow w l).2.wantsClose w'))
        = ws.map fun w' => w'.answered (l.wantsClose w') := by
      apply List.map_congr_left
      intro w' hw'
      have hne : w'.surface ≠ w.surface := by
        intro heq
        apply hw
        rw [← heq]
        apply List.mem_map_of_mem hw'
      rw [wantsClose, surface_askWindow_of_ne l hne]
      rfl
    rw [pollClosing_cons, hfirst, ih (fun w' hw' => hshown w' (List.mem_cons_of_mem _ hw')) hn,
      hrest, List.map_cons]

theorem isVisible_pollClosing (ws : List Window) (l : FrameLoop) (w : Window) :
  (pollClosing ws l).2.isVisible w = l.isVisible w
  := by
  induction ws generalizing l with
  | nil => rfl
  | cons w' ws ih => rw [pollClosing_cons, ih, isVisible_askWindow]

theorem isVisible_animated (l : FrameLoop) (w : Window) :
  l.animated.isVisible w = l.isVisible w
  := isVisible_pollClosing l.windows l w

/-! ### Drawing the windows -/

theorem Draws.surface_eq {now : Instant} {w w' : Window} {nodes : List (Node × Position)}
    {s s' : Studio} {d : Drawn} (h : Draws now w nodes s d w' s') :
  w'.surface = w.surface
  := by
  cases h <;> rfl

/-- Drawing leaves the windows where they are and in their state. -/
theorem places_drawAll (now : Instant) (ws : List Window) (l : FrameLoop) :
  (drawAll now ws l).1.map (fun d => (d.2.place, d.2.state))
    = ws.map fun w => (w.place, w.state)
  := by
  induction ws generalizing l with
  | nil => rfl
  | cons w ws ih =>
    have hdraws := draws_drawWindow now w l
    rw [drawAll_cons, List.map_cons, List.map_cons, ih, Window.place, hdraws.canvas_eq,
      hdraws.surface_eq, hdraws.state_eq]
    rfl

/-- A window that closes is not drawn. -/
theorem left_of_closing {now : Instant} {ws : List Window} {l : FrameLoop} {d : Drawn × Window}
    (hd : d ∈ (drawAll now ws l).1) (hclosing : d.2.state = .closing) :
  d.1 = .left
  := by
  induction ws generalizing l with
  | nil => cases hd
  | cons w ws ih =>
    rw [drawAll_cons] at hd
    rcases List.mem_cons.1 hd with rfl | hd
    · rw [(draws_drawWindow now w l).state_eq] at hclosing
      rw [drawWindow, if_pos hclosing]
    · apply ih hd

/-! ### Loops between frames -/

theorem shown_finished (l : FrameLoop) :
  ∀ w ∈ l.finished.windows, w.state = .shown
  := by
  intro w hw
  rw [l.finished_spec.2.2.2] at hw
  have hstate := (List.mem_filter.1 hw).2
  cases hw : w.state with
  | shown => rfl
  | closing => simp [hw] at hstate

/-- No closure is queued, and all windows are shown. -/
structure Settled (l : FrameLoop) : Prop where
  /-- No closure is queued. -/
  queue : l.queue = []
  /-- All windows are shown. -/
  shown : ∀ w ∈ l.windows, w.state = .shown

namespace Settled

theorem polled (h : l.Settled) (deeds : List Deed) :
  (l.polled deeds).Settled
  := by
  constructor
  · rw [FrameLoop.polled]
    apply List.foldlRecOn (motive := fun l' : FrameLoop => l'.queue = [])
    · rw [← h.queue, ← (receiveAll_spec l).1.queue]
      rfl
    · intro l' h' d _
      cases d <;> exact h'
  · rw [windows_polled]
    apply h.shown

theorem finished (h : l.Settled) :
  l.finished.Settled
  := by
  obtain ⟨-, -, hqueue, -⟩ := l.finished_spec
  constructor
  · rw [hqueue, (sameScenes_destroyAll _ _).queue, (sameScenes_swept l).queue, h.queue]
  · exact l.shown_finished

/-- Every move leaves a loop settled. -/
theorem run (h : l.Settled) (m : Move) :
  (m.run l).Settled
  := by
  cases m with
  | deed d => cases d <;> exact ⟨h.queue, h.shown⟩
  | listen => exact ⟨h.queue, h.shown⟩
  | quit => exact ⟨h.queue, h.shown⟩
  | addWindow c s =>
    use h.queue
    intro w hw
    rcases List.mem_append.1 hw with hw | hw
    · apply h.shown w hw
    · cases List.mem_singleton.1 hw
      rfl
  | forgetWalk c =>
    use h.queue
    intro w hw
    have hmem : w.state ∈ l.windows.map Window.state := by
      rw [← l.map_forgetWalk (fun _ => rfl) c]
      apply List.mem_map_of_mem hw
    obtain ⟨w', hw', hstate⟩ := List.mem_map.1 hmem
    rw [← hstate]
    apply h.shown w' hw'
  | restyle =>
    constructor
    · rw [Move.run, (restyle_spec l).1.queue, h.queue]
    · rw [Move.run, windows_restyle]
      apply h.shown
  | frame deeds =>
    rw [run_frame h.queue]
    split
    · apply h
    · apply (h.polled deeds).finished

end Settled

theorem settled_play (layouts : Layouts) (config : Config) (policy : Policy) (moves : List Move) :
  ((ofConfig layouts config policy).play moves).Settled
  := by
  apply play_invariant (I := Settled)
  · intro m _ l h
    apply h.run m
  · exact ⟨rfl, by simp [ofConfig]⟩

/-! ### Who stays and who goes -/

section

variable (h : ∀ w ∈ l.windows, w.state = .shown) (hn : (l.windows.map Window.surface).Nodup)
include h hn

theorem windows_animated :
  l.animated.windows = l.windows.map fun w => w.answered (l.wantsClose w)
  := fst_pollClosing_of_nodup h hn l

theorem surfaces_animated :
  l.animated.windows.map Window.surface = l.windows.map Window.surface
  := by
  rw [windows_animated h hn, List.map_map]
  apply List.map_congr_left
  intro w _
  exact congrArg Prod.snd (Window.place_answered w _)

/-- The windows that want to close are marked. -/
theorem state_of_mem_animated {w : Window} (hw : w ∈ l.animated.windows) :
  w.state = .closing ↔ l.wantsClose w = true
  := by
  rw [windows_animated h hn] at hw
  obtain ⟨w₀, hw₀, rfl⟩ := List.mem_map.1 hw
  have hsurface : (w₀.answered (l.wantsClose w₀)).surface = w₀.surface :=
    congrArg Prod.snd (Window.place_answered w₀ _)
  rw [Window.state_answered (h w₀ hw₀), wantsClose_congr hsurface]

/-- A window that wants to close is not drawn. -/
theorem left_of_wantsClose {d : Drawn × Window} (hd : d ∈ l.drawn.1)
    (hcloses : l.wantsClose d.2 = true) :
  d.1 = .left
  := by
  obtain ⟨w, hw, s, s', -, hdraws, -⟩ := exists_draws hd
  apply left_of_closing hd
  rw [hdraws.state_eq, state_of_mem_animated h hn hw, ← wantsClose_congr hdraws.surface_eq, hcloses]

/-- The windows of a frame are drawn in their order, and those that close are marked. -/
theorem places_drawn :
  l.drawn.1.map (fun d => (d.2.place, decide (d.2.state = .closing)))
    = l.windows.map fun w => (w.place, l.wantsClose w)
  := by
  have hdrawn := places_drawAll l.markClosing.studio.now l.animated.windows l.animated
  have hstate := congrArg (List.map (Prod.map id fun s => decide (s = WindowState.closing))) hdrawn
  have hanswered : l.animated.windows.map (fun w => (w.place, decide (w.state = .closing)))
      = l.windows.map fun w => (w.place, l.wantsClose w) := by
    rw [windows_animated h hn, List.map_map]
    apply List.map_congr_left
    intro w hw
    apply Prod.ext
    · apply Window.place_answered
    · apply Bool.eq_iff_iff.2
      apply decide_eq_true_iff.trans
      apply Window.state_answered (h w hw)
  rw [List.map_map, List.map_map] at hstate
  exact hstate.trans hanswered

/-- The windows of a loop that has been drawn, sorted out by whether they close. -/
theorem filter_drawn (close : Bool) :
  (l.swept.windows.filter fun w => decide (w.state = .closing) = close).map Window.place
    = (l.windows.filter fun w => l.wantsClose w = close).map Window.place
  := by
  have hplaces := congrArg (fun ps => (ps.filter fun p => decide (p.2 = close)).map Prod.fst)
    (places_drawn h hn)
  simp only [List.filter_map, List.map_map] at hplaces
  change (List.filter _ (l.drawn.1.map Prod.snd)).map Window.place = _
  rw [List.filter_map, List.map_map]
  exact hplaces

theorem places_closing :
  l.swept.closing.map Window.place = (l.windows.filter l.wantsClose).map Window.place
  := by
  have hfilter := filter_drawn h hn true
  simpa only [decide_eq_true_eq, Bool.decide_eq_true] using! hfilter

theorem places_finished :
  l.finished.windows.map Window.place
    = (l.windows.filter fun w => !l.wantsClose w).map Window.place
  := by
  have hfilter := filter_drawn h hn false
  rw [l.finished_spec.2.2.2]
  simpa [decide_eq_false_iff_not] using! hfilter

end

end FrameLoop

end FrameCache
