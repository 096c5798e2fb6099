import FrameCache.Proofs.Visits

/-!
# Calls for windows

A `WindowCall` is a call made for a window: its canvas is painted or walked, its surface shows
what was painted, or its context is given back.  The window calls of a frame are, window by
window, those that belong to what was done with the windows, and after them one for each window
that is destroyed.
-/

namespace FrameCache

/-! ### Window calls -/

/-- A call made for a window, without the resources used in it. -/
inductive WindowCall where
  /-- The painter begins a frame of the canvas. -/
  | begun (c : CanvasId)
  /-- The painter draws an object of the canvas. -/
  | painted (o : ObjectId) (p : Position)
  /-- The painter ends a frame of the canvas. -/
  | ended (c : CanvasId)
  /-- The canvas lists its nodes without being painted. -/
  | walked (c : CanvasId)
  /-- The surface shows what was drawn. -/
  | swapped (s : SurfaceId)
  /-- The surface gives its graphics context back. -/
  | released (s : SurfaceId)

/-- The call as one made for a window. -/
def Event.windowCall? : Event → Option WindowCall
  | .frameBegun c => some (.begun c)
  | .painted o p _ => some (.painted o p)
  | .frameEnded c => some (.ended c)
  | .walked c => some (.walked c)
  | .swapped s => some (.swapped s)
  | .contextReleased s => some (.released s)
  | _ => none

theorem Event.windowCall?_of_not_isPlain {e : Event} (h : ¬ e.IsPlain) :
  e.windowCall? = none
  := by
  cases e <;> first | rfl | exact absurd trivial h

/-- The calls made for windows so far, the latest first. -/
def Log.windowCalls (l : Log) : List WindowCall := l.events.filterMap Event.windowCall?

theorem Log.windowCalls_plain (l : Log) :
  l.plain.filterMap Event.windowCall? = l.windowCalls
  := l.filterMap_plain fun _ => Event.windowCall?_of_not_isPlain

/-- The calls for a window with which `d` was done, the earliest first, when `nodes` are the
nodes on its canvas; after it was painted its surface shows that if `swaps` is set. -/
def Drawn.windowCalls (d : Drawn) (w : Window) (nodes : List (Node × Position)) (swaps : Bool) :
    List WindowCall :=
  match d with
  | .left => []
  | .walked => [.walked w.canvas]
  | .repainted =>
    .begun w.canvas :: nodes.map (fun n => .painted n.1.object n.2)
      ++ .ended w.canvas :: if swaps then [.swapped w.surface] else []

theorem Drawn.filterMap_calls (d : Drawn) (w : Window) (visits : List Visit) (swaps : Bool) :
  (d.calls w visits swaps).filterMap Event.windowCall?
    = d.windowCalls w (visits.map fun v => (v.node, v.position)) swaps
  := by
  cases d with
  | left => rfl
  | walked => rfl
  | repainted =>
    have hvisits : (visits.map Visit.call).filterMap Event.windowCall?
        = visits.map fun v => WindowCall.painted v.node.object v.position := by
      rw [List.filterMap_map]
      exact congrFun List.filterMap_eq_map visits
    cases swaps <;> simp [calls, windowCalls, Event.windowCall?, hvisits]

namespace Studio

variable {s s' : Studio}

theorem Silent.windowCalls (h : Silent s s') :
  s'.host.log.windowCalls = s.host.log.windowCalls
  := by
  rw [← Log.windowCalls_plain, h.plain, Log.windowCalls_plain]

theorem windowCalls_record (s : Studio) (e : Event) :
  (s.record e).host.log.windowCalls = e.windowCall?.toList ++ s.host.log.windowCalls
  := by
  change (e :: s.host.log.events).filterMap Event.windowCall? = _
  rw [List.filterMap_cons]
  cases e.windowCall? <;> rfl

end Studio

namespace FrameLoop

variable {l : FrameLoop}

/-! ### The calls of a frame -/

theorem windowCalls_drawWindow (now : Instant) (w : Window) (l : FrameLoop) :
  ∃ swaps, (drawWindow now w l).2.studio.host.log.windowCalls
    = ((drawWindow now w l).1.1.windowCalls (drawWindow now w l).1.2 (l.canvas w.canvas).walk
        swaps).reverse ++ l.studio.host.log.windowCalls
  := by
  obtain ⟨swaps, hplain⟩ := plain_drawWindow now w l
  have hcalls : (drawWindow now w l).1.1.windowCalls (drawWindow now w l).1.2
      ((l.windowVisits now w).map fun v => (v.node, v.position)) swaps
      = (drawWindow now w l).1.1.windowCalls (drawWindow now w l).1.2 (l.canvas w.canvas).walk
        swaps := by
    rw [windowVisits]
    split
    · rw [repaintVisits, Studio.map_visits]
    · rename_i hd
      cases h : (drawWindow now w l).1.1 with
      | repainted => exact absurd h hd
      | _ => rfl
  use swaps
  rw [← Log.windowCalls_plain, hplain, List.filterMap_append, List.filterMap_reverse,
    Drawn.filterMap_calls, hcalls, Log.windowCalls_plain]

/-- What was done with a window, and the calls that this leads to. -/
def Calls (l : FrameLoop) (d : Drawn × Window) (calls : List WindowCall) : Prop :=
  ∃ swaps, calls = d.1.windowCalls d.2 (l.canvas d.2.canvas).walk swaps

theorem SameScenes.calls {l' : FrameLoop} (h : SameScenes l l') :
  l'.Calls = l.Calls
  := by
  funext d calls
  rw [Calls, Calls, h.walk]

/-- Drawing windows makes the calls that belong to what is done with them, in their order. -/
theorem windowCalls_drawAll (now : Instant) (ws : List Window) (l : FrameLoop) :
  ∃ calls, List.Forall₂ l.Calls (drawAll now ws l).1 calls
    ∧ (drawAll now ws l).2.studio.host.log.windowCalls
      = calls.flatten.reverse ++ l.studio.host.log.windowCalls
  := by
  induction ws generalizing l with
  | nil => exact ⟨[], .nil, rfl⟩
  | cons w ws ih =>
    obtain ⟨swaps, hw⟩ := windowCalls_drawWindow now w l
    obtain ⟨calls, hcalls, hws⟩ := ih (drawWindow now w l).2
    rw [(sameScenes_drawWindow now w l).calls] at hcalls
    rw [drawAll_cons]
    use (drawWindow now w l).1.1.windowCalls (drawWindow now w l).1.2 (l.canvas w.canvas).walk
      swaps :: calls
    constructor
    · refine List.Forall₂.cons ⟨swaps, ?_⟩ hcalls
      rw [(draws_drawWindow now w l).canvas_eq]
    · rw [hws, hw, List.flatten_cons, List.reverse_append, List.append_assoc]

theorem windowCalls_drawn (l : FrameLoop) :
  ∃ calls, List.Forall₂ l.Calls l.drawn.1 calls
    ∧ l.drawn.2.studio.host.log.windowCalls
      = calls.flatten.reverse ++ l.studio.host.log.windowCalls
  := by
  obtain ⟨calls, hcalls, hlog⟩ := windowCalls_drawAll l.markClosing.studio.now
    l.animated.windows l.animated
  rw [(sameScenes_animated l).calls] at hcalls
  use calls, hcalls
  change (drawAll l.markClosing.studio.now l.animated.windows
    l.animated).2.studio.host.log.windowCalls = _
  rw [hlog, studio_animated, Studio.windowCalls_record]
  rfl

theorem windowCalls_destroyAll (l : FrameLoop) (ws : List Window) :
  (l.destroyAll ws).studio.host.log.windowCalls
    = (ws.map fun w => WindowCall.released w.surface).reverse ++ l.studio.host.log.windowCalls
  := by
  induction ws generalizing l with
  | nil => rfl
  | cons w ws ih =>
    change ((l.destroy w).destroyAll ws).studio.host.log.windowCalls = _
    rw [ih, destroy, Studio.windowCalls_record, (Studio.silent_forgetCanvas _ _).windowCalls,
      List.map_cons, List.reverse_cons, List.append_assoc]
    rfl

/-- The window calls of a frame that follow on the polling of events. -/
theorem windowCalls_finished (l : FrameLoop) :
  ∃ calls, List.Forall₂ l.Calls l.drawn.1 calls
    ∧ l.finished.studio.host.log.windowCalls
      = (l.swept.closing.map fun w => WindowCall.released w.surface).reverse
        ++ calls.flatten.reverse ++ l.studio.host.log.windowCalls
  := by
  obtain ⟨calls, hcalls, hlog⟩ := windowCalls_drawn l
  use calls, hcalls
  rw [l.finished_spec.1, windowCalls_destroyAll, studio_swept,
    (Studio.silent_sweep _ _ _).windowCalls, hlog, List.append_assoc]

/-! ### Moves without window calls -/

theorem windowCalls_restyle (l : FrameLoop) :
  l.restyle.studio.host.log.windowCalls = l.studio.host.log.windowCalls
  := filterMap_restyle rfl l

theorem windowCalls_polled (l : FrameLoop) (deeds : List Deed) :
  (l.polled deeds).studio.host.log.windowCalls = l.studio.host.log.windowCalls
  := filterMap_polled rfl rfl l deeds

end FrameLoop

end FrameCache
