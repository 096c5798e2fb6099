import FrameCache.FrameLoop.Tick
import FrameCache.Proofs.SceneNodes
import FrameCache.Proofs.Teardown

/-!
# The environment of a frame loop

A frame loop is used by moves: a `Deed` is done to it by its environment, which edits canvases,
has surfaces hide and close, changes settings and lets time pass; and a `Move` is a deed, the use
of an operation of the loop, or a frame.  In a frame the platform does deeds while it polls its
events.  `FrameLoop.play` makes moves one after the other.

The stages of a frame are named: `FrameLoop.polled`, `FrameLoop.animated`, `FrameLoop.drawn` and
`FrameLoop.swept` are what a frame makes of the loop until it has polled its events, moved its
animations, drawn its windows and swept.
-/

namespace FrameCache

/-! ### Edits -/

/-- A change that the owner of a scene makes. -/
inductive Edit where
  | addRoot (n : Node) (offset : Position)
  | addChild (parent : Nat) (n : Node) (offset : Position)
  | remove (slot : Nat)
  | invalidate (o : ObjectId)
  | setDirty

/-- The canvas after an edit.  Only scenes can be edited. -/
def Edit.run : Canvas → Edit → Canvas
  | .scene s, .addRoot n offset => .scene (s.addRoot n offset).2
  | .scene s, .addChild parent n offset => .scene (s.addChild parent n offset).2
  | .scene s, .remove slot => .scene (s.remove slot)
  | .scene s, .invalidate o => .scene (s.markStale o)
  | .scene s, .setDirty => (Canvas.scene s).setDirty
  | .sheet s, _ => .sheet s

/-- The node is drawn as the kind of its object. -/
def Node.Fits (kind : ObjectId → ObjectKind) (n : Node) : Prop := n.kind = kind n.object

/-- Only fitting nodes are put on a canvas. -/
def Edit.Respects (kind : ObjectId → ObjectKind) : Edit → Prop
  | .addRoot n _ | .addChild _ n _ => n.Fits kind
  | _ => True

theorem Edit.all_run {kind : ObjectId → ObjectKind} {c : Canvas} {e : Edit}
    (he : e.Respects kind) (h : c.All (Node.Fits kind)) :
  (e.run c).All (Node.Fits kind)
  := by
  cases c with
  | sheet s => apply h
  | scene s =>
    cases e with
    | addRoot n offset => apply Scene.All.addRoot h he
    | addChild parent n offset => apply Scene.All.addChild h parent he
    | remove slot => apply Scene.All.remove h
    | invalidate o => apply Scene.All.congr h rfl
    | setDirty => apply Scene.All.congr h rfl

/-! ### Deeds and moves -/

/-- What the environment does to a frame loop at any time. -/
inductive Deed where
  | clock (t : Instant)
  | edit (c : CanvasId) (e : Edit)
  | surface (s : SurfaceId) (state : Surface)
  | send (change : SettingsNotice)
  | dropSender

namespace Deed

/-- The loop after a deed. -/
def run (l : FrameLoop) : Deed → FrameLoop
  | .clock t => { l with studio := l.studio.atTime t }
  | .edit c e => l.setCanvas c (e.run (l.canvas c))
  | .surface s state => l.setSurface s state
  | .send change => l.send change
  | .dropSender => l.dropSender

/-- Only fitting nodes are put on canvases. -/
def Respects (kind : ObjectId → ObjectKind) : Deed → Prop
  | .edit _ e => e.Respects kind
  | _ => True

end Deed

/-- A use of a frame loop, or something that its environment does to it. -/
inductive Move where
  | deed (d : Deed)
  | addWindow (c : CanvasId) (s : SurfaceId)
  | forgetWalk (c : CanvasId)
  | listen
  | restyle
  | quit
  /-- A frame, in which the platform does `deeds` while it polls. -/
  | frame (deeds : List Deed)

namespace Move

/-- The loop after a move. -/
def run (l : FrameLoop) : Move → FrameLoop
  | .deed d => d.run l
  | .addWindow c s => l.addWindow c s
  | .forgetWalk c => l.forgetWalk c
  | .listen => l.listen
  | .restyle => l.restyle
  | .quit => l.quit
  | .frame deeds => (l.tick (fun _ l => ((), deeds.foldl Deed.run l)) ()).2.2

/-- Only fitting nodes are put on canvases. -/
def Respects (kind : ObjectId → ObjectKind) : Move → Prop
  | .deed d => d.Respects kind
  | .frame deeds => ∀ d ∈ deeds, d.Respects kind
  | _ => True

end Move

namespace FrameLoop

/-- Makes moves one after the other. -/
def play (l : FrameLoop) (moves : List Move) : FrameLoop := moves.foldl Move.run l

/-- What every move keeps is kept by all moves together. -/
theorem play_invariant {I : FrameLoop → Prop} {moves : List Move} {l : FrameLoop}
    (hI : ∀ m ∈ moves, ∀ l, I l → I (m.run l)) (h : I l) :
  I (l.play moves)
  := by
  apply List.foldlRecOn (motive := I) _ _ h
  intro l' hl' m hm
  apply hI m hm l' hl'

/-! ### What is said of a run -/

section

variable {α : Type}

/-- What `f` says of deeds done one after the other, the latest first. -/
def alongDeeds (f : FrameLoop → Deed → List α) : FrameLoop → List Deed → List α
  | _, [] => []
  | l, d :: deeds => alongDeeds f (d.run l) deeds ++ f l d

/-- What `f` says of moves made one after the other, the latest first. -/
def along (f : FrameLoop → Move → List α) : FrameLoop → List Move → List α
  | _, [] => []
  | l, m :: moves => along f (m.run l) moves ++ f l m

theorem along_append (f : FrameLoop → Move → List α) (l : FrameLoop) (moves moves' : List Move) :
  along f l (moves ++ moves') = along f (l.play moves) moves' ++ along f l moves
  := by
  induction moves generalizing l with
  | nil => exact (List.append_nil _).symm
  | cons m moves ih =>
    rw [List.cons_append, along, along, ih, List.append_assoc]
    rfl

end

/-! ### The stages of a frame -/

/-- The loop once a frame has polled its events, with the platform doing `deeds`. -/
def polled (l : FrameLoop) (deeds : List Deed) : FrameLoop :=
  deeds.foldl Deed.run (l.receiveAll.record .polled)

/-- The loop once the windows were asked whether they close and the animations have moved. -/
def animated (l : FrameLoop) : FrameLoop :=
  l.markClosing.record (.animated l.markClosing.studio.now)

/-- What was done with the windows, and the loop once they are drawn. -/
def drawn (l : FrameLoop) : List (Drawn × Window) × FrameLoop :=
  l.animated.draw l.markClosing.studio.now

/-- The loop once it is swept. -/
def swept (l : FrameLoop) : FrameLoop :=
  { l.drawn.2 with
    studio := (l.drawn.2.studio.sweep (0 < (refreshed l.drawn.1).length) (refreshed l.drawn.1)).2 }

/-- The loop once the windows asked to close are gone. -/
def finished (l : FrameLoop) : FrameLoop :=
  let (closed, l) := l.swept.closeWindows
  if 0 < closed ∧ l.windows = [] then l.quit else l

/-- As long as no closure is queued a frame goes through all of its stages. -/
theorem run_frame {l : FrameLoop} (hq : l.queue = []) (deeds : List Deed) :
  (Move.frame deeds).run l = if l.phase = .quit then l else (l.polled deeds).finished
  := by
  have hdrain : l.drain = ((0, true), l) := by
    obtain ⟨studio, canvases, surfaces, windows, phase, settings, quits, thread, owner, queue,
      outcomes⟩ := l
    cases hq
    rfl
  rw [Move.run, tick, hdrain]
  split
  · rfl
  · rfl

end FrameLoop

end FrameCache
