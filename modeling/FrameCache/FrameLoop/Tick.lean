import FrameCache.FrameLoop.Queue
import FrameCache.Studio.Draw

/-!
# One frame

`FrameLoop.tick` runs one frame: it runs queued closures, receives settings changes, has
the platform poll its events, paints each window that is visible and has changed, walks the
others often enough to keep their entries alive, sweeps, and destroys the windows that were
asked to close.  Once the last window is gone the loop quits.

What the platform does when it polls is a function `poll` on a state of its own and the
loop.
-/

namespace FrameCache

/-- What a tick did. -/
@[ext]
structure TickSummary where
  /-- The closures run. -/
  tasks : Nat := 0
  /-- The windows painted. -/
  repainted : Nat := 0
  /-- The windows walked. -/
  walked : Nat := 0
  /-- The windows destroyed. -/
  closed : Nat := 0
  /-- What the sweep did. -/
  sweep : SweepSummary := .skipped
  /-- The phase of the loop after the tick. -/
  phase : Phase
  /-- A closure failed and the tick went no further. -/
  aborted : Bool := false
deriving DecidableEq

/-- What drawing did with a window. -/
inductive Drawn where
  /-- Nothing. -/
  | left
  /-- Its canvas was walked. -/
  | walked
  /-- Its canvas was painted. -/
  | repainted
deriving DecidableEq

namespace FrameLoop

/-- Asks the surfaces of the windows whether they should close. -/
def pollClosing : List Window → FrameLoop → List Window × FrameLoop
  | [], l => ([], l)
  | w :: ws, l =>
    let (w, l) :=
      if w.state = .shown then
        let (close, l) := l.askClose w.surface
        (if close then { w with state := .closing } else w, l)
      else (w, l)
    let (ws, l) := pollClosing ws l
    (w :: ws, l)

/-- Windows that are asked to close begin to. -/
def markClosing (l : FrameLoop) : FrameLoop :=
  let (windows, l) := pollClosing l.windows l
  { l with windows }

/-! ### Drawing -/

/-- Tells whether the canvas of a window has to be painted, and takes its mark off if the
window is visible. -/
def takeRepaint (l : FrameLoop) (w : Window) : Bool × FrameLoop :=
  match l.askVisible w.surface with
  | (false, l) => (false, l)
  | (true, l) =>
    let (dirty, state) := (l.canvas w.canvas).takeDirty
    (dirty, l.setCanvas w.canvas state)

/-- Paints the canvas of a window, after the textures that changed are deleted. -/
def repaint (l : FrameLoop) (w : Window) : FrameLoop :=
  let (objects, state) := (l.canvas w.canvas).takeStaleTextures
  let l := l.setCanvas w.canvas state
  let s := objects.foldl (fun s o => (s.dropTexture o).2) l.studio
  let s := s.record (.frameBegun w.canvas)
  let s := (s.paintAll w.canvas (l.canvas w.canvas).walk).2
  let s := s.record (.frameEnded w.canvas)
  match { l with studio := s }.askVisible w.surface with
  | (true, l) => if (l.surface w.surface).plain then l else l.record (.swapped w.surface)
  | (false, l) => l

/-- The entries of a window are due for renewal: a little before they could expire. -/
def walkDue (l : FrameLoop) (w : Window) (now : Instant) : Bool :=
  w.walkedAt.all fun last => l.config.lifetime.less l.config.walkMargin < now.since last

/-- Paints a window, walks it or leaves it alone. -/
def drawWindow (now : Instant) (w : Window) (l : FrameLoop) : (Drawn × Window) × FrameLoop :=
  if w.state = .closing then ((.left, w), l)
  else
    match l.takeRepaint w with
    | (true, l) => ((.repainted, { w with walkedAt := some now }), l.repaint w)
    | (false, l) =>
      if l.walkDue w now then
        let s := (l.studio.keepAlive (l.canvas w.canvas).walk).2
        ((.walked, { w with walkedAt := some now }),
          { l with studio := s.record (.walked w.canvas) })
      else ((.left, w), l)

/-- Draws windows in order. -/
def drawAll (now : Instant) : List Window → FrameLoop → List (Drawn × Window) × FrameLoop
  | [], l => ([], l)
  | w :: ws, l =>
    let (drawn, l) := drawWindow now w l
    let (rest, l) := drawAll now ws l
    (drawn :: rest, l)

/-- Draws all windows, and tells what was done with each. -/
def draw (l : FrameLoop) (now : Instant) : List (Drawn × Window) × FrameLoop :=
  let (drawn, l) := drawAll now l.windows l
  (drawn, { l with windows := drawn.map Prod.snd })

/-- The canvases that were painted. -/
def refreshed (drawn : List (Drawn × Window)) : List CanvasId :=
  (drawn.filter fun d => d.1 = .repainted).map fun d => d.2.canvas

/-! ### Closing -/

/-- Destroys a window: its canvas is forgotten and its context given back. -/
def destroy (l : FrameLoop) (w : Window) : FrameLoop :=
  { l with studio := (l.studio.forgetCanvas w.canvas).2.record (.contextReleased w.surface) }

/-- Destroys the windows that were asked to close, and counts them. -/
def closeWindows (l : FrameLoop) : Nat × FrameLoop :=
  let closing := l.windows.filter fun w => w.state = .closing
  let l := closing.foldl destroy l
  (closing.length, { l with windows := l.windows.filter fun w => w.state ≠ .closing })

/-! ### The tick -/

variable {ε : Type}

/-- Runs the part of a frame that follows the polling of events; `tasks` closures have run
before. -/
def finishTick (l : FrameLoop) (tasks : Nat) : TickSummary × FrameLoop :=
  let l := l.markClosing
  let now := l.studio.now
  let l := l.record (.animated now)
  let (drawn, l) := l.draw now
  let repainted := (refreshed drawn).length
  let (sweep, studio) := l.studio.sweep (0 < repainted) (refreshed drawn)
  let (closed, l) := { l with studio }.closeWindows
  let l := if 0 < closed ∧ l.windows = [] then l.quit else l
  ({ tasks, repainted, closed, sweep
     walked := drawn.countP fun d => d.1 = .walked
     phase := l.phase }, l)

/-- Runs one frame, unless the loop has quit. -/
def tick (poll : ε → FrameLoop → ε × FrameLoop) (e : ε) (l : FrameLoop) :
    TickSummary × ε × FrameLoop :=
  if l.phase = .quit then ({ phase := l.phase }, e, l)
  else
    match l.drain with
    | ((tasks, false), l) => ({ tasks, phase := l.phase, aborted := true }, e, l)
    | ((tasks, true), l) =>
      let (e, l) := poll e (l.receiveAll.record .polled)
      let (summary, l) := l.finishTick tasks
      (summary, e, l)

end FrameLoop

end FrameCache
