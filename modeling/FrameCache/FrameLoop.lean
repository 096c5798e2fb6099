import FrameCache.Canvas
import FrameCache.Studio.Sweep
import FrameCache.Surface
import FrameCache.Job

/-!
# The frame loop

A `FrameLoop` drives a studio: it owns the windows, each showing a canvas on a surface,
and receives settings changes, requests to quit and closures from other threads.  Canvases
and surfaces are kept in tables, so that several windows can show the same canvas.

This module holds the state of the loop and the operations that concern single parts of
it.  A frame is `FrameLoop.tick`, and the loop as a whole is a sequence of turns.
-/

namespace FrameCache

/-- The life of a window. -/
inductive WindowState where
  /-- It is shown. -/
  | shown
  /-- It was asked to close and goes at the end of the tick. -/
  | closing
deriving DecidableEq

/-- A canvas presented on a surface. -/
@[ext]
structure Window where
  /-- The canvas. -/
  canvas : CanvasId
  /-- The surface. -/
  surface : SurfaceId
  /-- Where it is in its life. -/
  state : WindowState := .shown
  /-- When its canvas was last painted or walked. -/
  walkedAt : Option Instant := none
deriving DecidableEq

/-- The life of the loop. -/
inductive Phase where
  /-- It has not been started. -/
  | idle
  /-- It runs. -/
  | running
  /-- It has quit for good. -/
  | quit
deriving DecidableEq

/-- The news that theme, scale or fonts have changed. -/
@[ext]
structure SettingsNotice where
  /-- The name of the new theme, if that is what changed. -/
  theme : Option String
deriving DecidableEq

/-- The receiving end of a channel of settings changes. -/
@[ext]
structure Mailbox where
  /-- The changes not yet received, the oldest first. -/
  pending : List SettingsNotice := []
  /-- There is still a sender. -/
  connected : Bool := true
deriving DecidableEq

/-- The state of the loop. -/
structure FrameLoop where
  /-- The caches and the host. -/
  studio : Studio
  /-- The canvases. -/
  canvases : Table CanvasId Canvas := .empty
  /-- The surfaces. -/
  surfaces : Table SurfaceId Surface := .empty
  /-- The windows, in the order they were added. -/
  windows : List Window := []
  /-- Where the loop is in its life. -/
  phase : Phase := .idle
  /-- The channel of settings changes, if the loop listens to one. -/
  settings : Option Mailbox := none
  /-- The requests to quit not yet received. -/
  quitRequests : Nat := 0
  /-- The thread that drives the loop. -/
  thread : ThreadId := ⟨0⟩
  /-- The thread claimed as the frame thread. -/
  owner : Option ThreadId := none
  /-- The closures not yet run, the oldest first. -/
  queue : List Ticket := []
  /-- The outcomes of the closures run for other threads, the oldest first. -/
  outcomes : List (ThreadId × Outcome) := []

namespace FrameLoop

/-- The loop of a configuration, without windows and before its start. -/
def ofConfig (layouts : Layouts) (c : Config) (policy : Policy) : FrameLoop where
  studio := .ofConfig layouts c policy

/-- The time constants. -/
def config (l : FrameLoop) : Config := l.studio.inventory.config

/-- The loop after a call to the host. -/
def record (l : FrameLoop) (e : Event) : FrameLoop := { l with studio := l.studio.record e }

/-! ### Canvases and surfaces -/

/-- The canvas of an identity; one that is not in the table is an empty scene. -/
def canvas (l : FrameLoop) (c : CanvasId) : Canvas := (l.canvases.find? c).getD (.scene .empty)

/-- The loop with another state of a canvas. -/
def setCanvas (l : FrameLoop) (c : CanvasId) (state : Canvas) : FrameLoop :=
  { l with canvases := l.canvases.insert c state }

/-- The surface of an identity; one that is not in the table has never been asked. -/
def surface (l : FrameLoop) (s : SurfaceId) : Surface := (l.surfaces.find? s).getD {}

/-- The loop with another state of a surface. -/
def setSurface (l : FrameLoop) (s : SurfaceId) (state : Surface) : FrameLoop :=
  { l with surfaces := l.surfaces.insert s state }

/-- Asks a surface whether it is visible. -/
def askVisible (l : FrameLoop) (s : SurfaceId) : Bool × FrameLoop :=
  let (visible, state) := (l.surface s).askVisible
  (visible, l.setSurface s state)

/-- Asks a surface whether it should close. -/
def askClose (l : FrameLoop) (s : SurfaceId) : Bool × FrameLoop :=
  let (close, state) := (l.surface s).askClose
  (close, l.setSurface s state)

/-! ### Windows -/

/-- Adds a window, whose canvas begins to be shown. -/
def addWindow (l : FrameLoop) (c : CanvasId) (s : SurfaceId) : FrameLoop :=
  { l with
    studio := l.studio.update fun i _ => i.register c
    windows := l.windows ++ [{ canvas := c, surface := s }] }

/-- The first window of a canvas. -/
def window? (l : FrameLoop) (c : CanvasId) : Option Window :=
  l.windows.find? fun w => w.canvas = c

/-- The loop in which the first window of `c` is due for a walk. -/
def forgetWalk (l : FrameLoop) (c : CanvasId) : FrameLoop :=
  { l with windows := go l.windows }
where
  /-- Resets the first window of `c` in a list. -/
  go : List Window → List Window
    | [] => []
    | w :: ws => if w.canvas = c then { w with walkedAt := none } :: ws else w :: go ws

/-- The loop quits. -/
def quit (l : FrameLoop) : FrameLoop := { l with phase := .quit }

/-! ### Settings -/

/-- Listens to a new channel instead of the one before. -/
def listen (l : FrameLoop) : FrameLoop := { l with settings := some {} }

/-- The loop listens to a channel that still has a sender. -/
def hasSender (l : FrameLoop) : Bool := l.settings.any Mailbox.connected

/-- Sends a settings change, if there is a sender. -/
def send (l : FrameLoop) (change : SettingsNotice) : FrameLoop :=
  { l with settings := l.settings.map fun m =>
      if m.connected then { m with pending := m.pending ++ [change] } else m }

/-- Drops the sender. -/
def dropSender (l : FrameLoop) : FrameLoop :=
  { l with settings := l.settings.map fun m => { m with connected := false } }

/-- Drops everything that depends on the theme and has each window's canvas apply the
settings again. -/
def restyle (l : FrameLoop) : FrameLoop :=
  let l := l.record .fontCacheCleared
  let l := { l with studio := l.studio.update fun i _ => i.forgetTheme }
  l.windows.foldl (fun l w => l.setCanvas w.canvas (l.canvas w.canvas).restyle) l

/-- Receives all pending settings changes, and applies the settings once if there were
any. -/
def receiveAll (l : FrameLoop) : FrameLoop :=
  match l.settings with
  | none => l
  | some m =>
    if m.pending.isEmpty then l
    else { l with settings := some { m with pending := [] } }.restyle

end FrameLoop

end FrameCache
