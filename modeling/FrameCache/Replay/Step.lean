import FrameCache.FrameLoop.Tick

/-!
# The steps of a session

A session drives a frame loop from the outside.  An `Action` can be taken at any time, also
by the platform while the loop runs; a `SessionStep` is an action or a use of the loop
itself.  Each gives an `Answer`.
-/

namespace FrameCache

/-- The calls whose duration a session can choose. -/
inductive TimedCall where
  | poll
  | animate
  | paint
  | createRenderer
  | createTexture
deriving DecidableEq

/-- Something that can be done at any time. -/
inductive Action where
  /-- Moves the clock by a length of time. -/
  | advance (d : Duration)
  /-- Moves the clock forward to an instant. -/
  | set (d : Duration)
  /-- Has calls of one sort take some time from now on. -/
  | cost (call : TimedCall) (d : Duration)
  /-- Has the uploads of all textures, or of those of some objects, fail from now on. -/
  | failTextures (all : Bool) (objects : List ObjectId)
  | measured (k : TextKey)
  | setMeasured (k : TextKey) (v : TextMetric)
  | icon (k : IconKey)
  | setIcon (k : IconKey) (v : IconRaster)
  | forgetTheme
  | register (c : CanvasId)
  | isRegistered (c : CanvasId)
  | canvasOf (o : ObjectId)
  | mount (o : ObjectId) (m : Mounting)
  | touch (o : ObjectId)
  | forgetCanvas (c : CanvasId)
  | renderer (o : ObjectId)
  | findRenderer (o : ObjectId)
  | hasRenderer (o : ObjectId)
  | setTheme (o : ObjectId) (t : WidgetTheme)
  | themeOf (o : ObjectId)
  | texture (o : ObjectId)
  | findTexture (o : ObjectId)
  | dropTexture (o : ObjectId)
  | sweep (repainted : Bool) (refreshed : List CanvasId)
  /-- Asks the schedule for a decision without sweeping. -/
  | decideAt (repainted : Bool) (refreshed : List CanvasId)
  /-- Looks at the schedule. -/
  | schedule
  /-- Looks at the statistics. -/
  | metrics
  /-- Makes a scene, or a sheet if it is to be flat. -/
  | scene (flat : Bool)
  | add (c : CanvasId) (n : Node) (parent : Option Nat) (offset : Position)
  /-- Adds a chain of nodes, each the child of the one before. -/
  | chain (c : CanvasId) (first : ObjectId) (count : Nat) (parent : Option Nat)
      (offset : Position)
  | remove (c : CanvasId) (slot : Nat)
  | invalidate (c : CanvasId) (o : ObjectId)
  | takeDirty (c : CanvasId)
  | setDirty (c : CanvasId)
  | restyle (c : CanvasId)
  | takeStaleTextures (c : CanvasId)
  | walk (c : CanvasId)
  | paintAll (c : CanvasId)
  | keepAlive (c : CanvasId)
  /-- Changes what the environment wants of a surface. -/
  | surface (s : SurfaceId) (visible closing : Option Bool)
  | send (change : SettingsNotice)
  | dropSender
  | requestQuit
  /-- Hands a closure to the frame thread that answers with a number. -/
  | onFrame (v : Int)
  /-- Starts a thread that hands some closures to the frame thread and then requests to
  quit. -/
  | spawnTasks (count : Nat)
  /-- Starts a thread that hands a failing closure to the frame thread. -/
  | spawnFailingTask

/-- An action or a use of the loop. -/
inductive SessionStep where
  | act (a : Action)
  /-- Adds a window that shows a canvas on a new surface. -/
  | addWindow (c : CanvasId) (surface : Surface)
  /-- Runs frames, with some time between two. -/
  | tick (times : Nat) (every : Duration)
  /-- Chooses what the platform does when the loop starts and when it polls. -/
  | script (started : List Action) (polls : List (List Action))
  | run
  | quit
  | phase
  | config
  | windows
  | forgetWalk (c : CanvasId)
  | dirtyWindow (c : CanvasId)
  | restyle
  | listen

/-- The answer to a step. -/
inductive Answer where
  | nothing
  | flag (b : Bool)
  | maybeFlag (b : Option Bool)
  | count (n : Nat)
  | instant (t : Instant)
  | measured (v : Option TextMetric)
  | icon (v : Option IconRaster)
  | canvas (c : Option CanvasId)
  | theme (t : Option WidgetTheme)
  | texture (h : Option Texture)
  | renderer (r : Renderer)
  | sweep (r : SweepSummary)
  | decision (d : SweepDecision)
  | schedule (lastSweep : Option Instant) (pending : Bool)
  | metrics (m : InventoryMetrics)
  | slot (i : Option Nat)
  | objects (os : List ObjectId)
  | nodes (ns : List (Node × Position))
  | summary (t : Option TickSummary)
  | phase (p : Phase)
  | config (d : Duration) (tickRate : UInt32)
  /-- The windows, each with the number of its nodes. -/
  | windows (ws : List (Window × Nat))
  /-- Whether the caller, and the closure while it ran, was on the frame thread. -/
  | onFrame (caller : Bool) (v : Int) (inside : Bool)
  /-- The run ended with a closure that failed. -/
  | taskFailed

end FrameCache
