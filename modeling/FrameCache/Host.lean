import FrameCache.Instant
import FrameCache.Resource

/-!
# The host

The `Host` is what the caches and the frame loop act on: a clock, the record of all calls
made so far, and a `Policy` that says how the painter, the widgets and the platform behave.
Every call is an `Event`, and the `Log` keeps it with the reading of the clock at its end;
the policy decides from the log how far the clock moves during the call and whether the
upload of a texture succeeds.
-/

namespace FrameCache

/-- A call to the painter, a widget, a canvas, a surface or the platform. -/
inductive Event where
  /-- The platform polls its events. -/
  | polled
  /-- The platform moves its animations to an instant. -/
  | animated (now : Instant)
  /-- The platform learns that the loop runs. -/
  | started
  /-- The platform learns that the loop has stopped. -/
  | stopped
  /-- A widget creates its renderer. -/
  | rendererCreated (o : ObjectId) (r : Renderer)
  /-- A renderer gives back its resources. -/
  | rendererDestroyed (o : ObjectId) (r : Renderer)
  /-- The painter releases what it keeps for the renderer of an object. -/
  | rendererReleased (o : ObjectId)
  /-- The painter uploads the texture of an object, or fails to. -/
  | textureCreated (o : ObjectId) (h : Option Texture)
  /-- The painter deletes the texture of an object. -/
  | textureDeleted (o : ObjectId) (h : Texture)
  /-- The painter draws an object, possibly from a texture. -/
  | painted (o : ObjectId) (p : Position) (h : Option Texture)
  /-- The painter begins a frame of a canvas. -/
  | frameBegun (c : CanvasId)
  /-- The painter ends a frame of a canvas. -/
  | frameEnded (c : CanvasId)
  /-- A canvas lists its nodes without being painted. -/
  | walked (c : CanvasId)
  /-- The painter drops its glyphs. -/
  | fontCacheCleared
  /-- A surface shows what was drawn. -/
  | swapped (s : SurfaceId)
  /-- A surface gives its graphics context back. -/
  | contextReleased (s : SurfaceId)
  /-- A closure of a number runs, on the frame thread or not. -/
  | taskRun (index : Nat) (onFrame : Bool)

/-- A call that has ended. -/
structure Call where
  /-- What was called. -/
  event : Event
  /-- The reading of the clock at the end of the call. -/
  ended : Instant

/-- The calls made so far. -/
structure Log where
  /-- The calls, the latest first. -/
  calls : List Call := []
  /-- How many renderers have been created. -/
  renderers : Nat := 0
  /-- How many textures have been uploaded. -/
  textures : Nat := 0

namespace Log

/-- What was called, the latest first. -/
def events (l : Log) : List Event := l.calls.map Call.event

/-- The log with one more call, which ended at `t`. -/
def add (l : Log) (e : Event) (t : Instant) : Log where
  calls := ⟨e, t⟩ :: l.calls
  renderers := match e with
    | .rendererCreated _ _ => l.renderers + 1
    | _ => l.renderers
  textures := match e with
    | .textureCreated _ (some _) => l.textures + 1
    | _ => l.textures

end Log

/-- How the outside behaves, given the calls made before. -/
structure Policy where
  /-- How far the clock moves during a call. -/
  pause : Log → Event → Duration
  /-- The texture that an upload yields, or none if it fails. -/
  upload : Log → ObjectId → Option Texture

/-- The policy under which calls take no time and uploads succeed, textures being numbered
from one. -/
def Policy.prompt : Policy where
  pause _ _ := .zero
  upload l _ := some ⟨.ofNat (l.textures + 1)⟩

/-- What the caches and the frame loop act on. -/
structure Host where
  /-- The clock. -/
  clock : Clock
  /-- The calls made so far. -/
  log : Log
  /-- How calls behave. -/
  policy : Policy

namespace Host

/-- A host without calls. -/
def start (policy : Policy) : Host := ⟨.start, {}, policy⟩

/-- The reading of the clock. -/
def now (h : Host) : Instant := h.clock.now

/-- The host after a call. -/
def record (h : Host) (e : Event) : Host :=
  let clock := h.clock.advance (h.policy.pause h.log e)
  { h with clock, log := h.log.add e clock.now }

/-- Has the widget `o` create its renderer. -/
def createRenderer (o : ObjectId) (h : Host) : Renderer × Host :=
  let r : Renderer := ⟨h.log.renderers + 1⟩
  (r, h.record (.rendererCreated o r))

/-- Has the painter upload the texture of `o`. -/
def createTexture (o : ObjectId) (h : Host) : Option Texture × Host :=
  let t := h.policy.upload h.log o
  (t, h.record (.textureCreated o t))

end Host

end FrameCache
