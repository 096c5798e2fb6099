import FrameCache.Studio

/-!
# Sweeping and tearing down

`Studio.sweep` carries out what the schedule decides: a light sweep drops font metrics and
icons whose deadline has passed; a full sweep also unmounts the objects whose deadline has
passed and whose canvas was repainted or is not shown any more, and destroys every renderer
whose deadline has passed.  `Studio.forgetCanvas` forgets at once all that is mounted on a
canvas.
-/

namespace FrameCache

/-- What a sweep did. -/
@[ext]
structure SweepSummary where
  /-- How deep it went. -/
  depth : SweepDepth
  /-- The font metrics and icons dropped. -/
  valuesRemoved : Nat := 0
  /-- The mountings dropped. -/
  objectsUnmounted : Nat := 0
  /-- The renderers destroyed. -/
  renderersDestroyed : Nat := 0
deriving DecidableEq

/-- The summary of no sweep. -/
def SweepSummary.skipped : SweepSummary := { depth := .skipped }

namespace Studio

/-- Gives back what an object of kind `kind` owns after it is unmounted, and tells whether
a renderer was destroyed. -/
def release (s : Studio) (o : ObjectId) (kind : ObjectKind) (expiredAt : Option Instant) :
    Bool × Studio :=
  match kind with
  | .widget => s.dismantle o expiredAt
  | .plain => (false, (s.dropTexture o).2)

/-- The objects of `c` may be unmounted by a sweep that lists `canvases`. -/
def inScope (s : Studio) (c : CanvasId) (canvases : List CanvasId) : Bool :=
  c ∈ canvases || !s.inventory.isRegistered c

/-- Unmounts the objects of `es` whose canvas is in scope, if their deadline has passed,
and counts the mountings dropped and the renderers destroyed. -/
def unmountExpired (now : Instant) (canvases : List CanvasId) :
    List (ObjectId × Mounting) → Studio → (Nat × Nat) × Studio
  | [], s => ((0, 0), s)
  | (o, m) :: es, s =>
    if s.inScope m.canvas canvases then
      match s.inventory.mountings.removeLapsed o now with
      | (none, _) => unmountExpired now canvases es s
      | (some _, mountings) =>
        let s := { s with inventory.mountings := mountings }
        let (destroyed, s) := s.release o m.kind (some now)
        let ((mounted, renderers), s) := unmountExpired now canvases es s
        ((mounted + 1, renderers + destroyed.toNat), s)
    else unmountExpired now canvases es s

/-- Destroys the renderers of `es` whose deadline has passed, and counts them. -/
def dismantleExpired (now : Instant) : List (ObjectId × Renderer) → Studio → Nat × Studio
  | [], s => (0, s)
  | (o, _) :: es, s =>
    let (destroyed, s) := s.dismantle o (some now)
    let (n, s) := dismantleExpired now es s
    (n + destroyed.toNat, s)

/-- Drops the font metrics and icons whose deadline has passed, and counts them. -/
def sweepValues (s : Studio) (now : Instant) : Nat × Studio :=
  let (droppedIcons, icons) := s.inventory.icons.takeLapsed now
  let (droppedTexts, texts) := s.inventory.texts.takeLapsed now
  (droppedIcons.length + droppedTexts.length,
    { s with inventory.icons := icons, inventory.texts := texts })

/-- Unmounts the objects in scope of a full sweep and destroys renderers, as far as their
deadline has passed. -/
def sweepObjects (s : Studio) (now : Instant) (canvases : List CanvasId) :
    (Nat × Nat) × Studio :=
  let ((mounted, destroyed), s) :=
    unmountExpired now canvases (s.inventory.mountings.lapsedEntries now) s
  let (more, s) := dismantleExpired now (s.inventory.renderers.lapsedEntries now) s
  ((mounted, destroyed + more), s)

/-- Sweeps as the schedule decides for a tick that repainted the canvases `refreshed` if
`repainted` is set. -/
def sweep (s : Studio) (repainted : Bool) (refreshed : List CanvasId) : SweepSummary × Studio :=
  let now := s.now
  let (decision, schedule) := s.inventory.schedule.decideAt now repainted refreshed
  let s := { s with inventory.schedule := schedule }
  match decision.depth with
  | .skipped => (.skipped, s)
  | .light =>
    let (values, s) := s.sweepValues now
    (⟨.light, values, 0, 0⟩, s)
  | .full =>
    let (values, s) := s.sweepValues now
    let ((mounted, destroyed), s) := s.sweepObjects now decision.canvases
    (⟨.full, values, mounted, destroyed⟩, s)

/-- Forgets `o` if it is mounted on `c`; a visitor of the mountings that counts them. -/
def forgetObject (c : CanvasId) (o : ObjectId) (_ : Mounting) (w : Nat × Studio) :
    Bool × Nat × Studio :=
  let (n, s) := w
  match s.inventory.mountings.removeIf o fun m => m.canvas = c with
  | (none, _) => (true, n, s)
  | (some m, mountings) =>
    let s := { s with inventory.mountings := mountings }
    (true, n + 1, (s.release o m.kind none).2)

/-- Forgets all that is mounted on `c` at once, and counts the objects.  The canvas is not
shown any more. -/
def forgetCanvas (s : Studio) (c : CanvasId) : Nat × Studio :=
  Cache.visitAll (fun w => w.2.inventory.mountings) (forgetObject c)
    (0, s.update fun i _ => i.unregister c)

end Studio

end FrameCache
