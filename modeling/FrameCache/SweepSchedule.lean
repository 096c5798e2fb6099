import FrameCache.Config
import FrameCache.Identity

/-!
# The sweep schedule

Once per tick a `SweepSchedule` decides whether the caches are swept, and how deeply.
Two sweeps are never closer than the gap of the schedule.  A repaint calls for a full
sweep; when it comes too early, it is remembered with its canvases, and the next sweep is
full.  Without repaints a light sweep takes place once per idle gap.

`SweepSchedule.decideAt` makes the decision for one tick.
-/

namespace FrameCache

/-- How deep a sweep goes. -/
inductive SweepDepth where
  /-- No sweep. -/
  | skipped
  /-- Font metrics and icons only. -/
  | light
  /-- Also the objects of the listed canvases and the renderers. -/
  | full
deriving DecidableEq

/-- The decision for one tick. -/
@[ext]
structure SweepDecision where
  /-- How deep to sweep. -/
  depth : SweepDepth
  /-- The canvases whose expired objects may go; only a full sweep has any. -/
  canvases : List CanvasId
deriving DecidableEq

/-- The decision not to sweep. -/
def SweepDecision.skipped : SweepDecision := ⟨.skipped, []⟩

/-- The state of the decision from tick to tick. -/
@[ext]
structure SweepSchedule where
  /-- The least time between two sweeps. -/
  gap : Duration
  /-- The least time between two light sweeps. -/
  idleGap : Duration
  /-- When the caches were last swept. -/
  lastSweep : Option Instant := none
  /-- A repaint came too early to sweep, so the next sweep is full. -/
  pending : Bool := false
  /-- The canvases of the repaints that came too early. -/
  deferred : List CanvasId := []
deriving DecidableEq

namespace SweepSchedule

/-- The schedule of a configuration, before the first sweep. -/
def ofConfig (c : Config) : SweepSchedule where
  gap := c.sweepGap
  idleGap := c.idleGap

/-- The canvases of `new` added to the end of `old`, each only once. -/
def addNew (old new : List CanvasId) : List CanvasId :=
  new.foldl (fun cs c => if c ∈ cs then cs else cs ++ [c]) old

/-- Less than `d` has passed since the last sweep. -/
def sweptWithin (s : SweepSchedule) (d : Duration) (now : Instant) : Bool :=
  s.lastSweep.any fun last => now.since last < d

/-- The decision for the tick at `now`, which repainted the canvases `refreshed` if
`repainted` is set, and the schedule after it. -/
def decideAt (s : SweepSchedule) (now : Instant) (repainted : Bool)
    (refreshed : List CanvasId) : SweepDecision × SweepSchedule :=
  if s.sweptWithin s.gap now then
    (.skipped,
      if repainted then { s with pending := true, deferred := addNew s.deferred refreshed }
      else s)
  else if repainted || s.pending then
    (⟨.full, addNew s.deferred refreshed⟩,
      { s with lastSweep := some now, pending := false, deferred := [] })
  else if s.sweptWithin s.idleGap now then
    (.skipped, s)
  else
    (⟨.light, []⟩, { s with lastSweep := some now, deferred := [] })

end SweepSchedule

end FrameCache
