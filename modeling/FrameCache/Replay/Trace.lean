import FrameCache.Replay.Step

/-!
# Traces

The `Trace` of a step is the list of the calls it made, mixed with the marks that a session
adds.  Teardown calls of different objects can come in any order, so `Trace.sorted` sorts
each uninterrupted run of them by object.
-/

namespace FrameCache

/-- One line of a trace. -/
inductive Mark where
  /-- A call to the host. -/
  | call (e : Event)
  /-- The platform took an action of its script, with this answer. -/
  | acted (a : Answer)
  /-- A thread, the frame thread or not, was told the outcome of its closure. -/
  | taskDone (index : Nat) (onFrame : Bool) (outcome : Outcome)

namespace Mark

/-- The object that is torn down. -/
def tornDown : Mark → Option ObjectId
  | .call (.rendererDestroyed o _) => some o
  | .call (.rendererReleased o) => some o
  | .call (.textureDeleted o _) => some o
  | _ => none

/-- The mark is a call that a painter or platform need not support. -/
def isOptional : Mark → Bool
  | .call .polled | .call (.animated _) | .call .started | .call .stopped
  | .call (.frameBegun _) | .call (.frameEnded _) | .call .fontCacheCleared => true
  | _ => false

/-- The mark shows in a trace.  Canvases leave no mark, and a bare painter and platform leave
none of the calls that they need not support. -/
def isShown (bare : Bool) : Mark → Bool
  | .call (.walked _) => false
  | m => !(bare && m.isOptional)

end Mark

namespace Trace

/-- Torn down objects in the order of their numbers, otherwise as they came. -/
def sortRun (run : List (ObjectId × Mark)) : List Mark :=
  (run.mergeSort fun a b => a.1.raw ≤ b.1.raw).map Prod.snd

/-- The marks with each run of teardown calls sorted; `run` is the current one, the latest
call first. -/
def sortRuns (run : List (ObjectId × Mark)) : List Mark → List Mark
  | [] => sortRun run.reverse
  | m :: ms =>
    match m.tornDown with
    | some o => sortRuns ((o, m) :: run) ms
    | none => sortRun run.reverse ++ m :: sortRuns [] ms

/-- The marks with each run of teardown calls sorted by object. -/
def sorted (ms : List Mark) : List Mark := sortRuns [] ms

end Trace

end FrameCache
