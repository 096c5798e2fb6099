import FrameCache.FrameLoop.Tick

/-!
# The loop as a whole

A run of the loop claims its thread as the frame thread, takes turns until the loop quits,
releases the claim and runs the closures still queued.  A `Turn` serves one of the channels
that the loop waits for; which of those that are ready is served first is not determined.

`FrameLoop.enter?` begins a run, `FrameLoop.turn` takes a turn and `FrameLoop.leave` ends
the run.  A closure that fails ends the run at once, without the claim being released.
-/

namespace FrameCache

/-- One turn of the loop. -/
inductive Turn where
  /-- A request to quit is received. -/
  | quit
  /-- The oldest queued closure is run. -/
  | task
  /-- The oldest settings change is received. -/
  | settings
  /-- It is time for a frame. -/
  | tick
deriving DecidableEq

namespace FrameLoop

variable {ε : Type}

/-- Begins a run, unless there has been one or the loop has quit. -/
def enter? (l : FrameLoop) : Option FrameLoop :=
  if l.phase = .idle then
    some ({ l with phase := .running, owner := some l.thread }.record .started)
  else none

/-- There is something to receive in a turn.  Frames are always possible. -/
def ready (l : FrameLoop) : Turn → Bool
  | .quit => 0 < l.quitRequests
  | .task => !l.queue.isEmpty
  | .settings => l.settings.any fun m => !m.pending.isEmpty
  | .tick => true

/-- Receives one settings change and applies the settings. -/
def receiveOne (l : FrameLoop) : FrameLoop :=
  match l.settings with
  | some { pending := _ :: pending, connected } =>
    { l with settings := some { pending, connected } }.restyle
  | _ => l

/-- Runs the oldest queued closure, and tells whether it came to its end. -/
def runNext (l : FrameLoop) : Bool × FrameLoop :=
  match l.queue with
  | k :: queue => { l with queue }.runTicket k
  | [] => (true, l)

/-- Takes a turn.  The answer says whether the run goes on, that is, no closure failed. -/
def turn (poll : ε → FrameLoop → ε × FrameLoop) (t : Turn) (e : ε) (l : FrameLoop) :
    Bool × ε × FrameLoop :=
  match t with
  | .quit => (true, e, { l with quitRequests := l.quitRequests - 1 }.quit)
  | .task =>
    let (fine, l) := l.runNext
    (fine, e, l)
  | .settings => (true, e, l.receiveOne)
  | .tick =>
    let (summary, e, l) := l.tick poll e
    (!summary.aborted, e, l)

/-- Ends a run: the claim is released, then the closures still queued are run.  The answer
says whether all of them came to their end; if not, the platform does not learn of the
end. -/
def leave (l : FrameLoop) : Bool × FrameLoop :=
  match { l with owner := none }.drain with
  | ((_, true), l) => (true, l.record .stopped)
  | ((_, false), l) => (false, l)

end FrameLoop

end FrameCache
