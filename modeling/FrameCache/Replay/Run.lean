import FrameCache.FrameLoop.Run
import FrameCache.Replay.Session

/-!
# Runs of a session

`Session.run` runs the loop of a session among its other threads.  A channel that is ready
is served before a thread goes on, and time passes for the next frame only when neither is
possible.  `Session.play` plays one step of any kind, and gives an `Effect`: the answer,
the trace and the sizes of the caches.
-/

namespace FrameCache

namespace Session

/-! ### The other threads -/

/-- A thread goes on by one step, if it does not wait: it is told an outcome, hands in a
closure, or ends.  A thread that has ended is gone. -/
def stepWorker (s : Session) (w : Worker) : Option (Option Worker × Session) :=
  let onFrame := s.loop.isOwner w.thread
  match w.waiting with
  | some i =>
    (FrameLoop.takeOutcome w.thread s.loop.outcomes).map fun (outcome, outcomes) =>
      (some { w with waiting := none },
        { s with loop := { s.loop with outcomes } }.mark [.taskDone i onFrame outcome])
  | none =>
    match w.todo with
    | (i, job) :: todo =>
      match s.loop.submit w.thread job with
      | (.queued, loop) => some (some { w with waiting := some i, todo }, { s with loop })
      | (.ran (some v), loop) =>
        some (some { w with todo }, { s with loop }.mark [.taskDone i onFrame (.ok v)])
      | (.ran none, loop) => some (none, { s with loop })
    | [] =>
      some (none,
        if w.quits then
          { s with loop := { s.loop with quitRequests := s.loop.quitRequests + 1 } }
        else s)

/-- The first thread that does not wait goes on by one step; `before` are the threads found
waiting. -/
def stepWorkers (s : Session) (before : List Worker) : List Worker → Option Session
  | [] => none
  | w :: ws =>
    match s.stepWorker w with
    | none => stepWorkers s (before ++ [w]) ws
    | some (w', s) => some { s with workers := before ++ w'.toList ++ ws }

/-- Other threads go on until all of them wait or have ended, at most `n` steps. -/
def join : (n : Nat) → Session → Session
  | 0, s => s
  | n + 1, s =>
    match s.stepWorkers [] s.workers with
    | some s => join n s
    | none => s

/-- A bound on the steps of all other threads. -/
def workerSteps (s : Session) : Nat :=
  s.workers.foldl (fun n w => n + (2 * w.todo.length + 2)) 0

/-! ### The run -/

/-- Takes turns until the loop quits or a closure fails, at most `n`, and tells whether
none failed. -/
def serve : (n : Nat) → Session → Bool × Session
  | 0, s => (true, s)
  | n + 1, s =>
    if s.loop.phase = .quit then (true, s)
    else
      match [Turn.quit, .task, .settings].find? s.loop.ready with
      | some t => take n t s
      | none =>
        match s.stepWorkers [] s.workers with
        | some s => serve n s
        | none => take n .tick (s.elapse s.loop.config.tickGap)
where
  /-- Takes a turn and goes on. -/
  take (n : Nat) (t : Turn) (s : Session) : Bool × Session :=
    match s.loop.turn poll t s with
    | (true, s, loop) => serve n { s with loop }
    | (false, s, loop) => (false, { s with loop })

/-- The most turns that a run is followed for. -/
def patience : Nat := UInt32.size

/-- Runs the loop, if a run can begin, and waits for the other threads.  A bare platform does
not learn that the loop runs, and so plays no script then. -/
def run (s : Session) : Answer × Session :=
  match s.loop.enter? with
  | none => (.phase s.loop.phase, s)
  | some loop =>
    let s := { s with loop, started := [] }.playScript (if s.bare then [] else s.started)
    let (fine, s) := serve patience s
    let (fine, loop) := if fine then s.loop.leave else (false, s.loop)
    let s := { s with loop }
    let s := { s.join s.workerSteps with workers := [] }
    (if fine then .phase s.loop.phase else .taskFailed, s)

/-- Plays a step. -/
def step (s : Session) : SessionStep → Answer × Session
  | .act a => s.act a
  | .addWindow c surface =>
    let n := s.surfaces + 1
    let loop := (s.loop.setSurface ⟨n⟩ surface).addWindow c ⟨n⟩
    (.canvas (some c), { s with surfaces := n, loop })
  | .tick times every => let (r, s) := ticks every times s; (.summary r, s)
  | .script started polls => (.nothing, { s with started, polls })
  | .run => s.run
  | .quit =>
    let s := { s with loop := s.loop.quit }
    (.phase s.loop.phase, s)
  | .phase => (.phase s.loop.phase, s)
  | .config => (.config s.loop.config.lifetime s.loop.config.tickRate, s)
  | .windows =>
    (.windows (s.loop.windows.map fun w => (w, (s.loop.canvas w.canvas).walk.length)), s)
  | .forgetWalk c =>
    (.flag (s.loop.window? c).isSome, { s with loop := s.loop.forgetWalk c })
  | .dirtyWindow c =>
    match s.loop.window? c with
    | some _ => let (_, s) := s.onCanvas c fun c => ((), c.setDirty); (.flag true, s)
    | none => (.flag false, s)
  | .restyle => (.nothing, { s with loop := s.loop.restyle })
  | .listen => (.nothing, { s with loop := s.loop.listen })

end Session

/-- What one step showed. -/
structure Effect where
  /-- The answer. -/
  answer : Answer
  /-- The trace. -/
  trace : List Mark
  /-- The sizes of the caches. -/
  sizes : List Nat

namespace Session

/-- The sizes of the caches, in the order of the statistics. -/
def sizes (s : Session) : List Nat :=
  let i := s.studio.inventory
  [i.texts.size, i.icons.size, i.mountings.size, i.renderers.size, i.textures.size,
    i.themes.size]

/-- Plays a step and shows its effect. -/
def play (s : Session) (step : SessionStep) : Effect × Session :=
  let (answer, s) := ({ s with trace := [] }.elapse Clock.moment).step step
  let s := s.mark []
  let trace := s.trace.reverse.filter (·.isShown s.bare)
  (⟨answer, Trace.sorted trace, s.sizes⟩, s)

/-- Plays steps one after the other. -/
def playAll : List SessionStep → Session → List Effect × Session
  | [], s => ([], s)
  | step :: steps, s =>
    let (effect, s) := s.play step
    let (effects, s) := playAll steps s
    (effect :: effects, s)

end Session

end FrameCache
