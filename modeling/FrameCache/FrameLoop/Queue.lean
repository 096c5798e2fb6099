import FrameCache.FrameLoop

/-!
# Running closures on the frame thread

`FrameLoop.submit` takes a closure from a thread.  While no frame thread is claimed, and
for the frame thread itself, the closure runs at once; otherwise it is queued and the
caller waits.  `FrameLoop.drain` runs what is queued, and `FrameLoop.takeOutcome` is what a
caller that waits is told.
-/

namespace FrameCache.FrameLoop

/-- The thread is the frame thread. -/
def isOwner (l : FrameLoop) (t : ThreadId) : Bool := l.owner = some t

/-- A closure from the thread `t` runs at once. -/
def runsInline (l : FrameLoop) (t : ThreadId) : Bool := l.owner.all (· = t)

/-- Runs a closure on the thread `t`.  There is no answer if it fails, or if it hands on a
closure that `t` would have to wait for. -/
def perform (t : ThreadId) : Job → FrameLoop → Option Int × FrameLoop
  | .finish answer, l => (some answer, l)
  | .fail, l => (none, l)
  | .act f next, l => perform t next { l with studio := f (l.isOwner t) l.studio }
  | .hand inner next, l =>
    if l.runsInline t then
      match perform t inner l with
      | (some answer, l) => perform t (next answer) l
      | (none, l) => (none, l)
    else (none, { l with queue := l.queue ++ [⟨t, inner⟩] })

/-- What becomes of a closure that a thread hands in. -/
inductive Submission where
  /-- It ran at once, with an answer unless it failed. -/
  | ran (answer : Option Int)
  /-- It is queued. -/
  | queued
deriving DecidableEq

/-- Takes a closure from the thread `t`. -/
def submit (l : FrameLoop) (t : ThreadId) (job : Job) : Submission × FrameLoop :=
  if l.runsInline t then
    let (answer, l) := perform t job l
    (.ran answer, l)
  else (.queued, { l with queue := l.queue ++ [⟨t, job⟩] })

/-- Runs a queued closure and tells its caller the outcome.  The answer says whether the
closure came to its end. -/
def runTicket (l : FrameLoop) (k : Ticket) : Bool × FrameLoop :=
  match perform l.thread k.job l with
  | (some answer, l) => (true, { l with outcomes := l.outcomes ++ [(k.caller, .ok answer)] })
  | (none, l) => (false, { l with outcomes := l.outcomes ++ [(k.caller, .stopped)] })

/-- Runs queued closures up to the first that fails, puts back those after it, and gives
the number of those that came to their end and whether all did. -/
def runTickets : List Ticket → FrameLoop → (Nat × Bool) × FrameLoop
  | [], l => ((0, true), l)
  | k :: ks, l =>
    match l.runTicket k with
    | (true, l) =>
      let ((n, all), l) := runTickets ks l
      ((n + 1, all), l)
    | (false, l) => ((0, false), { l with queue := ks ++ l.queue })

/-- Runs everything that is queued. -/
def drain (l : FrameLoop) : (Nat × Bool) × FrameLoop :=
  runTickets l.queue { l with queue := [] }

/-- The first of the outcomes that are for the thread `t`, and the outcomes without it. -/
def takeOutcome (t : ThreadId) : List (ThreadId × Outcome) →
    Option (Outcome × List (ThreadId × Outcome))
  | [] => none
  | (t', o) :: os =>
    if t' = t then some (o, os)
    else (takeOutcome t os).map fun (o', os) => (o', (t', o) :: os)

end FrameCache.FrameLoop
