import FrameCache.Studio

/-!
# Closures for the frame thread

A `Job` is a closure that some thread wants to run on the frame thread: it acts on the
studio, may hand further closures to the frame thread in turn, and ends with an answer or
fails.  A `Ticket` is a queued closure with the thread that waits for it, an `Outcome` what
that thread is told.
-/

namespace FrameCache

/-- The identity of a thread. -/
@[ext]
structure ThreadId where
  /-- The number of the thread. -/
  number : Nat
deriving DecidableEq

/-- A closure for the frame thread. -/
inductive Job where
  /-- It ends with an answer. -/
  | finish (answer : Int)
  /-- It fails. -/
  | fail
  /-- It acts on the studio, knowing whether it runs on the frame thread. -/
  | act (f : Bool → Studio → Studio) (next : Job)
  /-- It hands a closure to the frame thread and goes on with the answer. -/
  | hand (inner : Job) (next : Int → Job)

/-- A queued closure. -/
structure Ticket where
  /-- The thread that waits for the closure. -/
  caller : ThreadId
  /-- The closure. -/
  job : Job

/-- What the caller of a closure is told. -/
inductive Outcome where
  /-- The closure ended with an answer. -/
  | ok (answer : Int)
  /-- The closure did not come to its end. -/
  | stopped
deriving DecidableEq

/-- The wording of the error that a caller sees. -/
def Outcome.stoppedMessage : String := "frame loop stopped before the task ran"

end FrameCache
