/-!
# Surfaces

A `Surface` is the native window a canvas is presented on.  It is asked once per tick
whether it should close, and before and after painting whether it is visible; the answers
depend on flags that the environment sets and on how often it has been asked.
-/

namespace FrameCache

/-- A native window. -/
@[ext]
structure Surface where
  /-- The environment wants the surface to be seen. -/
  visible : Bool := true
  /-- The environment wants the surface to close. -/
  closing : Bool := false
  /-- The surface closes from this question on. -/
  closeFrom : Option Nat := none
  /-- The surface is hidden after this question. -/
  hideAfter : Option Nat := none
  /-- The surface does not know whether it is visible and has no buffers to swap. -/
  plain : Bool := false
  /-- How often the surface was asked to close. -/
  closePolls : Nat := 0
  /-- How often the surface was asked whether it is visible. -/
  visibilityPolls : Nat := 0
deriving DecidableEq

namespace Surface

/-- Asks whether the surface should close. -/
def askClose (s : Surface) : Bool × Surface :=
  let n := s.closePolls + 1
  (s.closing || s.closeFrom.any (· ≤ n), { s with closePolls := n })

/-- Asks whether the surface is visible.  A plain surface always is. -/
def askVisible (s : Surface) : Bool × Surface :=
  if s.plain then (true, s)
  else
    let n := s.visibilityPolls + 1
    (s.visible && s.hideAfter.all (n ≤ ·), { s with visibilityPolls := n })

end Surface

end FrameCache
