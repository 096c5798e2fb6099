import FrameCache.Scene
import FrameCache.Studio

/-!
# Painting and walking

`Studio.paintAll` paints the nodes of a canvas: each is mounted, gets its renderer and
its texture, and is drawn.  `Studio.keepAlive` keeps the entries of the nodes alive and
creates nothing.
-/

namespace FrameCache.Studio

/-- Paints a node of `c`. -/
def paintNode (c : CanvasId) (s : Studio) (n : Node × Position) : Studio :=
  let (node, p) := n
  let s := s.update fun i now => i.mount node.object ⟨c, node.kind⟩ now
  let s := match node.kind with
    | .widget => (s.renderer node.object).2
    | .plain => s
  let (h, s) := if node.textured then s.texture node.object else (none, s)
  s.record (.painted node.object p h)

/-- Paints the nodes of `c` in order, and counts them. -/
def paintAll (s : Studio) (c : CanvasId) (nodes : List (Node × Position)) : Nat × Studio :=
  (nodes.length, nodes.foldl (paintNode c) s)

/-- Keeps the entries of the nodes alive, and counts the nodes that are mounted. -/
def keepAlive (s : Studio) : List (Node × Position) → Nat × Studio
  | [] => (0, s)
  | (node, _) :: nodes =>
    let (mounted, s) := s.query fun i now => i.touch node.object now
    let (n, s) := keepAlive s nodes
    (n + mounted.toNat, s)

end FrameCache.Studio
