import FrameCache.Scene

/-!
# Canvases

A `Canvas` is what a window shows: a `Scene`, or a `Sheet`, a plain list of nodes at fixed
positions that keeps no track of textures and of additions.  Both remember whether they
have to be painted again.
-/

namespace FrameCache

/-- A list of nodes at fixed positions. -/
@[ext]
structure Sheet where
  /-- The nodes, in the order they were added. -/
  nodes : Array (Node × Position) := #[]
  /-- The sheet has to be painted again. -/
  dirty : Bool := true

/-- What a window shows. -/
inductive Canvas where
  /-- A forest of nodes. -/
  | scene (s : Scene)
  /-- A list of nodes. -/
  | sheet (s : Sheet)

namespace Canvas

/-- The nodes with their absolute positions, in the order they are drawn. -/
def walk : Canvas → List (Node × Position)
  | .scene s => s.walk
  | .sheet s => s.nodes.toList

/-- The canvas has to be painted again. -/
def isDirty : Canvas → Bool
  | .scene s => s.dirty
  | .sheet s => s.dirty

/-- Has the canvas painted again, or not. -/
def mark (dirty : Bool) : Canvas → Canvas
  | .scene s => .scene { s with dirty }
  | .sheet s => .sheet { s with dirty }

/-- Takes the mark off, and tells whether there was one. -/
def takeDirty (c : Canvas) : Bool × Canvas := (c.isDirty, c.mark false)

/-- Marks the canvas. -/
def setDirty (c : Canvas) : Canvas := c.mark true

/-- Applies the theme and the scale again. -/
def restyle (c : Canvas) : Canvas := c.setDirty

/-- Takes the objects whose texture has changed. -/
def takeStaleTextures : Canvas → List ObjectId × Canvas
  | .scene s => (s.staleTextures, .scene { s with staleTextures := [] })
  | .sheet s => ([], .sheet s)

end Canvas

end FrameCache
