/-!
# Identities

The caches are keyed on the objects of a canvas.  `ObjectId`, `CanvasId` and `SurfaceId`
are the identities of objects, canvases and native surfaces, and `ObjectKind` tells how an
object is drawn.
-/

namespace FrameCache

/-- The identity of an object on a canvas. -/
@[ext]
structure ObjectId where
  /-- The number of the object. -/
  raw : UInt64
deriving DecidableEq

namespace ObjectId

/-- The first identity that is handed out. -/
def first : ObjectId := ⟨1⟩

/-- The identity handed out after `o`. -/
def next (o : ObjectId) : ObjectId := ⟨o.raw + 1⟩

/-- The name of an object in messages. -/
def label (o : ObjectId) : String := "obj#" ++ toString o.raw.toNat

end ObjectId

/-- The identity of a canvas. -/
@[ext]
structure CanvasId where
  /-- The number of the canvas. -/
  raw : UInt64
deriving DecidableEq

namespace CanvasId

/-- The first identity that is handed out. -/
def first : CanvasId := ⟨1⟩

/-- The identity handed out after `c`. -/
def next (c : CanvasId) : CanvasId := ⟨c.raw + 1⟩

/-- The name of a canvas in messages. -/
def label (c : CanvasId) : String := "canvas#" ++ toString c.raw.toNat

end CanvasId

/-- The identity of a native surface. -/
@[ext]
structure SurfaceId where
  /-- The number of the surface. -/
  number : Nat
deriving DecidableEq

/-- How an object is drawn. -/
inductive ObjectKind where
  /-- Directly by the painter, possibly from a texture. -/
  | plain
  /-- Through a renderer of its own. -/
  | widget
deriving DecidableEq

end FrameCache
