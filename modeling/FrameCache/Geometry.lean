/-!
# Positions and sizes

`Position` and `Size` are the coordinates used for drawing, in single precision.
-/

namespace FrameCache

/-- A point of a canvas. -/
@[ext]
structure Position where
  /-- The horizontal coordinate. -/
  x : Float32
  /-- The vertical coordinate. -/
  y : Float32

namespace Position

/-- The corner that roots are placed from. -/
def origin : Position := ⟨0, 0⟩

instance : Add Position := ⟨fun p q => ⟨p.x + q.x, p.y + q.y⟩⟩

end Position

/-- The extent of a drawn object. -/
@[ext]
structure Size where
  /-- The horizontal extent. -/
  width : Float32
  /-- The vertical extent. -/
  height : Float32

end FrameCache
