import FrameCache.Geometry
import FrameCache.Identity

/-!
# Cached resources

The keys and values of the render caches.  Font metrics are keyed on everything that
determines the measured size of a text, icons on their name and raster size, all other
resources on the object they belong to.
-/

namespace FrameCache

/-- The flags of a text style that affect its measured size. -/
structure TextStyle where
  /-- Bold weight. -/
  bold : Bool := false
  /-- Italic slant. -/
  italic : Bool := false
  /-- Fixed pitch. -/
  monospace : Bool := false
  /-- Symbol font. -/
  symbol : Bool := false
deriving DecidableEq

/-- All that determines the measured size of a run of text. -/
structure TextKey where
  /-- The text. -/
  text : String
  /-- The bits of the font size, so that sizes are equal only when they are the same. -/
  sizeBits : UInt32
  /-- The style. -/
  style : TextStyle
  /-- The font resource; empty for the font of the theme. -/
  source : String
deriving DecidableEq

namespace TextKey

/-- The key of a text in a font size, a style and possibly a font resource. -/
def ofText (text : String) (size : Float32) (style : TextStyle) (source : Option String) :
    TextKey :=
  ⟨text, size.toBits, style, source.getD ""⟩

/-- The font size. -/
def fontSize (k : TextKey) : Float32 := .ofBits k.sizeBits

end TextKey

/-- A measured run of text. -/
structure TextMetric where
  /-- The extent of the text. -/
  size : Size
  /-- The height of the baseline. -/
  baseline : Float32

/-- An icon at one output size. -/
structure IconKey where
  /-- The name of the icon. -/
  name : String
  /-- The width in pixels. -/
  width : UInt32
  /-- The height in pixels. -/
  height : UInt32
deriving DecidableEq

/-- The pixels of an icon, row by row. -/
structure IconRaster where
  /-- The width in pixels. -/
  width : UInt32
  /-- The height in pixels. -/
  height : UInt32
  /-- Four bytes for every pixel. -/
  pixels : List UInt8
deriving DecidableEq

/-- The fact that an object is mounted on a canvas. -/
@[ext]
structure Mounting where
  /-- The canvas. -/
  canvas : CanvasId
  /-- How the object is drawn. -/
  kind : ObjectKind
deriving DecidableEq

/-- A renderer, told apart from all others by its serial number. -/
@[ext]
structure Renderer where
  /-- The number of renderers created up to this one. -/
  serial : Nat
deriving DecidableEq

/-- The name of a texture on the graphics device. -/
@[ext]
structure Texture where
  /-- The number of the texture. -/
  name : UInt32
deriving DecidableEq

/-- A theme that replaces the common one for a single widget. -/
structure WidgetTheme where
  /-- The name of the theme. -/
  theme : String
deriving DecidableEq

end FrameCache
