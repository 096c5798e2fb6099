import FrameCache.Cache
import FrameCache.SweepSchedule
import FrameCache.Store.Spread

/-!
# The inventory of caches

An `Inventory` is the single owner of all render caches: font metrics, icons, the canvas
each object is mounted on, renderers, textures and widget themes.  It also knows which
canvases are shown and when the caches were swept.

Font metrics, icons, mountings and renderers live for one lifetime after their last use.
Textures and themes live as long as the renderer or mounting they belong to, so their own
lifetime is `Duration.forever`.  The operations here need no painter; those that do
are operations of a `Studio`.
-/

namespace FrameCache

/-- How the caches spread their keys over shards. -/
structure Layouts where
  /-- Of the measured texts. -/
  texts : Layout TextKey
  /-- Of the icons. -/
  icons : Layout IconKey
  /-- Of the mountings. -/
  mountings : Layout ObjectId
  /-- Of the renderers. -/
  renderers : Layout ObjectId
  /-- Of the textures. -/
  textures : Layout ObjectId
  /-- Of the themes. -/
  themes : Layout ObjectId

/-- Each cache spreads its keys over sixteen shards. -/
def Layouts.spread : Layouts := ⟨.standard, .standard, .standard, .standard, .standard, .standard⟩

/-- All render caches. -/
structure Inventory where
  /-- The time constants. -/
  config : Config
  /-- The measured texts. -/
  texts : Cache TextKey TextMetric
  /-- The rasterised icons. -/
  icons : Cache IconKey IconRaster
  /-- Where each object is mounted. -/
  mountings : Cache ObjectId Mounting
  /-- The renderers of the widgets. -/
  renderers : Cache ObjectId Renderer
  /-- The textures of the objects. -/
  textures : Cache ObjectId Texture
  /-- The themes of single widgets. -/
  themes : Cache ObjectId WidgetTheme
  /-- The canvases that are shown. -/
  registered : List CanvasId
  /-- When to sweep. -/
  schedule : SweepSchedule

/-- The statistics of all caches. -/
structure InventoryMetrics where
  /-- Of the measured texts. -/
  texts : Metrics
  /-- Of the icons. -/
  icons : Metrics
  /-- Of the mountings. -/
  mountings : Metrics
  /-- Of the renderers. -/
  renderers : Metrics
  /-- Of the textures. -/
  textures : Metrics
  /-- Of the themes. -/
  themes : Metrics

/-- The statistics of the caches in a fixed order. -/
def InventoryMetrics.toList (s : InventoryMetrics) : List Metrics :=
  [s.texts, s.icons, s.mountings, s.renderers, s.textures, s.themes]

/-- The statistics of the caches summed. -/
def InventoryMetrics.total (s : InventoryMetrics) : Metrics := s.toList.foldl Metrics.merge {}

namespace Inventory

/-- The inventory of a configuration, without entries. -/
def ofConfig (layouts : Layouts) (c : Config) : Inventory where
  config := c
  texts := .empty layouts.texts c.lifetime
  icons := .empty layouts.icons c.lifetime
  mountings := .empty layouts.mountings c.lifetime
  renderers := .empty layouts.renderers c.lifetime
  textures := .empty layouts.textures .forever
  themes := .empty layouts.themes .forever
  registered := []
  schedule := .ofConfig c

/-- The statistics of all caches. -/
def metrics (i : Inventory) : InventoryMetrics where
  texts := i.texts.metrics
  icons := i.icons.metrics
  mountings := i.mountings.metrics
  renderers := i.renderers.metrics
  textures := i.textures.metrics
  themes := i.themes.metrics

/-! ### Font metrics and icons -/

/-- Looks up a measured text. -/
def measured (i : Inventory) (k : TextKey) (now : Instant) :
    Option TextMetric × Inventory :=
  let (v, texts) := i.texts.get k now
  (v, { i with texts })

/-- Stores a measured text. -/
def setMeasured (i : Inventory) (k : TextKey) (v : TextMetric) (now : Instant) :
    Inventory :=
  { i with texts := (i.texts.insert k now v).2 }

/-- Looks up an icon. -/
def icon (i : Inventory) (k : IconKey) (now : Instant) : Option IconRaster × Inventory :=
  let (v, icons) := i.icons.get k now
  (v, { i with icons })

/-- Stores an icon. -/
def setIcon (i : Inventory) (k : IconKey) (v : IconRaster) (now : Instant) : Inventory :=
  { i with icons := (i.icons.insert k now v).2 }

/-- Drops all that depends on the theme: icons and measured texts. -/
def forgetTheme (i : Inventory) : Inventory :=
  { i with icons := i.icons.clear.2, texts := i.texts.clear.2 }

/-! ### Canvases and the objects mounted on them -/

/-- The canvas `c` is shown. -/
def isRegistered (i : Inventory) (c : CanvasId) : Bool := c ∈ i.registered

/-- The canvas `c` begins to be shown. -/
def register (i : Inventory) (c : CanvasId) : Inventory :=
  if i.isRegistered c then i else { i with registered := c :: i.registered }

/-- The canvas `c` is not shown any more. -/
def unregister (i : Inventory) (c : CanvasId) : Inventory :=
  { i with registered := i.registered.filter (· ≠ c) }

/-- The canvas an object is mounted on, if that canvas is shown.  The mounting is
renewed. -/
def canvasOf (i : Inventory) (o : ObjectId) (now : Instant) : Option CanvasId × Inventory :=
  let (m, mountings) := i.mountings.get o now
  ((m.map Mounting.canvas).filter i.isRegistered, { i with mountings })

/-- Mounts an object on a canvas.  A live mounting that already says so is only renewed. -/
def mount (i : Inventory) (o : ObjectId) (m : Mounting) (now : Instant) : Inventory :=
  match i.mountings.get o now with
  | (current, mountings) =>
    if current = some m then { i with mountings }
    else { i with mountings := (mountings.insert o now m).2 }

/-- Renews a mounting and the renderer of its object, and tells whether there is a
mounting. -/
def touch (i : Inventory) (o : ObjectId) (now : Instant) : Bool × Inventory :=
  match i.mountings.touch o now with
  | (false, mountings) => (false, { i with mountings })
  | (true, mountings) => (true, { i with mountings, renderers := (i.renderers.touch o now).2 })

/-! ### Renderers, textures, themes -/

/-- Looks up the renderer of an object. -/
def findRenderer (i : Inventory) (o : ObjectId) (now : Instant) :
    Option Renderer × Inventory :=
  let (r, renderers) := i.renderers.get o now
  (r, { i with renderers })

/-- An object has a live renderer. -/
def hasRenderer (i : Inventory) (o : ObjectId) (now : Instant) : Bool :=
  (i.renderers.peek o now).isSome

/-- The texture of an object, without any use of it. -/
def findTexture (i : Inventory) (o : ObjectId) (now : Instant) : Option Texture :=
  i.textures.peek o now

/-- Gives a widget a theme of its own. -/
def setTheme (i : Inventory) (o : ObjectId) (t : WidgetTheme) (now : Instant) :
    Inventory :=
  { i with themes := (i.themes.insert o now t).2 }

/-- Looks up the theme of a widget. -/
def themeOf (i : Inventory) (o : ObjectId) (now : Instant) :
    Option WidgetTheme × Inventory :=
  let (t, themes) := i.themes.get o now
  (t, { i with themes })

end Inventory

end FrameCache
