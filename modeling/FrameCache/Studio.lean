import FrameCache.Host
import FrameCache.Inventory

/-!
# The studio

A `Studio` is an inventory together with the host its resources come from.  Its operations
are those that create or give back resources: `Studio.renderer` and `Studio.texture` create
them on first use, `Studio.dropTexture` and `Studio.dismantle` give them back.  A renderer
is given back together with the texture and the theme of its object.
-/

namespace FrameCache

/-- An inventory and the host its resources come from. -/
structure Studio where
  /-- The caches. -/
  inventory : Inventory
  /-- The host. -/
  host : Host

namespace Studio

/-- The studio of a configuration, without entries and before any call. -/
def ofConfig (layouts : Layouts) (c : Config) (policy : Policy) : Studio :=
  ⟨.ofConfig layouts c, .start policy⟩

/-- The reading of the clock. -/
def now (s : Studio) : Instant := s.host.now

/-- The studio after a call. -/
def record (s : Studio) (e : Event) : Studio := { s with host := s.host.record e }

/-- The studio with its inventory changed at the current instant. -/
def update (s : Studio) (f : Inventory → Instant → Inventory) : Studio :=
  { s with inventory := f s.inventory s.now }

/-- The studio after a look at its inventory at the current instant. -/
def query {α : Type} (s : Studio) (f : Inventory → Instant → α × Inventory) : α × Studio :=
  let (a, inventory) := f s.inventory s.now
  (a, { s with inventory })

/-- Deletes the texture of `o`, and tells whether there was one. -/
def dropTexture (s : Studio) (o : ObjectId) : Bool × Studio :=
  match s.inventory.textures.remove o with
  | (some h, textures) =>
    (true, { s with inventory.textures := textures }.record (.textureDeleted o h))
  | (none, _) => (false, s)

/-- Destroys the renderer of `o` and gives back the texture and the theme of `o` with it.
With an instant given, only a renderer whose deadline has passed then is destroyed.  Tells
whether one was. -/
def dismantle (s : Studio) (o : ObjectId) (expiredAt : Option Instant) : Bool × Studio :=
  let taken := match expiredAt with
    | some t => s.inventory.renderers.removeLapsed o t
    | none => s.inventory.renderers.remove o
  match taken with
  | (none, _) => (false, s)
  | (some r, renderers) =>
    let s := { s with inventory.renderers := renderers }
    let s := (s.record (.rendererDestroyed o r)).record (.rendererReleased o)
    let s := (s.dropTexture o).2
    (true, { s with inventory.themes := (s.inventory.themes.remove o).2 })

/-- The renderer of the widget `o`, created on first use.  A renderer whose deadline has
passed is destroyed first. -/
def renderer (s : Studio) (o : ObjectId) : Renderer × Studio :=
  match s.inventory.renderers.get o s.now with
  | (some r, renderers) => (r, { s with inventory.renderers := renderers })
  | (none, renderers) =>
    let s := { s with inventory.renderers := renderers }
    let s := (s.dismantle o (some s.now)).2
    let (r, renderers, host) :=
      s.inventory.renderers.fetch o s.now (Host.createRenderer o) s.host
    (r, { s with inventory.renderers := renderers, host })

/-- The texture of `o`, uploaded on first use.  A failed upload is not remembered. -/
def texture (s : Studio) (o : ObjectId) : Option Texture × Studio :=
  let (h, textures, host) :=
    s.inventory.textures.fetch? o s.now (Host.createTexture o) s.host
  (h, { s with inventory.textures := textures, host })

end Studio

end FrameCache
