import FrameCache.Geometry
import FrameCache.Identity

/-!
# Scenes

A `Scene` is a retained forest of drawable nodes.  Nodes live in numbered slots; a slot is
issued once and stays dead after its node is removed.  Each node lists the slots of its
children and is placed relative to its parent.

`Scene.addRoot` and `Scene.addChild` issue slots, `Scene.remove` takes a node out with all
that is below it, and `Scene.walk` lists the nodes with their absolute positions, parents
before their children.  Children have larger slots than their parents, so the number of
slots bounds the depth of both recursions.
-/

namespace FrameCache

/-- A drawable node.  A widget is drawn under its own identity: there are no nodes that mount one
object and have the widget of another draw it. -/
@[ext]
structure Node where
  /-- The object that is drawn, which is the widget itself if a widget draws it. -/
  object : ObjectId
  /-- How it is drawn. -/
  kind : ObjectKind
  /-- It is drawn from a texture. -/
  textured : Bool
deriving DecidableEq

namespace Node

/-- The node of an object drawn directly. -/
def plain (o : ObjectId) : Node := ⟨o, .plain, false⟩

/-- The node of an object drawn from a texture. -/
def ofTexture (o : ObjectId) : Node := ⟨o, .plain, true⟩

/-- The node of a widget. -/
def widget (o : ObjectId) : Node := ⟨o, .widget, false⟩

/-- The name, in messages, of what draws the node. -/
def drawnBy (n : Node) : String :=
  match n.kind with
  | .plain => "Plain"
  | .widget => "Widget(" ++ n.object.label ++ ")"

end Node

/-- A node in its slot. -/
@[ext]
structure SceneNode where
  /-- The node. -/
  node : Node
  /-- Its place relative to its parent. -/
  offset : Position
  /-- The slots of its children, in the order they were added. -/
  children : List Nat

/-- The node without a slot among its children. -/
def SceneNode.disown (n : SceneNode) (slot : Nat) : SceneNode :=
  { n with children := n.children.filter (· ≠ slot) }

/-- A forest of nodes. -/
@[ext]
structure Scene where
  /-- The slots issued so far; dead slots are empty. -/
  slots : Array (Option SceneNode) := #[]
  /-- The slots of the roots, in the order they were added. -/
  roots : List Nat := []
  /-- The scene has changed since the flag was last taken. -/
  dirty : Bool := true
  /-- The objects whose texture has changed, in the order of the changes. -/
  staleTextures : List ObjectId := []

namespace Scene

/-- The scene without nodes. -/
def empty : Scene := {}

/-- The node in a slot, unless the slot is dead or was never issued. -/
def node? (s : Scene) (slot : Nat) : Option SceneNode := (s.slots[slot]?).join

/-! ### Adding nodes -/

/-- Issues a slot to a node. -/
def push (s : Scene) (n : Node) (offset : Position) : Nat × Scene :=
  (s.slots.size, { s with slots := s.slots.push (some ⟨n, offset, []⟩), dirty := true })

/-- Adds a root. -/
def addRoot (s : Scene) (n : Node) (offset : Position) : Nat × Scene :=
  let (slot, s) := s.push n offset
  (slot, { s with roots := s.roots ++ [slot] })

/-- Makes the node in a slot the last child of `p`, the node in the slot `parent`. -/
def adopt (s : Scene) (parent : Nat) (p : SceneNode) (slot : Nat) : Scene :=
  { s with
    slots := s.slots.setIfInBounds parent (some { p with children := p.children ++ [slot] }) }

/-- Adds a child to the node in `parent`.  Below a dead slot nothing is added. -/
def addChild (s : Scene) (parent : Nat) (n : Node) (offset : Position) : Option Nat × Scene :=
  match s.node? parent with
  | none => (none, s)
  | some p =>
    let (slot, s) := s.push n offset
    (some slot, s.adopt parent p slot)

/-! ### Removing nodes -/

/-- The scene with a slot dead. -/
def vacate (s : Scene) (slot : Nat) : Scene :=
  { s with slots := s.slots.setIfInBounds slot none }

/-- The scene without any mention of a dead slot. -/
def detach (s : Scene) (slot : Nat) : Scene :=
  { s with
    slots := s.slots.map fun n => n.map (·.disown slot)
    roots := s.roots.filter (· ≠ slot)
    dirty := true }

/-- Removes the node in a slot and all below it, at most `depth` levels. -/
def removeWithin : (depth : Nat) → Nat → Scene → Scene
  | 0, _, s => s
  | depth + 1, slot, s =>
    match s.node? slot with
    | none => s
    | some n =>
      (n.children.foldl (fun s child => removeWithin depth child s) (s.vacate slot)).detach slot

/-- Removes the node in a slot and all below it.  A dead slot is left alone. -/
def remove (s : Scene) (slot : Nat) : Scene := removeWithin s.slots.size slot s

/-- Asks for a new upload of the texture of `o`. -/
def markStale (s : Scene) (o : ObjectId) : Scene :=
  { s with staleTextures := s.staleTextures ++ [o], dirty := true }

/-! ### Walking -/

/-- Puts the node in a slot and all below it, at most `depth` levels, in front of `rest`,
with their positions when the parent is at `origin`. -/
def visit (s : Scene) : (depth : Nat) → (origin : Position) → Nat →
    (rest : List (Node × Position)) → List (Node × Position)
  | 0, _, _, rest => rest
  | depth + 1, origin, slot, rest =>
    match s.node? slot with
    | none => rest
    | some n =>
      let here := origin + n.offset
      (n.node, here) :: n.children.foldr (s.visit depth here) rest

/-- All nodes with their absolute positions, parents before their children. -/
def walk (s : Scene) : List (Node × Position) :=
  s.roots.foldr (s.visit s.slots.size .origin) []

/-! ### The nodes of a scene -/

theorem node?_push (s : Scene) (n : Node) (offset : Position) (slot : Nat) :
  (s.push n offset).2.node? slot
    = if slot = s.slots.size then some ⟨n, offset, []⟩ else s.node? slot
  := by
  simp only [push, node?, Array.getElem?_push]
  split <;> rfl

theorem node?_adopt (s : Scene) (parent : Nat) (p : SceneNode) (child slot : Nat)
    (h : s.node? parent = some p) :
  (s.adopt parent p child).node? slot
    = if slot = parent then some { p with children := p.children ++ [child] } else s.node? slot
  := by
  have hp : parent < s.slots.size := by
    apply Classical.byContradiction
    intro hn
    simp [node?, Array.getElem?_eq_none (Nat.le_of_not_lt hn)] at h
  by_cases hs : slot = parent
  · subst hs
    simp [adopt, node?, hp]
  · simp [adopt, node?, hs, Array.getElem?_setIfInBounds_ne (Ne.symm hs)]

theorem node?_vacate (s : Scene) (dead slot : Nat) :
  (s.vacate dead).node? slot = if slot = dead then none else s.node? slot
  := by
  simp only [vacate, node?, Array.getElem?_setIfInBounds, @eq_comm Nat dead]
  split
  · split <;> rfl
  · rfl

theorem node?_detach (s : Scene) (dead slot : Nat) :
  (s.detach dead).node? slot = (s.node? slot).map (·.disown dead)
  := by
  simp only [detach, node?, Array.getElem?_map]
  cases s.slots[slot]? <;> rfl

end Scene

end FrameCache
