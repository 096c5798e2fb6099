import FrameCache.Canvas

/-!
# The nodes of a canvas

Whatever holds of every node that is put on a canvas holds of every node that is walked:
`Scene.All` and `Canvas.All` are kept by all changes.  The `Canvas.content` of a canvas is the
canvas without its marks; the walk depends on nothing else.
-/

namespace FrameCache

namespace Scene

variable {P : Node → Prop} {s s' : Scene}

/-- Every node of the scene satisfies `P`. -/
def All (P : Node → Prop) (s : Scene) : Prop := ∀ slot n, s.node? slot = some n → P n.node

theorem all_empty :
  empty.All P
  := by
  intro slot n hn
  simp [node?, empty] at hn

theorem All.congr (h : s.All P) (hs : s'.slots = s.slots) :
  s'.All P
  := by
  intro slot n hn
  apply h slot n
  rw [← hn, node?, node?, hs]

theorem All.push (h : s.All P) {n : Node} (hn : P n) (offset : Position) :
  (s.push n offset).2.All P
  := by
  intro slot n' hn'
  rw [node?_push] at hn'
  split at hn'
  · cases hn'
    apply hn
  · apply h slot n' hn'

theorem All.addRoot (h : s.All P) {n : Node} (hn : P n) (offset : Position) :
  (s.addRoot n offset).2.All P
  := (h.push hn offset).congr rfl

theorem All.adopt (h : s.All P) {parent : Nat} {p : SceneNode} (hp : s.node? parent = some p)
    (slot : Nat) :
  (s.adopt parent p slot).All P
  := by
  intro slot' n hn
  rw [node?_adopt _ _ _ _ _ hp] at hn
  split at hn
  · cases hn
    apply h parent p hp
  · apply h slot' n hn

theorem All.addChild (h : s.All P) (parent : Nat) {n : Node} (hn : P n) (offset : Position) :
  (s.addChild parent n offset).2.All P
  := by
  rw [Scene.addChild]
  split
  · apply h
  · rename_i p hp
    apply (h.push hn offset).adopt
    have hparent : parent ≠ s.slots.size := by
      rintro rfl
      simp [node?] at hp
    rw [node?_push, if_neg hparent, hp]

theorem All.vacate (h : s.All P) (dead : Nat) :
  (s.vacate dead).All P
  := by
  intro slot n hn
  rw [node?_vacate] at hn
  split at hn
  · cases hn
  · apply h slot n hn

theorem All.detach (h : s.All P) (dead : Nat) :
  (s.detach dead).All P
  := by
  intro slot n hn
  rw [node?_detach] at hn
  obtain ⟨n', hn', rfl⟩ := Option.map_eq_some_iff.1 hn
  apply h slot n' hn'

theorem All.removeWithin (h : s.All P) (depth slot : Nat) :
  (removeWithin depth slot s).All P
  := by
  induction depth generalizing slot s with
  | zero => apply h
  | succ depth ih =>
    rw [Scene.removeWithin]
    split
    · apply h
    · rename_i n hn
      apply All.detach
      apply List.foldlRecOn (motive := All P) _ _ (h.vacate slot)
      intro s' hs' child _
      apply ih hs'

theorem All.remove (h : s.All P) (slot : Nat) :
  (s.remove slot).All P
  := h.removeWithin _ slot

theorem All.visit (h : s.All P) (depth : Nat) (origin : Position) (slot : Nat)
    {rest : List (Node × Position)} (hrest : ∀ n ∈ rest, P n.1) :
  ∀ n ∈ s.visit depth origin slot rest, P n.1
  := by
  induction depth generalizing origin slot rest with
  | zero => apply hrest
  | succ depth ih =>
    rw [Scene.visit]
    split
    · apply hrest
    · rename_i m hm
      have hbelow : ∀ n ∈ m.children.foldr (s.visit depth (origin + m.offset)) rest, P n.1 := by
        apply List.foldrRecOn (motive := fun ns : List (Node × Position) => ∀ n ∈ ns, P n.1)
        · apply hrest
        · intro ns hns child _
          apply ih _ _ hns
      intro n hn
      rcases List.mem_cons.1 hn with rfl | hn
      · apply h slot m hm
      · apply hbelow n hn

/-- What holds of every node holds of those that are walked. -/
theorem All.walk (h : s.All P) :
  ∀ n ∈ s.walk, P n.1
  := by
  apply List.foldrRecOn (motive := fun ns : List (Node × Position) => ∀ n ∈ ns, P n.1)
  · intro n hn
    cases hn
  · intro ns hns slot _
    apply h.visit _ _ _ hns

theorem remove_of_dead {slot : Nat} (h : s.node? slot = none) :
  s.remove slot = s
  := by
  rw [remove]
  cases s.slots.size with
  | zero => rfl
  | succ depth => rw [removeWithin, h]

/-- What is visited depends on the slots only. -/
theorem visit_congr (hs : s'.slots = s.slots) (depth : Nat) :
  s'.visit depth = s.visit depth
  := by
  have hnode : s'.node? = s.node? := by
    funext slot
    rw [node?, node?, hs]
  induction depth with
  | zero => rfl
  | succ depth ih =>
    funext origin slot rest
    rw [Scene.visit, Scene.visit, hnode, ih]

theorem walk_congr (hs : s'.slots = s.slots) (hr : s'.roots = s.roots) :
  s'.walk = s.walk
  := by
  rw [Scene.walk, Scene.walk, hr, hs, visit_congr hs]

end Scene

namespace Canvas

variable {P : Node → Prop} {c : Canvas}

/-- The canvas without its marks. -/
def content : Canvas → Canvas
  | .scene s => .scene { s with dirty := false, staleTextures := [] }
  | .sheet s => .sheet { s with dirty := false }

@[simp]
theorem content_mark (c : Canvas) (dirty : Bool) :
  (c.mark dirty).content = c.content
  := by
  cases c with
  | scene s => rfl
  | sheet s => rfl

@[simp]
theorem content_takeStaleTextures (c : Canvas) :
  c.takeStaleTextures.2.content = c.content
  := by
  cases c with
  | scene s => rfl
  | sheet s => rfl

@[simp]
theorem walk_content (c : Canvas) :
  c.content.walk = c.walk
  := by
  cases c with
  | scene s => exact Scene.walk_congr rfl rfl
  | sheet s => rfl

/-- Every node of the canvas satisfies `P`. -/
def All (P : Node → Prop) : Canvas → Prop
  | .scene s => s.All P
  | .sheet s => ∀ n ∈ s.nodes.toList, P n.1

@[simp]
theorem all_content (P : Node → Prop) (c : Canvas) :
  c.content.All P ↔ c.All P
  := by
  cases c with
  | scene s =>
    constructor
    · intro h
      apply Scene.All.congr h rfl
    · intro h
      apply Scene.All.congr h rfl
  | sheet s => rfl

/-- What holds of every node holds of those that are walked. -/
theorem All.walk (h : c.All P) :
  ∀ n ∈ c.walk, P n.1
  := by
  cases c with
  | scene s => exact Scene.All.walk h
  | sheet s => exact h

end Canvas

end FrameCache
