import FrameCache.Proofs.FreshTextures
import FrameCache.Proofs.SceneForest

/-!
# The walk of a scene

A path of a scene begins with a root and goes on from nodes to their children.  Its last slot is
the one that it leads to, and the offsets along it add up to a position.  The walk of a scene that a
forest spans goes along all paths in lexicographic order: it reaches a node before those below it,
and what is below a slot before what comes after the slot in its list.

What edits make of a scene is always spanned by a forest, so its walk is complete.  Painting the
scene and walking over it deal with the nodes of the walk, in this order, and with no others.
-/

namespace FrameCache

namespace Forest

/-- The paths from the roots to the slots, each right before those that go on from it. -/
def paths : Forest → List (List Nat)
  | nil => []
  | cons slot below rest => [slot] :: (below.paths.map (slot :: ·) ++ rest.paths)

variable {f : Forest} {path : List Nat}

theorem exists_cons_of_mem_paths (h : path ∈ f.paths) :
  ∃ slot ∈ f.roots, ∃ tail, path = slot :: tail
  := by
  induction f with
  | nil => cases h
  | cons slot below rest _ ih =>
    rw [paths, List.mem_cons, List.mem_append, List.mem_map] at h
    rcases h with rfl | ⟨tail, -, rfl⟩ | h
    · exact ⟨slot, List.mem_cons_self, [], rfl⟩
    · exact ⟨slot, List.mem_cons_self, tail, rfl⟩
    · obtain ⟨root, hroot, htail⟩ := ih h
      exact ⟨root, List.mem_cons_of_mem _ hroot, htail⟩

theorem getLast?_cons_of_mem_paths (h : path ∈ f.paths) (slot : Nat) :
  (slot :: path).getLast? = path.getLast?
  := by
  obtain ⟨root, -, tail, rfl⟩ := exists_cons_of_mem_paths h
  exact List.getLast?_cons_cons

/-- The paths lead to all slots, in order. -/
theorem map_getLast?_paths (f : Forest) :
  f.paths.map List.getLast? = f.slots.map some
  := by
  induction f with
  | nil => rfl
  | cons slot below rest ihbelow ihrest =>
    have hbelow : (below.paths.map (slot :: ·)).map List.getLast? = below.slots.map some := by
      rw [List.map_map, ← ihbelow]
      apply List.map_congr_left
      intro path hpath
      exact getLast?_cons_of_mem_paths hpath slot
    rw [paths, slots, List.map_cons, List.map_cons, List.map_append, List.map_append, hbelow,
      ihrest]
    rfl

/-- If slots ascend, the paths are in lexicographic order. -/
theorem pairwise_paths (h : f.Ascending) :
  f.paths.Pairwise (· < ·)
  := by
  induction f with
  | nil => exact .nil
  | cons slot below rest ihbelow ihrest =>
    obtain ⟨-, hrest, hb, hr⟩ := h
    -- A path through the first root is less than one through another.
    have hfirst : ∀ tail, ∀ path ∈ rest.paths, slot :: tail < path := by
      intro tail path hpath
      obtain ⟨root, hroot, tail', rfl⟩ := exists_cons_of_mem_paths hpath
      exact List.Lex.rel (hrest root hroot)
    rw [paths, List.pairwise_cons, List.pairwise_append, List.pairwise_map]
    refine ⟨?_, ?_, ihrest hr, ?_⟩
    · intro path hpath
      rcases List.mem_append.1 hpath with hpath | hpath
      · obtain ⟨tail, htail, rfl⟩ := List.mem_map.1 hpath
        obtain ⟨root, -, tail, rfl⟩ := exists_cons_of_mem_paths htail
        exact List.Lex.cons List.Lex.nil
      · exact hfirst [] path hpath
    · exact (ihbelow hb).imp fun hlt => List.Lex.cons hlt
    · intro path hpath path' hpath'
      obtain ⟨tail, -, rfl⟩ := List.mem_map.1 hpath
      exact hfirst tail path' hpath'

end Forest

namespace Scene

variable {s : Scene} {f : Forest} {slot : Nat} {path : List Nat}

/-! ### Lists of slots -/

/-- The slots listed as the children of the node in a slot. -/
def childrenOf (s : Scene) (slot : Nat) : List Nat :=
  ((s.node? slot).map SceneNode.children).getD []

/-- The slots that the lists of the scene mention: the roots and the children of all nodes. -/
def mentioned (s : Scene) : List Nat :=
  s.roots ++ (List.range s.slots.size).flatMap s.childrenOf

theorem childrenOf_of_node? {n : SceneNode} (h : s.node? slot = some n) :
  s.childrenOf slot = n.children
  := by
  rw [childrenOf, h]
  rfl

theorem childrenOf_of_dead (h : s.node? slot = none) :
  s.childrenOf slot = []
  := by
  rw [childrenOf, h]
  rfl

end Scene

namespace Forest

variable {s : Scene} {f : Forest} {slot : Nat} {path : List Nat}

/-- The roots and the children of all slots are the slots. -/
theorem Fits.perm_slots (h : f.Fits s) :
  (f.roots ++ f.slots.flatMap s.childrenOf).Perm f.slots
  := by
  induction f with
  | nil => exact List.Perm.refl _
  | cons slot below rest ihbelow ihrest =>
    obtain ⟨⟨n, hn, hchildren⟩, hb, hr⟩ := h
    have hslot : s.childrenOf slot = below.roots := (Scene.childrenOf_of_node? hn).trans hchildren
    rw [List.perm_iff_count]
    intro k
    have hbelow := (ihbelow hb).count_eq k
    have hrest := (ihrest hr).count_eq k
    rw [roots, slots, List.flatMap_cons, List.flatMap_append, hslot]
    simp only [List.count_append, List.count_cons] at hbelow hrest ⊢
    omega

/-- The lists of the scene mention the slots of the forest. -/
theorem Spans.perm_mentioned (h : f.Spans s) :
  s.mentioned.Perm f.slots
  := by
  have hdead : ((List.range s.slots.size).filter fun k => !decide (k ∈ f.slots)).flatMap
      s.childrenOf = [] := by
    rw [List.flatMap_eq_nil_iff]
    intro k hk
    apply Scene.childrenOf_of_dead
    rw [← Option.not_isSome_iff_eq_none, ← h.live]
    simpa using (List.mem_filter.1 hk).2
  have hlive : ((List.range s.slots.size).filter (· ∈ f.slots)).Perm f.slots := by
    rw [List.perm_ext_iff_of_nodup (List.nodup_range.filter _) h.nodup]
    intro k
    rw [List.mem_filter, List.mem_range, decide_eq_true_iff]
    exact ⟨And.right, fun hk => ⟨h.lt_size hk, hk⟩⟩
  have hsplit := (List.filter_append_perm (· ∈ f.slots) (List.range s.slots.size)).flatMap_right
    s.childrenOf
  rw [List.flatMap_append, hdead, List.append_nil] at hsplit
  rw [Scene.mentioned, h.roots]
  exact ((hsplit.symm.trans (hlive.flatMap_right _)).append_left _).trans h.fits.perm_slots

/-- Every live slot is mentioned once, and no other is. -/
theorem Spans.count_mentioned (h : f.Spans s) (slot : Nat) :
  s.mentioned.count slot = if (s.node? slot).isSome then 1 else 0
  := by
  rw [h.perm_mentioned.count_eq]
  split
  · rename_i hslot
    exact List.count_eq_one_of_mem h.nodup ((h.live slot).2 hslot)
  · rename_i hslot
    exact List.count_eq_zero_of_not_mem fun hmem => hslot ((h.live slot).1 hmem)

theorem Fits.ascending_children (h : f.Fits s) (ha : f.Ascending) (hslot : slot ∈ f.slots) :
  (slot :: s.childrenOf slot).Pairwise (· < ·)
  := by
  induction f with
  | nil => cases hslot
  | cons k below rest ihbelow ihrest =>
    obtain ⟨⟨n, hn, hchildren⟩, hb, hr⟩ := h
    obtain ⟨hbelow, -, hab, har⟩ := ha
    rw [slots, List.mem_cons, List.mem_append] at hslot
    rcases hslot with rfl | hslot | hslot
    · rw [Scene.childrenOf_of_node? hn, hchildren]
      exact List.pairwise_cons.2 ⟨hbelow, pairwise_roots hab⟩
    · exact ihbelow hb hab hslot
    · exact ihrest hr har hslot

end Forest

/-! ### Paths -/

namespace Scene

variable {s : Scene} {f : Forest} {slot : Nat} {path : List Nat}

/-- A path begins with a root and goes on from nodes to their children. -/
def IsPath (s : Scene) (path : List Nat) : Prop :=
  (∃ root ∈ s.roots, path.head? = some root)
    ∧ path.IsChain fun slot child => child ∈ s.childrenOf slot

/-- The sum, from left to right, of an origin and the offsets along a path. -/
def positionAlong (s : Scene) (origin : Position) (path : List Nat) : Position :=
  (path.filterMap s.node?).foldl (fun p n => p + n.offset) origin

/-- The node that a path leads to, with its position. -/
def reached? (s : Scene) (origin : Position) (path : List Nat) : Option (Node × Position) :=
  (path.getLast?.bind s.node?).map fun n => (n.node, s.positionAlong origin path)

end Scene

namespace Forest

variable {s : Scene} {f : Forest} {slot : Nat} {path : List Nat}

theorem Fits.mem_paths (h : f.Fits s) :
  path ∈ f.paths ↔ (∃ root ∈ f.roots, path.head? = some root)
    ∧ path.IsChain fun slot child => child ∈ s.childrenOf slot
  := by
  induction f generalizing path with
  | nil => simp [paths, roots]
  | cons slot below rest ihbelow ihrest =>
    obtain ⟨⟨n, hn, hchildren⟩, hb, hr⟩ := h
    have hslot : s.childrenOf slot = below.roots := (Scene.childrenOf_of_node? hn).trans hchildren
    rw [paths, roots, List.mem_cons, List.mem_append, List.mem_map, ihrest hr]
    constructor
    · rintro (rfl | ⟨tail, htail, rfl⟩ | ⟨⟨root, hroot, hhead⟩, hchain⟩)
      · exact ⟨⟨slot, List.mem_cons_self, rfl⟩, .singleton _⟩
      · obtain ⟨⟨child, hchild, hhead⟩, hchain⟩ := (ihbelow hb).1 htail
        refine ⟨⟨slot, List.mem_cons_self, rfl⟩, ?_⟩
        obtain ⟨tail, rfl⟩ := List.head?_eq_some_iff.1 hhead
        rw [List.isChain_cons_cons, hslot]
        exact ⟨hchild, hchain⟩
      · exact ⟨⟨root, List.mem_cons_of_mem _ hroot, hhead⟩, hchain⟩
    · rintro ⟨⟨root, hroot, hhead⟩, hchain⟩
      rcases List.mem_cons.1 hroot with rfl | hroot
      · obtain ⟨tail, rfl⟩ := List.head?_eq_some_iff.1 hhead
        cases tail with
        | nil => exact Or.inl rfl
        | cons child tail =>
          rw [List.isChain_cons_cons, hslot] at hchain
          refine Or.inr (Or.inl ⟨child :: tail, ?_, rfl⟩)
          exact (ihbelow hb).2 ⟨⟨child, hchain.1, rfl⟩, hchain.2⟩
      · exact Or.inr (Or.inr ⟨⟨root, hroot, hhead⟩, hchain⟩)

/-- A node below a slot is reached from the position of the slot. -/
theorem reached?_cons {n : SceneNode} (hn : s.node? slot = some n) (origin : Position)
    (h : path ∈ f.paths) :
  s.reached? origin (slot :: path) = s.reached? (origin + n.offset) path
  := by
  rw [Scene.reached?, Scene.reached?, getLast?_cons_of_mem_paths h, Scene.positionAlong,
    List.filterMap_cons_some hn]
  rfl

/-- A visit of the roots reaches what the paths lead to, if it is deep enough. -/
theorem Fits.map_visit (h : f.Fits s) {depth : Nat} (hd : f.slots.length ≤ depth)
    (origin : Position) (later : List (Node × Position)) :
  (f.roots.foldr (s.visit depth origin) later).map some
    = f.paths.map (s.reached? origin) ++ later.map some
  := by
  induction f generalizing depth origin later with
  | nil => rfl
  | cons slot below rest ihbelow ihrest =>
    obtain ⟨⟨n, hn, hchildren⟩, hb, hr⟩ := h
    rw [slots, List.length_cons, List.length_append] at hd
    obtain ⟨depth, rfl⟩ : ∃ d, depth = d + 1 := ⟨depth - 1, by omega⟩
    have hfirst : s.reached? origin [slot] = some (n.node, origin + n.offset) := by
      simp [Scene.reached?, Scene.positionAlong, hn]
    have hbelow : below.paths.map (s.reached? (origin + n.offset))
        = (below.paths.map (slot :: ·)).map (s.reached? origin) := by
      rw [List.map_map]
      apply List.map_congr_left
      intro path hpath
      exact (reached?_cons hn origin hpath).symm
    rw [roots, List.foldr_cons, Scene.visit, hn]
    dsimp only
    rw [hchildren, List.map_cons, ihbelow hb (by omega), ihrest hr (by omega), paths, List.map_cons,
      List.map_append, hfirst, hbelow, List.cons_append, List.append_assoc]

/-- The walk of a scene reaches what its paths lead to. -/
theorem Spans.map_walk (h : f.Spans s) :
  s.walk.map some = f.paths.map (s.reached? .origin)
  := by
  rw [Scene.walk, h.roots, h.fits.map_visit h.length_le]
  exact List.append_nil _

/-- Edits keep scenes spanned. -/
theorem Spans.run (h : f.Spans s) (e : Edit) :
  ∃ (f' : Forest) (s' : Scene), e.run (.scene s) = .scene s' ∧ f'.Spans s'
  := by
  cases e with
  | addRoot n offset => exact ⟨_, _, rfl, h.addRoot n offset⟩
  | addChild parent n offset =>
    obtain ⟨f', hf'⟩ := h.addChild parent n offset
    exact ⟨f', _, rfl, hf'⟩
  | remove slot =>
    obtain ⟨f', hf'⟩ := h.remove slot
    exact ⟨f', _, rfl, hf'⟩
  | invalidate o => exact ⟨f, _, rfl, h.congr rfl rfl⟩
  | setDirty => exact ⟨f, _, rfl, h.congr rfl rfl⟩

end Forest

/-! ### Painting and walking over what is walked -/

namespace Studio

theorem paints_paintAll (s : Studio) (c : CanvasId) (nodes : List (Node × Position)) :
  (s.paintAll c nodes).2.host.log.paints
    = ((s.visits c nodes).map Visit.paint).reverse ++ s.host.log.paints
  := by
  have hvisits : ((s.visits c nodes).map Visit.call).filterMap Event.paint?
      = (s.visits c nodes).map Visit.paint := by
    rw [List.filterMap_map]
    exact congrFun List.filterMap_eq_map _
  rw [← Log.paints_plain, plain_paintAll, List.filterMap_append, List.filterMap_reverse, hvisits,
    Log.paints_plain]

theorem lifetimes_renew (s : Studio) (o : ObjectId) :
  (s.renew o).inventory.mountings.lifetime = s.inventory.mountings.lifetime
    ∧ (s.renew o).inventory.renderers.lifetime = s.inventory.renderers.lifetime
  := by
  rw [renew, query, Inventory.touch_eq]
  refine ⟨Cache.lifetime_renew _ _ _, ?_⟩
  dsimp only
  split
  · exact Cache.lifetime_renew _ _ _
  · rfl

theorem isSome_mounting?_renew (s : Studio) (o o' : ObjectId) :
  ((s.renew o).mounting? o').isSome = (s.mounting? o').isSome
  := by
  rw [mounting?_renew]
  split
  · rename_i ho
    rw [ho, Option.isSome_map]
  · rfl

/-- Walking over nodes counts those whose objects are mounted. -/
theorem fst_keepAlive (s : Studio) (nodes : List (Node × Position)) :
  (s.keepAlive nodes).1 = nodes.countP fun n => (s.mounting? n.1.object).isSome
  := by
  induction nodes generalizing s with
  | nil => rfl
  | cons n nodes ih =>
    have hmounted : ∀ o, ((s.query fun i now => i.touch n.1.object now).2.mounting? o).isSome
        = (s.mounting? o).isSome := s.isSome_mounting?_renew n.1.object
    have hfirst : (s.query fun i now => i.touch n.1.object now).1
        = (s.mounting? n.1.object).isSome := by
      rw [query, Inventory.touch_eq]
      rfl
    rw [keepAlive, List.countP_cons]
    dsimp only
    rw [ih, hfirst]
    simp only [hmounted]
    cases (s.mounting? n.1.object).isSome <;> rfl

theorem host_keepAlive (s : Studio) (nodes : List (Node × Position)) :
  (s.keepAlive nodes).2.host = s.host
  := by
  rw [snd_keepAlive]
  exact List.foldlRecOn (motive := fun s' : Studio => s'.host = s.host) _ _ rfl fun _ h _ _ => h

/-- Walking over nodes renews the mountings of their objects, and no others. -/
theorem mounting?_keepAlive (s : Studio) (nodes : List (Node × Position)) (o : ObjectId) :
  (s.keepAlive nodes).2.mounting? o
    = if o ∈ nodes.map (fun n => n.1.object) then
        (s.mounting? o).map (·.postpone (s.now.after s.inventory.mountings.lifetime))
      else s.mounting? o
  := by
  rw [snd_keepAlive]
  induction nodes generalizing s with
  | nil => simp
  | cons n nodes ih =>
    have hnow : (s.renew n.1.object).now = s.now := rfl
    rw [List.foldl_cons, ih, (s.lifetimes_renew n.1.object).1, hnow, mounting?_renew]
    by_cases ho : o = n.1.object
    · subst ho
      cases s.mounting? n.1.object <;> simp [Entry.postpone]
    · simp only [List.map_cons, List.mem_cons, ho, false_or, if_false]

/-- It renews the renderers of those that are mounted, and no others. -/
theorem renderer?_keepAlive (s : Studio) (nodes : List (Node × Position)) (o : ObjectId) :
  (s.keepAlive nodes).2.renderer? o
    = if o ∈ nodes.map (fun n => n.1.object) ∧ (s.mounting? o).isSome then
        (s.renderer? o).map (·.postpone (s.now.after s.inventory.renderers.lifetime))
      else s.renderer? o
  := by
  rw [snd_keepAlive]
  induction nodes generalizing s with
  | nil => simp
  | cons n nodes ih =>
    have hnow : (s.renew n.1.object).now = s.now := rfl
    rw [List.foldl_cons, ih, (s.lifetimes_renew n.1.object).2, hnow, renderer?_renew,
      isSome_mounting?_renew]
    by_cases ho : o = n.1.object
    · subst ho
      by_cases hm : (s.mounting? n.1.object).isSome
      · cases s.renderer? n.1.object <;> simp [hm, Entry.postpone]
      · simp [hm]
    · simp only [List.map_cons, List.mem_cons, ho, false_or, false_and, if_false]

end Studio

/-! ### The walk of an edited scene -/

/-- Whatever edits are made, a scene stays a forest, and it is walked completely.  Its lists mention
every live slot once, and no dead one; children have larger slots than their parents, and every list
is in the order in which its slots were issued, as a new slot is larger than all live ones.

In lexicographic order the paths of the scene, each leading to another live slot and all live slots
being reached, tell what is walked: the nodes that they lead to, at the sum of the offsets along
them.  When the scene is painted, what is drawn are these nodes, and when it is walked over without
being painted, the mounted ones among them are kept alive. -/
theorem Scene.walk_is_complete (edits : List Edit) :
  ∃ s, edits.foldl Edit.run (.scene .empty) = .scene s
    ∧ (∀ slot, s.mentioned.count slot = if (s.node? slot).isSome then 1 else 0)
    ∧ s.roots.Pairwise (· < ·)
    ∧ (∀ slot, (slot :: s.childrenOf slot).Pairwise (· < ·))
    ∧ (∀ slot, (s.node? slot).isSome → ∀ n offset, slot < (s.push n offset).1)
    ∧ (∃ paths : List (List Nat),
      (∀ path, path ∈ paths ↔ s.IsPath path)
      ∧ paths.Pairwise (· < ·)
      ∧ (∀ slot, (paths.map List.getLast?).count (some slot)
        = if (s.node? slot).isSome then 1 else 0)
      ∧ s.walk.map some = paths.map (s.reached? .origin))
    ∧ (∀ (studio : Studio) (c : CanvasId),
      let painted := studio.paintAll c s.walk
      painted.1 = s.walk.length
      ∧ ∃ paints : List (ObjectId × Position × Option Texture),
        paints.map (fun p => (p.1, p.2.1)) = s.walk.map (fun n => (n.1.object, n.2))
        ∧ painted.2.host.log.paints = paints.reverse ++ studio.host.log.paints)
    ∧ (∀ studio : Studio,
      let kept := studio.keepAlive s.walk
      kept.1 = s.walk.countP (fun n => (studio.mounting? n.1.object).isSome)
      ∧ kept.2.host = studio.host
      ∧ (∀ o, kept.2.mounting? o
        = if o ∈ s.walk.map (fun n => n.1.object) then
            (studio.mounting? o).map
              (·.postpone (studio.now.after studio.inventory.mountings.lifetime))
          else studio.mounting? o)
      ∧ ∀ o, kept.2.renderer? o
        = if o ∈ s.walk.map (fun n => n.1.object) ∧ (studio.mounting? o).isSome then
            (studio.renderer? o).map
              (·.postpone (studio.now.after studio.inventory.renderers.lifetime))
          else studio.renderer? o)
  := by
  have hspans : ∃ (f : Forest) (s : Scene), edits.foldl Edit.run (.scene .empty) = .scene s
      ∧ f.Spans s := by
    apply List.foldlRecOn (motive := fun c : Canvas =>
      ∃ (f : Forest) (s : Scene), c = .scene s ∧ f.Spans s)
    · exact ⟨.nil, .empty, rfl, Forest.spans_empty⟩
    · rintro c ⟨f, s, rfl, hf⟩ e _
      exact hf.run e
  obtain ⟨f, s, hs, hf⟩ := hspans
  refine ⟨s, hs, hf.count_mentioned, ?_, ?_, ?_, ?_, ?_, ?_⟩
  · rw [hf.roots]
    exact Forest.pairwise_roots hf.ascending
  · intro slot
    by_cases hslot : slot ∈ f.slots
    · exact hf.fits.ascending_children hf.ascending hslot
    · rw [childrenOf_of_dead]
      · exact List.pairwise_singleton _ _
      · rw [← Option.not_isSome_iff_eq_none, ← hf.live]
        exact hslot
  · intro slot hslot n offset
    exact lt_size_of_isSome hslot
  · refine ⟨f.paths, ?_, Forest.pairwise_paths hf.ascending, ?_, hf.map_walk⟩
    · intro path
      rw [hf.fits.mem_paths, IsPath, hf.roots]
    · intro slot
      rw [Forest.map_getLast?_paths, List.count_map_of_injective _ _ fun _ _ => Option.some.inj,
        ← hf.perm_mentioned.count_eq, hf.count_mentioned]
  · intro studio c
    refine ⟨rfl, (studio.visits c s.walk).map Visit.paint, ?_, studio.paints_paintAll c s.walk⟩
    have hvisits := congrArg (List.map fun n => (n.1.object, n.2)) (studio.map_visits c s.walk)
    rw [List.map_map] at hvisits ⊢
    exact hvisits
  · intro studio
    exact ⟨studio.fst_keepAlive s.walk, studio.host_keepAlive s.walk,
      studio.mounting?_keepAlive s.walk, studio.renderer?_keepAlive s.walk⟩

end FrameCache
