import FrameCache.Proofs.Repaints
import FrameCache.Proofs.SceneWalk
import Mathlib.Data.List.Chain

/-!
# Removal from a scene

Below a slot is the slot itself, and whatever its node leads to from child to child.  A path goes
through a slot just if it leads to a slot below it.  So once a slot is removed, the paths of the
scene are those that did not go through it, in the same order, and they lead to the same nodes at
the same positions.

A slot that was issued and is dead stays dead, whatever is done with the scene: it is not issued
again, nothing is added below it and it is not removed again.
-/

namespace FrameCache

/-! ### Uses of a scene -/

/-- What is done with a scene: it is edited, or its marks are taken before it is painted. -/
inductive SceneUse where
  | edit (e : Edit)
  | takeDirty
  | takeStaleTextures

/-- The canvas after a use. -/
def SceneUse.run (c : Canvas) : SceneUse → Canvas
  | .edit e => e.run c
  | .takeDirty => c.takeDirty.2
  | .takeStaleTextures => c.takeStaleTextures.2

/-! ### Paths without a slot -/

namespace Forest

variable {f : Forest} {s : Scene} {slot k : Nat} {path path' : List Nat}

/-- Without some slots only the paths through none of them are left. -/
theorem paths_without (gone : List Nat) (f : Forest) :
  (f.without gone).paths = f.paths.filter fun path => ∀ k ∈ path, k ∉ gone
  := by
  induction f with
  | nil => rfl
  | cons slot below rest ihbelow ihrest =>
    have hbelow : (below.paths.map (slot :: ·)).filter (fun path => ∀ k ∈ path, k ∉ gone)
        = if slot ∈ gone then [] else (below.without gone).paths.map (slot :: ·) := by
      rw [List.filter_map, ihbelow]
      split
      · rename_i hslot
        simp [hslot]
      · rename_i hslot
        simp [hslot, Function.comp_def]
    rw [without, paths, List.filter_cons, List.filter_append, hbelow, ← ihrest]
    by_cases hslot : slot ∈ gone
    · simp [hslot]
    · simp [hslot, paths]

/-- Every live slot has one path that leads to it. -/
theorem Spans.path_unique (h : f.Spans s) (hpath : path ∈ f.paths) (hpath' : path' ∈ f.paths)
    (hlast : path.getLast? = path'.getLast?) :
  path = path'
  := by
  have hnodup : (f.paths.map List.getLast?).Nodup := by
    rw [map_getLast?_paths]
    exact h.nodup.map fun _ _ => Option.some.inj
  exact List.inj_on_of_nodup_map hnodup hpath hpath' hlast

theorem exists_path (hslot : slot ∈ f.slots) :
  ∃ path ∈ f.paths, path.getLast? = some slot
  := by
  have hmem : some slot ∈ f.paths.map List.getLast? := by
    rw [map_getLast?_paths]
    exact List.mem_map_of_mem hslot
  exact List.mem_map.1 hmem

end Forest

namespace Scene

variable {f : Forest} {s s' : Scene} {slot k : Nat} {path path' : List Nat} {gone : List Nat}

/-- The slot `k` is `slot`, or it is reached from there by going from nodes to their children. -/
def Below (s : Scene) (slot k : Nat) : Prop :=
  Relation.ReflTransGen (fun parent child => child ∈ s.childrenOf parent) slot k

/-- Below a dead slot there is no other. -/
theorem Below.eq_of_dead (h : s.Below slot k) (hdead : s.node? slot = none) :
  k = slot
  := by
  rcases Relation.ReflTransGen.cases_head h with heq | ⟨child, hchild, -⟩
  · exact heq.symm
  · rw [childrenOf_of_dead hdead] at hchild
    cases hchild

theorem IsPath.snoc (h : s.IsPath path) (hlast : path.getLast? = some slot)
    (hchild : k ∈ s.childrenOf slot) :
  s.IsPath (path ++ [k])
  := by
  obtain ⟨⟨root, hroot, hhead⟩, hchain⟩ := h
  refine ⟨⟨root, hroot, ?_⟩, hchain.append (.singleton k) ?_⟩
  · rw [List.head?_append, hhead]
    rfl
  · intro parent hparent child hk
    cases hlast.symm.trans hparent
    cases hk
    exact hchild

/-- A path through a slot begins with one that leads to the slot. -/
theorem IsPath.of_mem (h : s.IsPath path) (hslot : slot ∈ path) :
  ∃ before after, path = before ++ slot :: after ∧ s.IsPath (before ++ [slot])
    ∧ s.Below slot ((slot :: after).getLast (List.cons_ne_nil _ _))
  := by
  obtain ⟨⟨root, hroot, hhead⟩, hchain⟩ := h
  obtain ⟨before, after, rfl⟩ := List.append_of_mem hslot
  refine ⟨before, after, rfl, ⟨⟨root, hroot, ?_⟩, ?_⟩, ?_⟩
  · rw [← hhead, List.head?_append, List.head?_append]
    rfl
  · rw [show before ++ slot :: after = before ++ [slot] ++ after by simp] at hchain
    exact hchain.left_of_append
  · exact List.relationReflTransGen_of_exists_isChain_cons after hchain.right_of_append rfl

end Scene

namespace Forest

variable {f : Forest} {s s' : Scene} {slot k : Nat} {path : List Nat} {gone : List Nat}

theorem Spans.mem_paths (h : f.Spans s) :
  path ∈ f.paths ↔ s.IsPath path
  := by
  rw [h.fits.mem_paths, Scene.IsPath, h.roots]

theorem Spans.node?_of_not_mem (h : f.Spans s) (hslot : slot ∉ f.slots) :
  s.node? slot = none
  := by
  rw [← Option.not_isSome_iff_eq_none, ← h.live]
  exact hslot

/-- What is below a live slot is led to through it. -/
theorem Spans.exists_path_through (h : f.Spans s) (hslot : slot ∈ f.slots) (hk : s.Below slot k) :
  ∃ path ∈ f.paths, slot ∈ path ∧ path.getLast? = some k
  := by
  induction hk with
  | refl =>
    obtain ⟨path, hpath, hlast⟩ := exists_path hslot
    exact ⟨path, hpath, List.mem_of_getLast? hlast, hlast⟩
  | @tail parent child _ hchild ih =>
    obtain ⟨path, hpath, hthrough, hlast⟩ := ih
    refine ⟨path ++ [child], ?_, List.mem_append_left _ hthrough, List.getLast?_concat⟩
    exact h.mem_paths.2 ((h.mem_paths.1 hpath).snoc hlast hchild)

/-- A path goes through a slot just if it leads to a slot below it. -/
theorem Spans.mem_path_iff (h : f.Spans s) (hpath : path ∈ f.paths) :
  slot ∈ path ↔ ∃ k, path.getLast? = some k ∧ (s.node? slot).isSome ∧ s.Below slot k
  := by
  constructor
  · intro hslot
    obtain ⟨before, after, rfl, hbefore, hbelow⟩ := (h.mem_paths.1 hpath).of_mem hslot
    refine ⟨_, ?_, ?_, hbelow⟩
    · rw [List.getLast?_append_of_ne_nil _ (List.cons_ne_nil _ _), List.getLast?_eq_some_getLast]
    · have hlast : (before ++ [slot]).getLast? ∈ f.paths.map List.getLast? :=
        List.mem_map_of_mem (h.mem_paths.2 hbefore)
      rw [map_getLast?_paths, List.getLast?_concat, List.mem_map] at hlast
      obtain ⟨slot', hslot', heq⟩ := hlast
      cases heq
      exact (h.live slot).1 hslot'
  · rintro ⟨k, hlast, hlive, hbelow⟩
    obtain ⟨path', hpath', hthrough, hlast'⟩ :=
      h.exists_path_through ((h.live slot).2 hlive) hbelow
    rw [h.path_unique hpath hpath' (hlast.trans hlast'.symm)]
    exact hthrough

/-- The slots of a forest that fits are those below its roots. -/
theorem Fits.exists_root (h : f.Fits s) (hk : k ∈ f.slots) :
  ∃ root ∈ f.roots, s.Below root k
  := by
  induction f with
  | nil => cases hk
  | cons slot below rest ihbelow ihrest =>
    obtain ⟨⟨n, hn, hchildren⟩, hb, hr⟩ := h
    rw [slots, List.mem_cons, List.mem_append] at hk
    rcases hk with rfl | hk | hk
    · exact ⟨k, List.mem_cons_self, .refl⟩
    · obtain ⟨child, hchild, hbelow⟩ := ihbelow hb hk
      refine ⟨slot, List.mem_cons_self, .head ?_ hbelow⟩
      rw [Scene.childrenOf_of_node? hn, hchildren]
      exact hchild
    · obtain ⟨root, hroot, hbelow⟩ := ihrest hr hk
      exact ⟨root, List.mem_cons_of_mem _ hroot, hbelow⟩

/-- What is below the slots of a forest that fits is in the forest. -/
theorem Fits.mem_of_below (h : f.Fits s) (hslot : slot ∈ f.slots) (hk : s.Below slot k) :
  k ∈ f.slots
  := by
  induction hk with
  | refl => exact hslot
  | @tail parent child _ hchild ih =>
    apply h.perm_slots.subset
    exact List.mem_append_right _ (List.mem_flatMap.2 ⟨parent, ih, hchild⟩)

/-- The tree of a slot has the slots below it. -/
theorem Spans.mem_tree_iff (h : f.Spans s) (hslot : slot ∈ f.slots) :
  k ∈ (f.tree slot).slots ↔ s.Below slot k
  := by
  have hfits := h.fits.tree hslot
  constructor
  · intro hk
    obtain ⟨root, hroot, hbelow⟩ := hfits.exists_root hk
    rw [List.mem_singleton.1 hroot] at hbelow
    exact hbelow
  · exact hfits.mem_of_below List.mem_cons_self

/-- Once a live slot is removed, the paths are those that did not go through it. -/
theorem Spans.paths_without_tree (h : f.Spans s) (hslot : slot ∈ f.slots) :
  (f.without (f.tree slot).slots).paths = f.paths.filter (slot ∉ ·)
  := by
  rw [paths_without]
  apply List.filter_congr
  intro path hpath
  rw [decide_eq_decide]
  constructor
  · intro hall hthrough
    exact hall slot hthrough ((h.mem_tree_iff hslot).2 .refl)
  · -- A slot of the tree on the path is led to through `slot`, by the beginning of the path.
    intro hnot k hk htree
    obtain ⟨before, after, rfl, hbefore, -⟩ := (h.mem_paths.1 hpath).of_mem hk
    have hthrough : slot ∈ before ++ [k] := by
      apply (h.mem_path_iff (h.mem_paths.2 hbefore)).2
      exact ⟨k, List.getLast?_concat, (h.live slot).1 hslot, (h.mem_tree_iff hslot).1 htree⟩
    apply hnot
    rw [show before ++ k :: after = before ++ [k] ++ after by simp]
    exact List.mem_append_left _ hthrough

end Forest

/-! ### The walk without a slot -/

namespace Scene

variable {f : Forest} {s s' : Scene} {slot k : Nat} {path : List Nat} {gone : List Nat}

/-- A path on which no slot is gone leads to the same node at the same position. -/
theorem Without.reached? (h : Without gone s s') (hpath : ∀ k ∈ path, k ∉ gone)
    (origin : Position) :
  s'.reached? origin path = s.reached? origin path
  := by
  have hnode : ∀ k ∈ path, s'.node? k = (s.node? k).map (·.disownAll gone) := by
    intro k hk
    rw [h.node?, if_neg (hpath k hk)]
  have hposition : ∀ origin, s'.positionAlong origin path = s.positionAlong origin path := by
    intro origin
    rw [positionAlong, positionAlong, List.filterMap_congr hnode, ← List.map_filterMap,
      List.foldl_map]
    rfl
  rw [Scene.reached?, Scene.reached?, hposition]
  cases hlast : path.getLast? with
  | none => rfl
  | some k =>
    rw [Option.bind_some, Option.bind_some, hnode k (List.mem_of_getLast? hlast), Option.map_map]
    rfl

end Scene

namespace Forest

variable {f : Forest} {s : Scene} {slot k : Nat}

/-- The walk after a removal goes along the paths that did not go through the slot. -/
theorem Spans.map_walk_remove (h : f.Spans s) (slot : Nat) :
  (s.remove slot).walk.map some = (f.paths.filter (slot ∉ ·)).map (s.reached? .origin)
  := by
  by_cases hslot : slot ∈ f.slots
  · rw [(h.remove_of_live hslot).map_walk, h.paths_without_tree hslot]
    apply List.map_congr_left
    intro path hpath
    rw [← h.paths_without_tree hslot, paths_without, List.mem_filter, decide_eq_true_iff] at hpath
    exact (h.without_remove hslot).reached? hpath.2 .origin
  · have hdead := h.node?_of_not_mem hslot
    have hall : f.paths.filter (slot ∉ ·) = f.paths := by
      rw [List.filter_eq_self]
      intro path hpath
      apply decide_eq_true
      intro hthrough
      obtain ⟨-, -, hlive, -⟩ := (h.mem_path_iff hpath).1 hthrough
      rw [hdead] at hlive
      cases hlive
    rw [Scene.remove_of_dead hdead, hall, h.map_walk]

/-- A removal takes the slots below the slot, and no others. -/
theorem Spans.isSome_node?_remove (h : f.Spans s) (slot k : Nat) :
  ((s.remove slot).node? k).isSome ↔ (s.node? k).isSome ∧ ¬ s.Below slot k
  := by
  by_cases hslot : slot ∈ f.slots
  · rw [(h.without_remove hslot).node?, ← h.mem_tree_iff hslot]
    split
    · rename_i hk
      simp [hk]
    · rename_i hk
      simp [hk]
  · have hdead := h.node?_of_not_mem hslot
    rw [Scene.remove_of_dead hdead]
    refine ⟨fun hk => ⟨hk, fun hbelow => ?_⟩, And.left⟩
    rw [hbelow.eq_of_dead hdead, hdead] at hk
    cases hk

/-- Uses keep scenes spanned. -/
theorem Spans.use (h : f.Spans s) (u : SceneUse) :
  ∃ (f' : Forest) (s' : Scene), u.run (.scene s) = .scene s' ∧ f'.Spans s'
  := by
  cases u with
  | edit e => exact h.run e
  | takeDirty => exact ⟨f, _, rfl, h.congr rfl rfl⟩
  | takeStaleTextures => exact ⟨f, _, rfl, h.congr rfl rfl⟩

theorem exists_spans (uses : List SceneUse) :
  ∃ (f : Forest) (s : Scene), uses.foldl SceneUse.run (.scene .empty) = .scene s ∧ f.Spans s
  := by
  apply List.foldlRecOn (motive := fun c : Canvas =>
    ∃ (f : Forest) (s : Scene), c = .scene s ∧ f.Spans s)
  · exact ⟨.nil, .empty, rfl, spans_empty⟩
  · rintro c ⟨f, s, rfl, hf⟩ u _
    exact hf.use u

end Forest

/-! ### Slots that stay dead -/

namespace Scene

variable {s s' : Scene} {slot k : Nat}

/-- The slot was issued, and it is dead. -/
def Dead (s : Scene) (k : Nat) : Prop := k < s.slots.size ∧ s.node? k = none

namespace Dead

theorem congr (h : s.Dead k) (hs : s'.slots = s.slots) :
  s'.Dead k
  := by
  rw [Dead, node?, hs]
  exact h

theorem push (h : s.Dead k) (n : Node) (offset : Position) :
  (s.push n offset).2.Dead k
  := by
  constructor
  · change k < (s.slots.push _).size
    rw [Array.size_push]
    exact Nat.lt_succ_of_lt h.1
  · rw [node?_push, if_neg (Nat.ne_of_lt h.1), h.2]

theorem vacate (h : s.Dead k) (slot : Nat) :
  (s.vacate slot).Dead k
  := by
  constructor
  · change k < (s.slots.setIfInBounds slot none).size
    rw [Array.size_setIfInBounds]
    exact h.1
  · rw [node?_vacate, h.2, ite_self]

theorem detach (h : s.Dead k) (slot : Nat) :
  (s.detach slot).Dead k
  := by
  constructor
  · change k < (s.slots.map _).size
    rw [Array.size_map]
    exact h.1
  · rw [node?_detach, h.2]
    rfl

theorem removeWithin (h : s.Dead k) (depth slot : Nat) :
  (removeWithin depth slot s).Dead k
  := by
  induction depth generalizing slot s with
  | zero => exact h
  | succ depth ih =>
    rw [Scene.removeWithin]
    split
    · exact h
    · apply Dead.detach
      apply List.foldlRecOn (motive := fun s : Scene => s.Dead k) _ _ (h.vacate slot)
      intro s' hs' child _
      exact ih hs' child

theorem addChild (h : s.Dead k) (parent : Nat) (n : Node) (offset : Position) :
  (s.addChild parent n offset).2.Dead k
  := by
  rw [Scene.addChild]
  split
  · exact h
  · rename_i p hp
    have hparent : parent ≠ s.slots.size := by
      rintro rfl
      rw [s.node?_size] at hp
      cases hp
    have hpushed : (s.push n offset).2.node? parent = some p := by
      rw [node?_push, if_neg hparent, hp]
    have hk : k ≠ parent := by
      rintro rfl
      rw [h.2] at hp
      cases hp
    obtain ⟨hlt, hdead⟩ := h.push n offset
    constructor
    · change k < ((s.push n offset).2.slots.setIfInBounds parent _).size
      rw [Array.size_setIfInBounds]
      exact hlt
    · rw [node?_adopt _ _ _ _ _ hpushed, if_neg hk, hdead]

/-- A dead slot stays dead. -/
theorem use (h : s.Dead k) (u : SceneUse) :
  ∃ s', u.run (.scene s) = .scene s' ∧ s'.Dead k
  := by
  cases u with
  | edit e =>
    cases e with
    | addRoot n offset => exact ⟨_, rfl, (h.push n offset).congr rfl⟩
    | addChild parent n offset => exact ⟨_, rfl, h.addChild parent n offset⟩
    | remove slot => exact ⟨_, rfl, h.removeWithin _ slot⟩
    | invalidate o => exact ⟨_, rfl, h.congr rfl⟩
    | setDirty => exact ⟨_, rfl, h.congr rfl⟩
  | takeDirty => exact ⟨_, rfl, h.congr rfl⟩
  | takeStaleTextures => exact ⟨_, rfl, h.congr rfl⟩

theorem uses (h : s.Dead k) (us : List SceneUse) :
  ∃ s', us.foldl SceneUse.run (.scene s) = .scene s' ∧ s'.Dead k
  := by
  apply List.foldlRecOn (motive := fun c : Canvas => ∃ s', c = .scene s' ∧ s'.Dead k) us _
    ⟨s, rfl, h⟩
  rintro c ⟨s', rfl, hs'⟩ u _
  exact hs'.use u

end Dead

/-- A slot is not issued twice. -/
theorem fst_addChild (s : Scene) (parent : Nat) (n : Node) (offset : Position) :
  ∀ slot, (s.addChild parent n offset).1 = some slot → slot = s.slots.size
  := by
  intro slot h
  rw [addChild] at h
  split at h
  · cases h
  · exact (Option.some.inj h).symm

theorem size_removeWithin (depth slot : Nat) (s : Scene) :
  (removeWithin depth slot s).slots.size = s.slots.size
  := by
  induction depth generalizing slot s with
  | zero => rfl
  | succ depth ih =>
    rw [removeWithin]
    split
    · rfl
    · rename_i n _
      have hfold : (n.children.foldl (fun s child => removeWithin depth child s)
          (s.vacate slot)).slots.size = s.slots.size := by
        apply List.foldlRecOn (motive := fun s' : Scene => s'.slots.size = s.slots.size)
        · exact Array.size_setIfInBounds
        · intro s' hs' child _
          rw [ih, hs']
      rw [← hfold]
      exact Array.size_map

/-- Removing a slot takes out what is below it, and nothing else.  The walk of the scene goes along
its paths in lexicographic order, each leading to another live slot and all live slots being
reached; after the removal it is the walk along the paths that did not go through the slot, which
are those that do not lead to a slot below it, and these lead to the same nodes at the same
positions.  If the slot is live, the scene is marked; if it is dead or was never issued, the scene
stays as it is.

The slots that are taken out stay dead, whatever is done with the scene later.  They are not issued
again, a child that is added below them is refused without any change, and removing them again
changes nothing. -/
theorem remove_takes_subtree (uses : List SceneUse) (slot : Nat) :
  ∃ s, uses.foldl SceneUse.run (.scene .empty) = .scene s
    ∧ (∃ paths : List (List Nat),
      (∀ path, path ∈ paths ↔ s.IsPath path)
      ∧ paths.Pairwise (· < ·)
      ∧ (∀ k, (paths.map List.getLast?).count (some k) = if (s.node? k).isSome then 1 else 0)
      ∧ s.walk.map some = paths.map (s.reached? .origin)
      ∧ (s.remove slot).walk.map some = (paths.filter (slot ∉ ·)).map (s.reached? .origin)
      ∧ ∀ path ∈ paths, ∀ k, path.getLast? = some k → (slot ∈ path ↔ s.Below slot k))
    ∧ (∀ k, ((s.remove slot).node? k).isSome ↔ (s.node? k).isSome ∧ ¬ s.Below slot k)
    ∧ ((s.node? slot).isSome → (s.remove slot).dirty = true)
    ∧ (s.node? slot = none → s.remove slot = s)
    ∧ ∀ k, (s.node? k).isSome → s.Below slot k → ∀ later : List SceneUse,
      ∃ t, later.foldl SceneUse.run (.scene (s.remove slot)) = .scene t
        ∧ t.node? k = none
        ∧ (∀ n offset, (t.addRoot n offset).1 ≠ k)
        ∧ (∀ parent n offset, (t.addChild parent n offset).1 ≠ some k)
        ∧ (∀ n offset, t.addChild k n offset = (none, t))
        ∧ t.remove k = t
  := by
  obtain ⟨f, s, hs, hf⟩ := Forest.exists_spans uses
  refine ⟨s, hs, ⟨f.paths, fun path => hf.mem_paths, Forest.pairwise_paths hf.ascending, ?counted,
    hf.map_walk, hf.map_walk_remove slot, ?through⟩, hf.isSome_node?_remove slot,
    dirty_remove_of_live, remove_of_dead, ?dead⟩
  case counted =>
    intro k
    rw [Forest.map_getLast?_paths, List.count_map_of_injective _ _ fun _ _ => Option.some.inj,
      ← hf.perm_mentioned.count_eq, hf.count_mentioned]
  case through =>
    intro path hpath k hlast
    rw [hf.mem_path_iff hpath]
    constructor
    · rintro ⟨k', hlast', -, hbelow⟩
      cases hlast.symm.trans hlast'
      exact hbelow
    · intro hbelow
      refine ⟨k, hlast, ?_, hbelow⟩
      -- Nothing but the slot itself is below a dead slot, and no path leads to that.
      by_contra hdead
      rw [Option.not_isSome_iff_eq_none] at hdead
      have hk := (hf.mem_path_iff hpath).1 (List.mem_of_getLast? hlast)
      rw [hbelow.eq_of_dead hdead, hdead] at hk
      obtain ⟨-, -, hlive, -⟩ := hk
      cases hlive
  case dead =>
    intro k hk hbelow later
    have hdead : (s.remove slot).Dead k := by
      constructor
      · rw [remove, size_removeWithin]
        exact lt_size_of_isSome hk
      · rw [← Option.not_isSome_iff_eq_none, hf.isSome_node?_remove]
        exact fun h => h.2 hbelow
    obtain ⟨t, ht, htk⟩ := hdead.uses later
    refine ⟨t, ht, htk.2, fun n offset => Nat.ne_of_gt htk.1, ?_, ?_, remove_of_dead htk.2⟩
    · intro parent n offset hissued
      rw [t.fst_addChild parent n offset k hissued] at htk
      exact Nat.lt_irrefl _ htk.1
    · intro n offset
      rw [addChild, htk.2]

end Scene

end FrameCache
