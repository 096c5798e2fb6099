import FrameCache.Proofs.Forest
import FrameCache.Proofs.SceneNodes
import Mathlib.Data.List.Perm.Subperm

/-!
# The forest of a scene

A `Forest` spans a scene if it says the same as the lists of the scene: its roots are the roots of
the scene, what is below a slot is listed as the children of its node, and its slots are the live
ones, each occurring once.

Scenes stay spanned when they are edited.  A new root is a new tree, a new child a new tree below
its parent, and removing a slot takes away the slot with all that is below it.
-/

namespace FrameCache

namespace Forest

variable {f g : Forest} {slot parent k : Nat} {gone : List Nat}

/-- What is below a slot is listed as the children of its node. -/
def Fits (s : Scene) : Forest → Prop
  | nil => True
  | cons slot below rest =>
    (∃ n, s.node? slot = some n ∧ n.children = below.roots) ∧ below.Fits s ∧ rest.Fits s

variable {s s' : Scene}

theorem Fits.congr (h : f.Fits s) (hs : ∀ k ∈ f.slots, s'.node? k = s.node? k) :
  f.Fits s'
  := by
  induction f with
  | nil => trivial
  | cons slot below rest ihbelow ihrest =>
    obtain ⟨hn, hb, hr⟩ := h
    refine ⟨?_, ihbelow hb ?_, ihrest hr ?_⟩
    · rw [hs slot List.mem_cons_self]
      exact hn
    · exact fun k hk => hs k (List.mem_cons_of_mem _ (List.mem_append_left _ hk))
    · exact fun k hk => hs k (List.mem_cons_of_mem _ (List.mem_append_right _ hk))

/-- A forest fits without a slot that is not among its own. -/
theorem Fits.vacate (h : f.Fits s) (hslot : slot ∉ f.slots) :
  f.Fits (s.vacate slot)
  := by
  apply h.congr
  intro k hk
  rw [Scene.node?_vacate, if_neg]
  rintro rfl
  exact hslot hk

theorem Fits.append (hf : f.Fits s) (hg : g.Fits s) :
  (f.append g).Fits s
  := by
  induction f with
  | nil => exact hg
  | cons slot below rest _ ih => exact ⟨hf.1, hf.2.1, ih hf.2.2⟩

/-- The tree of a slot fits where the forest does. -/
theorem Fits.tree (hf : f.Fits s) (h : slot ∈ f.slots) :
  (f.tree slot).Fits s
  := by
  induction f with
  | nil => cases h
  | cons k below rest ihbelow ihrest =>
    obtain ⟨hn, hb, hr⟩ := hf
    rw [Forest.tree, under]
    split
    · rename_i hk
      rw [← hk]
      exact ⟨hn, hb, trivial⟩
    · rename_i hk
      split
      · rename_i hbelow
        exact ihbelow hb hbelow
      · rename_i hbelow
        rcases List.mem_cons.1 h with rfl | h
        · exact absurd rfl hk
        · exact ihrest hr ((List.mem_append.1 h).resolve_left hbelow)

/-- A new child of a node is a new tree below its slot. -/
theorem Fits.graft (hf : f.Fits s) {n p : SceneNode} (hslot : s'.node? slot = some n)
    (hchildren : n.children = []) (hparent : s.node? parent = some p)
    (hadopt : s'.node? parent = some { p with children := p.children ++ [slot] })
    (hs : ∀ k ∈ f.slots, k ≠ parent → s'.node? k = s.node? k) :
  (f.graft parent slot).Fits s'
  := by
  induction f with
  | nil => trivial
  | cons k below rest ihbelow ihrest =>
    obtain ⟨⟨m, hm, hroots⟩, hb, hr⟩ := hf
    have hbelow := ihbelow hb fun l hl =>
      hs l (List.mem_cons_of_mem _ (List.mem_append_left _ hl))
    have hrest := ihrest hr fun l hl =>
      hs l (List.mem_cons_of_mem _ (List.mem_append_right _ hl))
    rw [Forest.graft]
    split
    · rename_i hk
      subst hk
      cases hparent.symm.trans hm
      refine ⟨⟨_, hadopt, ?_⟩, hbelow.append ⟨⟨n, hslot, hchildren⟩, trivial, trivial⟩, hrest⟩
      rw [roots_append, roots_graft, hroots]
      rfl
    · rename_i hk
      refine ⟨⟨m, ?_, ?_⟩, hbelow, hrest⟩
      · rw [hs k List.mem_cons_self hk, hm]
      · rw [roots_graft, hroots]

/-- The forest spans the scene. -/
structure Spans (f : Forest) (s : Scene) : Prop where
  /-- What is below a slot is listed as the children of its node. -/
  fits : f.Fits s
  /-- The roots are those of the scene. -/
  roots : s.roots = f.roots
  /-- No slot occurs twice. -/
  nodup : f.slots.Nodup
  /-- The slots are the live ones. -/
  live : ∀ slot, slot ∈ f.slots ↔ (s.node? slot).isSome
  /-- Slots ascend. -/
  ascending : f.Ascending

end Forest

namespace Scene

variable {s : Scene} {slot : Nat}

theorem lt_size_of_isSome (h : (s.node? slot).isSome) :
  slot < s.slots.size
  := by
  by_contra hn
  rw [node?, Array.getElem?_eq_none (Nat.le_of_not_lt hn)] at h
  cases h

theorem node?_size (s : Scene) :
  s.node? s.slots.size = none
  := by
  rw [node?, Array.getElem?_eq_none (Nat.le_refl _)]
  rfl

end Scene

namespace Forest

variable {f : Forest} {s s' : Scene} {slot parent k : Nat}

theorem spans_empty :
  nil.Spans .empty
  := ⟨trivial, rfl, .nil, by simp [slots, Scene.node?, Scene.empty], trivial⟩

namespace Spans

variable (h : f.Spans s)
include h

theorem congr (hslots : s'.slots = s.slots) (hroots : s'.roots = s.roots) :
  f.Spans s'
  := by
  have hnode : ∀ k, s'.node? k = s.node? k := by
    intro k
    rw [Scene.node?, Scene.node?, hslots]
  refine ⟨h.fits.congr fun k _ => hnode k, hroots.trans h.roots, h.nodup, ?_, h.ascending⟩
  intro k
  rw [hnode, h.live]

theorem lt_size (hk : k ∈ f.slots) :
  k < s.slots.size
  := Scene.lt_size_of_isSome ((h.live k).1 hk)

theorem size_not_mem :
  s.slots.size ∉ f.slots
  := fun hk => Nat.lt_irrefl _ (h.lt_size hk)

/-- There are no more live slots than slots. -/
theorem length_le :
  f.slots.length ≤ s.slots.size
  := by
  have hsubset : f.slots ⊆ List.range s.slots.size := fun k hk => List.mem_range.2 (h.lt_size hk)
  simpa using (List.Nodup.subperm h.nodup hsubset).length_le

/-! ### Adding nodes -/

/-- A new root is a new tree. -/
theorem addRoot (n : Node) (offset : Position) :
  (f.append (leaf s.slots.size)).Spans (s.addRoot n offset).2
  := by
  have hnode : ∀ k, (s.addRoot n offset).2.node? k
      = if k = s.slots.size then some ⟨n, offset, []⟩ else s.node? k :=
    fun k => s.node?_push n offset k
  have hold : ∀ k ∈ f.slots, (s.addRoot n offset).2.node? k = s.node? k := by
    intro k hk
    rw [hnode, if_neg (Nat.ne_of_lt (h.lt_size hk))]
  constructor
  · apply (h.fits.congr hold).append
    exact ⟨⟨⟨n, offset, []⟩, by rw [hnode, if_pos rfl], rfl⟩, trivial, trivial⟩
  · rw [roots_append, ← h.roots]
    rfl
  · rw [slots_append, List.nodup_append]
    refine ⟨h.nodup, List.nodup_singleton _, ?_⟩
    rintro k hk l hl rfl
    rw [List.mem_singleton.1 hl] at hk
    exact h.size_not_mem hk
  · intro k
    rw [slots_append, List.mem_append, hnode, h.live]
    split
    · rename_i hk
      simp [leaf, slots, hk]
    · rename_i hk
      simp [leaf, slots, hk]
  · apply h.ascending.append (ascending_leaf _)
    intro k hk l hl
    rw [List.mem_singleton.1 hl]
    exact h.lt_size (f.roots_subset_slots hk)

/-- A new child of a live node is a new tree below its slot. -/
theorem addChild_of_live {p : SceneNode} (hp : s.node? parent = some p) (n : Node)
    (offset : Position) :
  (f.graft parent s.slots.size).Spans (s.addChild parent n offset).2
  := by
  have hparent : parent ≠ s.slots.size := by
    rintro rfl
    rw [s.node?_size] at hp
    cases hp
  have hmem : parent ∈ f.slots := (h.live parent).2 (by rw [hp]; rfl)
  have hpushed : (s.push n offset).2.node? parent = some p := by
    rw [s.node?_push, if_neg hparent, hp]
  have heq : (s.addChild parent n offset).2
      = (s.push n offset).2.adopt parent p s.slots.size := by
    rw [Scene.addChild, hp]
    rfl
  have hnode : ∀ k, (s.addChild parent n offset).2.node? k
      = if k = parent then some { p with children := p.children ++ [s.slots.size] }
        else if k = s.slots.size then some ⟨n, offset, []⟩ else s.node? k := by
    intro k
    rw [heq, Scene.node?_adopt _ _ _ _ _ hpushed, s.node?_push]
  constructor
  · apply h.fits.graft (n := ⟨n, offset, []⟩) (p := p)
    · rw [hnode, if_neg (Ne.symm hparent), if_pos rfl]
    · rfl
    · exact hp
    · rw [hnode, if_pos rfl]
    · intro k hk hne
      rw [hnode, if_neg hne, if_neg (Nat.ne_of_lt (h.lt_size hk))]
  · rw [heq, roots_graft, ← h.roots]
    rfl
  · rw [List.nodup_iff_count_le_one]
    intro k
    rw [count_slots_graft]
    split
    · rename_i hk
      rw [hk, List.count_eq_zero_of_not_mem h.size_not_mem, Nat.zero_add]
      exact List.nodup_iff_count_le_one.1 h.nodup parent
    · exact List.nodup_iff_count_le_one.1 h.nodup k
  · intro k
    have hone : f.slots.count parent = 1 := List.count_eq_one_of_mem h.nodup hmem
    rw [← List.count_pos_iff, count_slots_graft, hone, hnode]
    by_cases hk : k = parent
    · simp [hk, hone, hparent]
    · by_cases hsize : k = s.slots.size
      · simp [hsize, Ne.symm hparent]
      · simp [hk, hsize, List.count_pos_iff, h.live]
  · exact h.ascending.graft (fun k hk => h.lt_size hk) parent

theorem addChild (parent : Nat) (n : Node) (offset : Position) :
  ∃ f' : Forest, f'.Spans (s.addChild parent n offset).2
  := by
  cases hp : s.node? parent with
  | none =>
    use f
    rw [Scene.addChild, hp]
    exact h
  | some p => exact ⟨_, h.addChild_of_live hp n offset⟩

end Spans

end Forest

/-! ### Removing nodes -/

/-- The node without any of the slots `gone` among its children. -/
def SceneNode.disownAll (gone : List Nat) (n : SceneNode) : SceneNode :=
  { n with children := n.children.filter (· ∉ gone) }

namespace Scene

variable {f : Forest} {s s' s'' : Scene} {slot : Nat} {gone gone' : List Nat}

theorem filter_notMem_append (slots gone gone' : List Nat) :
  slots.filter (· ∉ gone ++ gone') = (slots.filter (· ∉ gone)).filter (· ∉ gone')
  := by
  rw [List.filter_filter]
  apply List.filter_congr
  intro k _
  simp [Bool.and_comm]

/-- The scene `s'` is `s` without the slots `gone` and any mention of them. -/
structure Without (gone : List Nat) (s s' : Scene) : Prop where
  /-- The slots are dead, and no other node mentions them. -/
  node? : ∀ k, s'.node? k = if k ∈ gone then none else (s.node? k).map (·.disownAll gone)
  /-- They are not among the roots. -/
  roots : s'.roots = s.roots.filter (· ∉ gone)

theorem Without.refl (s : Scene) :
  Without [] s s
  := by
  have hsame : ∀ n : SceneNode, n.disownAll [] = n := by
    intro n
    simp [SceneNode.disownAll]
  constructor
  · intro k
    cases h : s.node? k with
    | none => rfl
    | some n => simp [hsame]
  · simp

theorem Without.trans (h : Without gone s s') (h' : Without gone' s' s'') :
  Without (gone ++ gone') s s''
  := by
  constructor
  · intro k
    rw [h'.node?, h.node?]
    by_cases hk : k ∈ gone
    · simp [hk]
    · by_cases hk' : k ∈ gone'
      · simp [hk']
      · rw [if_neg hk', if_neg hk, if_neg (by simp [hk, hk']), Option.map_map]
        congr 1
        funext n
        simp only [Function.comp_apply, SceneNode.disownAll, filter_notMem_append]
  · rw [h'.roots, h.roots, filter_notMem_append]

/-- A slot that is vacated is gone once it is not mentioned any more. -/
theorem Without.detach (h : Without gone (s.vacate slot) s') :
  Without (slot :: gone) s (s'.detach slot)
  := by
  constructor
  · intro k
    rw [node?_detach, h.node?, node?_vacate]
    by_cases hk : k = slot
    · simp [hk]
    · by_cases hgone : k ∈ gone
      · simp [hgone]
      · simp [hk, hgone, SceneNode.disown, SceneNode.disownAll, Function.comp_def,
          List.filter_filter]
  · change s'.roots.filter (· ≠ slot) = _
    rw [h.roots, List.filter_filter]
    simp [vacate]

/-- A forest fits without the slots that are gone. -/
theorem Without.fits (h : Without gone s s') (hf : f.Fits s) :
  (f.without gone).Fits s'
  := by
  induction f with
  | nil => trivial
  | cons slot below rest ihbelow ihrest =>
    obtain ⟨⟨n, hn, hchildren⟩, hb, hr⟩ := hf
    rw [Forest.without]
    split
    · exact ihrest hr
    · rename_i hslot
      refine ⟨⟨n.disownAll gone, ?_, ?_⟩, ihbelow hb, ihrest hr⟩
      · rw [h.node?, if_neg hslot, hn]
        rfl
      · rw [Forest.roots_without, ← hchildren]
        rfl

theorem Without.fits_of_disjoint (h : Without gone s s') (hf : f.Fits s)
    (hdisjoint : ∀ k ∈ f.slots, k ∉ gone) :
  f.Fits s'
  := by
  rw [← Forest.without_of_disjoint hdisjoint]
  exact h.fits hf

/-- Removing the roots of a forest one after the other removes all of its slots. -/
theorem without_foldl_removeWithin {depth : Nat} (hf : f.Fits s) (hn : f.slots.Nodup)
    (hd : f.slots.length ≤ depth) :
  Without f.slots s (f.roots.foldl (fun s slot => removeWithin depth slot s) s)
  := by
  induction f generalizing depth s with
  | nil => exact .refl s
  | cons slot below rest ihbelow ihrest =>
    obtain ⟨⟨n, hnode, hchildren⟩, hb, hr⟩ := hf
    obtain ⟨hslot, happ⟩ := List.nodup_cons.1 hn
    obtain ⟨hnb, hnr, hdisjoint⟩ := List.nodup_append.1 happ
    rw [List.mem_append, not_or] at hslot
    rw [Forest.slots, List.length_cons, List.length_append] at hd
    obtain ⟨depth, rfl⟩ : ∃ d, depth = d + 1 := ⟨depth - 1, by omega⟩
    have hfirst : Without (slot :: below.slots) s (removeWithin (depth + 1) slot s) := by
      rw [removeWithin, hnode]
      dsimp only
      rw [hchildren]
      exact (ihbelow (hb.vacate hslot.1) hnb (by omega)).detach
    have hrest : rest.Fits (removeWithin (depth + 1) slot s) := by
      apply hfirst.fits_of_disjoint hr
      intro k hk hmem
      rcases List.mem_cons.1 hmem with rfl | hmem
      · exact hslot.2 hk
      · exact hdisjoint k hmem k hk rfl
    exact hfirst.trans (ihrest hrest hnr (by omega))

end Scene

namespace Forest

variable {f : Forest} {s : Scene} {slot : Nat}

/-- Removing a live slot removes its tree, and nothing else. -/
theorem Spans.without_remove (h : f.Spans s) (hslot : slot ∈ f.slots) :
  s.Without (f.tree slot).slots (s.remove slot)
  := by
  have hsub := slots_tree_sublist hslot
  apply Scene.without_foldl_removeWithin (f := f.tree slot) (h.fits.tree hslot)
    (hsub.nodup h.nodup)
  exact Nat.le_trans hsub.length_le h.length_le

theorem Spans.remove_of_live (h : f.Spans s) (hslot : slot ∈ f.slots) :
  (f.without (f.tree slot).slots).Spans (s.remove slot)
  := by
  have hw := h.without_remove hslot
  constructor
  · exact hw.fits h.fits
  · rw [hw.roots, roots_without, h.roots]
  · exact (slots_without_sublist _ _).nodup h.nodup
  · intro k
    rw [mem_slots_without (closed_tree h.nodup hslot), hw.node?, h.live]
    by_cases hk : k ∈ (f.tree slot).slots
    · simp [hk]
    · simp [hk]
  · exact h.ascending.without _

theorem Spans.remove (h : f.Spans s) (slot : Nat) :
  ∃ f' : Forest, f'.Spans (s.remove slot)
  := by
  by_cases hslot : slot ∈ f.slots
  · exact ⟨_, h.remove_of_live hslot⟩
  · use f
    rw [Scene.remove_of_dead]
    · exact h
    · rw [← Option.not_isSome_iff_eq_none, ← h.live]
      exact hslot

end Forest

end FrameCache
