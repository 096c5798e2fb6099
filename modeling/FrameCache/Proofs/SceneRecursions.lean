import FrameCache.Proofs.SceneRemoval

/-!
# The recursions over a scene end

Visiting a slot visits the children of its node, and removing a slot removes them.  By themselves
these recursions do not keep count of how deep they are: `Scene.VisitRun` and `Scene.RemovalRun` are
their runs, with no bound on the depth.  The calls of a run are a forest, in which a call stands
above those that it makes.

Whatever a removal takes out, the scene has that many live slots less.  In a scene that a forest
spans, the calls for a live slot are the tree of the slot, whose slots ascend along every path.  So
both recursions end, and neither goes as deep as `Scene.visit` and `Scene.remove` allow.
-/

namespace FrameCache

/-! ### The depth of a forest -/

namespace Forest

/-- The length of the longest path. -/
def depth : Forest → Nat
  | nil => 0
  | cons _ below rest => max (below.depth + 1) rest.depth

variable {f : Forest} {slot : Nat} {path : List Nat}

theorem depth_le_length (f : Forest) :
  f.depth ≤ f.slots.length
  := by
  induction f with
  | nil => exact Nat.le_refl _
  | cons slot below rest ihbelow ihrest =>
    rw [depth, slots, List.length_cons, List.length_append]
    omega

/-- If slots ascend, they do along every path. -/
theorem Ascending.pairwise_path (h : f.Ascending) (hpath : path ∈ f.paths) :
  path.Pairwise (· < ·)
  := by
  induction f generalizing path with
  | nil => cases hpath
  | cons slot below rest ihbelow ihrest =>
    obtain ⟨hbelow, -, hb, hr⟩ := h
    rw [paths, List.mem_cons, List.mem_append, List.mem_map] at hpath
    rcases hpath with rfl | ⟨tail, htail, rfl⟩ | hpath
    · exact List.pairwise_singleton _ _
    · have hpairwise := ihbelow hb htail
      obtain ⟨child, hchild, tail, rfl⟩ := exists_cons_of_mem_paths htail
      refine List.pairwise_cons.2 ⟨?_, hpairwise⟩
      intro k hk
      rcases List.mem_cons.1 hk with rfl | hk
      · exact hbelow k hchild
      · exact Nat.lt_trans (hbelow child hchild) ((List.pairwise_cons.1 hpairwise).1 k hk)
    · exact ihrest hr hpath

theorem Ascending.tree (h : f.Ascending) (hslot : slot ∈ f.slots) :
  (f.tree slot).Ascending
  := by
  induction f with
  | nil => cases hslot
  | cons k below rest ihbelow ihrest =>
    obtain ⟨hbelow, -, hb, hr⟩ := h
    rw [Forest.tree, under]
    split
    · rename_i hk
      rw [← hk]
      exact ⟨hbelow, fun _ hk => absurd hk List.not_mem_nil, hb, trivial⟩
    · rename_i hk
      split
      · rename_i hmem
        exact ihbelow hb hmem
      · rename_i hmem
        rcases List.mem_cons.1 hslot with rfl | hslot
        · exact absurd rfl hk
        · exact ihrest hr ((List.mem_append.1 hslot).resolve_left hmem)

end Forest

namespace Scene

/-! ### The runs -/

/-- A run that visits slots one after the other, with the parent at an origin: the calls made and
the nodes listed. -/
inductive VisitRun (s : Scene) :
    Position → List Nat → Forest → List (Node × Position) → Prop where
  /-- Nothing is left to visit. -/
  | nil {origin} : VisitRun s origin [] .nil []
  /-- The call for a dead slot returns at once. -/
  | dead {origin slot slots rest later} (h : s.node? slot = none)
      (hrest : VisitRun s origin slots rest later) :
      VisitRun s origin (slot :: slots) (.cons slot .nil rest) later
  /-- The call for a live slot lists the node and visits the children. -/
  | live {origin slot n slots below rest found later} (h : s.node? slot = some n)
      (hbelow : VisitRun s (origin + n.offset) n.children below found)
      (hrest : VisitRun s origin slots rest later) :
      VisitRun s origin (slot :: slots) (.cons slot below rest)
        ((n.node, origin + n.offset) :: (found ++ later))

/-- A run that removes slots one after the other from a scene: the calls made, the slots whose nodes
were taken out, and the scene afterwards. -/
inductive RemovalRun : List Nat → Scene → Forest → List Nat → Scene → Prop where
  /-- Nothing is left to remove. -/
  | nil {s} : RemovalRun [] s .nil [] s
  /-- The call for a dead slot returns at once. -/
  | dead {slot slots s rest later s'} (h : s.node? slot = none)
      (hrest : RemovalRun slots s rest later s') :
      RemovalRun (slot :: slots) s (.cons slot .nil rest) later s'
  /-- The call for a live slot takes out the node, removes the children, and takes the slot off all
  lists. -/
  | live {slot n slots s below rest handled later s' s''} (h : s.node? slot = some n)
      (hbelow : RemovalRun n.children (s.vacate slot) below handled s')
      (hrest : RemovalRun slots (s'.detach slot) rest later s'') :
      RemovalRun (slot :: slots) s (.cons slot below rest) (slot :: (handled ++ later)) s''

variable {s s' s'' : Scene} {calls calls' : Forest} {origin : Position} {slot : Nat}
  {slots handled handled' : List Nat} {found found' : List (Node × Position)}

/-! ### Visiting -/

namespace VisitRun

/-- There is one run at most. -/
theorem unique (h : s.VisitRun origin slots calls found)
    (h' : s.VisitRun origin slots calls' found') :
  calls' = calls ∧ found' = found
  := by
  induction h generalizing calls' found' with
  | nil =>
    cases h'
    exact ⟨rfl, rfl⟩
  | dead hdead _ ih =>
    cases h' with
    | dead _ hrest =>
      obtain ⟨rfl, rfl⟩ := ih hrest
      exact ⟨rfl, rfl⟩
    | live hlive => exact nomatch hdead.symm.trans hlive
  | live hlive _ _ ihbelow ihrest =>
    cases h' with
    | dead hdead => exact nomatch hdead.symm.trans hlive
    | live hlive' hbelow hrest =>
      cases hlive.symm.trans hlive'
      obtain ⟨rfl, rfl⟩ := ihbelow hbelow
      obtain ⟨rfl, rfl⟩ := ihrest hrest
      exact ⟨rfl, rfl⟩

/-- A visit that may go as deep as the run lists the same nodes. -/
theorem foldr_visit (h : s.VisitRun origin slots calls found) {depth : Nat}
    (hd : calls.depth ≤ depth) (later : List (Node × Position)) :
  slots.foldr (s.visit depth origin) later = found ++ later
  := by
  induction h generalizing depth later with
  | nil => rfl
  | dead hdead _ ih =>
    rw [Forest.depth] at hd
    obtain ⟨depth, rfl⟩ : ∃ d, depth = d + 1 := ⟨depth - 1, by omega⟩
    rw [List.foldr_cons, visit, hdead]
    exact ih (by omega) later
  | live hlive _ _ ihbelow ihrest =>
    rw [Forest.depth] at hd
    obtain ⟨depth, rfl⟩ : ∃ d, depth = d + 1 := ⟨depth - 1, by omega⟩
    rw [List.foldr_cons, visit, hlive]
    dsimp only
    rw [ihrest (by omega), ihbelow (by omega), List.cons_append, List.append_assoc]

theorem of_dead (h : s.node? slot = none) (origin : Position) :
  s.VisitRun origin [slot] (.leaf slot) []
  := .dead h .nil

end VisitRun

/-! ### Removing -/

namespace RemovalRun

/-- There is one run at most. -/
theorem unique (h : RemovalRun slots s calls handled s')
    (h' : RemovalRun slots s calls' handled' s'') :
  calls' = calls ∧ handled' = handled ∧ s'' = s'
  := by
  induction h generalizing calls' handled' s'' with
  | nil =>
    cases h'
    exact ⟨rfl, rfl, rfl⟩
  | dead hdead _ ih =>
    cases h' with
    | dead _ hrest =>
      obtain ⟨rfl, rfl, rfl⟩ := ih hrest
      exact ⟨rfl, rfl, rfl⟩
    | live hlive => exact nomatch hdead.symm.trans hlive
  | live hlive _ _ ihbelow ihrest =>
    cases h' with
    | dead hdead => exact nomatch hdead.symm.trans hlive
    | live hlive' hbelow hrest =>
      cases hlive.symm.trans hlive'
      obtain ⟨rfl, rfl, rfl⟩ := ihbelow hbelow
      obtain ⟨rfl, rfl, rfl⟩ := ihrest hrest
      exact ⟨rfl, rfl, rfl⟩

/-- A removal that may go as deep as the run ends in the same scene. -/
theorem foldl_removeWithin (h : RemovalRun slots s calls handled s') {depth : Nat}
    (hd : calls.depth ≤ depth) :
  slots.foldl (fun s slot => removeWithin depth slot s) s = s'
  := by
  induction h generalizing depth with
  | nil => rfl
  | dead hdead _ ih =>
    rw [Forest.depth] at hd
    obtain ⟨depth, rfl⟩ : ∃ d, depth = d + 1 := ⟨depth - 1, by omega⟩
    rw [List.foldl_cons, removeWithin, hdead]
    exact ih (by omega)
  | live hlive _ _ ihbelow ihrest =>
    rw [Forest.depth] at hd
    obtain ⟨depth, rfl⟩ : ∃ d, depth = d + 1 := ⟨depth - 1, by omega⟩
    rw [List.foldl_cons, removeWithin, hlive]
    dsimp only
    rw [ihbelow (by omega), ihrest (by omega)]

theorem of_dead (h : s.node? slot = none) :
  RemovalRun [slot] s (.leaf slot) [] s
  := .dead h .nil

end RemovalRun

/-! ### Live slots -/

/-- The number of live slots. -/
def liveCount (s : Scene) : Nat := s.slots.countP Option.isSome

theorem liveCount_vacate (h : (s.node? slot).isSome) :
  (s.vacate slot).liveCount + 1 = s.liveCount
  := by
  have hlt := lt_size_of_isSome h
  have hlive : s.slots[slot].isSome := by
    rwa [node?, Array.getElem?_eq_getElem hlt, Option.join_some] at h
  have hpos : 0 < s.slots.countP Option.isSome :=
    Array.countP_pos_iff.2 ⟨_, Array.getElem_mem hlt, hlive⟩
  rw [liveCount, liveCount, vacate, Array.setIfInBounds, dif_pos hlt, Array.countP_set]
  simp [hlive]
  omega

theorem liveCount_detach (s : Scene) (slot : Nat) :
  (s.detach slot).liveCount = s.liveCount
  := by
  rw [liveCount, detach, Array.countP_map, liveCount]
  congr 1
  funext n
  exact Option.isSome_map

/-- What is taken out is no longer live. -/
theorem RemovalRun.liveCount_add (h : RemovalRun slots s calls handled s') :
  s'.liveCount + handled.length = s.liveCount
  := by
  induction h with
  | nil => rfl
  | dead _ _ ih => exact ih
  | live hlive _ _ ihbelow ihrest =>
    have hvacate := liveCount_vacate (Option.isSome_of_eq_some hlive)
    rw [liveCount_detach] at ihrest
    rw [List.length_cons, List.length_append]
    omega

theorem RemovalRun.liveCount_lt (h : RemovalRun [slot] s calls handled s')
    (hlive : (s.node? slot).isSome) :
  s'.liveCount < s.liveCount
  := by
  have hcount := h.liveCount_add
  cases h with
  | dead hdead =>
    rw [hdead] at hlive
    cases hlive
  | live =>
    rw [List.length_cons] at hcount
    omega

end Scene

/-! ### Runs in a spanned scene -/

namespace Forest

variable {f : Forest} {s : Scene} {slot : Nat}

/-- Visiting the roots of a forest that fits makes the calls of the forest. -/
theorem Fits.visitRun (h : f.Fits s) (origin : Position) :
  ∃ found, s.VisitRun origin f.roots f found
  := by
  induction f generalizing origin with
  | nil => exact ⟨[], .nil⟩
  | cons slot below rest ihbelow ihrest =>
    obtain ⟨⟨n, hn, hchildren⟩, hb, hr⟩ := h
    obtain ⟨found, hbelow⟩ := ihbelow hb (origin + n.offset)
    obtain ⟨later, hrest⟩ := ihrest hr origin
    rw [← hchildren] at hbelow
    exact ⟨_, .live hn hbelow hrest⟩

/-- Removing the roots of a forest that fits makes the calls of the forest, and each takes out its
slot. -/
theorem Fits.removalRun (h : f.Fits s) (hn : f.slots.Nodup) :
  ∃ s', Scene.RemovalRun f.roots s f f.slots s'
  := by
  induction f generalizing s with
  | nil => exact ⟨s, .nil⟩
  | cons slot below rest ihbelow ihrest =>
    obtain ⟨⟨n, hnode, hchildren⟩, hb, hr⟩ := h
    obtain ⟨hslot, happ⟩ := List.nodup_cons.1 hn
    obtain ⟨hnb, hnr, hdisjoint⟩ := List.nodup_append.1 happ
    rw [List.mem_append, not_or] at hslot
    have hvacated := hb.vacate hslot.1
    obtain ⟨s', hbelow⟩ := ihbelow hvacated hnb
    have hwithout : Scene.Without below.slots (s.vacate slot) s' := by
      rw [← hbelow.foldl_removeWithin below.depth_le_length]
      exact Scene.without_foldl_removeWithin hvacated hnb (Nat.le_refl _)
    have hrest : rest.Fits (s'.detach slot) := by
      apply hwithout.detach.fits_of_disjoint hr
      intro k hk hmem
      rcases List.mem_cons.1 hmem with rfl | hmem
      · exact hslot.2 hk
      · exact hdisjoint k hmem k hk rfl
    obtain ⟨s'', hrest⟩ := ihrest hrest hnr
    rw [← hchildren] at hbelow
    exact ⟨s'', .live hnode hbelow hrest⟩

namespace Spans

variable (h : f.Spans s)
include h

/-- Children have larger slots than their parents, and slots that were issued. -/
theorem lt_of_child {n : SceneNode} (hn : s.node? slot = some n) {child : Nat}
    (hchild : child ∈ n.children) :
  slot < child ∧ child < s.slots.size
  := by
  have hslot : slot ∈ f.slots := (h.live slot).2 (Option.isSome_of_eq_some hn)
  rw [← Scene.childrenOf_of_node? hn] at hchild
  constructor
  · exact (List.pairwise_cons.1 (h.fits.ascending_children h.ascending hslot)).1 child hchild
  · exact h.lt_size (h.fits.mem_of_below hslot (.single hchild))

theorem depth_tree_le (hslot : slot ∈ f.slots) :
  (f.tree slot).depth ≤ s.slots.size
  := calc
    (f.tree slot).depth
    _ ≤ (f.tree slot).slots.length := depth_le_length _
    _ ≤ f.slots.length := (slots_tree_sublist hslot).length_le
    _ ≤ s.slots.size := h.length_le

/-- The run that visits a slot: a live one with the calls of its tree, a dead one with a single
call. -/
theorem exists_visitRun (origin : Position) (slot : Nat) :
  ∃ calls found, s.VisitRun origin [slot] calls found
    ∧ calls.Ascending
    ∧ calls.depth ≤ s.slots.size + 1
    ∧ ∀ depth later, s.slots.size ≤ depth → s.visit depth origin slot later = found ++ later
  := by
  by_cases hslot : slot ∈ f.slots
  · obtain ⟨found, hrun⟩ := (h.fits.tree hslot).visitRun origin
    have hdepth := h.depth_tree_le hslot
    refine ⟨_, found, hrun, h.ascending.tree hslot, Nat.le_succ_of_le hdepth, ?_⟩
    intro depth later hd
    exact hrun.foldr_visit (Nat.le_trans hdepth hd) later
  · have hdead := h.node?_of_not_mem hslot
    refine ⟨_, _, .of_dead hdead origin, ascending_leaf slot, Nat.le_add_left _ _, ?_⟩
    intro depth later _
    cases depth with
    | zero => rfl
    | succ depth => rw [Scene.visit, hdead]; rfl

/-- The run that removes a slot: a live one with the calls of its tree, each of which takes out its
slot, a dead one with a single call. -/
theorem exists_removalRun (slot : Nat) :
  ∃ calls handled, Scene.RemovalRun [slot] s calls handled (s.remove slot)
    ∧ calls.depth ≤ s.slots.size + 1
    ∧ handled.Nodup
    ∧ ∀ k, k ∈ handled ↔ (s.node? k).isSome ∧ s.Below slot k
  := by
  by_cases hslot : slot ∈ f.slots
  · have hsub := slots_tree_sublist hslot
    have hdepth := h.depth_tree_le hslot
    obtain ⟨s', hrun⟩ := (h.fits.tree hslot).removalRun (hsub.nodup h.nodup)
    have hremove : s.remove slot = s' := hrun.foldl_removeWithin hdepth
    rw [hremove]
    refine ⟨_, _, hrun, Nat.le_succ_of_le hdepth, hsub.nodup h.nodup, ?_⟩
    intro k
    rw [h.mem_tree_iff hslot]
    refine ⟨fun hk => ⟨?_, hk⟩, And.right⟩
    exact (h.live k).1 (h.fits.mem_of_below hslot hk)
  · have hdead := h.node?_of_not_mem hslot
    rw [Scene.remove_of_dead hdead]
    refine ⟨_, _, .of_dead hdead, Nat.le_add_left _ _, .nil, ?_⟩
    intro k
    refine ⟨nofun, ?_⟩
    rintro ⟨hk, hbelow⟩
    rw [hbelow.eq_of_dead hdead, hdead] at hk
    cases hk

end Spans

end Forest

/-- In whatever has become of a scene, the children of a node have larger slots than the node, all
of them issued.  So the two recursions end, whatever slot they begin with, and without their bounds:
each has one run, the nodes that are listed and the scene that is left are those of the run, and no
call is nested deeper than the number of slots issued and one.  A visit goes up from slot to slot,
and the walk of the scene is the run that visits its roots.  A removal takes out the live slots
below the slot, each once.

In any scene, one in the midst of a removal included, what a run takes out is what the scene has
less of live slots; so a call for a live slot leaves fewer of them. -/
theorem Scene.recursions_end (uses : List SceneUse) :
  ∃ s, uses.foldl SceneUse.run (.scene .empty) = .scene s
    ∧ (∀ slot n, s.node? slot = some n → ∀ child ∈ n.children,
      slot < child ∧ child < s.slots.size)
    ∧ (∀ origin slot, ∃ calls found,
      (∀ calls' found', s.VisitRun origin [slot] calls' found' ↔ calls' = calls ∧ found' = found)
      ∧ (∀ path ∈ calls.paths, path.Pairwise (· < ·))
      ∧ calls.depth ≤ s.slots.size + 1
      ∧ ∀ depth later, s.slots.size ≤ depth → s.visit depth origin slot later = found ++ later)
    ∧ (∃ calls, s.VisitRun .origin s.roots calls s.walk)
    ∧ (∀ slot, ∃ calls handled,
      (∀ calls' handled' s', RemovalRun [slot] s calls' handled' s'
        ↔ calls' = calls ∧ handled' = handled ∧ s' = s.remove slot)
      ∧ calls.depth ≤ s.slots.size + 1
      ∧ handled.Nodup
      ∧ ∀ k, k ∈ handled ↔ (s.node? k).isSome ∧ s.Below slot k)
    ∧ (∀ t slots calls handled t', RemovalRun slots t calls handled t' →
      t'.liveCount + handled.length = t.liveCount)
    ∧ (∀ t slot calls handled t', RemovalRun [slot] t calls handled t' →
      (t.node? slot).isSome → t'.liveCount < t.liveCount)
  := by
  obtain ⟨f, s, hs, hf⟩ := Forest.exists_spans uses
  refine ⟨s, hs, fun slot n hn child => hf.lt_of_child hn, ?visits, ?walk, ?removes,
    fun _ _ _ _ _ => RemovalRun.liveCount_add, fun _ _ _ _ _ => RemovalRun.liveCount_lt⟩
  case visits =>
    intro origin slot
    obtain ⟨calls, found, hrun, hascending, hdepth, hvisit⟩ := hf.exists_visitRun origin slot
    refine ⟨calls, found, ?_, fun path => hascending.pairwise_path, hdepth, hvisit⟩
    intro calls' found'
    refine ⟨hrun.unique, ?_⟩
    rintro ⟨rfl, rfl⟩
    exact hrun
  case walk =>
    obtain ⟨found, hrun⟩ := hf.fits.visitRun .origin
    have hdepth := Nat.le_trans f.depth_le_length hf.length_le
    have hwalk := hrun.foldr_visit hdepth []
    rw [← hf.roots, List.append_nil] at hwalk
    rw [← hf.roots, ← hwalk] at hrun
    exact ⟨f, hrun⟩
  case removes =>
    intro slot
    obtain ⟨calls, handled, hrun, hdepth, hnodup, hhandled⟩ := hf.exists_removalRun slot
    refine ⟨calls, handled, ?_, hdepth, hnodup, hhandled⟩
    intro calls' handled' s'
    refine ⟨hrun.unique, ?_⟩
    rintro ⟨rfl, rfl, rfl⟩
    exact hrun

end FrameCache
