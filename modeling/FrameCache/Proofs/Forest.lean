import Mathlib.Data.List.Nodup
import Mathlib.Data.List.Count

/-!
# Forests of slots

A `Forest` is an ordered forest of numbered slots.  Trees can be added at its end and below a slot,
and slots can be taken out with all that is below them.  Slots ascend, from parents to children and
along every list; this is kept as long as new slots are larger than those before.
-/

namespace FrameCache

/-- An ordered forest of slots: either no tree, or a first tree, given by its root and the forest
below it, and the forest of the other trees. -/
inductive Forest where
  | nil
  | cons (slot : Nat) (below rest : Forest)

namespace Forest

/-- The roots, in order. -/
def roots : Forest → List Nat
  | nil => []
  | cons slot _ rest => slot :: rest.roots

/-- All slots, each right before those below it. -/
def slots : Forest → List Nat
  | nil => []
  | cons slot below rest => slot :: (below.slots ++ rest.slots)

/-- The tree with a single slot. -/
def leaf (slot : Nat) : Forest := cons slot nil nil

/-- The trees of two forests. -/
def append : Forest → Forest → Forest
  | nil, g => g
  | cons slot below rest, g => cons slot below (rest.append g)

/-- The forest with another slot as the last child of `parent`. -/
def graft (parent slot : Nat) : Forest → Forest
  | nil => nil
  | cons k below rest =>
    let below := below.graft parent slot
    cons k (if k = parent then below.append (leaf slot) else below) (rest.graft parent slot)

/-- The forest below a slot. -/
def under (slot : Nat) : Forest → Forest
  | nil => nil
  | cons k below rest =>
    if k = slot then below
    else if slot ∈ below.slots then below.under slot
    else rest.under slot

/-- The forest without the slots `gone` and what is below them. -/
def without (gone : List Nat) : Forest → Forest
  | nil => nil
  | cons slot below rest =>
    if slot ∈ gone then rest.without gone
    else cons slot (below.without gone) (rest.without gone)

/-- With a slot all that is below it is in `gone`. -/
def Closed (gone : List Nat) : Forest → Prop
  | nil => True
  | cons slot below rest =>
    (slot ∈ gone → ∀ k ∈ below.slots, k ∈ gone) ∧ below.Closed gone ∧ rest.Closed gone

/-- Slots ascend, from parents to children and from one sibling to the next. -/
def Ascending : Forest → Prop
  | nil => True
  | cons slot below rest =>
    (∀ k ∈ below.roots, slot < k) ∧ (∀ k ∈ rest.roots, slot < k)
      ∧ below.Ascending ∧ rest.Ascending

variable {f g : Forest} {slot parent k : Nat} {gone : List Nat}

theorem roots_subset_slots (f : Forest) :
  f.roots ⊆ f.slots
  := by
  induction f with
  | nil => exact List.Subset.refl _
  | cons slot below rest _ ih =>
    apply List.cons_subset_cons
    apply List.subset_append_of_subset_right _ ih

theorem pairwise_roots (h : f.Ascending) :
  f.roots.Pairwise (· < ·)
  := by
  induction f with
  | nil => exact .nil
  | cons slot below rest _ ih => exact .cons h.2.1 (ih h.2.2.2)

/-! ### More trees -/

@[simp]
theorem roots_append (f g : Forest) :
  (f.append g).roots = f.roots ++ g.roots
  := by
  induction f with
  | nil => rfl
  | cons slot below rest _ ih => rw [append, roots, ih, roots, List.cons_append]

@[simp]
theorem slots_append (f g : Forest) :
  (f.append g).slots = f.slots ++ g.slots
  := by
  induction f with
  | nil => rfl
  | cons slot below rest _ ih =>
    rw [append, slots, ih, slots, List.cons_append, List.append_assoc]

@[simp]
theorem roots_graft (parent slot : Nat) (f : Forest) :
  (f.graft parent slot).roots = f.roots
  := by
  induction f with
  | nil => rfl
  | cons k below rest _ ih => rw [graft, roots, ih, roots]

theorem count_slots_leaf (slot k : Nat) :
  (leaf slot).slots.count k = if k = slot then 1 else 0
  := by
  simp only [leaf, slots, List.append_nil, List.count_singleton, beq_iff_eq, @eq_comm Nat slot]

/-- The new slot is added once for every slot that it is added below. -/
theorem count_slots_graft (parent slot k : Nat) (f : Forest) :
  (f.graft parent slot).slots.count k
    = f.slots.count k + if k = slot then f.slots.count parent else 0
  := by
  induction f with
  | nil => simp [graft, slots]
  | cons k' below rest ihbelow ihrest =>
    have hbelow : (if k' = parent then (below.graft parent slot).append (leaf slot)
        else below.graft parent slot).slots.count k
        = (below.graft parent slot).slots.count k
          + if k' = parent then if k = slot then 1 else 0 else 0 := by
      split
      · rw [slots_append, List.count_append, count_slots_leaf]
      · rfl
    simp only [graft, slots, List.count_cons, List.count_append, hbelow, ihbelow, ihrest,
      beq_iff_eq]
    split
    · omega
    · simp

theorem Ascending.append (hf : f.Ascending) (hg : g.Ascending)
    (h : ∀ k ∈ f.roots, ∀ l ∈ g.roots, k < l) :
  (f.append g).Ascending
  := by
  induction f with
  | nil => exact hg
  | cons slot below rest _ ih =>
    obtain ⟨hbelow, hrest, hb, hr⟩ := hf
    refine ⟨hbelow, ?_, hb, ih hr fun k hk => h k (List.mem_cons_of_mem _ hk)⟩
    intro k hk
    rw [roots_append, List.mem_append] at hk
    rcases hk with hk | hk
    · exact hrest k hk
    · exact h slot List.mem_cons_self k hk

theorem ascending_leaf (slot : Nat) :
  (leaf slot).Ascending
  := by simp [leaf, Ascending, roots]

/-- A slot larger than all others can be added below any of them. -/
theorem Ascending.graft (hf : f.Ascending) (h : ∀ k ∈ f.slots, k < slot) (parent : Nat) :
  (f.graft parent slot).Ascending
  := by
  induction f with
  | nil => trivial
  | cons k below rest ihbelow ihrest =>
    obtain ⟨hbelow, hrest, hb, hr⟩ := hf
    have hinner : ∀ l ∈ below.slots, l < slot := fun l hl =>
      h l (List.mem_cons_of_mem _ (List.mem_append_left _ hl))
    have houter : ∀ l ∈ rest.slots, l < slot := fun l hl =>
      h l (List.mem_cons_of_mem _ (List.mem_append_right _ hl))
    rw [Forest.graft]
    refine ⟨?_, ?_, ?_, ihrest hr houter⟩
    · intro l hl
      split at hl
      · rw [roots_append, roots_graft, List.mem_append] at hl
        rcases hl with hl | hl
        · exact hbelow l hl
        · rw [List.mem_singleton.1 hl]
          exact h k List.mem_cons_self
      · rw [roots_graft] at hl
        exact hbelow l hl
    · rw [roots_graft]
      exact hrest
    · split
      · apply (ihbelow hb hinner).append (ascending_leaf slot)
        intro l hl m hm
        rw [List.mem_singleton.1 hm]
        rw [roots_graft] at hl
        exact hinner l (below.roots_subset_slots hl)
      · exact ihbelow hb hinner

/-! ### Fewer trees -/

theorem roots_without (gone : List Nat) (f : Forest) :
  (f.without gone).roots = f.roots.filter (· ∉ gone)
  := by
  induction f with
  | nil => rfl
  | cons slot below rest _ ih =>
    rw [without, roots, List.filter_cons]
    by_cases h : slot ∈ gone
    · simp [h, ih]
    · simp [h, ih, roots]

theorem slots_without_sublist (gone : List Nat) (f : Forest) :
  (f.without gone).slots.Sublist f.slots
  := by
  induction f with
  | nil => exact List.Sublist.refl _
  | cons slot below rest ihbelow ihrest =>
    rw [without]
    split
    · exact (ihrest.trans (List.sublist_append_right _ _)).cons slot
    · exact (ihbelow.append ihrest).cons_cons slot

theorem mem_slots_without (h : f.Closed gone) :
  k ∈ (f.without gone).slots ↔ k ∈ f.slots ∧ k ∉ gone
  := by
  induction f with
  | nil => simp [without, slots]
  | cons slot below rest ihbelow ihrest =>
    obtain ⟨hslot, hb, hr⟩ := h
    rw [without, slots, List.mem_cons, List.mem_append]
    split
    · rename_i hgone
      rw [ihrest hr]
      constructor
      · rintro ⟨hk, hnot⟩
        exact ⟨.inr (.inr hk), hnot⟩
      · rintro ⟨rfl | hk | hk, hnot⟩
        · exact absurd hgone hnot
        · exact absurd (hslot hgone k hk) hnot
        · exact ⟨hk, hnot⟩
    · rename_i hgone
      rw [slots, List.mem_cons, List.mem_append, ihbelow hb, ihrest hr]
      constructor
      · rintro (rfl | ⟨hk, hnot⟩ | ⟨hk, hnot⟩)
        · exact ⟨.inl rfl, hgone⟩
        · exact ⟨.inr (.inl hk), hnot⟩
        · exact ⟨.inr (.inr hk), hnot⟩
      · rintro ⟨rfl | hk | hk, hnot⟩
        · exact .inl rfl
        · exact .inr (.inl ⟨hk, hnot⟩)
        · exact .inr (.inr ⟨hk, hnot⟩)

/-- A forest without any of the slots stays as it is. -/
theorem without_of_disjoint (h : ∀ k ∈ f.slots, k ∉ gone) :
  f.without gone = f
  := by
  induction f with
  | nil => rfl
  | cons slot below rest ihbelow ihrest =>
    rw [without, if_neg (h slot List.mem_cons_self), ihbelow, ihrest]
    · exact fun k hk => h k (List.mem_cons_of_mem _ (List.mem_append_right _ hk))
    · exact fun k hk => h k (List.mem_cons_of_mem _ (List.mem_append_left _ hk))

theorem Ascending.without (h : f.Ascending) (gone : List Nat) :
  (f.without gone).Ascending
  := by
  induction f with
  | nil => trivial
  | cons slot below rest ihbelow ihrest =>
    obtain ⟨hbelow, hrest, hb, hr⟩ := h
    rw [Forest.without]
    split
    · exact ihrest hr
    · refine ⟨?_, ?_, ihbelow hb, ihrest hr⟩
      · intro k hk
        rw [roots_without] at hk
        exact hbelow k (List.mem_of_mem_filter hk)
      · intro k hk
        rw [roots_without] at hk
        exact hrest k (List.mem_of_mem_filter hk)

theorem closed_of_subset (h : f.slots ⊆ gone) :
  f.Closed gone
  := by
  induction f with
  | nil => trivial
  | cons slot below rest ihbelow ihrest =>
    have hbelow : below.slots ⊆ gone := fun k hk =>
      h (List.mem_cons_of_mem _ (List.mem_append_left _ hk))
    have hrest : rest.slots ⊆ gone := fun k hk =>
      h (List.mem_cons_of_mem _ (List.mem_append_right _ hk))
    exact ⟨fun _ k hk => hbelow hk, ihbelow hbelow, ihrest hrest⟩

theorem closed_of_disjoint (h : ∀ k ∈ f.slots, k ∉ gone) :
  f.Closed gone
  := by
  induction f with
  | nil => trivial
  | cons slot below rest ihbelow ihrest =>
    refine ⟨fun hs => absurd hs (h slot List.mem_cons_self), ihbelow ?_, ihrest ?_⟩
    · exact fun k hk => h k (List.mem_cons_of_mem _ (List.mem_append_left _ hk))
    · exact fun k hk => h k (List.mem_cons_of_mem _ (List.mem_append_right _ hk))

/-! ### The tree of a slot -/

/-- A slot and all that is below it. -/
def tree (slot : Nat) (f : Forest) : Forest := cons slot (f.under slot) nil

theorem slots_tree_sublist (h : slot ∈ f.slots) :
  (f.tree slot).slots.Sublist f.slots
  := by
  rw [tree, slots, slots, List.append_nil]
  induction f with
  | nil => cases h
  | cons k below rest ihbelow ihrest =>
    rw [under, slots]
    split
    · rename_i hk
      rw [hk]
      exact (List.sublist_append_left _ _).cons_cons slot
    · rename_i hk
      split
      · rename_i hbelow
        exact ((ihbelow hbelow).trans (List.sublist_append_left _ _)).cons k
      · rename_i hbelow
        have hrest : slot ∈ rest.slots := by
          rcases List.mem_cons.1 h with rfl | h
          · exact absurd rfl hk
          · exact (List.mem_append.1 h).resolve_left hbelow
        exact ((ihrest hrest).trans (List.sublist_append_right _ _)).cons k

/-- With a slot all that is below it is in its tree. -/
theorem closed_tree (hn : f.slots.Nodup) (h : slot ∈ f.slots) :
  f.Closed (f.tree slot).slots
  := by
  induction f with
  | nil => cases h
  | cons k below rest ihbelow ihrest =>
    obtain ⟨hk, happ⟩ := List.nodup_cons.1 hn
    obtain ⟨hb, hr, hdisjoint⟩ := List.nodup_append.1 happ
    rw [List.mem_append, not_or] at hk
    rw [tree, under]
    split
    · rename_i heq
      subst heq
      have hslots : (cons k below nil).slots = k :: below.slots := by
        rw [slots, slots, List.append_nil]
      rw [hslots]
      refine ⟨fun _ l hl => List.mem_cons_of_mem _ hl, ?_, ?_⟩
      · exact closed_of_subset (List.subset_cons_self _ _)
      · apply closed_of_disjoint
        intro l hl hmem
        rcases List.mem_cons.1 hmem with rfl | hmem
        · exact hk.2 hl
        · exact hdisjoint l hmem l hl rfl
    · rename_i heq
      split
      · rename_i hbelow
        have hsub := (slots_tree_sublist hbelow).subset
        refine ⟨fun hmem => absurd (hsub hmem) hk.1, ihbelow hb hbelow, ?_⟩
        apply closed_of_disjoint
        intro l hl hmem
        exact hdisjoint l (hsub hmem) l hl rfl
      · rename_i hbelow
        have hrest : slot ∈ rest.slots := by
          rcases List.mem_cons.1 h with rfl | h
          · exact absurd rfl heq
          · exact (List.mem_append.1 h).resolve_left hbelow
        have hsub := (slots_tree_sublist hrest).subset
        refine ⟨fun hmem => absurd (hsub hmem) hk.2, ?_, ihrest hr hrest⟩
        apply closed_of_disjoint
        intro l hl hmem
        exact hdisjoint l hl l (hsub hmem) rfl

end Forest

end FrameCache
