import FrameCache.Proofs.Removals

/-!
# The effect of forgetting a canvas

Forgetting a canvas unmounts the objects that are mounted on it, no others, and counts them.  What
belongs to any other object stays as it is, and so does all that is kept for no single object.
Nothing is left of an object that was mounted on the canvas but for the texture and the theme of a
widget without renderer, and the renderer and the theme of an object that is not a widget.
-/

namespace FrameCache

namespace Belongings

variable {o : ObjectId} {c : CanvasId} {b : Belongings} {m : Entry Mounting}

/-- No entry is left of the object. -/
def Cleared (b : Belongings) : Prop :=
  b.mounting = none ∧ b.renderer = none ∧ b.texture = none ∧ b.theme = none

/-- A widget without renderer keeps its texture and its theme when its canvas is forgotten. -/
theorem cleared_forget_of_widget (hm : b.mounting = some m) (hc : m.value.canvas = c)
    (hk : m.value.kind = .widget) :
  (b.forget o c).Cleared ↔ (b.renderer = none → b.texture = none ∧ b.theme = none)
  := by
  rw [forget_of_mounted hm hc, hk, release]
  cases hr : b.renderer with
  | none =>
    rw [dismantle_of_none rfl]
    simp [Cleared]
  | some r =>
    rw [dismantle_of_some (r := r) rfl]
    simp [Cleared]

/-- An object that is not a widget keeps its renderer and its theme when its canvas is
forgotten. -/
theorem cleared_forget_of_plain (hm : b.mounting = some m) (hc : m.value.canvas = c)
    (hk : m.value.kind = .plain) :
  (b.forget o c).Cleared ↔ b.renderer = none ∧ b.theme = none
  := by
  rw [forget_of_mounted hm hc, hk, release]
  simp [Cleared, dropTexture]

end Belongings

namespace Studio

/-! ### Counting -/

/-- Forgetting an object counts the mountings that it removes, which are on the canvas. -/
theorem removes_forgetObject (c : CanvasId) (o : ObjectId) (m : Mounting) (w : Nat × Studio) :
  ∃ unmounted gone, Removes w.2 (forgetObject c o m w).2.2 unmounted gone
    ∧ (forgetObject c o m w).2.1 = unmounted.length + w.1
    ∧ ∀ e ∈ unmounted, e.2.canvas = c
  := by
  obtain ⟨n, s⟩ := w
  rw [forgetObject]
  dsimp only
  split
  · exact ⟨[], [], .refl s, (Nat.zero_add n).symm, by simp⟩
  · rename_i v mountings hv
    obtain ⟨e, -, hon, rfl, -⟩ := Cache.takeIf_eq_some hv
    obtain ⟨gone, hgone, -⟩ := removes_release { s with inventory.mountings := mountings } o
      e.value.kind none
    refine ⟨_, _, (removes_takeMounting hv).trans hgone, Nat.add_comm n 1, ?_⟩
    simpa using hon

/-- Forgetting a canvas counts the mountings that it removes, which are on the canvas. -/
theorem removes_forgetCanvas (s : Studio) (c : CanvasId) :
  ∃ unmounted gone, Removes s (s.forgetCanvas c).2 unmounted gone
    ∧ (s.forgetCanvas c).1 = unmounted.length
    ∧ ∀ e ∈ unmounted, e.2.canvas = c
  := by
  apply Cache.visitAll_invariant (I := fun w : Nat × Studio =>
    ∃ unmounted gone, Removes s w.2 unmounted gone ∧ w.1 = unmounted.length
      ∧ ∀ e ∈ unmounted, e.2.canvas = c) (fst_forgetObject c)
  · rintro o m w ⟨unmounted, gone, hremoves, hcount, hon⟩
    obtain ⟨unmounted', gone', hobject, hone, hon'⟩ := removes_forgetObject c o m w
    refine ⟨_, _, hremoves.trans hobject, ?_, ?_⟩
    · rw [hone, hcount, List.length_append]
    · intro e he
      rcases List.mem_append.1 he with he | he
      · exact hon' e he
      · exact hon e he
  · have hrefl := Removes.refl s
    exact ⟨[], [], ⟨hrefl.mountings, hrefl.renderers, hrefl.destroyed, hrefl.shared⟩, rfl, by simp⟩

/-- Nothing is mounted any more on a canvas that was forgotten. -/
theorem not_mounted_forgetCanvas {s : Studio} {c : CanvasId} {o : ObjectId} {m : Entry Mounting}
    (h : (s.forgetCanvas c).2.mounting? o = some m) :
  m.value.canvas ≠ c
  := by
  rw [mounting?_forgetCanvas] at h
  simpa using (Option.filter_eq_some_iff.1 h).2

/-- The objects counted are those that are mounted on the canvas. -/
theorem fst_forgetCanvas (s : Studio) (c : CanvasId) :
  (s.forgetCanvas c).1 = s.inventory.mountings.toList.countP fun e => e.2.canvas = c
  := by
  obtain ⟨unmounted, gone, hremoves, hcount, hon⟩ := s.removes_forgetCanvas c
  have hleft : (s.forgetCanvas c).2.inventory.mountings.toList.countP
      (fun e => e.2.canvas = c) = 0 := by
    rw [List.countP_eq_zero]
    rintro ⟨o, m⟩ he
    obtain ⟨e, hm, rfl⟩ := Option.map_eq_some_iff.1 (Cache.mem_toList.1 he)
    simpa using not_mounted_forgetCanvas hm
  have hall : unmounted.countP (fun e => e.2.canvas = c) = unmounted.length := by
    rw [List.countP_eq_length]
    simpa using hon
  rw [hcount, ← hremoves.mountings.countP_eq, List.countP_append, hleft, hall, Nat.zero_add]

/-! ### Forgetting twice -/

/-- Where nothing is mounted on a canvas there is nothing to forget but that it is shown. -/
theorem forgetCanvas_of_not_mounted {s : Studio} {c : CanvasId}
    (h : ∀ o m, s.mounting? o = some m → m.value.canvas ≠ c) :
  s.forgetCanvas c = (0, s.update fun i _ => i.unregister c)
  := by
  apply Cache.visitAll_invariant (I := fun w : Nat × Studio =>
    w = (0, s.update fun i _ => i.unregister c)) (fst_forgetObject c)
  · rintro o m w rfl
    rw [forgetObject]
    dsimp only
    split
    · rfl
    · rename_i v mountings hv
      obtain ⟨e, he, hon, -⟩ := Cache.takeIf_eq_some hv
      exact absurd (of_decide_eq_true hon) (h o e he)
  · rfl

/-- A canvas that is not shown stays so. -/
theorem update_unregister {s : Studio} {c : CanvasId}
    (h : c ∉ s.inventory.registered) :
  (s.update fun i _ => i.unregister c) = s
  := by
  have hsame : s.inventory.registered.filter (· ≠ c) = s.inventory.registered := by
    rw [List.filter_eq_self]
    intro c' hc'
    rw [decide_eq_true_eq]
    rintro rfl
    exact h hc'
  rw [update, Inventory.unregister, hsame]

/-- A canvas that was forgotten is not forgotten again. -/
theorem forgetCanvas_forgetCanvas (s : Studio) (c : CanvasId) :
  (s.forgetCanvas c).2.forgetCanvas c = (0, (s.forgetCanvas c).2)
  := by
  have hgone : c ∉ (s.forgetCanvas c).2.inventory.registered := by
    rw [registered_forgetCanvas]
    simp
  rw [forgetCanvas_of_not_mounted fun o m => not_mounted_forgetCanvas,
    update_unregister hgone]

/-- The effect of forgetting a canvas.  The canvas is not registered any more, and the objects
mounted on it are unmounted and counted.  What belongs to any other object stays as it is, its
deadlines included, and there is no call about it; what is kept for no single object stays as well.
Nothing is left of the objects that were mounted on the canvas but for the texture and the theme of
a widget without renderer, and the renderer and the theme of an object that is not a widget.
Forgetting the canvas again does nothing. -/
theorem forgetCanvas_effects (s : Studio) (c : CanvasId) :
  let count := (s.forgetCanvas c).1
  let after := (s.forgetCanvas c).2
  (∀ c', c' ∈ after.inventory.registered ↔ c' ∈ s.inventory.registered ∧ c' ≠ c)
    ∧ (∀ o m, after.mounting? o = some m ↔ s.mounting? o = some m ∧ m.value.canvas ≠ c)
    ∧ (count = s.inventory.mountings.toList.countP fun e => e.2.canvas = c)
    ∧ (∀ o, (∀ m, s.mounting? o = some m → m.value.canvas ≠ c) →
      after.belongings o = s.belongings o)
    ∧ (∀ o m, s.mounting? o = some m → m.value.canvas = c →
      ((after.belongings o).Cleared
        ↔ match m.value.kind with
          | .widget => s.renderer? o = none → s.texture? o = none ∧ s.theme? o = none
          | .plain => s.renderer? o = none ∧ s.theme? o = none))
    ∧ after.inventory.texts = s.inventory.texts
    ∧ after.inventory.icons = s.inventory.icons
    ∧ after.inventory.schedule = s.inventory.schedule
    ∧ after.forgetCanvas c = (0, after)
  := by
  intro count after
  obtain ⟨_, _, hremoves, -⟩ := s.removes_forgetCanvas c
  refine ⟨?registered, ?mounted, s.fst_forgetCanvas c, ?others, ?cleared, hremoves.texts,
    hremoves.icons, hremoves.schedule, s.forgetCanvas_forgetCanvas c⟩
  case registered =>
    intro c'
    rw [registered_forgetCanvas, List.mem_filter, decide_eq_true_eq]
  case mounted =>
    intro o m
    rw [mounting?_forgetCanvas, notOn, Option.filter_eq_some_iff, decide_eq_true_eq]
  case others =>
    intro o h
    rw [belongings_forgetCanvas]
    exact Belongings.forget_of_not_mounted h
  case cleared =>
    intro o m hm hc
    rw [belongings_forgetCanvas]
    cases hk : m.value.kind with
    | widget => exact Belongings.cleared_forget_of_widget hm hc hk
    | plain => exact Belongings.cleared_forget_of_plain hm hc hk

/-- A widget that was never rendered is unmounted, but not all of its entries go. -/
theorem not_cleared_forgetCanvas :
  let s := (ofConfig .spread .standard .prompt).serveAll
    [(.ofNanos 1, .mount ⟨1⟩ ⟨⟨1⟩, .widget⟩), (.ofNanos 1, .texture ⟨1⟩)]
  (s.mounting? ⟨1⟩).map (·.value.canvas) = some ⟨1⟩
    ∧ ¬ ((s.forgetCanvas ⟨1⟩).2.belongings ⟨1⟩).Cleared
  := by
  intro s
  refine ⟨by decide +kernel, ?_⟩
  rintro ⟨-, -, htexture, -⟩
  have hkept : ((s.forgetCanvas ⟨1⟩).2.belongings ⟨1⟩).texture.isSome := by decide +kernel
  rw [htexture] at hkept
  cases hkept

end Studio

end FrameCache
