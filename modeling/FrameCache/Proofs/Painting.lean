import FrameCache.Proofs.Transactions

/-!
# What painting does to the entries of an object

A host is calm when only polling, animating, painting and creating take time.  On a calm host
a painted node has a mounting and, if it is a widget, a renderer of the same deadline.  The
entries of all other objects stay as they are.
-/

namespace FrameCache

/-- The clock may move during the call. -/
def Event.TakesTime : Event → Prop
  | .polled | .animated _ | .painted _ _ _ => True
  | .rendererCreated _ _ | .textureCreated _ _ => True
  | _ => False

/-- No other calls take time. -/
def Policy.Calm (p : Policy) : Prop := ∀ l e, ¬ e.TakesTime → p.pause l e = .zero

namespace Host

theorem now_record {h : Host} (hc : h.policy.Calm) {e : Event} (he : ¬ e.TakesTime) :
  (h.record e).now = h.now
  := by
  have hle := h.clock.now.le_horizon
  apply Instant.ext
  change (h.clock.now.nanos + min (h.policy.pause h.log e).nanos horizon) % (horizon + 1)
    = h.clock.now.nanos
  rw [hc _ _ he]
  apply Nat.mod_eq_of_lt
  change h.clock.now.nanos + min 0 horizon < _
  omega

theorem now_recordAll {h : Host} (hc : h.policy.Calm) {es : List Event}
    (he : ∀ e ∈ es, ¬ e.TakesTime) :
  (h.recordAll es).now = h.now
  := by
  induction es generalizing h with
  | nil => rfl
  | cons e es ih =>
    have hc' : (h.record e).policy.Calm := hc
    change ((h.record e).recordAll es).now = _
    rw [ih hc' fun e' he' => he e' (List.mem_cons_of_mem _ he'),
      now_record hc (he e List.mem_cons_self)]

end Host

namespace Studio

/-! ### Dismantling -/

theorem now_dismantle {s : Studio} (hc : s.host.policy.Calm) (o : ObjectId)
    (expiredAt : Option Instant) :
  (s.dismantle o expiredAt).2.now = s.now
  := by
  cases h : s.lapsedRenderer o expiredAt with
  | none => rw [dismantle_of_none h]
  | some r =>
    rw [dismantle_of_some h]
    apply Host.now_recordAll hc
    intro e he
    rcases List.mem_cons.1 he with rfl | he
    · exact id
    rcases List.mem_cons.1 he with rfl | he
    · exact id
    obtain ⟨t, -, rfl⟩ := List.mem_map.1 he
    exact id

@[simp]
theorem lifetime_renderers_dismantle (s : Studio) (o : ObjectId) (expiredAt : Option Instant) :
  (s.dismantle o expiredAt).2.inventory.renderers.lifetime = s.inventory.renderers.lifetime
  := by
  cases h : s.lapsedRenderer o expiredAt with
  | none => rw [dismantle_of_none h]
  | some r =>
    rw [dismantle_of_some h]
    apply Cache.lifetime_takeIf

/-! ### Renderers -/

@[simp]
theorem mountings_create (s : Studio) (o : ObjectId) :
  (s.create o).inventory.mountings = s.inventory.mountings
  := rfl

@[simp]
theorem texture?_create (s : Studio) (o o' : ObjectId) :
  (s.create o).texture? o' = s.texture? o'
  := rfl

/-- A renderer that was asked for lives one lifetime. -/
theorem exists_renderer?_renderer {s : Studio} (hc : s.host.policy.Calm) (o : ObjectId) :
  ∃ r, (s.renderer o).2.renderer? o
    = some ⟨r, s.now.after s.inventory.renderers.lifetime⟩
  := by
  cases h : s.inventory.renderers.peek o s.now with
  | some r =>
    use r
    rw [renderer_of_live h]
    change (s.inventory.renderers.get o s.now).2.store.find? o = _
    rw [Cache.find?_get_of_live _ _ _ _ h, if_pos rfl]
  | none =>
    let s₁ := (s.query fun i now => i.findRenderer o now).2
    have hnow : (s₁.dismantle o (some s.now)).2.now = s.now := now_dismantle (s := s₁) hc _ _
    have hlife : (s₁.dismantle o (some s.now)).2.inventory.renderers.lifetime
        = s.inventory.renderers.lifetime := by
      rw [lifetime_renderers_dismantle]
      apply Cache.lifetime_get
    use ⟨(s₁.dismantle o (some s.now)).2.host.log.renderers + 1⟩
    rw [renderer_of_not_live h, renderer?_create, if_pos rfl, hnow, hlife]

theorem renderer?_renderer_of_ne (s : Studio) {o o' : ObjectId} (ho : o' ≠ o) :
  (s.renderer o).2.renderer? o' = s.renderer? o'
  := by
  cases h : s.inventory.renderers.peek o s.now with
  | some r =>
    rw [renderer_of_live h]
    change (s.inventory.renderers.get o s.now).2.store.find? o' = _
    rw [Cache.find?_get_of_live _ _ _ _ h, if_neg ho]
    rfl
  | none =>
    rw [renderer_of_not_live h, renderer?_create, if_neg ho, renderer?_dismantle, if_neg ho]
    change (s.inventory.renderers.get o s.now).2.store.find? o' = _
    rw [Cache.find?_get_of_not_live _ _ _ _ h]
    rfl

@[simp]
theorem mountings_renderer (s : Studio) (o : ObjectId) :
  (s.renderer o).2.inventory.mountings = s.inventory.mountings
  := by
  cases h : s.inventory.renderers.peek o s.now with
  | some r =>
    rw [renderer_of_live h]
    rfl
  | none =>
    rw [renderer_of_not_live h, mountings_create, mountings_dismantle]
    rfl

/-- Asking for a renderer takes a texture away, if any, only from the same object. -/
theorem texture?_renderer (s : Studio) (o o' : ObjectId) :
  (s.renderer o).2.texture? o' = s.texture? o' ∨
    o' = o ∧ (s.renderer o).2.texture? o' = none
  := by
  cases h : s.inventory.renderers.peek o s.now with
  | some r =>
    rw [renderer_of_live h]
    apply Or.inl rfl
  | none =>
    rw [renderer_of_not_live h, texture?_create, texture?_dismantle]
    split
    · rename_i ho
      apply Or.inr ⟨ho.1, rfl⟩
    · apply Or.inl rfl

/-! ### Textures -/

theorem texture?_texture_of_ne (s : Studio) {o o' : ObjectId} (ho : o' ≠ o) :
  (s.texture o).2.texture? o' = s.texture? o'
  := by
  cases h : s.inventory.textures.peek o s.now with
  | some t =>
    rw [texture_of_live h]
    apply (Cache.find?_renew _ _ _ _).trans
    rw [if_neg ho]
    rfl
  | none =>
    rw [texture_of_not_live h, texture?_keepUpload, if_neg fun h => ho h.1]

/-- A texture that was asked for lives one lifetime, unless its upload failed. -/
theorem texture?_texture (s : Studio) (o : ObjectId) {t : Entry Texture}
    (ht : (s.texture o).2.texture? o = some t) :
  t.deadline = s.now.after s.inventory.textures.lifetime ∨ s.texture? o = some t
  := by
  cases h : s.inventory.textures.peek o s.now with
  | some u =>
    rw [texture_of_live h] at ht
    have hr : (s.inventory.textures.renew o s.now).store.find? o = some t := ht
    rw [Cache.find?_renew, if_pos rfl] at hr
    obtain ⟨e, -, rfl⟩ := Option.map_eq_some_iff.1 hr
    apply Or.inl rfl
  | none =>
    rw [texture_of_not_live h, texture?_keepUpload] at ht
    split at ht
    · obtain ⟨u, -, rfl⟩ := Option.map_eq_some_iff.1 ht
      apply Or.inl rfl
    · apply Or.inr ht

/-! ### Nodes -/

@[simp]
theorem mountings_provideRenderer (s : Studio) (n : Node) :
  (s.provideRenderer n).inventory.mountings = s.inventory.mountings
  := by
  rw [provideRenderer]
  split
  · apply mountings_renderer
  · rfl

@[simp]
theorem mountings_provideTexture (s : Studio) (n : Node) :
  (s.provideTexture n).2.inventory.mountings = s.inventory.mountings
  := by
  rw [provideTexture]
  split
  · rfl
  · rfl

@[simp]
theorem renderers_provideTexture (s : Studio) (n : Node) :
  (s.provideTexture n).2.inventory.renderers = s.inventory.renderers
  := by
  rw [provideTexture]
  split
  · rfl
  · rfl

theorem mounting?_paintNode (c : CanvasId) (s : Studio) (n : Node) (p : Position)
    (o : ObjectId) :
  (paintNode c s (n, p)).mounting? o
    = if o = n.object then some ⟨⟨c, n.kind⟩, s.now.after s.inventory.mountings.lifetime⟩
      else s.mounting? o
  := by
  have h : (paintNode c s (n, p)).inventory.mountings
      = (s.inventory.mount n.object ⟨c, n.kind⟩ s.now).mountings := by
    rw [paintNode_eq]
    change (provideTexture _ n).2.inventory.mountings = _
    rw [mountings_provideTexture, mountings_provideRenderer]
    rfl
  rw [mounting?, h, Inventory.find?_mount]
  rfl

@[simp]
theorem renderer?_mount (s : Studio) (o o' : ObjectId) (m : Mounting) :
  (s.update fun i now => i.mount o m now).renderer? o' = s.renderer? o'
  := by
  rw [update, Inventory.mount_eq]
  rfl

@[simp]
theorem texture?_mount (s : Studio) (o o' : ObjectId) (m : Mounting) :
  (s.update fun i now => i.mount o m now).texture? o' = s.texture? o'
  := by
  rw [update, Inventory.mount_eq]
  rfl

@[simp]
theorem renderers_mount (s : Studio) (o : ObjectId) (m : Mounting) :
  (s.update fun i now => i.mount o m now).inventory.renderers = s.inventory.renderers
  := by
  rw [update, Inventory.mount_eq]

theorem renderer?_paintNode (c : CanvasId) (s : Studio) (n : Node) (p : Position)
    (o : ObjectId) :
  (paintNode c s (n, p)).renderer? o
    = ((s.update fun i now => i.mount n.object ⟨c, n.kind⟩ now).provideRenderer n).renderer? o
  := by
  rw [paintNode_eq, renderer?]
  change (provideTexture _ n).2.inventory.renderers.store.find? o = _
  rw [renderers_provideTexture]
  rfl

theorem provideRenderer_of_widget (s : Studio) {n : Node} (hn : n.kind = .widget) :
  s.provideRenderer n = (s.renderer n.object).2
  := by
  rw [provideRenderer, hn]

theorem provideRenderer_of_plain (s : Studio) {n : Node} (hn : n.kind = .plain) :
  s.provideRenderer n = s
  := by
  rw [provideRenderer, hn]

theorem renderer?_paintNode_of_ne (c : CanvasId) (s : Studio) {n : Node} (p : Position)
    {o : ObjectId} (ho : o ≠ n.object) :
  (paintNode c s (n, p)).renderer? o = s.renderer? o
  := by
  rw [renderer?_paintNode]
  cases hn : n.kind with
  | widget => rw [provideRenderer_of_widget _ hn, renderer?_renderer_of_ne _ ho, renderer?_mount]
  | plain => rw [provideRenderer_of_plain _ hn, renderer?_mount]

/-- Painting a plain node leaves the renderer of its object alone, if there is one. -/
theorem renderer?_paintNode_of_plain (c : CanvasId) (s : Studio) {n : Node} (p : Position)
    (hn : n.kind = .plain) (o : ObjectId) :
  (paintNode c s (n, p)).renderer? o = s.renderer? o
  := by
  rw [renderer?_paintNode, provideRenderer_of_plain _ hn, renderer?_mount]

/-- A painted widget has a renderer that lives for one lifetime. -/
theorem exists_renderer?_paintNode (c : CanvasId) {s : Studio} (hc : s.host.policy.Calm)
    {n : Node} (p : Position) (hn : n.kind = .widget) :
  ∃ r, (paintNode c s (n, p)).renderer? n.object
    = some ⟨r, s.now.after s.inventory.renderers.lifetime⟩
  := by
  have hmounted : (s.update fun i now => i.mount n.object ⟨c, n.kind⟩ now).host.policy.Calm := hc
  obtain ⟨r, hr⟩ := exists_renderer?_renderer hmounted n.object
  rw [renderers_mount] at hr
  use r
  rw [renderer?_paintNode, provideRenderer_of_widget _ hn, hr]
  rfl

theorem texture?_paintNode_of_ne (c : CanvasId) (s : Studio) {n : Node} (p : Position)
    {o : ObjectId} (ho : o ≠ n.object) :
  (paintNode c s (n, p)).texture? o = s.texture? o
  := by
  have hrenderer : ∀ s : Studio, (s.provideRenderer n).texture? o = s.texture? o := by
    intro s
    rw [provideRenderer]
    split
    · rcases s.texture?_renderer n.object o with h | h
      · apply h
      · apply absurd h.1 ho
    · rfl
  have htexture : ∀ s : Studio, (s.provideTexture n).2.texture? o = s.texture? o := by
    intro s
    rw [provideTexture]
    split
    · apply texture?_texture_of_ne s ho
    · rfl
  rw [paintNode_eq]
  apply (htexture _).trans
  rw [hrenderer, texture?_mount]

/-! ### Walking -/

theorem mounting?_renew (s : Studio) (o o' : ObjectId) :
  (s.renew o).mounting? o'
    = if o' = o then
        (s.mounting? o).map (·.postpone (s.now.after s.inventory.mountings.lifetime))
      else s.mounting? o'
  := by
  rw [renew, query, Inventory.touch_eq]
  apply Cache.find?_renew

/-- Walking over an object renews its renderer only if it is mounted. -/
theorem renderer?_renew (s : Studio) (o o' : ObjectId) :
  (s.renew o).renderer? o'
    = if o' = o ∧ (s.mounting? o).isSome then
        (s.renderer? o).map (·.postpone (s.now.after s.inventory.renderers.lifetime))
      else s.renderer? o'
  := by
  have h : (s.renew o).inventory.renderers = if (s.mounting? o).isSome then
      s.inventory.renderers.renew o s.now else s.inventory.renderers := by
    rw [renew, query, Inventory.touch_eq]
    rfl
  rw [renderer?, h]
  by_cases hm : (s.mounting? o).isSome
  · simp only [hm, and_true, if_true]
    apply Cache.find?_renew
  · rw [if_neg hm, if_neg fun h => hm h.2]
    rfl

@[simp]
theorem texture?_renew (s : Studio) (o o' : ObjectId) :
  (s.renew o).texture? o' = s.texture? o'
  := by
  rw [renew, query, Inventory.touch_eq]
  rfl

end Studio

end FrameCache
