import FrameCache.Proofs.CacheView
import FrameCache.Studio.Draw
import FrameCache.Studio.Sweep

/-!
# The view of a studio

`Studio.mounting?`, `Studio.renderer?`, `Studio.texture?` and `Studio.theme?` are the entries
of an object.  The operations of a studio are put here into forms without case distinctions,
and described by what they do to these entries.  Everything that a studio does to its host
is to record calls.
-/

namespace FrameCache

namespace Host

/-- The host after several calls, the earliest listed first. -/
def recordAll (h : Host) (es : List Event) : Host := es.foldl record h

theorem recordAll_append (h : Host) (es es' : List Event) :
  h.recordAll (es ++ es') = (h.recordAll es).recordAll es'
  := List.foldl_append

@[simp]
theorem policy_recordAll (h : Host) (es : List Event) :
  (h.recordAll es).policy = h.policy
  := by
  apply List.foldlRecOn (motive := fun h' : Host => h'.policy = h.policy) es record rfl
  intro h' hh e _
  apply hh

end Host

/-- The entry counts as lapsed when nothing is said, or when its deadline has passed at the
instant given. -/
def Entry.lapsedBy {V : Type} (expiredAt : Option Instant) (e : Entry V) : Bool :=
  expiredAt.all (e.deadline ≤ ·)

namespace Inventory

/-- Mounting an object changes no cache but the mountings. -/
theorem mount_eq (i : Inventory) (o : ObjectId) (m : Mounting) (now : Instant) :
  i.mount o m now = { i with mountings := (i.mount o m now).mountings }
  := by
  rw [mount]
  split
  split
  · rfl
  · rfl

theorem find?_mount (i : Inventory) (o o' : ObjectId) (m : Mounting) (now : Instant) :
  (i.mount o m now).mountings.store.find? o'
    = if o' = o then some ⟨m, now.after i.mountings.lifetime⟩ else i.mountings.store.find? o'
  := by
  rw [mount]
  split
  rename_i current mountings h
  have hc : i.mountings.peek o now = current := by rw [← Cache.fst_get, h]
  have hm : (i.mountings.get o now).2 = mountings := by rw [h]
  split
  · rename_i hcm
    rw [hcm] at hc
    rw [← hm]
    apply Cache.find?_get_of_live _ _ _ _ hc
  · have hother : o' ≠ o → mountings.store.find? o' = i.mountings.store.find? o' := by
      intro ho
      rw [← hm, Cache.find?_get_of_ne _ _ ho]
    change (mountings.insert o now m).2.store.find? o' = _
    rw [Cache.find?_insert, ← hm, Cache.lifetime_get]
    split
    · rfl
    · rename_i ho
      rw [hm, hother ho]

@[simp]
theorem lifetime_mount (i : Inventory) (o : ObjectId) (m : Mounting) (now : Instant) :
  (i.mount o m now).mountings.lifetime = i.mountings.lifetime
  := by
  rw [mount]
  split
  rename_i current mountings h
  have hm : mountings = (i.mountings.get o now).2 := by rw [h]
  split
  · rw [hm]
    apply Cache.lifetime_get
  · change (mountings.insert o now m).2.lifetime = _
    rw [hm, Cache.lifetime_insert, Cache.lifetime_get]

/-- Renewing an object renews its renderer only if it is mounted. -/
theorem touch_eq (i : Inventory) (o : ObjectId) (now : Instant) :
  i.touch o now = (i.mountings.contains o, { i with
    mountings := i.mountings.renew o now
    renderers := if i.mountings.contains o then i.renderers.renew o now else i.renderers })
  := by
  rw [touch]
  split
  · rename_i h
    obtain ⟨hf, rfl⟩ := Prod.mk.inj h
    rw [hf]
    rfl
  · rename_i h
    obtain ⟨ht, rfl⟩ := Prod.mk.inj h
    rw [ht]
    rfl

end Inventory

namespace Studio

/-- The entry of `o` among the mountings. -/
def mounting? (s : Studio) (o : ObjectId) : Option (Entry Mounting) :=
  s.inventory.mountings.store.find? o

/-- The entry of `o` among the renderers. -/
def renderer? (s : Studio) (o : ObjectId) : Option (Entry Renderer) :=
  s.inventory.renderers.store.find? o

/-- The entry of `o` among the textures. -/
def texture? (s : Studio) (o : ObjectId) : Option (Entry Texture) :=
  s.inventory.textures.store.find? o

/-- The entry of `o` among the themes. -/
def theme? (s : Studio) (o : ObjectId) : Option (Entry WidgetTheme) :=
  s.inventory.themes.store.find? o

/-! ### Textures -/

theorem dropTexture_eq (s : Studio) (o : ObjectId) :
  (s.dropTexture o).2 = { s with
    inventory.textures := (s.inventory.textures.remove o).2
    host := s.host.recordAll
      ((s.inventory.textures.resident o).toList.map (Event.textureDeleted o)) }
  := by
  rw [dropTexture, ← Cache.fst_remove]
  split
  · rename_i h t textures ht
    rw [ht]
    rfl
  · rename_i h t ht
    obtain ⟨-, hc⟩ := Cache.takeIf_eq_none ht
    rw [ht, hc]
    rfl

/-! ### Renderers -/

/-- Taking the renderer of `o` out of its cache, as `Studio.dismantle` does. -/
def takeRenderer (s : Studio) (o : ObjectId) (expiredAt : Option Instant) :
    Option Renderer × Cache ObjectId Renderer :=
  s.inventory.renderers.takeIf o (if expiredAt.isSome then .expired else .explicit)
    (Entry.lapsedBy expiredAt)

theorem dismantle_eq_takeRenderer (s : Studio) (o : ObjectId) (expiredAt : Option Instant) :
  s.dismantle o expiredAt = match s.takeRenderer o expiredAt with
    | (none, _) => (false, s)
    | (some r, renderers) =>
      let s := { s with inventory.renderers := renderers }
      let s := (s.record (.rendererDestroyed o r)).record (.rendererReleased o)
      let s := (s.dropTexture o).2
      (true, { s with inventory.themes := (s.inventory.themes.remove o).2 })
  := by
  cases expiredAt with
  | none => rfl
  | some t => rfl

/-- The renderer of `o` that is destroyed when those that count as lapsed are. -/
def lapsedRenderer (s : Studio) (o : ObjectId) (expiredAt : Option Instant) : Option Renderer :=
  ((s.renderer? o).filter (Entry.lapsedBy expiredAt)).map Entry.value

theorem fst_takeRenderer (s : Studio) (o : ObjectId) (expiredAt : Option Instant) :
  (s.takeRenderer o expiredAt).1 = s.lapsedRenderer o expiredAt
  := Cache.fst_takeIf _ _ _ _

/-- Where no renderer has lapsed, nothing is dismantled. -/
theorem dismantle_of_none {s : Studio} {o : ObjectId} {expiredAt : Option Instant}
    (h : s.lapsedRenderer o expiredAt = none) :
  s.dismantle o expiredAt = (false, s)
  := by
  rw [dismantle_eq_takeRenderer]
  split
  · rfl
  · rename_i r renderers ht
    rw [← fst_takeRenderer, ht] at h
    cases h

/-- A renderer that has lapsed is dismantled with all that belongs to its object. -/
theorem dismantle_of_some {s : Studio} {o : ObjectId} {expiredAt : Option Instant} {r : Renderer}
    (h : s.lapsedRenderer o expiredAt = some r) :
  s.dismantle o expiredAt = (true, { s with
    inventory.renderers := (s.takeRenderer o expiredAt).2
    inventory.textures := (s.inventory.textures.remove o).2
    inventory.themes := (s.inventory.themes.remove o).2
    host := s.host.recordAll (.rendererDestroyed o r :: .rendererReleased o
      :: (s.inventory.textures.resident o).toList.map (Event.textureDeleted o)) })
  := by
  rw [dismantle_eq_takeRenderer]
  rw [← fst_takeRenderer] at h
  split
  · rename_i ht
    rw [ht] at h
    cases h
  · rename_i r' renderers ht
    rw [ht] at h
    cases h
    rw [ht]
    dsimp only
    rw [dropTexture_eq]
    rfl

theorem renderer?_dismantle (s : Studio) (o o' : ObjectId) (expiredAt : Option Instant) :
  (s.dismantle o expiredAt).2.renderer? o'
    = if o' = o then (s.renderer? o).filter fun e => !e.lapsedBy expiredAt else s.renderer? o'
  := by
  have ht : (s.takeRenderer o expiredAt).2.store.find? o'
      = if o' = o then (s.renderer? o).filter fun e => !e.lapsedBy expiredAt
        else s.renderer? o' := Cache.find?_takeIf _ _ _ _ _
  cases h : s.lapsedRenderer o expiredAt with
  | none =>
    rw [dismantle_of_none h]
    split
    · rename_i ho
      rw [ho]
      rw [lapsedRenderer] at h
      cases he : s.renderer? o with
      | none => rfl
      | some e =>
        rw [he] at h
        have hl : e.lapsedBy expiredAt = false := by simpa using h
        rw [Option.filter_some, hl]
        rfl
    · rfl
  | some r =>
    rw [dismantle_of_some h]
    apply ht

theorem texture?_dropTexture (s : Studio) (o o' : ObjectId) :
  (s.dropTexture o).2.texture? o' = if o' = o then none else s.texture? o'
  := by
  rw [dropTexture_eq]
  apply Cache.find?_remove

theorem texture?_dismantle (s : Studio) (o o' : ObjectId) (expiredAt : Option Instant) :
  (s.dismantle o expiredAt).2.texture? o'
    = if o' = o ∧ (s.lapsedRenderer o expiredAt).isSome then none else s.texture? o'
  := by
  cases h : s.lapsedRenderer o expiredAt with
  | none =>
    rw [dismantle_of_none h]
    simp
  | some r =>
    rw [dismantle_of_some h]
    simpa using! Cache.find?_remove _ _ _

theorem theme?_dismantle (s : Studio) (o o' : ObjectId) (expiredAt : Option Instant) :
  (s.dismantle o expiredAt).2.theme? o'
    = if o' = o ∧ (s.lapsedRenderer o expiredAt).isSome then none else s.theme? o'
  := by
  cases h : s.lapsedRenderer o expiredAt with
  | none =>
    rw [dismantle_of_none h]
    simp
  | some r =>
    rw [dismantle_of_some h]
    simpa using! Cache.find?_remove _ _ _

@[simp]
theorem mountings_dropTexture (s : Studio) (o : ObjectId) :
  (s.dropTexture o).2.inventory.mountings = s.inventory.mountings
  := by
  rw [dropTexture_eq]

@[simp]
theorem renderers_dropTexture (s : Studio) (o : ObjectId) :
  (s.dropTexture o).2.inventory.renderers = s.inventory.renderers
  := by
  rw [dropTexture_eq]

@[simp]
theorem mountings_dismantle (s : Studio) (o : ObjectId) (expiredAt : Option Instant) :
  (s.dismantle o expiredAt).2.inventory.mountings = s.inventory.mountings
  := by
  cases h : s.lapsedRenderer o expiredAt with
  | none => rw [dismantle_of_none h]
  | some r => rw [dismantle_of_some h]

/-! ### Creating renderers -/

/-- Has the widget `o` create a renderer and keeps it. -/
def create (s : Studio) (o : ObjectId) : Studio :=
  let (r, host) := s.host.createRenderer o
  { s with inventory.renderers := s.inventory.renderers.create o s.now r, host }

theorem renderer?_create (s : Studio) (o o' : ObjectId) :
  (s.create o).renderer? o'
    = if o' = o then some ⟨⟨s.host.log.renderers + 1⟩, s.now.after s.inventory.renderers.lifetime⟩
      else s.renderer? o'
  := Cache.find?_create _ _ _ _ _

/-- Where there is no renderer, looking one up creates it. -/
theorem create_of_none {s : Studio} {o : ObjectId} (h : s.renderer? o = none) :
  { s with
    inventory.renderers :=
      (s.inventory.renderers.fetch o s.now (Host.createRenderer o) s.host).2.1
    host := (s.inventory.renderers.fetch o s.now (Host.createRenderer o) s.host).2.2 }
    = s.create o
  := by
  have hp : s.inventory.renderers.peek o s.now = none := by
    apply Cache.peek_eq_none_iff.2
    intro e he
    rw [renderer?, he] at h
    cases h
  rw [Cache.fetch, hp]
  rfl

/-- A live renderer is only looked up. -/
theorem renderer_of_live {s : Studio} {o : ObjectId} {r : Renderer}
    (h : s.inventory.renderers.peek o s.now = some r) :
  (s.renderer o).2 = (s.query fun i now => i.findRenderer o now).2
  := by
  rw [renderer]
  split
  · rename_i r' renderers hg
    rw [query, Inventory.findRenderer, hg]
  · rename_i renderers hg
    rw [← Cache.fst_get, hg] at h
    cases h

/-- Once a renderer that is not alive was looked up, what is left of it can be dismantled. -/
theorem renderer?_dismantle_of_not_live {s : Studio} {o : ObjectId}
    (h : s.inventory.renderers.peek o s.now = none) :
  ((s.query fun i now => i.findRenderer o now).2.dismantle o (some s.now)).2.renderer? o = none
  := by
  have hq : (s.query fun i now => i.findRenderer o now).2.renderer? o = s.renderer? o :=
    Cache.find?_get_of_not_live _ _ _ _ h
  rw [renderer?_dismantle, if_pos rfl, hq, Option.filter_eq_none_iff]
  intro e he
  have hle := Cache.peek_eq_none_iff.1 h e he
  simp [Entry.lapsedBy, hle]

/-- In place of a renderer that is not alive a new one is created, after what is left of the
old one was dismantled. -/
theorem renderer_of_not_live {s : Studio} {o : ObjectId}
    (h : s.inventory.renderers.peek o s.now = none) :
  (s.renderer o).2
    = ((s.query fun i now => i.findRenderer o now).2.dismantle o (some s.now)).2.create o
  := by
  have hd := renderer?_dismantle_of_not_live h
  rw [renderer]
  split
  · rename_i r' renderers hg
    rw [← Cache.fst_get, hg] at h
    cases h
  · rename_i renderers hg
    rw [query, Inventory.findRenderer, hg] at hd ⊢
    apply create_of_none hd

/-! ### Uploading textures -/

/-- A live texture is only renewed. -/
theorem texture_of_live {s : Studio} {o : ObjectId} {t : Texture}
    (h : s.inventory.textures.peek o s.now = some t) :
  s.texture o
    = (some t, { s with inventory.textures := (s.inventory.textures.renew o s.now).countHit })
  := by
  rw [texture, Cache.fetch?, h]

/-- The upload of a texture for `o` yields `t`, which is kept unless the upload failed. -/
def keepUpload (s : Studio) (o : ObjectId) (t : Option Texture) : Studio :=
  { s with
    inventory.textures := match t with
      | some t => s.inventory.textures.create o s.now t
      | none => s.inventory.textures.countMiss
    host := s.host.record (.textureCreated o t) }

theorem texture?_keepUpload (s : Studio) (o o' : ObjectId) (t : Option Texture) :
  (s.keepUpload o t).texture? o' = if o' = o ∧ t.isSome then
      t.map fun t => ⟨t, s.now.after s.inventory.textures.lifetime⟩
    else s.texture? o'
  := by
  cases t with
  | none =>
    rw [if_neg (by simp)]
    rfl
  | some t => simpa using! Cache.find?_create _ _ _ _ _

@[simp]
theorem lifetime_keepUpload (s : Studio) (o : ObjectId) (t : Option Texture) :
  (s.keepUpload o t).inventory.textures.lifetime = s.inventory.textures.lifetime
  := by
  cases t with
  | none => rfl
  | some t => apply Cache.lifetime_create

/-- In place of a texture that is not alive one is uploaded. -/
theorem texture_of_not_live {s : Studio} {o : ObjectId}
    (h : s.inventory.textures.peek o s.now = none) :
  s.texture o = (s.host.policy.upload s.host.log o,
    s.keepUpload o (s.host.policy.upload s.host.log o))
  := by
  rw [texture, Cache.fetch?, h]
  cases hu : s.host.policy.upload s.host.log o with
  | some t => simp only [Host.createTexture, hu, keepUpload]
  | none => simp only [Host.createTexture, hu, keepUpload]

/-! ### Painting -/

/-- Gets the renderer that a node needs. -/
def provideRenderer (s : Studio) (n : Node) : Studio :=
  match n.kind with
  | .widget => (s.renderer n.object).2
  | .plain => s

/-- Gets the texture that a node needs. -/
def provideTexture (s : Studio) (n : Node) : Option Texture × Studio :=
  if n.textured then s.texture n.object else (none, s)

/-- A node is painted once it is mounted and has its renderer and its texture. -/
theorem paintNode_eq (c : CanvasId) (s : Studio) (n : Node) (p : Position) :
  paintNode c s (n, p)
    = let r := ((s.update fun i now => i.mount n.object ⟨c, n.kind⟩ now).provideRenderer
        n).provideTexture n
      r.2.record (.painted n.object p r.1)
  := rfl

/-! ### Walking -/

/-- Keeps the entries of an object alive. -/
def renew (s : Studio) (o : ObjectId) : Studio := (s.query fun i now => i.touch o now).2

theorem snd_keepAlive (s : Studio) (nodes : List (Node × Position)) :
  (s.keepAlive nodes).2 = nodes.foldl (fun s n => s.renew n.1.object) s
  := by
  induction nodes generalizing s with
  | nil => rfl
  | cons n nodes ih => apply ih

/-! ### Sweeping -/

/-- Unmounts an object whose canvas is in scope if its deadline has passed, and gives back
what it owns. -/
def unmountIfExpired (now : Instant) (canvases : List CanvasId) (s : Studio)
    (e : ObjectId × Mounting) : Studio :=
  if s.inScope e.2.canvas canvases then
    match s.inventory.mountings.removeLapsed e.1 now with
    | (none, _) => s
    | (some _, mountings) =>
      (({ s with inventory.mountings := mountings } : Studio).release e.1 e.2.kind (some now)).2
  else s

theorem snd_unmountExpired (now : Instant) (canvases : List CanvasId)
    (es : List (ObjectId × Mounting)) (s : Studio) :
  (unmountExpired now canvases es s).2 = es.foldl (unmountIfExpired now canvases) s
  := by
  induction es generalizing s with
  | nil => rfl
  | cons e es ih =>
    rw [unmountExpired, List.foldl_cons, unmountIfExpired]
    split
    · rcases s.inventory.mountings.removeLapsed e.1 now with ⟨_ | m, mountings⟩
      · apply ih
      · apply ih
    · apply ih

theorem snd_dismantleExpired (now : Instant) (es : List (ObjectId × Renderer)) (s : Studio) :
  (dismantleExpired now es s).2 = es.foldl (fun s e => (s.dismantle e.1 (some now)).2) s
  := by
  induction es generalizing s with
  | nil => rfl
  | cons e es ih => apply ih

theorem snd_sweepObjects (s : Studio) (now : Instant) (canvases : List CanvasId) :
  (s.sweepObjects now canvases).2
    = let s := (unmountExpired now canvases (s.inventory.mountings.lapsedEntries now) s).2
      (dismantleExpired now (s.inventory.renderers.lapsedEntries now) s).2
  := by
  rw [sweepObjects]

/-- The studio after the schedule was asked for a decision. -/
def planned (s : Studio) (repainted : Bool) (refreshed : List CanvasId) : Studio :=
  { s with
    inventory.schedule := (s.inventory.schedule.decideAt s.now repainted refreshed).2 }

theorem snd_sweep (s : Studio) (repainted : Bool) (refreshed : List CanvasId) :
  (s.sweep repainted refreshed).2
    = let decision := (s.inventory.schedule.decideAt s.now repainted refreshed).1
      match decision.depth with
      | .skipped => s.planned repainted refreshed
      | .light => ((s.planned repainted refreshed).sweepValues s.now).2
      | .full =>
        (((s.planned repainted refreshed).sweepValues s.now).2.sweepObjects s.now
          decision.canvases).2
  := by
  rw [sweep]
  dsimp only
  generalize (s.inventory.schedule.decideAt s.now repainted refreshed).1.depth = depth
  cases depth with
  | skipped => simp only [planned]
  | light => simp only [planned]
  | full => simp only [planned]

/-! ### Tearing down -/

@[simp]
theorem mountings_release (s : Studio) (o : ObjectId) (kind : ObjectKind)
    (expiredAt : Option Instant) :
  (s.release o kind expiredAt).2.inventory.mountings = s.inventory.mountings
  := by
  cases kind with
  | widget => apply mountings_dismantle
  | plain => apply mountings_dropTexture

theorem fst_forgetObject (c : CanvasId) (o : ObjectId) (m : Mounting) (w : Nat × Studio) :
  (forgetObject c o m w).1 = true
  := by
  rw [forgetObject]
  dsimp only
  split
  · rfl
  · rfl

theorem mountings_forgetObject (c : CanvasId) (o : ObjectId) (m : Mounting) (w : Nat × Studio) :
  (forgetObject c o m w).2.2.inventory.mountings
    = (w.2.inventory.mountings.removeIf o fun m => m.canvas = c).2
  := by
  rw [forgetObject]
  dsimp only
  split
  · rename_i mountings hv
    obtain ⟨-, hm⟩ := Cache.takeIf_eq_none hv
    rw [hv, hm]
  · rename_i v mountings hv
    rw [hv, mountings_release]

end Studio

end FrameCache
